import CommandRing.Driver.Session
import CommandRing.Kernel

/-!
# Both sides of a ring

An `Exchange` is a driver in use and the kernel that answers it, on one memory that nobody else touches. It
keeps what the driver's calls answered and which responses the kernel wrote, in order.

The kernel answers in two steps: it writes the response over the slot at its head, and then moves the head
on. Between the two the driver can already read the response, although the head does not say that it is
there. `Reachable` is about a kernel that takes both steps at once; `SlowlyReachable` allows calls of the
driver between them.
-/

namespace CommandRing

/-- A driver, its kernel, and what has passed between them. -/
structure Exchange where
  session : Session
  memory : Region
  kernel : Kernel
  /-- What the calls answered. -/
  replies : List Reply
  /-- The responses that the kernel wrote. -/
  answers : List Response
  /-- How many of them the kernel's head was moved over. -/
  passed : Nat
deriving DecidableEq

namespace Exchange

variable (e : Exchange)

/-- The ids of the commands that were published. -/
def published : List CommandId := Session.submittedIds e.replies

/-- The responses that the driver handed on. -/
def yielded : List Response := Session.yielded e.replies

/-- A command with this id was published more often than it was answered. -/
def Awaits (id : CommandId) : Prop := (e.answers.map Response.id).count id < e.published.count id

instance (id : CommandId) : Decidable (e.Awaits id) := inferInstanceAs (Decidable (_ < _))

/-- A driver and a kernel that take over the ring of a memory. -/
def attach (layout : Layout) (memory : Region) : Except Error Exchange :=
  match memory.mailbox, Driver.attach layout memory with
  | .ok mailbox, (.ok d, memory) =>
    .ok ⟨Session.idle d, memory, Kernel.ofMailbox layout mailbox, [], [], 0⟩
  | .error error, _ => .error error
  | _, (.error error, _) => .error error

def call (c : Call) : Exchange :=
  match e.session.call e.memory c with
  | (reply, session, memory) =>
    { e with session := session, memory := memory, replies := e.replies ++ [reply] }

/-- The kernel writes a response over the slot at its head, if it can. -/
def write (id : CommandId) (status : UInt8) (sense : Bytes) : Exchange :=
  match e.kernel.fill id { status := status, sense := sense } with
  | .error _ => e
  | .ok slot =>
    match e.kernel.overwrite e.memory slot with
    | .error _ => e
    | .ok memory =>
      { e with
        memory := memory
        answers := e.answers ++ [Response.answering e.kernel.layout id status sense] }

/-- The kernel moves its head on and shows it. -/
def advance : Exchange :=
  match e.kernel.advance e.memory with
  | (_, kernel, memory) => { e with kernel := kernel, memory := memory, passed := e.passed + 1 }

/-- The kernel answers a command in one step, if it can. -/
def answer (id : CommandId) (status : UInt8) (sense : Bytes) : Exchange :=
  match e.kernel.complete e.memory id { status := status, sense := sense } with
  | (.error _, kernel, memory) => { e with kernel := kernel, memory := memory }
  | (.ok (), kernel, memory) =>
    { e with
      kernel := kernel
      memory := memory
      answers := e.answers ++ [Response.answering e.kernel.layout id status sense]
      passed := e.passed + 1 }

/-- What can be reached from an attached ring when the kernel answers each command at once. -/
inductive Reachable : Exchange → Prop where
  | attached {layout : Layout} {memory : Region} {e : Exchange} :
      attach layout memory = .ok e → Reachable e
  | called {e : Exchange} (c : Call) : Reachable e → Reachable (e.call c)
  | answered {e : Exchange} (id : CommandId) (status : UInt8) (sense : Bytes) :
      Reachable e → e.Awaits id → Reachable (e.answer id status sense)

/-- What can be reached with the calls that `allows` permits, when the kernel writes a response first and
moves its head over it later. -/
inductive SlowlyReachable (allows : Exchange → Call → Prop) : Exchange → Prop where
  | attached {layout : Layout} {memory : Region} {e : Exchange} :
      attach layout memory = .ok e → SlowlyReachable allows e
  | called {e : Exchange} {c : Call} :
      SlowlyReachable allows e → allows e c → SlowlyReachable allows (e.call c)
  | wrote {e : Exchange} (id : CommandId) (status : UInt8) (sense : Bytes) :
      SlowlyReachable allows e → e.Awaits id → e.passed = e.answers.length →
      SlowlyReachable allows (e.write id status sense)
  | moved {e : Exchange} :
      SlowlyReachable allows e → e.passed < e.answers.length → SlowlyReachable allows e.advance

/-- One response is written over the slot at the head of a full ring, before the head was moved, and
everything else that was answered is consumed. On a ring of one slot such a response is all there is. -/
structure Torn : Prop where
  full : e.session.driver.cursor.isFull = true
  several : 1 < e.session.driver.geometry.slotCount.toNat
  consumed : e.passed = e.yielded.length
  written : e.answers.length = e.passed + 1

instance : Decidable e.Torn :=
  decidable_of_iff
    (e.session.driver.cursor.isFull = true ∧ 1 < e.session.driver.geometry.slotCount.toNat
      ∧ e.passed = e.yielded.length ∧ e.answers.length = e.passed + 1)
    ⟨fun h => ⟨h.1, h.2.1, h.2.2.1, h.2.2.2⟩, fun h => ⟨h.full, h.several, h.consumed, h.written⟩⟩

end Exchange

end CommandRing
