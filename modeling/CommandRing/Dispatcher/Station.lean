import CommandRing.Dispatcher.History
import CommandRing.Dispatcher.Run
import CommandRing.Exchange

/-!
# A loop at work

A `Station` is a dispatcher with its loop, and the kernel that answers it, on one memory that nobody else touches.
It keeps which handles were given out, which responses the kernel wrote and which of them were drained, in order.

Everything happens in any order: steps of the loop, acts of others, answers, and signals, with or without a
reason. The kernel answers every submission at most once and in two steps, as in an `Exchange`. A signal is
stored, and any number of signals that are stored make one permit; but one that finds the loop parked may as well
end the wait at once, and leave no permit behind.
-/

namespace CommandRing

structure Station where
  phase : LoopPhase
  dispatcher : Dispatcher
  memory : Region
  kernel : Kernel
  /-- The handles that were given out. -/
  submitted : List Handle
  /-- The responses that the kernel wrote, each with the submission that it answers. -/
  answers : List (Handle × Response)
  /-- How many of them the kernel's head was moved over. -/
  passed : Nat
  /-- How many these were at the latest signal. -/
  signalled : Nat
  /-- The responses that pumps took from the ring. -/
  drained : List Response

namespace Station

variable (s : Station)

/-- Somebody uses the dispatcher. -/
def perform (a : Act) : Station :=
  match s.dispatcher.act s.memory a with
  | (receipt, dispatcher, memory) =>
    { s with
      dispatcher := dispatcher
      memory := memory
      submitted := s.submitted ++ receipt.given
      drained := s.drained ++ s.dispatcher.drainedBy s.memory a }

/-- The loop takes its next step. -/
def loop : Station :=
  match Dispatcher.step s.memory (s.phase, s.dispatcher) with
  | (phase, dispatcher) =>
    { s with
      phase := phase
      dispatcher := dispatcher
      drained := s.drained ++
        if s.phase = .pumping then s.dispatcher.drainedBy s.memory .pump else [] }

/-- The kernel writes the response to a submission over the slot at its head, if it can. -/
def write (h : Handle) (status : UInt8) (sense : Bytes) : Station :=
  match s.kernel.fill h.id { status := status, sense := sense } with
  | .error _ => s
  | .ok slot =>
    match s.kernel.overwrite s.memory slot with
    | .error _ => s
    | .ok memory =>
      { s with
        memory := memory
        answers := s.answers ++ [(h, Response.answering s.kernel.layout h.id status sense)] }

/-- The kernel moves its head on and shows it. -/
def advance : Station :=
  match s.kernel.advance s.memory with
  | (_, kernel, memory) => { s with kernel := kernel, memory := memory, passed := s.passed + 1 }

/-- A signal that is stored. -/
def signal : Station :=
  { s with
    dispatcher := { s.dispatcher with bell := s.dispatcher.bell.signal }
    signalled := s.passed }

/-- A signal that ends a wait. -/
def wake : Station := { s with phase := .pumping, signalled := s.passed }

/-- Nothing has happened yet, unless there was a signal already. -/
def opened (e : Exchange) (bell : Doorbell) : Station :=
  ⟨.pumping, .new e.session.driver bell, e.memory, e.kernel, [], [], 0, 0, []⟩

/-- Everything that can happen to a station. -/
inductive Reachable : Station → Prop where
  | opened {layout : Layout} {memory : Region} {e : Exchange} (bell : Doorbell) :
      Exchange.attach layout memory = .ok e → Reachable (opened e bell)
  | looped {s : Station} : Reachable s → Reachable s.loop
  | performed {s : Station} (a : Act) : Reachable s → Reachable (s.perform a)
  | wrote {s : Station} (h : Handle) (status : UInt8) (sense : Bytes) :
      Reachable s → h ∈ s.submitted → h ∉ s.answers.map Prod.fst → s.passed = s.answers.length →
      Reachable (s.write h status sense)
  | moved {s : Station} : Reachable s → s.passed < s.answers.length → Reachable s.advance
  | signalled {s : Station} : Reachable s → Reachable s.signal
  | woken {s : Station} :
      Reachable s → s.phase = .waiting → s.dispatcher.bell.permit = false → Reachable s.wake

end Station

end CommandRing
