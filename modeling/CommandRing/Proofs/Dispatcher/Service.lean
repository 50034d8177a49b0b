import CommandRing.Dispatcher.Act
import CommandRing.Proofs.Dispatcher.Attribution

/-!
# A dispatcher in service

A `Service` is a dispatcher, the memory it shares with a kernel, and the handles that its users have, together
with what has happened: every act, with what was pending before and after it, and every answer, with the
submission that it was written for.

The kernel is held to one thing only, that it answers each submission at most once: a response that shows in a
slot where it did not show before is the first answer to a submission, and names its id. It may write the answer
into any slot, take it back, move its head anywhere, with or without an answer, grant less of the memory and
signal as it likes. The driver is used by this dispatcher and by nobody else, and whoever acts with a handle has
it. Nothing else restricts the order of events.
-/

namespace CommandRing

/-- The handle that an act is made with. -/
def Act.handle? : Act → Option Handle
  | .look h | .expire h | .giveUp h => some h
  | .submit _ | .pump | .cancel _ => none

/-- One act, and what was pending before and after it. -/
structure Moment where
  act : Act
  receipt : Receipt
  before : List Handle
  after : List Handle

namespace Moment

/-- The command was pending, and the act ended that. -/
def Ends (m : Moment) (h : Handle) : Prop := h ∈ m.before ∧ h ∉ m.after

instance (m : Moment) (h : Handle) : Decidable (m.Ends h) := inferInstanceAs (Decidable (_ ∧ _))

def submitted? (m : Moment) : Option Handle :=
  match m.receipt with
  | .submitted h => some h
  | _ => none

end Moment

structure Service where
  dispatcher : Dispatcher
  memory : Region
  /-- Handles that somebody has. The end of a wait, a cancel and a drop use one up. -/
  held : List Handle
  /-- The answers that the kernel wrote, each with its submission. -/
  answers : List (Handle × Response)
  /-- What was done, the latest first. -/
  log : List Moment

namespace Service

/-- The commands that were submitted, the latest first. -/
def submitted (s : Service) : List Handle := s.log.filterMap Moment.submitted?

/-- The latest submission with this id. -/
def latest? (s : Service) (id : CommandId) : Option Handle := s.submitted.find? fun h => h.id = id

/-- The submission that is in flight under this id. An id in flight is not given out again, so of all submissions
that have it this is the latest one. -/
def inFlight? (s : Service) (id : CommandId) : Option Handle :=
  if id ∈ s.dispatcher.driver.inFlight then s.latest? id else none

/-- How often the command left the pending list. -/
def endings (s : Service) (h : Handle) : Nat := s.log.countP (·.Ends h)

/-- The handles that are left after an act. -/
def heldAfter (held : List Handle) (a : Act) : Receipt → List Handle
  | .submitted h => h :: held
  | .waiting => held
  | _ =>
    match a.handle? with
    | some h => held.erase h
    | none => held

def perform (s : Service) (a : Act) : Service :=
  let (receipt, dispatcher, memory) := s.dispatcher.act s.memory a
  { s with
    dispatcher := dispatcher
    memory := memory
    held := heldAfter s.held a receipt
    log := ⟨a, receipt, s.dispatcher.pending, dispatcher.pending⟩ :: s.log }

/-- Slot `i` shows the response `r` to the driver. -/
def Shows (s : Service) (memory : Region) (i : Nat) (r : Response) : Prop :=
  s.dispatcher.driver.geometry.Shows s.dispatcher.driver.layout memory i r

def slotCount (s : Service) : Nat := s.dispatcher.driver.geometry.slotCount.toNat

/-- Everything that can happen to a service. -/
inductive Reachable : Service → Prop where
  | opened {layout : Layout} {memory memory' : Region} {driver : Driver} (bell : Doorbell) :
      Driver.attach layout memory = (.ok driver, memory') →
      Reachable ⟨.new driver bell, memory', [], [], []⟩
  | performed {s : Service} (a : Act) :
      Reachable s → (∀ h, a.handle? = some h → h ∈ s.held) → Reachable (s.perform a)
  /-- The kernel answers a submission, for the first time. -/
  | answered {s : Service} (h : Handle) (r : Response) (i : Nat) (memory : Region) :
      Reachable s → h ∈ s.submitted → h ∉ s.answers.map Prod.fst → r.id = h.id →
      s.Shows memory i r →
      (∀ j r', j < s.slotCount → j ≠ i → s.Shows memory j r' → s.Shows s.memory j r') →
      Reachable { s with memory := memory, answers := (h, r) :: s.answers }
  /-- The kernel does whatever else it likes, and the line with it. -/
  | meddled {s : Service} (memory : Region) (bell : Doorbell) :
      Reachable s → (∀ i r, i < s.slotCount → s.Shows memory i r → s.Shows s.memory i r) →
      Reachable { s with memory := memory, dispatcher := { s.dispatcher with bell := bell } }

/-- The command was given up by its holder, by cancelling it, by dropping it or because its time was over, or
somebody cancelled its id. -/
def GivenUp (s : Service) (h : Handle) : Prop :=
  ∃ m ∈ s.log, m.Ends h ∧ (m.act = .expire h ∨ m.act = .giveUp h ∨ m.act = .cancel h.id)

end Service

/-- The act settled the command with this outcome: a pump found the answer to it, a cancel of its id found it,
or a pump or a submit found the memory corrupt. -/
inductive Moment.Gives (answers : List (Handle × Response)) (m : Moment) (h : Handle) : Outcome → Prop where
  | answered {r : Response} : m.act = .pump → (h, r) ∈ answers → Gives answers m h (.ok r)
  | cancelled : m.act = .cancel h.id → m.receipt = .found true →
      Gives answers m h (.error (.cancelled h.id))
  | failed {reason : Corruption} : (m.act = .pump ∨ ∃ command, m.act = .submit command) →
      m.receipt = .failed (.corrupt reason) → Gives answers m h (.error (.corrupt reason))

/-- An act ended the time for which the command was pending, and settled it with this outcome. -/
def Service.Cause (s : Service) (h : Handle) (outcome : Outcome) : Prop :=
  ∃ m ∈ s.log, m.Ends h ∧ m.Gives s.answers h outcome

namespace Service

/-! ## A kernel that does its work -/

variable {s : Service}

/-- A kernel that writes the response to a submission over a slot does what it may do. -/
theorem Reachable.wrote (hs : Reachable s) {k : Kernel} (hlayout : k.layout = s.dispatcher.driver.layout)
    (hvalid : s.dispatcher.driver.geometry.Valid k.layout) {h : Handle} (hsubmitted : h ∈ s.submitted)
    (hfirst : h ∉ s.answers.map Prod.fst) {status : UInt8} {sense slot : Bytes}
    (hslot : k.fill h.id { status := status, sense := sense } = .ok slot) {i : Nat}
    (hin : s.dispatcher.driver.geometry.slotStart i + k.layout.slotSize ≤ s.memory.bytes.size) :
    Reachable { s with
      memory := s.memory.put (s.dispatcher.driver.geometry.slotStart i) slot
      answers := (h, Response.answering k.layout h.id status sense) :: s.answers } := by
  obtain ⟨slot', hslot', hlen, hanswers⟩ := k.fill_eq_ok h.id status sense
  rw [hslot] at hslot'
  injection hslot' with hslot'
  subst hslot'
  rw [← hvalid.slotSize_eq] at hlen hin
  refine .answered h _ i _ hs hsubmitted hfirst rfl ?_ ?_
  · unfold Shows Geometry.Shows
    rw [s.dispatcher.driver.geometry.slotBytes_put_self hlen hin, ← hlayout]
    exact hanswers
  · intro j r' _ hne hshown
    refine Geometry.Shows.of_bytes_eq hshown ?_
    exact (s.dispatcher.driver.geometry.slotBytes_put_other hlen hne.symm).symm

/-- A kernel may move its head, and signal. -/
theorem Reachable.moved {layout : Layout} (hs : Reachable s)
    (hvalid : s.dispatcher.driver.geometry.Valid layout) (head : UInt32) (bell : Doorbell) :
    Reachable { s with
      memory := s.memory.put Mailbox.headOffset (Bytes.ofUInt32 head)
      dispatcher := { s.dispatcher with bell := bell } } := by
  refine .meddled _ bell hs ?_
  intro i r _ hshown
  refine Geometry.Shows.of_bytes_eq hshown ?_
  exact (hvalid.slotBytes_put_cursor (by decide) i).symm

end Service

end CommandRing
