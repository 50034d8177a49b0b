import CommandRing.Driver.Session

/-!
# One driver after the other

A mapping outlives its drivers. There is at most one on it: attaching drops the driver there is and tries to
take the ring over anew, and the mailbox can be looked at with or without one. Every use is made on the memory
as it is at that moment, and that may be anything.

A `Mapping` also remembers which slots its driver has written and not released yet. These are the slots that
hold something the driver waits for: a request that was not answered, or a response that was not yielded. What
an earlier driver left on a ring that looked idle is not among them.
-/

namespace CommandRing

/-- A mapping, as those who use it leave it. -/
structure Mapping where
  session : Option Session
  /-- Slots that the driver has written and not released, oldest first. -/
  slots : List Nat
deriving DecidableEq

namespace Mapping

/-- What can be done with a mapping. -/
inductive Use where
  | attach (layout : Layout)
  | call (c : Call)
  /-- Takes a snapshot of the mailbox. -/
  | inspect
  | drop

/-- What came of it. -/
inductive Outcome where
  | attached
  | replied (r : Reply)
  | inspected (m : Mailbox)
  | dropped
  | noDriver
  | failed (e : Error)
deriving DecidableEq

def vacant : Mapping := ⟨none, []⟩

/-- What a reply of the driver says about its slots. A submit takes the slot at the tail, and the oldest slot
is released when a response is yielded. -/
def slotsAfter (d : Driver) (slots : List Nat) : Reply → List Nat
  | .submitted _ => slots ++ [d.cursor.tail.index.toNat]
  | .yielded _ => slots.tail
  | .restarted => []
  | _ => slots

def use (m : Mapping) (memory : Region) : Use → Outcome × Mapping × Region
  | .attach layout =>
    match Driver.attach layout memory with
    | (.ok d, memory) => (.attached, ⟨some (Session.idle d), []⟩, memory)
    | (.error e, memory) => (.failed e, vacant, memory)
  | .call c =>
    match m.session with
    | none => (.noDriver, m, memory)
    | some s =>
      let (reply, s', memory) := s.call memory c
      (.replied reply, ⟨some s', slotsAfter s.driver m.slots reply⟩, memory)
  | .inspect =>
    match memory.mailbox with
    | .ok found => (.inspected found, m, memory)
    | .error e => (.failed e, m, memory)
  | .drop => (.dropped, vacant, memory)

/-- The mappings that uses lead to, each of them on any memory. -/
inductive Reachable : Mapping → Prop where
  | vacant : Reachable vacant
  | used {m : Mapping} (memory : Region) (u : Use) : Reachable m → Reachable (m.use memory u).2.1

end Mapping

end CommandRing
