import CommandRing.Dispatcher.Act

/-!
# The dispatcher's loop

The loop pumps the ring, waits for the interrupt line, and starts over. It ends only with an error, of
the pump or of the line. As a machine it is in one of three phases: about to pump, in a wait, or
returned. A pump that fails has failed every pending command already; a line that fails leaves them
as they are.

A wait that finds a permit is over at once, and the permit is gone, so the loop pumps at most once
more before it blocks: four steps reach a state that the next step leaves as it is.
-/

namespace CommandRing

/-- Where the loop is. -/
inductive LoopPhase where
  | pumping
  | waiting
  | returned (e : Error)
deriving DecidableEq

namespace Dispatcher

/-- Where a wait that begins like this leaves the loop. -/
def afterWait : Pause → LoopPhase
  | .over => .pumping
  | .parked | .asleep => .waiting
  | .failed e => .returned e

/-- One step of the loop: one pump, or one look at the line. -/
def step (memory : Region) : LoopPhase × Dispatcher → LoopPhase × Dispatcher
  | (.pumping, d) =>
    match d.pump memory with
    | (.ok _, d) => (.waiting, d)
    | (.error e, d) => (.returned e, d)
  | (.waiting, d) =>
    let (pause, bell) := d.bell.wait
    (afterWait pause, { d with bell := bell })
  | (.returned e, d) => (.returned e, d)

/-- Runs the loop until it blocks. -/
def runOn (memory : Region) (s : LoopPhase × Dispatcher) : LoopPhase × Dispatcher :=
  step memory (step memory (step memory (step memory s)))

/-- Where a loop can be that shares its dispatcher with others, and what became of the dispatcher. Every pump
finds the memory as it likes, and every look at the line may find anything; a line fails with an error of the
system. Others go on until the loop returns. -/
inductive Looping : LoopPhase → Dispatcher → Prop where
  | started {d : Dispatcher} : Reachable d → Looping .pumping d
  | pumped {d : Dispatcher} (memory : Region) :
      Looping .pumping d → Looping (step memory (.pumping, d)).1 (step memory (.pumping, d)).2
  | looked {d : Dispatcher} (pause : Pause) (bell : Doorbell) :
      Looping .waiting d → (∀ e, pause = .failed e → ∃ fault, e = .io fault) →
      Looping (afterWait pause) { d with bell := bell }
  | meanwhile {phase : LoopPhase} {d d' : Dispatcher} :
      Looping phase d → (∀ e, phase ≠ .returned e) → Change d d' → Looping phase d'

end Dispatcher

end CommandRing
