import CommandRing.Error

/-!
# The interrupt line

The driver rings to tell the kernel that entries were published, and waits until the kernel signals.
Signals do not add up: one permit is kept until a wait consumes it, and a wait without a permit parks
until the next signal. A signal may be spurious; it promises nothing.

Lines differ in how they are wired. One that nobody answers is polled: waiting is a short sleep. Two
broken ones fail at one end.
-/

namespace CommandRing

/-- How an interrupt line behaves. -/
inductive Wiring where
  /-- A wait ends with the kernel's signal. -/
  | signalled
  /-- A wait is a sleep of `Doorbell.pollInterval`. -/
  | polled
  /-- Every wait fails. -/
  | waitFails
  /-- As `signalled`, but ringing fails. -/
  | ringFails
deriving DecidableEq

structure Doorbell where
  wiring : Wiring := .signalled
  /-- How often the driver rang, whether it reached the kernel or not. -/
  kicks : Nat := 0
  /-- A signal that no wait has consumed yet. -/
  permit : Bool := false
deriving DecidableEq

/-- How a wait begins. -/
inductive Pause where
  /-- It ended at once. -/
  | over
  /-- It lasts until the next signal. -/
  | parked
  /-- It lasts for `Doorbell.pollInterval`. -/
  | asleep
  | failed (e : Error)
deriving DecidableEq

namespace Doorbell

/-- Milliseconds between two looks at a ring that is polled. -/
def pollInterval : Nat := 1

def broken : Error := .io (.described "doorbell broke")

def ring (b : Doorbell) : Except Error Unit × Doorbell :=
  (if b.wiring = .ringFails then .error broken else .ok (), { b with kicks := b.kicks + 1 })

def signal (b : Doorbell) : Doorbell := { b with permit := true }

def wait (b : Doorbell) : Pause × Doorbell :=
  match b.wiring with
  | .polled => (.asleep, b)
  | .waitFails => (.failed broken, b)
  | .signalled | .ringFails =>
    if b.permit then (.over, { b with permit := false }) else (.parked, b)

@[simp] theorem kicks_ring (b : Doorbell) : b.ring.2.kicks = b.kicks + 1 := rfl

@[simp] theorem kicks_wait (b : Doorbell) : b.wait.2.kicks = b.kicks := by
  unfold wait
  split
  · rfl
  · rfl
  · split <;> rfl
  · split <;> rfl

end Doorbell

end CommandRing
