import CommandRing.Scenario.Basic

/-!
# Scripted runs: a driver by itself

The scenario holds a bench and, most of the time, a driver on it. Attaching drops the driver there is
and tries to take over the ring anew; the kernel's steps need no driver.
-/

namespace CommandRing.Scenario

structure Solo where
  layout : Layout
  bench : Bench
  driver : Option Driver

inductive SoloStep where
  | attach
  | driver (step : DriverStep)
  | kernel (step : KernelStep)

/-- What is seen after a step: the commands in flight, and the cursors of the mailbox. -/
structure SoloView where
  inFlight : Option Nat
  head : Except Error UInt32
  tail : Except Error UInt32

namespace Solo

def view (s : Solo) : SoloView where
  inFlight := s.driver.map fun d => d.inFlight.length
  head := s.bench.head
  tail := s.bench.tail

/-- Drops the driver and attaches a new one. -/
def attach (s : Solo) : Reply × Solo :=
  match Driver.attach s.layout s.bench.memory with
  | (.ok d, memory) =>
    (.geometry d.geometry,
      { s with bench := { s.bench with memory := memory }, driver := some d })
  | (.error e, memory) =>
    (.failed e, { s with bench := { s.bench with memory := memory }, driver := none })

def apply (s : Solo) : SoloStep → Reply × Solo
  | .attach => s.attach
  | .kernel step =>
    let (reply, bench) := step.apply s.bench
    (reply, { s with bench := bench })
  | .driver step =>
    match s.driver with
    | none => (.noDriver, s)
    | some d =>
      let (reply, d, bench) := step.apply d s.bench
      (reply, { s with bench := bench, driver := some d })

/-- Takes all steps, and reports each reply with what is seen after it. -/
def run (s : Solo) : List SoloStep → List (Reply × SoloView)
  | [] => []
  | step :: rest =>
    let (reply, s) := s.apply step
    (reply, s.view) :: s.run rest

end Solo

end CommandRing.Scenario
