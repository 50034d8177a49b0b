import CommandRing.Dispatcher.Run
import CommandRing.Scenario.Basic

/-!
# Scripted runs: a dispatcher and the handles it gave out

Handles are numbered in the order of the submits that succeeded. Waiting, cancelling through the
handle and dropping it use it up. An `Action` happens at one moment; waiting is not among them, because
it takes time.
-/

namespace CommandRing.Scenario

/-- A bench, the dispatcher on it, and the handles given out; a handle that is used up leaves its
place empty. -/
structure Desk where
  bench : Bench
  dispatcher : Dispatcher
  handles : List (Option Handle)

inductive Action where
  | submit (order : Order)
  | pump
  | cancel (id : CommandId)
  | cancelHandle (index : Nat)
  | drop (index : Nat)
  | signal
  | kernel (step : KernelStep)
  | driver (step : DriverStep)

structure DeskView where
  pending : Nat
  inFlight : Nat
  kicks : Nat
  head : Except Error UInt32
  tail : Except Error UInt32

namespace Desk

def attach (layout : Layout) (bench : Bench) (wiring : Wiring) : Except Error Desk :=
  match Driver.attach layout bench.memory with
  | (.error e, _) => .error e
  | (.ok driver, memory) =>
    .ok ⟨{ bench with memory := memory }, Dispatcher.new driver { wiring := wiring }, []⟩

def view (s : Desk) : DeskView where
  pending := s.dispatcher.pending.length
  inFlight := s.dispatcher.driver.inFlight.length
  kicks := s.dispatcher.bell.kicks
  head := s.bench.head
  tail := s.bench.tail

def withDispatcher (s : Desk) (d : Dispatcher) : Desk := { s with dispatcher := d }

/-- Uses up a handle. -/
def useHandle (s : Desk) (index : Nat) : Option Handle × Desk :=
  ((s.handles[index]?).join, { s with handles := s.handles.set index none })

/-- Submits through the dispatcher; the caller decides what becomes of the handle. -/
def submit (s : Desk) (order : Order) : Except Error Handle × Desk :=
  match order.command with
  | .error e => (.error e, s)
  | .ok command =>
    let (result, dispatcher, memory) := s.dispatcher.submit s.bench.memory command
    (result, { s with bench := { s.bench with memory := memory }, dispatcher := dispatcher })

def forget (s : Desk) (index : Nat) : Option Bool × Desk :=
  match s.useHandle index with
  | (none, s) => (none, s)
  | (some h, s) =>
    let (wasPending, dispatcher) := s.dispatcher.forget h
    (some wasPending, s.withDispatcher dispatcher)

def act (s : Desk) : Action → Reply × Desk
  | .submit order =>
    match s.submit order with
    | (.error e, s) => (.failed e, s)
    | (.ok h, s) =>
      (.handle s.handles.length h.id, { s with handles := s.handles ++ [some h] })
  | .pump =>
    let (result, dispatcher) := s.dispatcher.pump s.bench.memory
    (.ofExcept .count result, s.withDispatcher dispatcher)
  | .cancel id =>
    let (wasPending, dispatcher) := s.dispatcher.cancel id
    (.flag wasPending, s.withDispatcher dispatcher)
  | .cancelHandle index =>
    match s.forget index with
    | (none, s) => (.noHandle, s)
    | (some wasPending, s) => (.flag wasPending, s)
  | .drop index =>
    match s.forget index with
    | (none, s) => (.noHandle, s)
    | (some _, s) => (.done, s)
  | .signal =>
    (.done, s.withDispatcher { s.dispatcher with bell := s.dispatcher.bell.signal })
  | .kernel step =>
    let (reply, bench) := step.apply s.bench
    (reply, { s with bench := bench })
  | .driver step =>
    let (reply, driver, bench) := step.apply s.dispatcher.driver s.bench
    (reply, { s with bench := bench, dispatcher := { s.dispatcher with driver := driver } })

def replyOf : Outcome → Reply := Reply.ofExcept Reply.response

def wait (s : Desk) (index : Nat) : Reply × Desk :=
  match s.useHandle index with
  | (none, s) => (.noHandle, s)
  | (some h, s) =>
    let (outcome, dispatcher) := s.dispatcher.wait h
    (replyOf outcome, s.withDispatcher dispatcher)

inductive Winner where
  | loop (e : Error)
  | wait (reply : Reply)

/-- The loop and the wait for a handle side by side, the loop first, until one of them ends. The other
is given up. -/
def race (s : Desk) (index : Nat) : Option Winner × Desk :=
  match s.useHandle index with
  | (none, s) => (none, s)
  | (some h, s) =>
    match Dispatcher.runOn s.bench.memory (.pumping, s.dispatcher) with
    | (.returned e, dispatcher) =>
      (some (.loop e), s.withDispatcher (dispatcher.forget h).2)
    | (_, dispatcher) =>
      let (outcome, dispatcher) := dispatcher.wait h
      (some (.wait (replyOf outcome)), s.withDispatcher dispatcher)

end Desk

end CommandRing.Scenario
