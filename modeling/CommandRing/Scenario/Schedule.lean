import CommandRing.Scenario.Desk

/-!
# Scripted runs: things that happen side by side

Waits, a script of timed actions and the dispatcher's loop share one clock of milliseconds, which jumps
from one moment at which something is due to the next. A moment goes in this order: the action that is
due, the loop as far as it gets, then the waits, of which each ends with its outcome or with its
deadline.

A loop on a polled line wakes every `Doorbell.pollInterval`; on any other line it moves when it finds a
permit. When the last wait and the last action are done the loop gets a little more time and is then
given up.
-/

namespace CommandRing.Scenario

inductive Wait where
  | handle (index ms : Nat)
  | order (order : Order) (ms : Nat)

/-- An action, and how long after the previous one it happens. -/
structure Timed where
  after : Nat
  action : Action

inductive Watch where
  | running (h : Handle) (deadline : Nat)
  | ended (reply : Reply)

structure Report where
  waits : List Reply
  script : List (Reply × DeskView)
  /-- Where the loop was in the end, if it was asked for. -/
  loop : Option LoopPhase

/-- Everything that shares the clock. -/
structure Schedule where
  desk : Desk
  loop : Option LoopPhase
  /-- When a polled line wakes the loop. -/
  wake : Nat
  watches : List Watch
  /-- Actions still to come, with the moments at which they are due. -/
  script : List (Nat × Action)
  /-- What the actions so far answered, the latest first. -/
  log : List (Reply × DeskView)

namespace Schedule

/-- Milliseconds that the loop is left running when all else is done. -/
def graceTime : Nat := 20

/-- The moments at which the actions of a script are due. -/
def moments (start : Nat) : List Timed → List (Nat × Action)
  | [] => []
  | t :: rest => (start + t.after, t.action) :: moments (start + t.after) rest

def begin (desk : Desk) : Wait → Watch × Desk
  | .handle index ms =>
    match desk.useHandle index with
    | (none, desk) => (.ended .noHandle, desk)
    | (some h, desk) => (.running h ms, desk)
  | .order order ms =>
    match desk.submit order with
    | (.error e, desk) => (.ended (.failed e), desk)
    | (.ok h, desk) => (.running h ms, desk)

def beginAll (desk : Desk) : List Wait → List Watch × Desk
  | [] => ([], desk)
  | w :: rest =>
    let (watch, desk) := begin desk w
    let (watches, desk) := beginAll desk rest
    (watch :: watches, desk)

def isAsleep (s : Schedule) : Bool :=
  s.loop == some .waiting && s.desk.dispatcher.bell.wiring == .polled

def runLoop (now : Nat) (s : Schedule) : Schedule :=
  match s.loop with
  | none => s
  | some phase =>
    let wakes := s.isAsleep && s.wake ≤ now
    let phase := if wakes then .pumping else phase
    let (phase, dispatcher) := Dispatcher.runOn s.desk.bench.memory (phase, s.desk.dispatcher)
    { s with
      desk := s.desk.withDispatcher dispatcher
      loop := some phase
      wake := if wakes then now + Doorbell.pollInterval else s.wake }

def act (now : Nat) (s : Schedule) : Schedule :=
  match s.script with
  | [] => s
  | (due, action) :: rest =>
    if due ≤ now then
      let (reply, desk) := s.desk.act action
      { s with desk := desk, script := rest, log := (reply, desk.view) :: s.log }
    else
      s

def look (now : Nat) (d : Dispatcher) : Watch → Watch × Dispatcher
  | .ended reply => (.ended reply, d)
  | .running h deadline =>
    match d.outcome? h with
    | some outcome => (.ended (Desk.replyOf outcome), d)
    | none =>
      if deadline ≤ now then
        let (outcome, d) := d.expire h
        (.ended (Desk.replyOf outcome), d)
      else
        (.running h deadline, d)

def lookAll (now : Nat) (d : Dispatcher) : List Watch → List Watch × Dispatcher
  | [] => ([], d)
  | w :: rest =>
    let (watch, d) := look now d w
    let (watches, d) := lookAll now d rest
    (watch :: watches, d)

def settleWatches (now : Nat) (s : Schedule) : Schedule :=
  let (watches, dispatcher) := lookAll now s.desk.dispatcher s.watches
  { s with watches := watches, desk := s.desk.withDispatcher dispatcher }

/-- All that happens at one moment. -/
def moment (now : Nat) (s : Schedule) : Schedule :=
  settleWatches now (runLoop now (act now s))

def deadline? : Watch → Option Nat
  | .running _ deadline => some deadline
  | .ended _ => none

def agenda (s : Schedule) : List Nat :=
  s.watches.filterMap deadline? ++ s.script.map Prod.fst

/-- The next moment at which something is due, if waits or actions are left. -/
def nextMoment? (s : Schedule) : Option Nat :=
  s.agenda.min?.map fun due => if s.isAsleep then min due s.wake else due

/-- Goes from moment to moment until all waits and actions are done. -/
def play : (fuel : Nat) → Schedule → Schedule
  | 0, s => s
  | fuel + 1, s =>
    match s.nextMoment? with
    | none => s
    | some now => play fuel (moment now s)

/-- Enough moments: each takes an action, ends a wait, or lets a polled loop sleep on. -/
def playTime (s : Schedule) : Nat :=
  s.script.length + s.watches.length + s.agenda.foldl max 0 + 1

/-- Lets a polled loop wake so many more times. -/
def linger : (times : Nat) → Schedule → Schedule
  | 0, s => s
  | times + 1, s => if s.isAsleep then linger times (runLoop s.wake s) else s

def replyOf : Watch → Reply
  | .ended reply => reply
  | .running h _ => .failed (.timedOut h.id)

/-- The loop if it is asked for, the waits and the script, started in this order at time zero. -/
def run (desk : Desk) (waits : List Wait) (script : List Timed) (withLoop : Bool) :
    Report × Desk :=
  let started : Schedule :=
    { desk := desk
      loop := if withLoop then some .pumping else none
      wake := Doorbell.pollInterval
      watches := []
      script := []
      log := [] }
  let looping := runLoop 0 started
  let (watches, desk) := beginAll looping.desk waits
  let begun :=
    settleWatches 0 { looping with desk := desk, watches := watches, script := moments 0 script }
  let ended := linger graceTime (play begun.playTime begun)
  (⟨ended.watches.map replyOf, ended.log.reverse, ended.loop⟩, ended.desk)

end Schedule

/-! ## The scenario -/

inductive DeskStep where
  | act (action : Action)
  | wait (index : Nat)
  | race (index : Nat)
  | together (waits : List Wait) (script : List Timed) (withLoop : Bool)

inductive DeskReply where
  | plain (reply : Reply)
  | race (winner : Desk.Winner)
  | together (report : Report)

namespace Desk

def apply (s : Desk) : DeskStep → DeskReply × Desk
  | .act action =>
    let (reply, s) := s.act action
    (.plain reply, s)
  | .wait index =>
    let (reply, s) := s.wait index
    (.plain reply, s)
  | .race index =>
    match s.race index with
    | (none, s) => (.plain .noHandle, s)
    | (some winner, s) => (.race winner, s)
  | .together waits script withLoop =>
    let (report, s) := Schedule.run s waits script withLoop
    (.together report, s)

/-- Takes all steps, and reports each reply with what is seen after it. -/
def run (s : Desk) : List DeskStep → List (DeskReply × DeskView)
  | [] => []
  | step :: rest =>
    let (reply, s) := s.apply step
    (reply, s.view) :: s.run rest

end Desk

end CommandRing.Scenario
