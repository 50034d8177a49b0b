import CommandRing.Driver.Attach
import CommandRing.Driver.Drain
import CommandRing.Driver.Submit

/-!
# A driver in use

Whoever uses a driver makes one call after the other, and holds at most one drain: any call but the next
item of that drain gives it up. A `Session` is the driver together with the drain. Each call is made on the
memory as it is at that moment, and a `Run` allows it to be anything, because the other side may have
written to it, or granted more or less of it, since the last call.
-/

namespace CommandRing

inductive Call where
  | submit (command : Command)
  | poll
  /-- Asks the drain for its next item. -/
  | next
  | reset

inductive Reply where
  | submitted (id : CommandId)
  /-- A poll found so many answered slots. -/
  | announced (count : Nat)
  | yielded (r : Response)
  /-- The drain has no further item. -/
  | ended
  | restarted
  | failed (e : Error)
deriving DecidableEq

/-- A driver and the drain that its user holds. -/
structure Session where
  driver : Driver
  drain : Drain
deriving DecidableEq

namespace Session

/-- A driver without a drain. -/
def idle (d : Driver) : Session := ⟨d, ⟨0, false⟩⟩

def call (s : Session) (memory : Region) : Call → Reply × Session × Region
  | .submit command =>
    match s.driver.submit memory command with
    | (.ok id, d, memory) => (.submitted id, idle d, memory)
    | (.error e, d, memory) => (.failed e, idle d, memory)
  | .poll =>
    match s.driver.poll memory with
    | (.ok drain, d) => (.announced drain.remaining, ⟨d, drain⟩, memory)
    | (.error e, d) => (.failed e, idle d, memory)
  | .next =>
    match s.driver.next memory s.drain with
    | (none, d, drain) => (.ended, ⟨d, drain⟩, memory)
    | (some (.ok r), d, drain) => (.yielded r, ⟨d, drain⟩, memory)
    | (some (.error e), d, drain) => (.failed e, ⟨d, drain⟩, memory)
  | .reset =>
    match s.driver.reset memory with
    | (.ok (), d, memory) => (.restarted, idle d, memory)
    | (.error e, d, memory) => (.failed e, idle d, memory)

/-- Runs of an attached driver, with what the calls answered. Every call finds the memory as it likes. -/
inductive Run : List Reply → Session → Prop where
  | attached {layout : Layout} {memory memory' : Region} {d : Driver} :
      Driver.attach layout memory = (.ok d, memory') → Run [] (idle d)
  | called {replies : List Reply} {s : Session} (memory : Region) (c : Call) :
      Run replies s → Run (replies ++ [(s.call memory c).1]) (s.call memory c).2.1

/-- What may come of a session: any more calls, each of them on any memory. -/
inductive Later (s : Session) : Session → Prop where
  | refl : Later s s
  | called {s' : Session} (memory : Region) (c : Call) :
      Later s s' → Later s (s'.call memory c).2.1

/-- A call that was made: the driver as it was then, and what it answered. -/
structure Moment where
  driver : Driver
  reply : Reply

/-- The calls that lead from one session to a later one, each of them on any memory. -/
inductive Stretch (s : Session) : List Moment → Session → Prop where
  | refl : Stretch s [] s
  | called {moments : List Moment} {s' : Session} (memory : Region) (c : Call) :
      Stretch s moments s' →
      Stretch s (moments ++ [⟨s'.driver, (s'.call memory c).1⟩]) (s'.call memory c).2.1

/-- The ids that submits returned, in order. -/
def submittedIds (replies : List Reply) : List CommandId :=
  replies.filterMap fun
    | .submitted id => some id
    | _ => none

/-- The responses that drains yielded, in order. -/
def yielded (replies : List Reply) : List Response :=
  replies.filterMap fun
    | .yielded r => some r
    | _ => none

def yieldedIds (replies : List Reply) : List CommandId := (yielded replies).map Response.id

end Session

end CommandRing
