import CommandRing.Dispatcher.Basic
import CommandRing.Driver.Session

/-!
# A dispatcher in use

A dispatcher has many users at once: those who submit, pump and cancel, and those who hold a handle and wait.
They exclude each other, so what they do is one `Act` after the other, in any order. A wait is not one act: it
looks at its command from time to time, and is over when the command is settled or when its deadline passes.

The driver can also be called directly. Whoever does that may steal responses from those who wait.
-/

namespace CommandRing

/-- What is done with a dispatcher at one time. -/
inductive Act where
  | submit (command : Command)
  | pump
  | cancel (id : CommandId)
  /-- A wait looks whether its command is settled. -/
  | look (h : Handle)
  /-- The deadline of a wait passes. -/
  | expire (h : Handle)
  /-- A handle is cancelled or dropped, or the wait for it is. -/
  | giveUp (h : Handle)
deriving DecidableEq

/-- What an act answers. -/
inductive Receipt where
  | submitted (h : Handle)
  /-- A pump settled so many commands. -/
  | pumped (count : Nat)
  | failed (e : Error)
  /-- Whether the command was still pending. -/
  | found (pending : Bool)
  /-- A wait is over. -/
  | ended (outcome : Outcome)
  /-- A wait goes on. -/
  | waiting

namespace Dispatcher

def act (d : Dispatcher) (memory : Region) : Act → Receipt × Dispatcher × Region
  | .submit command =>
    match d.submit memory command with
    | (.ok h, d, memory) => (.submitted h, d, memory)
    | (.error e, d, memory) => (.failed e, d, memory)
  | .pump =>
    match d.pump memory with
    | (.ok count, d) => (.pumped count, d, memory)
    | (.error e, d) => (.failed e, d, memory)
  | .cancel id =>
    let (found, d) := d.cancel id
    (.found found, d, memory)
  | .look h =>
    match d.outcome? h with
    | some outcome => (.ended outcome, d, memory)
    | none => (.waiting, d, memory)
  | .expire h =>
    let (outcome, d) := d.expire h
    (.ended outcome, d, memory)
  | .giveUp h =>
    let (found, d) := d.forget h
    (.found found, d, memory)

/-- What anybody can do to a dispatcher, whatever the memory holds at that moment. -/
inductive Change (d : Dispatcher) : Dispatcher → Prop where
  | acted (memory : Region) (a : Act) : Change d (d.act memory a).2.1
  /-- The driver is called, by somebody who may hold a drain of it. -/
  | called (drain : Drain) (memory : Region) (c : Call) :
      Change d { d with driver := (Session.call ⟨d.driver, drain⟩ memory c).2.1.driver }
  /-- The line signals, or is waited for. -/
  | signalled (bell : Doorbell) : Change d { d with bell := bell }

/-- What may become of a new dispatcher. -/
inductive Reachable : Dispatcher → Prop where
  | new {layout : Layout} {memory memory' : Region} {driver : Driver} (bell : Doorbell) :
      Driver.attach layout memory = (.ok driver, memory') → Reachable (new driver bell)
  | changed {d d' : Dispatcher} : Reachable d → Change d d' → Reachable d'

end Dispatcher

end CommandRing
