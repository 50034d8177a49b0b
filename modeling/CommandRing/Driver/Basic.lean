import CommandRing.Cdb
import CommandRing.Entry
import CommandRing.Geometry
import CommandRing.Region
import CommandRing.Ring.Cursor

/-!
# The driver's state

The driver publishes requests at its tail. The kernel answers them in completion order: it writes each
response over the oldest unanswered slot and moves its head past it. A response names the command it
answers, so the slot it lands in says nothing about which request it belongs to, and the driver keeps
the ids in flight.

Once the mapping has been caught breaking the contract, the driver is *poisoned*: the first reason is
kept, and nothing is read from or written to the ring any more.

The driver does not own the memory. Its operations take the region as it is at that moment, because
the other side writes to it in between, and those that write return the region they leave.
-/

namespace CommandRing

/-- A command as it is handed to the driver: what to do, and the memory it refers to. -/
structure Command where
  cdb : CommandBlock
  segments : Segments := {}
deriving DecidableEq

namespace Command

def testUnitReady : Command := { cdb := CommandBlock.testUnitReady }

end Command

/-- Everything a driver knows besides the shared memory. -/
structure Driver where
  layout : Layout
  geometry : Geometry
  cursor : Cursor
  /-- The id to try first for the next command. -/
  nextId : CommandId
  /-- Ids that were published and whose responses were not consumed yet. -/
  inFlight : List CommandId
  /-- The first corruption that was found. -/
  poison : Option Corruption
deriving DecidableEq

namespace Driver

/-- A driver that has published nothing. -/
def fresh (layout : Layout) (geometry : Geometry) : Driver where
  layout := layout
  geometry := geometry
  cursor := Cursor.new geometry.slotCount
  nextId := 1
  inFlight := []
  poison := none

/-- Refuses work on a poisoned driver, with the reason found first. -/
def checkPoison (d : Driver) : Except Error Unit :=
  match d.poison with
  | none => .ok ()
  | some reason => .error (.corrupt reason)

/-- Records a corruption, unless one is on record already. Other errors leave no trace. -/
def poisonedBy (d : Driver) : Error → Driver
  | .corrupt reason => { d with poison := d.poison.or (some reason) }
  | _ => d

/-- The first of the next `tries` ids that is neither `0` nor taken, and the id to try after it. -/
def findId (taken : List CommandId) : (tries : Nat) → CommandId → Option CommandId × CommandId
  | 0, next => (none, next)
  | tries + 1, next =>
    if next ≠ 0 ∧ next ∉ taken then
      (some next, next.successor)
    else
      findId taken tries next.successor

/-- The first free id from the next one on, and the id to try after it. -/
def allocateId (d : Driver) : Option CommandId × CommandId :=
  findId d.inFlight CommandId.count d.nextId

end Driver

end CommandRing
