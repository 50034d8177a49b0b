import CommandRing.Device.Line
import CommandRing.Region
import CommandRing.Ring.Cursor
import CommandRing.WordRegion

/-!
# Scripted runs: single parts

Short scenarios for parts that have a state of their own: a cursor, a region, mapped or allocated, and the
interrupt line of a device.
-/

namespace CommandRing.Scenario

/-! ## A cursor -/

inductive CursorStep where
  | acquire
  | release
  | reset
  | resetAt (index : UInt32)

inductive CursorReply where
  | nothing
  | position (p : Position)
  | failed (e : Error)

def CursorStep.apply (c : Cursor) : CursorStep → CursorReply × Cursor
  | acquire =>
    match c.acquire with
    | .ok c => (.position c.tail, c)
    | .error e => (.failed e, c)
  | release =>
    match c.release with
    | some c => (.position c.head, c)
    | none => (.nothing, c)
  | reset => (.nothing, c.reset)
  | resetAt index => (.nothing, c.resetAt index)

/-- Takes all steps, and reports each reply with the cursor after it. -/
def runCursor (c : Cursor) : List CursorStep → List (CursorReply × Cursor)
  | [] => []
  | step :: rest =>
    let (reply, c) := step.apply c
    (reply, c) :: runCursor c rest

/-! ## A region -/

inductive RegionStep where
  | read (offset count : Nat)
  | write (offset : Nat) (data : Bytes)
  | load (offset : Nat)
  | store (offset : Nat) (value : UInt32)
  | snapshot
  | mailbox

inductive RegionReply where
  | done
  | bytes (b : Bytes)
  | word (v : UInt32)
  | mailbox (m : Mailbox)
  | failed (e : Error)

/-- What an access that changes the memory `r` leaves, which is `r` itself if it fails. -/
def regionAfter {α : Type} (r : α) : Except Error α → RegionReply × α
  | .ok changed => (.done, changed)
  | .error e => (.failed e, r)

def regionReply {α : Type} (wrap : α → RegionReply) : Except Error α → RegionReply
  | .ok a => wrap a
  | .error e => .failed e

def RegionStep.apply (r : Region) : RegionStep → RegionReply × Region
  | read offset count => (regionReply .bytes (r.read offset count), r)
  | write offset data => regionAfter r (r.write offset data)
  | load offset => (regionReply .word (r.load offset), r)
  | store offset value => regionAfter r (r.store offset value)
  | snapshot => (.bytes r.snapshot, r)
  | mailbox => (regionReply .mailbox r.mailbox, r)

def runRegion (r : Region) : List RegionStep → List RegionReply
  | [] => []
  | step :: rest =>
    let (reply, r) := step.apply r
    reply :: runRegion r rest

/-! ## The same steps on allocated memory -/

/-- The numbers of the step are words. -/
def RegionStep.InWords : RegionStep → Prop
  | read offset count => offset < UInt64.size ∧ count < UInt64.size
  | write offset data => offset < UInt64.size ∧ data.length < UInt64.size
  | load offset | store offset _ => offset < UInt64.size
  | snapshot | mailbox => True

def RegionStep.applyInWords (r : WordRegion) : RegionStep → RegionReply × WordRegion
  | read offset count => (regionReply .bytes (r.read (.ofNat offset) (.ofNat count)), r)
  | write offset data => regionAfter r (r.write (.ofNat offset) data)
  | load offset => (regionReply .word (r.load (.ofNat offset)), r)
  | store offset value => regionAfter r (r.store (.ofNat offset) value)
  | snapshot => (.bytes r.snapshot, r)
  | mailbox => (regionReply .mailbox r.mailbox, r)

def runWordRegion (r : WordRegion) : List RegionStep → List RegionReply
  | [] => []
  | step :: rest =>
    let (reply, r) := step.applyInWords r
    reply :: runWordRegion r rest

/-! ## A line -/

inductive LineStep where
  | ring
  | wait
  | signal (data : Bytes)
  | kicks
  | close

inductive LineReply where
  | done
  | pending
  | bytes (b : Bytes)
  | failed (e : Error)

def LineStep.apply (l : Line) : LineStep → LineReply × Line
  | ring =>
    match l.ring with
    | .ok l => (.done, l)
    | .error e => (.failed e, l)
  | wait =>
    match l.wait with
    | (none, l) => (.pending, l)
    | (some (.ok ()), l) => (.done, l)
    | (some (.error e), l) => (.failed e, l)
  | signal data => (.done, l.signal data)
  | kicks =>
    let (data, l) := l.takeKicks
    (.bytes data, l)
  | close => (.done, l.close)

def runLine (l : Line) : List LineStep → List LineReply
  | [] => []
  | step :: rest =>
    let (reply, l) := step.apply l
    reply :: runLine l rest

end CommandRing.Scenario
