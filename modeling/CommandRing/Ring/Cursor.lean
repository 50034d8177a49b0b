import CommandRing.Error
import CommandRing.Ring.Position

/-!
# The driver's cursor

A cursor holds the two ends of the occupied part of the ring. Submitting acquires the slot at the
tail, consuming a response releases the slot at the head. Acquiring fails on a full ring and releasing
on an empty one, and neither then moves anything.
-/

namespace CommandRing

/-- The occupied part of a ring. -/
structure Cursor where
  head : Position
  tail : Position
  capacity : Capacity
deriving DecidableEq

namespace Cursor

/-- An empty ring with both ends on slot `index`. -/
def startingAt (index : UInt32) (capacity : Capacity) : Cursor where
  head := ⟨index, false⟩
  tail := ⟨index, false⟩
  capacity := capacity

def new (capacity : Capacity) : Cursor := startingAt 0 capacity

def isEmpty (c : Cursor) : Bool := c.head.isEmpty c.tail

def isFull (c : Cursor) : Bool := c.head.isFull c.tail

def occupied (c : Cursor) : UInt32 := c.head.occupied c.tail c.capacity

def available (c : Cursor) : UInt32 := c.head.available c.tail c.capacity

/-- Acquires the slot at the tail. -/
def acquire (c : Cursor) : Except Error Cursor :=
  if c.isFull then
    .error (.ringFull c.capacity.toNat)
  else
    .ok { c with tail := c.tail.advance c.capacity }

/-- Releases the slot at the head, if one is occupied. -/
def release (c : Cursor) : Option Cursor :=
  if c.isEmpty then
    none
  else
    some { c with head := c.head.advance c.capacity }

/-- Empties the ring, with both ends on slot `index`. -/
def resetAt (c : Cursor) (index : UInt32) : Cursor := startingAt index c.capacity

def reset (c : Cursor) : Cursor := c.resetAt 0

end Cursor

end CommandRing
