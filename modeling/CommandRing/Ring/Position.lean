/-!
# Positions on the ring

Two slot indices alone cannot tell a full ring from an empty one, since both have head and tail on
the same slot. A position therefore also carries a flag that flips on every lap: equal indices with
equal flags mean empty, equal indices with different flags mean full, and every slot is usable.

Indices are 32-bit words. They stay below the capacity, a tail is at most one lap ahead of its head,
and under these two conditions no word below wraps around.
-/

namespace CommandRing

/-- How many slots a ring has: at least one. -/
structure Capacity where
  slots : UInt32
  pos : 0 < slots
deriving DecidableEq

namespace Capacity

/-- The capacity of a ring with `slots` slots, if there are any. -/
def ofSlots? (slots : UInt32) : Option Capacity :=
  if h : 0 < slots then some ⟨slots, h⟩ else none

def toNat (c : Capacity) : Nat := c.slots.toNat

theorem toNat_pos (c : Capacity) : 0 < c.toNat := by
  have h := UInt32.lt_iff_toNat_lt.mp c.pos
  simpa [toNat] using h

end Capacity

/-- A slot index and the parity of the laps taken. -/
structure Position where
  index : UInt32
  wrap : Bool
deriving DecidableEq

namespace Position

def zero : Position := ⟨0, false⟩

/-- The position `n` slots further on, where `n` is at most the capacity. -/
def advanceBy (p : Position) (n : UInt32) (c : Capacity) : Position :=
  let next := p.index.toNat + n.toNat
  if c.toNat ≤ next then
    ⟨UInt32.ofNat (next - c.toNat), !p.wrap⟩
  else
    ⟨UInt32.ofNat next, p.wrap⟩

def advance (p : Position) (c : Capacity) : Position := p.advanceBy 1 c

/-- Nothing lies between `head` and `tail`. -/
def isEmpty (head tail : Position) : Bool := head == tail

/-- Every slot lies between `head` and `tail`. -/
def isFull (head tail : Position) : Bool := head.index == tail.index && head.wrap != tail.wrap

/-- Slots from `head` up to `tail`. -/
def occupied (head tail : Position) (c : Capacity) : UInt32 :=
  if head.wrap = tail.wrap then
    tail.index - head.index
  else
    c.slots - head.index + tail.index

/-- Slots that can still be filled. -/
def available (head tail : Position) (c : Capacity) : UInt32 :=
  c.slots - occupied head tail c

/-- Slots that lie ahead from index `start` to index `finish`, less than one lap. -/
def distance (start finish : UInt32) (c : Capacity) : UInt32 :=
  if start ≤ finish then
    finish - start
  else
    c.slots - start + finish

end Position

end CommandRing
