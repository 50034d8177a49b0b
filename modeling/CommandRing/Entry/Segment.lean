import CommandRing.Bytes
import CommandRing.Layout

/-!
# Data segments

A command refers to memory through segments, each an address and a length of the layout's pointer
width. They come in three lists: data, bidirectional and integrity. A request stores the three one
after the other and keeps only their counts.
-/

namespace CommandRing

/-- The address and the length of one piece of memory. -/
structure Segment where
  base : UInt64 := 0
  length : UInt64 := 0
deriving DecidableEq

namespace Segment

/-- The bytes of a segment. A 32-bit layout keeps the low halves. -/
def image (width : PointerWidth) (s : Segment) : Bytes :=
  Bytes.ofNat width.bytes s.base.toNat ++ Bytes.ofNat width.bytes s.length.toNat

@[simp] theorem length_image (width : PointerWidth) (s : Segment) :
    (s.image width).length = 2 * width.bytes := by
  simp [image]
  omega

def ofBytes (width : PointerWidth) (buffer : Bytes) : Segment where
  base := UInt64.ofNat (Bytes.toNat (buffer.slice 0 width.bytes))
  length := UInt64.ofNat (Bytes.toNat (buffer.slice width.bytes width.bytes))

/-- The first `count` segments that `buffer` spells, one after the other. -/
def listOfBytes (width : PointerWidth) : (count : Nat) → Bytes → List Segment
  | 0, _ => []
  | count + 1, buffer =>
    ofBytes width buffer :: listOfBytes width count (buffer.drop (2 * width.bytes))

@[simp] theorem length_listOfBytes (width : PointerWidth) (count : Nat) (buffer : Bytes) :
    (listOfBytes width count buffer).length = count := by
  induction count generalizing buffer with
  | zero => rfl
  | succ count ih => simp [listOfBytes, ih]

end Segment

/-- The three kinds of segments that a command carries. -/
structure Segments where
  data : List Segment := []
  bidirectional : List Segment := []
  integrity : List Segment := []
deriving DecidableEq

namespace Segments

/-- All segments in the order in which a request stores them. -/
def all (s : Segments) : List Segment := s.data ++ s.bidirectional ++ s.integrity

def count (s : Segments) : Nat :=
  s.data.length + s.bidirectional.length + s.integrity.length

theorem length_all (s : Segments) : s.all.length = s.count := by
  simp [all, count, Nat.add_assoc]

/-- Cuts a list of segments after `first`, and the rest after `second`. -/
def cut (first second : Nat) (l : List Segment) : Segments where
  data := l.take first
  bidirectional := (l.drop first).take second
  integrity := l.drop (first + second)

end Segments

end CommandRing
