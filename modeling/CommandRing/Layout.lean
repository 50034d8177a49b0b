/-!
# Sizes of the shared structures

A ring is cut into slots of one size. A slot holds a request (a fixed part of 48 bytes, then the
data segments it refers to, then the inline command descriptor block) and is later overwritten by the
response (a fixed part of 16 bytes, then the sense data), so it is as large as the larger of the
two, rounded up to the entry alignment.

The kernel fixes the pointer width and the size of the sense buffer, and the driver chooses how many
segments and how many descriptor bytes a slot reserves; a `Layout` carries all four, so the
structures of any target can be written on any host. Sizes are natural numbers: nothing overflows.
-/

namespace CommandRing

/-- Width of the address and the length of a data segment. -/
inductive PointerWidth where
  | bits32
  | bits64
deriving DecidableEq

def PointerWidth.bytes : PointerWidth → Nat
  | .bits32 => 4
  | .bits64 => 8

/-- The alignment of entries, which keeps the low three bits of an entry's length free. -/
def entryAlignment : Nat := 8

/-- `n` rounded up to the entry alignment. -/
def alignUp (n : Nat) : Nat := (n + (entryAlignment - 1)) / entryAlignment * entryAlignment

/-- How the slots of a ring are laid out. -/
structure Layout where
  pointerWidth : PointerWidth := .bits64
  /-- Segments of all three kinds together that one request may carry. -/
  maxSegments : Nat := 4
  /-- Descriptor bytes reserved in each slot. -/
  cdbSize : Nat := 16
  /-- Length of a response's sense data. -/
  senseSize : Nat := 96
deriving DecidableEq

namespace Layout

/-- Bytes of the request in front of its segments. -/
def requestBase : Nat := 48

/-- Bytes of the response in front of its sense data. -/
def responseBase : Nat := 16

def segmentSize (layout : Layout) : Nat := 2 * layout.pointerWidth.bytes

def requestSize (layout : Layout) (segments : Nat) : Nat :=
  requestBase + segments * layout.segmentSize

def responseSize (layout : Layout) : Nat := responseBase + layout.senseSize

/-- Where the inline descriptor block starts in a slot: behind as many segments as a request may
carry. -/
def cdbOffset (layout : Layout) : Nat := layout.requestSize layout.maxSegments

def slotSize (layout : Layout) : Nat :=
  alignUp (max (layout.cdbOffset + layout.cdbSize) layout.responseSize)

theorem segmentSize_pos (layout : Layout) : 0 < layout.segmentSize := by
  unfold segmentSize PointerWidth.bytes
  split <;> omega

end Layout

end CommandRing
