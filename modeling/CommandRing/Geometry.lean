import CommandRing.Layout
import CommandRing.Mailbox
import CommandRing.Ring.Position

/-!
# Where the ring lies

The mailbox says where the ring starts and how long it is. Before any of it is used, the ring has to
lie behind the mailbox, on the entry alignment and inside the mapping, and it has to be cut into
whole slots, of which there are fewer than command ids. A `Geometry` is what passed these checks;
within it, all offsets of slots below the count are exact in 32 bits.

Cursors of the mailbox count bytes from the start of the ring, and only slot boundaries are valid.
-/

namespace CommandRing

/-- The ring inside the mapping, cut into slots. -/
structure Geometry where
  /-- Where the ring starts in the mapping. -/
  offset : UInt32
  size : UInt32
  slotSize : UInt32
  slotCount : Capacity
deriving DecidableEq

namespace Geometry

/-- Checks a mailbox against the slot size and a mapping of `length` bytes. -/
def ofMailbox (m : Mailbox) (layout : Layout) (length : Nat) : Except Error Geometry :=
  let offset := m.ringOffset.toNat
  let size := m.ringSize.toNat
  let slotSize := layout.slotSize
  let slotCount := size / slotSize
  if offset < Mailbox.size ∨ offset % entryAlignment ≠ 0 then
    .error (.corrupt (.misplacedRing offset))
  else if length < offset + size then
    .error (.corrupt (.ringPastMapping size offset length))
  else if size % slotSize ≠ 0 then
    .error (.corrupt (.raggedRing size slotSize))
  else if CommandId.count ≤ slotCount then
    .error (.corrupt (.tooManySlots slotCount))
  else
    match Capacity.ofSlots? (UInt32.ofNat slotCount) with
    | none => .error (.corrupt .noSlots)
    | some capacity =>
      .ok ⟨m.ringOffset, m.ringSize, UInt32.ofNat slotSize, capacity⟩

/-- Where slot `index` starts in the ring; mailbox cursors hold such offsets. -/
def ringOffset (g : Geometry) (index : UInt32) : UInt32 := index * g.slotSize

/-- Where slot `index` starts in the mapping. -/
def slotOffset (g : Geometry) (index : UInt32) : Nat :=
  g.offset.toNat + (g.ringOffset index).toNat

/-- The slot that starts at a ring offset. -/
def indexOf (g : Geometry) (cursor : UInt32) : Except Error UInt32 :=
  if g.size ≤ cursor ∨ cursor % g.slotSize ≠ 0 then
    .error (.corrupt (.strayCursor cursor.toNat g.size.toNat))
  else
    .ok (cursor / g.slotSize)

end Geometry

end CommandRing
