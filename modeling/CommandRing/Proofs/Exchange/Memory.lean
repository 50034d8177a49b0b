import CommandRing.Proofs.Exchange.Slot
import Mathlib.Data.Nat.ModEq

/-!
# What the memory holds between two honest sides

Commands are numbered in the order in which they are published, and responses in the order in which they
are written, so number `j` of either takes the same slot: its *seat*, `j` slots from where the ring was
taken over. `Holds` says what the memory is once some commands were published, some responses were written
and the head was moved over some of these.

The slots of consumed responses may be written again and say nothing. From the first response that was not
consumed up to the last command that was published there is at most one lap, so these have a seat each. A
write to one of them leaves the others alone.
-/

namespace CommandRing

namespace Geometry

variable (g : Geometry)

/-- The slot of number `j`, if number `0` took slot `start`. -/
def seat (start j : Nat) : Nat := (start + j) % g.slotCount.toNat

theorem seat_lt (start j : Nat) : g.seat start j < g.slotCount.toNat :=
  Nat.mod_lt _ g.slotCount.toNat_pos

/-- Within a lap, every number has a seat of its own. -/
theorem seat_ne (start : Nat) {i j : Nat} (hij : i < j) (hlap : j < i + g.slotCount.toNat) :
    g.seat start j ≠ g.seat start i := by
  intro h
  unfold seat at h
  have hmod := Nat.sub_mod_eq_zero_of_mod_eq h
  rw [Nat.mod_eq_of_lt (by omega)] at hmod
  omega

theorem seat_add (start i j : Nat) : g.seat (g.seat start i) j = g.seat start (i + j) := by
  unfold seat
  rw [Nat.mod_add_mod, Nat.add_assoc]

/-- Two numbers with one seat are laps apart. -/
theorem mod_eq_of_seat_eq {start i j : Nat} (h : g.seat start i = g.seat start j) :
    i % g.slotCount.toNat = j % g.slotCount.toNat :=
  Nat.ModEq.add_left_cancel' start h

theorem toNat_seat (start j : Nat) : (UInt32.ofNat (g.seat start j)).toNat = g.seat start j :=
  Position.toNat_count (Nat.le_of_lt (g.seat_lt start j))

/-- The bytes of slot number `i`. -/
def slotBytes (memory : Region) (i : Nat) : Bytes := memory.extract (g.slotStart i) g.slotSize.toNat

/-- A cursor of the mailbox is part of no slot. -/
theorem Valid.slotBytes_put_cursor {g : Geometry} {layout : Layout} (h : g.Valid layout)
    {memory : Region} {offset : Nat} {v : UInt32} (hoffset : offset + 4 ≤ Mailbox.size) (i : Nat) :
    g.slotBytes (memory.put offset (Bytes.ofUInt32 v)) i = g.slotBytes memory i := by
  have hbehind := h.behind_slotStart i
  refine Region.extract_put_of_disjoint (Or.inr ?_)
  rw [Bytes.length_ofUInt32]
  exact Nat.le_trans hoffset hbehind

/-- A write to one slot leaves the others alone. -/
theorem slotBytes_put_other {memory : Region} {i k : Nat} {slot : Bytes}
    (hlen : slot.length = g.slotSize.toNat) (hne : k ≠ i) :
    g.slotBytes (memory.put (g.slotStart k) slot) i = g.slotBytes memory i := by
  have hapart := slotStart_apart (g := g) hne
  refine Region.extract_put_of_disjoint ?_
  rw [hlen]
  exact hapart.symm

theorem slotBytes_put_self {memory : Region} {i : Nat} {slot : Bytes}
    (hlen : slot.length = g.slotSize.toNat)
    (hin : g.slotStart i + g.slotSize.toNat ≤ memory.bytes.size) :
    g.slotBytes (memory.put (g.slotStart i) slot) i = slot := by
  rw [← hlen] at hin
  have hself := Region.extract_put_self hin
  rw [hlen] at hself
  exact hself

end Geometry

/-- The memory after `count` commands were published and `answers` were written, of which the head was moved
over `passed` and `taken` were consumed. -/
structure Holds (g : Geometry) (layout : Layout) (start : Nat) (memory : Region) (taken passed : Nat)
    (answers : List Response) (count : Nat) : Prop where
  /-- The mailbox still describes the ring. -/
  geometry : Geometry.ofMailbox memory.shown layout memory.length = .ok g
  /-- The head is on the first response that it was not moved over. -/
  head : memory.shown.head.toNat = g.seat start passed * g.slotSize.toNat
  /-- The tail is on the first free seat. -/
  tail : memory.shown.tail.toNat = g.seat start count * g.slotSize.toNat
  /-- Responses stay until they are consumed. -/
  answered : ∀ j r, taken ≤ j → answers[j]? = some r →
    Answers layout (g.slotBytes memory (g.seat start j)) r
  /-- Behind them are requests. -/
  waiting : ∀ j, answers.length ≤ j → j < count → Waits (g.slotBytes memory (g.seat start j))

namespace Holds

variable {g : Geometry} {layout : Layout} {start taken passed count : Nat} {memory : Region}
  {answers : List Response}

theorem valid (h : Holds g layout start memory taken passed answers count) : g.Valid layout :=
  (Geometry.ofMailbox_valid h.geometry).1

theorem ring_le (h : Holds g layout start memory taken passed answers count) :
    g.offset.toNat + g.size.toNat ≤ memory.length := by
  obtain ⟨_, _, _, hle⟩ := Geometry.ofMailbox_valid h.geometry
  exact hle

theorem slot_le (h : Holds g layout start memory taken passed answers count) {i : Nat}
    (hi : i < g.slotCount.toNat) : g.slotStart i + g.slotSize.toNat ≤ memory.length :=
  Nat.le_trans (h.valid.slotStart_le hi) h.ring_le

theorem mailbox_le (h : Holds g layout start memory taken passed answers count) :
    Mailbox.size ≤ memory.length :=
  Nat.le_trans h.valid.behindMailbox (Nat.le_trans (Nat.le_add_right ..) h.ring_le)

theorem mailbox_le_size (h : Holds g layout start memory taken passed answers count) :
    Mailbox.size ≤ memory.bytes.size :=
  Nat.le_trans h.mailbox_le memory.length_le_size

/-! ## Cursors -/

theorem load_head (h : Holds g layout start memory taken passed answers count) :
    memory.load Mailbox.headOffset = .ok memory.shown.head :=
  Region.load_eq_ok.mpr ⟨Nat.le_trans (by decide) h.mailbox_le, by decide, rfl⟩

theorem load_tail (h : Holds g layout start memory taken passed answers count) :
    memory.load Mailbox.tailOffset = .ok memory.shown.tail :=
  Region.load_eq_ok.mpr ⟨Nat.le_trans (by decide) h.mailbox_le, by decide, rfl⟩

theorem indexOf_seat (h : Holds g layout start memory taken passed answers count) {v : UInt32}
    {j : Nat} (hv : v.toNat = g.seat start j * g.slotSize.toNat) :
    g.indexOf v = .ok (UInt32.ofNat (g.seat start j)) := by
  have hlt := g.seat_lt start j
  have hword := g.toNat_seat start j
  refine h.valid.indexOf_eq_ok.mpr ⟨by omega, UInt32.toNat_inj.mp ?_⟩
  rw [h.valid.toNat_ringOffset (by omega), hword, hv]

/-! ## Writes -/

theorem slotBytes_put_self (h : Holds g layout start memory taken passed answers count)
    {i : Nat} {slot : Bytes} (hlen : slot.length = g.slotSize.toNat) (hi : i < g.slotCount.toNat) :
    g.slotBytes (memory.put (g.slotStart i) slot) i = slot :=
  g.slotBytes_put_self hlen (Nat.le_trans (h.slot_le hi) memory.length_le_size)

theorem shown_put_slot (h : Holds g layout start memory taken passed answers count) (i : Nat)
    (slot : Bytes) : (memory.put (g.slotStart i) slot).shown = memory.shown :=
  Region.shown_put_of_behind (h.valid.behind_slotStart i)

/-! ## What the two sides do -/

theorem consume (h : Holds g layout start memory taken passed answers count) :
    Holds g layout start memory (taken + 1) passed answers count where
  geometry := h.geometry
  head := h.head
  tail := h.tail
  answered j r hj := h.answered j r (by omega)
  waiting := h.waiting

theorem toNat_word (h : Holds g layout start memory taken passed answers count) {i : Nat}
    (hi : i < g.slotCount.toNat) :
    (UInt32.ofNat (i * g.slotSize.toNat)).toNat = i * g.slotSize.toNat := by
  have hle := h.valid.slot_le hi
  have hlt := g.size.toNat_lt
  rw [UInt32.toNat_ofNat', Nat.mod_eq_of_lt (by omega)]

/-- **Writing a response turns the first request into it.** -/
theorem write (h : Holds g layout start memory taken passed answers count)
    (htaken : taken ≤ answers.length) (hlap : count ≤ taken + g.slotCount.toNat)
    (hmore : answers.length < count) {slot : Bytes} {r : Response}
    (hlen : slot.length = g.slotSize.toNat) (hr : Answers layout slot r) :
    Holds g layout start (memory.put (g.slotStart (g.seat start answers.length)) slot) taken passed
      (answers ++ [r]) count where
  geometry := by
    rw [h.shown_put_slot, Region.length_put]
    exact h.geometry
  head := by
    rw [h.shown_put_slot]
    exact h.head
  tail := by
    rw [h.shown_put_slot]
    exact h.tail
  answered := by
    intro j r' hj hget
    -- the responses that were there, and the new one
    rcases Nat.lt_or_ge j answers.length with hlt | hge
    · rw [List.getElem?_append_left hlt] at hget
      rw [g.slotBytes_put_other hlen (g.seat_ne start hlt (by omega))]
      exact h.answered j r' hj hget
    · rw [List.getElem?_append_right hge, List.getElem?_singleton] at hget
      split at hget
      · rename_i hj0
        injection hget with hget
        subst hget
        have hjeq : j = answers.length := by omega
        rw [hjeq, h.slotBytes_put_self hlen (g.seat_lt start _)]
        exact hr
      · exact absurd hget (by simp)
  waiting := by
    intro j hj hcount
    rw [List.length_append, List.length_singleton] at hj
    have hne := g.seat_ne start (i := answers.length) (j := j) hj (by omega)
    rw [g.slotBytes_put_other hlen hne.symm]
    exact h.waiting j (by omega) hcount

theorem pass (h : Holds g layout start memory taken passed answers count) {v : UInt32}
    (hv : v.toNat = g.seat start (passed + 1) * g.slotSize.toNat) :
    Holds g layout start (memory.put Mailbox.headOffset (Bytes.ofUInt32 v)) taken (passed + 1)
      answers count := by
  have hshown := Region.shown_put_head (v := v) h.mailbox_le_size
  refine ⟨?_, ?_, ?_, ?_, ?_⟩
  · rw [hshown, Region.length_put]
    exact h.geometry
  · rw [hshown]
    exact hv
  · rw [hshown]
    exact h.tail
  · intro j r hj hget
    rw [h.valid.slotBytes_put_cursor (by decide)]
    exact h.answered j r hj hget
  · intro j hj hcount
    rw [h.valid.slotBytes_put_cursor (by decide)]
    exact h.waiting j hj hcount

/-- The first free seat is none of those that are spoken for. -/
theorem put_free (h : Holds g layout start memory taken passed answers count)
    (htaken : taken ≤ answers.length) (hle : answers.length ≤ count)
    (hroom : count < taken + g.slotCount.toNat) {slot : Bytes}
    (hlen : slot.length = g.slotSize.toNat) :
    Holds g layout start (memory.put (g.slotStart (g.seat start count)) slot) taken passed answers
      count := by
  refine ⟨?_, ?_, ?_, ?_, ?_⟩
  · rw [h.shown_put_slot, Region.length_put]
    exact h.geometry
  · rw [h.shown_put_slot]
    exact h.head
  · rw [h.shown_put_slot]
    exact h.tail
  · intro j r hj hget
    obtain ⟨hlt, _⟩ := List.getElem?_eq_some_iff.mp hget
    have hne := g.seat_ne start (i := j) (j := count) (by omega) (by omega)
    rw [g.slotBytes_put_other hlen hne]
    exact h.answered j r hj hget
  · intro j hj hcount
    have hne := g.seat_ne start (i := j) (j := count) (by omega) (by omega)
    rw [g.slotBytes_put_other hlen hne]
    exact h.waiting j hj hcount

/-- **Publishing a request takes the first free seat.** -/
theorem publish (h : Holds g layout start memory taken passed answers count)
    (htaken : taken ≤ answers.length) (hle : answers.length ≤ count)
    (hroom : count < taken + g.slotCount.toNat) {slot : Bytes} {v : UInt32}
    (hlen : slot.length = g.slotSize.toNat) (hw : Waits slot)
    (hv : v.toNat = g.seat start (count + 1) * g.slotSize.toNat) :
    Holds g layout start
      ((memory.put (g.slotStart (g.seat start count)) slot).put Mailbox.tailOffset
        (Bytes.ofUInt32 v)) taken passed answers (count + 1) := by
  -- first the slot, then the tail
  have hput := h.put_free htaken hle hroom hlen
  have hshown := Region.shown_put_tail (v := v) hput.mailbox_le_size
  refine ⟨?_, ?_, ?_, ?_, ?_⟩
  · rw [hshown, Region.length_put]
    exact hput.geometry
  · rw [hshown]
    exact hput.head
  · rw [hshown]
    exact hv
  · intro j r hj hget
    rw [hput.valid.slotBytes_put_cursor (by decide)]
    exact hput.answered j r hj hget
  · intro j hj hcount
    rw [hput.valid.slotBytes_put_cursor (by decide)]
    -- the requests that were there, and the new one
    rcases Nat.lt_or_ge j count with hlt | hge
    · exact hput.waiting j hj hlt
    · rw [show j = count by omega, h.slotBytes_put_self hlen (g.seat_lt start _)]
      exact hw

end Holds

end CommandRing
