import CommandRing.Entry.Header
import CommandRing.Geometry

/-!
# What an accepted geometry guarantees

The checks of `ofMailbox` are few, and everything that is computed with slots afterwards rests on them:
offsets are exact in 32 bits, slots lie behind the mailbox and apart from each other, and a cursor is
accepted exactly when it is the offset of a slot. `Valid` keeps what does not depend on how much of the
memory may be accessed, because that may change later.
-/

namespace CommandRing

namespace Layout

/-- A slot is large enough for the request with its descriptor block, and for the response. -/
theorem le_slotSize (layout : Layout) :
    layout.cdbOffset + layout.cdbSize ≤ layout.slotSize ∧ layout.responseSize ≤ layout.slotSize := by
  have hmax : max (layout.cdbOffset + layout.cdbSize) layout.responseSize ≤ layout.slotSize := by
    unfold slotSize alignUp entryAlignment
    omega
  exact ⟨Nat.le_trans (Nat.le_max_left ..) hmax, Nat.le_trans (Nat.le_max_right ..) hmax⟩

theorem requestBase_le_cdbOffset (layout : Layout) : requestBase ≤ layout.cdbOffset :=
  Nat.le_add_right ..

theorem slotSize_pos (layout : Layout) : 0 < layout.slotSize := by
  have h := layout.le_slotSize.1
  have hbase := layout.requestBase_le_cdbOffset
  unfold requestBase at hbase
  omega

/-- Slots keep the alignment of the one before. -/
theorem slotSize_aligned (layout : Layout) : layout.slotSize % entryAlignment = 0 :=
  Nat.mul_mod_left ..

theorem headerSize_le_slotSize (layout : Layout) : Header.size ≤ layout.slotSize := by
  have h := layout.le_slotSize.1
  have hbase := layout.requestBase_le_cdbOffset
  unfold requestBase at hbase
  unfold Header.size
  omega

end Layout

/-- What a mailbox has to say for a ring in a mapping of `length` bytes: the ring lies behind the 68 bytes of the
mailbox, on a multiple of 8 and inside the mapping, and is cut into whole slots, at least one and fewer than the
65535 ids. -/
structure Mailbox.Describes (m : Mailbox) (layout : Layout) (length : Nat) : Prop where
  behind : 68 ≤ m.ringOffset.toNat
  aligned : m.ringOffset.toNat % 8 = 0
  inside : m.ringOffset.toNat + m.ringSize.toNat ≤ length
  whole : m.ringSize.toNat % layout.slotSize = 0
  nonempty : 0 < m.ringSize.toNat
  few : m.ringSize.toNat / layout.slotSize < 65535

namespace Geometry

/-- What the checks leave of a geometry, however much of the memory may be accessed. -/
structure Valid (g : Geometry) (layout : Layout) : Prop where
  behindMailbox : Mailbox.size ≤ g.offset.toNat
  aligned : g.offset.toNat % entryAlignment = 0
  /-- No bit of the slot size is lost. -/
  slotSize_eq : g.slotSize.toNat = layout.slotSize
  size_eq : g.slotCount.toNat * layout.slotSize = g.size.toNat
  /-- There are more ids than slots. -/
  count_lt : g.slotCount.toNat < CommandId.count

theorem toNat_ofSlots? {n : UInt32} {c : Capacity} (h : Capacity.ofSlots? n = some c) :
    c.toNat = n.toNat := by
  unfold Capacity.ofSlots? at h
  split at h
  · injection h with h
    rw [← h]
    rfl
  · exact absurd h (by simp)

/-- **What is accepted is valid, and lies inside the mapping.** -/
theorem ofMailbox_valid {m : Mailbox} {layout : Layout} {length : Nat} {g : Geometry}
    (h : ofMailbox m layout length = .ok g) :
    g.Valid layout ∧ g.offset = m.ringOffset ∧ g.size = m.ringSize
      ∧ g.offset.toNat + g.size.toNat ≤ length := by
  have hpos := layout.slotSize_pos
  have hsize := m.ringSize.toNat_lt
  unfold ofMailbox at h
  dsimp only at h
  split at h
  · exact absurd h (by simp)
  rename_i hplace
  split at h
  · exact absurd h (by simp)
  rename_i hinside
  split at h
  · exact absurd h (by simp)
  rename_i hwhole
  split at h
  · exact absurd h (by simp)
  rename_i hcount
  split at h
  · exact absurd h (by simp)
  rename_i c hc
  injection h with h
  subst h
  have hdiv := Nat.div_le_self m.ringSize.toNat layout.slotSize
  have hslots : c.toNat = m.ringSize.toNat / layout.slotSize := by
    rw [toNat_ofSlots? hc, UInt32.toNat_ofNat', Nat.mod_eq_of_lt (by omega)]
  have hmul : m.ringSize.toNat / layout.slotSize * layout.slotSize = m.ringSize.toNat :=
    Nat.div_mul_cancel (Nat.dvd_of_mod_eq_zero (Classical.not_not.mp hwhole))
  -- a ring with a slot is at least as large as the slot, so the slot size fits as well
  have hle : layout.slotSize ≤ m.ringSize.toNat := by
    rw [← hmul, ← hslots]
    exact Nat.le_mul_of_pos_left _ c.toNat_pos
  have hslot : (UInt32.ofNat layout.slotSize).toNat = layout.slotSize := by
    rw [UInt32.toNat_ofNat', Nat.mod_eq_of_lt (by omega)]
  rw [not_or, Classical.not_not, Nat.not_lt] at hplace
  rw [Nat.not_lt] at hinside
  rw [Nat.not_le, ← hslots] at hcount
  exact ⟨⟨hplace.1, hplace.2, hslot, by rw [hslots]; exact hmul, hcount⟩, rfl, rfl, hinside⟩

theorem toNat_slotCount {m : Mailbox} {layout : Layout} {length : Nat} {g : Geometry}
    (h : ofMailbox m layout length = .ok g) :
    g.slotCount.toNat = m.ringSize.toNat / layout.slotSize := by
  obtain ⟨hvalid, _, hsize, _⟩ := ofMailbox_valid h
  rw [← hsize, ← hvalid.size_eq, Nat.mul_div_cancel _ layout.slotSize_pos]

/-- **A geometry is accepted exactly for a mailbox that describes a ring.** -/
theorem ofMailbox_accepts {m : Mailbox} {layout : Layout} {length : Nat} :
    (∃ g, ofMailbox m layout length = .ok g) ↔ m.Describes layout length := by
  have hpos := layout.slotSize_pos
  constructor
  · rintro ⟨g, hg⟩
    obtain ⟨hvalid, hoffset, hsize, hinside⟩ := ofMailbox_valid hg
    have hcount := g.slotCount.toNat_pos
    have hmul := hvalid.size_eq
    rw [hsize] at hmul hinside
    rw [hoffset] at hinside
    refine ⟨hoffset ▸ hvalid.behindMailbox, hoffset ▸ hvalid.aligned, hinside, ?_, ?_, ?_⟩
    · rw [← hmul, Nat.mul_mod_left]
    · rw [← hmul]
      exact Nat.mul_pos hcount hpos
    · rw [← hmul, Nat.mul_div_cancel _ hpos]
      exact hvalid.count_lt
  · intro h
    have hbehind := h.behind
    have haligned := h.aligned
    have hinside := h.inside
    have hwhole := h.whole
    have hfew := h.few
    have hsize := m.ringSize.toNat_lt
    -- a whole number of slots that is not zero
    have hslots : 0 < m.ringSize.toNat / layout.slotSize :=
      Nat.div_pos (Nat.le_of_dvd h.nonempty (Nat.dvd_of_mod_eq_zero hwhole)) hpos
    have hdiv := Nat.div_le_self m.ringSize.toNat layout.slotSize
    have hword : 0 < UInt32.ofNat (m.ringSize.toNat / layout.slotSize) := by
      rw [UInt32.lt_iff_toNat_lt, UInt32.toNat_ofNat', Nat.mod_eq_of_lt (by omega)]
      exact hslots
    have hcapacity : Capacity.ofSlots? (UInt32.ofNat (m.ringSize.toNat / layout.slotSize))
        = some ⟨_, hword⟩ := by
      unfold Capacity.ofSlots?
      rw [dif_pos hword]
    unfold ofMailbox Mailbox.size entryAlignment CommandId.count
    dsimp only
    rw [if_neg (by omega), if_neg (by omega), if_neg (by omega), if_neg (by omega), hcapacity]
    exact ⟨_, rfl⟩

/-- Every other mailbox is corrupt. -/
theorem ofMailbox_error {m : Mailbox} {layout : Layout} {length : Nat} {e : Error}
    (h : ofMailbox m layout length = .error e) : ∃ reason, e = .corrupt reason := by
  unfold ofMailbox at h
  dsimp only at h
  -- each `split` is one check
  iterate 4
    split at h
    · injection h with h
      exact ⟨_, h.symm⟩
  split at h
  · injection h with h
    exact ⟨_, h.symm⟩
  · exact absurd h (by simp)

variable {g : Geometry} {layout : Layout}

/-- Where the slot with number `i` starts in the mapping. -/
def slotStart (g : Geometry) (i : Nat) : Nat := g.offset.toNat + i * g.slotSize.toNat

theorem Valid.slotSize_pos (h : g.Valid layout) : 0 < g.slotSize.toNat := by
  rw [h.slotSize_eq]
  exact layout.slotSize_pos

theorem Valid.slot_le (h : g.Valid layout) {i : Nat} (hi : i < g.slotCount.toNat) :
    i * g.slotSize.toNat + g.slotSize.toNat ≤ g.size.toNat := by
  rw [← h.size_eq, h.slotSize_eq, ← Nat.succ_mul]
  exact Nat.mul_le_mul_right _ hi

theorem Valid.slotStart_le (h : g.Valid layout) {i : Nat} (hi : i < g.slotCount.toNat) :
    g.slotStart i + g.slotSize.toNat ≤ g.offset.toNat + g.size.toNat := by
  have := h.slot_le hi
  unfold slotStart
  omega

theorem Valid.behind_slotStart (h : g.Valid layout) (i : Nat) : Mailbox.size ≤ g.slotStart i :=
  Nat.le_trans h.behindMailbox (Nat.le_add_right ..)

/-- **Slots lie apart.** -/
theorem slotStart_apart {i j : Nat} (h : i ≠ j) :
    g.slotStart i + g.slotSize.toNat ≤ g.slotStart j
      ∨ g.slotStart j + g.slotSize.toNat ≤ g.slotStart i := by
  unfold slotStart
  rcases Nat.lt_or_gt_of_ne h with hlt | hgt
  · have := Nat.mul_le_mul_right g.slotSize.toNat hlt
    rw [Nat.succ_mul] at this
    exact Or.inl (by omega)
  · have := Nat.mul_le_mul_right g.slotSize.toNat hgt
    rw [Nat.succ_mul] at this
    exact Or.inr (by omega)

/-! ## Offsets are exact in 32 bits -/

theorem Valid.toNat_ringOffset (h : g.Valid layout) {i : UInt32} (hi : i.toNat < g.slotCount.toNat) :
    (g.ringOffset i).toNat = i.toNat * g.slotSize.toNat := by
  have := h.slot_le hi
  have hlt := g.size.toNat_lt
  unfold ringOffset
  rw [UInt32.toNat_mul, Nat.mod_eq_of_lt (by omega)]

theorem Valid.slotOffset_eq (h : g.Valid layout) {i : UInt32} (hi : i.toNat < g.slotCount.toNat) :
    g.slotOffset i = g.slotStart i.toNat := by
  unfold slotOffset slotStart
  rw [h.toNat_ringOffset hi]

/-- **A cursor is accepted exactly when it is the offset of a slot.** -/
theorem Valid.indexOf_eq_ok (h : g.Valid layout) {v i : UInt32} :
    g.indexOf v = .ok i ↔ i.toNat < g.slotCount.toNat ∧ g.ringOffset i = v := by
  have hpos := h.slotSize_pos
  unfold indexOf
  constructor
  · intro hv
    split at hv
    · exact absurd hv (by simp)
    · rename_i hc
      rw [not_or, Classical.not_not, UInt32.not_le] at hc
      injection hv with hv
      subst hv
      have hlt := UInt32.lt_iff_toNat_lt.mp hc.1
      have hmod := congrArg UInt32.toNat hc.2
      rw [UInt32.toNat_mod] at hmod
      -- a cursor inside the ring lies in one of its slots
      have hi : (v / g.slotSize).toNat < g.slotCount.toNat := by
        rw [UInt32.toNat_div, Nat.div_lt_iff_lt_mul hpos, h.slotSize_eq, h.size_eq]
        exact hlt
      refine ⟨hi, UInt32.toNat_inj.mp ?_⟩
      rw [h.toNat_ringOffset hi, UInt32.toNat_div]
      exact Nat.div_mul_cancel (Nat.dvd_of_mod_eq_zero hmod)
  · rintro ⟨hi, rfl⟩
    have hoff := h.toNat_ringOffset hi
    have hle := h.slot_le hi
    rw [if_neg, Except.ok.injEq]
    · refine UInt32.toNat_inj.mp ?_
      rw [UInt32.toNat_div, hoff, Nat.mul_div_cancel _ hpos]
    · rw [not_or, Classical.not_not, UInt32.not_le, UInt32.lt_iff_toNat_lt]
      refine ⟨by omega, UInt32.toNat_inj.mp ?_⟩
      rw [UInt32.toNat_mod, hoff, Nat.mul_mod_left]
      rfl

/-! ## What every slot may be used for -/

/-- Slot `i` of a ring in a mapping of `length` bytes can be used as it is: its offsets are computed without
wrapping around, and it shares no byte with the mailbox or with another slot. -/
structure SlotFits (g : Geometry) (layout : Layout) (length : Nat) (i : UInt32) : Prop where
  product : i.toNat * g.slotSize.toNat < UInt32.size
  ringOffset_eq : (g.ringOffset i).toNat = i.toNat * layout.slotSize
  sum : g.offset.toNat + (g.ringOffset i).toNat < UInt64.size
  inside : g.slotOffset i + layout.slotSize ≤ length
  aligned : g.slotOffset i % 8 = 0
  behindMailbox : 68 ≤ g.slotOffset i
  apart : ∀ j, j < g.slotCount.slots → i ≠ j →
    g.slotOffset i + layout.slotSize ≤ g.slotOffset j ∨ g.slotOffset j + layout.slotSize ≤ g.slotOffset i
  /-- The cursor at the slot's start names the slot. -/
  indexOf_eq : g.indexOf (g.ringOffset i) = .ok i

theorem Valid.slotFits (h : g.Valid layout) {length : Nat}
    (hinside : g.offset.toNat + g.size.toNat ≤ length) {i : UInt32} (hi : i < g.slotCount.slots) :
    g.SlotFits layout length i := by
  have hcount : i.toNat < g.slotCount.toNat := UInt32.lt_iff_toNat_lt.mp hi
  have hslot := h.slot_le hcount
  have hring := h.toNat_ringOffset hcount
  have hstart := h.slotOffset_eq hcount
  have hsize := g.size.toNat_lt
  have hoffset := g.offset.toNat_lt
  have heq := h.slotSize_eq
  refine ⟨?_, ?_, ?_, ?_, ?_, ?_, ?_, ?_⟩
  · have hpos := h.slotSize_pos
    unfold UInt32.size
    omega
  · rw [hring, heq]
  · unfold UInt64.size
    omega
  · have hle := h.slotStart_le hcount
    rw [hstart, ← heq]
    omega
  -- the ring is aligned, and so is every multiple of the slot size
  · have hring8 := h.aligned
    have hslot8 := layout.slotSize_aligned
    unfold entryAlignment at hring8 hslot8
    have hmul : i.toNat * layout.slotSize % 8 = 0 := by
      rw [Nat.mul_mod, hslot8, Nat.mul_zero, Nat.zero_mod]
    rw [hstart]
    unfold slotStart
    rw [heq]
    omega
  · rw [hstart]
    exact h.behind_slotStart _
  · intro j hj hne
    have hcount' : j.toNat < g.slotCount.toNat := UInt32.lt_iff_toNat_lt.mp hj
    rw [hstart, h.slotOffset_eq hcount', ← heq]
    exact slotStart_apart fun he => hne (UInt32.toNat_inj.mp he)
  · exact h.indexOf_eq_ok.mpr ⟨hcount, rfl⟩

/--
**What is computed within an accepted geometry is exact.** The slot size survives its narrowing to 32 bits, and the
slots make up the ring. The offsets of every slot are computed without wrapping around; the slot lies inside the
mapping, on the entry alignment, and apart from the mailbox and from every other slot. A cursor is accepted exactly
if it is where one of the slots starts.
-/
theorem slots_exact_and_apart {m : Mailbox} {length : Nat} (h : ofMailbox m layout length = .ok g) :
    g.offset = m.ringOffset ∧ g.size = m.ringSize
      ∧ g.slotSize.toNat = layout.slotSize
      ∧ g.slotCount.toNat * g.slotSize.toNat = m.ringSize.toNat
      ∧ (∀ i, i < g.slotCount.slots → g.SlotFits layout length i)
      ∧ ∀ v, (∃ i, g.indexOf v = .ok i) ↔ ∃ i, i < g.slotCount.slots ∧ v = g.ringOffset i := by
  obtain ⟨hvalid, hoffset, hsize, hinside⟩ := ofMailbox_valid h
  refine ⟨hoffset, hsize, hvalid.slotSize_eq, ?_, fun i => hvalid.slotFits hinside, fun v => ?_⟩
  · rw [hvalid.slotSize_eq, hvalid.size_eq, hsize]
  · constructor
    · rintro ⟨i, hi⟩
      obtain ⟨hcount, hring⟩ := hvalid.indexOf_eq_ok.mp hi
      exact ⟨i, UInt32.lt_iff_toNat_lt.mpr hcount, hring.symm⟩
    · rintro ⟨i, hi, rfl⟩
      exact ⟨i, (hvalid.slotFits hinside hi).indexOf_eq⟩

/-- Descriptor blocks of nearly four gibibytes. -/
def hugeLayout : Layout := { maxSegments := 0, cdbSize := 4294967240, senseSize := 0 }

def hugeGeometry : Geometry := ⟨4294967288, 4294967288, 4294967288, ⟨1, by decide⟩⟩

/-- One such slot, as large as a word can say and as far behind the mailbox, ends on the last byte of the mapping.
-/
theorem slots_exact_and_apart_hugeGeometry :
    ofMailbox { ringOffset := 4294967288, ringSize := 4294967288 } hugeLayout 8589934576
        = .ok hugeGeometry
      ∧ hugeLayout.slotSize = 4294967288 ∧ hugeGeometry.SlotFits hugeLayout 8589934576 0
      ∧ ¬ ∃ i, hugeGeometry.indexOf 4294967280 = .ok i := by
  have hg : ofMailbox { ringOffset := 4294967288, ringSize := 4294967288 } hugeLayout 8589934576
      = .ok hugeGeometry := rfl
  obtain ⟨_, _, hslot, _, hfits, hcursor⟩ := slots_exact_and_apart hg
  refine ⟨hg, hslot.symm, hfits 0 (by decide), ?_⟩
  rw [hcursor]
  rintro ⟨i, hi, hv⟩
  have hzero : i = 0 := UInt32.lt_one_iff.mp hi
  subst hzero
  exact absurd hv (by decide)

end Geometry

end CommandRing
