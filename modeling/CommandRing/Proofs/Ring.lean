import CommandRing.Ring.Cursor

/-!
# Counting slots

A wrap flag stands for the parity of a lap count, and that is enough as long as a tail is never more
than one lap ahead of its head. `Ahead c head k tail` says that the tail is `k` slots ahead; every
question that a driver asks of two positions is then a question about `k`.

Words are 32 bits wide, and sums of indices are not: `Ahead.cases` moves to natural numbers once, and
everything after it is linear arithmetic.
-/

namespace CommandRing

theorem Capacity.toNat_lt (c : Capacity) : c.toNat < 4294967296 := c.slots.toNat_lt

namespace Position

def OnRing (p : Position) (c : Capacity) : Prop := p.index.toNat < c.toNat

/-- The tail is `k` slots ahead of the head, at most one lap. -/
structure Ahead (c : Capacity) (head : Position) (k : Nat) (tail : Position) : Prop where
  onRing : head.OnRing c
  le : k ≤ c.toNat
  /-- The tail is where `k` steps lead. -/
  eq : tail = head.advanceBy (UInt32.ofNat k) c

variable {c : Capacity} {head tail : Position} {k : Nat}

theorem toNat_count (hk : k ≤ c.toNat) : (UInt32.ofNat k).toNat = k := by
  have := c.toNat_lt
  rw [UInt32.toNat_ofNat']
  exact Nat.mod_eq_of_lt (by omega)

/-- **Within a lap, or past the end once.** -/
theorem Ahead.cases (h : Ahead c head k tail) :
    (head.index.toNat + k < c.toNat ∧ tail.index.toNat = head.index.toNat + k
        ∧ tail.wrap = head.wrap)
      ∨ (c.toNat ≤ head.index.toNat + k ∧ tail.index.toNat + c.toNat = head.index.toNat + k
        ∧ tail.wrap = !head.wrap) := by
  obtain ⟨hon, hle, rfl⟩ := h
  have hlt := c.toNat_lt
  have hk := toNat_count hle
  unfold OnRing at hon
  unfold advanceBy
  rw [hk]
  dsimp only
  split
  · refine Or.inr ⟨by assumption, ?_, rfl⟩
    rw [UInt32.toNat_ofNat', Nat.mod_eq_of_lt (by omega)]
    omega
  · refine Or.inl ⟨by omega, ?_, rfl⟩
    rw [UInt32.toNat_ofNat', Nat.mod_eq_of_lt (by omega)]

theorem Ahead.of_cases (hon : head.OnRing c) (hle : k ≤ c.toNat)
    (h : (head.index.toNat + k < c.toNat ∧ tail.index.toNat = head.index.toNat + k
        ∧ tail.wrap = head.wrap)
      ∨ (c.toNat ≤ head.index.toNat + k ∧ tail.index.toNat + c.toNat = head.index.toNat + k
        ∧ tail.wrap = !head.wrap)) : Ahead c head k tail := by
  refine ⟨hon, hle, ?_⟩
  -- the position that `k` steps lead to has the same two cases, and they exclude each other
  have h' := (Ahead.mk hon hle rfl).cases
  generalize head.advanceBy (UInt32.ofNat k) c = other at h'
  obtain ⟨i, w⟩ := tail
  obtain ⟨j, v⟩ := other
  have hindex : i = j := by
    refine UInt32.toNat_inj.mp ?_
    rcases h with h | h <;> rcases h' with h' | h' <;> dsimp only at h h' <;> omega
  have hwrap : w = v := by
    rcases h with h | h <;> rcases h' with h' | h' <;> dsimp only at h h'
    · rw [h.2.2, h'.2.2]
    · omega
    · omega
    · rw [h.2.2, h'.2.2]
  rw [hindex, hwrap]

theorem Ahead.zero (h : head.OnRing c) : Ahead c head 0 head :=
  Ahead.of_cases h (Nat.zero_le _) (Or.inl ⟨h, rfl, rfl⟩)

theorem Ahead.tail_onRing (h : Ahead c head k tail) : tail.OnRing c := by
  have hon := h.onRing
  have hle := h.le
  unfold OnRing at hon ⊢
  rcases h.cases with hc | hc <;> omega

theorem Ahead.index_eq (h : Ahead c head k tail) :
    tail.index.toNat = (head.index.toNat + k) % c.toNat := by
  have hon := h.tail_onRing
  unfold OnRing at hon
  rcases h.cases with hc | hc
  · rw [← hc.2.1, Nat.mod_eq_of_lt hon]
  · rw [← hc.2.1, Nat.add_mod_right, Nat.mod_eq_of_lt hon]

theorem OnRing.ahead_one (h : head.OnRing c) : Ahead c head 1 (head.advance c) := ⟨h, c.toNat_pos, rfl⟩

/-- One slot further on, as a number. -/
theorem OnRing.toNat_advance (h : head.OnRing c) :
    (head.advance c).index.toNat = (head.index.toNat + 1) % c.toNat := h.ahead_one.index_eq

/-! ## What a driver asks -/

theorem Ahead.isEmpty_iff (h : Ahead c head k tail) : head.isEmpty tail = true ↔ k = 0 := by
  have hon := h.onRing
  unfold OnRing at hon
  unfold isEmpty
  rw [beq_iff_eq]
  constructor
  · intro he
    subst he
    rcases h.cases with hc | hc
    · omega
    · exact absurd hc.2.2 (by simp)
  · intro hk
    rcases h.cases with ⟨_, hi, hw⟩ | hc
    · obtain ⟨i, w⟩ := head
      obtain ⟨j, v⟩ := tail
      have hij : j = i := UInt32.toNat_inj.mp (by dsimp only at hi; omega)
      dsimp only at hw
      rw [hij, hw]
    · omega

theorem Ahead.isFull_iff (h : Ahead c head k tail) : head.isFull tail = true ↔ k = c.toNat := by
  have hle := h.le
  have hpos := c.toNat_pos
  unfold isFull
  rw [Bool.and_eq_true, beq_iff_eq, bne_iff_ne]
  constructor
  · rintro ⟨hi, hw⟩
    have hn := congrArg UInt32.toNat hi
    rcases h.cases with hc | hc
    · exact absurd hc.2.2.symm hw
    · omega
  · intro hk
    rcases h.cases with hc | hc
    · omega
    · refine ⟨UInt32.toNat_inj.mp (by omega), ?_⟩
      rw [hc.2.2]
      simp

/-- **Occupied slots are counted without wrapping around.** -/
theorem Ahead.occupied_eq (h : Ahead c head k tail) : (head.occupied tail c).toNat = k := by
  have hon := h.onRing
  have hton := h.tail_onRing
  have hle := h.le
  have hlt := c.toNat_lt
  have hslots : c.slots.toNat = c.toNat := rfl
  unfold OnRing at hon hton
  unfold occupied
  rcases h.cases with ⟨_, hi, hw⟩ | ⟨_, hi, hw⟩
  · rw [if_pos hw.symm, UInt32.toNat_sub_of_le _ _ (UInt32.le_iff_toNat_le.mpr (by omega))]
    omega
  -- what is left of the lap is taken first, and so the sum stays within the word
  · rw [if_neg (by rw [hw]; simp), UInt32.toNat_add,
      UInt32.toNat_sub_of_le _ _ (UInt32.le_iff_toNat_le.mpr (by omega)), hslots]
    rw [Nat.mod_eq_of_lt (by omega)]
    omega

/-- What is not occupied can still be filled. -/
theorem Ahead.available_eq (h : Ahead c head k tail) :
    (head.available tail c).toNat = c.toNat - k := by
  have hocc := h.occupied_eq
  unfold available
  rw [UInt32.toNat_sub_of_le, hocc]
  · rfl
  · rw [UInt32.le_iff_toNat_le, hocc]
    exact h.le

/-! ## What a driver does -/

theorem Ahead.advance_tail (h : Ahead c head k tail) (hk : k < c.toNat) :
    Ahead c head (k + 1) (tail.advance c) := by
  have hpos := c.toNat_pos
  have hone := h.tail_onRing.ahead_one
  refine Ahead.of_cases h.onRing hk ?_
  rcases h.cases with hc | hc <;> rcases hone.cases with hd | hd
  · exact Or.inl ⟨by omega, by omega, by rw [hd.2.2, hc.2.2]⟩
  · exact Or.inr ⟨by omega, by omega, by rw [hd.2.2, hc.2.2]⟩
  · exact Or.inr ⟨by omega, by omega, by rw [hd.2.2, hc.2.2]⟩
  -- the end of the ring is not passed twice within a lap
  · have := h.onRing
    unfold OnRing at this
    omega

theorem Ahead.advance_head (h : Ahead c head (k + 1) tail) :
    Ahead c (head.advance c) k tail := by
  have hpos := c.toNat_pos
  have hon := h.onRing
  have hone := hon.ahead_one
  unfold OnRing at hon
  refine Ahead.of_cases hone.tail_onRing (by have := h.le; omega) ?_
  have hle := h.le
  rcases h.cases with hc | hc <;> rcases hone.cases with hd | hd
  · exact Or.inl ⟨by omega, by omega, by rw [hd.2.2, hc.2.2]⟩
  · omega
  · exact Or.inr ⟨by omega, by omega, by rw [hd.2.2, hc.2.2]⟩
  · exact Or.inl ⟨by omega, by omega, by rw [hd.2.2, hc.2.2]⟩

/-- The distance between two slots is a count around the ring. -/
theorem distance_eq {i j : UInt32} (hi : i.toNat < c.toNat) (hk : k ≤ c.toNat)
    (hj : j.toNat = (i.toNat + k) % c.toNat) : (distance i j c).toNat = k % c.toNat := by
  have hlt := c.toNat_lt
  have hslots : c.slots.toNat = c.toNat := rfl
  unfold distance
  rcases Nat.lt_or_ge (i.toNat + k) c.toNat with hc | hc
  · rw [Nat.mod_eq_of_lt hc] at hj
    rw [if_pos (UInt32.le_iff_toNat_le.mpr (by omega)),
      UInt32.toNat_sub_of_le _ _ (UInt32.le_iff_toNat_le.mpr (by omega)),
      Nat.mod_eq_of_lt (by omega)]
    omega
  · rw [Nat.mod_eq_sub_mod hc, Nat.mod_eq_of_lt (by omega)] at hj
    rcases Nat.lt_or_ge k c.toNat with hkc | hkc
    · rw [if_neg (by rw [UInt32.le_iff_toNat_le]; omega), UInt32.toNat_add,
        UInt32.toNat_sub_of_le _ _ (UInt32.le_iff_toNat_le.mpr (by omega)), hslots,
        Nat.mod_eq_of_lt (by omega), Nat.mod_eq_of_lt hkc]
      omega
    -- a whole lap leads back to where it began
    · have hkeq : k = c.toNat := Nat.le_antisymm hk hkc
      have hij : j = i := UInt32.toNat_inj.mp (by omega)
      rw [hij, if_pos (UInt32.le_refl i), UInt32.sub_self, hkeq, Nat.mod_self]
      rfl

/-- From one slot it is the distance to another one that leads there, and no whole lap. -/
theorem distance_of_ne {i j : UInt32} (hi : i.toNat < c.toNat) (hj : j.toNat < c.toNat) (hne : i ≠ j) :
    0 < (distance i j c).toNat ∧ (distance i j c).toNat < c.toNat
      ∧ (i.toNat + (distance i j c).toNat) % c.toNat = j.toNat := by
  have hlt := Nat.mod_lt (j.toNat + (c.toNat - i.toNat)) c.toNat_pos
  have hleads : (i.toNat + (j.toNat + (c.toNat - i.toNat)) % c.toNat) % c.toNat = j.toNat := by
    rw [Nat.add_mod_mod, Nat.add_left_comm, Nat.add_sub_cancel' (Nat.le_of_lt hi), Nat.add_mod_right,
      Nat.mod_eq_of_lt hj]
  have hdistance := distance_eq hi (Nat.le_of_lt hlt) hleads.symm
  rw [Nat.mod_mod] at hdistance
  rw [hdistance]
  refine ⟨Nat.pos_of_ne_zero ?_, hlt, hleads⟩
  intro hzero
  rw [hzero, Nat.add_zero, Nat.mod_eq_of_lt hi] at hleads
  exact hne (UInt32.toNat_inj.mp hleads)

end Position

end CommandRing
