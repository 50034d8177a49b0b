import CommandRing.Proofs.Counters
import Mathlib.Logic.Function.Iterate

/-!
# Steps around the ring

A position can be moved by many slots at once, up to a whole lap. That is no shortcut of its own: it leads where as
many single steps lead, and two moves that stay within a lap together are one move. So the slots between a
position and where it was moved to are as many as it was moved by, and what is counted between the two is that
number again.

Everything here is about `Ahead`, which already says how far apart two positions are; what is added is that
distances add up.
-/

namespace CommandRing.Position

variable {c : Capacity} {p q r : Position}

/-- **Distances add up within a lap.** -/
theorem Ahead.trans {m n : Nat} (hpq : Ahead c p m q) (hqr : Ahead c q n r)
    (hle : m + n ≤ c.toNat) : Ahead c p (m + n) r := by
  have hon := hpq.onRing
  unfold OnRing at hon
  refine Ahead.of_cases hpq.onRing hle ?_
  rcases hpq.cases with hc | hc <;> rcases hqr.cases with hd | hd
  · exact Or.inl ⟨by omega, by omega, by rw [hd.2.2, hc.2.2]⟩
  · exact Or.inr ⟨by omega, by omega, by rw [hd.2.2, hc.2.2]⟩
  · exact Or.inr ⟨by omega, by omega, by rw [hd.2.2, hc.2.2]⟩
  -- two laps would have begun
  · omega

/-- Where a distance leads is determined. -/
theorem Ahead.eq_of_same {k : Nat} (hq : Ahead c p k q) (hr : Ahead c p k r) : q = r :=
  hq.eq.trans hr.eq.symm

/-- A move by `n` slots leads `n` slots ahead. -/
theorem OnRing.ahead_advanceBy (h : p.OnRing c) {n : UInt32} (hn : n.toNat ≤ c.toNat) :
    Ahead c p n.toNat (p.advanceBy n c) :=
  ⟨h, hn, by rw [UInt32.ofNat_toNat]⟩

/-- So do `k` single steps, by induction on `k`. -/
theorem OnRing.ahead_iterate (h : p.OnRing c) {k : Nat} (hk : k ≤ c.toNat) :
    Ahead c p k ((advance · c)^[k] p) := by
  induction k with
  | zero => exact Ahead.zero h
  | succ k ih =>
      rw [Function.iterate_succ_apply']
      exact (ih (Nat.le_of_succ_le hk)).advance_tail hk

/-- A whole lap leads back to the same slot, on the next lap. -/
theorem OnRing.advanceBy_lap (h : p.OnRing c) : p.advanceBy c.slots c = ⟨p.index, !p.wrap⟩ := by
  have hlap := h.ahead_advanceBy (n := c.slots) (Nat.le_refl _)
  refine hlap.eq_of_same (Ahead.of_cases h (Nat.le_refl _) (Or.inr ⟨?_, ?_, rfl⟩))
  · exact Nat.le_add_left _ _
  · rfl

/--
**Moving by many slots is stepping, and counting gives the number of steps.** A position on the ring that is moved
by `a` slots, at most a lap, is where `a` steps lead, on the ring again. From there `b` more slots are `a + b` from the
start if that is within a lap, and a whole lap changes nothing but the flag. Between the position and where it was
moved to, `a` slots are occupied and the others are free; nothing lies between them exactly after no step, and
everything exactly after a lap. No word wraps around: not the sum of index and steps in 64 bits, nor what is kept of
it in 32, nor any word in the counts.
-/
theorem moved_by_steps {a b : UInt32} (hp : p.index < c.slots) (hab : a.toNat + b.toNat ≤ c.toNat) :
    p.advanceBy a c = (advance · c)^[a.toNat] p
      ∧ (p.advanceBy a c).index < c.slots
      ∧ (p.advanceBy a c).advanceBy b c = p.advanceBy (a + b) c
      ∧ p.advanceBy c.slots c = ⟨p.index, !p.wrap⟩
      ∧ p.occupied (p.advanceBy a c) c = a
      ∧ p.available (p.advanceBy a c) c = c.slots - a
      ∧ (p.isEmpty (p.advanceBy a c) = true ↔ a = 0)
      ∧ (p.isFull (p.advanceBy a c) = true ↔ a = c.slots)
      ∧ p.index.toNat + a.toNat < UInt64.size
      ∧ (p.advanceBy a c).index.toNat = (p.index.toNat + a.toNat) % c.toNat
      ∧ (a + b).toNat = a.toNat + b.toNat ∧ a ≤ c.slots
      ∧ (Cursor.mk p (p.advanceBy a c) c).Exact := by
  have hon : p.OnRing c := UInt32.lt_iff_toNat_lt.mp hp
  have hslots : c.slots.toNat = c.toNat := rfl
  have hlt := c.toNat_lt
  have ha : a.toNat ≤ c.toNat := Nat.le_trans (Nat.le_add_right ..) hab
  have hahead := hon.ahead_advanceBy ha
  have hsum : (a + b).toNat = a.toNat + b.toNat := by
    rw [UInt32.toNat_add, Nat.mod_eq_of_lt (by omega)]
  have hle : a ≤ c.slots := UInt32.le_iff_toNat_le.mpr ha
  refine ⟨?_, ?_, ?_, hon.advanceBy_lap, ?_, ?_, ?_, ?_, ?_, hahead.index_eq, hsum, hle, hahead.exact⟩
  · exact hahead.eq_of_same (hon.ahead_iterate ha)
  · exact UInt32.lt_iff_toNat_lt.mpr hahead.tail_onRing
  · have hrest := hahead.tail_onRing.ahead_advanceBy (n := b) (by omega)
    have hboth := hon.ahead_advanceBy (n := a + b) (by omega)
    rw [hsum] at hboth
    exact (hahead.trans hrest hab).eq_of_same hboth
  · exact UInt32.toNat_inj.mp hahead.occupied_eq
  · refine UInt32.toNat_inj.mp ?_
    rw [hahead.available_eq, UInt32.toNat_sub_of_le _ _ hle, hslots]
  · rw [hahead.isEmpty_iff, ← UInt32.toNat_inj]
    exact Iff.rfl
  · rw [hahead.isFull_iff, ← UInt32.toNat_inj]
    exact Iff.rfl
  · have hindex := p.index.toNat_lt
    have hsteps := a.toNat_lt
    unfold UInt64.size
    omega

/-- The largest ring, from its last slot: the sums of indices do not fit in a word. -/
theorem moved_by_steps_largestRing :
    (⟨4294967294, true⟩ : Position).advanceBy 4294967290 ⟨4294967295, by decide⟩ = ⟨4294967289, false⟩
      ∧ (⟨4294967294, true⟩ : Position).occupied ⟨4294967289, false⟩ ⟨4294967295, by decide⟩ = 4294967290
      ∧ (⟨4294967289, false⟩ : Position).advanceBy 5 ⟨4294967295, by decide⟩ = ⟨4294967294, false⟩ := by
  have hmoved : (⟨4294967294, true⟩ : Position).advanceBy 4294967290 ⟨4294967295, by decide⟩
      = ⟨4294967289, false⟩ := by
    decide
  obtain ⟨_, _, htwice, hlap, hoccupied, _⟩ :=
    moved_by_steps (c := ⟨4294967295, by decide⟩) (p := ⟨4294967294, true⟩) (a := 4294967290) (b := 5)
      (by decide) (by decide)
  rw [hmoved] at htwice hoccupied
  exact ⟨hmoved, hoccupied, htwice.trans hlap⟩

end CommandRing.Position
