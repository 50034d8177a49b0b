import CommandRing.Proofs.Ring
import CommandRing.Scenario.Parts

/-!
# One flag for all laps

A cursor forgets on which lap it is: it keeps two indices and two flags. What it stands for are two counters
that never wrap around, the slots released and the slots acquired so far, and one bit of their lap numbers is
all that is needed, because the counters are never more than one lap apart.

`Counters.after` reads the counters off the replies: what succeeded is counted, and a reset starts over on the
first lap. `Counted` is what a step keeps, and every question about the cursor is answered from it.
-/

namespace CommandRing

/-! ## Positions -/

/-- The position that `n` steps from the start of the first lap lead to. -/
structure Position.At (c : Capacity) (p : Position) (n : Nat) : Prop where
  index : p.index.toNat = n % c.toNat
  /-- The flag is the parity of the lap. -/
  wrap : p.wrap = decide (n / c.toNat % 2 = 1)

namespace Position.At

variable {c : Capacity} {p q : Position} {m n : Nat}

theorem onRing (h : p.At c n) : p.OnRing c := by
  unfold OnRing
  rw [h.index]
  exact Nat.mod_lt _ c.toNat_pos

theorem start {index : UInt32} (h : index < c.slots) : At c ⟨index, false⟩ index.toNat := by
  have hlt : index.toNat < c.toNat := UInt32.lt_iff_toNat_lt.mp h
  constructor
  · simp [Nat.mod_eq_of_lt hlt]
  · simp [Nat.div_eq_of_lt hlt]

/-- **A step forward is a step of the counter**: it stays on the lap, or begins the next one. -/
theorem advance (h : p.At c n) : (p.advance c).At c (n + 1) := by
  have hpos := c.toNat_pos
  have hone := h.onRing.ahead_one
  have hlap := Nat.div_add_mod n c.toNat
  have hindex := h.index
  rcases hone.cases with ⟨hlt, hi, hw⟩ | ⟨hge, hi, hw⟩
  · have hmod : n % c.toNat + 1 < c.toNat := by omega
    have hn : n + 1 = c.toNat * (n / c.toNat) + (n % c.toNat + 1) := by omega
    have hnext : (n + 1) % c.toNat = n % c.toNat + 1 := by
      rw [hn, Nat.mul_add_mod, Nat.mod_eq_of_lt hmod]
    have hsame : (n + 1) / c.toNat = n / c.toNat := by
      rw [hn, Nat.mul_add_div hpos, Nat.div_eq_of_lt hmod, Nat.add_zero]
    constructor
    · rw [hnext, hi, hindex]
    · rw [hsame, hw, h.wrap]
  · have hn : n + 1 = c.toNat * (n / c.toNat + 1) := by
      have hmod := Nat.mod_lt n hpos
      rw [Nat.mul_add, Nat.mul_one]
      omega
    have hnext : (n + 1) % c.toNat = 0 := by
      rw [hn, Nat.mul_mod_right]
    have hmore : (n + 1) / c.toNat = n / c.toNat + 1 := by
      rw [hn, Nat.mul_div_cancel_left _ hpos]
    constructor
    · have hmod := Nat.mod_lt n hpos
      rw [hnext]
      omega
    · rw [hmore, hw, h.wrap]
      rcases Nat.mod_two_eq_zero_or_one (n / c.toNat) with heven | hodd
      · simp [Nat.add_mod, heven]
      · simp [Nat.add_mod, hodd]

/-- Flags agree on laps of the same parity. -/
theorem wrap_eq_iff (hp : p.At c m) (hq : q.At c n) :
    p.wrap = q.wrap ↔ m / c.toNat % 2 = n / c.toNat % 2 := by
  rw [hp.wrap, hq.wrap, decide_eq_decide]
  omega

end Position.At

/-! ## Counters -/

/-- Slots released and acquired, counted from the start of the first lap. -/
structure Counters where
  released : Nat
  acquired : Nat
deriving DecidableEq

open Scenario (CursorStep CursorReply)

namespace Counters

/-- The counters after a step with this reply. -/
def after (n : Counters) : CursorStep → CursorReply → Counters
  | .acquire, .position _ => { n with acquired := n.acquired + 1 }
  | .release, .position _ => { n with released := n.released + 1 }
  | .acquire, _ | .release, _ => n
  | .reset, _ => ⟨0, 0⟩
  | .resetAt index, _ => ⟨index.toNat, index.toNat⟩

/-- Takes all steps, and counts along. -/
def run (c : Cursor) (n : Counters) : List CursorStep → Cursor × Counters
  | [] => (c, n)
  | step :: rest => run (step.apply c).2 (n.after step (step.apply c).1) rest

end Counters

/-- No word wraps around in what is computed from a cursor: every difference is taken from the larger word, and
every sum fits. -/
structure Cursor.Exact (c : Cursor) : Prop where
  gap : c.head.wrap = c.tail.wrap → c.head.index ≤ c.tail.index
  rest : c.head.index ≤ c.capacity.slots
  sum : c.head.wrap ≠ c.tail.wrap ∨ c.tail.index < c.head.index →
    c.capacity.slots.toNat - c.head.index.toNat + c.tail.index.toNat < UInt32.size
  free : c.occupied ≤ c.capacity.slots

/-- **Nothing wraps around**, as long as the tail is at most one lap ahead. -/
theorem Position.Ahead.exact {capacity : Capacity} {head tail : Position} {k : Nat}
    (h : Position.Ahead capacity head k tail) : (Cursor.mk head tail capacity).Exact := by
  have hlt := capacity.toNat_lt
  have hslots : capacity.slots.toNat = capacity.toNat := rfl
  have hhead := h.onRing
  have hle := h.le
  unfold Position.OnRing at hhead
  have hcases := h.cases
  refine ⟨?_, ?_, ?_, ?_⟩ <;> dsimp only
  · intro hw
    rw [UInt32.le_iff_toNat_le]
    rcases hcases with hc | hc
    · omega
    · rw [hc.2.2] at hw
      simp at hw
  · rw [UInt32.le_iff_toNat_le]
    omega
  · intro hw
    have hbehind : tail.index.toNat ≤ head.index.toNat := by
      rcases hw with hw | hw
      · rcases hcases with hc | hc
        · exact absurd hc.2.2.symm hw
        · omega
      · exact Nat.le_of_lt (UInt32.lt_iff_toNat_lt.mp hw)
    unfold UInt32.size
    omega
  · unfold Cursor.occupied
    rw [UInt32.le_iff_toNat_le, h.occupied_eq]
    exact hle

/-- The cursor stands for the counters. -/
structure Counted (capacity : Capacity) (c : Cursor) (n : Counters) : Prop where
  slots : c.capacity = capacity
  le : n.released ≤ n.acquired
  head : c.head.At capacity n.released
  tail : c.tail.At capacity n.acquired
  ahead : Position.Ahead capacity c.head (n.acquired - n.released) c.tail

namespace Counted

variable {capacity : Capacity} {c : Cursor} {n : Counters}

theorem startingAt {index : UInt32} (h : index < capacity.slots) :
    Counted capacity (.startingAt index capacity) ⟨index.toNat, index.toNat⟩ where
  slots := rfl
  le := Nat.le_refl _
  head := .start h
  tail := .start h
  ahead := by
    rw [Nat.sub_self]
    exact Position.Ahead.zero (UInt32.lt_iff_toNat_lt.mp h)

theorem new (capacity : Capacity) : Counted capacity (.new capacity) ⟨0, 0⟩ :=
  startingAt capacity.pos

theorem le_lap (h : Counted capacity c n) : n.acquired ≤ n.released + capacity.toNat := by
  have hle := h.ahead.le
  omega

/-! ## Questions -/

theorem isEmpty_iff (h : Counted capacity c n) : c.isEmpty = true ↔ n.acquired = n.released := by
  have hle := h.le
  unfold Cursor.isEmpty
  rw [h.ahead.isEmpty_iff]
  omega

theorem isFull_iff (h : Counted capacity c n) :
    c.isFull = true ↔ n.acquired - n.released = capacity.toNat :=
  h.ahead.isFull_iff

theorem toNat_occupied (h : Counted capacity c n) :
    c.occupied.toNat = n.acquired - n.released := by
  unfold Cursor.occupied
  rw [h.slots]
  exact h.ahead.occupied_eq

theorem toNat_available (h : Counted capacity c n) :
    c.available.toNat = capacity.toNat - (n.acquired - n.released) := by
  unfold Cursor.available
  rw [h.slots]
  exact h.ahead.available_eq

theorem toNat_distance (h : Counted capacity c n) :
    (Position.distance c.head.index c.tail.index capacity).toNat
      = (n.acquired - n.released) % capacity.toNat :=
  Position.distance_eq h.ahead.onRing h.ahead.le h.ahead.index_eq

theorem exact (h : Counted capacity c n) : c.Exact := by
  obtain ⟨head, tail, slots⟩ := c
  have hslots : slots = capacity := h.slots
  subst hslots
  exact h.ahead.exact

/-! ## Steps -/

theorem acquire_eq (h : Counted capacity c n) :
    CursorStep.acquire.apply c =
      if n.acquired - n.released = capacity.toNat then
        (.failed (.ringFull capacity.toNat), c)
      else
        (.position (c.tail.advance capacity), { c with tail := c.tail.advance capacity }) := by
  unfold CursorStep.apply Cursor.acquire
  by_cases hfull : n.acquired - n.released = capacity.toNat
  · simp [hfull, h.isFull_iff.mpr hfull, h.slots]
  · have hroom : c.isFull = false := by
      rw [Bool.eq_false_iff, ne_eq, h.isFull_iff]
      exact hfull
    simp [hfull, hroom, h.slots]

theorem release_eq (h : Counted capacity c n) :
    CursorStep.release.apply c =
      if n.acquired = n.released then
        (.nothing, c)
      else
        (.position (c.head.advance capacity), { c with head := c.head.advance capacity }) := by
  unfold CursorStep.apply Cursor.release
  by_cases hnone : n.acquired = n.released
  · simp [hnone, h.isEmpty_iff.mpr hnone]
  · have hsome : c.isEmpty = false := by
      rw [Bool.eq_false_iff, ne_eq, h.isEmpty_iff]
      exact hnone
    simp [hnone, hsome, h.slots]

/-- **One step keeps the cursor and the counters together.** -/
theorem step (h : Counted capacity c n) (step : CursorStep)
    (hstep : ∀ index, step = .resetAt index → index < capacity.slots) :
    Counted capacity (step.apply c).2 (n.after step (step.apply c).1) := by
  have hle := h.le
  cases step with
  | acquire =>
      rw [h.acquire_eq]
      by_cases hfull : n.acquired - n.released = capacity.toNat
      · rw [if_pos hfull]
        exact h
      · rw [if_neg hfull]
        have hroom : n.acquired - n.released < capacity.toNat :=
          Nat.lt_of_le_of_ne h.ahead.le hfull
        have hmore : n.acquired + 1 - n.released = n.acquired - n.released + 1 := by omega
        refine ⟨h.slots, Nat.le_succ_of_le hle, h.head, h.tail.advance, ?_⟩
        show Position.Ahead capacity c.head (n.acquired + 1 - n.released) (c.tail.advance capacity)
        rw [hmore]
        exact h.ahead.advance_tail hroom
  | release =>
      rw [h.release_eq]
      by_cases hnone : n.acquired = n.released
      · rw [if_pos hnone]
        exact h
      · rw [if_neg hnone]
        have hless : n.acquired - n.released = n.acquired - (n.released + 1) + 1 := by omega
        have hahead := h.ahead
        rw [hless] at hahead
        exact ⟨h.slots, Nat.lt_of_le_of_ne hle (Ne.symm hnone), h.head.advance, h.tail,
          hahead.advance_head⟩
  | reset =>
      unfold CursorStep.apply Cursor.reset Cursor.resetAt
      rw [h.slots]
      exact new capacity
  | resetAt index =>
      unfold CursorStep.apply Cursor.resetAt
      rw [h.slots]
      exact startingAt (hstep index rfl)

/-- **And so does every run**, by induction on its steps. -/
theorem run (h : Counted capacity c n) {steps : List CursorStep}
    (hsteps : ∀ index, .resetAt index ∈ steps → index < capacity.slots) :
    Counted capacity (Counters.run c n steps).1 (Counters.run c n steps).2 := by
  induction steps generalizing c n with
  | nil => exact h
  | cons step rest ih =>
      refine ih (h.step step ?_) ?_
      · intro index hindex
        exact hsteps index (by simp [hindex])
      · intro index hindex
        exact hsteps index (by simp [hindex])

end Counted

/--
**A cursor is a pair of counters that never wrap around.** After any steps of a new cursor the slots acquired
are at most one lap ahead of the slots released. The indices are the counters within their laps, and the flags
agree exactly on laps of the same parity. A slot is refused only to a full ring and released only by one that is
not empty, and then nothing moves. What the cursor counts is the difference of the counters, and no word wraps
around on the way.
-/
theorem Cursor.refines_counters (capacity : Capacity) {steps : List CursorStep}
    (hsteps : ∀ index, .resetAt index ∈ steps → index < capacity.slots) :
    ∃ c n, Counters.run (.new capacity) ⟨0, 0⟩ steps = (c, n)
      ∧ n.released ≤ n.acquired ∧ n.acquired ≤ n.released + capacity.toNat
      ∧ c.head.index.toNat = n.released % capacity.toNat
      ∧ c.tail.index.toNat = n.acquired % capacity.toNat
      ∧ (c.head.wrap = c.tail.wrap
        ↔ n.released / capacity.toNat % 2 = n.acquired / capacity.toNat % 2)
      ∧ (CursorStep.acquire.apply c =
        if n.acquired - n.released = capacity.toNat then
          (.failed (.ringFull capacity.toNat), c)
        else
          (.position (c.tail.advance capacity), { c with tail := c.tail.advance capacity }))
      ∧ (CursorStep.release.apply c =
        if n.acquired = n.released then
          (.nothing, c)
        else
          (.position (c.head.advance capacity), { c with head := c.head.advance capacity }))
      ∧ c.occupied.toNat = n.acquired - n.released
      ∧ c.available.toNat = capacity.toNat - (n.acquired - n.released)
      ∧ c.Exact
      ∧ (c.isEmpty = true ↔ n.acquired = n.released)
      ∧ (c.isFull = true ↔ n.acquired - n.released = capacity.toNat)
      ∧ (Position.distance c.head.index c.tail.index capacity).toNat
        = (n.acquired - n.released) % capacity.toNat := by
  have h := (Counted.new capacity).run hsteps
  exact ⟨_, _, rfl, h.le, h.le_lap, h.head.index, h.tail.index, h.head.wrap_eq_iff h.tail, h.acquire_eq,
    h.release_eq, h.toNat_occupied, h.toNat_available, h.exact, h.isEmpty_iff, h.isFull_iff,
    h.toNat_distance⟩

/-- The largest ring, whose tail passes the end right after a restart on the last slot. -/
theorem Cursor.refines_counters_past_end :
    ∃ c n, Counters.run (.new ⟨4294967295, by decide⟩) ⟨0, 0⟩
        [.resetAt 4294967294, .acquire, .acquire, .release] = (c, n)
      ∧ n = ⟨4294967295, 4294967296⟩ ∧ c.head = ⟨0, true⟩ ∧ c.tail.index.toNat = 1
      ∧ c.occupied.toNat = 1 := by
  have hsteps : ∀ index : UInt32,
      .resetAt index ∈ [CursorStep.resetAt 4294967294, .acquire, .acquire, .release] →
        index < 4294967295 := by
    simp
  obtain ⟨c, n, hrun, _, _, _, htail, _, _, _, hoccupied, _⟩ :=
    Cursor.refines_counters ⟨4294967295, by decide⟩ hsteps
  have hfound : (c, n) = ((⟨⟨0, true⟩, ⟨1, true⟩, ⟨4294967295, by decide⟩⟩ : Cursor),
      (⟨4294967295, 4294967296⟩ : Counters)) := by
    rw [← hrun]
    decide
  injection hfound with hc hn
  subst hc
  subst hn
  exact ⟨_, _, hrun, rfl, rfl, htail, hoccupied⟩

end CommandRing
