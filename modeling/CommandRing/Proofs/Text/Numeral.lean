import CommandRing.Text.Numeral
import Mathlib.Data.List.Induction

/-!
# What a numeral says

The digits of a number are written from the right, by division, and read from the left, by multiplication, and the
two meet at the last digit: it is the remainder, and what stands in front of it denotes the quotient. Leading zeros
and the case of letters change nothing.

The value only grows while digits are read. So a numeral is refused for its size as soon as the value reaches the
limit, and no value beyond it is ever computed with.
-/

namespace CommandRing.Numeral

variable {base limit value n : Nat} {c : Char} {cs : List Char}

/-- The digits of `n` in any letter case, with any number of zeros in front. -/
def Denotes (base : Nat) (cs : List Char) (n : Nat) : Prop :=
  ∃ zeros, cs.map Char.toLower = List.replicate zeros '0' ++ Nat.toDigits base n

/-- Digits, possibly with a plus sign directly in front of them. -/
def Signed (base : Nat) (cs : List Char) (n : Nat) : Prop :=
  Denotes base cs n ∨ ∃ digits, cs = '+' :: digits ∧ Denotes base digits n

/-! ## Digits -/

/-- The figures, the small letters and the capitals are three runs of codes. -/
theorem digitValue_codes {d : Nat} : digitValue base c = some d ↔ d < base ∧
    (0x30 ≤ c.toNat ∧ c.toNat ≤ 0x39 ∧ c.toNat = d + 0x30 ∨ 0x61 ≤ c.toNat ∧ c.toNat ≤ 0x7a ∧ c.toNat + 10 = d + 0x61
      ∨ 0x41 ≤ c.toNat ∧ c.toNat ≤ 0x5a ∧ c.toNat + 10 = d + 0x41) := by
  have hten : '0' ≤ c ∧ c ≤ '9' ↔ 0x30 ≤ c.toNat ∧ c.toNat ≤ 0x39 := Iff.rfl
  have hlow : 'a' ≤ c ∧ c ≤ 'z' ↔ 0x61 ≤ c.toNat ∧ c.toNat ≤ 0x7a := Iff.rfl
  have hhigh : 'A' ≤ c ∧ c ≤ 'Z' ↔ 0x41 ≤ c.toNat ∧ c.toNat ≤ 0x5a := Iff.rfl
  have h0 : '0'.toNat = 0x30 := rfl
  have ha : 'a'.toNat = 0x61 := rfl
  have hA : 'A'.toNat = 0x41 := rfl
  unfold digitValue
  simp only [hten, hlow, hhigh, h0, ha, hA]
  split_ifs <;> simp only [Option.some.injEq, false_iff] <;> omega

/-- The sixteen digits and their capitals are found among the first characters. -/
theorem digitValue_ofNat : ∀ k < 128, ∀ d < 16,
    digitValue 16 (Char.ofNat k) = some d ↔ (Char.ofNat k).toLower = Nat.digitChar d := by
  decide +kernel

theorem toNat_digitChar_lt : ∀ d < 16, (Nat.digitChar d).toNat < 128 := by decide

theorem digitValue_eq_some (hbase : base ≤ 16) {d : Nat} :
    digitValue base c = some d ↔ d < base ∧ c.toLower = Nat.digitChar d := by
  have hsixteen : digitValue base c = some d ↔ d < base ∧ digitValue 16 c = some d := by
    rw [digitValue_codes, digitValue_codes]
    omega
  rw [hsixteen]
  refine and_congr_right fun hd => ?_
  have hd : d < 16 := Nat.lt_of_lt_of_le hd hbase
  by_cases hc : c.toNat < 128
  · rw [← Char.ofNat_toNat c]
    exact digitValue_ofNat c.toNat hc d hd
  · have hlower : c.toLower = c := by
      refine dif_neg ?_
      rintro ⟨_, hz⟩
      have hz : c.toNat ≤ 0x5a := hz
      omega
    constructor
    · rw [digitValue_codes]
      omega
    · intro h
      rw [hlower] at h
      rw [h] at hc
      exact absurd (toNat_digitChar_lt d hd) hc

/-! ## Reading from the left -/

/-- Reading the digits from the left leads from one value to another. -/
inductive Reads (base : Nat) : Nat → List Char → Nat → Prop
  | nil (value : Nat) : Reads base value [] value
  | cons {value d n : Nat} {c : Char} {cs : List Char} :
      digitValue base c = some d → Reads base (value * base + d) cs n → Reads base value (c :: cs) n

theorem Reads.le (hbase : 0 < base) (h : Reads base value cs n) : value ≤ n := by
  induction h with
  | nil => exact Nat.le_refl _
  | cons _ _ ih => exact Nat.le_trans (Nat.le_add_right_of_le (Nat.le_mul_of_pos_right _ hbase)) ih

theorem readDigits_eq_ok (hbase : 0 < base) (hvalue : value < limit) :
    readDigits base limit value cs = .ok n ↔ Reads base value cs n ∧ n < limit := by
  induction cs generalizing value with
  | nil =>
      rw [readDigits, Except.ok.injEq]
      constructor
      · rintro rfl
        exact ⟨.nil _, hvalue⟩
      · rintro ⟨hreads, _⟩
        cases hreads
        rfl
  | cons c cs ih =>
      rw [readDigits]
      constructor
      · intro h
        split at h
        · exact absurd h (by simp)
        · rename_i d hd
          dsimp only at h
          split at h
          · rename_i hlonger
            obtain ⟨hreads, hn⟩ := (ih hlonger).mp h
            exact ⟨.cons hd hreads, hn⟩
          · exact absurd h (by simp)
      · rintro ⟨hreads, hn⟩
        obtain _ | ⟨hd, hreads⟩ := hreads
        have hlonger := Nat.lt_of_le_of_lt (hreads.le hbase) hn
        rw [hd]
        dsimp only
        rw [if_pos hlonger]
        exact (ih hlonger).mpr ⟨hreads, hn⟩

/-- A numeral whose value reaches the limit is refused for it. -/
theorem readDigits_tooLarge (hvalue : value < limit) (h : Reads base value cs n) (hn : limit ≤ n) :
    readDigits base limit value cs = .error .numeralTooLarge := by
  induction h with
  | nil => exact absurd hvalue (Nat.not_lt_of_le hn)
  | cons hd hrest ih =>
    rw [readDigits, hd]
    dsimp only
    split
    · rename_i hlonger
      exact ih hlonger hn
    · rfl

theorem reads_snoc : Reads base value (cs ++ [c]) n ↔
    ∃ m d, Reads base value cs m ∧ digitValue base c = some d ∧ m * base + d = n := by
  constructor
  · intro h
    induction cs generalizing value with
    | nil =>
        obtain _ | ⟨hd, hrest⟩ := h
        cases hrest
        exact ⟨value, _, .nil _, hd, rfl⟩
    | cons b cs ih =>
        obtain _ | ⟨hb, hrest⟩ := h
        obtain ⟨m, d, hm, hd, hn⟩ := ih hrest
        exact ⟨m, d, .cons hb hm, hd, hn⟩
  · rintro ⟨m, d, hm, hd, rfl⟩
    induction hm with
    | nil => exact .cons hd (.nil _)
    | cons hb _ ih => exact .cons hb ih

/-! ## Written from the right -/

/-- **The last digit is the remainder**, and the digits in front of it denote the quotient, if there are any. -/
theorem denotes_snoc (hbase : 1 < base) : Denotes base (cs ++ [c]) n ↔
    c.toLower = Nat.digitChar (n % base) ∧ (cs = [] ∧ n < base ∨ Denotes base cs (n / base)) := by
  unfold Denotes
  rw [List.map_append, List.map_singleton]
  rcases Nat.lt_or_ge n base with hlt | hge
  · rw [Nat.toDigits_of_lt_base hlt, Nat.mod_eq_of_lt hlt, Nat.div_eq_of_lt hlt, Nat.toDigits_zero]
    constructor
    · rintro ⟨zeros, h⟩
      obtain ⟨hfront, hlast⟩ := List.append_inj' h rfl
      injection hlast with hlast
      refine ⟨hlast, ?_⟩
      cases zeros with
      | zero => exact Or.inl ⟨List.map_eq_nil_iff.mp hfront, hlt⟩
      | succ zeros => exact Or.inr ⟨zeros, by rw [hfront, List.replicate_succ']⟩
    · rintro ⟨hlast, ⟨rfl, _⟩ | ⟨zeros, hfront⟩⟩
      · exact ⟨0, by rw [hlast]; rfl⟩
      · exact ⟨zeros + 1, by rw [hlast, hfront, List.replicate_succ']⟩
  · rw [Nat.toDigits_of_base_le hbase hge]
    constructor
    · rintro ⟨zeros, h⟩
      rw [← List.append_assoc] at h
      obtain ⟨hfront, hlast⟩ := List.append_inj' h rfl
      injection hlast with hlast
      exact ⟨hlast, Or.inr ⟨zeros, hfront⟩⟩
    · rintro ⟨hlast, ⟨_, hlt⟩ | ⟨zeros, hfront⟩⟩
      · exact absurd hlt (Nat.not_lt_of_le hge)
      · exact ⟨zeros, by rw [hlast, hfront, List.append_assoc]⟩

theorem not_denotes_nil : ¬ Denotes base [] n := by
  rintro ⟨zeros, h⟩
  exact Nat.toDigits_ne_nil (List.append_eq_nil_iff.mp h.symm).2

/-- **Digits are read from the left as they are written from the right.** -/
theorem reads_iff_denotes (hbase : 1 < base) (hbase' : base ≤ 16) (hcs : cs ≠ []) :
    Reads base 0 cs n ↔ Denotes base cs n := by
  have hpos : 0 < base := Nat.lt_of_succ_lt hbase
  induction cs using List.reverseRecOn generalizing n with
  | nil => exact absurd rfl hcs
  | append_singleton cs c ih =>
      rw [reads_snoc, denotes_snoc hbase]
      constructor
      · rintro ⟨m, d, hm, hd, rfl⟩
        obtain ⟨hlt, hlast⟩ := (digitValue_eq_some hbase').mp hd
        rw [Nat.mul_comm m base, Nat.mul_add_mod, Nat.mod_eq_of_lt hlt, Nat.mul_add_div hpos, Nat.div_eq_of_lt hlt]
        refine ⟨hlast, ?_⟩
        by_cases hnil : cs = []
        · subst hnil
          cases hm
          exact Or.inl ⟨rfl, by omega⟩
        · exact Or.inr ((ih hnil).mp hm)
      · rintro ⟨hlast, hfront⟩
        refine ⟨n / base, n % base, ?_, (digitValue_eq_some hbase').mpr ⟨Nat.mod_lt n hpos, hlast⟩, ?_⟩
        · rcases hfront with ⟨rfl, hlt⟩ | hfront
          · rw [Nat.div_eq_of_lt hlt]
            exact .nil 0
          · refine (ih ?_).mpr hfront
            rintro rfl
            exact not_denotes_nil hfront
        · exact Nat.div_add_mod' n base

/-! ## Whole numerals -/

theorem Denotes.ne_nil (h : Denotes base cs n) : cs ≠ [] := by
  rintro rfl
  exact not_denotes_nil h

theorem Reads.isDigit (h : Reads base value cs n) : ∀ c ∈ cs, ∃ d, digitValue base c = some d := by
  induction h with
  | nil => intro c hc; exact absurd hc List.not_mem_nil
  | cons hd _ ih =>
      intro c hc
      rcases List.mem_cons.mp hc with rfl | hc
      · exact ⟨_, hd⟩
      · exact ih c hc

theorem not_denotes_plus (hbase : 1 < base) (hbase' : base ≤ 16) : ¬ Denotes base ('+' :: cs) n := by
  intro h
  obtain ⟨d, hd⟩ := ((reads_iff_denotes hbase hbase' (List.cons_ne_nil _ _)).mpr h).isDigit '+' List.mem_cons_self
  obtain ⟨_, hd⟩ := digitValue_codes.mp hd
  have hcode : '+'.toNat = 0x2b := rfl
  omega

/-- Either there are no digits at all, or what is read is the digits behind the sign. -/
theorem parse_cases (hbase : 1 < base) (hbase' : base ≤ 16) (limit : Nat) (cs : List Char) :
    (∃ fault, parse base limit cs = .error fault) ∧ (∀ n, ¬ Signed base cs n)
      ∨ ∃ digits, digits ≠ [] ∧ parse base limit cs = readDigits base limit 0 digits
        ∧ ∀ n, Signed base cs n ↔ Denotes base digits n := by
  unfold parse
  split
  · refine Or.inl ⟨⟨_, rfl⟩, ?_⟩
    rintro n (h | ⟨_, h, _⟩)
    · exact not_denotes_nil h
    · exact absurd h (by simp)
  · refine Or.inl ⟨⟨_, rfl⟩, ?_⟩
    rintro n (h | ⟨_, h, hdigits⟩)
    · exact not_denotes_plus hbase hbase' h
    · injection h with _ h
      subst h
      exact not_denotes_nil hdigits
  · rename_i digits hsome
    refine Or.inr ⟨digits, ?_, rfl, ?_⟩
    · rintro rfl
      exact hsome rfl
    · intro n
      constructor
      · rintro (h | ⟨_, h, hdigits⟩)
        · exact absurd h (not_denotes_plus hbase hbase')
        · injection h with _ h
          subst h
          exact hdigits
      · intro h
        exact Or.inr ⟨digits, rfl, h⟩
  · rename_i hsome _ hplus
    refine Or.inr ⟨cs, hsome, rfl, ?_⟩
    intro n
    constructor
    · rintro (h | ⟨digits, h, _⟩)
      · exact h
      · exact absurd h (hplus digits)
    · exact Or.inl

theorem Signed.ne_nil (h : Signed base cs n) : cs ≠ [] := by
  rcases h with h | ⟨digits, rfl, _⟩
  · exact h.ne_nil
  · exact List.cons_ne_nil _ _

theorem Signed.mem (hbase : 1 < base) (hbase' : base ≤ 16) (h : Signed base cs n) :
    ∀ c ∈ cs, c = '+' ∨ ∃ d, digitValue base c = some d := by
  have hdigit : ∀ {digits}, Denotes base digits n → ∀ c ∈ digits, ∃ d, digitValue base c = some d :=
    fun h => ((reads_iff_denotes hbase hbase' h.ne_nil).mpr h).isDigit
  rcases h with h | ⟨digits, rfl, h⟩
  · exact fun c hc => Or.inr (hdigit h c hc)
  · intro c hc
    rcases List.mem_cons.mp hc with rfl | hc
    · exact Or.inl rfl
    · exact Or.inr (hdigit h c hc)

theorem parse_eq_ok (hbase : 1 < base) (hbase' : base ≤ 16) (hlimit : 0 < limit) :
    parse base limit cs = .ok n ↔ Signed base cs n ∧ n < limit := by
  rcases parse_cases hbase hbase' limit cs with ⟨⟨fault, hparse⟩, hnone⟩ | ⟨digits, hdigits, hparse, hsigned⟩
  · rw [hparse]
    constructor
    · intro h
      exact absurd h (by simp)
    · intro h
      exact absurd h.1 (hnone n)
  · rw [hparse, readDigits_eq_ok (Nat.lt_of_succ_lt hbase) hlimit, reads_iff_denotes hbase hbase' hdigits, hsigned]

theorem parse_tooLarge (hbase : 1 < base) (hbase' : base ≤ 16) (hlimit : 0 < limit) (h : Signed base cs n)
    (hn : limit ≤ n) : parse base limit cs = .error .numeralTooLarge := by
  rcases parse_cases hbase hbase' limit cs with ⟨_, hnone⟩ | ⟨digits, hdigits, hparse, hsigned⟩
  · exact absurd h (hnone n)
  · rw [hparse]
    exact readDigits_tooLarge hlimit
      ((reads_iff_denotes hbase hbase' hdigits).mpr ((hsigned n).mp h)) hn

end CommandRing.Numeral
