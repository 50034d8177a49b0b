import CommandRing.Device.Site
import CommandRing.Proofs.Text.Numeral
import CommandRing.Proofs.Text.Trimming
import CommandRing.Proofs.Text.Utf8

/-!
# Which texts are sizes

A size is a numeral between blanks, decimal or hexadecimal behind a prefix. The prefix alone decides which of the
two is read, and a text cannot be both, since the second character of the prefix is no decimal digit. So the text
determines the size, and a size that is too large is refused and never wraps.
-/

namespace CommandRing.Device

open Text Numeral

variable {n : Nat} {c : Char} {text : String} {cs core : List Char} {file : Option Bytes}

/-- A size as it is written between blanks. -/
inductive SizeNumeral : List Char → Nat → Prop
  | decimal {cs : List Char} {n : Nat} : Signed 10 cs n → SizeNumeral cs n
  | hexadecimal {x : Char} {cs : List Char} {n : Nat} :
      x = 'x' ∨ x = 'X' → Signed 16 cs n → SizeNumeral ('0' :: x :: cs) n

/-- What looks like a size, and is none. -/
inductive Malformed : List Char → Prop
  | empty : Malformed []
  | barePrefix {x : Char} : x = 'x' ∨ x = 'X' → Malformed ['0', x]
  | twoPrefixes {x y : Char} {cs : List Char} :
      x = 'x' ∨ x = 'X' → y = 'x' ∨ y = 'X' → Malformed ('0' :: x :: '0' :: y :: cs)
  | minus {cs : List Char} : '-' ∈ cs → Malformed cs
  | innerBlank {cs : List Char} {c : Char} : c ∈ cs → isBlank c = true → Malformed cs

/-! ## What a size is made of -/

theorem isBlank_of_code (hlow : 0x21 ≤ c.toNat) (hhigh : c.toNat ≤ 0x84) : isBlank c = false := by
  rw [isBlank, List.any_eq_false]
  simp only [blankRanges, List.mem_cons, List.not_mem_nil, or_false, Bool.and_eq_true, decide_eq_true_eq, not_and,
    Nat.not_le, forall_eq_or_imp, forall_eq]
  omega

theorem code_of_signed {base : Nat} (hbase : 1 < base) (hbase' : base ≤ 16) (h : Signed base cs n) :
    ∀ c ∈ cs, c.toNat = 0x2b ∨ 0x30 ≤ c.toNat ∧ c.toNat < base + 0x61 ∧ c.toNat ≠ 0x58 := by
  intro c hc
  rcases h.mem hbase hbase' c hc with rfl | ⟨d, hd⟩
  · exact Or.inl rfl
  · obtain ⟨_, hd⟩ := digitValue_codes.mp hd
    omega

/-- The second character of a prefix is a digit in neither base. -/
theorem not_signed_marked {base : Nat} {b x : Char} (hbase : 1 < base) (hbase' : base ≤ 16)
    (hx : x = 'x' ∨ x = 'X') : ¬ Signed base (b :: x :: cs) n := by
  intro h
  have hcode := code_of_signed hbase hbase' h x (by simp)
  have hlower : 'x'.toNat = 0x78 := rfl
  have hupper : 'X'.toNat = 0x58 := rfl
  rcases hx with rfl | rfl <;> omega

theorem SizeNumeral.code (h : SizeNumeral core n) :
    ∀ c ∈ core, c.toNat = 0x2b ∨ 0x30 ≤ c.toNat ∧ c.toNat ≤ 0x78 := by
  intro c hc
  cases h with
  | decimal h =>
      have hcode := code_of_signed (by decide) (by decide) h c hc
      omega
  | hexadecimal hx h =>
      rcases List.mem_cons.mp hc with rfl | hc
      · exact Or.inr (by decide)
      rcases List.mem_cons.mp hc with rfl | hc
      · rcases hx with rfl | rfl <;> exact Or.inr (by decide)
      · have hcode := code_of_signed (by decide) (by decide) h c hc
        omega

theorem SizeNumeral.isBlank (h : SizeNumeral core n) : ∀ c ∈ core, isBlank c = false := by
  intro c hc
  have hcode := h.code c hc
  exact isBlank_of_code (by omega) (by omega)

/-- No size starts or ends with a blank, so it is what trimming leaves. -/
theorem SizeNumeral.trimmed {before behind : List Char} (h : SizeNumeral core n) (hbefore : AllBlank before)
    (hbehind : AllBlank behind) : Trimmed (before ++ core ++ behind) core where
  first c hc := h.isBlank c (List.mem_of_head? hc)
  last c hc := h.isBlank c (List.mem_of_getLast? hc)
  rest := ⟨before, behind, hbefore, hbehind, rfl⟩

theorem Malformed.not_size (h : Malformed core) : ¬ SizeNumeral core n := by
  intro hsize
  cases h with
  | empty =>
      obtain h | _ := hsize
      exact h.ne_nil rfl
  | barePrefix hx =>
      cases hsize with
      | decimal h => exact not_signed_marked (by decide) (by decide) hx h
      | hexadecimal _ h => exact h.ne_nil rfl
  | twoPrefixes hx hy =>
      cases hsize with
      | decimal h => exact not_signed_marked (by decide) (by decide) hx h
      | hexadecimal _ h => exact not_signed_marked (by decide) (by decide) hy h
  | minus hc =>
      have hcode := hsize.code '-' hc
      have hminus : '-'.toNat = 0x2d := rfl
      omega
  | innerBlank hc hblank =>
      rw [hsize.isBlank _ hc] at hblank
      exact absurd hblank (by simp)

/-! ## Reading a size -/

/-- **The prefix decides the base.** -/
theorem parseSize_cases (text : String) : ∃ base digits, 1 < base ∧ base ≤ 16
    ∧ parseSize text = parse base sizeLimit digits
    ∧ ∀ n, SizeNumeral (trim text.toList) n ↔ Signed base digits n := by
  have hhex : ∀ {x digits n}, x = 'x' ∨ x = 'X' →
      (SizeNumeral ('0' :: x :: digits) n ↔ Signed 16 digits n) := by
    intro x digits n hx
    constructor
    · intro h
      cases h with
      | decimal h => exact absurd h (not_signed_marked (by decide) (by decide) hx)
      | hexadecimal _ h => exact h
    · exact .hexadecimal hx
  unfold parseSize
  split
  · rename_i digits htrim
    rw [htrim]
    exact ⟨16, digits, by decide, by decide, rfl, fun n => hhex (Or.inl rfl)⟩
  · rename_i digits htrim
    rw [htrim]
    exact ⟨16, digits, by decide, by decide, rfl, fun n => hhex (Or.inr rfl)⟩
  · rename_i hlower hupper
    refine ⟨10, _, by decide, by decide, rfl, fun n => ?_⟩
    constructor
    · intro h
      generalize htrim : trim text.toList = core at h
      cases h with
      | decimal h => exact h
      | hexadecimal hx _ =>
          rcases hx with rfl | rfl
          · exact absurd htrim (hlower _)
          · exact absurd htrim (hupper _)
    · exact .decimal

theorem parseSize_eq_ok :
    parseSize text = .ok n ↔ SizeNumeral (trim text.toList) n ∧ n < sizeLimit := by
  obtain ⟨base, digits, hbase, hbase', hparse, hsigned⟩ := parseSize_cases text
  rw [hparse, parse_eq_ok hbase hbase' (by decide), hsigned]

theorem parseSize_tooLarge (h : SizeNumeral (trim text.toList) n) (hn : sizeLimit ≤ n) :
    parseSize text = .error .numeralTooLarge := by
  obtain ⟨base, digits, hbase, hbase', hparse, hsigned⟩ := parseSize_cases text
  rw [hparse]
  exact parse_tooLarge hbase hbase' (by decide) ((hsigned n).mp h) hn

theorem mapSize_text (text : String) : mapSize (some (utf8 text)) = (parseSize text).mapError Error.io := by
  unfold mapSize
  rw [readText_eq_ok.mpr rfl]

theorem mapSize_text_eq_ok :
    mapSize (some (utf8 text)) = .ok n ↔ SizeNumeral (trim text.toList) n ∧ n < sizeLimit := by
  rw [mapSize_text, ← parseSize_eq_ok]
  rcases parseSize text with fault | m <;> simp [Except.mapError]

/-- **A file holds a size exactly if its text is a numeral below the limit, between blanks.** -/
theorem mapSize_eq_ok : mapSize file = .ok n ↔
    ∃ text, file = some (utf8 text) ∧ SizeNumeral (trim text.toList) n ∧ n < sizeLimit := by
  constructor
  · intro h
    rcases hread : readText file with e | text
    · rw [mapSize, hread] at h
      exact absurd h (by simp)
    · obtain rfl := readText_eq_ok.mp hread
      exact ⟨text, rfl, mapSize_text_eq_ok.mp h⟩
  · rintro ⟨text, rfl, hsize⟩
    exact mapSize_text_eq_ok.mpr hsize

theorem mapSize_error {e : Error} (h : mapSize file = .error e) : ∃ fault, e = .io fault := by
  unfold mapSize at h
  split at h
  · rename_i hread
    injection h with h
    subst h
    exact readText_error hread
  · rename_i text _
    rcases hparse : parseSize text with fault | n
    · rw [hparse] at h
      injection h with h
      exact ⟨fault, h.symm⟩
    · rw [hparse] at h
      exact absurd h (by simp [Except.mapError])

/--
**Every size of 64 bits is read exactly, and nothing wraps.** A numeral between blanks is read as the number it
spells, in decimal or behind a prefix in hexadecimal, in any letter case and with any number of leading zeros, and
is refused if the number is too large. Nothing else is accepted: the text of every size is such a numeral, with at
most a plus sign in front of its digits. Every refusal is an error of input and output.
-/
theorem sized_exactly :
    (∀ before core behind n, AllBlank before → AllBlank behind → SizeNumeral core n →
        mapSize (some (utf8 (String.ofList (before ++ core ++ behind))))
          = if n < UInt64.size then .ok n else .error (.io .numeralTooLarge))
      ∧ (∀ file n, mapSize file = .ok n → n < UInt64.size
          ∧ ∃ text core, file = some (utf8 text) ∧ Trimmed text.toList core ∧ SizeNumeral core n)
      ∧ (∀ text core, Trimmed text.toList core → Malformed core →
          ∃ fault, mapSize (some (utf8 text)) = .error (.io fault))
      ∧ ∀ file e, mapSize file = .error e → ∃ fault, e = .io fault := by
  refine ⟨?_, ?_, ?_, fun file e => mapSize_error⟩
  · intro before core behind n hbefore hbehind hsize
    have htrim := trim_eq_iff.mpr (hsize.trimmed hbefore hbehind)
    rw [← String.toList_ofList (l := before ++ core ++ behind)] at htrim
    rw [← htrim] at hsize
    split
    · rename_i hn
      exact mapSize_eq_ok.mpr ⟨_, rfl, hsize, hn⟩
    · rename_i hn
      rw [mapSize_text, parseSize_tooLarge hsize (Nat.le_of_not_lt hn)]
      rfl
  · intro file n h
    obtain ⟨text, hfile, hsize, hn⟩ := mapSize_eq_ok.mp h
    exact ⟨hn, text, _, hfile, trim_eq_iff.mp rfl, hsize⟩
  · intro text core hcore hbad
    obtain rfl := trim_eq_iff.mpr hcore
    rcases hsize : mapSize (some (utf8 text)) with e | n
    · obtain ⟨fault, rfl⟩ := mapSize_error hsize
      exact ⟨fault, rfl⟩
    · exact absurd (mapSize_text_eq_ok.mp hsize).1 hbad.not_size

/-- The greatest size is read with zeros and blanks around it and in either case; the next number is refused, and so
is a number with two prefixes. -/
theorem sized_greatest :
    mapSize (some (utf8 (String.ofList ("\t ".toList ++ "0X00fFfFfFfFfFfFfFfF".toList ++ "\n".toList))))
        = .ok (UInt64.size - 1)
      ∧ mapSize (some (utf8 (String.ofList ("".toList ++ "018446744073709551616".toList ++ "\n".toList))))
        = .error (.io .numeralTooLarge)
      ∧ ∃ fault, mapSize (some (utf8 "0x0x10\n")) = .error (.io fault) := by
  obtain ⟨hread, _, hbad, _⟩ := sized_exactly
  refine ⟨?_, ?_, ?_⟩
  · have hsize : SizeNumeral "0X00fFfFfFfFfFfFfFfF".toList (UInt64.size - 1) :=
      .hexadecimal (Or.inr rfl) (Or.inl ⟨2, by decide +kernel⟩)
    exact hread _ _ _ _ (by decide) (by decide) hsize
  · have hsize : SizeNumeral "018446744073709551616".toList UInt64.size :=
      .decimal (Or.inl ⟨1, by decide +kernel⟩)
    exact hread _ _ _ _ (by decide) (by decide) hsize
  · have htrimmed : Trimmed "0x0x10\n".toList "0x0x10".toList :=
      ⟨isBlank_of_eq_some (c := '0') (by decide) rfl, isBlank_of_eq_some (c := '0') (by decide) rfl,
        [], ['\n'], by decide, by decide, by decide⟩
    exact hbad _ _ htrimmed (.twoPrefixes (Or.inl rfl) (Or.inl rfl))

end CommandRing.Device
