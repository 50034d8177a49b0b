/-!
# Blanks

The blanks are the twenty-five characters that the Unicode property `White_Space` names, six of them
ASCII. Text is trimmed of blanks at its end, or at both ends, as a list of characters.
-/

namespace CommandRing.Text

/-- The characters of the property, as ranges of code points. -/
def blankRanges : List (Nat × Nat) :=
  [(0x09, 0x0d), (0x20, 0x20), (0x85, 0x85), (0xa0, 0xa0), (0x1680, 0x1680), (0x2000, 0x200a),
    (0x2028, 0x2029), (0x202f, 0x202f), (0x205f, 0x205f), (0x3000, 0x3000)]

def isBlank (c : Char) : Bool :=
  blankRanges.any fun r => r.1 ≤ c.toNat && c.toNat ≤ r.2

example : (blankRanges.map fun r => r.2 + 1 - r.1).sum = 25 := rfl

/-- The text without the blanks at its end. -/
def trimEnd (cs : List Char) : List Char := (cs.reverse.dropWhile isBlank).reverse

/-- The text without the blanks at both ends. -/
def trim (cs : List Char) : List Char := trimEnd (cs.dropWhile isBlank)

/-- What stands before the first `separator`, and what stands behind it. -/
def cut (separator : Char) : List Char → Option (List Char × List Char)
  | [] => none
  | c :: rest =>
    if c = separator then
      some ([], rest)
    else
      (cut separator rest).map fun p => (c :: p.1, p.2)

/-- **A cut loses nothing but the separator, and finds the first one.** -/
theorem cut_eq_some {separator : Char} {cs before behind : List Char} :
    cut separator cs = some (before, behind) ↔
      cs = before ++ separator :: behind ∧ separator ∉ before := by
  induction cs generalizing before with
  | nil => simp [cut]
  | cons c rest ih =>
    by_cases hc : c = separator
    · subst hc
      cases before with
      | nil => simp [cut, eq_comm]
      | cons b before =>
        simp only [cut, if_pos, Option.some.injEq, Prod.mk.injEq, List.cons_append,
          List.cons.injEq, List.mem_cons, not_or]
        constructor
        · intro h
          exact absurd h.1 (by simp)
        · rintro ⟨⟨hb, -⟩, hne, -⟩
          exact absurd hb hne
    · cases before with
      | nil =>
        simp [cut, hc]
      | cons b before =>
        simp only [cut, if_neg hc, Option.map_eq_some_iff, Prod.exists, Prod.mk.injEq,
          List.cons.injEq, List.cons_append, List.mem_cons, not_or]
        constructor
        · rintro ⟨x, y, hxy, ⟨rfl, rfl⟩, rfl⟩
          obtain ⟨hrest, hmem⟩ := ih.mp hxy
          exact ⟨⟨rfl, hrest⟩, Ne.symm hc, hmem⟩
        · rintro ⟨⟨rfl, hrest⟩, -, hmem⟩
          exact ⟨before, behind, ih.mpr ⟨hrest, hmem⟩, ⟨rfl, rfl⟩, rfl⟩

end CommandRing.Text
