import CommandRing.Text.Blank

/-!
# What trimming leaves

A text is trimmed of blanks and of nothing else, and it is trimmed of all of them. So what is left is found without
trimming: it is what stands between blanks, if it does not start or end with one itself.
-/

namespace CommandRing.Text

variable {cs core : List Char}

def AllBlank (cs : List Char) : Prop := ∀ c ∈ cs, isBlank c = true

instance (cs : List Char) : Decidable (AllBlank cs) := List.decidableBAll (isBlank · = true) cs

/-- Nothing but blanks stands behind `core`, and it does not end with one. -/
structure TrimmedEnd (cs core : List Char) : Prop where
  last : ∀ c ∈ core.getLast?, isBlank c = false
  rest : ∃ blanks, AllBlank blanks ∧ cs = core ++ blanks

/-- Nothing but blanks stands around `core`, and it does not start or end with one. -/
structure Trimmed (cs core : List Char) : Prop where
  first : ∀ c ∈ core.head?, isBlank c = false
  last : ∀ c ∈ core.getLast?, isBlank c = false
  rest : ∃ before behind, AllBlank before ∧ AllBlank behind ∧ cs = before ++ core ++ behind

/-- Where the first or the last character is known, it decides. -/
theorem isBlank_of_eq_some {c : Char} {o : Option Char} (ho : o = some c) (hc : isBlank c = false) :
    ∀ c ∈ o, isBlank c = false := by
  rintro _ hmem
  rw [ho, Option.mem_some] at hmem
  rwa [← hmem]

theorem allBlank_takeWhile (cs : List Char) : AllBlank (cs.takeWhile isBlank) :=
  fun _ hc => List.all_eq_true.mp List.all_takeWhile _ hc

theorem isBlank_head_dropWhile (cs : List Char) : ∀ c ∈ (cs.dropWhile isBlank).head?, isBlank c = false := by
  intro c hc
  have hhead := List.head?_dropWhile_not isBlank cs
  rw [Option.mem_def.mp hc] at hhead
  exact hhead

theorem dropWhile_blanks {before : List Char} (hbefore : AllBlank before)
    (hfirst : ∀ c ∈ core.head?, isBlank c = false) : (before ++ core).dropWhile isBlank = core := by
  rw [List.dropWhile_append_of_pos hbefore]
  cases core with
  | nil => rfl
  | cons c rest =>
      rw [List.dropWhile_cons, hfirst c rfl]
      rfl

/-- **Trimming the end** takes the blanks there, and all of them. -/
theorem trimEnd_eq_iff : trimEnd cs = core ↔ TrimmedEnd cs core := by
  constructor
  · rintro rfl
    refine ⟨?_, (cs.reverse.takeWhile isBlank).reverse, ?_, ?_⟩
    · unfold trimEnd
      rw [List.getLast?_reverse]
      exact isBlank_head_dropWhile _
    · intro c hc
      exact allBlank_takeWhile _ c (List.mem_reverse.mp hc)
    · unfold trimEnd
      rw [← List.reverse_append, List.takeWhile_append_dropWhile, List.reverse_reverse]
  · rintro ⟨hlast, blanks, hblanks, rfl⟩
    have hback : AllBlank blanks.reverse := fun c hc => hblanks c (List.mem_reverse.mp hc)
    unfold trimEnd
    rw [List.reverse_append, dropWhile_blanks hback, List.reverse_reverse]
    rwa [List.head?_reverse]

/-- **Trimming both ends** takes the blanks there, and all of them. -/
theorem trim_eq_iff : trim cs = core ↔ Trimmed cs core := by
  unfold trim
  constructor
  · intro h
    obtain ⟨hlast, behind, hbehind, hdrop⟩ := trimEnd_eq_iff.mp h
    refine ⟨?_, hlast, cs.takeWhile isBlank, behind, allBlank_takeWhile cs, hbehind, ?_⟩
    · intro c hc
      have hfirst := isBlank_head_dropWhile cs
      rw [hdrop] at hfirst
      exact hfirst c (by rw [List.head?_append, Option.mem_def.mp hc]; rfl)
    · rw [List.append_assoc, ← hdrop, List.takeWhile_append_dropWhile]
  · rintro ⟨hfirst, hlast, before, behind, hbefore, hbehind, rfl⟩
    cases core with
    -- there are only blanks, and the first trim takes them all
    | nil =>
        have hall : AllBlank (before ++ [] ++ behind) := by
          intro c hc
          rw [List.append_nil] at hc
          rcases List.mem_append.mp hc with hc | hc
          · exact hbefore c hc
          · exact hbehind c hc
        have hnone := dropWhile_blanks hall hfirst
        rw [List.append_nil (before ++ [] ++ behind)] at hnone
        rw [hnone]
        rfl
    | cons c rest =>
        have hfront : ∀ c' ∈ (c :: (rest ++ behind)).head?, isBlank c' = false := hfirst
        rw [List.append_assoc, List.cons_append, dropWhile_blanks hbefore hfront]
        exact trimEnd_eq_iff.mpr ⟨hlast, behind, hbehind, rfl⟩

end CommandRing.Text
