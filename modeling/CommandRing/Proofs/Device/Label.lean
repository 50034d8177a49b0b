import CommandRing.Device.Label
import CommandRing.Proofs.Text.Trimming

/-!
# Which texts are labels

A label is read by cutting its text at a slash three times, and what is behind the third one is the configuration,
whatever that is. Nothing is lost then, so a text is a label exactly if it is one written out, with blanks behind
it; and the label is unique, since neither adapter nor volume can hold a slash. A text is refused because of what
stands in front of its first slash, or because it has less than three of them.
-/

namespace CommandRing

namespace Text

variable {separator : Char} {cs before behind : List Char}

theorem cut_eq_none : cut separator cs = none ↔ separator ∉ cs := by
  constructor
  · intro h hmem
    obtain ⟨before, behind, rfl⟩ := List.append_of_mem hmem
    -- the first separator is in front of this one, or is this one
    induction before with
    | nil =>
        rw [List.nil_append, cut, if_pos rfl] at h
        exact absurd h (by simp)
    | cons c before ih =>
        rw [List.cons_append, cut] at h
        split at h
        · exact absurd h (by simp)
        · exact ih (Option.map_eq_none_iff.mp h) (List.mem_append_right _ List.mem_cons_self)
  · intro h
    rcases hcut : cut separator cs with _ | ⟨before, behind⟩
    · rfl
    · obtain ⟨rfl, _⟩ := cut_eq_some.mp hcut
      exact absurd (List.mem_append_right _ List.mem_cons_self) h

/-- A cut takes one separator away. -/
theorem count_of_cut (h : cut separator cs = some (before, behind)) :
    cs.count separator = behind.count separator + 1 := by
  obtain ⟨rfl, hbefore⟩ := cut_eq_some.mp h
  rw [List.count_append, List.count_eq_zero_of_not_mem hbefore, List.count_cons_self, Nat.zero_add]

theorem takeWhile_of_cut (h : cut separator cs = some (before, behind)) :
    cs.takeWhile (· ≠ separator) = before := by
  obtain ⟨rfl, hbefore⟩ := cut_eq_some.mp h
  have hall : ∀ c ∈ before, decide (c ≠ separator) = true := by
    intro c hc
    rw [decide_eq_true_iff]
    rintro rfl
    exact hbefore hc
  rw [List.takeWhile_append_of_pos hall, List.takeWhile_cons]
  simp

/-- There is a cut as long as there are separators. -/
theorem exists_cut {n : Nat} (h : n < cs.count separator) :
    ∃ before behind, cut separator cs = some (before, behind) ∧ n ≤ behind.count separator := by
  rcases hcut : cut separator cs with _ | ⟨before, behind⟩
  · rw [List.count_eq_zero_of_not_mem (cut_eq_none.mp hcut)] at h
    exact absurd h (Nat.not_lt_zero _)
  · rw [count_of_cut hcut] at h
    exact ⟨before, behind, rfl, Nat.le_of_lt_succ h⟩

end Text

namespace DeviceLabel

open Text

variable {text : String} {l : DeviceLabel}

theorem toList_render (l : DeviceLabel) : l.render.toList
    = family.toList ++ '/' :: (l.adapter.toList ++ '/' :: (l.volume.toList ++ '/' :: l.config.toList)) := by
  unfold render
  simp only [String.toList_append, List.append_assoc]
  rfl

theorem parse_eq (text : String) : parse text = (cut '/' (trimEnd text.toList)).bind fun first =>
    (if first.1 = family.toList then some () else none).bind fun _ =>
      (cut '/' first.2).bind fun second =>
        (cut '/' second.2).bind fun third =>
          some ⟨String.ofList second.1, String.ofList third.1, String.ofList third.2⟩ := rfl

theorem parse_cuts : parse text = some l ↔ ∃ rest rest',
    cut '/' (trimEnd text.toList) = some (family.toList, rest)
      ∧ cut '/' rest = some (l.adapter.toList, rest')
      ∧ cut '/' rest' = some (l.volume.toList, l.config.toList) := by
  simp only [parse_eq, Option.bind_eq_some_iff, Prod.exists]
  constructor
  · rintro ⟨first, rest, hfirst, _, hfamily, adapter, rest', hadapter, volume, config, hvolume, hl⟩
    split at hfamily
    · rename_i hsame
      injection hl with hl
      subst hsame hl
      exact ⟨rest, rest', hfirst, by rwa [String.toList_ofList],
        by rwa [String.toList_ofList, String.toList_ofList]⟩
    · exact absurd hfamily (by simp)
  · rintro ⟨rest, rest', hfirst, hadapter, hvolume⟩
    refine ⟨_, rest, hfirst, (), if_pos rfl, _, rest', hadapter, _, _, hvolume, ?_⟩
    rw [String.ofList_toList, String.ofList_toList, String.ofList_toList]

/-- **A text is a label exactly if it is one written out**, with blanks behind it. -/
theorem parse_eq_some :
    parse text = some l ↔ trimEnd text.toList = l.render.toList ∧ '/' ∉ l.adapter.toList ∧ '/' ∉ l.volume.toList := by
  rw [parse_cuts, toList_render]
  simp only [cut_eq_some]
  constructor
  · rintro ⟨_, _, ⟨hcore, _⟩, ⟨rfl, hadapter⟩, rfl, hvolume⟩
    exact ⟨hcore, hadapter, hvolume⟩
  · rintro ⟨hcore, hadapter, hvolume⟩
    exact ⟨_, _, ⟨hcore, by decide⟩, ⟨rfl, hadapter⟩, rfl, hvolume⟩

/-- **A text is refused** for what stands in front of its first slash, or for having too few of them. -/
theorem parse_eq_none : parse text = none ↔
    (trimEnd text.toList).takeWhile (· ≠ '/') ≠ family.toList ∨ (trimEnd text.toList).count '/' < 3 := by
  constructor
  · intro hnone
    by_cases hcount : (trimEnd text.toList).count '/' < 3
    · exact Or.inr hcount
    · obtain ⟨first, rest, hfirst, hcount⟩ := exists_cut (Nat.lt_of_succ_le (Nat.le_of_not_lt hcount))
      obtain ⟨adapter, rest', hadapter, hcount⟩ := exists_cut (Nat.lt_of_succ_le hcount)
      obtain ⟨volume, config, hvolume, _⟩ := exists_cut (Nat.lt_of_succ_le hcount)
      refine Or.inl fun hfamily => ?_
      rw [takeWhile_of_cut hfirst] at hfamily
      subst hfamily
      have hsome : parse text
          = some ⟨String.ofList adapter, String.ofList volume, String.ofList config⟩ := by
        refine parse_cuts.mpr ⟨rest, rest', hfirst, ?_, ?_⟩
        · rwa [String.toList_ofList]
        · rwa [String.toList_ofList, String.toList_ofList]
      rw [hnone] at hsome
      exact absurd hsome (by simp)
  · intro hbad
    rcases hparse : parse text with _ | l
    · rfl
    · obtain ⟨rest, rest', hfirst, hadapter, hvolume⟩ := parse_cuts.mp hparse
      rw [takeWhile_of_cut hfirst, count_of_cut hfirst, count_of_cut hadapter,
        count_of_cut hvolume] at hbad
      rcases hbad with hfamily | hcount
      · exact absurd rfl hfamily
      · omega

/-- A label ends with its configuration, or with a slash. -/
theorem last_render (h : ∀ c ∈ l.config.toList.getLast?, isBlank c = false) :
    ∀ c ∈ l.render.toList.getLast?, isBlank c = false := by
  have hlast : l.render.toList.getLast? = some (l.config.toList.getLast?.getD '/') := by
    rw [toList_render, ← List.cons_append, ← List.append_assoc, ← List.cons_append, ← List.append_assoc,
      List.getLast?_append, List.getLast?_cons]
    rfl
  intro c hc
  rw [hlast, Option.mem_some] at hc
  subst hc
  rcases hconfig : l.config.toList.getLast? with _ | c
  · rfl
  · exact h c hconfig

/--
**The texts of labels are exactly known.** What is left of a text without the blanks at its end is the family,
adapter, volume and configuration with slashes between them, if the text is read as these, and only then; there is
no slash in the adapter or in the volume. So a label that is written out, with any blanks behind it, is read back
as it was, whatever slashes its configuration holds and be it empty, as long as it does not end with a blank
itself. The texts that are refused are those with something else in front of the first slash, or with less than
three slashes.
-/
theorem recognised_exactly :
    (∀ text core, TrimmedEnd text.toList core →
        (∀ l, parse text = some l ↔ core = l.render.toList ∧ '/' ∉ l.adapter.toList ∧ '/' ∉ l.volume.toList)
          ∧ (parse text = none ↔ core.takeWhile (· ≠ '/') ≠ family.toList ∨ core.count '/' < 3))
      ∧ ∀ l blanks, '/' ∉ l.adapter.toList → '/' ∉ l.volume.toList →
        (∀ c ∈ l.config.toList.getLast?, isBlank c = false) → AllBlank blanks →
          parse (l.render ++ String.ofList blanks) = some l := by
  refine ⟨?_, ?_⟩
  · intro text core hcore
    obtain rfl := trimEnd_eq_iff.mpr hcore
    exact ⟨fun l => parse_eq_some, parse_eq_none⟩
  · intro l blanks hadapter hvolume hconfig hblanks
    refine parse_eq_some.mpr ⟨trimEnd_eq_iff.mpr ⟨last_render hconfig, blanks, hblanks, ?_⟩, hadapter, hvolume⟩
    rw [String.toList_append, String.toList_ofList]

/-- A volume without a name, and a configuration with a slash at its end. -/
def oddLabel : DeviceLabel := ⟨"42", "", "go-tcmu//vol1/"⟩

/-- It is read back with a line break and a wide blank behind it, and with two slashes only it is refused. -/
theorem recognised_oddLabel :
    parse "tcm-user/42//go-tcmu//vol1/\n\u3000" = some oddLabel
      ∧ parse "tcm-user/42/vol1\n" = none := by
  obtain ⟨hread, hwritten⟩ := recognised_exactly
  have hshort : TrimmedEnd "tcm-user/42/vol1\n".toList "tcm-user/42/vol1".toList :=
    ⟨isBlank_of_eq_some (c := '1') (by decide) rfl, ['\n'], by decide, by decide⟩
  have hconfig : ∀ c ∈ oddLabel.config.toList.getLast?, isBlank c = false :=
    isBlank_of_eq_some (c := '/') (by decide) rfl
  exact ⟨hwritten oddLabel ['\n', '\u3000'] (by decide) (by decide) hconfig (by decide),
    (hread _ _ hshort).2.mpr (Or.inr (by decide))⟩

end DeviceLabel

end CommandRing
