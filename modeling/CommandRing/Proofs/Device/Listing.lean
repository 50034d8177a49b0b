import CommandRing.Proofs.Text.Utf8
import Mathlib.Data.List.Nodup

/-!
# Which devices are listed

A folder is passed over because of its name, because its text cannot be read, or because the text is no label, and
in no other case; and no folder keeps another one from being listed. The devices come in the order of their names,
byte by byte. A list in strictly increasing order is determined by its members, so the order in which the system
names the folders cannot be seen.
-/

namespace CommandRing

open Text

/-- The folder has the name of a device's folder, and its text is this label. -/
structure Folder.Recognised (f : Folder) (label : DeviceLabel) : Prop where
  start : Folder.nameStart <+: f.name.toList
  text : ∃ text, f.text = some (utf8 text) ∧ DeviceLabel.parse text = some label

theorem Folder.device?_eq_some {f : Folder} {d : Device} :
    f.device? = some d ↔ f.name = d.uio ∧ f.Recognised d.label := by
  unfold Folder.device?
  split
  · rename_i hstart
    have hstart := List.isPrefixOf_iff_prefix.mp hstart
    split
    · rename_i hread
      constructor
      · intro h
        exact absurd h (by simp)
      · rintro ⟨_, _, text, htext, _⟩
        rw [readText_eq_ok.mpr htext] at hread
        exact absurd hread (by simp)
    · rename_i text hread
      have htext := readText_eq_ok.mp hread
      rw [Option.map_eq_some_iff]
      constructor
      · rintro ⟨label, hlabel, rfl⟩
        exact ⟨rfl, hstart, text, htext, hlabel⟩
      · rintro ⟨hname, _, text', htext', hlabel⟩
        rw [readText_eq_ok.mpr htext'] at hread
        injection hread with hsame
        subst hsame
        exact ⟨d.label, hlabel, by rw [hname]⟩
  · rename_i hstart
    constructor
    · intro h
      exact absurd h (by simp)
    · rintro ⟨_, hnamed, _⟩
      exact absurd (List.isPrefixOf_iff_prefix.mpr hnamed) hstart

theorem Folder.Recognised.unique {f : Folder} {label label' : DeviceLabel} (h : f.Recognised label)
    (h' : f.Recognised label') : label = label' := by
  have hsame : some (⟨f.name, label⟩ : Device) = some ⟨f.name, label'⟩ :=
    (device?_eq_some.mpr ⟨rfl, h⟩).symm.trans (device?_eq_some.mpr ⟨rfl, h'⟩)
  injection hsame with hsame
  injection hsame

namespace Device

variable {folders folders' : List Folder} {devices devices' : List Device}

/-- Every recognised folder is listed once and with its own label, nothing else is listed, and the names increase. -/
structure Lists (folders : List Folder) (devices : List Device) : Prop where
  complete : ∀ f ∈ folders, ∀ label, f.Recognised label → ∀ d, d ∈ devices ∧ d.uio = f.name ↔ d = ⟨f.name, label⟩
  sound : ∀ d ∈ devices, ∃! f, f ∈ folders ∧ f.name = d.uio ∧ f.Recognised d.label
  increasing : devices.Pairwise fun a b => utf8 a.uio < utf8 b.uio

namespace Lists

theorem mem_iff (h : Lists folders devices) {d : Device} :
    d ∈ devices ↔ ∃ f ∈ folders, f.name = d.uio ∧ f.Recognised d.label := by
  constructor
  · intro hd
    obtain ⟨f, ⟨hf, hshown⟩, _⟩ := h.sound d hd
    exact ⟨f, hf, hshown⟩
  · rintro ⟨f, hf, hname, hlabel⟩
    have hsame : d = ⟨f.name, d.label⟩ := by rw [hname]
    exact ((h.complete f hf d.label hlabel d).mpr hsame).1

theorem nodup (h : Lists folders devices) : devices.Nodup := by
  refine h.increasing.imp ?_
  rintro a _ hlt rfl
  exact List.lt_irrefl _ hlt

/-- **A listing is determined by its folders**, whatever order they come in. -/
theorem unique (h : Lists folders devices) (h' : Lists folders' devices') (hperm : folders.Perm folders') :
    devices = devices' := by
  have hmem : ∀ d, d ∈ devices ↔ d ∈ devices' := by
    intro d
    rw [h.mem_iff, h'.mem_iff]
    simp only [hperm.mem_iff]
  refine List.Perm.eq_of_pairwise ?_ h.increasing h'.increasing
    ((List.perm_ext_iff_of_nodup h.nodup h'.nodup).mpr hmem)
  intro a b _ _ hab hba
  exact absurd hba (List.lt_asymm hab)

end Lists

theorem mem_list {d : Device} : d ∈ list folders ↔ ∃ f ∈ folders, f.name = d.uio ∧ f.Recognised d.label := by
  unfold list
  rw [List.mem_mergeSort, List.mem_filterMap]
  simp only [Folder.device?_eq_some]

theorem list_increasing (h : (folders.map Folder.name).Nodup) :
    (list folders).Pairwise fun a b => utf8 a.uio < utf8 b.uio := by
  have hdistinct : (list folders).Pairwise fun a b => a.uio ≠ b.uio := by
    refine (List.Perm.pairwise_iff (fun hne => Ne.symm hne) (List.mergeSort_perm _ _)).mpr ?_
    refine List.Pairwise.filterMap _ ?_ (List.pairwise_map.mp h)
    intro f f' hne d hd d' hd'
    rw [← (Folder.device?_eq_some.mp hd).1, ← (Folder.device?_eq_some.mp hd').1]
    exact hne
  have hsorted : (list folders).Pairwise fun a b => decide (a.uio ≤ b.uio) = true := by
    refine List.pairwise_mergeSort ?_ ?_ _
    · intro a b c hab hbc
      exact decide_eq_true (String.le_trans (of_decide_eq_true hab) (of_decide_eq_true hbc))
    · intro a b
      rw [Bool.or_eq_true, decide_eq_true_eq, decide_eq_true_eq]
      exact String.le_total a.uio b.uio
  refine hsorted.imp₂ (fun a b hle hne => ?_) hdistinct
  rw [utf8_lt_iff, ← String.not_le]
  exact fun hge => hne (String.le_antisymm (of_decide_eq_true hle) hge)

theorem lists_list (h : (folders.map Folder.name).Nodup) : Lists folders (list folders) := by
  have hone : ∀ f ∈ folders, ∀ f' ∈ folders, f.name = f'.name → f = f' :=
    fun f hf f' hf' hname => List.inj_on_of_nodup_map h hf hf' hname
  refine ⟨?_, ?_, list_increasing h⟩
  · intro f hf label hlabel d
    constructor
    · rintro ⟨hd, hname⟩
      obtain ⟨f', hf', hname', hlabel'⟩ := mem_list.mp hd
      obtain rfl := hone f' hf' f hf (hname'.trans hname)
      rw [hlabel.unique hlabel', hname']
    · rintro rfl
      exact ⟨mem_list.mpr ⟨f, hf, rfl, hlabel⟩, rfl⟩
  · intro d hd
    obtain ⟨f, hf, hname, hlabel⟩ := mem_list.mp hd
    refine ⟨f, ⟨hf, hname, hlabel⟩, ?_⟩
    rintro f' ⟨hf', hname', _⟩
    exact hone f' hf' f hf (hname'.trans hname.symm)

/--
**A listing finds the devices of the family, in whatever order the folders come.** Of folders with distinct names,
exactly those are listed whose name starts right and whose text can be read and is a label, each of them once, with
the parts of its label, and in the order of the names byte by byte. Any other order of the same folders gives the
same list.
-/
theorem listed_exactly (folders : List Folder) (h : (folders.map Folder.name).Nodup) :
    ∃ devices, enumerate (some folders) = .ok devices ∧ Lists folders devices
      ∧ ∀ folders', folders'.Perm folders → enumerate (some folders') = .ok devices := by
  refine ⟨list folders, rfl, lists_list h, ?_⟩
  intro folders' hperm
  have h' : (folders'.map Folder.name).Nodup := (hperm.map Folder.name).nodup_iff.mpr h
  rw [(lists_list h).unique (lists_list h') hperm.symm]
  rfl

/-- Two folders of devices, and four that are passed over: a missing text, one that is no UTF-8, one that is no label,
and the folder of something else. -/
def mixedFolders : List Folder :=
  [⟨"uio2", some (utf8 "tcm-user/1/b/cfg\n")⟩, ⟨"uio3", none⟩, ⟨"uio1", some [0xff]⟩,
    ⟨"uio0", some (utf8 "uio_pci_generic\n")⟩, ⟨"net0", some (utf8 "tcm-user/1/c/cfg\n")⟩,
    ⟨"uio10", some (utf8 "tcm-user/1/a/cfg\n")⟩]

/-- Both devices are found, in either order of the folders. -/
theorem listed_mixedFolders : ∃ devices, enumerate (some mixedFolders) = .ok devices
    ∧ enumerate (some mixedFolders.reverse) = .ok devices
    ∧ ⟨"uio10", ⟨"1", "a", "cfg"⟩⟩ ∈ devices ∧ ⟨"uio2", ⟨"1", "b", "cfg"⟩⟩ ∈ devices
    ∧ ∀ d ∈ devices, d.uio ≠ "net0" := by
  obtain ⟨devices, henumerate, hlists, hperm⟩ := listed_exactly mixedFolders (by decide)
  refine ⟨devices, henumerate, hperm _ (List.reverse_perm _), ?_, ?_, ?_⟩
  · exact hlists.mem_iff.mpr ⟨⟨"uio10", some (utf8 "tcm-user/1/a/cfg\n")⟩, by simp [mixedFolders], rfl,
      by decide, _, rfl, by decide⟩
  · exact hlists.mem_iff.mpr ⟨⟨"uio2", some (utf8 "tcm-user/1/b/cfg\n")⟩, by simp [mixedFolders], rfl,
      by decide, _, rfl, by decide⟩
  · intro d hd hname
    obtain ⟨f, _, hsame, hlabel⟩ := hlists.mem_iff.mp hd
    have hstart := hlabel.start
    rw [hsame, hname] at hstart
    exact absurd hstart (by decide)

end Device

end CommandRing
