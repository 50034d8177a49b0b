import CommandRing.Driver.Basic
import Mathlib.Data.List.Nodup
import Mathlib.Logic.Function.Iterate

/-!
# The cycle of command ids

The usable ids are `1, 2, …, 65535`, and `successor` goes around them. The search for a free id is a walk
along that cycle: what it finds is the first id that is not taken, and as long as fewer ids are taken
than the cycle holds, it finds one.
-/

namespace CommandRing

namespace CommandId

theorem toNat_successor {id : CommandId} (h : id ≠ 0) :
    id.successor.toNat = id.toNat % count + 1 := by
  have hlt := id.toNat_lt
  have hne : id.toNat ≠ 0 := fun he => h (UInt16.toNat_inj.mp he)
  have hadd : (id + 1).toNat = (id.toNat + 1) % 2 ^ 16 := by
    rw [UInt16.toNat_add]; rfl
  unfold successor count
  split
  -- past the last id, where the cycle steps over `0`
  · rename_i hz
    have := congrArg UInt16.toNat hz
    rw [hadd] at this
    have hid : id.toNat = 65535 := by
      simp only [UInt16.toNat_zero] at this
      omega
    rw [hid]
    rfl
  · rename_i hz
    have hid : id.toNat ≠ 65535 := by
      intro he
      refine hz (UInt16.toNat_inj.mp ?_)
      rw [hadd, he]
      rfl
    rw [hadd]
    omega

theorem iterate_successor_ne_zero {id : CommandId} (h : id ≠ 0) (k : Nat) :
    successor^[k] id ≠ 0 := by
  cases k with
  | zero => exact h
  | succ k => rw [Function.iterate_succ_apply']; exact successor_ne_zero _

theorem toNat_iterate_successor {id : CommandId} (h : id ≠ 0) (k : Nat) :
    (successor^[k] id).toNat = (id.toNat - 1 + k) % count + 1 := by
  have hlt := id.toNat_lt
  have hne : id.toNat ≠ 0 := fun he => h (UInt16.toNat_inj.mp he)
  induction k with
  | zero =>
      show id.toNat = (id.toNat - 1 + 0) % 65535 + 1
      omega
  | succ k ih =>
      rw [Function.iterate_succ_apply', toNat_successor (iterate_successor_ne_zero h k), ih]
      simp only [count]
      omega

/-- A walk that is no longer than the cycle meets no id twice. -/
theorem nodup_walk {id : CommandId} (h : id ≠ 0) {tries : Nat} (ht : tries ≤ count) :
    ((List.range tries).map fun k => successor^[k] id).Nodup := by
  refine List.Nodup.map_on ?_ List.nodup_range
  intro i hi j hj he
  have hi' := List.mem_range.mp hi
  have hj' := List.mem_range.mp hj
  -- as numbers, two steps of the walk differ by less than the cycle is long
  have hn := congrArg UInt16.toNat he
  rw [toNat_iterate_successor h, toNat_iterate_successor h] at hn
  simp only [count] at ht hn
  omega

/-! ## Places on the cycle -/

/-- The id `k` places after `id` on the cycle `1, 2, …, 65535, 1, …`. -/
def onward (id : CommandId) (k : Nat) : CommandId := UInt16.ofNat ((id.toNat - 1 + k) % 65535 + 1)

theorem toNat_onward (id : CommandId) (k : Nat) :
    (id.onward k).toNat = (id.toNat - 1 + k) % 65535 + 1 := by
  have hlt := Nat.mod_lt (id.toNat - 1 + k) (show 0 < 65535 by decide)
  unfold onward
  rw [UInt16.toNat_ofNat', Nat.mod_eq_of_lt (by omega)]

theorem onward_ne_zero (id : CommandId) (k : Nat) : id.onward k ≠ 0 := by
  intro h
  have hn := congrArg UInt16.toNat h
  rw [toNat_onward] at hn
  exact Nat.succ_ne_zero _ hn

theorem onward_onward (id : CommandId) (m n : Nat) : (id.onward m).onward n = id.onward (m + n) := by
  refine UInt16.toNat_inj.mp ?_
  rw [toNat_onward, toNat_onward, toNat_onward, Nat.add_sub_cancel, Nat.mod_add_mod, Nat.add_assoc]

/-- The search walks along these places. -/
theorem iterate_successor_eq {id : CommandId} (h : id ≠ 0) (k : Nat) :
    successor^[k] id = id.onward k := by
  refine UInt16.toNat_inj.mp ?_
  rw [toNat_iterate_successor h, toNat_onward]
  rfl

theorem onward_zero {id : CommandId} (h : id ≠ 0) : id.onward 0 = id :=
  (iterate_successor_eq h 0).symm

theorem successor_onward (id : CommandId) (k : Nat) : (id.onward k).successor = id.onward (k + 1) := by
  rw [← onward_onward]
  exact iterate_successor_eq (id.onward_ne_zero k) 1

/-- Places are the same up to whole laps. -/
theorem onward_eq_iff {id : CommandId} {m n : Nat} :
    id.onward m = id.onward n ↔ m % 65535 = n % 65535 := by
  rw [← UInt16.toNat_inj, toNat_onward, toNat_onward]
  omega

/-- Every id lies somewhere on the cycle. -/
theorem exists_onward (id : CommandId) {other : CommandId} (h : other ≠ 0) :
    ∃ k, k < 65535 ∧ other = id.onward k := by
  have hlt := other.toNat_lt
  have hlt' := id.toNat_lt
  have hne : other.toNat ≠ 0 := fun he => h (UInt16.toNat_inj.mp he)
  refine ⟨(other.toNat - 1 + 65535 - (id.toNat - 1)) % 65535, Nat.mod_lt _ (by decide), ?_⟩
  refine UInt16.toNat_inj.mp ?_
  rw [toNat_onward]
  omega

end CommandId

namespace Driver

open CommandId

/-- **The search finds the first id on its way that is not taken**, and goes on behind it. -/
theorem findId_eq_some {taken : List CommandId} {tries : Nat} {next id after : CommandId}
    (h : findId taken tries next = (some id, after)) :
    id ≠ 0 ∧ id ∉ taken ∧ after = id.successor
      ∧ ∃ k, k < tries ∧ id = successor^[k] next
        ∧ ∀ j, j < k → successor^[j] next = 0 ∨ successor^[j] next ∈ taken := by
  induction tries generalizing next with
  | zero => exact absurd (congrArg Prod.fst h) (by simp [findId])
  | succ tries ih =>
      rw [findId] at h
      split at h
      · rename_i hfree
        injection h with hid hafter
        injection hid with hid
        subst hid
        refine ⟨hfree.1, hfree.2, hafter.symm, 0, Nat.succ_pos _, rfl, ?_⟩
        intro j hj
        exact absurd hj (Nat.not_lt_zero j)
      · rename_i htaken
        obtain ⟨h0, hmem, hafter, k, hk, hid, hbefore⟩ := ih h
        refine ⟨h0, hmem, hafter, k + 1, Nat.succ_lt_succ hk, ?_, ?_⟩
        · rw [Function.iterate_succ_apply]; exact hid
        · intro j hj
          cases j with
          | zero =>
              by_cases hz : next = 0
              · exact Or.inl hz
              · exact Or.inr (Classical.not_not.mp fun hn => htaken ⟨hz, hn⟩)
          | succ j =>
              rw [Function.iterate_succ_apply]
              exact hbefore j (Nat.lt_of_succ_lt_succ hj)

theorem findId_eq_none {taken : List CommandId} {tries : Nat} {next after : CommandId}
    (h : findId taken tries next = (none, after)) :
    ∀ j, j < tries → successor^[j] next = 0 ∨ successor^[j] next ∈ taken := by
  induction tries generalizing next with
  | zero => intro j hj; exact absurd hj (Nat.not_lt_zero j)
  | succ tries ih =>
      rw [findId] at h
      split at h
      · exact absurd (congrArg Prod.fst h) (by simp)
      · rename_i htaken
        intro j hj
        cases j with
        | zero =>
            by_cases hz : next = 0
            · exact Or.inl hz
            · exact Or.inr (Classical.not_not.mp fun hn => htaken ⟨hz, hn⟩)
        | succ j =>
            rw [Function.iterate_succ_apply]
            exact ih h j (Nat.lt_of_succ_lt_succ hj)

/-- **The cycle holds more ids than can be taken.** -/
theorem findId_isSome {taken : List CommandId} {next : CommandId} (hnext : next ≠ 0)
    (h : taken.length < CommandId.count) : ∃ id, findId taken count next = (some id, id.successor) := by
  rcases hf : findId taken count next with ⟨_ | id, after⟩
  · exfalso
    -- a search that failed saw the whole cycle, and all of it was taken
    have hall := findId_eq_none hf
    have hsub : ((List.range count).map fun k => successor^[k] next) ⊆ taken := by
      intro x hx
      obtain ⟨j, hj, rfl⟩ := List.mem_map.mp hx
      exact (hall j (List.mem_range.mp hj)).resolve_left (iterate_successor_ne_zero hnext j)
    have hle := (nodup_walk hnext (Nat.le_refl count)).length_le_of_subset hsub
    rw [List.length_map, List.length_range] at hle
    omega
  · obtain ⟨_, _, hafter, _⟩ := findId_eq_some hf
    exact ⟨id, by rw [hafter]⟩

end Driver

end CommandRing
