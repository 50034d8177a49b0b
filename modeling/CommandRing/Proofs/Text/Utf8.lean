import CommandRing.Device.Listing

/-!
# Text as bytes

A text is kept as its characters in UTF-8, one after the other, and a file that holds anything else is not read.

The system compares names byte by byte, while a string is compared by its characters. The two orders are the same:
a code point with more bytes starts with a greater one, and behind the first byte come the bits of the code point
in groups of six, the highest first.
-/

namespace CommandRing.Text

def utf8 (text : String) : Bytes := text.toList.flatMap String.utf8EncodeChar

/-! ## Files that can be read -/

theorem data_toByteArray (text : String) : text.toByteArray.data.toList = utf8 text := by
  rw [← String.utf8Encode_toList, List.utf8Encode]
  simp [utf8]

theorem toByteArray_eq (text : String) : text.toByteArray = ⟨(utf8 text).toArray⟩ := by
  rw [← data_toByteArray]

theorem fromUTF8?_eq_some {content : Bytes} {text : String} :
    String.fromUTF8? ⟨content.toArray⟩ = some text ↔ content = utf8 text := by
  constructor
  · intro h
    rw [String.fromUTF8?] at h
    split at h
    · injection h with h
      rw [← data_toByteArray, ← h]
      rfl
    · exact absurd h (by simp)
  · rintro rfl
    have hvalid := text.isValidUTF8
    rw [toByteArray_eq] at hvalid
    rw [String.fromUTF8?, dif_pos hvalid, Option.some.injEq, ← String.toByteArray_inj]
    exact (toByteArray_eq text).symm

/-- **A file is read as a text exactly if it holds the text in UTF-8.** -/
theorem readText_eq_ok {file : Option Bytes} {text : String} :
    readText file = .ok text ↔ file = some (utf8 text) := by
  rcases file with _ | content
  · simp [readText]
  · rw [Option.some.injEq, ← fromUTF8?_eq_some, readText]
    split
    · rename_i hnone
      simp [hnone]
    · rename_i read hread
      rw [hread, Except.ok.injEq, Option.some.injEq]

theorem readText_error {file : Option Bytes} {e : Error} (h : readText file = .error e) : ∃ fault, e = .io fault := by
  unfold readText at h
  split at h
  · injection h with h
    exact ⟨_, h.symm⟩
  · split at h
    · injection h with h
      exact ⟨_, h.symm⟩
    · exact absurd h (by simp)

/-! ## The order of names -/

/-- The `k` bytes behind the first one, with six bits of the code point in each. -/
def groups : Nat → Nat → Bytes
  | 0, _ => []
  | k + 1, n => groups k (n / 64) ++ [UInt8.ofNat (n % 64 + 0x80)]

/-- What stands above the `k` lowest groups. -/
def above : Nat → Nat → Nat
  | 0, n => n
  | k + 1, n => above k (n / 64)

/-- How many bytes of a code point come behind the first one. -/
def behindFirst (n : Nat) : Nat :=
  if n ≤ 0x7f then 0 else if n ≤ 0x7ff then 1 else if n ≤ 0xffff then 2 else 3

/-- The upper bits of the first byte tell how many bytes follow. -/
def mark : Nat → Nat
  | 0 => 0
  | 1 => 0xc0
  | 2 => 0xe0
  | _ => 0xf0

def firstByte (n : Nat) : Nat := above (behindFirst n) n + mark (behindFirst n)

theorem behindFirst_cases (n : Nat) : n ≤ 0x7f ∧ behindFirst n = 0 ∨ 0x7f < n ∧ n ≤ 0x7ff ∧ behindFirst n = 1
    ∨ 0x7ff < n ∧ n ≤ 0xffff ∧ behindFirst n = 2 ∨ 0xffff < n ∧ behindFirst n = 3 := by
  unfold behindFirst
  split
  · omega
  · split
    · omega
    · split <;> omega

theorem firstByte_lt_of_lt {m n : Nat} (h : m < n) (hn : n < 0x110000) : firstByte n < 256
    ∧ (firstByte m < firstByte n
      ∨ behindFirst m = behindFirst n ∧ above (behindFirst n) m = above (behindFirst n) n) := by
  unfold firstByte
  rcases behindFirst_cases m with ⟨_, hm⟩ | ⟨_, _, hm⟩ | ⟨_, _, hm⟩ | ⟨_, hm⟩ <;>
    rcases behindFirst_cases n with ⟨_, hn'⟩ | ⟨_, _, hn'⟩ | ⟨_, _, hn'⟩ | ⟨_, hn'⟩ <;>
      rw [hm, hn'] <;> simp only [mark, above, true_and] <;> omega

theorem toNat_lt (c : Char) : c.toNat < 0x110000 := by
  rcases c.valid with h | ⟨_, h⟩
  · exact Nat.lt_trans h (by omega)
  · exact h

theorem encodeChar_eq (c : Char) :
    String.utf8EncodeChar c = UInt8.ofNat (firstByte c.toNat) :: groups (behindFirst c.toNat) c.toNat := by
  have hc := toNat_lt c
  have hval : c.val.toNat = c.toNat := rfl
  unfold firstByte String.utf8EncodeChar
  rw [hval]
  generalize c.toNat = n at hc
  rcases behindFirst_cases n with ⟨_, hn⟩ | ⟨_, _, hn⟩ | ⟨_, _, hn⟩ | ⟨_, hn⟩
  · rw [hn, if_pos (by omega)]
    simp only [groups, mark, above, Nat.add_zero]
  · have hlead : n / 64 % 0x20 = n / 64 := Nat.mod_eq_of_lt (by omega)
    rw [hn, if_neg (by omega), if_pos (by omega), hlead]
    simp only [groups, mark, above, List.nil_append]
  · have hlead : n / 4096 % 0x10 = n / 64 / 64 := by omega
    rw [hn, if_neg (by omega), if_neg (by omega), if_pos (by omega), hlead]
    simp only [groups, mark, above, List.nil_append, List.cons_append]
  · have hlead : n / 262144 % 0x08 = n / 64 / 64 / 64 := by omega
    have hsecond : n / 4096 = n / 64 / 64 := by omega
    rw [hn, if_neg (by omega), if_neg (by omega), if_neg (by omega), hlead, hsecond]
    simp only [groups, mark, above, List.nil_append, List.cons_append]

theorem groups_lt {k m n : Nat} (h : m < n) (habove : above k m = above k n) (s t : Bytes) :
    groups k m ++ s < groups k n ++ t := by
  induction k generalizing m n s t with
  | zero =>
      exact absurd habove (Nat.ne_of_lt h)
  | succ k ih =>
      simp only [groups, List.append_assoc, List.singleton_append]
      rcases Nat.lt_or_ge (m / 64) (n / 64) with hlt | hge
      · exact ih hlt habove _ _
      · have hsame : m / 64 = n / 64 := by omega
        rw [hsame]
        refine List.append_left_lt (List.cons_lt_cons_iff.mpr (Or.inl ?_))
        rw [UInt8.lt_iff_toNat_lt, UInt8.toNat_ofNat', UInt8.toNat_ofNat']
        omega

theorem encodeChar_lt {c d : Char} (h : c < d) (s t : Bytes) :
    String.utf8EncodeChar c ++ s < String.utf8EncodeChar d ++ t := by
  have hlt : c.toNat < d.toNat := h
  obtain ⟨hbyte, hfirst⟩ := firstByte_lt_of_lt hlt (toNat_lt d)
  rw [encodeChar_eq, encodeChar_eq, List.cons_append, List.cons_append, List.cons_lt_cons_iff]
  rcases hfirst with hless | ⟨hcount, habove⟩
  · left
    rw [UInt8.lt_iff_toNat_lt, UInt8.toNat_ofNat', UInt8.toNat_ofNat']
    omega
  · right
    refine ⟨?_, ?_⟩
    · rw [firstByte, firstByte, hcount, habove]
    · rw [hcount]
      exact groups_lt hlt habove s t

theorem flatMap_lt {a b : List Char} (h : a < b) :
    a.flatMap String.utf8EncodeChar < b.flatMap String.utf8EncodeChar := by
  induction a generalizing b with
  | nil =>
      cases b with
      | nil => exact absurd h (List.lt_irrefl _)
      | cons d b =>
          rw [List.flatMap_nil, List.flatMap_cons, encodeChar_eq]
          exact List.nil_lt_cons _ _
  | cons c a ih =>
      cases b with
      | nil => exact absurd h (List.not_lt_nil _)
      | cons d b =>
          rw [List.flatMap_cons, List.flatMap_cons]
          rcases List.cons_lt_cons_iff.mp h with hlt | ⟨rfl, hrest⟩
          · exact encodeChar_lt hlt _ _
          · exact List.append_left_lt (ih hrest)

/-- **Names are in the same order byte by byte and character by character.** -/
theorem utf8_lt_iff {a b : String} : utf8 a < utf8 b ↔ a < b := by
  constructor
  · intro h
    refine Decidable.byContradiction fun hnot => ?_
    have hle : b ≤ a := String.not_lt.mp hnot
    by_cases hlt : b < a
    · exact List.lt_asymm h (flatMap_lt hlt)
    · obtain rfl := String.le_antisymm (String.not_lt.mp hlt) hle
      exact List.lt_irrefl _ h
  · exact flatMap_lt

end CommandRing.Text
