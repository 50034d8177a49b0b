import CommandRing.Cdb

/-!
# Descriptor blocks delimit themselves

The kernel is told where a descriptor block starts and not where it ends, so the block has to say it. The three
high bits of its opcode, its *group*, say how long it is, except in one group: there only the opcode `0x7f` has a
length, and that depends on byte 7. So a block must not change its mind when bytes are put behind it, nor when they
are taken away again, and byte 7 must be a part of every block that it measures.

`Unmeasured` lists the bytes that define no length, and `Misfit` what is reported of the bytes that are no block.
-/

namespace CommandRing

namespace Cdb

/-! ## Where the length comes from -/

/-- The group of an opcode is what its three high bits spell. -/
def group (opcode : UInt8) : Nat := opcode.toNat / 32

/-- The length of every block of a group, where there is one. -/
def groupLength : Nat → Option Nat
  | 0 => some 6
  | 1 | 2 => some 10
  | 4 => some 16
  | 5 => some 12
  | _ => none

theorem group_lt_iff {opcode : UInt8} {k : Nat} (hk : k < 8) :
    group opcode < k ↔ opcode < UInt8.ofNat (k * 32) := by
  unfold group
  rw [UInt8.lt_iff_toNat_lt, UInt8.toNat_ofNat', Nat.mod_eq_of_lt (by omega),
    Nat.div_lt_iff_lt_mul (by decide)]

theorem expectedLength_fixed {opcode : UInt8} (h : opcode ≠ variableLengthOpcode) (rest : Bytes) :
    expectedLength (opcode :: rest) = groupLength (group opcode) := by
  have h1 : group opcode < 1 ↔ opcode < 0x20 := group_lt_iff (by decide)
  have h3 : group opcode < 3 ↔ opcode < 0x60 := group_lt_iff (by decide)
  have h4 : group opcode < 4 ↔ opcode < 0x80 := group_lt_iff (by decide)
  have h5 : group opcode < 5 ↔ opcode < 0xa0 := group_lt_iff (by decide)
  have h6 : group opcode < 6 ↔ opcode < 0xc0 := group_lt_iff (by decide)
  unfold expectedLength
  dsimp only
  rw [if_neg h]
  simp only [← h1, ← h3, ← h4, ← h5, ← h6]
  generalize group opcode = g
  match g with
  | 0 | 1 | 2 | 3 | 4 | 5 => rfl
  | later + 6 =>
      iterate 5 rw [if_neg (by omega)]
      rfl

theorem expectedLength_variable (rest : Bytes) :
    expectedLength (variableLengthOpcode :: rest) = rest[6]?.map fun more => more.toNat + 8 := rfl

/-! ## Which bytes define none -/

/-- Bytes that define no length. -/
inductive Unmeasured : Bytes → Prop where
  | empty : Unmeasured []
  | reserved {opcode : UInt8} {rest : Bytes} : group opcode = 3 → opcode ≠ variableLengthOpcode →
      Unmeasured (opcode :: rest)
  | vendor {opcode : UInt8} {rest : Bytes} : 6 ≤ group opcode → Unmeasured (opcode :: rest)
  /-- A block of variable length that ends before byte 7. -/
  | short {b : Bytes} : b.head? = some variableLengthOpcode → b.length ≤ 7 → Unmeasured b

theorem groupLength_eq_none {g : Nat} : groupLength g = none ↔ g = 3 ∨ 6 ≤ g := by
  match g with
  | 0 | 1 | 2 | 3 | 4 | 5 => simp [groupLength]
  | later + 6 => simp [groupLength]

theorem expectedLength_eq_none {b : Bytes} : expectedLength b = none ↔ Unmeasured b := by
  cases b with
  | nil => exact ⟨fun _ => .empty, fun _ => rfl⟩
  | cons opcode rest =>
      by_cases hvariable : opcode = variableLengthOpcode
      · subst hvariable
        rw [expectedLength_variable, Option.map_eq_none_iff, List.getElem?_eq_none_iff]
        constructor
        · intro hlen
          exact .short rfl (Nat.succ_le_succ hlen)
        · intro h
          cases h with
          | reserved _ hne => exact absurd rfl hne
          | vendor hgroup => exact absurd hgroup (by decide)
          | short _ hlen => exact Nat.le_of_succ_le_succ hlen
      · rw [expectedLength_fixed hvariable, groupLength_eq_none]
        constructor
        · rintro (hgroup | hgroup)
          · exact .reserved hgroup hvariable
          · exact .vendor hgroup
        · intro h
          cases h with
          | reserved hgroup _ => exact Or.inl hgroup
          | vendor hgroup => exact Or.inr hgroup
          | short hhead _ => exact absurd (Option.some.inj hhead) hvariable

/-! ## The length does not depend on what lies behind -/

theorem groupLength_pos {g n : Nat} (h : groupLength g = some n) : 0 < n := by
  match g with
  | 0 | 1 | 2 | 4 | 5 =>
      injection h with h
      omega
  | 3 => exact absurd h (by simp [groupLength])
  | later + 6 => exact absurd h (by simp [groupLength])

/-- **What defines its length still does so when all behind that length is taken away.** -/
theorem expectedLength_take {b : Bytes} {n : Nat} (h : expectedLength b = some n) :
    expectedLength (b.take n) = some n := by
  cases b with
  | nil => exact absurd h (by simp [expectedLength])
  | cons opcode rest =>
      by_cases hvariable : opcode = variableLengthOpcode
      · subst hvariable
        obtain ⟨more, hmore, rfl⟩ := Option.map_eq_some_iff.mp h
        -- the length counts the eight bytes up to byte 7, so that byte stays
        rw [List.take_succ_cons, expectedLength_variable, List.getElem?_take_of_lt (by omega),
          ← expectedLength_variable]
        exact h
      · rw [expectedLength_fixed hvariable] at h
        obtain ⟨m, rfl⟩ := Nat.exists_eq_add_of_le' (groupLength_pos h)
        rw [List.take_succ_cons, expectedLength_fixed hvariable]
        exact h

end Cdb

namespace CommandBlock

open Cdb

/-- What is reported of bytes that are no block. -/
inductive Misfit : Bytes → CdbFault → Prop where
  | empty : Misfit [] .empty
  | undefinedLength {opcode : UInt8} {rest : Bytes} : Unmeasured (opcode :: rest) →
      Misfit (opcode :: rest) (.undefinedLength opcode)
  | wrongLength {opcode : UInt8} {rest : Bytes} {n : Nat} : expectedLength (opcode :: rest) = some n →
      (opcode :: rest).length ≠ n →
      Misfit (opcode :: rest) (.wrongLength opcode n (opcode :: rest).length)

theorem ofBytes_of_measured {b : Bytes} (h : expectedLength b = some b.length) :
    ofBytes b = .ok ⟨b, h⟩ := by
  unfold ofBytes
  split
  · rename_i hnone
    rw [hnone] at h
    exact absurd h (by simp)
  · rename_i expected hsome
    rw [hsome] at h
    rw [dif_pos (Option.some.inj h).symm]

theorem ofBytes_misfit {b : Bytes} (h : expectedLength b ≠ some b.length) :
    ∃ fault, Misfit b fault ∧ ofBytes b = .error (.invalidCdb fault) := by
  cases b with
  | nil => exact ⟨_, .empty, rfl⟩
  | cons opcode rest =>
      unfold ofBytes
      split
      · rename_i hnone
        exact ⟨_, .undefinedLength (expectedLength_eq_none.mp hnone), rfl⟩
      · rename_i expected hsome
        have hlen : (opcode :: rest).length ≠ expected := by
          rintro rfl
          exact h hsome
        rw [dif_neg hlen]
        exact ⟨_, .wrongLength hsome hlen, rfl⟩

/-- **A byte string is accepted exactly if it defines its own length.** -/
theorem ofBytes_eq_ok {b : Bytes} {block : CommandBlock} :
    ofBytes b = .ok block ↔ block.bytes = b := by
  constructor
  · intro h
    by_cases hb : expectedLength b = some b.length
    · rw [ofBytes_of_measured hb, Except.ok.injEq] at h
      rw [← h]
    · obtain ⟨fault, _, herror⟩ := ofBytes_misfit hb
      rw [herror] at h
      exact absurd h (by simp)
  · rintro rfl
    exact ofBytes_of_measured block.expectedLength_eq

/-- **No block starts another one.** -/
theorem eq_of_isPrefix {block block' : CommandBlock} (h : block.bytes <+: block'.bytes) :
    block.bytes = block'.bytes := by
  obtain ⟨rest, hrest⟩ := h
  -- both define the same length, and it is the length of each
  have hlen := expectedLength_append block.expectedLength_eq rest
  rw [hrest, block'.expectedLength_eq, Option.some.injEq] at hlen
  exact List.IsPrefix.eq_of_length ⟨rest, hrest⟩ hlen.symm

/-- **What defines its length starts with a block of that length**, if it is long enough. -/
theorem ofBytes_take {b : Bytes} {n : Nat} (h : expectedLength b = some n) (hn : n ≤ b.length) :
    ∃ block, ofBytes (b.take n) = .ok block := by
  have hlen : (b.take n).length = n := by rw [List.length_take, Nat.min_eq_left hn]
  have htake : expectedLength (b.take n) = some (b.take n).length := by
    rw [expectedLength_take h, hlen]
  exact ⟨_, ofBytes_of_measured htake⟩

/--
**Descriptor blocks delimit themselves.** A byte string that is accepted defines its own length, and does so with
any bytes behind it; so no accepted string is the start of a longer one. Bytes that define a length and are as long
as that, or longer, start with a string that is accepted. All other strings are rejected as invalid blocks, with
the fault that they have: their length is not the one that they define, or they define none. The latter are the
empty string, the opcodes of reserved and vendor specific groups, and blocks of variable length of at most 7 bytes.
-/
theorem self_delimiting :
    (∀ c block, ofBytes c = .ok block →
        block.bytes = c ∧ ∀ rest, expectedLength (c ++ rest) = some c.length)
      ∧ (∀ c c' block block', ofBytes c = .ok block → ofBytes c' = .ok block' → c <+: c' → c = c')
      ∧ (∀ b n, expectedLength b = some n → n ≤ b.length → ∃ block, ofBytes (b.take n) = .ok block)
      ∧ (∀ b, expectedLength b ≠ some b.length ↔
        ∃ fault, Misfit b fault ∧ ofBytes b = .error (.invalidCdb fault))
      ∧ ∀ b, expectedLength b = none ↔ Unmeasured b := by
  refine ⟨?_, ?_, fun b n => ofBytes_take, fun b => ⟨ofBytes_misfit, ?_⟩, fun b =>
    expectedLength_eq_none⟩
  · intro c block h
    obtain rfl := ofBytes_eq_ok.mp h
    exact ⟨rfl, expectedLength_append block.expectedLength_eq⟩
  · intro c c' block block' h h'
    obtain rfl := ofBytes_eq_ok.mp h
    obtain rfl := ofBytes_eq_ok.mp h'
    exact eq_of_isPrefix
  · rintro ⟨fault, _, herror⟩ hb
    rw [ofBytes_of_measured hb] at herror
    exact absurd herror (by simp)

/-- One byte behind the first eight. -/
def nineBytes : Bytes := [0x7f, 0, 0, 0, 0, 0, 0, 1, 5]

/-- It is accepted, alone and as the start of more; without its last byte its length is wrong, and without byte 7
it has none. -/
theorem self_delimiting_nineBytes :
    (∃ block, ofBytes nineBytes = .ok block)
      ∧ expectedLength (nineBytes ++ [1, 2, 3]) = some 9
      ∧ (∃ block, ofBytes ((nineBytes ++ [1, 2, 3]).take 9) = .ok block)
      ∧ ofBytes (nineBytes.take 8) = .error (.invalidCdb (.wrongLength 0x7f 9 8))
      ∧ ofBytes (nineBytes.take 7) = .error (.invalidCdb (.undefinedLength 0x7f))
      ∧ expectedLength (nineBytes.take 7) = none := by
  obtain ⟨haccepted, _, htake, _, hnone⟩ := self_delimiting
  have hblock : ofBytes nineBytes = .ok ⟨nineBytes, rfl⟩ := rfl
  have hmore := (haccepted _ _ hblock).2 [1, 2, 3]
  refine ⟨⟨_, hblock⟩, hmore, htake _ _ hmore (by decide), rfl, rfl, ?_⟩
  exact (hnone _).mpr (.short rfl (by decide))

end CommandBlock

end CommandRing
