import CommandRing.Proofs.Memory
import CommandRing.Scenario.Parts

/-!
# Allocated memory is memory

A region may be an array of bytes, or words that are shifted and masked. Nothing tells the two apart: whoever takes the
same steps on both gets the same replies.

Three things make it so. A byte that is put into a word is the only one that changes (`Word.byte_splice`), and the half
that a cursor takes up is four bytes, the lowest first (`Word.toNat_half`). A copy changes the bytes it covers, as it
does in an array of bytes (`Words.byte_copyIn`). And a range whose end wraps around is refused, so the words that check
a range decide about the numbers they stand for (`WordRegion.checkRange_eq`).

`Represents` says that both hold the same bytes; a step keeps it, and so does a run.
-/

namespace CommandRing

/-! ## Arrays of bytes -/

namespace Region

/-- The memory that steps leave. -/
def after (r : Region) (steps : List Scenario.RegionStep) : Region :=
  steps.foldl (fun r step => (step.apply r).2) r

/-- A write that fits is seen as it is. -/
theorem byte_put_of_fits {r : Region} {offset : Nat} {data : Bytes}
    (h : offset + data.length ≤ r.bytes.size) (i : Nat) :
    (r.put offset data).byte i
      = if offset ≤ i ∧ i < offset + data.length then data.getD (i - offset) 0 else r.byte i := by
  rw [byte_put]
  by_cases hc : offset ≤ i ∧ i < offset + data.length
  · rw [if_pos (by omega), if_pos hc]
  · rw [if_neg (by omega), if_neg hc]

theorem length_zeroed (length : Nat) : (zeroed length).length = length := by
  unfold Region.length zeroed
  rw [Array.size_replicate, Nat.min_self]

theorem byte_zeroed (length i : Nat) : (zeroed length).byte i = 0 := by
  unfold byte zeroed
  rw [Array.getD_eq_getD_getElem?, Array.getElem?_replicate]
  split <;> rfl

end Region

/-! ## Bytes that spell a word -/

/-- The digits of a number, the lowest first. -/
theorem Bytes.getD_ofNat {width k : Nat} (n : Nat) (h : k < width) :
    (ofNat width n).getD k 0 = UInt8.ofNat (n / Nat.pow 256 k) := by
  induction width generalizing n k with
  | zero => exact absurd h (Nat.not_lt_zero k)
  | succ width ih =>
      rw [ofNat]
      cases k with
      | zero => exact congrArg UInt8.ofNat (Nat.div_one n).symm
      | succ k =>
          have hpow : 256 * Nat.pow 256 k = Nat.pow 256 (k + 1) := Nat.mul_comm ..
          rw [List.getD_cons_succ, ih _ (by omega), Nat.div_div_eq_div_mul, hpow]

/-- Four bytes are a word. -/
theorem Bytes.toNat_wordAt32 {b : Bytes} (h : b.length = 4) : (b.wordAt32 0).toNat = b.toNat := by
  have hlt := b.toNat_lt
  have hslice := Bytes.slice_zero_length b
  rw [h] at hlt hslice
  unfold wordAt32
  rw [hslice]
  exact UInt32.toNat_ofNat_of_lt' hlt

/-! ## Parts of a word -/

namespace Word

variable {lane count i : Nat}

theorem toNat_shift (h : lane < 8) : (UInt64.ofNat (8 * lane)).toNat % 64 = 8 * lane := by
  rw [UInt64.toNat_ofNat_of_lt' (show 8 * lane < UInt64.size by unfold UInt64.size; omega)]
  omega

theorem toNat_shifted (w : UInt64) (h : lane < 8) :
    (w >>> UInt64.ofNat (8 * lane)).toNat = w.toNat / Nat.pow 256 lane := by
  rw [UInt64.toNat_shiftRight, toNat_shift h, Nat.shiftRight_eq_div_pow, Nat.pow_mul]
  rfl

/-- A byte is a digit of the word. -/
theorem toNat_byte (w : UInt64) (h : lane < 8) :
    (byte w lane).toNat = w.toNat / Nat.pow 256 lane % 256 := by
  unfold byte
  rw [UInt64.toNat_toUInt8, toNat_shifted w h]

/-- **A half of a word is four bytes, the lowest first.** -/
theorem toNat_half (w : UInt64) (h : lane + 4 ≤ 8) :
    (half w lane).toNat = Bytes.toNat ((List.range 4).map fun k => byte w (lane + k)) := by
  -- the byte `k` lanes further on is a digit of what is left of the word
  have hdigit : ∀ k p, k < 4 → Nat.pow 256 k = p →
      (byte w (lane + k)).toNat = w.toNat / Nat.pow 256 lane / p % 256 := by
    rintro k _ hk rfl
    have hpow : Nat.pow 256 (lane + k) = Nat.pow 256 lane * Nat.pow 256 k := Nat.pow_add 256 lane k
    rw [toNat_byte w (by omega), Nat.div_div_eq_div_mul, hpow]
  have hrange : List.range 4 = [0, 1, 2, 3] := rfl
  unfold half
  rw [UInt64.toNat_toUInt32, toNat_shifted w (by omega), hrange]
  simp only [List.map_cons, List.map_nil, Bytes.toNat]
  rw [hdigit 0 1 (by decide) rfl, hdigit 1 256 (by decide) rfl, hdigit 2 65536 (by decide) rfl,
    hdigit 3 16777216 (by decide) rfl]
  omega

/-! ### Bits -/

theorem getLsbD_byte (w : UInt64) (h : lane < 8) (i : Nat) :
    (byte w lane).toBitVec.getLsbD i
      = (decide (i < 8) && w.toBitVec.getLsbD (8 * lane + i)) := by
  have hshift : ((UInt64.ofNat (8 * lane)).toBitVec % 64).toNat = 8 * lane := toNat_shift h
  unfold byte
  rw [UInt64.toBitVec_toUInt8, BitVec.getLsbD_setWidth, UInt64.toBitVec_shiftRight,
    BitVec.ushiftRight_eq', BitVec.getLsbD_ushiftRight, hshift]

theorem getLsbD_placed (value : UInt64) (h : lane < 8) (hi : i < 64) :
    (value <<< UInt64.ofNat (8 * lane)).toBitVec.getLsbD i
      = (decide (8 * lane ≤ i) && value.toBitVec.getLsbD (i - 8 * lane)) := by
  have hshift : ((UInt64.ofNat (8 * lane)).toBitVec % 64).toNat = 8 * lane := toNat_shift h
  rw [UInt64.toBitVec_shiftLeft, BitVec.shiftLeft_eq', BitVec.getLsbD_shiftLeft, hshift]
  simp only [hi, decide_true, Bool.true_and, ← decide_not, Nat.not_lt]

theorem getLsbD_lowBytes (hi : i < 64) :
    (lowBytes count).toBitVec.getLsbD i = decide (i < 8 * count) := by
  have hpow : Nat.pow 256 count = 2 ^ (8 * count) := (Nat.pow_mul 2 8 count).symm
  unfold lowBytes
  rw [UInt64.toBitVec_ofNat', BitVec.getLsbD_ofNat, hpow, Nat.testBit_two_pow_sub_one,
    decide_eq_true hi, Bool.true_and]

/-- The mask selects between the two words. -/
theorem getLsbD_splice (value w : UInt64) (h : lane < 8) (hi : i < 64) :
    (splice lane count value w).toBitVec.getLsbD i
      = if 8 * lane ≤ i ∧ i < 8 * (lane + count) then value.toBitVec.getLsbD (i - 8 * lane)
        else w.toBitVec.getLsbD i := by
  have hmask : (lowBytes count <<< UInt64.ofNat (8 * lane)).toBitVec.getLsbD i
      = decide (8 * lane ≤ i ∧ i < 8 * (lane + count)) := by
    rw [getLsbD_placed _ h hi, getLsbD_lowBytes (by omega), ← Bool.decide_and]
    refine decide_eq_decide.mpr ?_
    omega
  unfold splice
  rw [UInt64.toBitVec_or, UInt64.toBitVec_and, UInt64.toBitVec_and, UInt64.toBitVec_not,
    BitVec.getLsbD_or, BitVec.getLsbD_and, BitVec.getLsbD_and, BitVec.getLsbD_not, hmask,
    getLsbD_placed _ h hi, decide_eq_true hi]
  by_cases hc : 8 * lane ≤ i ∧ i < 8 * (lane + count)
  · simp [hc]
  · simp [hc]

/-- **A splice changes the bytes it covers**, and no other byte of the word. -/
theorem byte_splice (value w : UInt64) (h : lane < 8) (hi : i < 8) :
    byte (splice lane count value w) i
      = if lane ≤ i ∧ i < lane + count then byte value (i - lane) else byte w i := by
  refine UInt8.eq_of_toBitVec_eq (BitVec.eq_of_getLsbD_eq ?_)
  intro j hj
  -- a bit is covered if its byte is
  have hbit : 8 * lane ≤ 8 * i + j ∧ 8 * i + j < 8 * (lane + count)
      ↔ lane ≤ i ∧ i < lane + count := by omega
  rw [getLsbD_byte _ hi, getLsbD_splice _ _ h (by omega)]
  by_cases hc : lane ≤ i ∧ i < lane + count
  · rw [if_pos hc, if_pos (hbit.mpr hc), getLsbD_byte _ (by omega)]
    congr 2
    omega
  · rw [if_neg hc, if_neg (mt hbit.mp hc), getLsbD_byte _ hi]

/-- The bytes of a narrower word are those that spell it. -/
theorem byte_ofUInt32 (v : UInt32) {k : Nat} (h : k < 4) :
    byte v.toUInt64 k = (Bytes.ofUInt32 v).getD k 0 := by
  refine UInt8.toNat_inj.mp ?_
  unfold Bytes.ofUInt32
  rw [toNat_byte _ (by omega), Bytes.getD_ofNat _ h, UInt32.toNat_toUInt64, UInt8.toNat_ofNat']

theorem byte_ofUInt8 (b : UInt8) : byte b.toUInt64 0 = b := by
  refine UInt8.toNat_inj.mp ?_
  rw [toNat_byte _ (by decide), UInt8.toNat_toUInt64]
  exact (congrArg (· % 256) (Nat.div_one b.toNat)).trans (Nat.mod_eq_of_lt b.toNat_lt)

end Word

/-! ## Memory -/

namespace Words

variable {memory : Array UInt64} {offset count i : Nat}

/-- **A write into one word changes exactly the bytes it covers.** -/
theorem byte_set (memory : Array UInt64) (value : UInt64) (h : offset % 8 + count ≤ 8) (i : Nat) :
    byte (set memory offset count value) i
      = if offset ≤ i ∧ i < offset + count ∧ i < 8 * memory.size then Word.byte value (i - offset)
        else byte memory i := by
  unfold byte set
  rw [Array.getD_eq_getD_getElem?, Array.getD_eq_getD_getElem?, Array.getElem?_modify]
  -- what is covered lies in the word at `offset`
  by_cases hword : offset / 8 = i / 8
  · by_cases hsize : i / 8 < memory.size
    · rw [if_pos hword, Array.getElem?_eq_getElem hsize, Option.map_some, Option.getD_some,
        Option.getD_some, Word.byte_splice _ _ (by omega) (by omega)]
      by_cases hc : offset ≤ i ∧ i < offset + count
      · rw [if_pos (by omega), if_pos (by omega)]
        congr 1
        omega
      · rw [if_neg (by omega), if_neg (by omega)]
    · rw [if_pos hword, Array.getElem?_eq_none (by omega), if_neg (by omega)]
      rfl
  · rw [if_neg hword, if_neg (by omega)]

/-- **A copy changes exactly the bytes it covers**, as it does in an array of bytes. -/
theorem byte_copyIn (memory : Array UInt64) (offset : Nat) (data : Bytes) (i : Nat) :
    byte (copyIn memory offset data) i
      = if offset ≤ i ∧ i < offset + data.length ∧ i < 8 * memory.size then data.getD (i - offset) 0
        else byte memory i := by
  induction data generalizing memory offset with
  | nil => rw [copyIn, if_neg (by simp only [List.length_nil]; omega)]
  | cons b rest ih =>
    rw [copyIn, ih, byte_set _ _ (by omega), size_set, List.length_cons]
    -- the first byte is put there at once, and the rest does not come back to it
    by_cases hi : i = offset
    · subst hi
      rw [if_neg (by omega)]
      by_cases hsize : i < 8 * memory.size
      · rw [if_pos (by omega), if_pos (by omega), Nat.sub_self, Word.byte_ofUInt8,
          List.getD_cons_zero]
      · rw [if_neg (by omega), if_neg (by omega)]
    · by_cases hin : offset + 1 ≤ i ∧ i < offset + 1 + rest.length ∧ i < 8 * memory.size
      · have hsub : i - offset = (i - (offset + 1)) + 1 := by omega
        rw [if_pos hin, if_pos (by omega), hsub, List.getD_cons_succ]
      · rw [if_neg hin, if_neg (by omega), if_neg (by omega)]

/-- A copy out of words is the stretch that the region has there. -/
theorem copyOut_eq_extract {r : Region} (hbytes : ∀ i, byte memory i = r.byte i)
    (h : offset + count ≤ r.bytes.size) : copyOut memory offset count = r.extract offset count := by
  rw [Region.extract_eq_map h]
  exact List.map_congr_left fun i _ => hbytes (offset + i)

/-- **An aligned cursor does not leave its word.** -/
theorem toNat_half (memory : Array UInt64) (h : offset % 4 = 0) :
    (Word.half (memory.getD (offset / 8) 0) (offset % 8)).toNat
      = Bytes.toNat (copyOut memory offset 4) := by
  rw [Word.toNat_half _ (by omega)]
  unfold copyOut byte
  refine congrArg Bytes.toNat (List.map_congr_left ?_)
  intro k hk
  have hk := List.mem_range.mp hk
  have hword : (offset + k) / 8 = offset / 8 := by omega
  have hlane : (offset + k) % 8 = offset % 8 + k := by omega
  rw [hword, hlane]

end Words

namespace WordRegion

open Scenario

/-! ## Ranges -/

/-- **A sum that wraps around is found out.** -/
theorem rangeEnd?_eq_some {offset count e : UInt64} :
    rangeEnd? offset count = some e ↔ offset.toNat + count.toNat = e.toNat := by
  have ho := offset.toNat_lt
  have hc := count.toNat_lt
  have he := e.toNat_lt
  have hsum : (offset + count).toNat = (offset.toNat + count.toNat) % 2 ^ 64 := UInt64.toNat_add ..
  have hwraps : offset + count < offset ↔ 2 ^ 64 ≤ offset.toNat + count.toNat := by
    rw [UInt64.lt_iff_toNat_lt, hsum]
    omega
  unfold rangeEnd?
  by_cases h : offset + count < offset
  · have hover := hwraps.mp h
    rw [if_pos h]
    exact iff_of_false nofun (by omega)
  · have hfits := mt hwraps.mpr h
    rw [if_neg h, Option.some.injEq, ← UInt64.toNat_inj, hsum, Nat.mod_eq_of_lt (by omega)]

/-- **Words decide about a range as numbers do.** -/
theorem checkRange_eq (length offset count : UInt64) :
    checkRange length offset count = Region.checkRange length.toNat offset.toNat count.toNat := by
  have hends : (rangeEnd? offset count).any (· ≤ length) = true
      ↔ offset.toNat + count.toNat ≤ length.toNat := by
    rw [Option.any_eq_true]
    constructor
    · rintro ⟨e, he, hle⟩
      rw [rangeEnd?_eq_some.mp he]
      exact UInt64.le_iff_toNat_le.mp (of_decide_eq_true hle)
    · intro hle
      have hlt := length.toNat_lt
      have hend : (UInt64.ofNat (offset.toNat + count.toNat)).toNat = offset.toNat + count.toNat :=
        UInt64.toNat_ofNat_of_lt' (Nat.lt_of_le_of_lt hle hlt)
      refine ⟨_, rangeEnd?_eq_some.mpr hend.symm, decide_eq_true ?_⟩
      rw [UInt64.le_iff_toNat_le, hend]
      exact hle
  unfold checkRange Region.checkRange
  simp only [hends]

theorem checkCursor_eq (length offset : UInt64) :
    checkCursor length offset = Region.checkCursor length.toNat offset.toNat := by
  have haligned : offset % 4 = 0 ↔ offset.toNat % 4 = 0 := by
    rw [← UInt64.toNat_inj, UInt64.toNat_mod]
    rfl
  unfold checkCursor Region.checkCursor
  rw [checkRange_eq]
  simp only [haligned]
  rfl

/-! ## Both at once -/

/-- The memory that steps leave. -/
def after (w : WordRegion) (steps : List RegionStep) : WordRegion :=
  steps.foldl (fun w step => (step.applyInWords w).2) w

/-- Words and an array of bytes that hold the same. -/
structure Represents (w : WordRegion) (r : Region) : Prop where
  length : r.length = w.length.toNat
  byte : ∀ i, w.byte i = r.byte i

/-- Both accesses fail in the same way, or both memories still hold the same. -/
def Agree : Except Error WordRegion → Except Error Region → Prop
  | .ok w, .ok r => Represents w r
  | .error e, .error f => e = f
  | _, _ => False

theorem byte_zeroed (length : UInt64) (i : Nat) : (zeroed length).byte i = 0 := by
  have hword : (Array.replicate (Words.countFor length).toNat (0 : UInt64)).getD (i / 8) 0 = 0 := by
    rw [Array.getD_eq_getD_getElem?, Array.getElem?_replicate]
    split <;> rfl
  unfold byte zeroed Words.byte
  rw [hword]
  refine UInt8.toNat_inj.mp ?_
  rw [Word.toNat_byte _ (Nat.mod_lt i (by decide)), UInt64.toNat_zero, Nat.zero_div]
  rfl

namespace Represents

variable {w : WordRegion} {r : Region}

theorem zeroed (length : UInt64) : Represents (.zeroed length) (.zeroed length.toNat) where
  length := Region.length_zeroed length.toNat
  byte i := (byte_zeroed length i).trans (Region.byte_zeroed length.toNat i).symm

/-- What lies in the region can be held by both. -/
theorem inside (h : Represents w r) {offset count : Nat} (hin : offset + count ≤ w.length.toNat) :
    offset + count ≤ r.bytes.size ∧ offset + count ≤ 8 * w.words.size := by
  have hlength := h.length
  have hsize := r.length_le_size
  have hcovered := w.covered
  omega

/-! ### Looking -/

theorem read_eq (h : Represents w r) (offset count : UInt64) :
    w.read offset count = r.read offset.toNat count.toNat := by
  unfold WordRegion.read Region.read
  rw [checkRange_eq, h.length]
  rcases hrange : Region.checkRange w.length.toNat offset.toNat count.toNat with e | ⟨⟩
  · rfl
  · have hin := (h.inside (Region.checkRange_eq_ok.mp hrange)).1
    exact congrArg Except.ok (Words.copyOut_eq_extract h.byte hin)

theorem load_eq (h : Represents w r) (offset : UInt64) : w.load offset = r.load offset.toNat := by
  unfold WordRegion.load Region.load
  rw [checkCursor_eq, h.length]
  rcases hcursor : Region.checkCursor w.length.toNat offset.toNat with e | ⟨⟩
  · rfl
  · obtain ⟨hrange, haligned⟩ := Region.checkCursor_eq_ok.mp hcursor
    have hin := (h.inside hrange).1
    refine congrArg Except.ok (UInt32.toNat_inj.mp ?_)
    rw [Words.toNat_half _ haligned, Words.copyOut_eq_extract h.byte hin,
      Bytes.toNat_wordAt32 (Region.length_extract hin)]

theorem snapshot_eq (h : Represents w r) : w.snapshot = r.snapshot := by
  have hall : w.read 0 w.length = .ok r.snapshot := by
    rw [h.read_eq, ← h.length]
    exact Region.read_eq_ok.mpr ⟨Nat.le_of_eq (Nat.zero_add _), rfl⟩
  unfold WordRegion.snapshot
  rw [hall]

theorem mailbox_eq (h : Represents w r) : w.mailbox = r.mailbox := by
  unfold WordRegion.mailbox Region.mailbox
  rw [h.read_eq]
  rfl

/-! ### Changing -/

/-- Words that changed where the data is go on representing the region that it was put into. -/
theorem put (h : Represents w r) {offset : Nat} {data : Bytes} {words : Array UInt64}
    {hcovered : w.length.toNat ≤ 8 * words.size} (hin : offset + data.length ≤ r.bytes.size)
    (hbyte : ∀ i, Words.byte words i =
      if offset ≤ i ∧ i < offset + data.length then data.getD (i - offset) 0 else w.byte i) :
    Represents ⟨words, w.length, hcovered⟩ (r.put offset data) where
  length := (Region.length_put r offset data).trans h.length
  byte i := by
    rw [Region.byte_put_of_fits hin, ← h.byte i]
    exact hbyte i

theorem write_agrees (h : Represents w r) (offset : UInt64) {data : Bytes}
    (hdata : data.length < UInt64.size) :
    Agree (w.write offset data) (r.write offset.toNat data) := by
  unfold WordRegion.write Region.write
  rw [checkRange_eq, UInt64.toNat_ofNat_of_lt' hdata, h.length]
  rcases hrange : Region.checkRange w.length.toNat offset.toNat data.length with e | ⟨⟩
  · exact rfl
  · obtain ⟨hbytes, hwords⟩ := h.inside (Region.checkRange_eq_ok.mp hrange)
    refine h.put hbytes fun i => ?_
    rw [Words.byte_copyIn]
    -- the words do not end before the data does
    by_cases hc : offset.toNat ≤ i ∧ i < offset.toNat + data.length
    · rw [if_pos hc, if_pos (by omega)]
    · rw [if_neg hc, if_neg (by omega)]
      rfl

theorem store_agrees (h : Represents w r) (offset : UInt64) (v : UInt32) :
    Agree (w.store offset v) (r.store offset.toNat v) := by
  have hlen := Bytes.length_ofUInt32 v
  unfold WordRegion.store Region.store
  rw [checkCursor_eq, h.length]
  rcases hcursor : Region.checkCursor w.length.toNat offset.toNat with e | ⟨⟩
  · exact rfl
  · obtain ⟨hrange, haligned⟩ := Region.checkCursor_eq_ok.mp hcursor
    obtain ⟨hbytes, hwords⟩ := h.inside hrange
    refine h.put (by omega) fun i => ?_
    rw [Words.byte_set _ _ (by omega), hlen]
    by_cases hc : offset.toNat ≤ i ∧ i < offset.toNat + 4
    · rw [if_pos hc, if_pos (by omega), Word.byte_ofUInt32 _ (by omega)]
    · rw [if_neg hc, if_neg (by omega)]
      rfl

/-! ### Steps -/

/-- A change that agrees is reported alike, and a refusal leaves both as they are. -/
theorem changed (h : Represents w r) {a : Except Error WordRegion} {b : Except Error Region}
    (hagree : Agree a b) :
    (regionAfter w a).1 = (regionAfter r b).1
      ∧ Represents (regionAfter w a).2 (regionAfter r b).2 := by
  cases a with
  | ok w' => cases b with
    | ok r' => exact ⟨rfl, hagree⟩
    | error f => exact hagree.elim
  | error e => cases b with
    | ok r' => exact hagree.elim
    | error f => exact ⟨congrArg RegionReply.failed hagree, h⟩

/-- **A step that words can take has the same reply on both**, and they go on holding the same. -/
theorem step (h : Represents w r) {step : RegionStep} (hstep : step.InWords) :
    (step.applyInWords w).1 = (step.apply r).1
      ∧ Represents (step.applyInWords w).2 (step.apply r).2 := by
  cases step with
  | read offset count =>
      have hread := h.read_eq (.ofNat offset) (.ofNat count)
      rw [UInt64.toNat_ofNat_of_lt' hstep.1, UInt64.toNat_ofNat_of_lt' hstep.2] at hread
      exact ⟨congrArg (regionReply .bytes) hread, h⟩
  | write offset data =>
      have hwrite := h.write_agrees (.ofNat offset) hstep.2
      rw [UInt64.toNat_ofNat_of_lt' hstep.1] at hwrite
      exact changed h hwrite
  | load offset =>
      have hload := h.load_eq (.ofNat offset)
      rw [UInt64.toNat_ofNat_of_lt' hstep] at hload
      exact ⟨congrArg (regionReply .word) hload, h⟩
  | store offset value =>
      have hstore := h.store_agrees (.ofNat offset) value
      rw [UInt64.toNat_ofNat_of_lt' hstep] at hstore
      exact changed h hstore
  | snapshot => exact ⟨congrArg RegionReply.bytes h.snapshot_eq, h⟩
  | mailbox => exact ⟨congrArg (regionReply .mailbox) h.mailbox_eq, h⟩

/-- **So has a whole run**, by induction on its steps. -/
theorem run (h : Represents w r) {steps : List RegionStep} (hsteps : ∀ step ∈ steps, step.InWords) :
    runWordRegion w steps = runRegion r steps ∧ Represents (w.after steps) (r.after steps) := by
  induction steps generalizing w r with
  | nil => exact ⟨rfl, h⟩
  | cons step rest ih =>
      obtain ⟨hreply, hnext⟩ := h.step (hsteps step List.mem_cons_self)
      obtain ⟨hreplies, hlast⟩ := ih hnext fun s hs => hsteps s (List.mem_cons_of_mem step hs)
      exact ⟨congrArg₂ List.cons hreply hreplies, hlast⟩

end Represents

end WordRegion

end CommandRing
