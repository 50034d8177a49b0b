import CommandRing.Proofs.Codec
import CommandRing.Region

/-!
# What a write leaves alone

A stretch of memory is its bytes in order, so it can only change where a byte of it changes. A write
changes the bytes it covers; everything else about memory is a matter of two ranges that do not meet.

The mailbox is seen through its words: a write behind it leaves it alone, and storing one of its cursors
changes that field and no other.
-/

namespace CommandRing.Region

variable {r s : Region}

theorem length_le_size (r : Region) : r.length ≤ r.bytes.size := Nat.min_le_right ..

@[simp] theorem size_put (r : Region) (offset : Nat) (data : Bytes) :
    (r.put offset data).bytes.size = r.bytes.size := size_setFrom ..

/-! ## Stretches -/

theorem length_extract {offset count : Nat} (h : offset + count ≤ r.bytes.size) :
    (r.extract offset count).length = count := by
  unfold extract
  rw [Array.length_toList, Array.size_extract]
  omega

theorem extract_eq_map {offset count : Nat} (h : offset + count ≤ r.bytes.size) :
    r.extract offset count = (List.range count).map fun i => r.byte (offset + i) := by
  refine List.ext_getElem? ?_
  intro i
  have hlen := length_extract h
  rcases Nat.lt_or_ge i count with hi | hi
  · have hin : offset + i < r.bytes.size := by omega
    rw [List.getElem?_map, List.getElem?_range hi, Option.map_some]
    unfold extract byte
    rw [Array.getElem?_toList, Array.getElem?_extract_of_lt (by omega),
      Array.getD_eq_getD_getElem?, Array.getElem?_eq_getElem hin]
    rfl
  · rw [List.getElem?_eq_none (by omega),
      List.getElem?_eq_none (by rw [List.length_map, List.length_range]; exact hi)]

theorem extract_congr {offset count : Nat} (hsize : r.bytes.size = s.bytes.size)
    (h : ∀ i, offset ≤ i → i < offset + count → r.byte i = s.byte i) :
    r.extract offset count = s.extract offset count := by
  unfold extract
  refine congrArg Array.toList (Array.ext ?_ ?_)
  · rw [Array.size_extract, Array.size_extract, hsize]
  · intro i hi _
    rw [Array.size_extract] at hi
    have hr : offset + i < r.bytes.size := by omega
    have hs : offset + i < s.bytes.size := by omega
    have hbyte := h (offset + i) (by omega) (by omega)
    unfold byte at hbyte
    rw [Array.getD_eq_getD_getElem?, Array.getD_eq_getD_getElem?, Array.getElem?_eq_getElem hr,
      Array.getElem?_eq_getElem hs] at hbyte
    rw [Array.getElem_extract, Array.getElem_extract]
    exact hbyte

/-- Two memories need not be equally large to have a stretch in common. -/
theorem extract_agree {offset count : Nat} (hr : offset + count ≤ r.bytes.size)
    (hs : offset + count ≤ s.bytes.size)
    (h : ∀ i, offset ≤ i → i < offset + count → r.byte i = s.byte i) :
    r.extract offset count = s.extract offset count := by
  rw [extract_eq_map hr, extract_eq_map hs]
  refine List.map_congr_left ?_
  intro i hi
  have hlt := List.mem_range.mp hi
  exact h (offset + i) (by omega) (by omega)

theorem byte_put_of_not_covered {offset i : Nat} {data : Bytes}
    (h : i < offset ∨ offset + data.length ≤ i) : (r.put offset data).byte i = r.byte i := by
  rw [byte_put, if_neg (by omega)]

/-- **A write leaves every stretch alone that it does not meet.** -/
theorem extract_put_of_disjoint {offset start count : Nat} {data : Bytes}
    (h : start + count ≤ offset ∨ offset + data.length ≤ start) :
    (r.put offset data).extract start count = r.extract start count := by
  refine extract_congr (size_put ..) ?_
  intro i hlo hhi
  exact byte_put_of_not_covered (by omega)

theorem extract_put_self {offset : Nat} {data : Bytes}
    (h : offset + data.length ≤ r.bytes.size) :
    (r.put offset data).extract offset data.length = data := by
  rw [extract_eq_map (by rw [size_put]; exact h)]
  refine List.ext_getElem (by rw [List.length_map, List.length_range]) ?_
  intro i hi hd
  rw [List.length_map, List.length_range] at hi
  rw [List.getElem_map, List.getElem_range, byte_put, if_pos (by omega), Nat.add_sub_cancel_left,
    List.getD_eq_getElem?_getD, List.getElem?_eq_getElem hd]
  rfl

/-- A part of a stretch is a stretch. -/
theorem slice_extract {offset count start n : Nat} (hin : offset + count ≤ r.bytes.size)
    (h : start + n ≤ count) :
    Bytes.slice (r.extract offset count) start n = r.extract (offset + start) n := by
  unfold Bytes.slice
  rw [extract_eq_map hin, extract_eq_map (by omega), ← List.map_drop, ← List.map_take]
  refine List.ext_getElem ?_ ?_
  · simp only [List.length_map, List.length_take, List.length_drop, List.length_range]
    omega
  · intro i _ _
    simp only [List.getElem_map, List.getElem_take, List.getElem_drop, List.getElem_range,
      Nat.add_assoc]

/-- Writing back what is there changes nothing. -/
theorem put_extract {offset count : Nat} (h : offset + count ≤ r.bytes.size) :
    r.put offset (r.extract offset count) = r := by
  have hlen := length_extract h
  -- the limit stays as it is, so only the bytes are in question, one by one
  have hbytes : (r.put offset (r.extract offset count)).bytes = r.bytes := by
    refine Array.ext (size_put ..) ?_
    intro i hi hi'
    have hb := byte_put r offset (r.extract offset count) i
    unfold byte at hb
    rw [Array.getD_eq_getD_getElem?, Array.getD_eq_getD_getElem?, Array.getElem?_eq_getElem hi,
      Array.getElem?_eq_getElem hi', Option.getD_some, Option.getD_some, hlen] at hb
    rw [hb]
    split
    · rename_i hc
      rw [extract_eq_map h, List.getD_eq_getElem?_getD, List.getElem?_map,
        List.getElem?_range (by omega), Option.map_some, Option.getD_some, byte,
        Array.getD_eq_getD_getElem?, Nat.add_sub_cancel' hc.1, Array.getElem?_eq_getElem hi',
        Option.getD_some]
    · rfl
  obtain ⟨bytes, limit⟩ := r
  unfold put at hbytes ⊢
  rw [Region.mk.injEq]
  exact ⟨hbytes, rfl⟩

/-! ## Cursors -/

theorem load_eq_ok {offset : Nat} {v : UInt32} :
    r.load offset = .ok v ↔
      offset + 4 ≤ r.length ∧ offset % 4 = 0 ∧ (r.extract offset 4).wordAt32 0 = v := by
  unfold load
  split
  · rename_i e he
    refine ⟨fun h => absurd h (by simp), fun h => ?_⟩
    rw [checkCursor_eq_ok.mpr ⟨h.1, h.2.1⟩] at he
    exact absurd he (by simp)
  · rename_i he
    have := checkCursor_eq_ok.mp he
    rw [Except.ok.injEq]
    exact ⟨fun h => ⟨this.1, this.2, h⟩, fun h => h.2.2⟩

theorem store_eq_ok {offset : Nat} {v : UInt32} :
    r.store offset v = .ok s ↔
      offset + 4 ≤ r.length ∧ offset % 4 = 0 ∧ r.put offset (Bytes.ofUInt32 v) = s := by
  unfold store
  split
  · rename_i e he
    refine ⟨fun h => absurd h (by simp), fun h => ?_⟩
    rw [checkCursor_eq_ok.mpr ⟨h.1, h.2.1⟩] at he
    exact absurd he (by simp)
  · rename_i he
    have := checkCursor_eq_ok.mp he
    rw [Except.ok.injEq]
    exact ⟨fun h => ⟨this.1, this.2, h⟩, fun h => h.2.2⟩

theorem wordAt32_put {offset : Nat} {v : UInt32} (h : offset + 4 ≤ r.bytes.size) :
    Bytes.wordAt32 ((r.put offset (Bytes.ofUInt32 v)).extract offset 4) 0 = v := by
  have hlen := Bytes.length_ofUInt32 v
  have hin : offset + (Bytes.ofUInt32 v).length ≤ r.bytes.size := by omega
  have hself := extract_put_self hin
  rw [hlen] at hself
  rw [hself, Bytes.wordAt32_ofUInt32]

/-- Storing the word that is there changes nothing. -/
theorem put_wordAt32 {offset : Nat} (h : offset + 4 ≤ r.bytes.size) :
    r.put offset (Bytes.ofUInt32 ((r.extract offset 4).wordAt32 0)) = r := by
  rw [Bytes.ofUInt32_wordAt32 (length_extract h), put_extract h]

/-! ## The mailbox -/

theorem wordAt32_extract {offset count start : Nat} (hin : offset + count ≤ r.bytes.size)
    (h : start + 4 ≤ count) :
    (r.extract offset count).wordAt32 start = (r.extract (offset + start) 4).wordAt32 0 := by
  have hself : Bytes.slice (r.extract (offset + start) 4) 0 4 = r.extract (offset + start + 0) 4 :=
    slice_extract (by omega) (Nat.le_refl _)
  unfold Bytes.wordAt32
  rw [slice_extract hin h, hself, Nat.add_zero]

theorem wordAt16_extract {offset count start : Nat} (hin : offset + count ≤ r.bytes.size)
    (h : start + 2 ≤ count) :
    (r.extract offset count).wordAt16 start = (r.extract (offset + start) 2).wordAt16 0 := by
  have hself : Bytes.slice (r.extract (offset + start) 2) 0 2 = r.extract (offset + start + 0) 2 :=
    slice_extract (by omega) (Nat.le_refl _)
  unfold Bytes.wordAt16
  rw [slice_extract hin h, hself, Nat.add_zero]

/-- The mailbox that the first bytes spell. -/
def shown (r : Region) : Mailbox where
  version := (r.extract 0 2).wordAt16 0
  flags := (r.extract 2 2).wordAt16 0
  ringOffset := (r.extract 4 4).wordAt32 0
  ringSize := (r.extract 8 4).wordAt32 0
  head := (r.extract Mailbox.headOffset 4).wordAt32 0
  tail := (r.extract Mailbox.tailOffset 4).wordAt32 0

theorem mailbox_eq_ok {m : Mailbox} :
    r.mailbox = .ok m ↔ Mailbox.size ≤ r.length ∧ r.shown = m := by
  unfold mailbox
  split
  · rename_i e he
    refine ⟨fun h => absurd h (by simp), fun h => ?_⟩
    rw [read_eq_ok.mpr ⟨by omega, rfl⟩] at he
    exact absurd he (by simp)
  · rename_i raw hraw
    obtain ⟨hin, rfl⟩ := read_eq_ok.mp hraw
    have hsize : 0 + 68 ≤ r.bytes.size := Nat.le_trans hin r.length_le_size
    -- a field of the bytes that were read is a stretch of the memory
    have hdecode : Mailbox.decode (r.extract 0 Mailbox.size) = .ok r.shown := by
      unfold Mailbox.decode Mailbox.size Mailbox.headOffset Mailbox.tailOffset
      rw [if_neg (by rw [length_extract hsize]; decide), wordAt16_extract hsize (by decide),
        wordAt16_extract hsize (by decide), wordAt32_extract hsize (by decide),
        wordAt32_extract hsize (by decide), wordAt32_extract hsize (by decide),
        wordAt32_extract hsize (by decide)]
      rfl
    rw [hdecode, Except.ok.injEq]
    exact ⟨fun h => ⟨by omega, h⟩, fun h => h.2⟩

theorem load_headOffset (h : Mailbox.size ≤ r.length) :
    r.load Mailbox.headOffset = .ok r.shown.head :=
  load_eq_ok.mpr ⟨Nat.le_trans (by decide) h, rfl, rfl⟩

theorem load_tailOffset (h : Mailbox.size ≤ r.length) :
    r.load Mailbox.tailOffset = .ok r.shown.tail :=
  load_eq_ok.mpr ⟨Nat.le_trans (by decide) h, rfl, rfl⟩

/-- Memories with the same words about the ring and the same cursors show the same mailbox, but for its version and
its flags. -/
theorem shown_agree (hr : Mailbox.size ≤ r.bytes.size) (hs : Mailbox.size ≤ s.bytes.size)
    (hring : ∀ i, 4 ≤ i → i < 16 → r.byte i = s.byte i)
    (htail : ∀ i, 64 ≤ i → i < 68 → r.byte i = s.byte i) :
    r.shown = { s.shown with version := r.shown.version, flags := r.shown.flags } := by
  unfold Mailbox.size at hr hs
  have hoffset : r.extract 4 4 = s.extract 4 4 :=
    extract_agree (by omega) (by omega) fun i hlo hhi => hring i (by omega) (by omega)
  have hsize : r.extract 8 4 = s.extract 8 4 :=
    extract_agree (by omega) (by omega) fun i hlo hhi => hring i (by omega) (by omega)
  have hhead : r.extract 12 4 = s.extract 12 4 :=
    extract_agree (by omega) (by omega) fun i hlo hhi => hring i (by omega) (by omega)
  have hcursor : r.extract 64 4 = s.extract 64 4 :=
    extract_agree (by omega) (by omega) htail
  unfold shown Mailbox.headOffset Mailbox.tailOffset
  rw [hoffset, hsize, hhead, hcursor]

/-- A write behind the mailbox is not seen in it. -/
theorem shown_put_of_behind {offset : Nat} {data : Bytes} (h : Mailbox.size ≤ offset) :
    (r.put offset data).shown = r.shown := by
  unfold Mailbox.size at h
  unfold shown Mailbox.headOffset Mailbox.tailOffset
  -- all six fields lie before the write
  rw [extract_put_of_disjoint (by omega), extract_put_of_disjoint (by omega),
    extract_put_of_disjoint (by omega), extract_put_of_disjoint (by omega),
    extract_put_of_disjoint (by omega), extract_put_of_disjoint (by omega)]

theorem shown_put_head {v : UInt32} (hsize : Mailbox.size ≤ r.bytes.size) :
    (r.put Mailbox.headOffset (Bytes.ofUInt32 v)).shown = { r.shown with head := v } := by
  have hlen := Bytes.length_ofUInt32 v
  unfold Mailbox.size at hsize
  unfold shown
  -- the field itself, and then the five that do not meet it
  rw [wordAt32_put (by unfold Mailbox.headOffset; omega)]
  unfold Mailbox.headOffset Mailbox.tailOffset
  rw [extract_put_of_disjoint (by omega), extract_put_of_disjoint (by omega),
    extract_put_of_disjoint (by omega), extract_put_of_disjoint (by omega),
    extract_put_of_disjoint (by omega)]

theorem shown_put_tail {v : UInt32} (hsize : Mailbox.size ≤ r.bytes.size) :
    (r.put Mailbox.tailOffset (Bytes.ofUInt32 v)).shown = { r.shown with tail := v } := by
  have hlen := Bytes.length_ofUInt32 v
  unfold Mailbox.size at hsize
  unfold shown
  rw [wordAt32_put (by unfold Mailbox.tailOffset; omega)]
  unfold Mailbox.headOffset Mailbox.tailOffset
  rw [extract_put_of_disjoint (by omega), extract_put_of_disjoint (by omega),
    extract_put_of_disjoint (by omega), extract_put_of_disjoint (by omega),
    extract_put_of_disjoint (by omega)]

end CommandRing.Region
