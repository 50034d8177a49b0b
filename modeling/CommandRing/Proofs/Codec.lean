import CommandRing.Entry
import Mathlib.Data.List.GetD

/-!
# Reading back what was written

A structure is written as an image over the front of a buffer, so what stands behind it cannot matter:
each law below is about an image followed by any bytes. Words come first; a header is three of them,
and the rest of a response is bytes that are copied as they are.

A header's length and opcode share one word, which keeps a multiple of eight and three bits.
`Header.normal` is what is left of a header after that.
-/

namespace CommandRing

namespace Bytes

/-! ## Slices of a concatenation -/

theorem slice_append_left {a b : Bytes} {offset n : Nat} (h : offset + n ≤ a.length) :
    (a ++ b).slice offset n = a.slice offset n := by
  unfold slice
  rw [List.drop_append_of_le_length (by omega), List.take_append_of_le_length]
  rw [List.length_drop]
  omega

theorem slice_append_right {a b : Bytes} {offset n : Nat} (h : a.length ≤ offset) :
    (a ++ b).slice offset n = b.slice (offset - a.length) n := by
  unfold slice
  rw [List.drop_append, List.drop_eq_nil_of_le h, List.nil_append]

theorem slice_zero_length (b : Bytes) : b.slice 0 b.length = b := by
  unfold slice
  rw [List.drop_zero, List.take_length]

theorem byteAt_append_left {a b : Bytes} {i : Nat} (h : i < a.length) :
    (a ++ b).byteAt i = a.byteAt i := by
  unfold byteAt
  rw [List.getD_append _ _ _ _ h]

theorem byteAt_append_right {a b : Bytes} {i : Nat} (h : a.length ≤ i) :
    (a ++ b).byteAt i = b.byteAt (i - a.length) := by
  unfold byteAt
  rw [List.getD_append_right _ _ _ _ h]

theorem byteAt_take {b : Bytes} {i n : Nat} (h : i < n) : byteAt (b.take n) i = b.byteAt i := by
  unfold byteAt
  rw [List.getD_eq_getElem?_getD, List.getD_eq_getElem?_getD, List.getElem?_take_of_lt h]

theorem byteAt_zeros (count i : Nat) : (zeros count).byteAt i = 0 := by
  unfold byteAt zeros
  rw [List.getD_eq_getElem?_getD, List.getElem?_replicate]
  split <;> rfl

theorem slice_take {b : Bytes} {offset count n : Nat} (h : offset + count ≤ n) :
    slice (b.take n) offset count = b.slice offset count := by
  unfold slice
  rw [List.drop_take, List.take_take, Nat.min_eq_left (by omega)]

theorem fit_of_length {b : Bytes} {n : Nat} (h : b.length = n) : fit n b = b := by
  subst h
  unfold fit zeros
  rw [List.take_length, Nat.sub_self, List.replicate_zero, List.append_nil]

/-! ## Words -/

theorem wordAt16_ofUInt16_append (v : UInt16) (b : Bytes) : (ofUInt16 v ++ b).wordAt16 0 = v := by
  have hlen : (ofUInt16 v).length = 2 := length_ofUInt16 v
  have hself : (ofUInt16 v).slice 0 2 = ofUInt16 v := by
    rw [← hlen, slice_zero_length]
  unfold wordAt16
  rw [slice_append_left (by omega), hself]
  refine UInt16.toNat_inj.mp ?_
  rw [ofUInt16, toNat_ofNat, UInt16.toNat_ofNat', Nat.mod_eq_of_lt (a := v.toNat % Nat.pow 256 2)]
  · exact Nat.mod_eq_of_lt v.toNat_lt
  · exact Nat.mod_lt _ (by decide)

theorem wordAt32_ofUInt32_append (v : UInt32) (b : Bytes) : (ofUInt32 v ++ b).wordAt32 0 = v := by
  have hlen : (ofUInt32 v).length = 4 := length_ofUInt32 v
  have hself : (ofUInt32 v).slice 0 4 = ofUInt32 v := by
    rw [← hlen, slice_zero_length]
  unfold wordAt32
  rw [slice_append_left (by omega), hself]
  refine UInt32.toNat_inj.mp ?_
  rw [ofUInt32, toNat_ofNat, UInt32.toNat_ofNat', Nat.mod_eq_of_lt (a := v.toNat % Nat.pow 256 4)]
  · exact Nat.mod_eq_of_lt v.toNat_lt
  · exact Nat.mod_lt _ (by decide)

theorem wordAt32_ofUInt32 (v : UInt32) : (ofUInt32 v).wordAt32 0 = v := by
  have h := wordAt32_ofUInt32_append v []
  rwa [List.append_nil] at h

theorem ofUInt32_wordAt32 {b : Bytes} (h : b.length = 4) : ofUInt32 (b.wordAt32 0) = b := by
  have hself : b.slice 0 4 = b := by rw [← h, slice_zero_length]
  have hlt := toNat_lt b
  rw [h] at hlt
  unfold ofUInt32 wordAt32
  rw [hself, UInt32.toNat_ofNat', Nat.mod_eq_of_lt (by simpa using hlt), ← h]
  exact ofNat_toNat b

end Bytes

/-! ## Headers -/

theorem Opcode.ofCode_code_add (op : Opcode) (n : Nat) :
    Opcode.ofCode (n * 8 + op.code) = Opcode.ofCode op.code := by
  unfold ofCode
  rw [show (n * 8 + op.code) % 8 = op.code % 8 by omega]

namespace Header

/-- What eight bytes keep of a header: a multiple of eight, and one of eight opcodes. -/
def normal (h : Header) : Header :=
  { h with
    length := UInt32.ofNat (h.length.toNat / 8 * 8)
    opcode := Opcode.ofCode h.opcode.code }

theorem toNat_packedLength (h : Header) :
    h.packedLength.toNat = h.length.toNat / 8 * 8 + h.opcode.code := by
  have hlt := h.length.toNat_lt
  have hcode := h.opcode.code_lt
  unfold packedLength
  rw [UInt32.toNat_ofNat', Nat.mod_eq_of_lt (by omega)]

/-- Only the first eight bytes matter. -/
theorem ofBytes_take {b : Bytes} {n : Nat} (h : size ≤ n) : ofBytes (b.take n) = ofBytes b := by
  unfold size at h
  unfold ofBytes Bytes.wordAt32 Bytes.wordAt16
  rw [Bytes.slice_take (by omega), Bytes.slice_take (by omega), Bytes.byteAt_take (by omega),
    Bytes.byteAt_take (by omega)]

/-- **A header reads back as its normal form**, whatever follows it. -/
theorem ofBytes_image (h : Header) (rest : Bytes) : ofBytes (h.image ++ rest) = h.normal := by
  have hw := toNat_packedLength h
  have hcode := h.opcode.code_lt
  have hword : (h.image ++ rest).wordAt32 0 = h.packedLength := by
    unfold image
    simp only [List.append_assoc]
    exact Bytes.wordAt32_ofUInt32_append _ _
  have hid : (h.image ++ rest).wordAt16 4 = h.id := by
    have hlen : (Bytes.ofUInt32 h.packedLength).length = 4 := Bytes.length_ofUInt32 _
    unfold image Bytes.wordAt16
    simp only [List.append_assoc]
    rw [Bytes.slice_append_right (by omega), hlen]
    exact Bytes.wordAt16_ofUInt16_append _ _
  -- the two bytes of flags are what is left, one after the other
  have hflags : ∀ i, i < 2 →
      (h.image ++ rest).byteAt (6 + i) = Bytes.byteAt [h.kernelFlags, h.userFlags] i := by
    intro i hi
    have hlen : (Bytes.ofUInt32 h.packedLength ++ Bytes.ofUInt16 h.id).length = 6 := by
      rw [List.length_append, Bytes.length_ofUInt32, Bytes.length_ofUInt16]
    unfold image
    rw [List.append_assoc, Bytes.byteAt_append_right (by omega), hlen, Nat.add_sub_cancel_left]
    exact Bytes.byteAt_append_left (by simpa using hi)
  have hk := hflags 0 (by decide)
  have hu := hflags 1 (by decide)
  unfold ofBytes normal
  dsimp only
  rw [hword, hid, hk, hu, hw, Nat.mul_comm (h.length.toNat / 8) 8, Nat.mul_add_div (by decide),
    Nat.div_eq_of_lt hcode, Nat.add_zero, Nat.mul_comm 8, Opcode.ofCode_code_add]
  rfl

end Header

/-! ## Responses -/

namespace Response

/-- What a slot keeps of a response. -/
def normal (layout : Layout) (r : Response) : Response :=
  { r with
    header := r.header.normal
    sense := Bytes.fit layout.senseSize r.sense }

/-- **A response reads back as its normal form**, whatever follows it. -/
theorem decode_image (layout : Layout) (r : Response) (rest : Bytes) :
    decode layout (r.image layout ++ rest) = .ok (r.normal layout) := by
  have hlen := length_image layout r
  have hheader : Header.ofBytes (r.image layout ++ rest) = r.header.normal := by
    unfold image
    simp only [List.append_assoc]
    exact Header.ofBytes_image _ _
  have hstatus : (r.image layout ++ rest).byteAt 8 = r.status := by
    have hh : r.header.image.length = 8 := Header.length_image _
    unfold image
    simp only [List.append_assoc]
    rw [Bytes.byteAt_append_right (by omega), hh]
    rfl
  -- the sense data comes right behind the fixed part, and is as long as the layout says
  have hsense : (r.image layout ++ rest).slice Layout.responseBase layout.senseSize
      = Bytes.fit layout.senseSize r.sense := by
    have hfront : (r.header.image ++ [r.status] ++ Bytes.zeros 7).length = Layout.responseBase := by
      simp only [List.length_append, Header.length_image, Header.size, List.length_cons,
        List.length_nil, Bytes.length_zeros, Layout.responseBase]
    have hfit := Bytes.length_fit layout.senseSize r.sense
    unfold image
    rw [List.append_assoc, Bytes.slice_append_right (by omega), hfront, Nat.sub_self,
      Bytes.slice_append_left (by omega)]
    have hself := Bytes.slice_zero_length (Bytes.fit layout.senseSize r.sense)
    rwa [hfit] at hself
  have hroom : ¬ (r.image layout ++ rest).length < layout.responseSize := by
    rw [List.length_append]
    omega
  unfold decode
  rw [if_neg hroom, hheader, hstatus, hsense]
  rfl

theorem header_of_decode {layout : Layout} {b : Bytes} {r : Response}
    (h : decode layout b = .ok r) : r.header = Header.ofBytes b := by
  unfold decode at h
  split at h
  · exact absurd h (by simp)
  · injection h with h
    rw [← h]

/-- What a kernel writes is in normal form already. -/
theorem normal_answering (layout : Layout) (id : CommandId) (status : UInt8) (sense : Bytes) :
    (answering layout id status sense).normal layout = answering layout id status sense := by
  have hlength : UInt32.ofNat ((UInt32.ofNat layout.slotSize).toNat / 8 * 8)
      = UInt32.ofNat layout.slotSize := by
    refine UInt32.toNat_inj.mp ?_
    simp only [UInt32.toNat_ofNat', Layout.slotSize, alignUp, entryAlignment]
    omega
  have hfit := Bytes.length_fit layout.senseSize sense
  unfold normal Header.normal answering
  simp only [hlength, Bytes.fit_of_length hfit]
  rfl

end Response

end CommandRing
