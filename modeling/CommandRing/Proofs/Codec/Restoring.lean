import CommandRing.Mailbox
import CommandRing.Proofs.Codec.RoundTrip

/-!
# What is read can be written back

Reading loses nothing but the reserved bytes. Whoever writes back over the same bytes what was read from them
changes nothing, except that reserved bytes become zero. So what was read says of all other bytes of the structure
what they were, and two readings agree exactly if these bytes do.

`Restores` says this of any structure. It comes from two facts: the image of what was read is the front of the
buffer with its reserved bytes cleared, and that image reads back (`Spells`). The second one is a matter of normal
forms, since what was read is in normal form. The first one puts every field back where it was read, so it is
shown slice by slice.
-/

namespace CommandRing

namespace Bytes

/-! ## Clearing reserved bytes -/

/-- The same bytes, but zeros where they are reserved. -/
def clear (reserved : Nat → Bool) (b : Bytes) : Bytes :=
  b.mapIdx fun i x => if reserved i then 0 else x

variable {reserved : Nat → Bool}

@[simp] theorem length_clear (b : Bytes) : (b.clear reserved).length = b.length := List.length_mapIdx

theorem getElem?_clear (b : Bytes) (i : Nat) :
    (b.clear reserved)[i]? = b[i]?.map fun x => if reserved i then 0 else x := List.getElem?_mapIdx

theorem clear_append (a b : Bytes) :
    clear reserved (a ++ b) = a.clear reserved ++ b.clear fun i => reserved (i + a.length) :=
  List.mapIdx_append

theorem clear_of_free {b : Bytes} (h : ∀ i < b.length, reserved i = false) : b.clear reserved = b := by
  refine List.ext_getElem? ?_
  intro i
  rw [getElem?_clear]
  rcases Nat.lt_or_ge i b.length with hi | hi
  · rw [h i hi]
    exact Option.map_id'
  · rw [List.getElem?_eq_none hi]
    rfl

theorem clear_of_reserved {b : Bytes} (h : ∀ i < b.length, reserved i = true) :
    b.clear reserved = zeros b.length := by
  refine List.ext_getElem? ?_
  intro i
  unfold zeros
  rw [getElem?_clear, List.getElem?_replicate]
  rcases Nat.lt_or_ge i b.length with hi | hi
  · rw [if_pos hi, h i hi, List.getElem?_eq_getElem hi]
    rfl
  · rw [if_neg (by omega), List.getElem?_eq_none hi]
    rfl

/-! ## Slices that are written back -/

theorem length_slice {b : Bytes} {offset count : Nat} (h : offset + count ≤ b.length) :
    (b.slice offset count).length = count := by
  unfold slice
  rw [List.length_take, List.length_drop]
  omega

theorem slice_append_slice (b : Bytes) (offset m n : Nat) :
    b.slice offset m ++ b.slice (offset + m) n = b.slice offset (m + n) := by
  unfold slice
  rw [List.take_add, List.drop_drop]

theorem take_append_slice (b : Bytes) (m n : Nat) : b.take m ++ b.slice m n = b.take (m + n) := by
  unfold slice
  rw [List.take_add]

theorem ofNat_toNat_slice {b : Bytes} {offset width : Nat} (h : offset + width ≤ b.length) :
    ofNat width (toNat (b.slice offset width)) = b.slice offset width := by
  have hword := ofNat_toNat (b.slice offset width)
  rwa [length_slice h] at hword

theorem toNat_slice_lt {b : Bytes} {offset width : Nat} (h : offset + width ≤ b.length) :
    toNat (b.slice offset width) < Nat.pow 256 width := by
  have hlt := toNat_lt (b.slice offset width)
  rwa [length_slice h] at hlt

theorem ofUInt16_wordAt16 {b : Bytes} {offset : Nat} (h : offset + 2 ≤ b.length) :
    ofUInt16 (b.wordAt16 offset) = b.slice offset 2 := by
  have hlt := toNat_slice_lt h
  unfold ofUInt16 wordAt16
  rw [UInt16.toNat_ofNat', Nat.mod_eq_of_lt hlt, ofNat_toNat_slice h]

theorem ofNat_wordAt32 {b : Bytes} {offset : Nat} (h : offset + 4 ≤ b.length) :
    ofNat 4 (b.wordAt32 offset).toNat = b.slice offset 4 := by
  have hlt := toNat_slice_lt h
  unfold wordAt32
  rw [UInt32.toNat_ofNat', Nat.mod_eq_of_lt hlt, ofNat_toNat_slice h]

theorem ofUInt64_wordAt64 {b : Bytes} {offset : Nat} (h : offset + 8 ≤ b.length) :
    ofUInt64 (b.wordAt64 offset) = b.slice offset 8 := by
  have hlt := toNat_slice_lt h
  unfold ofUInt64 wordAt64
  rw [UInt64.toNat_ofNat', Nat.mod_eq_of_lt hlt, ofNat_toNat_slice h]

theorem byteAt_eq_slice {b : Bytes} {offset : Nat} (h : offset + 1 ≤ b.length) :
    [b.byteAt offset] = b.slice offset 1 := by
  unfold slice byteAt
  rw [List.drop_eq_getElem_cons h, List.take_succ_cons, List.take_zero,
    List.getD_eq_getElem b 0 h]

theorem clear_take (b : Bytes) {m : Nat} (n : Nat) (hm : m ≤ b.length) :
    clear reserved (b.take (m + n))
      = clear reserved (b.take m) ++ clear (fun i => reserved (i + m)) (b.slice m n) := by
  rw [← take_append_slice, clear_append, List.length_take, Nat.min_eq_left hm]

/-- A front of the bytes grows by a field. -/
theorem clear_take_free {b : Bytes} {m n : Nat} (h : m + n ≤ b.length)
    (hfree : ∀ i, m ≤ i → i < m + n → reserved i = false) :
    clear reserved (b.take (m + n)) = clear reserved (b.take m) ++ b.slice m n := by
  rw [clear_take b n (by omega), clear_of_free (b := b.slice m n)]
  intro i hi
  rw [length_slice h] at hi
  exact hfree _ (by omega) (by omega)

/-- A front of the bytes grows by reserved bytes. -/
theorem clear_take_reserved {b : Bytes} {m n : Nat} (h : m + n ≤ b.length)
    (hall : ∀ i, m ≤ i → i < m + n → reserved i = true) :
    clear reserved (b.take (m + n)) = clear reserved (b.take m) ++ zeros n := by
  rw [clear_take b n (by omega), clear_of_reserved (b := b.slice m n), length_slice h]
  intro i hi
  rw [length_slice h] at hi
  exact hall _ (by omega) (by omega)

/-- A field is read as before once reserved bytes are cleared, and others put behind the structure. -/
theorem slice_clear_take {b : Bytes} {size offset count : Nat} (rest : Bytes) (hsize : size ≤ b.length)
    (hin : offset + count ≤ size)
    (hfree : ∀ i, offset ≤ i → i < offset + count → reserved i = false) :
    slice (clear reserved (b.take size) ++ rest) offset count = b.slice offset count := by
  have hlen : (b.take size).length = size := by rw [List.length_take, Nat.min_eq_left hsize]
  rw [slice_append_left (by rw [length_clear]; omega)]
  unfold slice
  refine List.ext_getElem? ?_
  intro i
  rcases Nat.lt_or_ge i count with hi | hi
  · rw [List.getElem?_take_of_lt hi, List.getElem?_take_of_lt hi, List.getElem?_drop,
      List.getElem?_drop, getElem?_clear, List.getElem?_take_of_lt (by omega),
      hfree _ (by omega) (by omega)]
    exact Option.map_id'
  · rw [List.getElem?_eq_none (by rw [List.length_take]; omega),
      List.getElem?_eq_none (by rw [List.length_take]; omega)]

end Bytes

/-! ## Structures with reserved bytes -/

section

variable {α : Type} (size : α → Nat) (reserved : Nat → Bool)
  (encode : α → Bytes → Except Error Bytes) (decode : Bytes → Except Error α)

/-- Writing undoes reading up to the reserved bytes, where `size` says how long a structure is. -/
structure Restores : Prop where
  /-- What was read can be written over the same bytes, and clears the reserved ones and nothing else. -/
  encode_decode : ∀ {b : Bytes} {a : α}, decode b = .ok a → encode a b = .ok (b.clear reserved)
  /-- What is written then reads as before. -/
  decode_clear : ∀ {b : Bytes} {a : α}, decode b = .ok a → decode (b.clear reserved) = .ok a
  /-- The same is read exactly if all bytes of the structure agree that are not reserved. -/
  eq_iff : ∀ {b b' : Bytes} {a a' : α}, decode b = .ok a → decode b' = .ok a' →
    (a = a' ↔ ∀ i < size a, reserved i = false → b[i]? = b'[i]?)

/-- What is read is spelled by the front of the buffer. The reserved bytes lie among the first `base`, which are
there whenever something is read. -/
structure Spells (image : α → Bytes) (base : Nat) : Prop where
  encode_eq : ∀ a b, encode a b = b.overwrite (image a)
  base_le : ∀ a, base ≤ (image a).length
  length_image : ∀ a, (image a).length = size a
  free : ∀ i, base ≤ i → reserved i = false
  length_le : ∀ {b : Bytes} {a : α}, decode b = .ok a → base ≤ b.length
  image_eq : ∀ {b : Bytes} {a : α}, decode b = .ok a → image a = Bytes.clear reserved (b.take (size a))
  decode_image : ∀ {b : Bytes} {a : α}, decode b = .ok a → ∀ rest, decode (image a ++ rest) = .ok a

end

namespace Spells

variable {α : Type} {size : α → Nat} {reserved : Nat → Bool}
  {encode : α → Bytes → Except Error Bytes} {decode : Bytes → Except Error α}
  {image : α → Bytes} {base : Nat} {b b' : Bytes} {a a' : α}

theorem size_le (h : Spells size reserved encode decode image base) (hb : decode b = .ok a) :
    size a ≤ b.length := by
  have hlen := congrArg List.length (h.image_eq hb)
  rw [h.length_image, Bytes.length_clear, List.length_take] at hlen
  omega

/-- The cleared buffer is the image, and behind it what was there. -/
theorem clear_eq (h : Spells size reserved encode decode image base) (hb : decode b = .ok a) :
    b.clear reserved = image a ++ b.drop (size a) := by
  have hbase := h.base_le a
  have hsize := h.length_image a
  have hle := h.size_le hb
  have hbehind : Bytes.clear (fun i => reserved (i + (b.take (size a)).length)) (b.drop (size a))
      = b.drop (size a) := by
    refine Bytes.clear_of_free ?_
    intro i _
    refine h.free _ ?_
    rw [List.length_take]
    omega
  calc b.clear reserved
      _ = Bytes.clear reserved (b.take (size a) ++ b.drop (size a)) := by rw [List.take_append_drop]
      _ = image a ++ b.drop (size a) := by rw [Bytes.clear_append, hbehind, h.image_eq hb]

theorem restored (h : Spells size reserved encode decode image base) (hb : decode b = .ok a) :
    encode a b = .ok (b.clear reserved) := by
  have hle := h.size_le hb
  rw [h.encode_eq, h.clear_eq hb]
  unfold Bytes.overwrite
  rw [if_neg (by rw [h.length_image]; omega), h.length_image]

theorem decode_cleared (h : Spells size reserved encode decode image base) (hb : decode b = .ok a) :
    decode (b.clear reserved) = .ok a := by
  rw [h.clear_eq hb]
  exact h.decode_image hb _

/-- Where nothing is reserved, the image has the bytes of the buffer. -/
theorem getElem?_image (h : Spells size reserved encode decode image base) (hb : decode b = .ok a)
    {i : Nat} (hi : i < size a) (hfree : reserved i = false) : (image a)[i]? = b[i]? := by
  rw [h.image_eq hb, Bytes.getElem?_clear, List.getElem?_take_of_lt hi, hfree]
  exact Option.map_id'

/-- Buffers that agree where nothing is reserved have the same front once they are cleared. -/
theorem take_clear_eq (h : Spells size reserved encode decode image base) (hb : decode b = .ok a)
    (hb' : decode b' = .ok a') (hsame : ∀ i < size a, reserved i = false → b[i]? = b'[i]?) :
    (Bytes.clear reserved b').take (size a) = image a := by
  rw [h.image_eq hb]
  refine List.ext_getElem? ?_
  intro i
  rcases Nat.lt_or_ge i (size a) with hi | hi
  · rw [List.getElem?_take_of_lt hi, Bytes.getElem?_clear, Bytes.getElem?_clear,
      List.getElem?_take_of_lt hi]
    cases hr : reserved i with
    | false => rw [hsame i hi hr]
    -- both buffers are long enough for the reserved bytes, and these are zero in both
    | true =>
        have hbase : i < base := by
          refine Nat.lt_of_not_le fun hle => ?_
          rw [h.free i hle] at hr
          exact Bool.false_ne_true hr
        have hlen := h.length_le hb
        have hlen' := h.length_le hb'
        rw [List.getElem?_eq_getElem (show i < b.length by omega),
          List.getElem?_eq_getElem (show i < b'.length by omega)]
        rfl
  · have hle := h.size_le hb
    rw [List.getElem?_eq_none (by rw [List.length_take]; omega),
      List.getElem?_eq_none (by rw [Bytes.length_clear, List.length_take]; omega)]

theorem restores (h : Spells size reserved encode decode image base) :
    Restores size reserved encode decode where
  encode_decode := h.restored
  decode_clear := h.decode_cleared
  eq_iff := by
    intro b b' a a' hb hb'
    constructor
    · rintro rfl i hi hfree
      rw [← h.getElem?_image hb hi hfree, h.getElem?_image hb' hi hfree]
    · intro hsame
      have hfront := h.take_clear_eq hb hb' hsame
      have hread := h.decode_cleared hb'
      rw [← List.take_append_drop (size a) (b'.clear reserved), hfront, h.decode_image hb] at hread
      injection hread

end Spells

/-! ## The mailbox -/

namespace Mailbox

/-- The bytes between the two cursors. -/
def reserved (i : Nat) : Bool := decide (16 ≤ i ∧ i < 64)

/-- The mailbox that the first bytes spell. -/
def ofBytes (b : Bytes) : Mailbox where
  version := b.wordAt16 0
  flags := b.wordAt16 2
  ringOffset := b.wordAt32 4
  ringSize := b.wordAt32 8
  head := b.wordAt32 headOffset
  tail := b.wordAt32 tailOffset

theorem decode_eq_ok {b : Bytes} {m : Mailbox} :
    decode b = .ok m ↔ size ≤ b.length ∧ ofBytes b = m := by
  unfold decode
  split
  · exact ⟨fun h => absurd h (by simp), fun h => absurd h.1 (by omega)⟩
  · rw [Except.ok.injEq]
    exact ⟨fun h => ⟨by omega, h⟩, fun h => h.2⟩

/-- A field outside the reserved bytes. -/
theorem free_of_outside {m n : Nat} (hmn : m + n ≤ 16 ∨ 64 ≤ m) :
    ∀ i, m ≤ i → i < m + n → reserved i = false := by
  intro i hm hi
  exact decide_eq_false (by omega)

theorem image_ofBytes {b : Bytes} (h : size ≤ b.length) :
    (ofBytes b).image = Bytes.clear reserved (b.take size) := by
  have hreserved : ∀ i, 16 ≤ i → i < 16 + 48 → reserved i = true := by
    intro i hm hi
    exact decide_eq_true ⟨hm, hi⟩
  unfold size at h
  -- field by field, from the last one to the first
  rw [show size = 64 + 4 from rfl, Bytes.clear_take_free h (free_of_outside (by omega)),
    Bytes.clear_take_reserved (m := 16) (n := 48) (by omega) hreserved,
    Bytes.clear_take_free (m := 12) (n := 4) (by omega) (free_of_outside (by omega)),
    Bytes.clear_take_free (m := 8) (n := 4) (by omega) (free_of_outside (by omega)),
    Bytes.clear_take_free (m := 4) (n := 4) (by omega) (free_of_outside (by omega)),
    Bytes.clear_take_free (m := 2) (n := 2) (by omega) (free_of_outside (by omega)),
    Bytes.clear_take_free (m := 0) (n := 2) (by omega) (free_of_outside (by omega))]
  unfold image ofBytes headOffset tailOffset Bytes.ofUInt32
  dsimp only
  rw [Bytes.ofUInt16_wordAt16 (by omega), Bytes.ofUInt16_wordAt16 (by omega),
    Bytes.ofNat_wordAt32 (by omega), Bytes.ofNat_wordAt32 (by omega),
    Bytes.ofNat_wordAt32 (by omega), Bytes.ofNat_wordAt32 (by omega)]
  rfl

theorem ofBytes_clear {b : Bytes} (h : size ≤ b.length) (rest : Bytes) :
    ofBytes (Bytes.clear reserved (b.take size) ++ rest) = ofBytes b := by
  have hslice : ∀ offset count, offset + count ≤ 68 → offset + count ≤ 16 ∨ 64 ≤ offset →
      Bytes.slice (Bytes.clear reserved (b.take size) ++ rest) offset count = b.slice offset count := by
    intro offset count hin hoffset
    exact Bytes.slice_clear_take rest h hin (free_of_outside hoffset)
  unfold ofBytes Bytes.wordAt16 Bytes.wordAt32 headOffset tailOffset
  rw [hslice 0 2 (by omega) (by omega), hslice 2 2 (by omega) (by omega),
    hslice 4 4 (by omega) (by omega), hslice 8 4 (by omega) (by omega),
    hslice 12 4 (by omega) (by omega), hslice 64 4 (by omega) (by omega)]

theorem spells : Spells (fun _ => size) reserved encode decode image size where
  encode_eq _ _ := rfl
  base_le m := Nat.le_of_eq m.length_image.symm
  length_image := length_image
  free i hi := decide_eq_false (by unfold size at hi; omega)
  length_le h := (decode_eq_ok.mp h).1
  image_eq := by
    intro b m h
    obtain ⟨hlen, rfl⟩ := decode_eq_ok.mp h
    exact image_ofBytes hlen
  decode_image := by
    intro b m h rest
    obtain ⟨hlen, rfl⟩ := decode_eq_ok.mp h
    rw [image_ofBytes hlen]
    refine decode_eq_ok.mpr ⟨?_, ofBytes_clear hlen rest⟩
    rw [List.length_append, Bytes.length_clear, List.length_take]
    omega

end Mailbox

/-! ## Headers -/

namespace Header

theorem decode_eq_ok {b : Bytes} {h : Header} :
    decode b = .ok h ↔ size ≤ b.length ∧ ofBytes b = h := by
  unfold decode
  split
  · exact ⟨fun h => absurd h (by simp), fun h => absurd h.1 (by omega)⟩
  · rw [Except.ok.injEq]
    exact ⟨fun h => ⟨by omega, h⟩, fun h => h.2⟩

theorem packedLength_ofBytes (b : Bytes) : (ofBytes b).packedLength = b.wordAt32 0 := by
  have hlt := (b.wordAt32 0).toNat_lt
  refine UInt32.toNat_inj.mp ?_
  rw [toNat_packedLength]
  unfold ofBytes
  dsimp only
  rw [Opcode.code_ofCode, UInt32.toNat_ofNat']
  omega

theorem image_ofBytes {b : Bytes} (h : size ≤ b.length) : (ofBytes b).image = b.take size := by
  unfold size at h
  have hid : (ofBytes b).id = b.wordAt16 4 := rfl
  have hflags : [(ofBytes b).kernelFlags, (ofBytes b).userFlags] = b.slice 6 1 ++ b.slice 7 1 := by
    rw [← Bytes.byteAt_eq_slice (by omega), ← Bytes.byteAt_eq_slice (by omega)]
    rfl
  unfold image Bytes.ofUInt32
  rw [packedLength_ofBytes, hid, hflags, Bytes.ofNat_wordAt32 (by omega),
    Bytes.ofUInt16_wordAt16 (by omega), Bytes.slice_append_slice b 6 1 1, Bytes.slice_append_slice b 0 4 2,
    Bytes.slice_append_slice b 0 6 2]
  rfl

/-- The header of a larger structure, which has no reserved bytes there. -/
theorem image_ofBytes_clear {reserved : Nat → Bool} {b : Bytes} (h : size ≤ b.length)
    (hfree : ∀ i < size, reserved i = false) :
    (ofBytes b).image = Bytes.clear reserved (b.take size) := by
  rw [image_ofBytes h, Bytes.clear_of_free]
  intro i hi
  rw [List.length_take] at hi
  exact hfree i (by omega)

/-- What was read is in normal form. -/
theorem normal_ofBytes {b : Bytes} (h : size ≤ b.length) : (ofBytes b).normal = ofBytes b := by
  have hread := ofBytes_image (ofBytes b) (b.drop size)
  rwa [image_ofBytes h, List.take_append_drop, eq_comm] at hread

theorem spells : Spells (fun _ => size) (fun _ => false) encode decode image size where
  encode_eq _ _ := rfl
  base_le h := Nat.le_of_eq h.length_image.symm
  length_image := length_image
  free _ _ := rfl
  length_le h := (decode_eq_ok.mp h).1
  image_eq := by
    intro b h hb
    obtain ⟨hlen, rfl⟩ := decode_eq_ok.mp hb
    rw [image_ofBytes hlen, Bytes.clear_of_free fun _ _ => rfl]
  decode_image := by
    intro b h hb rest
    obtain ⟨hlen, rfl⟩ := decode_eq_ok.mp hb
    rw [decode_image, normal_ofBytes hlen]

end Header

/-! ## Responses -/

namespace Response

/-- The bytes behind the status. -/
def reserved (i : Nat) : Bool := decide (9 ≤ i ∧ i < 16)

def ofBytes (layout : Layout) (b : Bytes) : Response where
  header := Header.ofBytes b
  status := b.byteAt 8
  sense := b.slice Layout.responseBase layout.senseSize

variable {layout : Layout}

theorem decode_eq_ok {b : Bytes} {r : Response} :
    decode layout b = .ok r ↔ layout.responseSize ≤ b.length ∧ ofBytes layout b = r := by
  unfold decode
  split
  · exact ⟨fun h => absurd h (by simp), fun h => absurd h.1 (by omega)⟩
  · rw [Except.ok.injEq]
    exact ⟨fun h => ⟨by omega, h⟩, fun h => h.2⟩

theorem image_ofBytes {b : Bytes} (h : layout.responseSize ≤ b.length) :
    (ofBytes layout b).image layout = Bytes.clear reserved (b.take layout.responseSize) := by
  unfold Layout.responseSize Layout.responseBase at h
  have hfree : ∀ m n, m + n ≤ 9 ∨ 16 ≤ m → ∀ i, m ≤ i → i < m + n → reserved i = false := by
    intro m n hmn i hm hi
    exact decide_eq_false (by omega)
  have hreserved : ∀ i, 9 ≤ i → i < 9 + 7 → reserved i = true := by
    intro i hm hi
    exact decide_eq_true ⟨hm, hi⟩
  have hsense : Bytes.fit layout.senseSize (b.slice 16 layout.senseSize) = b.slice 16 layout.senseSize :=
    Bytes.fit_of_length (Bytes.length_slice h)
  have hheader : (Header.ofBytes b).image = Bytes.clear reserved (b.take 8) :=
    Header.image_ofBytes_clear (by unfold Header.size; omega) fun i hi =>
      hfree 0 8 (by omega) i (Nat.zero_le i) (by unfold Header.size at hi; omega)
  rw [show layout.responseSize = 16 + layout.senseSize from rfl,
    Bytes.clear_take_free h (hfree _ _ (by omega)),
    Bytes.clear_take_reserved (m := 9) (n := 7) (by omega) hreserved,
    Bytes.clear_take_free (m := 8) (n := 1) (by omega) (hfree _ _ (by omega)), ← hheader,
    ← Bytes.byteAt_eq_slice (by omega), ← hsense]
  rfl

/-- What was read is in normal form. -/
theorem normal_ofBytes {b : Bytes} (h : layout.responseSize ≤ b.length) :
    (ofBytes layout b).normal layout = ofBytes layout b := by
  unfold Layout.responseSize Layout.responseBase at h
  have hheader := Header.normal_ofBytes (b := b) (by unfold Header.size; omega)
  have hsense := Bytes.fit_of_length (Bytes.length_slice h)
  unfold normal ofBytes Layout.responseBase
  dsimp only
  rw [hheader, hsense]

theorem spells (layout : Layout) : Spells (fun _ => layout.responseSize) reserved (encode layout)
    (decode layout) (image layout) Layout.responseBase where
  encode_eq _ _ := rfl
  base_le r := by
    rw [length_image]
    exact Nat.le_add_right _ _
  length_image := length_image layout
  free i hi := decide_eq_false (by unfold Layout.responseBase at hi; omega)
  length_le h := Nat.le_trans (Nat.le_add_right _ _) (decode_eq_ok.mp h).1
  image_eq := by
    intro b r h
    obtain ⟨hlen, rfl⟩ := decode_eq_ok.mp h
    exact image_ofBytes hlen
  decode_image := by
    intro b r h rest
    obtain ⟨hlen, rfl⟩ := decode_eq_ok.mp h
    rw [decode_image, normal_ofBytes hlen]

end Response

/-! ## Requests -/

namespace Segment

theorem ofNat_toNat_slice (width : PointerWidth) {b : Bytes} {offset : Nat}
    (h : offset + width.bytes ≤ b.length) :
    Bytes.ofNat width.bytes (UInt64.ofNat (Bytes.toNat (b.slice offset width.bytes))).toNat
      = b.slice offset width.bytes := by
  have hlt := Bytes.toNat_slice_lt h
  have hpow : Nat.pow 256 width.bytes ≤ 2 ^ 64 := by cases width <;> decide
  rw [UInt64.toNat_ofNat', Nat.mod_eq_of_lt (by omega), Bytes.ofNat_toNat_slice h]

theorem image_ofBytes (width : PointerWidth) {b : Bytes} (h : 2 * width.bytes ≤ b.length) :
    (ofBytes width b).image width = b.take (2 * width.bytes) := by
  unfold image ofBytes
  dsimp only
  rw [ofNat_toNat_slice width (by omega), ofNat_toNat_slice width (by omega)]
  have htwo := Bytes.slice_append_slice b 0 width.bytes width.bytes
  rw [Nat.zero_add, ← Nat.two_mul] at htwo
  exact htwo

/-- Segments that were read one after the other are written back one after the other. -/
theorem flatMap_listOfBytes (width : PointerWidth) (count : Nat) {b : Bytes}
    (h : count * (2 * width.bytes) ≤ b.length) :
    (listOfBytes width count b).flatMap (image width) = b.take (count * (2 * width.bytes)) := by
  induction count generalizing b with
  | zero => rw [Nat.zero_mul, List.take_zero, listOfBytes, List.flatMap_nil]
  | succ count ih =>
      rw [Nat.succ_mul] at h ⊢
      rw [listOfBytes, List.flatMap_cons, image_ofBytes width (by omega),
        ih (by rw [List.length_drop]; omega), Nat.add_comm, List.take_add]

/-- What was read is in normal form. -/
theorem map_normal_listOfBytes (width : PointerWidth) (count : Nat) {b : Bytes}
    (h : count * (2 * width.bytes) ≤ b.length) :
    (listOfBytes width count b).map (normal width) = listOfBytes width count b := by
  have hread := listOfBytes_flatMap width (listOfBytes width count b)
    (b.drop (count * (2 * width.bytes)))
  rwa [flatMap_listOfBytes width count h, List.take_append_drop, length_listOfBytes, eq_comm] at hread

end Segment

namespace Segments

theorem all_cut (first second : Nat) (l : List Segment) : (cut first second l).all = l := by
  unfold all cut
  dsimp only
  rw [← List.drop_drop, List.append_assoc, List.take_append_drop, List.take_append_drop]

theorem length_cut {first second third : Nat} {l : List Segment} (h : l.length = first + second + third) :
    (cut first second l).data.length = first ∧ (cut first second l).bidirectional.length = second
      ∧ (cut first second l).integrity.length = third := by
  unfold cut
  simp only [List.length_take, List.length_drop]
  omega

theorem normal_cut (width : PointerWidth) (first second : Nat) {l : List Segment}
    (h : l.map (Segment.normal width) = l) :
    (cut first second l).normal width = cut first second l := by
  unfold normal cut
  dsimp only
  rw [List.map_take, List.map_take, List.map_drop, List.map_drop, h]

end Segments

namespace Request

/-- The bytes behind the counts, and those behind the offset of the descriptor block. -/
def reserved (i : Nat) : Bool := decide ((20 ≤ i ∧ i < 24) ∨ (32 ≤ i ∧ i < 48))

/-- The reserved bytes of a request are written as zero. -/
theorem byteAt_reserved (layout : Layout) (r : Request) {i : Nat} (hi : reserved i = true) :
    (r.image layout).byteAt i = 0 := by
  have hcounts : (r.header.image ++ Bytes.ofNat 4 r.segments.data.length
      ++ Bytes.ofNat 4 r.segments.bidirectional.length
      ++ Bytes.ofNat 4 r.segments.integrity.length).length = 20 := by
    simp only [List.length_append, Header.length_image, Header.size, Bytes.length_ofNat]
  have hoffset : (r.header.image ++ Bytes.ofNat 4 r.segments.data.length
      ++ Bytes.ofNat 4 r.segments.bidirectional.length
      ++ Bytes.ofNat 4 r.segments.integrity.length ++ Bytes.zeros 4
      ++ Bytes.ofUInt64 r.cdbOffset).length = 32 := by
    rw [List.length_append, List.length_append, hcounts, Bytes.length_zeros, Bytes.length_ofUInt64]
  have hfixed : (r.header.image ++ Bytes.ofNat 4 r.segments.data.length
      ++ Bytes.ofNat 4 r.segments.bidirectional.length
      ++ Bytes.ofNat 4 r.segments.integrity.length ++ Bytes.zeros 4
      ++ Bytes.ofUInt64 r.cdbOffset ++ Bytes.zeros 16).length = 48 := by
    rw [List.length_append, hoffset, Bytes.length_zeros]
  unfold image
  rcases of_decide_eq_true hi with ⟨hlo, hhi⟩ | ⟨hlo, hhi⟩
  · rw [Bytes.byteAt_append_left (by omega), Bytes.byteAt_append_left (by omega),
      Bytes.byteAt_append_left (by rw [List.length_append, hcounts, Bytes.length_zeros]; omega),
      Bytes.byteAt_append_right (by omega), Bytes.byteAt_zeros]
  · rw [Bytes.byteAt_append_left (by omega), Bytes.byteAt_append_right (by omega), Bytes.byteAt_zeros]

/-- How many segments the counts announce. -/
def announced (b : Bytes) : Nat :=
  (b.wordAt32 8).toNat + (b.wordAt32 12).toNat + (b.wordAt32 16).toNat

def ofBytes (layout : Layout) (b : Bytes) : Request where
  header := Header.ofBytes b
  cdbOffset := b.wordAt64 24
  segments := Segments.cut (b.wordAt32 8).toNat (b.wordAt32 12).toNat
    (Segment.listOfBytes layout.pointerWidth (announced b) (b.drop Layout.requestBase))

variable {layout : Layout}

theorem decode_eq_ok {b : Bytes} {r : Request} :
    decode layout b = .ok r ↔ layout.requestSize (announced b) ≤ b.length ∧ ofBytes layout b = r := by
  have hbase : Layout.requestBase ≤ layout.requestSize (announced b) := Nat.le_add_right _ _
  unfold announced at hbase
  unfold decode announced
  dsimp only
  split
  · exact ⟨fun h => absurd h (by simp), fun h => absurd h.1 (by omega)⟩
  · split
    · exact ⟨fun h => absurd h (by simp), fun h => absurd h.1 (by omega)⟩
    · rw [Except.ok.injEq]
      exact ⟨fun h => ⟨by omega, h⟩, fun h => h.2⟩

theorem count_ofBytes (layout : Layout) (b : Bytes) :
    (ofBytes layout b).segments.count = announced b := by
  unfold ofBytes
  dsimp only
  rw [← Segments.length_all, Segments.all_cut, Segment.length_listOfBytes]

theorem length_ofBytes (layout : Layout) (b : Bytes) :
    (ofBytes layout b).segments.data.length = (b.wordAt32 8).toNat
      ∧ (ofBytes layout b).segments.bidirectional.length = (b.wordAt32 12).toNat
      ∧ (ofBytes layout b).segments.integrity.length = (b.wordAt32 16).toNat :=
  Segments.length_cut (Segment.length_listOfBytes _ _ _)

theorem countable_ofBytes (layout : Layout) (b : Bytes) : (ofBytes layout b).Countable := by
  obtain ⟨hdata, hbidirectional, hintegrity⟩ := length_ofBytes layout b
  refine ⟨?_, ?_, ?_⟩
  · rw [hdata]
    exact UInt32.toNat_lt _
  · rw [hbidirectional]
    exact UInt32.toNat_lt _
  · rw [hintegrity]
    exact UInt32.toNat_lt _

/-- The announced segments are there, behind the fixed part. -/
theorem segments_le {b : Bytes} (h : layout.requestSize (announced b) ≤ b.length) :
    announced b * (2 * layout.pointerWidth.bytes) ≤ (b.drop Layout.requestBase).length := by
  unfold Layout.requestSize Layout.segmentSize at h
  rw [List.length_drop]
  omega

theorem image_ofBytes {b : Bytes} (h : layout.requestSize (announced b) ≤ b.length) :
    (ofBytes layout b).image layout
      = Bytes.clear reserved (b.take (layout.requestSize (announced b))) := by
  have hsegments : (ofBytes layout b).segments.all.flatMap (Segment.image layout.pointerWidth)
      = b.slice 48 (announced b * layout.segmentSize) := by
    unfold ofBytes
    dsimp only
    rw [Segments.all_cut, Segment.flatMap_listOfBytes _ _ (segments_le h)]
    rfl
  obtain ⟨hdata, hbidirectional, hintegrity⟩ := length_ofBytes layout b
  have hlen : 48 + announced b * layout.segmentSize ≤ b.length := h
  have hfree : ∀ m n, m + n ≤ 20 ∨ (24 ≤ m ∧ m + n ≤ 32) ∨ 48 ≤ m →
      ∀ i, m ≤ i → i < m + n → reserved i = false := by
    intro m n hmn i hm hi
    exact decide_eq_false (by omega)
  have hcounts : ∀ i, 20 ≤ i → i < 20 + 4 → reserved i = true := by
    intro i hm hi
    exact decide_eq_true (Or.inl ⟨hm, hi⟩)
  have hoffset : ∀ i, 32 ≤ i → i < 32 + 16 → reserved i = true := by
    intro i hm hi
    exact decide_eq_true (Or.inr ⟨hm, hi⟩)
  have hheader : (ofBytes layout b).header.image = Bytes.clear reserved (b.take 8) :=
    Header.image_ofBytes_clear (by unfold Header.size; omega) fun i hi =>
      hfree 0 8 (by omega) i (Nat.zero_le i) (by unfold Header.size at hi; omega)
  have hcdb : Bytes.ofUInt64 (b.wordAt64 24) = b.slice 24 8 := Bytes.ofUInt64_wordAt64 (by omega)
  rw [show layout.requestSize (announced b) = 48 + announced b * layout.segmentSize from rfl,
    Bytes.clear_take_free hlen (hfree _ _ (by omega)),
    Bytes.clear_take_reserved (m := 32) (n := 16) (by omega) hoffset,
    Bytes.clear_take_free (m := 24) (n := 8) (by omega) (hfree _ _ (by omega)),
    Bytes.clear_take_reserved (m := 20) (n := 4) (by omega) hcounts,
    Bytes.clear_take_free (m := 16) (n := 4) (by omega) (hfree _ _ (by omega)),
    Bytes.clear_take_free (m := 12) (n := 4) (by omega) (hfree _ _ (by omega)),
    Bytes.clear_take_free (m := 8) (n := 4) (by omega) (hfree _ _ (by omega)), ← hheader]
  unfold image
  rw [hdata, hbidirectional, hintegrity, hsegments, Bytes.ofNat_wordAt32 (by omega),
    Bytes.ofNat_wordAt32 (by omega), Bytes.ofNat_wordAt32 (by omega), ← hcdb]
  rfl

/-- What was read is in normal form. -/
theorem normal_ofBytes {b : Bytes} (h : layout.requestSize (announced b) ≤ b.length) :
    (ofBytes layout b).normal layout = ofBytes layout b := by
  have hlen : 48 + announced b * layout.segmentSize ≤ b.length := h
  have hheader := Header.normal_ofBytes (b := b) (by unfold Header.size; omega)
  have hsegments := Segment.map_normal_listOfBytes layout.pointerWidth _ (segments_le h)
  unfold normal ofBytes
  dsimp only
  rw [hheader, Segments.normal_cut _ _ _ hsegments]

theorem spells (layout : Layout) : Spells (size layout) reserved (encode layout) (decode layout)
    (image layout) Layout.requestBase where
  encode_eq _ _ := rfl
  base_le r := by
    rw [length_image]
    exact Nat.le_add_right _ _
  length_image := length_image layout
  free i hi := decide_eq_false (by unfold Layout.requestBase at hi; omega)
  length_le h := Nat.le_trans (Nat.le_add_right _ _) (decode_eq_ok.mp h).1
  image_eq := by
    intro b r h
    obtain ⟨hlen, rfl⟩ := decode_eq_ok.mp h
    unfold size
    rw [count_ofBytes, image_ofBytes hlen]
  decode_image := by
    intro b r h rest
    obtain ⟨hlen, rfl⟩ := decode_eq_ok.mp h
    rw [decode_image layout (countable_ofBytes layout b), normal_ofBytes hlen]

end Request

/--
**Writing undoes reading up to the reserved bytes**, for a mailbox, for a header, which has none, for a request and
for a response. Whatever bytes are read, what was read can be written over them and then changes nothing, except
that reserved bytes become zero; the same is read from them again; and from two buffers the same is read exactly if
they agree on all bytes of the structure that are not reserved.
-/
theorem restored_up_to_reserved (layout : Layout) :
    Restores (fun _ => Mailbox.size) Mailbox.reserved Mailbox.encode Mailbox.decode
      ∧ Restores (fun _ => Header.size) (fun _ => false) Header.encode Header.decode
      ∧ Restores (Request.size layout) Request.reserved (Request.encode layout) (Request.decode layout)
      ∧ Restores (fun _ => layout.responseSize) Response.reserved (Response.encode layout)
        (Response.decode layout) :=
  ⟨Mailbox.spells.restores, Header.spells.restores, (Request.spells layout).restores,
    (Response.spells layout).restores⟩

/-- A request with one segment of a 32-bit layout, and some byte behind it. All its reserved bytes are in use. -/
def dirtyRequest : Bytes :=
  [57, 0, 0, 0, 1, 2, 3, 4] ++ [1, 0, 0, 0] ++ Bytes.zeros 8 ++ [9, 9, 9, 9] ++ [0, 1, 2, 3, 4, 5, 6, 7]
    ++ List.replicate 16 255 ++ [8, 7, 6, 5, 4, 3, 2, 1, 255]

/-- What is read from it clears those bytes when it is written back. -/
theorem restored_dirtyRequest :
    ∃ r, Request.decode { pointerWidth := .bits32 } dirtyRequest = .ok r
      ∧ r.encode { pointerWidth := .bits32 } dirtyRequest
        = .ok ([57, 0, 0, 0, 1, 2, 3, 4] ++ [1, 0, 0, 0] ++ Bytes.zeros 12 ++ [0, 1, 2, 3, 4, 5, 6, 7]
          ++ Bytes.zeros 16 ++ [8, 7, 6, 5, 4, 3, 2, 1, 255]) := by
  obtain ⟨_, _, hrequest, _⟩ := restored_up_to_reserved { pointerWidth := .bits32 }
  have hread : Request.decode { pointerWidth := .bits32 } dirtyRequest
      = .ok (Request.ofBytes { pointerWidth := .bits32 } dirtyRequest) :=
    Request.decode_eq_ok.mpr ⟨by decide, rfl⟩
  refine ⟨_, hread, ?_⟩
  rw [hrequest.encode_decode hread, Except.ok.injEq]
  decide

end CommandRing
