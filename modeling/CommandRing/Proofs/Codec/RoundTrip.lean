import CommandRing.Proofs.Codec

/-!
# Every entry reads back as its normal form

A slot does not keep everything that an entry can say. The word that packs length and opcode keeps a multiple of
eight and three bits; a segment of a 32-bit layout keeps the low halves of its address and its length; sense data
is cut or filled up; and an entry whose three bits say filler is filler, whatever else was written.
`Entry.normal` is what is left, and an entry reads back as exactly that.

A request is the one shape whose parts have to be found again: its three lists of segments lie one after the
other, and the counts in front of them say where to cut. So the counts have to fit their words, which is what
`Request.Countable` asks.
-/

namespace CommandRing

/-! ## Words behind other bytes -/

namespace Bytes

/-- A number that was written reads back modulo its width, wherever it stands. -/
theorem toNat_slice_ofNat (front back : Bytes) {offset : Nat} (width n : Nat)
    (h : front.length = offset) :
    toNat ((front ++ (ofNat width n ++ back)).slice offset width) = n % Nat.pow 256 width := by
  have hlen := length_ofNat width n
  have hself : (ofNat width n).slice 0 width = ofNat width n := by
    have hslice := slice_zero_length (ofNat width n)
    rwa [hlen] at hslice
  rw [slice_append_right (Nat.le_of_eq h), h, Nat.sub_self, slice_append_left (by omega), hself,
    toNat_ofNat]

theorem toNat_wordAt32_ofNat (front back : Bytes) {offset n : Nat} (h : front.length = offset)
    (hn : n < UInt32.size) : ((front ++ (ofNat 4 n ++ back)).wordAt32 offset).toNat = n := by
  have hpow : Nat.pow 256 4 = UInt32.size := by decide
  unfold wordAt32
  rw [toNat_slice_ofNat front back 4 n h, UInt32.toNat_ofNat', hpow, Nat.mod_mod, Nat.mod_eq_of_lt hn]

theorem wordAt64_ofUInt64 (front back : Bytes) {offset : Nat} (h : front.length = offset)
    (v : UInt64) : (front ++ (ofUInt64 v ++ back)).wordAt64 offset = v := by
  have hpow : Nat.pow 256 8 = 2 ^ 64 := by decide
  unfold wordAt64 ofUInt64
  rw [toNat_slice_ofNat front back 8 v.toNat h, hpow, Nat.mod_eq_of_lt v.toNat_lt, UInt64.ofNat_toNat]

end Bytes

/-! ## Segments -/

/-- What a pointer of this width keeps of a value. -/
def PointerWidth.keep : PointerWidth → UInt64 → UInt64
  | .bits32, v => UInt64.ofNat (v.toNat % UInt32.size)
  | .bits64, v => v

theorem PointerWidth.ofNat_mod_pow (width : PointerWidth) (v : UInt64) :
    UInt64.ofNat (v.toNat % Nat.pow 256 width.bytes) = width.keep v := by
  cases width with
  | bits32 => rfl
  | bits64 =>
      have hpow : Nat.pow 256 PointerWidth.bits64.bytes = 2 ^ 64 := by decide
      rw [hpow, Nat.mod_eq_of_lt v.toNat_lt, UInt64.ofNat_toNat]
      rfl

theorem PointerWidth.keep_keep (width : PointerWidth) (v : UInt64) :
    width.keep (width.keep v) = width.keep v := by
  cases width with
  | bits32 =>
      refine UInt64.toNat_inj.mp ?_
      simp only [keep, UInt64.toNat_ofNat', UInt32.size]
      omega
  | bits64 => rfl

namespace Segment

/-- What a layout of this pointer width keeps of a segment. -/
def normal (width : PointerWidth) (s : Segment) : Segment := ⟨width.keep s.base, width.keep s.length⟩

theorem ofBytes_image (width : PointerWidth) (s : Segment) (rest : Bytes) :
    ofBytes width (s.image width ++ rest) = s.normal width := by
  have hbase : Bytes.toNat (Bytes.slice (s.image width ++ rest) 0 width.bytes)
      = s.base.toNat % Nat.pow 256 width.bytes := by
    unfold image
    rw [List.append_assoc]
    exact Bytes.toNat_slice_ofNat [] _ width.bytes s.base.toNat rfl
  have hlength : Bytes.toNat (Bytes.slice (s.image width ++ rest) width.bytes width.bytes)
      = s.length.toNat % Nat.pow 256 width.bytes := by
    unfold image
    rw [List.append_assoc]
    exact Bytes.toNat_slice_ofNat _ rest width.bytes s.length.toNat (Bytes.length_ofNat _ _)
  unfold ofBytes normal
  rw [hbase, hlength, width.ofNat_mod_pow, width.ofNat_mod_pow]

/-- Segments that were written one after the other read back one after the other. -/
theorem listOfBytes_flatMap (width : PointerWidth) (l : List Segment) (rest : Bytes) :
    listOfBytes width l.length (l.flatMap (image width) ++ rest) = l.map (normal width) := by
  induction l with
  | nil => rfl
  | cons s l ih =>
      have hlen := length_image width s
      rw [List.flatMap_cons, List.append_assoc, List.length_cons, listOfBytes, ofBytes_image,
        List.drop_append_of_le_length (by omega), List.drop_of_length_le (by omega), List.nil_append,
        ih, List.map_cons]

theorem normal_normal (width : PointerWidth) (s : Segment) :
    (s.normal width).normal width = s.normal width := by
  unfold normal
  rw [width.keep_keep, width.keep_keep]

end Segment

namespace Segments

def normal (width : PointerWidth) (s : Segments) : Segments where
  data := s.data.map (Segment.normal width)
  bidirectional := s.bidirectional.map (Segment.normal width)
  integrity := s.integrity.map (Segment.normal width)

theorem all_normal (width : PointerWidth) (s : Segments) :
    (s.normal width).all = s.all.map (Segment.normal width) := by
  unfold all normal
  rw [List.map_append, List.map_append]

/-- Cutting where the counts say undoes putting the lists together. -/
theorem cut_all (s : Segments) : cut s.data.length s.bidirectional.length s.all = s := by
  unfold cut all
  rw [List.append_assoc, List.take_left, List.drop_left, List.take_left, ← List.append_assoc,
    ← List.length_append, List.drop_left]

theorem normal_normal (width : PointerWidth) (s : Segments) :
    (s.normal width).normal width = s.normal width := by
  have hlist : ∀ l : List Segment,
      (l.map (Segment.normal width)).map (Segment.normal width) = l.map (Segment.normal width) := by
    intro l
    rw [List.map_map]
    exact List.map_congr_left fun s _ => s.normal_normal width
  unfold normal
  rw [hlist, hlist, hlist]

end Segments

/-! ## Headers -/

namespace Opcode

theorem ofCode_mod (n : Nat) : ofCode (n % 8) = ofCode n := by
  unfold ofCode
  rw [Nat.mod_mod]

theorem code_ofCode (n : Nat) : (ofCode n).code = n % 8 := by
  have hcases : ∀ m < 8, (ofCode m).code = m := by decide
  rw [← ofCode_mod]
  exact hcases _ (Nat.mod_lt _ (by decide))

theorem ofCode_code_ofCode (n : Nat) : ofCode (ofCode n).code = ofCode n := by
  rw [code_ofCode, ofCode_mod]

theorem ofCode_code_eq_pad_iff (op : Opcode) : ofCode op.code = .pad ↔ op.code = 0 := by
  have hcases : ∀ m < 8, ofCode m = .pad ↔ m = 0 := by decide
  exact hcases _ op.code_lt

end Opcode

namespace Header

theorem decode_image (h : Header) (rest : Bytes) : decode (h.image ++ rest) = .ok h.normal := by
  have hlen := length_image h
  unfold decode
  rw [if_neg (by rw [List.length_append]; omega), ofBytes_image]

theorem code_normal (h : Header) : h.normal.opcode.code = h.opcode.code := by
  unfold normal
  rw [Opcode.code_ofCode, Nat.mod_eq_of_lt h.opcode.code_lt]

theorem normal_normal (h : Header) : h.normal.normal = h.normal := by
  have hlength : UInt32.ofNat ((UInt32.ofNat (h.length.toNat / 8 * 8)).toNat / 8 * 8)
      = UInt32.ofNat (h.length.toNat / 8 * 8) := by
    refine UInt32.toNat_inj.mp ?_
    simp only [UInt32.toNat_ofNat']
    omega
  unfold normal
  dsimp only
  rw [hlength, Opcode.ofCode_code_ofCode]

end Header

/-! ## Requests -/

namespace Request

/-- The counts of the request's segments fit into their words. -/
structure Countable (r : Request) : Prop where
  data : r.segments.data.length < UInt32.size
  bidirectional : r.segments.bidirectional.length < UInt32.size
  integrity : r.segments.integrity.length < UInt32.size

/-- What a slot keeps of a request. -/
def normal (layout : Layout) (r : Request) : Request :=
  { r with
    header := r.header.normal
    segments := r.segments.normal layout.pointerWidth }

theorem ofBytes_image (layout : Layout) (r : Request) (rest : Bytes) :
    Header.ofBytes (r.image layout ++ rest) = r.header.normal := by
  unfold image
  simp only [List.append_assoc]
  exact Header.ofBytes_image _ _

/-- The three counts are words behind the header. -/
theorem counts_image (layout : Layout) {r : Request} (h : r.Countable) (rest : Bytes) :
    ((r.image layout ++ rest).wordAt32 8).toNat = r.segments.data.length
      ∧ ((r.image layout ++ rest).wordAt32 12).toNat = r.segments.bidirectional.length
      ∧ ((r.image layout ++ rest).wordAt32 16).toNat = r.segments.integrity.length := by
  have hheader : r.header.image.length = 8 := Header.length_image _
  have hdata : (r.header.image ++ Bytes.ofNat 4 r.segments.data.length).length = 12 := by
    rw [List.length_append, hheader, Bytes.length_ofNat]
  have hbidirectional : (r.header.image ++ (Bytes.ofNat 4 r.segments.data.length
      ++ Bytes.ofNat 4 r.segments.bidirectional.length)).length = 16 := by
    simp only [List.length_append, hheader, Bytes.length_ofNat]
  unfold image
  simp only [List.append_assoc]
  refine ⟨Bytes.toNat_wordAt32_ofNat _ _ hheader h.data, ?_, ?_⟩
  · have hword := fun back => Bytes.toNat_wordAt32_ofNat _ back hdata h.bidirectional
    simp only [List.append_assoc] at hword
    exact hword _
  · have hword := fun back => Bytes.toNat_wordAt32_ofNat _ back hbidirectional h.integrity
    simp only [List.append_assoc] at hword
    exact hword _

theorem wordAt64_image (layout : Layout) (r : Request) (rest : Bytes) :
    (r.image layout ++ rest).wordAt64 24 = r.cdbOffset := by
  have hfront : (r.header.image ++ (Bytes.ofNat 4 r.segments.data.length
      ++ (Bytes.ofNat 4 r.segments.bidirectional.length
      ++ (Bytes.ofNat 4 r.segments.integrity.length ++ Bytes.zeros 4)))).length = 24 := by
    simp only [List.length_append, Header.length_image, Header.size, Bytes.length_ofNat,
      Bytes.length_zeros]
  have hword := fun back => Bytes.wordAt64_ofUInt64 _ back hfront r.cdbOffset
  unfold image
  simp only [List.append_assoc] at hword ⊢
  exact hword _

theorem drop_image (layout : Layout) (r : Request) (rest : Bytes) :
    (r.image layout ++ rest).drop Layout.requestBase
      = r.segments.all.flatMap (Segment.image layout.pointerWidth) ++ rest := by
  have hfront : (r.header.image ++ Bytes.ofNat 4 r.segments.data.length
      ++ Bytes.ofNat 4 r.segments.bidirectional.length
      ++ Bytes.ofNat 4 r.segments.integrity.length ++ Bytes.zeros 4
      ++ Bytes.ofUInt64 r.cdbOffset ++ Bytes.zeros 16).length = Layout.requestBase := by
    simp only [List.length_append, Header.length_image, Header.size, Bytes.length_ofNat,
      Bytes.length_zeros, Bytes.length_ofUInt64, Layout.requestBase]
  unfold image
  rw [List.append_assoc, ← hfront, List.drop_left]

/-- The segments are found again, and cut where the counts say. -/
theorem cut_image (layout : Layout) (r : Request) (rest : Bytes) :
    Segments.cut r.segments.data.length r.segments.bidirectional.length
        (Segment.listOfBytes layout.pointerWidth r.segments.count
          ((r.image layout ++ rest).drop Layout.requestBase))
      = r.segments.normal layout.pointerWidth := by
  have hall := (r.segments.normal layout.pointerWidth).cut_all
  rw [drop_image, ← r.segments.length_all, Segment.listOfBytes_flatMap, ← Segments.all_normal]
  unfold Segments.normal at hall ⊢
  rwa [List.length_map, List.length_map] at hall

/-- **A request reads back as its normal form**, whatever follows it. -/
theorem decode_image (layout : Layout) {r : Request} (h : r.Countable) (rest : Bytes) :
    decode layout (r.image layout ++ rest) = .ok (r.normal layout) := by
  obtain ⟨hdata, hbidirectional, hintegrity⟩ := counts_image layout h rest
  have hlen := length_image layout r
  have hsize : r.size layout = layout.requestSize
      (r.segments.data.length + r.segments.bidirectional.length + r.segments.integrity.length) := rfl
  have hbase : Layout.requestBase ≤ r.size layout := Nat.le_add_right _ _
  have hcut := cut_image layout r rest
  unfold Segments.count at hcut
  unfold decode
  dsimp only
  rw [hdata, hbidirectional, hintegrity, if_neg (by rw [List.length_append]; omega),
    if_neg (by rw [List.length_append]; omega), ofBytes_image, wordAt64_image, hcut]
  rfl

theorem normal_normal (layout : Layout) (r : Request) :
    (r.normal layout).normal layout = r.normal layout := by
  unfold normal
  dsimp only
  rw [Header.normal_normal, Segments.normal_normal]

end Request

namespace Response

theorem normal_normal (layout : Layout) (r : Response) :
    (r.normal layout).normal layout = r.normal layout := by
  unfold normal
  dsimp only
  rw [Header.normal_normal, Bytes.fit_of_length (Bytes.length_fit _ _)]

end Response

/-! ## Entries -/

namespace Entry

/-- The bytes that an entry takes. -/
def size (layout : Layout) : Entry → Nat
  | request r => layout.requestSize r.segments.count
  | response _ => layout.responseSize
  | pad _ => Header.size

/-- The phases in which an entry can be read. -/
def phases : Entry → List Phase
  | request _ => [.request]
  | response _ => [.response]
  | pad _ => [.request, .response]

/-- The counts of a request fit into their words, and filler says that it is filler. -/
def Storable : Entry → Prop
  | request r => r.Countable
  | response _ => True
  | pad h => h.opcode.code = 0

/-- What a slot keeps of an entry. -/
def normal (layout : Layout) (e : Entry) : Entry :=
  if e.header.opcode.code = 0 then
    pad e.header.normal
  else
    match e with
    | request r => request (r.normal layout)
    | response r => response (r.normal layout)
    | pad h => pad h.normal

variable {layout : Layout}

theorem normal_of_filler {e : Entry} (h : e.header.opcode.code = 0) :
    e.normal layout = pad e.header.normal := if_pos h

theorem normal_request {r : Request} (h : r.header.opcode.code ≠ 0) :
    (request r).normal layout = request (r.normal layout) := if_neg h

theorem normal_response {r : Response} (h : r.header.opcode.code ≠ 0) :
    (response r).normal layout = response (r.normal layout) := if_neg h

theorem normal_pad (h : Header) : (pad h).normal layout = pad h.normal := ite_self _

theorem length_image (layout : Layout) (e : Entry) : (e.image layout).length = e.size layout := by
  cases e with
  | request r => exact Request.length_image layout r
  | response r => exact Response.length_image layout r
  | pad h => exact Header.length_image h

/-- The header comes first in every shape. -/
theorem image_eq (layout : Layout) (e : Entry) : ∃ rest, e.image layout = e.header.image ++ rest := by
  cases e with
  | request r =>
      unfold image Request.image header
      simp only [List.append_assoc]
      exact ⟨_, rfl⟩
  | response r =>
      unfold image Response.image header
      simp only [List.append_assoc]
      exact ⟨_, rfl⟩
  | pad h => exact ⟨[], (List.append_nil _).symm⟩

/-- **An entry reads back as its normal form**, whatever follows it. -/
theorem decode_image (layout : Layout) {e : Entry} (h : e.Storable) {phase : Phase}
    (hphase : phase ∈ e.phases) (rest : Bytes) :
    decode layout phase (e.image layout ++ rest) = .ok (e.normal layout) := by
  obtain ⟨behind, himage⟩ := e.image_eq layout
  have hheader : Header.decode (e.image layout ++ rest) = .ok e.header.normal := by
    rw [himage, List.append_assoc]
    exact e.header.decode_image _
  have hpad : e.header.normal.opcode = .pad ↔ e.header.opcode.code = 0 :=
    Opcode.ofCode_code_eq_pad_iff _
  unfold decode
  rw [hheader]
  dsimp only
  by_cases hcode : e.header.opcode.code = 0
  · rw [if_pos (hpad.mpr hcode), normal_of_filler hcode]
  · rw [if_neg fun hp => hcode (hpad.mp hp)]
    cases e with
    | request r =>
        rw [List.mem_singleton.mp hphase, normal_request hcode]
        exact congrArg (Except.map request) (Request.decode_image layout h rest)
    | response r =>
        rw [List.mem_singleton.mp hphase, normal_response hcode]
        exact congrArg (Except.map response) (Response.decode_image layout r rest)
    | pad header => exact absurd h hcode

theorem normal_normal (layout : Layout) (e : Entry) :
    (e.normal layout).normal layout = e.normal layout := by
  by_cases hcode : e.header.opcode.code = 0
  · rw [normal_of_filler hcode, normal_pad, Header.normal_normal]
  -- an opcode that is not filler stays so
  · have hkept : e.header.normal.opcode.code ≠ 0 := by
      rw [Header.code_normal]
      exact hcode
    cases e with
    | request r =>
        rw [normal_request hcode, normal_request hkept, Request.normal_normal]
    | response r =>
        rw [normal_response hcode, normal_response hkept, Response.normal_normal]
    | pad h => rw [normal_pad, normal_pad, Header.normal_normal]

/-- Over any bytes with room for it the entry can be written, and then reads as `e'` in its phase. -/
def ReadsBackAs (layout : Layout) (e e' : Entry) : Prop :=
  ∀ buffer : Bytes, e.size layout ≤ buffer.length →
    ∃ written, e.encode layout buffer = .ok written
      ∧ ∀ phase ∈ e.phases, decode layout phase written = .ok e'

theorem Storable.readsBackAs {e : Entry} (h : e.Storable) (layout : Layout) :
    e.ReadsBackAs layout (e.normal layout) := by
  intro buffer hroom
  have hlen := length_image layout e
  refine ⟨e.image layout ++ buffer.drop (e.image layout).length, ?_, ?_⟩
  · rw [encode_eq_overwrite]
    unfold Bytes.overwrite
    rw [if_neg (by omega)]
  · intro phase hphase
    exact decode_image layout h hphase _

theorem normal_answering (layout : Layout) (id : CommandId) (status : UInt8) (sense : Bytes) :
    (response (.answering layout id status sense)).normal layout
      = response (.answering layout id status sense) := by
  have hcode : (Response.answering layout id status sense).header.opcode.code ≠ 0 := Nat.one_ne_zero
  rw [normal_response hcode, Response.normal_answering]

/--
**Reading undoes writing, up to what a slot can keep.** Every entry can be written over any bytes with room for
it, and reads back as its normal form: the length without its low three bits, the opcode that its low three bits
denote, the low halves of addresses and lengths in a 32-bit layout, and the sense data cut or filled up; a request
or response whose three bits say filler is filler with the same header. What is in normal form already reads back
as it is, in particular whatever a kernel answers, with sense data of any length.
-/
theorem decode_encode {e : Entry} (h : e.Storable) (layout : Layout) :
    e.ReadsBackAs layout (e.normal layout)
      ∧ (e.normal layout).normal layout = e.normal layout
      ∧ (e.normal layout = e → e.ReadsBackAs layout e)
      ∧ ∀ id status sense, (response (.answering layout id status sense)).ReadsBackAs layout
          (response (.answering layout id status sense)) := by
  have hread := h.readsBackAs layout
  refine ⟨hread, e.normal_normal layout, ?_, ?_⟩
  · intro hnormal
    rwa [hnormal] at hread
  · intro id status sense
    have hanswer := Storable.readsBackAs (e := response (.answering layout id status sense)) trivial layout
    rwa [normal_answering] at hanswer

/-- A request with a ragged length, an opcode of which only the low bits count, and long pointers. -/
def longPointers : Entry :=
  request {
    header := ⟨61, .other 9, 513, 3, 4⟩
    cdbOffset := 0x100000008
    segments := { data := [⟨0x100000005, 512⟩], integrity := [⟨7, 0x200000001⟩, {}] } }

/-- In a 32-bit layout it is written over ones, and reads back with the low halves of its pointers. -/
theorem decode_encode_longPointers :
    longPointers.Storable
      ∧ ∃ written, longPointers.encode { pointerWidth := .bits32 } (List.replicate 80 255) = .ok written
        ∧ decode { pointerWidth := .bits32 } .request written = .ok (request {
            header := ⟨56, .command, 513, 3, 4⟩
            cdbOffset := 0x100000008
            segments := { data := [⟨5, 512⟩], integrity := [⟨7, 1⟩, {}] } }) := by
  have hstorable : longPointers.Storable := ⟨by decide, by decide, by decide⟩
  obtain ⟨hread, _⟩ := decode_encode hstorable { pointerWidth := .bits32 }
  obtain ⟨written, hwritten, hdecode⟩ := hread (List.replicate 80 255) (by decide)
  refine ⟨hstorable, written, hwritten, ?_⟩
  rw [hdecode .request List.mem_cons_self, Except.ok.injEq]
  decide

end Entry

end CommandRing
