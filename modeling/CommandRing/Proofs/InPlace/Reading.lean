import CommandRing.InPlace
import CommandRing.Proofs.Codec.Restoring

/-!
# Readers stay inside the buffer

A reader that works in the buffer gives what the decoder gives, and is never stopped: whatever it reads, it has
asked for before. That is plain for the structures of one size. A request announces its own size, in three counts
that the other side controls, and then reads segment after segment at offsets that it computes from these counts.

Three counts of 32 bits are too small for any of the sums to wrap around (`sizeOfCounts_eq`), so the size that is
asked for is the size that is read, and the offset of every segment is inside of it.
-/

namespace CommandRing

theorem inWord_eq {n : Nat} (h : n < UInt64.size) : inWord n = .ok n := if_pos h

theorem reported_eq_ok {α : Type} {result : Except Error α} {a : α} :
    reported result = .ok a ↔ result = .ok a := by
  cases result <;> simp [reported]

theorem mapM_eq {α β : Type} {f : α → Except Halt β} {g : α → β} {l : List α}
    (h : ∀ a ∈ l, f a = .ok (g a)) : l.mapM f = .ok (l.map g) := by
  induction l with
  | nil => rfl
  | cons a rest ih =>
      rw [List.mapM_cons, h a List.mem_cons_self, ih fun x hx => h x (List.mem_cons_of_mem a hx)]
      rfl

/-! ## Accesses -/

namespace Buffer

variable {b : Bytes} {offset : Nat}

theorem require_eq {required : Nat} (h : required ≤ b.length) : require b required = .ok () :=
  if_neg (by omega)

theorem require_short {required : Nat} (h : b.length < required) :
    require b required = .error (.refused (.bufferTooShort required b.length)) := if_pos h

theorem field_eq {count : Nat} (h : offset + count ≤ b.length) :
    field b offset count = .ok (b.slice offset count) := if_neg (by omega)

theorem byte_eq (h : offset < b.length) : byte b offset = .ok (b.byteAt offset) := by
  unfold byte Bytes.byteAt
  rw [List.getElem?_eq_getElem h, List.getD_eq_getElem b 0 h]

theorem word16_eq (h : offset + 2 ≤ b.length) : word16 b offset = .ok (b.wordAt16 offset) := by
  unfold word16
  rw [field_eq h]
  rfl

theorem word32_eq (h : offset + 4 ≤ b.length) : word32 b offset = .ok (b.wordAt32 offset) := by
  unfold word32
  rw [field_eq h]
  rfl

theorem word64_eq (h : offset + 8 ≤ b.length) : word64 b offset = .ok (b.wordAt64 offset) := by
  unfold word64
  rw [field_eq h]
  rfl

theorem pointer_eq {width : PointerWidth} (h : offset + width.bytes ≤ b.length) :
    pointer b offset width = .ok (UInt64.ofNat (b.slice offset width.bytes).toNat) := by
  unfold pointer
  rw [field_eq h]
  rfl

end Buffer

/-! ## Headers and responses -/

theorem Header.read_eq {b : Bytes} (h : size ≤ b.length) : read b = .ok (ofBytes b) := by
  have hlen : 8 ≤ b.length := h
  unfold read
  rw [Buffer.require_eq h, Buffer.word32_eq (by omega), Buffer.word16_eq (by omega),
    Buffer.byte_eq (by omega), Buffer.byte_eq (by omega)]
  rfl

theorem Header.read_eq_decode (b : Bytes) : read b = reported (decode b) := by
  rcases Nat.lt_or_ge b.length size with hshort | hroom
  · unfold read decode
    rw [Buffer.require_short hshort, if_pos hshort]
    rfl
  · unfold decode
    rw [read_eq hroom, if_neg (by omega)]
    rfl

theorem Layout.responseSizeInWord_eq {layout : Layout} (h : layout.responseSize < UInt64.size) :
    layout.responseSizeInWord = .ok layout.responseSize := inWord_eq h

theorem Response.read_eq_decode {layout : Layout} (hfits : layout.responseSize < UInt64.size)
    (b : Bytes) : read layout b = reported (decode layout b) := by
  unfold read
  rw [Layout.responseSizeInWord_eq hfits]
  rcases Nat.lt_or_ge b.length layout.responseSize with hshort | hroom
  · unfold decode
    rw [if_pos hshort]
    dsimp only [bind, Except.bind]
    rw [Buffer.require_short hshort]
    rfl
  · have hlen : 16 + layout.senseSize ≤ b.length := hroom
    unfold decode
    rw [if_neg (by omega)]
    dsimp only [bind, Except.bind]
    rw [Buffer.require_eq hroom, Header.read_eq (by unfold Header.size; omega),
      Buffer.byte_eq (by omega), Buffer.field_eq hroom]
    rfl

/-! ## Requests -/

theorem Layout.requestSizeInWord_eq {layout : Layout} {n : Nat}
    (h : layout.requestSize n < UInt64.size) :
    layout.requestSizeInWord n = .ok (layout.requestSize n) := by
  unfold requestSize at h
  unfold requestSizeInWord
  rw [inWord_eq (by omega)]
  exact inWord_eq h

theorem Layout.requestSize_zero (layout : Layout) : layout.requestSize 0 = requestBase := by
  unfold requestSize
  rw [Nat.zero_mul, Nat.add_zero]

theorem Layout.requestSize_succ (layout : Layout) (n : Nat) :
    layout.requestSize (n + 1) = layout.requestSize n + 2 * layout.pointerWidth.bytes := by
  unfold requestSize segmentSize
  rw [Nat.succ_mul, Nat.add_assoc]

theorem Layout.requestSize_mono (layout : Layout) {m n : Nat} (h : m ≤ n) :
    layout.requestSize m ≤ layout.requestSize n :=
  Nat.add_le_add_left (Nat.mul_le_mul_right _ h) _

namespace Segment

/-- Segment number `i` of a request in the buffer. -/
def numbered (layout : Layout) (b : Bytes) (i : Nat) : Segment :=
  ofBytes layout.pointerWidth (b.drop (layout.requestSize i))

variable {layout : Layout} {b : Bytes}

theorem read_eq {i : Nat} (hfits : layout.requestSize (i + 1) < UInt64.size)
    (hroom : layout.requestSize (i + 1) ≤ b.length) : read layout b i = .ok (numbered layout b i) := by
  rw [layout.requestSize_succ] at hfits hroom
  unfold read
  rw [Layout.requestSizeInWord_eq (by omega)]
  dsimp only [bind, Except.bind]
  rw [Buffer.pointer_eq (by omega), inWord_eq (by omega)]
  dsimp only
  rw [Buffer.pointer_eq (by omega)]
  unfold numbered ofBytes Bytes.slice
  rw [List.drop_zero, List.drop_drop]
  rfl

/-- A list of segments is read from where the one before ended. -/
theorem readList_eq {next count : Nat} (hfits : layout.requestSize (next + count) < UInt64.size)
    (hroom : layout.requestSize (next + count) ≤ b.length) :
    readList layout b next count
      = .ok ((List.range' next count).map (numbered layout b), next + count) := by
  have hread : ∀ i ∈ List.range' next count, read layout b i = .ok (numbered layout b i) := by
    intro i hi
    have hle : i + 1 ≤ next + count := (List.mem_range'_1.mp hi).2
    have hsize := layout.requestSize_mono hle
    exact read_eq (by omega) (by omega)
  have hbehind : next + count < UInt64.size := by
    have hmul := Nat.le_mul_of_pos_right (next + count) layout.segmentSize_pos
    unfold Layout.requestSize at hfits
    omega
  unfold readList
  rw [inWord_eq hbehind, mapM_eq hread]
  rfl

/-- Numbering the segments is the same as cutting one after the other off the buffer. -/
theorem listOfBytes_eq (layout : Layout) (b : Bytes) (next count : Nat) :
    listOfBytes layout.pointerWidth count (b.drop (layout.requestSize next))
      = (List.range' next count).map (numbered layout b) := by
  induction count generalizing next with
  | zero => rfl
  | succ count ih =>
      rw [listOfBytes, List.drop_drop, ← layout.requestSize_succ, ih, List.range'_succ, List.map_cons]
      rfl

end Segment

/-- Three lists that are read one after the other are the one list, cut. -/
theorem Segments.cut_range' (f : Nat → Segment) (first second third : Nat) :
    cut first second ((List.range' 0 (first + second + third)).map f)
      = { data := (List.range' 0 first).map f
          bidirectional := (List.range' (0 + first) second).map f
          integrity := (List.range' (0 + first + second) third).map f } := by
  have hcut := cut_all { data := (List.range' 0 first).map f
                         bidirectional := (List.range' (0 + first) second).map f
                         integrity := (List.range' (0 + first + second) third).map f }
  unfold all at hcut
  rw [← List.map_append, ← List.map_append, List.range'_append_1, Nat.add_assoc 0,
    List.range'_append_1] at hcut
  simpa only [List.length_map, List.length_range', Nat.zero_add] using hcut

namespace Request

/-- **Counts of 32 bits do not make any of the sums wrap around.** -/
theorem sizeOfCounts_eq (layout : Layout) {data bidirectional integrity : Nat}
    (hdata : data < UInt32.size) (hbidirectional : bidirectional < UInt32.size)
    (hintegrity : integrity < UInt32.size) :
    layout.requestSize (data + bidirectional + integrity) < UInt64.size
      ∧ sizeOfCounts layout [data, bidirectional, integrity]
        = layout.requestSize (data + bidirectional + integrity) := by
  unfold UInt32.size at hdata hbidirectional hintegrity
  have hwidth : layout.segmentSize ≤ 16 := by
    unfold Layout.segmentSize
    cases layout.pointerWidth <;> decide
  have hbytes := Nat.mul_le_mul_left (data + bidirectional + integrity) hwidth
  have hbase : Layout.requestBase = 48 := rfl
  have hfits : layout.requestSize (data + bidirectional + integrity) < UInt64.size := by
    unfold Layout.requestSize UInt64.size
    omega
  refine ⟨hfits, ?_⟩
  have hsum : ∀ n, n ≤ data + bidirectional + integrity → inWord n = .ok n := by
    intro n hn
    refine inWord_eq ?_
    unfold UInt64.size
    omega
  have htotal : [data, bidirectional, integrity].foldlM (fun sum count => inWord (sum + count)) 0
      = .ok (data + bidirectional + integrity) := by
    simp only [List.foldlM_cons, List.foldlM_nil, bind, Except.bind]
    rw [hsum _ (by omega)]
    dsimp only
    rw [hsum _ (by omega)]
    dsimp only
    rw [hsum _ (by omega), Nat.zero_add]
    rfl
  unfold Layout.requestSize at hfits ⊢
  unfold sizeOfCounts
  rw [htotal]
  dsimp only [bind, Except.bind]
  rw [inWord_eq (by omega)]
  dsimp only
  rw [Nat.add_comm, inWord_eq hfits]

variable {layout : Layout} {b : Bytes}

/-- **The lists that are read are the segments with consecutive numbers.** -/
theorem readSegments_eq {data bidirectional integrity : Nat} (hdata : data < UInt32.size)
    (hbidirectional : bidirectional < UInt32.size) (hintegrity : integrity < UInt32.size)
    (hroom : layout.requestSize (data + bidirectional + integrity) ≤ b.length) :
    readSegments layout b data bidirectional integrity
      = .ok (Segments.cut data bidirectional
        ((List.range' 0 (data + bidirectional + integrity)).map (Segment.numbered layout b))) := by
  obtain ⟨hfits, hsize⟩ := sizeOfCounts_eq layout hdata hbidirectional hintegrity
  -- no list ends behind the last one
  have hfirst := layout.requestSize_mono (show 0 + data ≤ data + bidirectional + integrity by omega)
  have hsecond := layout.requestSize_mono
    (show 0 + data + bidirectional ≤ data + bidirectional + integrity by omega)
  have hthird := layout.requestSize_mono
    (show 0 + data + bidirectional + integrity ≤ data + bidirectional + integrity by omega)
  unfold readSegments
  rw [hsize, Buffer.require_eq hroom, Segment.readList_eq (by omega) (by omega)]
  dsimp only [bind, Except.bind]
  rw [Segment.readList_eq (by omega) (by omega)]
  dsimp only
  rw [Segment.readList_eq (by omega) (by omega), Segments.cut_range']
  rfl

theorem readSegments_short {data bidirectional integrity : Nat} (hdata : data < UInt32.size)
    (hbidirectional : bidirectional < UInt32.size) (hintegrity : integrity < UInt32.size)
    (hshort : b.length < layout.requestSize (data + bidirectional + integrity)) :
    readSegments layout b data bidirectional integrity
      = .error (.refused (.bufferTooShort
        (layout.requestSize (data + bidirectional + integrity)) b.length)) := by
  obtain ⟨_, hsize⟩ := sizeOfCounts_eq layout hdata hbidirectional hintegrity
  unfold readSegments
  rw [hsize, Buffer.require_short hshort]
  rfl

/-- **A reader in the buffer reads what the decoder reads**, and is stopped by no buffer. -/
theorem read_eq_decode (layout : Layout) (b : Bytes) : read layout b = reported (decode layout b) := by
  unfold read decode
  dsimp only
  rcases Nat.lt_or_ge b.length Layout.requestBase with hshort | hbase
  · rw [Buffer.require_short hshort, if_pos hshort]
    rfl
  have hfixed : 48 ≤ b.length := hbase
  rw [Buffer.require_eq hbase, if_neg (by omega), Header.read_eq (by unfold Header.size; omega),
    Buffer.word32_eq (by omega), Buffer.word32_eq (by omega), Buffer.word32_eq (by omega)]
  dsimp only [bind, Except.bind]
  have hlist := Segment.listOfBytes_eq layout b 0 (announced b)
  rw [layout.requestSize_zero] at hlist
  unfold announced at hlist
  rcases Nat.lt_or_ge b.length (layout.requestSize
    ((b.wordAt32 8).toNat + (b.wordAt32 12).toNat + (b.wordAt32 16).toNat)) with hshort | hroom
  · rw [readSegments_short (UInt32.toNat_lt _) (UInt32.toNat_lt _) (UInt32.toNat_lt _) hshort,
      if_pos hshort]
    rfl
  · rw [readSegments_eq (UInt32.toNat_lt _) (UInt32.toNat_lt _) (UInt32.toNat_lt _) hroom,
      if_neg (by omega), hlist, Buffer.word64_eq (by omega)]
    rfl

/-! ## What is read -/

theorem decode_short (h : b.length < Layout.requestBase) :
    decode layout b = .error (.bufferTooShort Layout.requestBase b.length) := if_pos h

theorem decode_unfilled (hbase : Layout.requestBase ≤ b.length)
    (h : b.length < layout.requestSize (announced b)) :
    decode layout b = .error (.bufferTooShort (layout.requestSize (announced b)) b.length) := by
  unfold announced at h ⊢
  unfold decode
  dsimp only
  rw [if_neg (by omega), if_pos h]

theorem all_ofBytes (layout : Layout) (b : Bytes) :
    (ofBytes layout b).segments.all = (List.range (announced b)).map (Segment.numbered layout b) := by
  have hlist := Segment.listOfBytes_eq layout b 0 (announced b)
  rw [layout.requestSize_zero, ← List.range_eq_range'] at hlist
  unfold ofBytes
  dsimp only
  rw [Segments.all_cut, hlist]

/--
**A request is read exactly if the buffer holds what it claims.** The reader in the buffer agrees with the decoder:
it is stopped by no buffer, however much its counts announce. It succeeds exactly if there are 48 bytes, and behind
them the segments of all three counts, in numbers that do not wrap around. Otherwise it reports the 48 bytes, or
that size, and how many bytes there are. What it reads are three lists of the announced lengths, and together they
are the segments that stand one after the other from byte 48 on.
-/
theorem read_exactly (layout : Layout) (b : Bytes) :
    read layout b = reported (decode layout b)
      ∧ ((∃ r, read layout b = .ok r) ↔
        48 ≤ b.length ∧ 48 + announced b * layout.segmentSize ≤ b.length)
      ∧ (b.length < 48 → read layout b = .error (.refused (.bufferTooShort 48 b.length)))
      ∧ (48 ≤ b.length → b.length < 48 + announced b * layout.segmentSize →
        read layout b = .error (.refused
          (.bufferTooShort (48 + announced b * layout.segmentSize) b.length)))
      ∧ ∀ r, read layout b = .ok r →
        r.segments.data.length = (b.wordAt32 8).toNat
          ∧ r.segments.bidirectional.length = (b.wordAt32 12).toNat
          ∧ r.segments.integrity.length = (b.wordAt32 16).toNat
          ∧ r.segments.all = (List.range (announced b)).map (Segment.numbered layout b) := by
  have hread : ∀ r, read layout b = .ok r ↔
      layout.requestSize (announced b) ≤ b.length ∧ ofBytes layout b = r := by
    intro r
    rw [read_eq_decode, reported_eq_ok, decode_eq_ok]
  refine ⟨read_eq_decode layout b, ?_, ?_, ?_, ?_⟩
  · simp only [hread]
    constructor
    · rintro ⟨_, hroom, _⟩
      exact ⟨Nat.le_trans (Nat.le_add_right _ _) hroom, hroom⟩
    · rintro ⟨_, hroom⟩
      exact ⟨_, hroom, rfl⟩
  · intro hshort
    rw [read_eq_decode, decode_short hshort]
    rfl
  · intro hbase hshort
    rw [read_eq_decode, decode_unfilled hbase hshort]
    rfl
  · intro r hr
    obtain ⟨_, rfl⟩ := (hread r).mp hr
    obtain ⟨hdata, hbidirectional, hintegrity⟩ := length_ofBytes layout b
    exact ⟨hdata, hbidirectional, hintegrity, all_ofBytes layout b⟩

/-- All three counts are as large as can be, and nothing stands behind the fixed part. -/
def boastful : Bytes := Bytes.zeros 8 ++ List.replicate 12 255 ++ Bytes.zeros 28

/-- One data segment and two for integrity, of 32 bits, and a byte behind them. -/
def threeSegments : Bytes :=
  Bytes.zeros 8 ++ [1, 0, 0, 0] ++ Bytes.zeros 4 ++ [2, 0, 0, 0] ++ Bytes.zeros 28
    ++ [1, 0, 0, 0, 2, 0, 0, 0, 3, 0, 0, 0, 4, 0, 0, 0, 5, 0, 0, 0, 6, 0, 0, 0, 255]

/-- The first asks for more than 200 gigabytes, which is refused; the second one is cut after its first segment. -/
theorem read_exactly_threeSegments :
    read {} boastful = .error (.refused (.bufferTooShort 206158430208 48))
      ∧ ∃ r, read { pointerWidth := .bits32 } threeSegments = .ok r
        ∧ r.segments.data.length = 1 ∧ r.segments.bidirectional.length = 0
        ∧ r.segments.all = [⟨1, 2⟩, ⟨3, 4⟩, ⟨5, 6⟩] := by
  obtain ⟨_, _, _, hrefused, _⟩ := read_exactly {} boastful
  obtain ⟨_, haccepted, _, _, hparts⟩ := read_exactly { pointerWidth := .bits32 } threeSegments
  obtain ⟨r, hr⟩ := haccepted.mpr ⟨by decide, by decide⟩
  obtain ⟨hdata, hbidirectional, _, hall⟩ := hparts r hr
  refine ⟨hrefused (by decide) (by decide), r, hr, ?_, ?_, ?_⟩
  · rw [hdata]
    decide
  · rw [hbidirectional]
    decide
  · rw [hall]
    decide

end Request

end CommandRing
