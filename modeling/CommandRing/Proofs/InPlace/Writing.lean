import CommandRing.InPlace
import CommandRing.Proofs.Codec.RoundTrip
import CommandRing.Proofs.InPlace.Reading

/-!
# Writers write a structure as a whole

A writer puts one field after the other into a buffer that held something else before. Still nothing of that is
left in the structure, nothing behind the structure changes, and a buffer that is too short is not changed at all
(`AllOrNothing`). The first is due to the clearing, the second to the offsets, and the third to the order: the size
is asked for before anything is written.

The invariant is a buffer whose front has been written so far (`Bytes.overlaid`). A field that is put where the front
ends makes the front longer, and so do reserved bytes, if they have been cleared. In the end the front is the image
of the structure, so what the writer does is what the encoder does with the image.
-/

namespace CommandRing

/-! ## A buffer with a new front -/

namespace Bytes

/-- The buffer with `front` over its first bytes. -/
def overlaid (b front : Bytes) : Bytes := front ++ b.drop front.length

variable {b front data : Bytes} {size : Nat}

theorem length_overlaid (h : front.length ≤ b.length) : (b.overlaid front).length = b.length := by
  unfold overlaid
  rw [List.length_append, List.length_drop]
  omega

theorem length_place {offset : Nat} (h : offset + data.length ≤ b.length) :
    (b.place offset data).length = b.length := by
  unfold place
  rw [List.length_append, List.length_append, List.length_take, List.length_drop]
  omega

theorem overlaid_overlaid {old : Bytes} (h : old.length ≤ front.length) :
    (b.overlaid old).overlaid front = b.overlaid front := by
  unfold overlaid
  rw [List.drop_append, List.drop_eq_nil_of_le h, List.nil_append, List.drop_drop,
    Nat.add_sub_cancel' h]

/-- What is placed at the end of the front becomes a part of it. -/
theorem place_overlaid {offset : Nat} (h : front.length = offset) :
    (b.overlaid front).place offset data = b.overlaid (front ++ data) := by
  unfold overlaid place
  rw [List.take_left' h, List.length_append, ← List.drop_drop, List.drop_left' h, List.drop_drop, h]

theorem drop_zeros_append {n : Nat} (h : n ≤ size) (rest : Bytes) :
    (zeros size ++ rest).drop n = zeros (size - n) ++ rest := by
  rw [List.drop_append_of_le_length (by rw [length_zeros]; exact h)]
  unfold zeros
  rw [List.drop_replicate]

/-- Cleared bytes are as good as written ones. -/
theorem overlaid_cleared (b : Bytes) (count : Nat) (h : front.length + count ≤ size) :
    (b.overlaid (zeros size)).overlaid front
      = (b.overlaid (zeros size)).overlaid (front ++ zeros count) := by
  have hsplit : zeros (size - front.length)
      = zeros count ++ zeros (size - (front.length + count)) := by
    unfold zeros
    rw [List.replicate_append_replicate, ← Nat.sub_sub, Nat.add_sub_cancel' (by omega)]
  unfold overlaid
  rw [List.length_append, length_zeros count, drop_zeros_append (by omega), drop_zeros_append h,
    hsplit, List.append_assoc, List.append_assoc]

end Bytes

/-! ## Steps -/

namespace Edit

variable {α β : Type} {b front data : Bytes}

theorem andThen {edit : Edit α} {next : α → Edit β} {b' : Bytes} {a : α} (h : edit b = .ok a b') :
    (edit >>= next) b = next a b' := by
  show EStateM.bind edit next b = next a b'
  unfold EStateM.bind
  rw [h]

theorem andThen_halt {edit : Edit α} {next : α → Edit β} {halt : Halt} (h : edit b = .error halt b) :
    (edit >>= next) b = .error halt b := by
  show EStateM.bind edit next b = .error halt b
  unfold EStateM.bind
  rw [h]

theorem check_eq {reason : Except Halt α} {a : α} (h : reason = .ok a) (b : Bytes) :
    check reason b = .ok a b := by
  rw [h]
  rfl

theorem require_eq {required : Nat} (h : required ≤ b.length) : require required b = .ok () b :=
  check_eq (Buffer.require_eq h) b

theorem require_short {required : Nat} (h : b.length < required) :
    require required b = .error (.refused (.bufferTooShort required b.length)) b := by
  unfold require
  rw [Buffer.require_short h]
  rfl

theorem put_eq {offset : Nat} (hroom : offset + data.length ≤ b.length) :
    put offset data b = .ok () (b.place offset data) := if_neg (by omega)

/-- The next field. -/
theorem put_next {offset : Nat} (h : front.length = offset)
    (hroom : offset + data.length ≤ b.length) :
    put offset data (b.overlaid front) = .ok () (b.overlaid (front ++ data)) := by
  have hlen : (b.overlaid front).length = b.length := Bytes.length_overlaid (by omega)
  rw [put_eq (by omega), Bytes.place_overlaid h]

/-- The first one. -/
theorem put_first (hroom : data.length ≤ b.length) : put 0 data b = .ok () (b.overlaid data) := by
  rw [put_eq (by omega)]
  unfold Bytes.place Bytes.overlaid
  rw [Nat.zero_add]
  rfl

theorem clear_eq {count : Nat} (h : count ≤ b.length) :
    clear count b = .ok () (b.overlaid (Bytes.zeros count)) :=
  put_first (by rw [Bytes.length_zeros]; exact h)

end Edit

/-! ## What a writer owes -/

/-- An edit writes a structure of `size` bytes as a whole or not at all, like the encoder. -/
structure AllOrNothing (size : Nat) (write : Edit Unit) (encode : Bytes → Except Error Bytes) : Prop where
  /-- A buffer that is too short is refused, and stays as it was. -/
  refuses : ∀ b : Bytes, b.length < size →
    write b = .error (.refused (.bufferTooShort size b.length)) b
  /-- In any other nothing changes behind the structure. -/
  writes : ∀ b : Bytes, size ≤ b.length → ∃ written, write b = .ok () written
    ∧ written.length = b.length ∧ written.drop size = b.drop size
  /-- What the buffers held before does not matter. -/
  alike : ∀ {b b' written written' : Bytes}, write b = .ok () written → write b' = .ok () written' →
    written.take size = written'.take size
  encodes : ∀ b : Bytes, write.result b = reported (encode b)

theorem AllOrNothing.encode_eq_ok {size : Nat} {write : Edit Unit} {encode : Bytes → Except Error Bytes}
    (h : AllOrNothing size write encode) {b written : Bytes} (hw : write b = .ok () written) :
    encode b = .ok written := by
  have hresult := h.encodes b
  unfold Edit.result at hresult
  rw [hw] at hresult
  exact reported_eq_ok.mp hresult.symm

/-- An edit that asks for as many bytes as an image has, and then writes the image. -/
structure Writes (image : Bytes) (write : Edit Unit) : Prop where
  short : ∀ b : Bytes, b.length < image.length →
    write b = .error (.refused (.bufferTooShort image.length b.length)) b
  room : ∀ b : Bytes, image.length ≤ b.length → write b = .ok () (b.overlaid image)

/-- **Who writes an image writes all or nothing.** -/
theorem Writes.allOrNothing {image : Bytes} {write : Edit Unit} (h : Writes image write) :
    AllOrNothing image.length write fun b => b.overwrite image where
  refuses := h.short
  writes b hroom := by
    refine ⟨_, h.room b hroom, Bytes.length_overlaid hroom, ?_⟩
    unfold Bytes.overlaid
    rw [List.drop_left]
  alike := by
    have hfront : ∀ {b written : Bytes}, write b = .ok () written →
        written.take image.length = image := by
      intro b written hw
      rcases Nat.lt_or_ge b.length image.length with hshort | hroom
      · rw [h.short b hshort] at hw
        exact absurd hw (by simp)
      · rw [h.room b hroom] at hw
        injection hw with _ hw
        rw [← hw]
        exact List.take_left
    intro b b' written written' hw hw'
    rw [hfront hw, hfront hw']
  encodes b := by
    unfold Edit.result
    rcases Nat.lt_or_ge b.length image.length with hshort | hroom
    · have hrefused : b.overwrite image = .error (.bufferTooShort image.length b.length) :=
        if_pos hshort
      rw [h.short b hshort, hrefused]
      rfl
    · have hwritten : b.overwrite image = .ok (b.overlaid image) := if_neg (by omega)
      rw [h.room b hroom, hwritten]
      rfl

/-! ## The structures -/

theorem Mailbox.writes (m : Mailbox) : Writes m.image m.write where
  short b hshort := by
    rw [length_image] at hshort ⊢
    exact Edit.andThen_halt (Edit.require_short hshort)
  room b hroom := by
    rw [length_image] at hroom
    have hsize : size = 68 := rfl
    have hlen : (b.overlaid (Bytes.zeros size)).length = b.length :=
      Bytes.length_overlaid (by rw [Bytes.length_zeros]; exact hroom)
    unfold write
    rw [Edit.andThen (Edit.require_eq hroom), Edit.andThen (Edit.clear_eq hroom),
      Edit.andThen (Edit.put_first (by rw [Bytes.length_ofUInt16]; omega)),
      Edit.andThen (Edit.put_next (by simp) (by simp; omega)),
      Edit.andThen (Edit.put_next (by simp) (by simp; omega)),
      Edit.andThen (Edit.put_next (by simp) (by simp; omega)),
      Edit.andThen (Edit.put_next (by simp [headOffset]) (by simp [headOffset]; omega)),
      Bytes.overlaid_cleared b 48 (by simp; omega),
      Edit.put_next (by simp [tailOffset]) (by simp [tailOffset]; omega),
      Bytes.overlaid_overlaid (by simp; omega)]
    rfl

theorem Header.writes (h : Header) : Writes h.image h.write where
  short b hshort := by
    rw [length_image] at hshort ⊢
    exact Edit.andThen_halt (Edit.require_short hshort)
  room b hroom := by
    rw [length_image] at hroom
    have hsize : size = 8 := rfl
    unfold write
    rw [Edit.andThen (Edit.require_eq hroom),
      Edit.andThen (Edit.put_first (by simp; omega)),
      Edit.andThen (Edit.put_next (by simp) (by simp; omega)),
      Edit.andThen (Edit.put_next (by simp) (by simp; omega)),
      Edit.put_next (by simp) (by simp; omega)]
    unfold image
    rw [List.append_assoc _ [h.kernelFlags]]
    rfl

theorem Response.writes {layout : Layout} (hfits : layout.responseSize < UInt64.size) (r : Response) :
    Writes (r.image layout) (r.write layout) where
  short b hshort := by
    rw [length_image] at hshort ⊢
    unfold write
    rw [Edit.andThen (Edit.check_eq (Layout.responseSizeInWord_eq hfits) b)]
    exact Edit.andThen_halt (Edit.require_short hshort)
  room b hroom := by
    rw [length_image] at hroom
    have hsize : layout.responseSize = 16 + layout.senseSize := rfl
    have hlen : (b.overlaid (Bytes.zeros layout.responseSize)).length = b.length :=
      Bytes.length_overlaid (by rw [Bytes.length_zeros]; exact hroom)
    have hheader : r.header.image.length = Header.size := Header.length_image _
    have height : Header.size = 8 := rfl
    -- cleared bytes stand behind the status, and behind sense data that is too short
    unfold write
    rw [Edit.andThen (Edit.check_eq (Layout.responseSizeInWord_eq hfits) b),
      Edit.andThen (Edit.require_eq hroom), Edit.andThen (Edit.clear_eq hroom),
      Edit.andThen (r.header.writes.room _ (by omega)),
      Edit.andThen (Edit.put_next (by omega) (by simp; omega)),
      Bytes.overlaid_cleared b 7 (by simp; omega),
      Edit.put_next (by simp [Layout.responseBase]; omega) (by simp [Layout.responseBase]; omega),
      Bytes.overlaid_cleared b (layout.senseSize - r.sense.length) (by simp; omega),
      Bytes.overlaid_overlaid (by simp; omega)]
    unfold image Bytes.fit
    rw [List.append_assoc _ (r.sense.take _)]

/-! ## Requests -/

namespace Segment

variable {layout : Layout} {b front : Bytes}

theorem write_eq {i : Nat} (s : Segment) (hfront : front.length = layout.requestSize i)
    (hfits : layout.requestSize (i + 1) < UInt64.size)
    (hroom : layout.requestSize (i + 1) ≤ b.length) :
    s.write layout i (b.overlaid front) = .ok () (b.overlaid (front ++ s.image layout.pointerWidth)) := by
  rw [layout.requestSize_succ] at hfits hroom
  unfold write
  rw [Edit.andThen (Edit.check_eq (Layout.requestSizeInWord_eq (by omega)) _),
    Edit.andThen (Edit.put_next hfront (by rw [Bytes.length_ofNat]; omega)),
    Edit.andThen (Edit.check_eq (inWord_eq (by omega)) _),
    Edit.put_next (by simp; omega) (by simp; omega), List.append_assoc]
  rfl

/-- **Segment after segment**, by induction on the list: each starts where the one before ended. -/
theorem writeFrom_eq {i : Nat} (l : List Segment) (hfront : front.length = layout.requestSize i)
    (hfits : layout.requestSize (i + l.length) < UInt64.size)
    (hroom : layout.requestSize (i + l.length) ≤ b.length) :
    writeFrom layout i l (b.overlaid front)
      = .ok () (b.overlaid (front ++ l.flatMap (image layout.pointerWidth))) := by
  induction l generalizing i front with
  | nil =>
      rw [List.flatMap_nil, List.append_nil]
      rfl
  | cons s rest ih =>
      rw [List.length_cons, Nat.add_comm rest.length, ← Nat.add_assoc] at hfits hroom
      have hsize := layout.requestSize_mono (Nat.le_add_right (i + 1) rest.length)
      have hnext : (front ++ s.image layout.pointerWidth).length = layout.requestSize (i + 1) := by
        rw [List.length_append, length_image, hfront, layout.requestSize_succ]
      unfold writeFrom
      rw [Edit.andThen (s.write_eq hfront (by omega) (by omega)), ih hnext hfits hroom,
        List.append_assoc, List.flatMap_cons]

end Segment

theorem Segments.countInWord_eq {layout : Layout} {s : Segments}
    (hfits : layout.requestSize s.count < UInt64.size) : s.countInWord = .ok s.count := by
  have hmul := Nat.le_mul_of_pos_right s.count layout.segmentSize_pos
  have hcount : s.count = s.data.length + s.bidirectional.length + s.integrity.length := rfl
  unfold Layout.requestSize at hfits
  unfold countInWord
  rw [inWord_eq (by omega)]
  exact inWord_eq (by omega)

theorem Request.writes {layout : Layout} {r : Request}
    (hfits : layout.requestSize r.segments.count < UInt64.size) :
    Writes (r.image layout) (r.write layout) where
  short b hshort := by
    rw [length_image] at hshort ⊢
    unfold write
    rw [Edit.andThen (Edit.check_eq (Segments.countInWord_eq hfits) b),
      Edit.andThen (Edit.check_eq (Layout.requestSizeInWord_eq hfits) b)]
    exact Edit.andThen_halt (Edit.require_short hshort)
  room b hroom := by
    have hsize : (r.image layout).length = layout.requestSize r.segments.count := length_image layout r
    rw [hsize] at hroom
    have hbase : 48 ≤ layout.requestSize r.segments.count := Nat.le_add_right _ _
    have hlen : (b.overlaid (Bytes.zeros (layout.requestSize r.segments.count))).length = b.length :=
      Bytes.length_overlaid (by rw [Bytes.length_zeros]; exact hroom)
    have hheader : r.header.image.length = Header.size := Header.length_image _
    have height : Header.size = 8 := rfl
    have hall : r.segments.all.length = r.segments.count := r.segments.length_all
    -- after the counts, and again after the offset of the block, the front grows over cleared bytes
    unfold write
    rw [Edit.andThen (Edit.check_eq (Segments.countInWord_eq hfits) b),
      Edit.andThen (Edit.check_eq (Layout.requestSizeInWord_eq hfits) b),
      Edit.andThen (Edit.require_eq hroom), Edit.andThen (Edit.clear_eq hroom),
      Edit.andThen (r.header.writes.room _ (by omega)),
      Edit.andThen (Edit.put_next (by omega) (by simp; omega)),
      Edit.andThen (Edit.put_next (by simp; omega) (by simp; omega)),
      Edit.andThen (Edit.put_next (by simp; omega) (by simp; omega)),
      Bytes.overlaid_cleared b 4 (by simp; omega),
      Edit.andThen (Edit.put_next (by simp; omega) (by simp; omega)),
      Bytes.overlaid_cleared b 16 (by simp; omega),
      Segment.writeFrom_eq _ (by rw [layout.requestSize_zero]; simp [Layout.requestBase]; omega)
        (by rw [hall, Nat.zero_add]; exact hfits) (by rw [hall, Nat.zero_add, hlen]; exact hroom),
      Bytes.overlaid_overlaid (by rw [Bytes.length_zeros]; exact Nat.le_of_eq hsize.symm)]
    rfl

/-! ## All or nothing -/

theorem Request.allOrNothing {layout : Layout} {r : Request}
    (hfits : layout.requestSize r.segments.count < UInt64.size) :
    AllOrNothing (layout.requestSize r.segments.count) (r.write layout) (r.encode layout) := by
  have h := (Request.writes hfits).allOrNothing
  rwa [Request.length_image] at h

theorem Response.allOrNothing {layout : Layout} (hfits : layout.responseSize < UInt64.size)
    (r : Response) : AllOrNothing layout.responseSize (r.write layout) (r.encode layout) := by
  have h := (r.writes hfits).allOrNothing
  rwa [Response.length_image] at h

theorem Header.allOrNothing (h : Header) : AllOrNothing size h.write h.encode := by
  have hwrites := h.writes.allOrNothing
  rwa [length_image] at hwrites

theorem Mailbox.allOrNothing (m : Mailbox) : AllOrNothing size m.write m.encode := by
  have h := m.writes.allOrNothing
  rwa [length_image] at h

/--
**Every writer writes its structure as a whole or not at all**, and is stopped by no buffer. One that is shorter
than the structure is refused with both sizes, and nothing in it has changed. In any other the structure stands in
front, whatever was there before, and the bytes behind it are the ones that were there. The sizes have to fit into
a word; nothing is asked of the number of segments of each kind, or of the length of the sense data.
-/
theorem writers_allOrNothing (layout : Layout) :
    (∀ m : Mailbox, AllOrNothing 68 m.write m.encode)
      ∧ (∀ h : Header, AllOrNothing 8 h.write h.encode)
      ∧ (∀ r : Request, layout.requestSize r.segments.count < UInt64.size →
        AllOrNothing (layout.requestSize r.segments.count) (r.write layout) (r.encode layout))
      ∧ (layout.responseSize < UInt64.size → ∀ r : Response,
        AllOrNothing layout.responseSize (r.write layout) (r.encode layout))
      ∧ ∀ e : Entry, e.size layout < UInt64.size →
        AllOrNothing (e.size layout) (e.write layout) (e.encode layout) := by
  refine ⟨Mailbox.allOrNothing, Header.allOrNothing, fun _ => Request.allOrNothing,
    Response.allOrNothing, fun e hfits => ?_⟩
  cases e with
  | request r => exact Request.allOrNothing hfits
  | response r => exact Response.allOrNothing hfits r
  | pad h => exact h.allOrNothing

/-- Six bytes of sense data. -/
def Response.wordy : Response where
  header := { length := 24, opcode := .command, id := 7, kernelFlags := 1, userFlags := 0 }
  status := 2
  sense := [1, 2, 3, 4, 5, 6]

/-- One data segment. -/
def Request.short : Request where
  header := { length := 64, opcode := .command, id := 7, kernelFlags := 0, userFlags := 0 }
  cdbOffset := 64
  segments := { data := [⟨1, 2⟩] }

/-- Where there is room for four bytes of sense data, a response has 20 bytes, and the two behind it stay. A
request of 64 bytes does not go into 63, as an entry or on its own. -/
theorem writers_allOrNothing_wordy :
    (∃ written, Response.wordy.write { senseSize := 4 } (List.replicate 22 255) = .ok () written
        ∧ written.length = 22 ∧ written.drop 20 = [255, 255])
      ∧ Request.short.write {} (List.replicate 63 255)
        = .error (.refused (.bufferTooShort 64 63)) (List.replicate 63 255)
      ∧ (Entry.request Request.short).write {} (List.replicate 63 255)
        = .error (.refused (.bufferTooShort 64 63)) (List.replicate 63 255) := by
  obtain ⟨_, _, _, hresponse, _⟩ := writers_allOrNothing { senseSize := 4 }
  obtain ⟨_, _, hrequest, _, hentry⟩ := writers_allOrNothing {}
  exact ⟨(hresponse (by decide) Response.wordy).writes _ (by decide),
    (hrequest Request.short (by decide)).refuses _ (by decide),
    (hentry (.request Request.short) (by decide)).refuses _ (by decide)⟩

end CommandRing
