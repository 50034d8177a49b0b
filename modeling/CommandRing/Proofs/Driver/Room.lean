import CommandRing.Driver.InPlace
import CommandRing.Proofs.Driver.Drain
import CommandRing.Proofs.Driver.Submitting
import CommandRing.Proofs.InPlace.Writing
import Mathlib.Order.Bounds.Basic

/-!
# A slot has room for what it has to hold

A slot is used three times over: for a request with as many segments as the layout allows, for the descriptor block
behind them, and for the response that takes the place of both. Its size is the least multiple of the alignment that
is enough for all of them, and words compute it by a mask (`toNat_slotSizeInWords`). Of all sizes that fit into a
word, one makes them wrap around on the way: if the contents end at `2 ^ 64 - 8`, a program that checks its sums is
stopped (`slotSizeChecked_eq`).

So the driver's buffers are large enough, whatever it is asked to submit and whatever it finds in the ring: the
driver that works in them is the driver (`submitInPlace_eq`, `consumeInPlace_eq`), and nothing that it reports is
about a buffer.
-/

namespace CommandRing

/-! ## Rounding -/

/-- To mask the low bits is to shift them out and back. -/
theorem toNat_masked (n : UInt64) : (n &&& ~~~((8 : UInt64) - 1)).toNat = n.toNat / 8 * 8 := by
  have hmask : ~~~((8 : UInt64) - 1) = (-1 : UInt64) <<< 3 := by decide
  have hshift : n &&& ~~~((8 : UInt64) - 1) = (n >>> 3) <<< 3 := by
    rw [hmask]
    exact UInt64.eq_of_toBitVec_eq BitVec.shiftLeft_ushiftRight.symm
  have hlt := n.toNat_lt
  rw [hshift, UInt64.toNat_shiftLeft, UInt64.toNat_shiftRight]
  show n.toNat >>> 3 <<< 3 % 2 ^ 64 = _
  rw [Nat.shiftLeft_eq, Nat.shiftRight_eq_div_pow, Nat.mod_eq_of_lt (by omega)]

/-- What can be rounded up is far enough from the end of the word to reach it at most. -/
theorem sum_le_of_alignUp_lt {n : Nat} (hfits : alignUp n < UInt64.size) :
    n + entryAlignment ≤ UInt64.size := by
  unfold alignUp entryAlignment UInt64.size at hfits
  unfold entryAlignment UInt64.size
  omega

/-- The sum may reach the end of the word; the next step takes it back. -/
theorem toNat_roundUp {n : UInt64} (hfits : alignUp n.toNat < UInt64.size) :
    (roundUp n 8).toNat = alignUp n.toNat := by
  have hle : n.toNat + 8 ≤ 2 ^ 64 := sum_le_of_alignUp_lt hfits
  have hsum : n + 8 - 1 = n + 7 := by
    rw [show (8 : UInt64) = 7 + 1 from rfl, ← UInt64.add_assoc, UInt64.add_sub_cancel]
  unfold roundUp alignUp entryAlignment
  rw [toNat_masked, hsum, UInt64.toNat_add, Nat.mod_eq_of_lt]
  · rfl
  · show n.toNat + 7 < 2 ^ 64
    omega

/-- A sum that is checked has to stop in front of the end of the word. -/
theorem roundUpChecked_eq {n : Nat} (hfits : alignUp n < UInt64.size) :
    roundUpChecked n entryAlignment
      = if n + entryAlignment = UInt64.size then .error (.overflow UInt64.size) else .ok (alignUp n) := by
  unfold roundUpChecked
  by_cases hwraps : n + entryAlignment = UInt64.size
  · rw [if_pos hwraps, hwraps]
    rfl
  · have hsum := Nat.lt_of_le_of_ne (sum_le_of_alignUp_lt hfits) hwraps
    rw [if_neg hwraps, inWord_eq hsum]
    show Except.ok (UInt64.ofNat (n + entryAlignment - 1) &&& ~~~((8 : UInt64) - 1)).toNat = _
    rw [toNat_masked, UInt64.toNat_ofNat_of_lt' (Nat.lt_of_le_of_lt (Nat.sub_le _ 1) hsum)]
    rfl

theorem alignUp_least {n m : Nat} (hle : n ≤ m) (hm : 8 ∣ m) : alignUp n ≤ m := by
  unfold alignUp entryAlignment
  omega

/-! ## The size of a slot -/

theorem toNat_add_words {a b : UInt64} {m n : Nat} (ha : a.toNat = m) (hb : b.toNat = n)
    (hfits : m + n < UInt64.size) : (a + b).toNat = m + n := by
  rw [UInt64.toNat_add, ha, hb, Nat.mod_eq_of_lt hfits]

theorem toNat_larger (a b : UInt64) : (if b < a then a else b).toNat = max a.toNat b.toNat := by
  split
  · rename_i hlt
    have := UInt64.lt_iff_toNat_lt.mp hlt
    omega
  · rename_i hle
    have := mt UInt64.lt_iff_toNat_lt.mpr hle
    omega

namespace Layout

variable {layout : Layout}

theorem toNat_requestEndInWords (hfits : layout.cdbOffset + layout.cdbSize < UInt64.size) :
    layout.requestEndInWords.toNat = layout.cdbOffset + layout.cdbSize := by
  have hsegments := Nat.le_mul_of_pos_right layout.maxSegments layout.segmentSize_pos
  have hwidth : layout.segmentSize ≤ 16 := by
    unfold segmentSize
    cases layout.pointerWidth <;> decide
  have hsize : UInt64.size = 2 ^ 64 := rfl
  have hsum : layout.cdbOffset = requestBase + layout.maxSegments * layout.segmentSize := rfl
  have hmul : (UInt64.ofNat layout.maxSegments * UInt64.ofNat layout.segmentSize).toNat
      = layout.maxSegments * layout.segmentSize := by
    rw [UInt64.toNat_mul, UInt64.toNat_ofNat_of_lt' (by omega), UInt64.toNat_ofNat_of_lt' (by omega),
      Nat.mod_eq_of_lt (by omega)]
  unfold requestEndInWords
  exact toNat_add_words (toNat_add_words rfl hmul (by omega)) (UInt64.toNat_ofNat_of_lt' (by omega))
    hfits

theorem toNat_responseEndInWords (hfits : layout.responseSize < UInt64.size) :
    layout.responseEndInWords.toNat = layout.responseSize := by
  have hsum : layout.responseSize = responseBase + layout.senseSize := rfl
  unfold responseEndInWords
  exact toNat_add_words rfl (UInt64.toNat_ofNat_of_lt' (by omega)) hfits

/-- **The slot size that words compute is the one that is meant.** No part of it is larger than the whole. -/
theorem toNat_slotSizeInWords (hfits : layout.slotSize < UInt64.size) :
    layout.slotSizeInWords.toNat = layout.slotSize := by
  obtain ⟨hrequest, hresponse⟩ := layout.le_slotSize
  have hlargest := toNat_larger layout.requestEndInWords layout.responseEndInWords
  rw [toNat_requestEndInWords (by omega), toNat_responseEndInWords (by omega)] at hlargest
  have hround := toNat_roundUp (n := if layout.responseEndInWords < layout.requestEndInWords then
    layout.requestEndInWords else layout.responseEndInWords) (by rw [hlargest]; exact hfits)
  rwa [hlargest] at hround

/-- **With its sums checked the size is the same**, but for the sum of the rounding. -/
theorem slotSizeChecked_eq (hfits : layout.slotSize < UInt64.size) :
    layout.slotSizeChecked
      = if max (layout.cdbOffset + layout.cdbSize) layout.responseSize + entryAlignment = UInt64.size then
          .error (.overflow UInt64.size)
        else .ok layout.slotSize := by
  obtain ⟨hrequest, hresponse⟩ := layout.le_slotSize
  have hoffset : layout.requestSize layout.maxSegments = layout.cdbOffset := rfl
  have hlargest : (if layout.responseSize < layout.cdbOffset + layout.cdbSize then
      layout.cdbOffset + layout.cdbSize else layout.responseSize)
        = max (layout.cdbOffset + layout.cdbSize) layout.responseSize := by
    split <;> omega
  unfold slotSizeChecked
  rw [requestSizeInWord_eq (by omega), hoffset]
  dsimp only [bind, Except.bind]
  rw [inWord_eq (by omega), responseSizeInWord_eq (by omega)]
  dsimp only
  rw [hlargest]
  exact roundUpChecked_eq hfits

/-- Nothing that is enough for a slot's contents, and aligned, is smaller than a slot. -/
theorem slotSize_isLeast (layout : Layout) :
    IsLeast {n | 8 ∣ n ∧ layout.cdbOffset + layout.cdbSize ≤ n ∧ layout.responseSize ≤ n}
      layout.slotSize := by
  refine ⟨⟨Nat.dvd_of_mod_eq_zero layout.slotSize_aligned, layout.le_slotSize⟩, ?_⟩
  rintro n ⟨haligned, hrequest, hresponse⟩
  exact alignUp_least (max_le hrequest hresponse) haligned

/-- What a slot of this layout has to be, and to hold. -/
structure Roomy (layout : Layout) : Prop where
  /-- Words that wrap around compute the size, whatever becomes of the sums on the way. -/
  inWords : layout.slotSizeInWords.toNat = layout.slotSize
  /-- If a program stops where a sum leaves its word, it computes the size too. The exception is the largest size
  there is: contents that end at `2 ^ 64 - 8` are rounded up by way of `2 ^ 64`. -/
  checked : layout.slotSizeChecked
    = if max (layout.cdbOffset + layout.cdbSize) layout.responseSize + entryAlignment = UInt64.size then
        .error (.overflow UInt64.size)
      else .ok layout.slotSize
  least : IsLeast {n | 8 ∣ n ∧ layout.cdbOffset + layout.cdbSize ≤ n ∧ layout.responseSize ≤ n}
    layout.slotSize
  /-- A request with as many segments as are allowed leaves the place of the descriptor block alone. -/
  request : ∀ (r : Request) (b : Bytes), r.segments.count ≤ layout.maxSegments →
    b.length = layout.slotSize → layout.requestSize r.segments.count ≤ layout.cdbOffset
      ∧ ∃ written, r.write layout b = .ok () written ∧ r.encode layout b = .ok written
        ∧ written.length = layout.slotSize
        ∧ written.drop layout.cdbOffset = b.drop layout.cdbOffset
  /-- The descriptor block ends inside the slot, and can be put there. -/
  block : ∀ (cdb : CommandBlock) (b : Bytes), cdb.length ≤ layout.cdbSize →
    b.length = layout.slotSize → layout.cdbOffset + cdb.length ≤ layout.slotSize
      ∧ ∃ written, Edit.put layout.cdbOffset cdb.bytes b = .ok () written
        ∧ written.length = layout.slotSize
  response : ∀ (r : Response) (b : Bytes), b.length = layout.slotSize →
    ∃ written, r.write layout b = .ok () written ∧ r.encode layout b = .ok written
      ∧ written.length = layout.slotSize
  /-- Whatever a slot holds can be read as a response. -/
  readable : ∀ b : Bytes, b.length = layout.slotSize →
    ∃ r, Response.read layout b = .ok r ∧ Response.decode layout b = .ok r

theorem roomy (hfits : layout.slotSize < UInt64.size) : layout.Roomy where
  inWords := toNat_slotSizeInWords hfits
  checked := slotSizeChecked_eq hfits
  least := layout.slotSize_isLeast
  request r b hcount hlen := by
    obtain ⟨hroom, _⟩ := layout.le_slotSize
    have hle : layout.requestSize r.segments.count ≤ layout.cdbOffset :=
      layout.requestSize_mono hcount
    have hfits' : layout.requestSize r.segments.count < UInt64.size := by omega
    have hwhole := Request.allOrNothing hfits'
    obtain ⟨written, hwritten, hlength, hdrop⟩ := hwhole.writes b (by omega)
    refine ⟨hle, written, hwritten, hwhole.encode_eq_ok hwritten, hlength.trans hlen, ?_⟩
    have hrest := congrArg (List.drop (layout.cdbOffset - layout.requestSize r.segments.count)) hdrop
    rwa [List.drop_drop, List.drop_drop, Nat.add_sub_cancel' hle] at hrest
  block cdb b hcdb hlen := by
    obtain ⟨hroom, _⟩ := layout.le_slotSize
    have hend : layout.cdbOffset + cdb.bytes.length ≤ layout.slotSize :=
      Nat.le_trans (Nat.add_le_add_left hcdb _) hroom
    exact ⟨hend, _, Edit.put_eq (by omega), (Bytes.length_place (by omega)).trans hlen⟩
  response r b hlen := by
    obtain ⟨_, hroom⟩ := layout.le_slotSize
    have hfits' : layout.responseSize < UInt64.size := by omega
    have hwhole := Response.allOrNothing hfits' r
    obtain ⟨written, hwritten, hlength, _⟩ := hwhole.writes b (by omega)
    exact ⟨written, hwritten, hwhole.encode_eq_ok hwritten, hlength.trans hlen⟩
  readable b hlen := by
    obtain ⟨_, hroom⟩ := layout.le_slotSize
    have hdecode : ∃ r, Response.decode layout b = .ok r := ⟨_, if_neg (by omega)⟩
    obtain ⟨r, hr⟩ := hdecode
    refine ⟨r, ?_, hr⟩
    rw [Response.read_eq_decode (by omega), hr]
    rfl

end Layout

/-! ## The driver in its buffers -/

theorem reported_bind {α β : Type} (result : Except Error α) (next : α → Except Error β) :
    reported (result >>= next) = reported result >>= fun a => reported (next a) := by
  cases result <;> rfl

theorem Geometry.Valid.slotSize_lt {g : Geometry} {layout : Layout} (h : g.Valid layout) :
    layout.slotSize < 2 ^ 32 := by
  rw [← h.slotSize_eq]
  exact g.slotSize.toNat_lt

namespace Driver

variable {d : Driver} {command : Command}

/-- A driver never computes a place that does not fit into a word. -/
theorem slotInPlace_eq (hg : d.geometry.Valid d.layout) (id : CommandId)
    (hs : command.segments.count ≤ d.layout.maxSegments) (hc : command.cdb.length ≤ d.layout.cdbSize) :
    d.slotInPlace id command = reported (d.slotFor id command) := by
  obtain ⟨hroom, _⟩ := d.layout.le_slotSize
  have hslot := hg.slotSize_eq
  have hlt := hg.slotSize_lt
  have hoffset := d.geometry.offset.toNat_lt
  have hstart := (d.geometry.ringOffset d.cursor.tail.index).toNat_lt
  have hword : UInt64.size = 2 ^ 64 := rfl
  have hsize := d.layout.requestSize_mono hs
  have hcdb : d.layout.requestSize d.layout.maxSegments = d.layout.cdbOffset := rfl
  have hblock : command.cdb.bytes.length ≤ d.layout.cdbSize := hc
  have hlen := Bytes.length_zeros d.geometry.slotSize.toNat
  have himage := length_requestImage_le d id hs
  have hwrites : Writes ((d.requestFor id command).image d.layout)
      ((d.requestFor id command).write d.layout) :=
    Request.writes (show d.layout.requestSize command.segments.count < UInt64.size by omega)
  rw [slotFor_eq_ok hg hs]
  unfold slotInPlace Edit.result fillSlot
  rw [Edit.andThen (Edit.check_eq (Layout.requestSizeInWord_eq (by omega)) _),
    Edit.andThen (Edit.check_eq (inWord_eq (by unfold Geometry.slotOffset; omega)) _),
    Edit.andThen (hwrites.room _ (by omega)),
    Edit.put_eq (by rw [Bytes.length_overlaid (by omega)]; omega)]
  rfl

theorem submitInPlace_eq (hg : d.geometry.Valid d.layout) (memory : Region) (command : Command) :
    d.submitInPlace memory command
      = (reported (d.submit memory command).1, (d.submit memory command).2) := by
  unfold submitInPlace submit
  rcases hcheck : d.checkCommand command with e | ⟨⟩
  · rfl
  obtain ⟨hs, hc, _, _⟩ := checkCommand_eq_ok.mp hcheck
  dsimp only
  rcases d.allocateId with ⟨_ | id, next⟩
  · rfl
  dsimp only
  rw [slotInPlace_eq (d := { d with nextId := next }) hg id hs hc]
  cases { d with nextId := next }.slotFor id command with
  | error e => rfl
  | ok slot =>
      dsimp only [reported]
      rcases hpublish : { d with nextId := next }.publish memory slot with ⟨_ | _, _, _⟩ <;>
        rw [hpublish]

theorem consumeInPlace_eq (hg : d.geometry.Valid d.layout) (memory : Region) :
    d.consumeInPlace memory = reported (d.consume memory) := by
  have hresponse : d.layout.responseSize < UInt64.size := by
    obtain ⟨_, hroom⟩ := d.layout.le_slotSize
    have hlt := hg.slotSize_lt
    have hword : UInt64.size = 2 ^ 64 := rfl
    omega
  unfold consumeInPlace consume
  simp only [reported_bind, Header.read_eq_decode, Response.read_eq_decode hresponse]
  -- they differ only in how they report a strange command
  refine congrArg _ (funext fun raw => congrArg _ (funext fun header => ?_))
  refine congrArg _ (funext fun _ => congrArg _ (funext fun response => ?_))
  split <;> rfl

/-- A driver that is never stopped by a buffer of its own, whatever the memory and the command. -/
structure StaysInside (d : Driver) : Prop where
  /-- A submit in a buffer does what a submit does, so nothing stops it but an error that it reports. -/
  submit : ∀ memory command, d.submitInPlace memory command
    = (reported (d.submit memory command).1, (d.submit memory command).2)
  /-- So does the next step of a drain. -/
  consume : ∀ memory, d.consumeInPlace memory = reported (d.consume memory)
  /-- No submit finds its buffer too short. -/
  submitted : ∀ memory command required actual,
    (d.submit memory command).1 ≠ .error (.bufferTooShort required actual)
  /-- Nor does a step of a drain. -/
  drained : ∀ memory drain required actual,
    (d.next memory drain).1 ≠ some (.error (.bufferTooShort required actual))

theorem Sound.staysInside (h : d.Sound) : d.StaysInside where
  submit := submitInPlace_eq h.geometry
  consume := consumeInPlace_eq h.geometry
  submitted memory command required actual hr := by
    obtain ⟨_, hrefused⟩ := h.submit_error (Prod.ext hr rfl)
    cases hrefused
  drained memory drain required actual hr := by
    rcases h.next_cases memory drain with
      ⟨_, hnext⟩ | ⟨_, _, _, _, _, hnext⟩ | ⟨e, _, _, hconsume, hnext⟩
    · rw [hnext] at hr
      exact absurd hr (by simp)
    · rw [hnext] at hr
      exact absurd hr (by simp)
    · obtain ⟨reason, rfl⟩ := h.consume_error hconsume
      rw [hnext] at hr
      exact absurd hr (by simp)

end Driver

namespace Session

/--
**A slot is exactly large enough.** Its size is the least multiple of 8 that is enough for a request with its
descriptor block and for a response, and words compute it by a mask, as long as it fits into one. They may wrap
around on the way; with every sum checked they compute it too, unless the contents end at `2 ^ 64 - 8`. Any request
with no more segments than the layout allows goes into a slot, in front of where the block is put; the block ends
inside the slot, and any response can be written to a slot and read from it. So a driver never refuses anything for
the size of a buffer, and never leaves one.
-/
theorem slot_exactly_large_enough :
    (∀ layout : Layout, layout.slotSize < UInt64.size → layout.Roomy)
      ∧ ∀ {replies : List Reply} {s : Session}, Run replies s → s.driver.StaysInside :=
  ⟨fun _ => Layout.roomy, fun h => (invariant_run h).sound.staysInside⟩

/-- A slot of 64 bytes: 56 for a request with one segment, 6 for the block, and 2 that nothing needs. -/
theorem slot_exactly_large_enough_narrowLayout :
    narrowLayout.slotSizeInWords = 64
      ∧ (∃ written, (narrowDriver.requestFor 1 farCommand).write narrowLayout (List.replicate 64 255)
          = .ok () written ∧ written.length = 64 ∧ written.drop 56 = List.replicate 8 255)
      ∧ Run [] (idle narrowDriver)
      ∧ (narrowDriver.submitInPlace narrowRing farCommand).1 = .ok 1 := by
  obtain ⟨hroomy, hinside⟩ := slot_exactly_large_enough
  have hroom := hroomy narrowLayout (by decide)
  have hrun : Run [] (idle narrowDriver) := .attached attach_narrowRing.1
  refine ⟨UInt64.toNat_inj.mp hroom.inWords, ?_, hrun, ?_⟩
  · obtain ⟨_, written, hwritten, _, hrest⟩ := hroom.request (narrowDriver.requestFor 1 farCommand)
      (List.replicate 64 255) (by decide) (by decide)
    exact ⟨written, hwritten, hrest⟩
  · have hsubmit := (hinside hrun).submit narrowRing farCommand
    have hid := attach_narrowRing.2
    dsimp only [idle] at hsubmit
    rw [hsubmit, hid]
    rfl

end Session

end CommandRing
