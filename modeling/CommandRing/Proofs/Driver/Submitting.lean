import CommandRing.Kernel
import CommandRing.Proofs.Codec.Restoring
import CommandRing.Proofs.Driver.Session
import CommandRing.Proofs.Exchange.Memory

/-!
# What a submit leaves behind

A submit that fails leaves nothing behind. It decides on everything it can decide before it writes, and of what
comes then only the write of the slot can fail, which is the first thing that would show. `Refused` lists the
errors; the one error that leaves a trace is a slot out of reach, and the trace is in the driver.

A submit that succeeds leaves the request and the descriptor block, and clears what an earlier response left in
the slot. The slot is these two with zeros behind each (`slotFor_closed`), and everything the kernel finds in it
is read off this form. The segments of a request take at most the room in front of the descriptor block, so
neither can run into the other.
-/

namespace CommandRing

/-! ## Zeros -/

namespace Bytes

theorem take_zeros (count n : Nat) : (zeros n).take count = zeros (min count n) := List.take_replicate

theorem drop_zeros (count n : Nat) : (zeros n).drop count = zeros (n - count) := List.drop_replicate

/-- Bytes placed behind a front, over zeros. -/
theorem place_front {front data : Bytes} {offset n : Nat} (hfront : front.length ≤ offset)
    (hdata : offset + data.length ≤ n) :
    place (front ++ (zeros n).drop front.length) offset data
      = front ++ zeros (offset - front.length) ++ data ++ zeros (n - (offset + data.length)) := by
  unfold place
  rw [drop_zeros, List.take_append, List.take_of_length_le hfront, take_zeros, List.drop_append,
    List.drop_eq_nil_of_le (by omega), List.nil_append, drop_zeros,
    show min (offset - front.length) (n - front.length) = offset - front.length by omega,
    show n - front.length - (offset + data.length - front.length) = n - (offset + data.length) by omega]

/-- Beside the two there are zeros. -/
theorem byteAt_beside {front data : Bytes} {offset n i : Nat} (hle : front.length ≤ offset)
    (hbehind : front.length ≤ i → ¬ (offset ≤ i ∧ i < offset + data.length))
    (hin : i < front.length → front.byteAt i = 0) :
    (front ++ zeros (offset - front.length) ++ data ++ zeros n).byteAt i = 0 := by
  have hfront : (front ++ zeros (offset - front.length)).length = offset := by
    rw [List.length_append, length_zeros]
    omega
  rcases Nat.lt_or_ge i front.length with hi | hi
  · rw [byteAt_append_left (by rw [List.length_append]; omega),
      byteAt_append_left (by omega), byteAt_append_left hi, hin hi]
  have hgap := hbehind hi
  rcases Nat.lt_or_ge i offset with hi' | hi'
  · rw [byteAt_append_left (by rw [List.length_append]; omega),
      byteAt_append_left (by omega), byteAt_append_right hi, byteAt_zeros]
  · rw [byteAt_append_right (by rw [List.length_append]; omega), byteAt_zeros]

end Bytes

namespace Driver

variable {d : Driver} {memory : Region} {command : Command}

/-! ## Failing -/

/-- Why a submit fails, with the driver that it leaves. -/
inductive Refused (d : Driver) (memory : Region) (command : Command) : Error → Driver → Prop where
  | tooManySegments : d.layout.maxSegments < command.segments.count →
      Refused d memory command (.tooManySegments command.segments.count d.layout.maxSegments) d
  | cdbTooLong : d.layout.cdbSize < command.cdb.length →
      Refused d memory command (.cdbTooLong command.cdb.length d.layout.cdbSize) d
  /-- It has stopped trusting the memory, for the reason on record. -/
  | distrusting {reason : Corruption} : d.poison = some reason →
      Refused d memory command (.corrupt reason) d
  /-- Every slot is taken by a command in flight. -/
  | full : d.poison = none → d.inFlight.length = d.geometry.slotCount.toNat →
      Refused d memory command (.ringFull d.geometry.slotCount.toNat) d
  /-- The slot at the tail is out of reach. The id for the command is not used, and not tried next either. -/
  | unreachable {id : CommandId} : d.poison = none →
      memory.length < d.geometry.slotStart d.cursor.tail.index.toNat + d.geometry.slotSize.toNat →
      Refused d memory command (.corrupt (d.tailOutside memory))
        { d with nextId := CommandId.successor id, poison := some (d.tailOutside memory) }

theorem Sound.refused_of_check (h : d.Sound) (memory : Region) {e : Error}
    (hcheck : d.checkCommand command = .error e) : d.Refused memory command e d := by
  unfold checkCommand at hcheck
  split at hcheck
  · rename_i hsegments
    injection hcheck with he
    subst he
    exact .tooManySegments hsegments
  split at hcheck
  · rename_i hcdb
    injection hcheck with he
    subst he
    exact .cdbTooLong hcdb
  cases hp : d.poison with
  | some reason =>
      unfold checkPoison at hcheck
      rw [hp] at hcheck
      injection hcheck with he
      subst he
      exact .distrusting hp
  | none =>
      rw [checkPoison_eq_ok.mpr hp] at hcheck
      dsimp only at hcheck
      split at hcheck
      · rename_i hfull
        injection hcheck with he
        subst he
        exact .full hp (h.isFull_iff.mp hfull)
      · exact absurd hcheck (by simp)

/-- **A submit that fails does not write**, and fails for one of these reasons. -/
theorem Sound.submit_error (h : d.Sound) {e : Error} {d' : Driver} {memory' : Region}
    (hr : d.submit memory command = (.error e, d', memory')) :
    memory' = memory ∧ d.Refused memory command e d' := by
  rcases h.submit_cases memory command with
    ⟨_, hcheck, hcase⟩ | ⟨_, hcheck, hout, hcase⟩ | ⟨_, _, _, _, _, _, _, hcase⟩
  · rw [hcase] at hr
    injection hr with he hr
    injection he with he
    injection hr with hd hm
    subst he hd hm
    exact ⟨rfl, h.refused_of_check memory hcheck⟩
  · rw [hcase] at hr
    injection hr with he hr
    injection he with he
    injection hr with hd hm
    subst he hd hm
    obtain ⟨_, _, hp, _⟩ := checkCommand_eq_ok.mp hcheck
    exact ⟨rfl, .unreachable hp (Nat.lt_of_not_le hout)⟩
  · rw [hcase] at hr
    exact absurd (congrArg Prod.fst hr) (by simp)

theorem Refused.cursor_eq {e : Error} {d' : Driver} (h : d.Refused memory command e d') :
    d'.cursor = d.cursor ∧ d'.inFlight = d.inFlight := by
  cases h <;> exact ⟨rfl, rfl⟩

/-- Only a corruption leaves a trace. -/
theorem Refused.eq_of_not_corrupt {e : Error} {d' : Driver} (h : d.Refused memory command e d')
    (he : ∀ reason, e ≠ .corrupt reason) : d' = d := by
  cases h with
  | unreachable => exact absurd rfl (he _)
  | _ => rfl

/-! ## The slot that is written -/

/-- **The request, zeros, the descriptor block, and zeros.** -/
theorem slotFor_closed (hg : d.geometry.Valid d.layout) (id : CommandId)
    (hs : command.segments.count ≤ d.layout.maxSegments) (hc : command.cdb.length ≤ d.layout.cdbSize) :
    d.slotFor id command = .ok
      ((d.requestFor id command).image d.layout
        ++ Bytes.zeros (d.layout.cdbOffset - ((d.requestFor id command).image d.layout).length)
        ++ command.cdb.bytes
        ++ Bytes.zeros (d.geometry.slotSize.toNat - (d.layout.cdbOffset + command.cdb.length))) := by
  have hroom := d.layout.le_slotSize.1
  rw [slotFor_eq_ok hg hs, Bytes.place_front (length_requestImage_le d id hs)]
  · rfl
  · rw [hg.slotSize_eq]
    exact Nat.le_trans (Nat.add_le_add_left hc _) hroom

/-- The bytes of a slot that a command takes: the request without its reserved bytes, and the descriptor
block. -/
def Taken (layout : Layout) (command : Command) (i : Nat) : Prop :=
  (i < layout.requestSize command.segments.count ∧ Request.reserved i = false)
    ∨ (layout.cdbOffset ≤ i ∧ i < layout.cdbOffset + command.cdb.length)

/-- What can be read of a command in a slot that starts at `start` in the mapping. -/
structure Spelled (d : Driver) (start : Nat) (id : CommandId) (command : Command) (slot : Bytes)
    (r : Request) : Prop where
  decoded : Request.decode d.layout slot = .ok r
  header : r.header =
    { length := d.geometry.slotSize, opcode := .command, id := id, kernelFlags := 0, userFlags := 0 }
  segments : r.segments = command.segments.normal d.layout.pointerWidth
  /-- The request says where the descriptor block starts. -/
  cdbOffset : r.cdbOffset.toNat = start + d.layout.cdbOffset
  cdb : command.cdb.bytes <+: slot.drop d.layout.cdbOffset
  /-- The block ends where its own bytes say. -/
  delimited : Cdb.expectedLength (slot.drop d.layout.cdbOffset) = some command.cdb.length
  blank : ∀ i, ¬ Taken d.layout command i → slot.byteAt i = 0

/-- A slot cannot refer to more segments than 32 bits count, or it would be larger than that. -/
theorem countable_requestFor (hg : d.geometry.Valid d.layout) (id : CommandId)
    (hs : command.segments.count ≤ d.layout.maxSegments) : (d.requestFor id command).Countable := by
  have hsize := d.geometry.slotSize.toNat_lt
  have hroom := d.layout.le_slotSize.1
  have hsegments := Nat.le_mul_of_pos_right d.layout.maxSegments d.layout.segmentSize_pos
  rw [hg.slotSize_eq] at hsize
  unfold Layout.cdbOffset Layout.requestSize at hroom
  have hcount : command.segments.count < UInt32.size := Nat.lt_of_le_of_lt (by omega) hsize
  unfold Segments.count at hcount
  exact ⟨show command.segments.data.length < _ by omega,
    show command.segments.bidirectional.length < _ by omega,
    show command.segments.integrity.length < _ by omega⟩

/-- Nothing is lost of the header, as the size of a slot is a multiple of eight. -/
theorem normal_header_requestFor (hg : d.geometry.Valid d.layout) (id : CommandId)
    (command : Command) : (d.requestFor id command).header.normal
      = { length := d.geometry.slotSize, opcode := .command, id := id, kernelFlags := 0,
          userFlags := 0 } := by
  have hlength : UInt32.ofNat (d.geometry.slotSize.toNat / 8 * 8) = d.geometry.slotSize := by
    refine UInt32.toNat_inj.mp ?_
    have hlt := d.geometry.slotSize.toNat_lt
    have haligned := d.layout.slotSize_aligned
    unfold entryAlignment at haligned
    rw [hg.slotSize_eq] at hlt
    rw [UInt32.toNat_ofNat', hg.slotSize_eq]
    omega
  unfold requestFor Header.normal
  dsimp only
  rw [hlength]
  rfl

theorem Sound.toNat_cdbOffset (h : d.Sound) :
    (UInt64.ofNat (d.geometry.slotOffset d.cursor.tail.index + d.layout.cdbOffset)).toNat
      = d.geometry.slotStart d.cursor.tail.index.toNat + d.layout.cdbOffset := by
  have hroom := d.layout.le_slotSize.1
  have hslot := h.geometry.slotSize_eq
  have hin := h.geometry.slotStart_le h.ahead.tail_onRing
  have hoffset := d.geometry.offset.toNat_lt
  have hsize := d.geometry.size.toNat_lt
  rw [h.slotOffset_tail, UInt64.toNat_ofNat', Nat.mod_eq_of_lt (by omega)]

/-- **Whatever was in the slot before, it spells the command.** -/
theorem Sound.spelled (h : d.Sound) {id : CommandId}
    (hs : command.segments.count ≤ d.layout.maxSegments)
    (hc : command.cdb.length ≤ d.layout.cdbSize) {slot : Bytes}
    (hslot : d.slotFor id command = .ok slot) :
    d.Spelled (d.geometry.slotStart d.cursor.tail.index.toNat) id command slot
      ((d.requestFor id command).normal d.layout) := by
  have hsize := length_requestImage_le d id hs
  have hlen := Request.length_image d.layout (d.requestFor id command)
  have hfront : ((d.requestFor id command).image d.layout
      ++ Bytes.zeros (d.layout.cdbOffset - ((d.requestFor id command).image d.layout).length)).length
      = d.layout.cdbOffset := by
    rw [List.length_append, Bytes.length_zeros]
    omega
  rw [slotFor_closed h.geometry id hs hc] at hslot
  injection hslot with hslot
  subst hslot
  have hdrop : ∀ rest, List.drop d.layout.cdbOffset ((d.requestFor id command).image d.layout
      ++ Bytes.zeros (d.layout.cdbOffset - ((d.requestFor id command).image d.layout).length)
      ++ command.cdb.bytes ++ rest) = command.cdb.bytes ++ rest := by
    intro rest
    rw [List.append_assoc _ command.cdb.bytes, List.drop_left' hfront]
  refine ⟨?_, normal_header_requestFor h.geometry id command, rfl, h.toNat_cdbOffset, ?_, ?_, ?_⟩
  · rw [List.append_assoc, List.append_assoc]
    exact Request.decode_image d.layout (countable_requestFor h.geometry id hs) _
  · rw [hdrop]
    exact List.prefix_append _ _
  · rw [hdrop]
    exact Cdb.expectedLength_append command.cdb.expectedLength_eq _
  · intro i hfree
    have himage : (d.requestFor id command).size d.layout
        = d.layout.requestSize command.segments.count := rfl
    unfold Taken at hfree
    rw [not_or, not_and, Bool.not_eq_false] at hfree
    refine Bytes.byteAt_beside hsize (fun _ => hfree.2) ?_
    intro hi
    exact Request.byteAt_reserved d.layout _ (hfree.1 (by omega))

/-! ## Publishing it -/

/-- A write at the tail is what the memory has there afterwards. -/
theorem Sound.slotBytes_writtenTo (h : d.Sound) {slot : Bytes}
    (hlen : slot.length = d.geometry.slotSize.toNat)
    (hin : d.geometry.slotStart d.cursor.tail.index.toNat + d.geometry.slotSize.toNat
      ≤ memory.length) :
    d.geometry.slotBytes (d.writtenTo memory slot) d.cursor.tail.index.toNat = slot := by
  unfold writtenTo
  rw [h.geometry.slotBytes_put_cursor (by decide)]
  exact d.geometry.slotBytes_put_self hlen (Nat.le_trans hin memory.length_le_size)

/-- A submit published a command: this is what the memory has where the tail of `d` was. -/
structure Posted (d : Driver) (memory : Region) (id : CommandId) (command : Command) (slot : Bytes)
    (r : Request) : Prop where
  /-- The slot can be read, and so can the descriptor block where the request says it is. -/
  readable : memory.read (d.geometry.slotOffset d.cursor.tail.index) d.geometry.slotSize.toNat
    = .ok slot
  pointed : memory.read r.cdbOffset.toNat (d.geometry.slotSize.toNat - d.layout.cdbOffset)
    = .ok (slot.drop d.layout.cdbOffset)
  spelled : d.Spelled (d.geometry.slotOffset d.cursor.tail.index) id command slot r

/-- **A submit that succeeds publishes the command.** -/
theorem Sound.submit_posts (h : d.Sound) {id : CommandId} {d' : Driver} {memory' : Region}
    (hr : d.submit memory command = (.ok id, d', memory')) :
    ∃ slot r, d.Posted memory' id command slot r := by
  obtain ⟨slot, hcheck, hslot, hin, _, rfl⟩ := h.submit_eq_ok hr
  obtain ⟨hs, hc, _, _⟩ := checkCommand_eq_ok.mp hcheck
  have hlen := length_slotFor h.geometry hs hc hslot
  have hspelled := h.spelled hs hc hslot
  have hbytes := h.slotBytes_writtenTo hlen hin
  have hsize := (d.writtenTo memory slot).length_le_size
  have hlength : (d.writtenTo memory slot).length = memory.length := by
    unfold writtenTo
    rw [Region.length_put, Region.length_put]
  rw [← hlength] at hin
  refine ⟨slot, (d.requestFor id command).normal d.layout, ?_, ?_, ?_⟩
  · rw [h.slotOffset_tail]
    exact Region.read_eq_ok.mpr ⟨hin, hbytes⟩
  -- the block is a part of the slot
  · have hroom := d.layout.le_slotSize.1
    have hslotSize := h.geometry.slotSize_eq
    have hpart : Bytes.slice (d.geometry.slotBytes (d.writtenTo memory slot) d.cursor.tail.index.toNat)
        d.layout.cdbOffset (d.geometry.slotSize.toNat - d.layout.cdbOffset)
        = (d.writtenTo memory slot).extract
          (d.geometry.slotStart d.cursor.tail.index.toNat + d.layout.cdbOffset)
          (d.geometry.slotSize.toNat - d.layout.cdbOffset) :=
      Region.slice_extract (Nat.le_trans hin hsize) (by omega)
    unfold Bytes.slice at hpart
    rw [hbytes, List.take_of_length_le (by rw [List.length_drop]; omega)] at hpart
    rw [hspelled.cdbOffset]
    exact Region.read_eq_ok.mpr ⟨by omega, hpart.symm⟩
  · rw [h.slotOffset_tail]
    exact hspelled

/-- **The kernel recovers the request and the descriptor block.** -/
theorem Sound.kernel_finds (h : d.Sound) {id : CommandId} {slot : Bytes} {r : Request}
    (hp : d.Posted memory id command slot r) {k : Kernel} (hlayout : k.layout = d.layout)
    (hoffset : k.offset = d.geometry.offset.toNat) :
    k.requestAt memory d.cursor.tail.index.toNat = .ok r
      ∧ k.cdbAt memory d.cursor.tail.index.toNat = .ok command.cdb.bytes := by
  obtain ⟨hin, hbytes⟩ := Region.read_eq_ok.mp hp.readable
  have hwhole : memory.whole.length = memory.bytes.size := Nat.min_self _
  have hslot : k.slot memory d.cursor.tail.index.toNat = .ok slot := by
    have hplace : k.slotOffset d.cursor.tail.index.toNat
        = d.geometry.slotOffset d.cursor.tail.index := by
      rw [h.slotOffset_tail]
      unfold Kernel.slotOffset Geometry.slotStart
      rw [hoffset, hlayout, h.geometry.slotSize_eq]
    unfold Kernel.slot
    rw [hplace, hlayout, ← h.geometry.slotSize_eq]
    exact Region.read_eq_ok.mpr
      ⟨by rw [hwhole]; exact Nat.le_trans hin memory.length_le_size, hbytes⟩
  obtain ⟨rest, hrest⟩ := hp.spelled.cdb
  constructor
  · unfold Kernel.requestAt
    rw [hslot, hlayout]
    exact hp.spelled.decoded
  · have hdelimited := hp.spelled.delimited
    rw [← hrest] at hdelimited
    unfold Kernel.cdbAt
    rw [hslot, hlayout]
    dsimp only [bind, Except.bind, pure, Except.pure]
    rw [← hrest, hdelimited, Option.getD_some]
    exact congrArg _ List.take_left

end Driver

namespace Session

variable {replies : List Reply} {s : Session} {memory memory' : Region} {command : Command}
  {d' : Driver}

/--
**A submit that fails leaves everything as it was.** The memory is the same, and so are the cursor and the ids in
flight. A driver that has nothing to report about the memory is the same altogether. The reasons for which a
submit fails are the ones of `Refused`: the command is too large for a slot, the driver does not trust the memory
or cannot reach the slot, or there are as many commands in flight as there are slots.
-/
theorem failed_submit_leaves_no_trace (h : Run replies s) {e : Error}
    (hr : s.driver.submit memory command = (.error e, d', memory')) :
    memory' = memory ∧ d'.cursor = s.driver.cursor ∧ d'.inFlight = s.driver.inFlight
      ∧ ((∀ reason, e ≠ .corrupt reason) → d' = s.driver)
      ∧ s.driver.Refused memory command e d' := by
  obtain ⟨hmemory, hrefused⟩ := (invariant_run h).sound.submit_error hr
  obtain ⟨hcursor, hinFlight⟩ := hrefused.cursor_eq
  exact ⟨hmemory, hcursor, hinFlight, hrefused.eq_of_not_corrupt, hrefused⟩

/-- The small ring of which little more than the mailbox is granted. -/
def shrunkRing : Region := smallRing.grant 100

set_option maxRecDepth 10000 in
/-- The tail of the mailbox could be written, but not the slot before it. The id 1 is not tried again. -/
theorem failed_submit_shrunkRing :
    Run [] (idle smallDriver)
      ∧ smallDriver.submit shrunkRing Command.testUnitReady
        = (.error (.corrupt (.outsideRegion 56 72 100)),
          { smallDriver with nextId := 2, poison := some (.outsideRegion 56 72 100) }, shrunkRing)
      ∧ smallDriver.Refused shrunkRing Command.testUnitReady
        (.corrupt (.outsideRegion 56 72 100))
        { smallDriver with nextId := 2, poison := some (.outsideRegion 56 72 100) } := by
  have hrun : Run [] (idle smallDriver) := .attached attach_smallRing.2
  have hsubmit : smallDriver.submit shrunkRing Command.testUnitReady
      = (.error (.corrupt (.outsideRegion 56 72 100)),
        { smallDriver with nextId := 2, poison := some (.outsideRegion 56 72 100) }, shrunkRing) := by
    decide
  obtain ⟨_, _, _, _, hrefused⟩ := failed_submit_leaves_no_trace hrun hsubmit
  exact ⟨hrun, hsubmit, hrefused⟩

/--
**A submit that succeeds publishes the command, and nothing else.** The slot at the tail reads back as a request
with the id that was returned, without any flag, as long as the slot, and with the caller's segments in order, as
far as the pointer width keeps them. It says where the descriptor block lies; the bytes from there to the end of
the slot start with the block, and they say themselves where it ends, as they would with anything else behind it.
All that the command does not take of the slot is zero. So a kernel of this ring finds the request and the block.
-/
theorem submit_publishes_command (h : Run replies s) {id : CommandId}
    (hr : s.driver.submit memory command = (.ok id, d', memory')) :
    ∃ slot r, s.driver.Posted memory' id command slot r
      ∧ (∀ rest, Cdb.expectedLength (command.cdb.bytes ++ rest) = some command.cdb.length)
      ∧ ∀ k : Kernel, k.layout = s.driver.layout → k.offset = s.driver.geometry.offset.toNat →
        k.requestAt memory' s.driver.cursor.tail.index.toNat = .ok r
          ∧ k.cdbAt memory' s.driver.cursor.tail.index.toNat = .ok command.cdb.bytes := by
  have hs := (invariant_run h).sound
  obtain ⟨slot, r, hposted⟩ := hs.submit_posts hr
  exact ⟨slot, r, hposted, Cdb.expectedLength_append command.cdb.expectedLength_eq,
    fun _ hlayout hoffset => hs.kernel_finds hposted hlayout hoffset⟩

/-- Pointers of 32 bits, and one segment for each command. -/
def narrowLayout : Layout :=
  { pointerWidth := .bits32, maxSegments := 1, cdbSize := 6, senseSize := 0 }

/-- Two such slots, with all bits set. -/
def narrowRing : Region :=
  let mailbox : Mailbox := { version := Mailbox.currentVersion, ringOffset := 72, ringSize := 128 }
  ⟨(mailbox.image ++ Bytes.zeros 4 ++ List.replicate 128 255).toArray, 200⟩

def narrowDriver : Driver :=
  Driver.fresh narrowLayout { smallDriver.geometry with size := 128, slotSize := 64 }

/-- A command with a segment above the reach of such a pointer. -/
def farCommand : Command :=
  { cdb := CommandBlock.testUnitReady, segments := { data := [⟨0x100000005, 7⟩] } }

set_option maxRecDepth 20000 in
theorem attach_narrowRing :
    Driver.attach narrowLayout narrowRing = (.ok narrowDriver, narrowRing)
      ∧ (narrowDriver.submit narrowRing farCommand).1 = .ok 1 := by
  have hattach : (Driver.attach narrowLayout narrowRing).1 = .ok narrowDriver := by decide
  exact ⟨Prod.ext hattach (Driver.attach_memory ..), by decide⟩

/-- The slot was full of ones. The segment loses its high half, and the bytes behind the block are zero. -/
theorem submit_publishes_farCommand :
    Run [] (idle narrowDriver)
      ∧ ∃ slot r, narrowDriver.Posted (narrowDriver.submit narrowRing farCommand).2.2 1 farCommand slot r
        ∧ r.segments.data = [⟨5, 7⟩] ∧ slot.byteAt 62 = 0 ∧ slot.byteAt 63 = 0 := by
  have hrun : Run [] (idle narrowDriver) := .attached attach_narrowRing.1
  have hid := attach_narrowRing.2
  rcases hsubmit : narrowDriver.submit narrowRing farCommand with ⟨result, d', memory'⟩
  rw [hsubmit] at hid
  dsimp only at hid
  subst hid
  obtain ⟨slot, r, hposted, _⟩ := submit_publishes_command hrun hsubmit
  refine ⟨hrun, slot, r, hposted, ?_, ?_, ?_⟩
  · rw [hposted.spelled.segments]
    decide
  · exact hposted.spelled.blank 62 fun ht => absurd ht (by unfold Driver.Taken; decide)
  · exact hposted.spelled.blank 63 fun ht => absurd ht (by unfold Driver.Taken; decide)

end Session

end CommandRing
