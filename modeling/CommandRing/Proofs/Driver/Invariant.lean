import CommandRing.Driver.Attach
import CommandRing.Driver.Drain
import CommandRing.Driver.Submit
import CommandRing.Proofs.CommandId
import CommandRing.Proofs.Geometry
import CommandRing.Proofs.Memory
import CommandRing.Proofs.Ring

/-!
# What a driver knows to be true

A driver keeps a cursor, the ids in flight and the id to try next, and updates each of them separately.
`Sound` is what ties them together: the tail is as many slots ahead of the head as there are ids in
flight. It says nothing about the memory, which the other side may change at any time, so it has to
survive whatever the memory holds.

Each operation has one lemma that says everything it can do to a sound driver. That the driver stays
sound, and whatever else is to be known about it, is read off these.
-/

namespace CommandRing.Driver

/-- The parts of a driver agree with each other. -/
structure Sound (d : Driver) : Prop where
  /-- The geometry was accepted for this layout. -/
  geometry : d.geometry.Valid d.layout
  /-- The cursor counts the ring's slots. -/
  capacity : d.cursor.capacity = d.geometry.slotCount
  /-- Every id in flight occupies one slot. -/
  ahead : Position.Ahead d.geometry.slotCount d.cursor.head d.inFlight.length d.cursor.tail
  nodup : d.inFlight.Nodup
  zero_notMem : 0 ∉ d.inFlight
  nextId_ne_zero : d.nextId ≠ 0

variable {d : Driver} {memory : Region}

theorem Sound.isFull_iff (h : d.Sound) :
    d.cursor.isFull = true ↔ d.inFlight.length = d.geometry.slotCount.toNat := h.ahead.isFull_iff

theorem Sound.toNat_occupied (h : d.Sound) : d.cursor.occupied.toNat = d.inFlight.length := by
  unfold Cursor.occupied
  rw [h.capacity]
  exact h.ahead.occupied_eq

theorem Sound.outstanding_eq (h : d.Sound) : d.outstanding = d.inFlight.length := by
  unfold outstanding
  rw [h.toNat_occupied, Nat.max_self]

theorem Sound.length_le (h : d.Sound) : d.inFlight.length ≤ d.geometry.slotCount.toNat := h.ahead.le

theorem Sound.slotOffset_head (h : d.Sound) :
    d.geometry.slotOffset d.cursor.head.index = d.geometry.slotStart d.cursor.head.index.toNat :=
  h.geometry.slotOffset_eq h.ahead.onRing

theorem Sound.slotOffset_tail (h : d.Sound) :
    d.geometry.slotOffset d.cursor.tail.index = d.geometry.slotStart d.cursor.tail.index.toNat :=
  h.geometry.slotOffset_eq h.ahead.tail_onRing

theorem Sound.poisonedBy (h : d.Sound) (e : Error) : (d.poisonedBy e).Sound := by
  cases e with
  | corrupt reason => exact ⟨h.geometry, h.capacity, h.ahead, h.nodup, h.zero_notMem, h.nextId_ne_zero⟩
  | _ => exact h

theorem Sound.withNextId (h : d.Sound) {next : CommandId} (hn : next ≠ 0) :
    { d with nextId := next }.Sound :=
  ⟨h.geometry, h.capacity, h.ahead, h.nodup, h.zero_notMem, hn⟩

theorem checkPoison_eq_ok : d.checkPoison = .ok () ↔ d.poison = none := by
  unfold checkPoison
  cases d.poison <;> simp

/-! ## Submitting -/

theorem checkCommand_eq_ok {command : Command} :
    d.checkCommand command = .ok () ↔
      command.segments.count ≤ d.layout.maxSegments ∧ command.cdb.length ≤ d.layout.cdbSize
        ∧ d.poison = none ∧ d.cursor.isFull = false := by
  unfold checkCommand checkPoison
  by_cases hs : d.layout.maxSegments < command.segments.count
  · rw [if_pos hs]
    exact ⟨fun h => absurd h (by simp), fun h => absurd h.1 (by omega)⟩
  · by_cases hc : d.layout.cdbSize < command.cdb.length
    · rw [if_neg hs, if_pos hc]
      exact ⟨fun h => absurd h (by simp), fun h => absurd h.2.1 (by omega)⟩
    · cases hp : d.poison with
      | some reason => simp [hs, hc]
      | none =>
          cases hf : d.cursor.isFull
          · simp [hs, hc]
            omega
          · simp [hs, hc]

/-- A driver that trusts the memory refuses commands for reasons of its own. -/
theorem checkCommand_ne_corrupt {command : Command} {reason : Corruption} (hp : d.poison = none) :
    d.checkCommand command ≠ .error (.corrupt reason) := by
  unfold checkCommand
  rw [checkPoison_eq_ok.mpr hp]
  dsimp only
  split
  · simp
  · split
    · simp
    · split <;> simp

theorem length_requestImage_le (d : Driver) (id : CommandId) {command : Command}
    (hs : command.segments.count ≤ d.layout.maxSegments) :
    ((d.requestFor id command).image d.layout).length ≤ d.layout.cdbOffset := by
  rw [Request.length_image]
  exact Nat.add_le_add_left (Nat.mul_le_mul_right _ hs) _

/-- The bytes for a command that fits: the request over zeros, and the descriptor block in it. -/
theorem slotFor_eq_ok {id : CommandId} {command : Command} (hg : d.geometry.Valid d.layout)
    (hs : command.segments.count ≤ d.layout.maxSegments) :
    d.slotFor id command = .ok
      (Bytes.place ((d.requestFor id command).image d.layout
          ++ (Bytes.zeros d.geometry.slotSize.toNat).drop
              ((d.requestFor id command).image d.layout).length)
        d.layout.cdbOffset command.cdb.bytes) := by
  have hslot := d.layout.le_slotSize.1
  have hsize := length_requestImage_le d id hs
  have hroom : ¬ (Bytes.zeros d.geometry.slotSize.toNat).length
      < ((d.requestFor id command).image d.layout).length := by
    rw [Bytes.length_zeros, hg.slotSize_eq]
    omega
  unfold slotFor Request.encode Bytes.overwrite
  dsimp only
  rw [if_neg hroom]
  rfl

theorem length_slotFor {id : CommandId} {command : Command} {slot : Bytes}
    (hg : d.geometry.Valid d.layout) (hs : command.segments.count ≤ d.layout.maxSegments)
    (hc : command.cdb.length ≤ d.layout.cdbSize) (h : d.slotFor id command = .ok slot) :
    slot.length = d.geometry.slotSize.toNat := by
  have hslot := d.layout.le_slotSize.1
  have hsize := length_requestImage_le d id hs
  rw [slotFor_eq_ok hg hs] at h
  injection h with h
  subst h
  unfold CommandBlock.length at hc
  unfold Bytes.place
  simp only [List.length_append, List.length_take, List.length_drop, Bytes.length_zeros,
    hg.slotSize_eq]
  omega

/-- The driver with one more command in flight. -/
def submitted (d : Driver) (id : CommandId) : Driver :=
  { d with
    cursor := { d.cursor with tail := d.cursor.tail.advance d.geometry.slotCount }
    nextId := id.successor
    inFlight := id :: d.inFlight }

/-- The memory with a slot written at the tail and published. -/
def writtenTo (d : Driver) (memory : Region) (slot : Bytes) : Region :=
  (memory.put (d.geometry.slotStart d.cursor.tail.index.toNat) slot).put Mailbox.tailOffset
    (Bytes.ofUInt32 (d.geometry.ringOffset (d.cursor.tail.advance d.geometry.slotCount).index))

/-- **Writing the slot is the only step of publishing that can fail**, and it comes first. -/
theorem Sound.publish_cases (h : d.Sound) (hf : d.cursor.isFull = false) (memory : Region)
    (slot : Bytes) :
    (¬ d.geometry.slotStart d.cursor.tail.index.toNat + slot.length ≤ memory.length
        ∧ d.publish memory slot = (.error (.corrupt (.outsideRegion slot.length
            (d.geometry.slotStart d.cursor.tail.index.toNat) memory.length)), d, memory))
      ∨ (d.geometry.slotStart d.cursor.tail.index.toNat + slot.length ≤ memory.length
        ∧ d.publish memory slot
          = (.ok (),
            { d with cursor :=
                { d.cursor with tail := d.cursor.tail.advance d.geometry.slotCount } },
            d.writtenTo memory slot)) := by
  have hbehind := h.geometry.behind_slotStart d.cursor.tail.index.toNat
  have hacquire : d.cursor.acquire
      = .ok { d.cursor with tail := d.cursor.tail.advance d.geometry.slotCount } := by
    unfold Cursor.acquire
    rw [hf, if_neg (by simp), ← h.capacity]
  unfold publish Region.write Region.checkRange
  rw [h.slotOffset_tail, hacquire]
  dsimp only
  by_cases hin : d.geometry.slotStart d.cursor.tail.index.toNat + slot.length ≤ memory.length
  · refine Or.inr ⟨hin, ?_⟩
    rw [if_pos hin]
    dsimp only
    -- the mailbox ends before the slot starts, so its tail can be reached as well
    have hstore : (memory.put (d.geometry.slotStart d.cursor.tail.index.toNat) slot).store
        Mailbox.tailOffset
          (d.geometry.ringOffset (d.cursor.tail.advance d.geometry.slotCount).index)
        = .ok (d.writtenTo memory slot) := by
      unfold Mailbox.size at hbehind
      refine Region.store_eq_ok.mpr ⟨?_, rfl, rfl⟩
      rw [Region.length_put]
      unfold Mailbox.tailOffset
      omega
    rw [hstore]
  · rw [if_neg hin]
    exact Or.inl ⟨hin, rfl⟩

/-- The slot at the tail does not lie in the memory that can be reached. -/
def tailOutside (d : Driver) (memory : Region) : Corruption :=
  .outsideRegion d.geometry.slotSize.toNat (d.geometry.slotStart d.cursor.tail.index.toNat)
    memory.length

/-- **What a submit can do**: refuse, find the slot out of reach, or publish under a free id. -/
theorem Sound.submit_cases (h : d.Sound) (memory : Region) (command : Command) :
    (∃ e, d.checkCommand command = .error e ∧ d.submit memory command = (.error e, d, memory))
      ∨ (∃ id, d.checkCommand command = .ok ()
        ∧ ¬ d.geometry.slotStart d.cursor.tail.index.toNat + d.geometry.slotSize.toNat
            ≤ memory.length
        ∧ d.submit memory command = (.error (.corrupt (d.tailOutside memory)),
            { d with nextId := CommandId.successor id, poison := some (d.tailOutside memory) },
            memory))
      ∨ (∃ id slot, d.checkCommand command = .ok () ∧ id ≠ 0 ∧ id ∉ d.inFlight
        ∧ d.slotFor id command = .ok slot
        ∧ d.geometry.slotStart d.cursor.tail.index.toNat + d.geometry.slotSize.toNat
            ≤ memory.length
        ∧ d.submit memory command = (.ok id, d.submitted id, d.writtenTo memory slot)) := by
  unfold submit
  rcases hcheck : d.checkCommand command with e | ⟨⟩
  · exact Or.inl ⟨e, rfl, rfl⟩
  refine Or.inr ?_
  obtain ⟨hs, hc, hp, hf⟩ := checkCommand_eq_ok.mp hcheck
  -- a ring has fewer slots than there are ids, so the search for one cannot fail
  obtain ⟨id, hid⟩ := findId_isSome h.nextId_ne_zero
    (Nat.lt_of_le_of_lt h.length_le h.geometry.count_lt)
  obtain ⟨hid0, hfree, _⟩ := findId_eq_some hid
  have halloc : d.allocateId = (some id, id.successor) := hid
  have hslot : { d with nextId := id.successor }.slotFor id command = d.slotFor id command := rfl
  -- nor can the encoding, because a command that passed the checks fits into a slot
  rcases hbytes : d.slotFor id command with e | slot
  · rw [slotFor_eq_ok h.geometry hs] at hbytes
    exact absurd hbytes (by simp)
  have hsize := length_slotFor h.geometry hs hc hbytes
  rw [halloc]
  dsimp only
  rw [hslot, hbytes]
  dsimp only
  rcases (h.withNextId (CommandId.successor_ne_zero id)).publish_cases hf memory slot with
    ⟨hout, hpub⟩ | ⟨hin, hpub⟩
  · dsimp only at hout
    rw [hsize] at hout hpub
    refine Or.inl ⟨id, rfl, hout, ?_⟩
    rw [hpub]
    simp only [Driver.poisonedBy, hp, Option.none_or]
    rfl
  · dsimp only at hin
    rw [hsize] at hin
    refine Or.inr ⟨id, slot, rfl, hid0, hfree, hbytes, hin, ?_⟩
    rw [hpub]
    rfl

/-- What is known of a submit that succeeded. -/
theorem Sound.submit_eq_ok (h : d.Sound) {command : Command} {id : CommandId} {d' : Driver}
    {memory' : Region} (hr : d.submit memory command = (.ok id, d', memory')) :
    ∃ slot, d.checkCommand command = .ok () ∧ d.slotFor id command = .ok slot
      ∧ d.geometry.slotStart d.cursor.tail.index.toNat + d.geometry.slotSize.toNat ≤ memory.length
      ∧ d' = d.submitted id ∧ memory' = d.writtenTo memory slot := by
  rcases h.submit_cases memory command with
    ⟨_, _, hcase⟩ | ⟨_, _, _, hcase⟩ | ⟨id', slot, hcheck, _, _, hslot, hin, hcase⟩
  · rw [hcase] at hr
    exact absurd (congrArg Prod.fst hr) (by simp)
  · rw [hcase] at hr
    exact absurd (congrArg Prod.fst hr) (by simp)
  · rw [hcase] at hr
    injection hr with hid hr
    injection hid with hid
    injection hr with hd hmemory
    subst hid
    exact ⟨slot, hcheck, hslot, hin, hd.symm, hmemory.symm⟩

theorem Sound.submitted (h : d.Sound) (hf : d.cursor.isFull = false) {id : CommandId}
    (h0 : id ≠ 0) (hfree : id ∉ d.inFlight) : (d.submitted id).Sound where
  geometry := h.geometry
  capacity := h.capacity
  ahead := by
    refine h.ahead.advance_tail (Nat.lt_of_le_of_ne h.length_le ?_)
    intro he
    rw [h.isFull_iff.mpr he] at hf
    exact Bool.noConfusion hf
  nodup := List.nodup_cons.mpr ⟨hfree, h.nodup⟩
  zero_notMem := by
    intro hm
    rcases List.mem_cons.mp hm with he | hm
    · exact h0 he.symm
    · exact h.zero_notMem hm
  nextId_ne_zero := CommandId.successor_ne_zero id

/-! ## Consuming -/

/-- The driver with one command less in flight. -/
def consumed (d : Driver) (id : CommandId) : Driver :=
  { d with
    inFlight := d.inFlight.erase id
    cursor := { d.cursor with head := d.cursor.head.advance d.geometry.slotCount } }

theorem Sound.consumed (h : d.Sound) {id : CommandId} (hid : id ∈ d.inFlight) :
    (d.consumed id).Sound where
  geometry := h.geometry
  capacity := h.capacity
  ahead := by
    have hlen := List.length_erase_of_mem hid
    have hpos := List.length_pos_of_mem hid
    have ha := h.ahead
    rw [show d.inFlight.length = (d.inFlight.erase id).length + 1 by omega] at ha
    exact ha.advance_head
  nodup := h.nodup.erase id
  zero_notMem := fun hm => h.zero_notMem (List.mem_of_mem_erase hm)
  nextId_ne_zero := h.nextId_ne_zero

/-- A slot is released whenever a response is accepted, because its command occupies one. -/
theorem Sound.release_eq (h : d.Sound) {id : CommandId} (hid : id ∈ d.inFlight) :
    d.cursor.release
      = some { d.cursor with head := d.cursor.head.advance d.geometry.slotCount } := by
  have hpos := List.length_pos_of_mem hid
  have hne : d.cursor.isEmpty = false := by
    refine Bool.eq_false_iff.mpr ?_
    intro he
    have := h.ahead.isEmpty_iff.mp he
    omega
  unfold Cursor.release
  rw [hne, if_neg (by simp), ← h.capacity]

/-- **What consuming accepts**: a slot that is answered, with a response to a command in flight. -/
theorem Sound.consume_eq_ok (h : d.Sound) {r : Response} {d' : Driver} :
    d.consume memory = .ok (r, d') ↔
      (∃ raw header,
        memory.read (d.geometry.slotOffset d.cursor.head.index) d.geometry.slotSize.toNat = .ok raw
          ∧ Header.decode raw = .ok header
          ∧ checkAnswer d.cursor.head.index header = .ok ()
          ∧ Response.decode d.layout raw = .ok r)
        ∧ r.id ∈ d.inFlight ∧ d' = d.consumed r.id := by
  unfold consume
  dsimp only [bind, Except.bind]
  constructor
  -- each `split` is one early return
  · intro hc
    split at hc
    · exact absurd hc (by simp)
    rename_i raw hraw
    split at hc
    · exact absurd hc (by simp)
    rename_i header hheader
    split at hc
    · exact absurd hc (by simp)
    rename_i hanswer
    split at hc
    · exact absurd hc (by simp)
    rename_i response hresponse
    split at hc
    · rename_i hid
      injection hc with hc
      injection hc with hr hd
      subst hr
      refine ⟨⟨raw, header, hraw, hheader, hanswer, hresponse⟩, hid, ?_⟩
      rw [← hd, h.release_eq hid]
      rfl
    · exact absurd hc (by simp [throw, throwThe, MonadExceptOf.throw])
  · rintro ⟨⟨raw, header, hraw, hheader, hanswer, hresponse⟩, hid, rfl⟩
    rw [hraw]
    dsimp only
    rw [hheader]
    dsimp only
    rw [hanswer]
    dsimp only
    rw [hresponse]
    dsimp only
    rw [if_pos hid, h.release_eq hid]
    rfl

/-- **What the next item of a drain can be**: none, the response at the head, or an error that is
recorded and ends the drain. -/
theorem Sound.next_cases (h : d.Sound) (memory : Region) (drain : Drain) :
    ((drain.remaining = 0 ∨ drain.failed = true) ∧ d.next memory drain = (none, d, drain))
      ∨ (∃ r, 0 < drain.remaining ∧ drain.failed = false ∧ r.id ∈ d.inFlight
        ∧ d.consume memory = .ok (r, d.consumed r.id)
        ∧ d.next memory drain
          = (some (.ok r), d.consumed r.id, ⟨drain.remaining - 1, false⟩))
      ∨ (∃ e, 0 < drain.remaining ∧ drain.failed = false ∧ d.consume memory = .error e
        ∧ d.next memory drain
          = (some (.error e), d.poisonedBy e, ⟨drain.remaining - 1, true⟩)) := by
  unfold next
  by_cases hend : drain.remaining = 0 ∨ drain.failed = true
  · rw [if_pos hend]
    exact Or.inl ⟨hend, rfl⟩
  rw [if_neg hend]
  rw [not_or, Bool.not_eq_true] at hend
  refine Or.inr ?_
  rcases hc : d.consume memory with e | ⟨r, d'⟩
  · exact Or.inr ⟨e, Nat.pos_of_ne_zero hend.1, hend.2, rfl, rfl⟩
  · obtain ⟨_, hid, rfl⟩ := h.consume_eq_ok.mp hc
    exact Or.inl ⟨r, Nat.pos_of_ne_zero hend.1, hend.2, hid, rfl, rfl⟩

/-- A poll only looks; what it finds wrong is recorded. -/
theorem poll_cases (d : Driver) (memory : Region) :
    (∃ drain, drain.failed = false ∧ d.poll memory = (.ok drain, d))
      ∨ (∃ e, d.poll memory = (.error e, d.poisonedBy e)) := by
  unfold poll
  rcases hp : d.checkPoison with e | ⟨⟩
  -- a driver that is poisoned already refuses, and keeps the reason that it has
  · refine Or.inr ⟨e, ?_⟩
    unfold checkPoison at hp
    split at hp
    · exact absurd hp (by simp)
    · rename_i reason hreason
      injection hp with hp
      subst hp
      obtain ⟨_, _, _, _, _, poison⟩ := d
      dsimp only at hreason
      subst hreason
      rfl
  · dsimp only
    split
    · rename_i e _
      exact Or.inr ⟨e, rfl⟩
    · exact Or.inl ⟨_, rfl, rfl⟩

/-! ## Starting over -/

/-- The driver with an empty ring that starts on slot `index`. -/
def restarted (d : Driver) (index : UInt32) : Driver :=
  { d with cursor := Cursor.startingAt index d.geometry.slotCount, nextId := 1 }

theorem idleSlot_eq_ok {g : Geometry} {layout : Layout} (hg : g.Valid layout) {i : UInt32} :
    idleSlot g memory = .ok i ↔
      i.toNat < g.slotCount.toNat ∧ memory.load Mailbox.headOffset = .ok (g.ringOffset i)
        ∧ memory.load Mailbox.tailOffset = .ok (g.ringOffset i) := by
  unfold idleSlot
  dsimp only [bind, Except.bind]
  constructor
  · intro hidle
    split at hidle
    · exact absurd hidle (by simp)
    rename_i rawHead hrawHead
    split at hidle
    · exact absurd hidle (by simp)
    rename_i rawTail hrawTail
    split at hidle
    · exact absurd hidle (by simp)
    rename_i head hhead
    split at hidle
    · exact absurd hidle (by simp)
    rename_i tail htail
    split at hidle
    · rename_i heq
      subst heq
      injection hidle with hidle
      subst hidle
      obtain ⟨hi, hheadEq⟩ := hg.indexOf_eq_ok.mp hhead
      obtain ⟨_, htailEq⟩ := hg.indexOf_eq_ok.mp htail
      exact ⟨hi, by rw [hrawHead, hheadEq], by rw [hrawTail, htailEq]⟩
    · exact absurd hidle (by simp [throw, throwThe, MonadExceptOf.throw])
  · rintro ⟨hi, hhead, htail⟩
    have hindex := hg.indexOf_eq_ok.mpr ⟨hi, rfl⟩
    rw [hhead, htail]
    dsimp only
    rw [hindex]
    dsimp only
    rw [if_pos rfl]
    rfl

/-- A driver that waits for nothing starts over wherever the ring is idle, and the tail that it publishes is
the one that is there. -/
theorem Sound.reset_idle (h : d.Sound) (hpoison : d.poison = none) (hempty : d.inFlight = [])
    {i : UInt32} (hidle : idleSlot d.geometry memory = .ok i) :
    d.reset memory = (.ok (), d.restarted i, memory) := by
  obtain ⟨_, _, htail⟩ := (idleSlot_eq_ok h.geometry).mp hidle
  obtain ⟨hin, hmod, hword⟩ := Region.load_eq_ok.mp htail
  -- an idle ring has its tail on the head, which is where the driver would put it
  have hstore : memory.store Mailbox.tailOffset (d.geometry.ringOffset i) = .ok memory := by
    refine Region.store_eq_ok.mpr ⟨hin, hmod, ?_⟩
    rw [← hword, Region.put_wordAt32 (Nat.le_trans hin memory.length_le_size)]
  unfold reset
  rw [checkPoison_eq_ok.mpr hpoison]
  dsimp only
  rw [h.outstanding_eq, hempty, if_neg (by simp), hidle]
  dsimp only
  rw [hstore]
  dsimp only
  unfold restarted Cursor.resetAt
  rw [h.capacity, hempty]

theorem Sound.reset_busy (h : d.Sound) (hpoison : d.poison = none) (hempty : d.inFlight = [])
    {e : Error} (hbusy : idleSlot d.geometry memory = .error e) :
    d.reset memory = (.error e, d, memory) := by
  unfold reset
  rw [checkPoison_eq_ok.mpr hpoison]
  dsimp only
  rw [h.outstanding_eq, hempty, if_neg (by simp), hbusy]

theorem Sound.reset_outstanding (h : d.Sound) (hpoison : d.poison = none)
    (hsome : d.inFlight ≠ []) (memory : Region) :
    d.reset memory = (.error (.outstanding d.inFlight.length), d, memory) := by
  unfold reset
  rw [checkPoison_eq_ok.mpr hpoison]
  dsimp only
  rw [h.outstanding_eq, if_pos (List.length_pos_of_ne_nil hsome)]

/-- **What a reset can do**: refuse, or start over on an idle ring. The memory stays as it is. -/
theorem Sound.reset_cases (h : d.Sound) (memory : Region) :
    (∃ e, d.reset memory = (.error e, d, memory))
      ∨ (∃ i, d.poison = none ∧ d.inFlight = [] ∧ idleSlot d.geometry memory = .ok i
        ∧ d.reset memory = (.ok (), d.restarted i, memory)) := by
  rcases hp : d.checkPoison with e | ⟨⟩
  · refine Or.inl ⟨e, ?_⟩
    unfold reset
    rw [hp]
  have hpoison := checkPoison_eq_ok.mp hp
  by_cases hsome : d.inFlight = []
  · rcases hidle : idleSlot d.geometry memory with e | i
    · exact Or.inl ⟨e, h.reset_busy hpoison hsome hidle⟩
    · exact Or.inr ⟨i, hpoison, hsome, rfl, h.reset_idle hpoison hsome hidle⟩
  · exact Or.inl ⟨_, h.reset_outstanding hpoison hsome memory⟩

theorem Sound.restarted (h : d.Sound) (hempty : d.inFlight = []) {i : UInt32}
    (hi : i.toNat < d.geometry.slotCount.toNat) : (d.restarted i).Sound where
  geometry := h.geometry
  capacity := rfl
  ahead := by
    show Position.Ahead d.geometry.slotCount ⟨i, false⟩ d.inFlight.length ⟨i, false⟩
    rw [hempty]
    exact Position.Ahead.zero hi
  nodup := h.nodup
  zero_notMem := h.zero_notMem
  nextId_ne_zero := show (1 : CommandId) ≠ 0 by decide

/-! ## Attaching -/

theorem sound_fresh {layout : Layout} {g : Geometry} (hg : g.Valid layout) :
    (fresh layout g).Sound where
  geometry := hg
  capacity := rfl
  ahead := Position.Ahead.zero g.slotCount.toNat_pos
  nodup := List.nodup_nil
  zero_notMem := List.not_mem_nil
  nextId_ne_zero := show (1 : CommandId) ≠ 0 by decide

/-- **What attaching can do**: refuse, or start a fresh driver on an idle ring. The memory stays as it is. -/
theorem attach_cases (layout : Layout) (memory : Region) :
    (∃ e, attach layout memory = (.error e, memory))
      ∨ (∃ m g i, memory.mailbox = .ok m ∧ Geometry.ofMailbox m layout memory.length = .ok g
        ∧ idleSlot g memory = .ok i
        ∧ attach layout memory = (.ok ((fresh layout g).restarted i), memory)) := by
  unfold attach
  rcases hm : memory.mailbox with e | m
  · exact Or.inl ⟨e, rfl⟩
  dsimp only
  rcases hg : Geometry.ofMailbox m layout memory.length with e | g
  · exact Or.inl ⟨e, rfl⟩
  dsimp only
  have hvalid := (Geometry.ofMailbox_valid hg).1
  rcases (sound_fresh hvalid).reset_cases memory with ⟨e, hr⟩ | ⟨i, _, _, hidle, hr⟩
  · rw [hr]
    exact Or.inl ⟨e, rfl⟩
  · rw [hr]
    exact Or.inr ⟨m, g, i, rfl, hg, hidle, rfl⟩

theorem attach_memory (layout : Layout) (memory : Region) : (attach layout memory).2 = memory := by
  rcases attach_cases layout memory with ⟨e, hr⟩ | ⟨_, _, _, _, _, _, hr⟩ <;> rw [hr]

theorem attach_eq_ok {layout : Layout} {memory' : Region}
    (h : attach layout memory = (.ok d, memory')) :
    ∃ m g i, memory.mailbox = .ok m ∧ Geometry.ofMailbox m layout memory.length = .ok g
      ∧ idleSlot g memory = .ok i ∧ d = (fresh layout g).restarted i := by
  rcases attach_cases layout memory with ⟨e, hr⟩ | ⟨m, g, i, hm, hg, hidle, hr⟩
  · rw [hr] at h
    exact absurd h (by simp)
  · rw [hr] at h
    injection h with hd
    injection hd with hd
    exact ⟨m, g, i, hm, hg, hidle, hd.symm⟩

theorem sound_attach {layout : Layout} {memory' : Region}
    (h : attach layout memory = (.ok d, memory')) : d.Sound := by
  obtain ⟨m, g, i, _, hg, hidle, rfl⟩ := attach_eq_ok h
  have hvalid := (Geometry.ofMailbox_valid hg).1
  exact (sound_fresh hvalid).restarted rfl ((idleSlot_eq_ok hvalid).mp hidle).1

end CommandRing.Driver
