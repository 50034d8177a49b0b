import CommandRing.Driver.Tenancy
import CommandRing.Proofs.Driver.Session
import CommandRing.Proofs.Exchange.Memory

/-!
# What a driver writes

A driver reads all over the mapping and writes in two places: a submit fills the slot at the tail and then
moves the tail over it. A reset stores the tail too, but it stores the word that it has just found there.

So what has to be known is that the slot at the tail is a free one. `occupiedSlots` walks the ring from the head
as far as the cursor counts, and this walk ends right before the tail as long as the ring is not full; over a
whole run it names the slots that the driver has written and not released.
-/

namespace CommandRing

namespace Driver

variable {d : Driver} {memory : Region}

/-- The numbers of the occupied slots, from the head on. -/
def occupiedSlots (d : Driver) : List Nat :=
  (List.range d.cursor.occupied.toNat).map (d.geometry.seat d.cursor.head.index.toNat)

theorem Sound.occupiedSlots_eq (h : d.Sound) : d.occupiedSlots =
    (List.range d.inFlight.length).map (d.geometry.seat d.cursor.head.index.toNat) := by
  unfold occupiedSlots
  rw [h.toNat_occupied]

theorem Sound.toNat_tail (h : d.Sound) : d.cursor.tail.index.toNat =
    d.geometry.seat d.cursor.head.index.toNat d.inFlight.length := h.ahead.index_eq

theorem Sound.length_lt (h : d.Sound) (hf : d.cursor.isFull = false) :
    d.inFlight.length < d.geometry.slotCount.toNat := by
  refine Nat.lt_of_le_of_ne h.length_le ?_
  intro hfull
  rw [h.isFull_iff.mpr hfull] at hf
  exact Bool.noConfusion hf

/-- **The slot at the tail is free**, unless the ring is full. -/
theorem Sound.tail_notMem_occupiedSlots (h : d.Sound) (hf : d.cursor.isFull = false) :
    d.cursor.tail.index.toNat ∉ d.occupiedSlots := by
  have hroom := h.length_lt hf
  rw [h.occupiedSlots_eq, h.toNat_tail, List.mem_map]
  rintro ⟨k, hk, hseat⟩
  have hk := List.mem_range.mp hk
  exact d.geometry.seat_ne _ hk (by omega) hseat.symm

/-! ## How the occupied slots change -/

theorem Sound.occupiedSlots_submitted (h : d.Sound) (hf : d.cursor.isFull = false) {id : CommandId}
    (h0 : id ≠ 0) (hfree : id ∉ d.inFlight) :
    (d.submitted id).occupiedSlots = d.occupiedSlots ++ [d.cursor.tail.index.toNat] := by
  have hn : (d.submitted id).inFlight.length = d.inFlight.length + 1 := rfl
  rw [(h.submitted hf h0 hfree).occupiedSlots_eq, h.occupiedSlots_eq, hn, List.range_succ,
    List.map_append, h.toNat_tail]
  rfl

theorem Sound.occupiedSlots_consumed (h : d.Sound) {id : CommandId} (hid : id ∈ d.inFlight) :
    (d.consumed id).occupiedSlots = d.occupiedSlots.tail := by
  have hlen : d.inFlight.length = (d.inFlight.erase id).length + 1 :=
    (List.length_erase_add_one hid).symm
  have hhead : (d.consumed id).cursor.head.index.toNat
      = d.geometry.seat d.cursor.head.index.toNat 1 := h.ahead.onRing.toNat_advance
  have hlen' : (d.consumed id).inFlight.length = (d.inFlight.erase id).length := rfl
  have hgeometry : (d.consumed id).geometry = d.geometry := rfl
  rw [(h.consumed hid).occupiedSlots_eq, h.occupiedSlots_eq, hlen, hhead, hlen', hgeometry,
    List.range_succ_eq_map, List.map_cons, List.tail_cons, List.map_map]
  -- a walk that starts one slot later
  refine List.map_congr_left ?_
  intro k _
  rw [Geometry.seat_add, Function.comp_apply, Nat.succ_eq_add_one, Nat.add_comm]

theorem occupiedSlots_restarted (d : Driver) (i : UInt32) : (d.restarted i).occupiedSlots = [] := by
  have hempty : (d.restarted i).cursor.occupied = 0 :=
    UInt32.sub_self i
  unfold occupiedSlots
  rw [hempty]
  rfl

/-! ## What a submit writes -/

/-- A command was published: what has changed lies in the slot at the tail, or is the tail of the mailbox. -/
structure Published (d : Driver) (memory memory' : Region) : Prop where
  size : memory'.bytes.size = memory.bytes.size
  limit : memory'.limit = memory.limit
  /-- The slot lies behind the mailbox and inside what may be accessed. -/
  behind : Mailbox.size ≤ d.geometry.slotOffset d.cursor.tail.index
  inside : d.geometry.slotOffset d.cursor.tail.index + d.geometry.slotSize.toNat ≤ memory.length
  changed : ∀ i, memory'.byte i ≠ memory.byte i →
    (d.geometry.slotOffset d.cursor.tail.index ≤ i
        ∧ i < d.geometry.slotOffset d.cursor.tail.index + d.geometry.slotSize.toNat)
      ∨ (Mailbox.tailOffset ≤ i ∧ i < Mailbox.tailOffset + 4)
  /-- The tail is on the slot behind it. -/
  tail : ∃ next : UInt32,
    next.toNat = (d.cursor.tail.index.toNat + 1) % d.geometry.slotCount.toNat
      ∧ (d.geometry.ringOffset next).toNat = next.toNat * d.geometry.slotSize.toNat
      ∧ memory'.load Mailbox.tailOffset = .ok (d.geometry.ringOffset next)
  head : memory'.load Mailbox.headOffset = memory.load Mailbox.headOffset
  free : d.cursor.tail.index.toNat ∉ d.occupiedSlots
  kept : ∀ i ∈ d.occupiedSlots, d.geometry.slotBytes memory' i = d.geometry.slotBytes memory i

theorem Sound.published (h : d.Sound) (hf : d.cursor.isFull = false) {slot : Bytes}
    (hlen : slot.length = d.geometry.slotSize.toNat)
    (hin : d.geometry.slotStart d.cursor.tail.index.toNat + d.geometry.slotSize.toNat
      ≤ memory.length) :
    d.Published memory (d.writtenTo memory slot) := by
  have hbehind := h.geometry.behind_slotStart d.cursor.tail.index.toNat
  have hnext := h.ahead.tail_onRing.toNat_advance
  have hfree := h.tail_notMem_occupiedSlots hf
  have hword := Bytes.length_ofUInt32
    (d.geometry.ringOffset (d.cursor.tail.advance d.geometry.slotCount).index)
  have hmailbox : Mailbox.tailOffset + 4 = Mailbox.size := rfl
  have hcapacity := d.geometry.slotCount.toNat_pos
  unfold writtenTo
  refine ⟨?_, rfl, ?_, ?_, ?_, ⟨_, hnext, ?_, ?_⟩, ?_, hfree, ?_⟩
  · rw [Region.size_put, Region.size_put]
  · rw [h.slotOffset_tail]
    exact hbehind
  · rw [h.slotOffset_tail]
    exact hin
  -- a byte that neither write covers
  · intro i hi
    rw [h.slotOffset_tail]
    by_contra hout
    refine hi ?_
    rw [Region.byte_put_of_not_covered (by omega), Region.byte_put_of_not_covered (by omega)]
  · refine h.geometry.toNat_ringOffset ?_
    rw [hnext]
    exact Nat.mod_lt _ hcapacity
  · refine Region.load_eq_ok.mpr ⟨?_, by decide, Region.wordAt32_put ?_⟩
    · rw [Region.length_put, Region.length_put]
      omega
    · have hsize := memory.length_le_size
      rw [Region.size_put]
      omega
  -- the kernel's head lies before both writes
  · unfold Region.load
    rw [Region.length_put, Region.length_put,
      Region.extract_put_of_disjoint (Or.inl (by decide)),
      Region.extract_put_of_disjoint (Or.inl (Nat.le_trans (by decide) hbehind))]
  · intro i hi
    have hne : d.cursor.tail.index.toNat ≠ i := by
      intro he
      exact hfree (he ▸ hi)
    rw [h.geometry.slotBytes_put_cursor (by decide), d.geometry.slotBytes_put_other hlen hne]

/-- **A submit that succeeds has published a command, and one that fails has written nothing.** -/
theorem Sound.submit_footprint (h : d.Sound) (memory : Region) (command : Command) :
    (∃ e d', d.submit memory command = (.error e, d', memory) ∧ d'.occupiedSlots = d.occupiedSlots)
      ∨ ∃ id memory', d.submit memory command = (.ok id, d.submitted id, memory')
        ∧ d.Published memory memory'
        ∧ (d.submitted id).occupiedSlots = d.occupiedSlots ++ [d.cursor.tail.index.toNat] := by
  rcases h.submit_cases memory command with
    ⟨e, _, hr⟩ | ⟨id, _, _, hr⟩ | ⟨id, slot, hok, h0, hfree, hslot, hin, hr⟩
  · exact Or.inl ⟨e, d, hr, rfl⟩
  · exact Or.inl ⟨_, _, hr, rfl⟩
  · obtain ⟨hs, hc, _, hf⟩ := checkCommand_eq_ok.mp hok
    have hlen := length_slotFor h.geometry hs hc hslot
    exact Or.inr ⟨id, _, hr, h.published hf hlen hin, h.occupiedSlots_submitted hf h0 hfree⟩

end Driver

/-! ## Every use -/

namespace Mapping

/-- The driver is in order, and the mapping remembers its occupied slots. -/
def Sound (m : Mapping) : Prop :=
  match m.session with
  | none => True
  | some s => s.driver.Sound ∧ m.slots = s.driver.occupiedSlots

theorem sound_attached {layout : Layout} {memory memory' : Region} {d : Driver}
    (h : Driver.attach layout memory = (.ok d, memory')) :
    Sound ⟨some (Session.idle d), []⟩ := by
  refine ⟨Driver.sound_attach h, ?_⟩
  obtain ⟨_, _, i, _, _, _, rfl⟩ := Driver.attach_eq_ok h
  exact (Driver.occupiedSlots_restarted _ i).symm

/-- What a call does to the memory and to the slots of its driver. -/
theorem call_footprint {s : Session} (h : s.driver.Sound) (memory : Region) (c : Call) :
    (s.call memory c).2.1.driver.occupiedSlots
        = slotsAfter s.driver s.driver.occupiedSlots (s.call memory c).1
      ∧ ((∃ command id, c = .submit command ∧ (s.call memory c).1 = .submitted id
          ∧ s.driver.Published memory (s.call memory c).2.2)
        ∨ ((∀ id, (s.call memory c).1 ≠ .submitted id) ∧ (s.call memory c).2.2 = memory)) := by
  cases c with
  | submit command =>
      unfold Session.call
      dsimp only
      rcases h.submit_footprint memory command with ⟨e, d', hr, hslots⟩ | ⟨id, memory', hr, hp, hslots⟩
      · rw [hr]
        exact ⟨hslots, Or.inr ⟨by simp, rfl⟩⟩
      · rw [hr]
        exact ⟨hslots, Or.inl ⟨command, id, rfl, rfl, hp⟩⟩
  | poll =>
      unfold Session.call
      dsimp only
      rcases s.driver.poll_cases memory with ⟨drain, _, hr⟩ | ⟨e, hr⟩
      · rw [hr]
        exact ⟨rfl, Or.inr ⟨by simp, rfl⟩⟩
      · rw [hr]
        refine ⟨?_, Or.inr ⟨by simp, rfl⟩⟩
        cases e <;> rfl
  | next =>
      unfold Session.call
      dsimp only
      rcases h.next_cases memory s.drain with ⟨_, hr⟩ | ⟨r, _, _, hid, _, hr⟩ | ⟨e, _, _, _, hr⟩
      · rw [hr]
        exact ⟨rfl, Or.inr ⟨by simp, rfl⟩⟩
      · rw [hr]
        exact ⟨h.occupiedSlots_consumed hid, Or.inr ⟨by simp, rfl⟩⟩
      · rw [hr]
        refine ⟨?_, Or.inr ⟨by simp, rfl⟩⟩
        cases e <;> rfl
  | reset =>
      unfold Session.call
      dsimp only
      rcases h.reset_cases memory with ⟨e, hr⟩ | ⟨i, _, hempty, _, hr⟩
      · rw [hr]
        exact ⟨rfl, Or.inr ⟨by simp, rfl⟩⟩
      · rw [hr]
        exact ⟨Driver.occupiedSlots_restarted _ i, Or.inr ⟨by simp, rfl⟩⟩

/-- **A use keeps the mapping in order, whatever the memory holds.** -/
theorem Sound.use {m : Mapping} (h : m.Sound) (memory : Region) (u : Use) :
    (m.use memory u).2.1.Sound := by
  cases u with
  | attach layout =>
      unfold Mapping.use
      dsimp only
      rcases hattach : Driver.attach layout memory with ⟨e | d, memory'⟩
      · trivial
      · exact sound_attached hattach
  | call c =>
      obtain ⟨session, slots⟩ := m
      cases session with
      | none => trivial
      | some s =>
          obtain ⟨hs, hslots⟩ := h
          dsimp only at hslots
          refine ⟨Session.sound_call hs memory c, ?_⟩
          rw [hslots]
          exact (call_footprint hs memory c).1.symm
  | inspect =>
      unfold Mapping.use
      dsimp only
      split <;> exact h
  | drop => trivial

theorem sound_of_reachable {m : Mapping} (h : Reachable m) : m.Sound := by
  induction h with
  | vacant => trivial
  | used memory u _ ih => exact ih.use memory u

/--
**A driver writes its own free slot and the tail, and nothing else.** After any uses of a mapping, each on any
memory, its slots are the occupied ones from the head on. Whatever is done next either leaves the memory as it
is, or it is a submit that succeeds: then nothing has changed but the slot at the tail, which is not among the
occupied ones, and the tail of the mailbox, which is on the slot behind it.
-/
theorem writes_free_slot_and_tail {m : Mapping} (h : Reachable m) (memory : Region) (u : Use) :
    (∀ s, m.session = some s →
        m.slots = s.driver.occupiedSlots ∧ m.slots.length = s.driver.inFlight.length)
      ∧ ((∃ s command id, m.session = some s ∧ u = .call (.submit command)
          ∧ (m.use memory u).1 = .replied (.submitted id)
          ∧ s.driver.Published memory (m.use memory u).2.2)
        ∨ ((∀ id, (m.use memory u).1 ≠ .replied (.submitted id))
          ∧ (m.use memory u).2.2 = memory)) := by
  have hm := sound_of_reachable h
  obtain ⟨session, slots⟩ := m
  constructor
  · intro s hs
    dsimp only at hs
    subst hs
    obtain ⟨hd, hslots⟩ := hm
    refine ⟨hslots, ?_⟩
    rw [hslots, hd.occupiedSlots_eq, List.length_map, List.length_range]
  cases u with
  | attach layout =>
      have hmemory := Driver.attach_memory layout memory
      refine Or.inr ?_
      unfold Mapping.use
      dsimp only
      rcases hattach : Driver.attach layout memory with ⟨e | d, memory'⟩
      all_goals
        rw [hattach] at hmemory
        exact ⟨by simp, hmemory⟩
  | call c =>
      cases session with
      | none => exact Or.inr ⟨by simp [Mapping.use], rfl⟩
      | some s =>
          rcases (call_footprint hm.1 memory c).2 with ⟨command, id, rfl, hr, hp⟩ | ⟨hr, hsame⟩
          · exact Or.inl ⟨s, command, id, rfl, rfl, congrArg Outcome.replied hr, hp⟩
          · refine Or.inr ⟨?_, hsame⟩
            intro id he
            injection he with he
            exact hr id he
  | inspect =>
      refine Or.inr ?_
      unfold Mapping.use
      dsimp only
      split <;> exact ⟨by simp, rfl⟩
  | drop => exact Or.inr ⟨by simp [Mapping.use], rfl⟩

/-- The small ring with one command on it. -/
def oneSubmitted : Mapping :=
  ((vacant.use Session.smallRing (.attach Session.smallLayout)).2.1.use Session.smallRing
    (.call (.submit Command.testUnitReady))).2.1

set_option maxRecDepth 10000 in
/-- The second command leaves the slot of the first alone. -/
theorem writes_second_slot :
    Reachable oneSubmitted ∧ oneSubmitted.slots = [0]
      ∧ ∃ s, oneSubmitted.session = some s ∧ s.driver.occupiedSlots = [0]
        ∧ s.driver.Published Session.smallRing
          (oneSubmitted.use Session.smallRing (.call (.submit Command.testUnitReady))).2.2 := by
  have hreached : Reachable oneSubmitted :=
    (Reachable.vacant.used Session.smallRing (.attach Session.smallLayout)).used Session.smallRing
      (.call (.submit Command.testUnitReady))
  have hfound : oneSubmitted.slots = [0]
      ∧ (oneSubmitted.use Session.smallRing (.call (.submit Command.testUnitReady))).1
        = .replied (.submitted 2) := by
    decide
  obtain ⟨hslots, hwritten⟩ := writes_free_slot_and_tail hreached Session.smallRing
    (.call (.submit Command.testUnitReady))
  rcases hwritten with ⟨s, _, _, hs, _, _, hp⟩ | ⟨hnone, _⟩
  · refine ⟨hreached, hfound.1, s, hs, ?_, hp⟩
    rw [← (hslots s hs).1]
    exact hfound.1
  · exact absurd hfound.2 (hnone 2)

end Mapping

end CommandRing
