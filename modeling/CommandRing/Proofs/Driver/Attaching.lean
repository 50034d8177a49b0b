import CommandRing.Proofs.Driver.Issuing

/-!
# Which memories can be attached to

A memory has a ring if its mailbox describes one and both cursors lie on slots of it. Attaching then depends on
nothing but where the two cursors lie: on one slot, and the ring is idle and taken over; on two, and somebody
has left commands behind, as many as there are slots from the kernel's head to the tail. Without a ring the memory
is corrupt.

The checks look at sixteen bytes of the mailbox and at the length of the memory, so neither the version nor the
flags can make a difference.
-/

namespace CommandRing

/-- A cursor lies on a slot of the ring: on a multiple of the slot size, before the end. -/
def Mailbox.OnSlot (m : Mailbox) (layout : Layout) (cursor : UInt32) : Prop :=
  cursor.toNat % layout.slotSize = 0 ∧ cursor.toNat < m.ringSize.toNat

/-- The memory starts with a mailbox that describes a ring in it, and both cursors lie on slots. -/
structure Region.HasRing (memory : Region) (layout : Layout) : Prop where
  readable : 68 ≤ memory.length
  described : memory.shown.Describes layout memory.length
  head : memory.shown.OnSlot layout memory.shown.head
  tail : memory.shown.OnSlot layout memory.shown.tail

namespace Geometry

variable {m : Mailbox} {layout : Layout} {length : Nat} {g : Geometry} {v i : UInt32}

theorem indexOf_onSlot (hg : ofMailbox m layout length = .ok g) (hv : m.OnSlot layout v) :
    ∃ i, g.indexOf v = .ok i ∧ i.toNat = v.toNat / layout.slotSize
      ∧ i.toNat < g.slotCount.toNat := by
  obtain ⟨hvalid, _, hsize, _⟩ := ofMailbox_valid hg
  obtain ⟨hwhole, hlt⟩ := hv
  have hfound : g.indexOf v = .ok (v / g.slotSize) := by
    unfold indexOf
    rw [if_neg]
    rw [not_or, Classical.not_not, UInt32.not_le, UInt32.lt_iff_toNat_lt, hsize]
    refine ⟨hlt, UInt32.toNat_inj.mp ?_⟩
    rw [UInt32.toNat_mod, hvalid.slotSize_eq, hwhole]
    rfl
  refine ⟨_, hfound, ?_, (hvalid.indexOf_eq_ok.mp hfound).1⟩
  rw [UInt32.toNat_div, hvalid.slotSize_eq]

theorem onSlot_of_indexOf (hg : ofMailbox m layout length = .ok g) (h : g.indexOf v = .ok i) :
    m.OnSlot layout v := by
  obtain ⟨hvalid, _, hsize, _⟩ := ofMailbox_valid hg
  obtain ⟨hi, rfl⟩ := hvalid.indexOf_eq_ok.mp h
  have hpos := hvalid.slotSize_pos
  have hle := hvalid.slot_le hi
  unfold Mailbox.OnSlot
  rw [hvalid.toNat_ringOffset hi, ← hvalid.slotSize_eq, ← hsize]
  exact ⟨Nat.mul_mod_left .., by omega⟩

end Geometry

namespace Driver

variable {layout : Layout} {memory : Region} {g : Geometry}

/-! ## One check after the other -/

theorem attach_unreadable (h : ¬ 68 ≤ memory.length) :
    attach layout memory = (.error (.corrupt (.outsideRegion 68 0 memory.length)), memory) := by
  unfold attach Region.mailbox Region.read Region.checkRange Mailbox.size
  rw [Nat.zero_add, if_neg h]

theorem attach_misdescribed (hread : 68 ≤ memory.length) {e : Error}
    (hg : Geometry.ofMailbox memory.shown layout memory.length = .error e) :
    attach layout memory = (.error e, memory) := by
  unfold attach
  rw [Region.mailbox_eq_ok.mpr ⟨hread, rfl⟩]
  dsimp only
  rw [hg]

/-- With a geometry the two cursors decide. -/
theorem attach_described (hread : 68 ≤ memory.length)
    (hg : Geometry.ofMailbox memory.shown layout memory.length = .ok g) :
    attach layout memory = ((idleSlot g memory).map (fresh layout g).restarted, memory) := by
  have hsound := sound_fresh (Geometry.ofMailbox_valid hg).1
  unfold attach
  rw [Region.mailbox_eq_ok.mpr ⟨hread, rfl⟩]
  dsimp only
  rw [hg]
  dsimp only
  rcases hidle : idleSlot g memory with e | i
  · rw [hsound.reset_busy rfl rfl hidle]
    rfl
  · rw [hsound.reset_idle rfl rfl hidle]
    rfl

theorem idleSlot_of_slots (hread : 68 ≤ memory.length) {i j : UInt32}
    (hhead : g.indexOf memory.shown.head = .ok i) (htail : g.indexOf memory.shown.tail = .ok j) :
    idleSlot g memory
      = if i = j then .ok i else .error (.outstanding (Position.distance i j g.slotCount).toNat) := by
  unfold idleSlot
  rw [Region.load_headOffset hread, Region.load_tailOffset hread]
  dsimp only [bind, Except.bind]
  rw [hhead, htail]
  rfl

theorem idleSlot_stray (hread : 68 ≤ memory.length)
    (h : ¬ ((∃ i, g.indexOf memory.shown.head = .ok i) ∧ ∃ j, g.indexOf memory.shown.tail = .ok j)) :
    ∃ reason, idleSlot g memory = .error (.corrupt reason) := by
  unfold idleSlot
  rw [Region.load_headOffset hread, Region.load_tailOffset hread]
  dsimp only [bind, Except.bind]
  rcases hhead : g.indexOf memory.shown.head with e | i
  · obtain ⟨reason, rfl⟩ := Geometry.indexOf_error hhead
    exact ⟨reason, rfl⟩
  rcases htail : g.indexOf memory.shown.tail with e | j
  · obtain ⟨reason, rfl⟩ := Geometry.indexOf_error htail
    exact ⟨reason, rfl⟩
  · exact absurd ⟨⟨i, hhead⟩, ⟨j, htail⟩⟩ h

/-! ## What comes of an attach -/

/-- **An idle ring is taken over**, from the slot of its head on. -/
theorem attach_idle (h : memory.HasRing layout) (heq : memory.shown.head = memory.shown.tail) :
    ∃ g i, Geometry.ofMailbox memory.shown layout memory.length = .ok g
      ∧ i.toNat = memory.shown.head.toNat / layout.slotSize ∧ i.toNat < g.slotCount.toNat
      ∧ attach layout memory = (.ok ((fresh layout g).restarted i), memory) := by
  obtain ⟨g, hg⟩ := Geometry.ofMailbox_accepts.mpr h.described
  obtain ⟨i, hhead, hindex, hi⟩ := Geometry.indexOf_onSlot hg h.head
  have htail : g.indexOf memory.shown.tail = .ok i := heq ▸ hhead
  refine ⟨g, i, hg, hindex, hi, ?_⟩
  rw [attach_described h.readable hg, idleSlot_of_slots h.readable hhead htail, if_pos rfl]
  rfl

/-- **A ring with commands left on it is refused**, with their number. -/
theorem attach_behind (h : memory.HasRing layout) (hne : memory.shown.head ≠ memory.shown.tail) :
    ∃ n, 0 < n ∧ n < memory.shown.ringSize.toNat / layout.slotSize
      ∧ (memory.shown.head.toNat / layout.slotSize + n)
          % (memory.shown.ringSize.toNat / layout.slotSize)
        = memory.shown.tail.toNat / layout.slotSize
      ∧ attach layout memory = (.error (.outstanding n), memory) := by
  obtain ⟨g, hg⟩ := Geometry.ofMailbox_accepts.mpr h.described
  obtain ⟨i, hhead, hindex, hi⟩ := Geometry.indexOf_onSlot hg h.head
  obtain ⟨j, htail, hindex', hj⟩ := Geometry.indexOf_onSlot hg h.tail
  have hvalid := (Geometry.ofMailbox_valid hg).1
  -- two cursors on one slot are one cursor
  have hij : i ≠ j := by
    intro hij
    subst hij
    exact hne ((hvalid.indexOf_eq_ok.mp hhead).2.symm.trans (hvalid.indexOf_eq_ok.mp htail).2)
  obtain ⟨hpos, hlt, hleads⟩ := Position.distance_of_ne hi hj hij
  rw [← hindex, ← hindex', ← Geometry.toNat_slotCount hg]
  refine ⟨_, hpos, hlt, hleads, ?_⟩
  rw [attach_described h.readable hg, idleSlot_of_slots h.readable hhead htail, if_neg hij]
  rfl

/-- **Without a ring there is nothing to attach to.** -/
theorem attach_corrupt (h : ¬ memory.HasRing layout) :
    ∃ reason, attach layout memory = (.error (.corrupt reason), memory) := by
  by_cases hread : 68 ≤ memory.length
  · rcases hg : Geometry.ofMailbox memory.shown layout memory.length with e | g
    · obtain ⟨reason, rfl⟩ := Geometry.ofMailbox_error hg
      exact ⟨reason, attach_misdescribed hread hg⟩
    · obtain ⟨reason, hstray⟩ : ∃ reason, idleSlot g memory = .error (.corrupt reason) := by
        refine idleSlot_stray hread ?_
        rintro ⟨⟨i, hhead⟩, ⟨j, htail⟩⟩
        exact h ⟨hread, Geometry.ofMailbox_accepts.mp ⟨g, hg⟩, Geometry.onSlot_of_indexOf hg hhead,
          Geometry.onSlot_of_indexOf hg htail⟩
      refine ⟨reason, ?_⟩
      rw [attach_described hread hg, hstray]
      rfl
  · exact ⟨_, attach_unreadable hread⟩

theorem attach_ok_iff : (∃ d, attach layout memory = (.ok d, memory)) ↔
    memory.HasRing layout ∧ memory.shown.head = memory.shown.tail := by
  constructor
  · rintro ⟨d, hd⟩
    by_cases hring : memory.HasRing layout
    · by_cases heq : memory.shown.head = memory.shown.tail
      · exact ⟨hring, heq⟩
      · obtain ⟨n, _, _, _, hr⟩ := attach_behind hring heq
        exact absurd (hd.symm.trans hr) (by simp)
    · obtain ⟨reason, hr⟩ := attach_corrupt hring
      exact absurd (hd.symm.trans hr) (by simp)
  · rintro ⟨hring, heq⟩
    obtain ⟨g, i, _, _, _, hr⟩ := attach_idle hring heq
    exact ⟨_, hr⟩

theorem attach_outstanding_iff : (∃ n, attach layout memory = (.error (.outstanding n), memory)) ↔
    memory.HasRing layout ∧ memory.shown.head ≠ memory.shown.tail := by
  constructor
  · rintro ⟨n, hn⟩
    by_cases hring : memory.HasRing layout
    · refine ⟨hring, ?_⟩
      intro heq
      obtain ⟨g, i, _, _, _, hr⟩ := attach_idle hring heq
      exact absurd (hn.symm.trans hr) (by simp)
    · obtain ⟨reason, hr⟩ := attach_corrupt hring
      exact absurd (hn.symm.trans hr) (by simp)
  · rintro ⟨hring, hne⟩
    obtain ⟨n, _, _, _, hr⟩ := attach_behind hring hne
    exact ⟨n, hr⟩

theorem attach_corrupt_iff : (∃ reason, attach layout memory = (.error (.corrupt reason), memory)) ↔
    ¬ memory.HasRing layout := by
  refine ⟨?_, attach_corrupt⟩
  rintro ⟨reason, hreason⟩ hring
  by_cases heq : memory.shown.head = memory.shown.tail
  · obtain ⟨g, i, _, _, _, hr⟩ := attach_idle hring heq
    exact absurd (hreason.symm.trans hr) (by simp)
  · obtain ⟨n, _, _, _, hr⟩ := attach_behind hring heq
    exact absurd (hreason.symm.trans hr) (by simp)

/-- The number of commands that were left is how far the tail is ahead of the head. -/
theorem attach_outstanding {n : Nat} (h : attach layout memory = (.error (.outstanding n), memory)) :
    0 < n ∧ n < memory.shown.ringSize.toNat / layout.slotSize
      ∧ (memory.shown.head.toNat / layout.slotSize + n)
          % (memory.shown.ringSize.toNat / layout.slotSize)
        = memory.shown.tail.toNat / layout.slotSize := by
  obtain ⟨hring, hne⟩ := attach_outstanding_iff.mp ⟨n, h⟩
  obtain ⟨n', hpos, hlt, hleads, hr⟩ := attach_behind hring hne
  rw [h] at hr
  injection hr with hn
  injection hn with hn
  injection hn with hn
  subst hn
  exact ⟨hpos, hlt, hleads⟩

/-! ## What it depends on -/

/-- **Of the mailbox only the two words about the ring and the two cursors count.** -/
theorem attach_congr {memory' : Region} (hlength : memory'.length = memory.length)
    (hring : ∀ i, 4 ≤ i → i < 16 → memory'.byte i = memory.byte i)
    (htail : ∀ i, 64 ≤ i → i < 68 → memory'.byte i = memory.byte i) (layout : Layout) :
    (attach layout memory').1 = (attach layout memory).1 := by
  by_cases hread : 68 ≤ memory.length
  · have hread' : 68 ≤ memory'.length := by rw [hlength]; exact hread
    have hagree := Region.shown_agree (Nat.le_trans hread' memory'.length_le_size)
      (Nat.le_trans hread memory.length_le_size) hring htail
    have hhead : memory'.shown.head = memory.shown.head := by rw [hagree]
    have hcursor : memory'.shown.tail = memory.shown.tail := by rw [hagree]
    have hsame : Geometry.ofMailbox memory'.shown layout memory.length
        = Geometry.ofMailbox memory.shown layout memory.length := by
      rw [hagree]
      rfl
    rcases hg : Geometry.ofMailbox memory.shown layout memory.length with e | g
    · rw [attach_misdescribed hread hg, attach_misdescribed hread' (by rw [hlength, hsame, hg])]
    · have hidle : idleSlot g memory' = idleSlot g memory := by
        unfold idleSlot
        rw [Region.load_headOffset hread', Region.load_tailOffset hread', Region.load_headOffset hread,
          Region.load_tailOffset hread, hhead, hcursor]
      rw [attach_described hread hg, attach_described hread' (by rw [hlength, hsame, hg]), hidle]
  · rw [attach_unreadable hread, attach_unreadable (by rw [hlength]; exact hread), hlength]

/-! ## The first command -/

/-- What the driver of an idle ring begins with. -/
structure BeginsAt (d : Driver) (m : Mailbox) (layout : Layout) : Prop where
  /-- It takes any command that fits, as long as the slot at the head is in reach. -/
  takes : ∀ (memory : Region) (command : Command), command.segments.count ≤ layout.maxSegments →
    command.cdb.length ≤ layout.cdbSize →
    m.ringOffset.toNat + m.head.toNat + layout.slotSize ≤ memory.length →
    (d.submit memory command).1 = .ok 1
  /-- Whatever else is called before, the first command gets the id 1, is written into the slot of the mailbox's
  head, and the tail is moved onto the slot behind it. -/
  first : ∀ (moments : List Session.Moment) (s : Session), Session.Stretch (Session.idle d) moments s →
    (∀ t ∈ moments, t.reply ≠ .restarted ∧ ∀ id, t.reply ≠ .submitted id) →
    ∀ (memory memory' : Region) (command : Command) (id : CommandId) (d' : Driver),
      s.driver.submit memory command = (.ok id, d', memory') →
      id = 1 ∧ ∃ (slot : Bytes) (next : UInt32), d.slotFor 1 command = .ok slot
        ∧ slot.length = layout.slotSize
        ∧ next.toNat = (m.head.toNat / layout.slotSize + 1) % (m.ringSize.toNat / layout.slotSize)
            * layout.slotSize
        ∧ memory' = (memory.put (m.ringOffset.toNat + m.head.toNat / layout.slotSize * layout.slotSize)
            slot).put Mailbox.tailOffset (Bytes.ofUInt32 next)

/-- Nothing but a submit or a reset changes a driver without commands, unless it finds a corruption. -/
theorem untouched {replies : List Reply} {s s' : Session} {moments : List Session.Moment}
    (h : Session.Run replies s) (hempty : s.driver.inFlight = []) (hs : Session.Stretch s moments s')
    (hquiet : ∀ t ∈ moments, t.reply ≠ .restarted ∧ ∀ id, t.reply ≠ .submitted id) :
    s'.driver = s.driver ∨ s'.driver.poison ≠ none := by
  induction hs with
  | refl => exact Or.inl rfl
  | @called moments s' memory c hs ih =>
      have hrun := h.stretch hs
      have hlast := hquiet _ (List.mem_append_right moments (List.mem_singleton_self _))
      rcases ih (fun t ht => hquiet t (List.mem_append_left _ ht)) with hsame | hpoison
      · rcases Session.quiet_call (Session.invariant_run hrun).sound hlast.2 hlast.1 with
          hkept | hpoison | ⟨id, hid, _⟩
        · exact Or.inl (hkept.trans hsame)
        · exact Or.inr hpoison
        · rw [hsame, hempty] at hid
          exact absurd hid List.not_mem_nil
      -- a poisoned driver stays as it is
      · refine Or.inr ?_
        intro htrust
        exact hpoison (Session.trusting_before hrun htrust)

/-- With nothing in flight since the start the first id comes first. -/
theorem FirstFree.eq_one {i : UInt32} {id : CommandId}
    (h : ((fresh layout g).restarted i).FirstFree id) : id = 1 :=
  h.eq_nextId (show (1 : CommandId) ≠ 0 by decide) rfl

/-- A command on a ring that starts on slot `i` is written there, and the tail moves to the slot behind it. -/
theorem writtenTo_restarted (hg : g.Valid layout) {i : UInt32} (hi : i.toNat < g.slotCount.toNat)
    (memory : Region) (slot : Bytes) :
    ∃ next : UInt32, next.toNat = (i.toNat + 1) % g.slotCount.toNat * layout.slotSize
      ∧ ((fresh layout g).restarted i).writtenTo memory slot
        = (memory.put (g.slotStart i.toNat) slot).put Mailbox.tailOffset (Bytes.ofUInt32 next) := by
  have hon : Position.OnRing ⟨i, false⟩ g.slotCount := hi
  have hnext := hon.toNat_advance
  have hlt := Nat.mod_lt (i.toNat + 1) g.slotCount.toNat_pos
  refine ⟨g.ringOffset ((Position.mk i false).advance g.slotCount).index, ?_, rfl⟩
  rw [hg.toNat_ringOffset (by rw [hnext]; exact hlt), hnext, hg.slotSize_eq]

/-- **The driver of an idle ring begins at its head, with the id 1.** -/
theorem beginsAt {d : Driver} (hd : attach layout memory = (.ok d, memory)) :
    d.BeginsAt memory.shown layout := by
  obtain ⟨h, heq⟩ := attach_ok_iff.mp ⟨d, hd⟩
  obtain ⟨g, i, hg, hindex, hi, hattach⟩ := attach_idle h heq
  rw [hattach] at hd
  injection hd with hd
  injection hd with hd
  subst hd
  have hrun := Session.Run.attached hattach
  have hsound := sound_attach hattach
  obtain ⟨hvalid, hoffset, _⟩ := Geometry.ofMailbox_valid hg
  have hslot : g.slotSize.toNat = layout.slotSize := hvalid.slotSize_eq
  have hstart : g.slotStart i.toNat
      = memory.shown.ringOffset.toNat + memory.shown.head.toNat / layout.slotSize * layout.slotSize := by
    unfold Geometry.slotStart
    rw [hoffset, hindex, hslot]
  constructor
  · intro later command hs hc hin
    have hroom : ((fresh layout g).restarted i).cursor.isFull = false := by
      rw [← Bool.not_eq_true, hsound.isFull_iff]
      exact Nat.ne_of_lt g.slotCount.toNat_pos
    have hreach : ((fresh layout g).restarted i).geometry.slotOffset
        ((fresh layout g).restarted i).cursor.tail.index
        + ((fresh layout g).restarted i).geometry.slotSize.toNat ≤ later.length := by
      rw [hsound.slotOffset_tail]
      show g.slotStart i.toNat + g.slotSize.toNat ≤ later.length
      rwa [hstart, hslot, Nat.div_mul_cancel (Nat.dvd_of_mod_eq_zero h.head.1)]
    obtain ⟨id, _, _, hr⟩ := hsound.submit_succeeds rfl hroom hs hc hreach
    rw [hr, (hsound.submit_issues hr).2.1.eq_one]
  · intro moments s hstretch hquiet later written command id d' hr
    have hsound' := (Session.invariant_run (hrun.stretch hstretch)).sound
    obtain ⟨htrust, hfree, _⟩ := hsound'.submit_issues hr
    obtain ⟨slot, hcheck, hfor, _, _, hwritten⟩ := hsound'.submit_eq_ok hr
    obtain ⟨hs, hc, _⟩ := checkCommand_eq_ok.mp hcheck
    have hlength := length_slotFor hsound'.geometry hs hc hfor
    rcases untouched hrun rfl hstretch hquiet with hsame | hpoison
    · have hsame' : s.driver = (fresh layout g).restarted i := hsame
      rw [hsame'] at hfree hfor hlength hwritten
      have hone := hfree.eq_one
      subst hone
      obtain ⟨next, hnext, hput⟩ := writtenTo_restarted hvalid hi later slot
      rw [hindex, Geometry.toNat_slotCount hg] at hnext
      rw [hput, hstart] at hwritten
      exact ⟨rfl, slot, next, hfor, hlength.trans hslot, hnext, hwritten⟩
    · exact absurd htrust hpoison

/-! ## All together -/

/--
**Exactly the idle rings can be attached to.** A memory with a ring on which both cursors are the same is taken over.
If they differ, the attach is refused with the number of slots from the head forward to the tail; and a memory
without a ring is corrupt. In no case is anything written. The driver of an idle ring begins with the slot of its
head and with the id 1. Nothing but the length of the memory, the two words about the ring and the two cursors makes a
difference.
-/
theorem attach_accepts_idle_rings (layout : Layout) (memory : Region) :
    ((∃ d, attach layout memory = (.ok d, memory)) ↔
        memory.HasRing layout ∧ memory.shown.head = memory.shown.tail)
      ∧ ((∃ n, attach layout memory = (.error (.outstanding n), memory)) ↔
        memory.HasRing layout ∧ memory.shown.head ≠ memory.shown.tail)
      ∧ (∀ n, attach layout memory = (.error (.outstanding n), memory) →
        0 < n ∧ n < memory.shown.ringSize.toNat / layout.slotSize
          ∧ (memory.shown.head.toNat / layout.slotSize + n)
              % (memory.shown.ringSize.toNat / layout.slotSize)
            = memory.shown.tail.toNat / layout.slotSize)
      ∧ ((∃ reason, attach layout memory = (.error (.corrupt reason), memory)) ↔
        ¬ memory.HasRing layout)
      ∧ (∀ d, attach layout memory = (.ok d, memory) → d.BeginsAt memory.shown layout)
      ∧ ∀ memory' : Region, memory'.length = memory.length →
        (∀ i, 4 ≤ i → i < 16 → memory'.byte i = memory.byte i) →
        (∀ i, 64 ≤ i → i < 68 → memory'.byte i = memory.byte i) →
        (attach layout memory').1 = (attach layout memory).1 := by
  refine ⟨attach_ok_iff, attach_outstanding_iff, fun _ => attach_outstanding, attach_corrupt_iff,
    fun _ => beginsAt, ?_⟩
  intro memory' hlength hring htail
  exact attach_congr hlength hring htail layout

/-- The small ring is idle, and its driver begins with slot 0. It would be the same driver with another version and
with all flags. -/
theorem attach_accepts_idle_rings_smallRing :
    Session.smallRing.HasRing Session.smallLayout
      ∧ Session.smallDriver.BeginsAt Session.smallRing.shown Session.smallLayout
      ∧ (attach Session.smallLayout (Session.smallRing.put 0 [9, 0, 255, 255])).1
        = .ok Session.smallDriver := by
  obtain ⟨hidle, _, _, _, hbegins, hcongr⟩ :=
    attach_accepts_idle_rings Session.smallLayout Session.smallRing
  have hattach := Session.attach_smallRing.2
  refine ⟨(hidle.mp ⟨_, hattach⟩).1, hbegins _ hattach, ?_⟩
  rw [hcongr _ (Region.length_put ..) ?_ ?_, hattach]
  · intro i hlo _
    exact Region.byte_put_of_not_covered (Or.inr hlo)
  · intro i hlo _
    exact Region.byte_put_of_not_covered (Or.inr (Nat.le_trans (by decide) hlo))

end Driver

end CommandRing
