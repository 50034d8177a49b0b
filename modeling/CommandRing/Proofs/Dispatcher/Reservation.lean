import CommandRing.Dispatcher.History
import CommandRing.Proofs.Dispatcher.Loop

/-!
# The book agrees with the driver

The dispatcher and its driver keep one list each: who is waited for, and which ids are in flight. A submit enters
an id into both and a pump takes ids off both, but whoever gives a command up takes it off the first list only.
The driver's list can therefore only be the longer one: as long as nobody calls the driver directly, every
pending id is in flight.

What gives an id back is its response. Whether a command is still waited for makes no difference to that, so a
command that timed out, or was cancelled or dropped, keeps its id and a slot of the ring until its response is
drained.
-/

namespace CommandRing.Dispatcher

variable {d d' : Dispatcher} {memory : Region}

/-- Who waits after these responses were handed over. -/
theorem mem_pending_handOver (taken : List Response) (hk : WellKeyed d.pending) {x : Handle} :
    x ∈ (d.handOver taken).pending ↔ x ∈ d.pending ∧ x.id ∉ taken.map Response.id := by
  induction taken generalizing d with
  | nil => simp [handOver]
  | cons r rest ih =>
      have hleft := pending_deliver hk r
      have hk' : WellKeyed (d.deliver r).2.pending := by
        rw [hleft]
        exact hk.sublist (withoutId_sublist _ _)
      unfold handOver
      rw [ih hk', hleft, mem_withoutId, List.map_cons, List.mem_cons, not_or, and_assoc]

/-! ## What a pump drains -/

theorem filterMap_toOption (taken : List Response) (items : List Outcome) :
    (taken.map Except.ok ++ items).filterMap Except.toOption
      = taken ++ items.filterMap Except.toOption := by
  induction taken with
  | nil => rfl
  | cons r rest ih =>
      have hfirst : Except.toOption (.ok r : Outcome) = some r := rfl
      rw [List.map_cons, List.cons_append, List.filterMap_cons_some hfirst, ih, List.cons_append]

theorem drainedBy_of_failed {driver : Driver} {e : Error}
    (h : d.driver.pollTake memory none = (.error e, driver)) : d.drainedBy memory .pump = [] := by
  unfold drainedBy
  dsimp only
  rw [h]

theorem drainedBy_of_taken {driver : Driver} {taken : List Response} {items : List Outcome}
    (h : d.driver.pollTake memory none = (.ok (taken.map .ok ++ items), driver)) :
    d.drainedBy memory .pump = taken ++ items.filterMap Except.toOption := by
  unfold drainedBy
  dsimp only
  rw [h]
  exact filterMap_toOption taken items

/-! ## One act -/

/-- What an act does to the two lists, if it gives out `given` and drains `drained`. -/
structure Entry (d : Dispatcher) (given : List Handle) (drained : List Response) (d' : Dispatcher) :
    Prop where
  /-- No id gets lost between the ring and those it was given to. -/
  conserved : (drained.map Response.id ++ d'.driver.inFlight).Perm
    (given.map Handle.id ++ d.driver.inFlight)
  /-- Nobody waits for a response that was drained. -/
  pending : ∀ x ∈ d'.pending, (x ∈ given ∨ x ∈ d.pending) ∧ x.id ∉ drained.map Response.id
  free : ∀ x ∈ given, x.id ∉ d.driver.inFlight

namespace Entry

/-- Some commands are no longer waited for, and that is all. -/
theorem of_pending (hd : d'.driver.inFlight = d.driver.inFlight)
    (h : ∀ x ∈ d'.pending, x ∈ d.pending) : Entry d [] [] d' where
  conserved := by
    rw [hd]
    exact List.Perm.refl _
  pending x hx := ⟨Or.inr (h x hx), List.not_mem_nil⟩
  free x hx := absurd hx List.not_mem_nil

theorem of_failAll {given : List Handle} {drained : List Response} (h : Entry d given drained d')
    (e : Error) : Entry d given drained (d'.failAll e) := by
  rcases failAll_cases d' e with ⟨reason, _, hr⟩ | ⟨_, hr⟩
  · rw [hr]
    exact ⟨h.conserved, fun x hx => absurd hx List.not_mem_nil, h.free⟩
  · rw [hr]
    exact h

/-- Responses are drained and handed over. -/
theorem of_handOver {driver : Driver} {taken : List Response} (hk : WellKeyed d.pending)
    (htaken : (taken.map Response.id ++ driver.inFlight).Perm d.driver.inFlight) :
    Entry d [] taken ({ d with driver := driver }.handOver taken) where
  conserved := by
    rw [handOver_driver]
    exact htaken
  pending x hx := by
    obtain ⟨hpending, hid⟩ := (mem_pending_handOver (d := { d with driver := driver }) taken hk).mp hx
    exact ⟨Or.inr hpending, hid⟩
  free x hx := absurd hx List.not_mem_nil

/-- An id that is in flight stays so until its response is drained, and is not given to anybody else. -/
theorem reserved {given : List Handle} {drained : List Response} (h : Entry d given drained d')
    {id : CommandId} (hid : id ∈ d.driver.inFlight) (hwaits : id ∉ drained.map Response.id) :
    id ∈ d'.driver.inFlight ∧ id ∉ given.map Handle.id := by
  constructor
  · have hsomewhere := h.conserved.symm.subset (List.mem_append_right _ hid)
    rcases List.mem_append.mp hsomewhere with hdrained | hflight
    · exact absurd hdrained hwaits
    · exact hflight
  · intro hgiven
    obtain ⟨x, hx, hxid⟩ := List.mem_map.mp hgiven
    exact h.free x hx (hxid ▸ hid)

end Entry

theorem entry_submit (h : d.Sound) (memory : Region) (command : Command) :
    Entry d (d.act memory (.submit command)).1.given [] (d.act memory (.submit command)).2.1 := by
  unfold act
  dsimp only
  rcases submit_cases h.driver memory command with
    ⟨e, _, hr⟩ | ⟨id, reason, hr⟩ | ⟨id, slot, _, _, hfree, _, _, hr⟩
  · rw [hr]
    exact (Entry.of_pending rfl fun _ hx => hx).of_failAll e
  · have hsame : Entry d [] [] { d with driver :=
        { d.driver with nextId := CommandId.successor id, poison := some reason } } :=
      .of_pending rfl fun _ hx => hx
    rw [hr]
    exact hsame.of_failAll (.corrupt reason)
  · rw [hr]
    refine ⟨List.Perm.refl _, ?_, ?_⟩
    · intro x hx
      refine ⟨?_, List.not_mem_nil⟩
      rcases List.mem_cons.mp hx with hnew | hold
      · exact Or.inl (List.mem_singleton.mpr hnew)
      · exact Or.inr (mem_withoutId.mp hold).1
    · intro x hx
      rw [List.mem_singleton.mp hx]
      exact hfree

theorem entry_pump (h : d.Sound) (memory : Region) :
    Entry d [] (d.drainedBy memory .pump) (d.pump memory).2 := by
  rcases pump_cases h.driver h.keyed memory with
    ⟨reason, hp, hr⟩ | ⟨_, taken, driver, count, htaken, hp, hr, _⟩
      | ⟨_, taken, driver, reason, htaken, hp, hr⟩
  · have hsame : Entry d [] [] { d with driver := d.driver.poisonedBy (.corrupt reason) } :=
      .of_pending rfl fun _ hx => hx
    rw [hr, drainedBy_of_failed hp]
    exact hsame.of_failAll (.corrupt reason)
  · rw [← List.append_nil (taken.map _)] at hp
    rw [hr, drainedBy_of_taken hp, List.filterMap_nil, List.append_nil]
    exact .of_handOver h.keyed htaken.conserved
  · have hdrained : Entry d [] taken
        ({ d with driver := driver.poisonedBy (.corrupt reason) }.handOver taken) :=
      .of_handOver h.keyed htaken.conserved
    rw [hr, drainedBy_of_taken hp, List.filterMap_cons_none rfl, List.filterMap_nil, List.append_nil]
    exact hdrained.of_failAll (.corrupt reason)

theorem given_pump (d : Dispatcher) (memory : Region) : (d.act memory .pump).1.given = [] := by
  unfold act
  dsimp only
  split <;> rfl

/-- **One act, in all its cases.** -/
theorem entry_act (h : d.Sound) (memory : Region) (a : Act) :
    Entry d (d.act memory a).1.given (d.drainedBy memory a) (d.act memory a).2.1 := by
  cases a with
  | submit command => exact entry_submit h memory command
  | pump =>
      rw [given_pump, dispatcher_pump]
      exact entry_pump h memory
  | cancel id =>
      unfold act
      dsimp only
      rcases cancel_cases h.keyed id with ⟨x, _, _, hr⟩ | ⟨_, hr⟩
      · rw [hr]
        exact .of_pending rfl fun y hy => (mem_withoutId.mp hy).1
      · rw [hr]
        exact .of_pending rfl fun _ hy => hy
  | look x =>
      unfold act
      dsimp only
      split <;> exact .of_pending rfl fun _ hy => hy
  | expire x =>
      unfold act
      dsimp only
      rcases d.expire_cases x with ⟨_, hr⟩ | ⟨_, hr⟩
      · rw [hr]
        exact .of_pending rfl fun _ hy => List.mem_of_mem_erase hy
      · rw [hr]
        exact .of_pending rfl fun _ hy => hy
  | giveUp x =>
      unfold act
      dsimp only
      rcases d.forget_cases x with ⟨_, hr⟩ | ⟨_, hr⟩
      · rw [hr]
        exact .of_pending rfl fun _ hy => List.mem_of_mem_erase hy
      · rw [hr]
        exact .of_pending rfl fun _ hy => hy

/-! ## Any acts -/

/-- The book agrees with the driver: whoever is waited for is in flight. -/
structure Booked (d : Dispatcher) : Prop where
  sound : d.Sound
  inFlight : ∀ x ∈ d.pending, x.id ∈ d.driver.inFlight

theorem Booked.act (h : d.Booked) (memory : Region) (a : Act) : (d.act memory a).2.1.Booked := by
  have hentry := entry_act h.sound memory a
  refine ⟨h.sound.change (.acted memory a), ?_⟩
  intro x hx
  obtain ⟨hfrom, hwaits⟩ := hentry.pending x hx
  have hflight : x.id ∈ (d.act memory a).1.given.map Handle.id ++ d.driver.inFlight := by
    rcases hfrom with hgiven | hpending
    · exact List.mem_append_left _ (List.mem_map_of_mem hgiven)
    · exact List.mem_append_right _ (h.inFlight x hpending)
  rcases List.mem_append.mp (hentry.conserved.symm.subset hflight) with hdrained | hstill
  · exact absurd hdrained hwaits
  · exact hstill

theorem Booked.length_le (h : d.Booked) : d.pending.length ≤ d.driver.inFlight.length := by
  have hsubset : d.pending.map Handle.id ⊆ d.driver.inFlight := by
    intro id hid
    obtain ⟨x, hx, rfl⟩ := List.mem_map.mp hid
    exact h.inFlight x hx
  have hlength := (List.subperm_of_subset h.sound.keyed hsubset).length_le
  rwa [List.length_map] at hlength

variable {given : List Handle} {drained : List Response}

theorem Acts.booked (h : Acts d given drained d') (hb : d.Booked) : d'.Booked := by
  induction h with
  | refl => exact hb
  | acted memory a _ ih => exact ih.act memory a
  | signalled bell _ ih => exact ⟨⟨ih.sound.driver, ih.sound.keyed⟩, ih.inFlight⟩

/-- **Ids in flight are those that were given out and whose responses were not drained.** -/
theorem Acts.conserved (h : Acts d given drained d') (hb : d.Booked) :
    (drained.map Response.id ++ d'.driver.inFlight).Perm (given.map Handle.id ++ d.driver.inFlight) := by
  induction h with
  | refl => exact List.Perm.refl _
  | @acted given drained d' memory a hacts ih =>
      have hentry := (entry_act (hacts.booked hb).sound memory a).conserved
      rw [List.map_append, List.map_append, List.append_assoc, List.append_assoc]
      -- what this act drains and gives out is told apart from what was drained and given out before
      calc List.Perm (drained.map Response.id ++ ((d'.drainedBy memory a).map Response.id
            ++ (d'.act memory a).2.1.driver.inFlight)) (drained.map Response.id
            ++ ((d'.act memory a).1.given.map Handle.id ++ d'.driver.inFlight)) :=
          hentry.append_left _
        List.Perm _ ((d'.act memory a).1.given.map Handle.id
            ++ (drained.map Response.id ++ d'.driver.inFlight)) :=
          List.perm_append_comm_assoc _ _ _
        List.Perm _ ((d'.act memory a).1.given.map Handle.id
            ++ (given.map Handle.id ++ d.driver.inFlight)) :=
          ih.append_left _
        List.Perm _ (given.map Handle.id
            ++ ((d'.act memory a).1.given.map Handle.id ++ d.driver.inFlight)) :=
          List.perm_append_comm_assoc _ _ _
  | signalled bell _ ih => exact ih

theorem Acts.reserved (h : Acts d given drained d') (hb : d.Booked) {id : CommandId}
    (hid : id ∈ d.driver.inFlight) (hwaits : id ∉ drained.map Response.id) :
    id ∈ d'.driver.inFlight ∧ id ∉ given.map Handle.id := by
  induction h with
  | refl => exact ⟨hid, List.not_mem_nil⟩
  | @acted given drained d' memory a hacts ih =>
      rw [List.map_append, List.mem_append, not_or] at hwaits
      obtain ⟨hflight, hgiven⟩ := ih hwaits.1
      obtain ⟨hflight', hgiven'⟩ :=
        (entry_act (hacts.booked hb).sound memory a).reserved hflight hwaits.2
      refine ⟨hflight', ?_⟩
      rw [List.map_append, List.mem_append, not_or]
      exact ⟨hgiven, hgiven'⟩
  | signalled bell _ ih => exact ih hwaits

/-- An id in flight accounts for one occupied slot. -/
theorem Sound.occupied_eq (h : d.Sound) {id : CommandId} (hid : id ∈ d.driver.inFlight) :
    d.driver.cursor.occupied.toNat = (d.driver.inFlight.erase id).length + 1 := by
  rw [h.driver.toNat_occupied, List.length_erase_add_one hid]

/-- What a submit gives out joins those who wait, and replaces nobody. -/
theorem Booked.submit (h : d.Booked) (memory : Region) (command : Command) {x : Handle}
    (hx : x ∈ (d.act memory (.submit command)).1.given) :
    (∀ y ∈ d.pending, y.id ≠ x.id)
      ∧ (d.act memory (.submit command)).2.1.pending = x :: d.pending := by
  have hunused : ∀ id, id ∉ d.driver.inFlight → id ∉ d.pending.map Handle.id := by
    intro id hfree hid
    obtain ⟨y, hy, rfl⟩ := List.mem_map.mp hid
    exact hfree (h.inFlight y hy)
  unfold Dispatcher.act at hx ⊢
  dsimp only at hx ⊢
  rcases submit_cases h.sound.driver memory command with
    ⟨e, _, hr⟩ | ⟨id, reason, hr⟩ | ⟨id, slot, _, _, hfree, _, _, hr⟩
  · rw [hr] at hx
    exact absurd hx List.not_mem_nil
  · rw [hr] at hx
    exact absurd hx List.not_mem_nil
  · rw [hr] at hx ⊢
    have hxnew : x = ⟨id, d.nextTicket⟩ := List.mem_singleton.mp hx
    subst hxnew
    refine ⟨?_, ?_⟩
    · intro y hy hid
      exact hunused id hfree (List.mem_map.mpr ⟨y, hy, hid⟩)
    · show _ :: withoutId d.pending id = _
      rw [withoutId_of_unused (hunused id hfree)]

/-- Who stops waiting leaves the driver alone. -/
theorem Booked.abandon (h : d.Booked) (memory : Region) {a : Act} {x : Handle} (hx : x ∈ d.pending)
    (ha : a = .expire x ∨ a = .giveUp x ∨ a = .cancel x.id) :
    x ∉ (d.act memory a).2.1.pending ∧ (d.act memory a).2.1.driver = d.driver := by
  have hgone : x ∉ d.pending.erase x := h.sound.keyed.nodup.not_mem_erase
  rcases ha with rfl | rfl | rfl
  · unfold Dispatcher.act
    dsimp only
    rcases d.expire_cases x with ⟨_, hr⟩ | ⟨hnot, _⟩
    · rw [hr]
      exact ⟨hgone, rfl⟩
    · exact absurd hx hnot
  · unfold Dispatcher.act
    dsimp only
    rcases d.forget_cases x with ⟨_, hr⟩ | ⟨hnot, _⟩
    · rw [hr]
      exact ⟨hgone, rfl⟩
    · exact absurd hx hnot
  · unfold Dispatcher.act
    dsimp only
    rcases cancel_cases h.sound.keyed x.id with ⟨y, hy, hid, hr⟩ | ⟨hnot, _⟩
    · rw [hr]
      refine ⟨?_, rfl⟩
      intro hstill
      exact (mem_withoutId.mp hstill).2 hid.symm
    · exact absurd (List.mem_map_of_mem hx) hnot

theorem booked_new {layout : Layout} {memory' : Region} {driver : Driver} (bell : Doorbell)
    (hattach : Driver.attach layout memory = (.ok driver, memory')) : (new driver bell).Booked :=
  ⟨sound_of_reachable (.new bell hattach), fun _ hx => absurd hx List.not_mem_nil⟩

/--
**An id is reserved until its response is drained.** After any acts, each on any memory, whoever is waited for is
in flight, and the ids in flight are those that were given out and whose responses were not drained. So a submit
replaces nobody. A wait that times out, and a command that is cancelled or dropped, leaves the driver alone: as
long as the response is not drained, whatever is done, the id is in flight, it is given to nobody else, and it
accounts for one slot of the ring.
-/
theorem reserved_until_drained {layout : Layout} {memory₀ memory₁ : Region} {driver : Driver}
    (bell : Doorbell) (hattach : Driver.attach layout memory₀ = (.ok driver, memory₁))
    (h : Acts (new driver bell) given drained d) :
    (∀ x ∈ d.pending, x.id ∈ d.driver.inFlight)
      ∧ d.pending.length ≤ d.driver.inFlight.length
      ∧ d.driver.inFlight.length ≤ d.driver.geometry.slotCount.toNat
      ∧ (drained.map Response.id ++ d.driver.inFlight).Perm (given.map Handle.id)
      ∧ (∀ memory command, ∀ x ∈ (d.act memory (.submit command)).1.given,
        (∀ y ∈ d.pending, y.id ≠ x.id)
          ∧ (d.act memory (.submit command)).2.1.pending = x :: d.pending)
      ∧ ∀ x ∈ d.pending, ∀ memory a, a = .expire x ∨ a = .giveUp x ∨ a = .cancel x.id →
        x ∉ (d.act memory a).2.1.pending ∧ (d.act memory a).2.1.driver = d.driver
          ∧ ∀ later taken d', Acts (d.act memory a).2.1 later taken d' →
            x.id ∉ taken.map Response.id →
              x.id ∈ d'.driver.inFlight ∧ x.id ∉ later.map Handle.id
                ∧ d'.driver.cursor.occupied.toNat = (d'.driver.inFlight.erase x.id).length + 1 := by
  have hnew := booked_new bell hattach
  have hb := h.booked hnew
  have hconserved := h.conserved hnew
  have hempty : (new driver bell).driver.inFlight = [] := by
    obtain ⟨_, _, _, _, _, _, rfl⟩ := Driver.attach_eq_ok hattach
    rfl
  rw [hempty, List.append_nil] at hconserved
  refine ⟨hb.inFlight, hb.length_le, hb.sound.driver.length_le, hconserved, ?_, ?_⟩
  · intro memory command x hx
    exact hb.submit memory command hx
  · intro x hx memory a ha
    obtain ⟨hgone, hdriver⟩ := hb.abandon memory hx ha
    refine ⟨hgone, hdriver, ?_⟩
    intro later taken d' hlater hwaits
    have hb' := hb.act memory a
    have hid : x.id ∈ (d.act memory a).2.1.driver.inFlight := by
      rw [hdriver]
      exact hb.inFlight x hx
    obtain ⟨hflight, hgiven⟩ := hlater.reserved hb' hid hwaits
    exact ⟨hflight, hgiven, (hlater.booked hb').sound.occupied_eq hflight⟩

/-- A dispatcher on the smallest ring, with one command pending. -/
def busy : Dispatcher :=
  ((new Session.smallDriver {}).act Session.smallRing (.submit Command.testUnitReady)).2.1

/-- The wait for that command has timed out. -/
def timedOut : Dispatcher := (busy.act Session.smallRing (.expire ⟨1, 0⟩)).2.1

set_option maxRecDepth 10000 in
/-- The next command gets another id, and the other slot. -/
theorem reserved_after_timeout :
    busy.pending = [⟨1, 0⟩] ∧ timedOut.pending = []
      ∧ ∃ d', Acts timedOut [⟨2, 1⟩] [] d' ∧ d'.pending = [⟨2, 1⟩] ∧ 1 ∈ d'.driver.inFlight
        ∧ d'.driver.cursor.occupied.toNat = (d'.driver.inFlight.erase 1).length + 1 := by
  have hrun : Acts (new Session.smallDriver {}) _ _ busy :=
    .acted Session.smallRing (.submit Command.testUnitReady) .refl
  have hnext : Acts timedOut [⟨2, 1⟩] [] _ :=
    .acted Session.smallRing (.submit Command.testUnitReady) .refl
  obtain ⟨_, _, _, _, _, hleft⟩ := reserved_until_drained {} Session.attach_smallRing.2 hrun
  have hfound : busy.pending = [⟨1, 0⟩] ∧ timedOut.pending = []
      ∧ (timedOut.act Session.smallRing (.submit Command.testUnitReady)).2.1.pending = [⟨2, 1⟩] := by
    decide
  have hx : (⟨1, 0⟩ : Handle) ∈ busy.pending := by
    rw [hfound.1]
    exact List.mem_cons_self
  obtain ⟨_, _, hlater⟩ := hleft ⟨1, 0⟩ hx Session.smallRing (.expire ⟨1, 0⟩) (Or.inl rfl)
  obtain ⟨hflight, _, hoccupied⟩ := hlater _ _ _ hnext List.not_mem_nil
  exact ⟨hfound.1, hfound.2.1, _, hnext, hfound.2.2, hflight, hoccupied⟩

end CommandRing.Dispatcher
