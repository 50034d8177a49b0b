import CommandRing.Proofs.Driver.Polling

/-!
# What the driver's calls do on an honest memory

Against an arbitrary memory a call may find anything. Against one that `Holds` what both sides wrote, every
call has one outcome, and the outcome is a matter of four numbers: how many commands were published, how
many responses were written, how many of them the head was moved over, and how many were consumed.
-/

namespace CommandRing

/-- A sound driver that consumed `taken` responses, and the memory it shares with an honest kernel. -/
structure InStep (d : Driver) (start : Nat) (memory : Region) (taken passed : Nat)
    (answers : List Response) (count : Nat) : Prop where
  sound : d.Sound
  trusting : d.poison = none
  holds : Holds d.geometry d.layout start memory taken passed answers count
  /-- The driver's head is on the first response that it has not consumed. -/
  index : d.cursor.head.index.toNat = d.geometry.seat start taken
  /-- What is published and not consumed is in flight. -/
  count_eq : count = taken + d.inFlight.length

namespace InStep

variable {d : Driver} {start taken passed count : Nat} {memory : Region} {answers : List Response}

theorem le_lap (h : InStep d start memory taken passed answers count) :
    count ≤ taken + d.geometry.slotCount.toNat := by
  have := h.sound.length_le
  have := h.count_eq
  omega

theorem isFull_iff (h : InStep d start memory taken passed answers count) :
    d.cursor.isFull = true ↔ count = taken + d.geometry.slotCount.toNat := by
  rw [h.sound.isFull_iff, h.count_eq]
  omega

theorem tail_index (h : InStep d start memory taken passed answers count) :
    d.cursor.tail.index.toNat = d.geometry.seat start count := by
  rw [h.sound.ahead.index_eq, h.index, h.count_eq]
  exact d.geometry.seat_add start taken _

theorem slotOffset_head (h : InStep d start memory taken passed answers count) :
    d.geometry.slotOffset d.cursor.head.index = d.geometry.slotStart (d.geometry.seat start taken) := by
  rw [h.sound.slotOffset_head, h.index]

/-! ## Submitting -/

/-- **A submit is refused, or publishes.** -/
theorem submit_cases (h : InStep d start memory taken passed answers count)
    (htaken : taken ≤ answers.length) (hle : answers.length ≤ count) (command : Command) :
    (∃ e, d.checkCommand command = .error e ∧ d.submit memory command = (.error e, d, memory))
      ∨ (∃ id memory', d.checkCommand command = .ok ()
        ∧ d.submit memory command = (.ok id, d.submitted id, memory')
        ∧ InStep (d.submitted id) start memory' taken passed answers (count + 1)) := by
  rcases h.sound.submit_cases memory command with
    hrefused | ⟨_, _, hout, _⟩ | ⟨id, slot, hok, h0, hfree, hslot, _, hr⟩
  · exact Or.inl hrefused
  -- an honest memory has room for every slot
  · refine absurd ?_ hout
    rw [h.tail_index]
    exact h.holds.slot_le (d.geometry.seat_lt start count)
  · refine Or.inr ⟨id, _, hok, hr, ?_⟩
    obtain ⟨hsegments, hcdb, _, hroom⟩ := Driver.checkCommand_eq_ok.mp hok
    have hsound := h.sound.submitted hroom h0 hfree
    have hlap := h.le_lap
    -- a free slot, so the new command is still within a lap of the last response that was consumed
    have hnotFull : count ≠ taken + d.geometry.slotCount.toNat := by
      intro he
      rw [h.isFull_iff.mpr he] at hroom
      exact Bool.noConfusion hroom
    have hlen := Driver.length_slotFor h.sound.geometry hsegments hcdb hslot
    have hcount : count + 1 = taken + (d.submitted id).inFlight.length := by
      show count + 1 = taken + (d.inFlight.length + 1)
      have := h.count_eq
      omega
    have htail : (d.submitted id).cursor.tail.index.toNat = d.geometry.seat start (count + 1) := by
      rw [hsound.ahead.index_eq, hcount]
      show (d.cursor.head.index.toNat + _) % d.geometry.slotCount.toNat = _
      rw [h.index]
      exact d.geometry.seat_add start taken _
    refine ⟨hsound, h.trusting, ?_, h.index, hcount⟩
    unfold Driver.writtenTo
    rw [h.tail_index]
    refine h.holds.publish htaken hle (by omega) hlen
      (Waits.slotFor h.sound.geometry hsegments hslot) ?_
    have hword := h.sound.geometry.toNat_ringOffset hsound.ahead.tail_onRing
    rw [← htail]
    exact hword

/-- Among the commands that fit, a full ring refuses all and any other ring none. -/
theorem checkCommand_eq (h : InStep d start memory taken passed answers count) {command : Command}
    (hs : command.segments.count ≤ d.layout.maxSegments)
    (hc : command.cdb.length ≤ d.layout.cdbSize) :
    d.checkCommand command =
      if count = taken + d.geometry.slotCount.toNat then
        .error (.ringFull d.geometry.slotCount.toNat)
      else
        .ok () := by
  unfold Driver.checkCommand
  rw [if_neg (Nat.not_lt.mpr hs), if_neg (Nat.not_lt.mpr hc),
    Driver.checkPoison_eq_ok.mpr h.trusting]
  dsimp only
  by_cases hfull : count = taken + d.geometry.slotCount.toNat
  · rw [if_pos hfull, if_pos (h.isFull_iff.mpr hfull)]
  · rw [if_neg hfull, if_neg (fun hf => hfull (h.isFull_iff.mp hf))]

/-! ## Consuming -/

/-- **The next response is the first that was not consumed.** -/
theorem consume_answered (h : InStep d start memory taken passed answers count) {r : Response}
    (hget : answers[taken]? = some r) (hid : r.id ∈ d.inFlight) :
    d.consume memory = .ok (r, d.consumed r.id)
      ∧ InStep (d.consumed r.id) start memory (taken + 1) passed answers count := by
  have hanswers := h.holds.answered taken r (Nat.le_refl _) hget
  have hin := h.holds.slot_le (d.geometry.seat_lt start taken)
  rw [← h.index] at hanswers hin
  refine ⟨h.sound.consume_answer ⟨hin, hanswers, hid⟩, ?_⟩
  have hlen := List.length_erase_of_mem hid
  have hpos := List.length_pos_of_mem hid
  have hcount : count = taken + 1 + (d.consumed r.id).inFlight.length := by
    show count = taken + 1 + (d.inFlight.erase r.id).length
    have := h.count_eq
    omega
  refine ⟨h.sound.consumed hid, h.trusting, h.holds.consume, ?_, hcount⟩
  show (d.cursor.head.advance d.geometry.slotCount).index.toNat = _
  rw [h.sound.ahead.onRing.toNat_advance, h.index]
  exact d.geometry.seat_add start taken 1

theorem consume_waiting (h : InStep d start memory taken passed answers count)
    (hw : Waits (d.geometry.slotBytes memory (d.geometry.seat start taken))) :
    d.consume memory = .error (.corrupt (.unanswered d.cursor.head.index.toNat)) := by
  have hin := h.holds.slot_le (d.geometry.seat_lt start taken)
  rw [← h.index] at hin hw
  exact h.sound.consume_fault (.unanswered hin hw)

/-! ## Polling -/

theorem headShown (h : InStep d start memory taken passed answers count) : d.HeadShown memory := by
  have hle := h.holds.valid.slot_le (d.geometry.seat_lt start passed)
  have hpos := h.holds.valid.slotSize_pos
  have hhead := h.holds.head
  refine ⟨Nat.le_trans (by decide) h.holds.mailbox_le, by omega, ?_⟩
  rw [hhead, Nat.mul_mod_left]

/-- The kernel's head shows `k` slots beyond the driver's, up to laps. -/
theorem gap_eq (h : InStep d start memory taken passed answers count) {k : Nat}
    (hseat : d.geometry.seat start passed = d.geometry.seat start (taken + k)) :
    d.gap memory = k % d.geometry.slotCount.toNat := by
  refine h.sound.gap_eq h.headShown ?_
  rw [h.index, h.holds.head, Nat.mul_div_cancel _ h.holds.valid.slotSize_pos, hseat]
  exact d.geometry.seat_add start taken k

/-- The flag is read by itself, but it is the one in the slot. -/
theorem flagged_eq (h : InStep d start memory taken passed answers count) :
    d.flagged memory
      = (Header.ofBytes (d.geometry.slotBytes memory (d.geometry.seat start taken))).isAnswered := by
  have hin := h.holds.slot_le (d.geometry.seat_lt start taken)
  have hsize := d.layout.headerSize_le_slotSize
  have heq := h.sound.geometry.slotSize_eq
  have hfront : (d.geometry.slotBytes memory (d.geometry.seat start taken)).take Header.size
      = memory.extract (d.geometry.slotStart (d.geometry.seat start taken)) Header.size := by
    show Bytes.slice (memory.extract _ d.geometry.slotSize.toNat) 0 _ = memory.extract (_ + 0) _
    exact Region.slice_extract (Nat.le_trans hin memory.length_le_size) (by omega)
  unfold Driver.flagged
  rw [h.index, ← hfront, Header.ofBytes_take (Nat.le_refl _)]

theorem no_fault (h : InStep d start memory taken passed answers count)
    (hgap : d.gap memory ≤ d.inFlight.length) (reason : Corruption) :
    ¬ d.PollFault memory reason := by
  have hs := h.headShown
  intro hf
  cases hf with
  | unreadable hout => exact absurd hs.readable (Nat.not_le.mpr hout)
  | stray _ hplace =>
      rcases hplace with hplace | hplace
      · exact absurd hs.inside (Nat.not_lt.mpr hplace)
      · exact hplace hs.boundary
  | beyond _ hbeyond =>
      rw [h.sound.toNat_occupied] at hbeyond
      exact absurd hgap (Nat.not_le.mpr hbeyond)
  | hidden _ _ _ hout =>
      have hin := h.holds.slot_le (d.geometry.seat_lt start taken)
      have hsize := d.layout.headerSize_le_slotSize
      have heq := h.sound.geometry.slotSize_eq
      rw [h.index] at hout
      omega

/-- **A poll counts the responses that can be seen**, as long as a full ring with none of them has no flag
at its head. -/
theorem poll_exact (h : InStep d start memory taken passed answers count) {seen : Nat}
    (htaken : taken ≤ seen) (hseen : seen ≤ answers.length) (hle : answers.length ≤ count)
    (hseat : d.geometry.seat start passed = d.geometry.seat start seen)
    (hquiet : d.cursor.isFull = true → seen = taken → answers.length = taken) :
    d.poll memory = (.ok ⟨seen - taken, false⟩, d) := by
  have hlap := h.le_lap
  have hcount := h.count_eq
  have hfull := h.isFull_iff
  have hgap := h.gap_eq (k := seen - taken) (by rw [hseat, Nat.add_sub_cancel' htaken])
  have hmod := Nat.mod_le (seen - taken) d.geometry.slotCount.toNat
  have hannounced : d.announced memory = seen - taken := by
    unfold Driver.announced
    rw [hgap, h.flagged_eq]
    rcases Nat.lt_or_ge (seen - taken) d.geometry.slotCount.toNat with hless | hwhole
    -- nothing to see on a full ring, so there is no flag either
    · rw [Nat.mod_eq_of_lt hless, if_neg]
      rintro ⟨hnone, hf, hflag⟩
      have hnothing := hquiet hf (by omega)
      have hlapped := hfull.mp hf
      have hwaits := h.holds.waiting taken (by omega) (by omega)
      rw [hwaits] at hflag
      exact Bool.noConfusion hflag
    -- a whole lap fills the ring, and its first response has the flag
    · have hall : seen - taken = d.geometry.slotCount.toNat := by omega
      have hpos := d.geometry.slotCount.toNat_pos
      have hanswers := h.holds.answered taken _ (Nat.le_refl _)
        (List.getElem?_eq_getElem (by omega))
      rw [if_pos ⟨by rw [hall, Nat.mod_self], hfull.mpr (by omega), hanswers.flagged⟩, hall]
  rw [h.sound.poll_announced h.trusting (h.no_fault (by omega)), hannounced]

/-- **A flag at the head of a full ring counts for the whole lap**, whatever the kernel's head says. -/
theorem poll_whole (h : InStep d start memory taken passed answers count)
    (hfull : d.cursor.isFull = true) (hpassed : passed = taken) (hanswers : taken < answers.length) :
    d.poll memory = (.ok ⟨d.geometry.slotCount.toNat, false⟩, d) := by
  have hflag := (h.holds.answered taken _ (Nat.le_refl _)
    (List.getElem?_eq_getElem hanswers)).flagged
  have hgap := h.gap_eq (k := 0) (by rw [hpassed, Nat.add_zero])
  rw [Nat.zero_mod] at hgap
  have hannounced : d.announced memory = d.geometry.slotCount.toNat := by
    unfold Driver.announced
    rw [h.flagged_eq, if_pos ⟨hgap, hfull, hflag⟩]
  rw [h.sound.poll_announced h.trusting (h.no_fault (by omega)), hannounced]

end InStep

/-! ## Starting over -/

/-- The kernel's head and the driver's tail name the same slot if nothing waits, and if a whole lap does. -/
theorem Holds.idleSlot_eq {g : Geometry} {layout : Layout} {start taken passed count : Nat}
    {memory : Region} {answers : List Response}
    (h : Holds g layout start memory taken passed answers count) (hle : passed ≤ count)
    (hlap : count ≤ passed + g.slotCount.toNat) :
    Driver.idleSlot g memory =
      if count = passed ∨ count = passed + g.slotCount.toNat then
        .ok (UInt32.ofNat (g.seat start count))
      else
        .error (.outstanding (count - passed)) := by
  have hpos := g.slotCount.toNat_pos
  have hdistance : (Position.distance (UInt32.ofNat (g.seat start passed))
      (UInt32.ofNat (g.seat start count)) g.slotCount).toNat = (count - passed) % g.slotCount.toNat := by
    refine Position.distance_eq (by rw [g.toNat_seat]; exact g.seat_lt start passed) (by omega) ?_
    rw [g.toNat_seat, g.toNat_seat]
    have hadd := g.seat_add start passed (count - passed)
    rw [show passed + (count - passed) = count by omega] at hadd
    exact hadd.symm
  unfold Driver.idleSlot
  dsimp only [bind, Except.bind, pure, Except.pure]
  rw [h.load_head]
  dsimp only
  rw [h.load_tail]
  dsimp only
  rw [h.indexOf_seat h.head]
  dsimp only
  rw [h.indexOf_seat h.tail]
  dsimp only
  by_cases hidle : count = passed ∨ count = passed + g.slotCount.toNat
  · have hseat : g.seat start passed = g.seat start count := by
      rcases hidle with rfl | rfl
      · rfl
      · unfold Geometry.seat
        rw [← Nat.add_assoc, Nat.add_mod_right]
    rw [if_pos (by rw [hseat]), if_pos hidle, hseat]
  -- strictly between nothing and a lap the distance is the number itself
  · have hmod : (count - passed) % g.slotCount.toNat = count - passed := Nat.mod_eq_of_lt (by omega)
    rw [if_neg hidle, if_neg, hdistance, hmod]
    · rfl
    · intro he
      have hne := g.seat_ne start (i := passed) (j := count) (by omega) (by omega)
      refine hne ?_
      rw [← g.toNat_seat start count, ← g.toNat_seat start passed, he]

/-- **A second driver is let in if nothing waits, and if a whole lap does.** -/
theorem Holds.attach_eq {g : Geometry} {layout : Layout} {start taken passed count : Nat}
    {memory : Region} {answers : List Response}
    (h : Holds g layout start memory taken passed answers count) (hle : passed ≤ count)
    (hlap : count ≤ passed + g.slotCount.toNat) :
    Driver.attach layout memory =
      if count = passed ∨ count = passed + g.slotCount.toNat then
        (.ok ((Driver.fresh layout g).restarted (UInt32.ofNat (g.seat start count))), memory)
      else
        (.error (.outstanding (count - passed)), memory) := by
  have hidle := h.idleSlot_eq hle hlap
  have hfresh := Driver.sound_fresh h.valid
  unfold Driver.attach
  rw [Region.mailbox_eq_ok.mpr ⟨h.mailbox_le, rfl⟩]
  dsimp only
  rw [h.geometry]
  dsimp only
  by_cases hc : count = passed ∨ count = passed + g.slotCount.toNat
  · rw [if_pos hc] at hidle ⊢
    rw [hfresh.reset_idle rfl rfl hidle]
  · rw [if_neg hc] at hidle ⊢
    rw [hfresh.reset_busy rfl rfl hidle]

namespace InStep

variable {d : Driver} {start taken passed count : Nat} {memory : Region} {answers : List Response}

theorem reset_refused (h : InStep d start memory taken passed answers count) (hmore : taken < count) :
    d.reset memory = (.error (.outstanding (count - taken)), d, memory) := by
  have hcount := h.count_eq
  have hsome : d.inFlight ≠ [] := by
    intro he
    rw [he, List.length_nil] at hcount
    omega
  rw [h.sound.reset_outstanding h.trusting hsome, show count - taken = d.inFlight.length by omega]

/-- A restart changes where the cursor was counted from, and nothing else. -/
theorem reset_restarts (h : InStep d start memory taken passed answers count) (hcount : count = taken)
    (hidle : count = passed ∨ count = passed + d.geometry.slotCount.toNat) :
    ∃ i, d.reset memory = (.ok (), d.restarted i, memory)
      ∧ InStep (d.restarted i) start memory taken passed answers count := by
  have hslot := h.holds.idleSlot_eq (by omega) (by omega)
  rw [if_pos hidle] at hslot
  -- everything that was published is consumed
  have hempty : d.inFlight = [] := by
    have := h.count_eq
    exact List.eq_nil_of_length_eq_zero (by omega)
  have hword := d.geometry.toNat_seat start count
  refine ⟨_, h.sound.reset_idle h.trusting hempty hslot, ?_⟩
  refine ⟨h.sound.restarted hempty (by rw [hword]; exact d.geometry.seat_lt start count),
    h.trusting, h.holds, ?_, h.count_eq⟩
  show (UInt32.ofNat (d.geometry.seat start count)).toNat = d.geometry.seat start taken
  rw [hword, hcount]

/-- **A driver that was let in is in step**, counting from the slot that it was let in on. -/
theorem attached {layout : Layout} {memory' : Region}
    (h : Driver.attach layout memory = (.ok d, memory')) :
    ∃ start, start < d.geometry.slotCount.toNat
      ∧ memory.shown.head.toNat = start * d.geometry.slotSize.toNat
      ∧ InStep d start memory 0 0 [] 0 := by
  have hsound := Driver.sound_attach h
  obtain ⟨m, g, i, hm, hg, hidle, rfl⟩ := Driver.attach_eq_ok h
  obtain ⟨_, hshown⟩ := Region.mailbox_eq_ok.mp hm
  obtain ⟨hi, hhead, htail⟩ := (Driver.idleSlot_eq_ok (Geometry.ofMailbox_valid hg).1).mp hidle
  obtain ⟨_, _, hhead⟩ := Region.load_eq_ok.mp hhead
  obtain ⟨_, _, htail⟩ := Region.load_eq_ok.mp htail
  have hword := (Geometry.ofMailbox_valid hg).1.toNat_ringOffset hi
  have hseat : g.seat i.toNat 0 = i.toNat := Nat.mod_eq_of_lt hi
  have hhead' : memory.shown.head.toNat = i.toNat * g.slotSize.toNat := by
    rw [← hword, ← hhead]
    rfl
  have htail' : memory.shown.tail.toNat = i.toNat * g.slotSize.toNat := by
    rw [← hword, ← htail]
    rfl
  -- nothing was published since, so nothing is said about any slot
  refine ⟨i.toNat, hi, hhead', hsound, rfl, ⟨?_, ?_, ?_, ?_, ?_⟩, hseat.symm, rfl⟩
  · show Geometry.ofMailbox memory.shown layout memory.length = .ok g
    rw [hshown]
    exact hg
  · show _ = g.seat i.toNat 0 * _
    rw [hseat]
    exact hhead'
  · show _ = g.seat i.toNat 0 * _
    rw [hseat]
    exact htail'
  · intro j r _ hget
    exact absurd hget (by simp)
  · intro j _ hj
    exact absurd hj (Nat.not_lt_zero j)

end InStep

end CommandRing
