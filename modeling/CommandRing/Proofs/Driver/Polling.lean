import CommandRing.Proofs.Driver.Drain
import CommandRing.Proofs.Driver.Session
import CommandRing.Proofs.Exchange.Memory

/-!
# What a poll finds on any memory

A poll is decided by very little: the word at the kernel's head, and on a full ring one flag in the slot at the
driver's head. `PollFault` lists what can be wrong with these, and `announced` is the count if nothing is.

A drain then goes from slot to slot. Each slot either holds a response to a command that still waits
(`SlotAnswer`), or there is a first thing that is wrong with it (`SlotFault`), and these two leave no third case.
What the earlier slots held matters for the later ones in one way only, by the commands that do not wait any
more: `after` says what a driver is once it took some responses, so the slot behind them is judged by what is in
flight then.
-/

namespace CommandRing

/-! ## Reading out of reach -/

theorem Region.read_outside {r : Region} {offset count : Nat} (h : r.length < offset + count) :
    r.read offset count = .error (.corrupt (.outsideRegion count offset r.length)) := by
  unfold read checkRange
  rw [if_neg (by omega)]

theorem Region.load_outside {r : Region} {offset : Nat} (h : r.length < offset + 4) :
    r.load offset = .error (.corrupt (.outsideRegion 4 offset r.length)) := by
  unfold load checkCursor checkRange
  rw [if_neg (by omega)]

/-! ## Slots -/

namespace Geometry

/-- Slot `i` can be read, and holds the response `r` to one of the commands that wait. -/
structure SlotAnswer (g : Geometry) (layout : Layout) (memory : Region) (waiting : List CommandId)
    (i : Nat) (r : Response) : Prop where
  readable : g.slotStart i + g.slotSize.toNat ≤ memory.length
  answers : Answers layout (g.slotBytes memory i) r
  waiting : r.id ∈ waiting

/-- The first thing that is wrong with slot `i`, as it is reported. -/
inductive SlotFault (g : Geometry) (layout : Layout) (memory : Region) (waiting : List CommandId)
    (i : Nat) : Corruption → Prop where
  | unreadable : memory.length < g.slotStart i + g.slotSize.toNat →
      SlotFault g layout memory waiting i
        (.outsideRegion g.slotSize.toNat (g.slotStart i) memory.length)
  /-- It lacks the flag of a response. -/
  | unanswered : g.slotStart i + g.slotSize.toNat ≤ memory.length →
      Waits (g.slotBytes memory i) → SlotFault g layout memory waiting i (.unanswered i)
  | padded : g.slotStart i + g.slotSize.toNat ≤ memory.length →
      (Header.ofBytes (g.slotBytes memory i)).isAnswered = true →
      (Header.ofBytes (g.slotBytes memory i)).opcode = .pad →
      SlotFault g layout memory waiting i (.padded i)
  | unknown {code : UInt8} : g.slotStart i + g.slotSize.toNat ≤ memory.length →
      (Header.ofBytes (g.slotBytes memory i)).isAnswered = true →
      (Header.ofBytes (g.slotBytes memory i)).opcode = .other code →
      SlotFault g layout memory waiting i (.unknownOpcode i code.toNat)
  /-- It holds a response to a command that does not wait, or not any more. -/
  | strange {r : Response} : g.slotStart i + g.slotSize.toNat ≤ memory.length →
      Answers layout (g.slotBytes memory i) r → r.id ∉ waiting →
      SlotFault g layout memory waiting i (.strangeCommand i r.id)

variable {g : Geometry} {layout : Layout} {memory : Region}

theorem length_slotBytes {i : Nat} (h : g.slotStart i + g.slotSize.toNat ≤ memory.length) :
    (g.slotBytes memory i).length = g.slotSize.toNat :=
  Region.length_extract (Nat.le_trans h memory.length_le_size)

/-- **A slot holds what a driver waits for, or something is wrong with it.** -/
theorem Valid.slot_cases (h : g.Valid layout) (memory : Region) (waiting : List CommandId) (i : Nat) :
    (∃ r, g.SlotAnswer layout memory waiting i r)
      ∨ ∃ reason, g.SlotFault layout memory waiting i reason := by
  rcases Nat.lt_or_ge memory.length (g.slotStart i + g.slotSize.toNat) with hout | hin
  · exact Or.inr ⟨_, .unreadable hout⟩
  cases hflag : (Header.ofBytes (g.slotBytes memory i)).isAnswered with
  | false => exact Or.inr ⟨_, .unanswered hin hflag⟩
  | true =>
      cases hcode : (Header.ofBytes (g.slotBytes memory i)).opcode with
      | pad => exact Or.inr ⟨_, .padded hin hflag hcode⟩
      | other code => exact Or.inr ⟨_, .unknown hin hflag hcode⟩
      | command =>
          -- a slot is large enough for a response, so there is one
          have hroom := layout.le_slotSize.2
          have hlen := length_slotBytes hin
          have hsize := h.slotSize_eq
          have hdecode : ∃ r, Response.decode layout (g.slotBytes memory i) = .ok r := by
            unfold Response.decode
            rw [if_neg (by omega)]
            exact ⟨_, rfl⟩
          obtain ⟨r, hr⟩ := hdecode
          by_cases hid : r.id ∈ waiting
          · exact Or.inl ⟨r, hin, ⟨hflag, hcode, hr⟩, hid⟩
          · exact Or.inr ⟨_, .strange hin ⟨hflag, hcode, hr⟩ hid⟩

end Geometry

namespace Driver

variable {d : Driver} {memory : Region} {reason : Corruption}

theorem Sound.read_head (h : d.Sound)
    (hin : d.geometry.slotStart d.cursor.head.index.toNat + d.geometry.slotSize.toNat
      ≤ memory.length) :
    memory.read (d.geometry.slotOffset d.cursor.head.index) d.geometry.slotSize.toNat
      = .ok (d.geometry.slotBytes memory d.cursor.head.index.toNat) := by
  rw [h.slotOffset_head]
  exact Region.read_eq_ok.mpr ⟨hin, rfl⟩

theorem Sound.decode_head (h : d.Sound)
    (hin : d.geometry.slotStart d.cursor.head.index.toNat + d.geometry.slotSize.toNat
      ≤ memory.length) :
    Header.decode (d.geometry.slotBytes memory d.cursor.head.index.toNat)
      = .ok (Header.ofBytes (d.geometry.slotBytes memory d.cursor.head.index.toNat)) := by
  have hlen := Geometry.length_slotBytes hin
  have hsize := d.layout.headerSize_le_slotSize
  have heq := h.geometry.slotSize_eq
  unfold Header.decode
  rw [if_neg (by omega)]

theorem checkAnswer_answers {raw : Bytes} {r : Response} (ha : Answers d.layout raw r)
    (index : UInt32) : checkAnswer index (Header.ofBytes raw) = .ok () := by
  unfold checkAnswer
  rw [if_pos ha.flagged, ha.command]

/-- **The response in the slot at the head is taken.** -/
theorem Sound.consume_answer (h : d.Sound) {r : Response}
    (ha : d.geometry.SlotAnswer d.layout memory d.inFlight d.cursor.head.index.toNat r) :
    d.consume memory = .ok (r, d.consumed r.id) :=
  h.consume_eq_ok.mpr ⟨⟨_, _, h.read_head ha.readable, h.decode_head ha.readable,
    checkAnswer_answers ha.answers _, ha.answers.decoded⟩, ha.waiting, rfl⟩

theorem Sound.consume_refused (h : d.Sound)
    (hin : d.geometry.slotStart d.cursor.head.index.toNat + d.geometry.slotSize.toNat
      ≤ memory.length) {e : Error}
    (hcheck : checkAnswer d.cursor.head.index
      (Header.ofBytes (d.geometry.slotBytes memory d.cursor.head.index.toNat)) = .error e) :
    d.consume memory = .error e := by
  unfold consume
  dsimp only [bind, Except.bind]
  rw [h.read_head hin]
  dsimp only
  rw [h.decode_head hin]
  dsimp only
  rw [hcheck]

/-- **What is wrong with the slot at the head is reported.** -/
theorem Sound.consume_fault (h : d.Sound)
    (hf : d.geometry.SlotFault d.layout memory d.inFlight d.cursor.head.index.toNat reason) :
    d.consume memory = .error (.corrupt reason) := by
  cases hf with
  | unreadable hout =>
      unfold consume
      dsimp only [bind, Except.bind]
      rw [h.slotOffset_head, Region.read_outside hout]
  | unanswered hin hflag =>
      refine h.consume_refused hin ?_
      unfold checkAnswer
      rw [if_neg (by rw [hflag]; simp)]
  | padded hin hflag hcode =>
      refine h.consume_refused hin ?_
      unfold checkAnswer
      rw [if_pos hflag, hcode]
  | unknown hin hflag hcode =>
      refine h.consume_refused hin ?_
      unfold checkAnswer
      rw [if_pos hflag, hcode]
  | strange hin hanswers hid =>
      unfold consume
      dsimp only [bind, Except.bind]
      rw [h.read_head hin]
      dsimp only
      rw [h.decode_head hin]
      dsimp only
      rw [checkAnswer_answers hanswers]
      dsimp only
      rw [hanswers.decoded]
      dsimp only
      rw [if_neg hid]
      rfl

/-! ## What the mailbox shows -/

/-- The kernel's head can be read, and starts a slot of the ring. -/
structure HeadShown (d : Driver) (memory : Region) : Prop where
  readable : Mailbox.headOffset + 4 ≤ memory.length
  inside : memory.shown.head.toNat < d.geometry.size.toNat
  boundary : memory.shown.head.toNat % d.geometry.slotSize.toNat = 0

/-- Slots that lie ahead from the driver's head to the one that the kernel's head names. -/
def gap (d : Driver) (memory : Region) : Nat :=
  (memory.shown.head.toNat / d.geometry.slotSize.toNat + d.geometry.slotCount.toNat
    - d.cursor.head.index.toNat) % d.geometry.slotCount.toNat

/-- The slot at the driver's head has the flag of a response. -/
def flagged (d : Driver) (memory : Region) : Bool :=
  (Header.ofBytes (memory.extract (d.geometry.slotStart d.cursor.head.index.toNat)
    Header.size)).isAnswered

/-- How many slots a poll announces. On a full ring with the kernel's head on the driver's, the flag says
whether it is all of them or none. -/
def announced (d : Driver) (memory : Region) : Nat :=
  if d.gap memory = 0 ∧ d.cursor.isFull = true ∧ d.flagged memory = true then
    d.geometry.slotCount.toNat
  else
    d.gap memory

/-- What makes a poll fail, as it is reported. -/
inductive PollFault (d : Driver) (memory : Region) : Corruption → Prop where
  | unreadable : memory.length < Mailbox.headOffset + 4 →
      PollFault d memory (.outsideRegion 4 Mailbox.headOffset memory.length)
  /-- The kernel's head is no slot boundary of the ring. -/
  | stray : Mailbox.headOffset + 4 ≤ memory.length →
      d.geometry.size.toNat ≤ memory.shown.head.toNat
        ∨ memory.shown.head.toNat % d.geometry.slotSize.toNat ≠ 0 →
      PollFault d memory (.strayCursor memory.shown.head.toNat d.geometry.size.toNat)
  /-- It lies beyond the occupied slots. -/
  | beyond : d.HeadShown memory → d.cursor.occupied.toNat < d.gap memory →
      PollFault d memory (.headPastTail memory.shown.head.toNat
        (d.geometry.ringOffset d.cursor.tail.index).toNat)
  /-- The ring is full and the slot that would say whether all of it was answered cannot be read. -/
  | hidden : d.HeadShown memory → d.gap memory = 0 → d.cursor.isFull = true →
      memory.length < d.geometry.slotStart d.cursor.head.index.toNat + Header.size →
      PollFault d memory (.outsideRegion Header.size
        (d.geometry.slotStart d.cursor.head.index.toNat) memory.length)

/-- A head without a fault is shown. -/
theorem headShown_of_not_fault (h : ∀ reason, ¬ d.PollFault memory reason) : d.HeadShown memory := by
  by_cases hread : Mailbox.headOffset + 4 ≤ memory.length
  · by_cases hplace : d.geometry.size.toNat ≤ memory.shown.head.toNat
        ∨ memory.shown.head.toNat % d.geometry.slotSize.toNat ≠ 0
    · exact absurd (.stray hread hplace) (h _)
    · rw [not_or, Nat.not_le, Classical.not_not] at hplace
      exact ⟨hread, hplace.1, hplace.2⟩
  · exact absurd (.unreadable (by omega)) (h _)

theorem HeadShown.load (h : d.HeadShown memory) :
    memory.load Mailbox.headOffset = .ok memory.shown.head :=
  Region.load_eq_ok.mpr ⟨h.readable, by decide, rfl⟩

/-- The slot that the kernel's head names. -/
theorem HeadShown.indexOf (h : d.HeadShown memory) :
    d.geometry.indexOf memory.shown.head = .ok (memory.shown.head / d.geometry.slotSize) := by
  have hboundary := h.boundary
  unfold Geometry.indexOf
  rw [if_neg]
  rw [not_or, Classical.not_not, UInt32.not_le, UInt32.lt_iff_toNat_lt]
  refine ⟨h.inside, UInt32.toNat_inj.mp ?_⟩
  rw [UInt32.toNat_mod, hboundary]
  rfl

theorem indexOf_stray (h : d.geometry.size.toNat ≤ memory.shown.head.toNat
      ∨ memory.shown.head.toNat % d.geometry.slotSize.toNat ≠ 0) :
    d.geometry.indexOf memory.shown.head
      = .error (.corrupt (.strayCursor memory.shown.head.toNat d.geometry.size.toNat)) := by
  unfold Geometry.indexOf
  rw [if_pos]
  rcases h with h | h
  · exact Or.inl (UInt32.le_iff_toNat_le.mpr h)
  · refine Or.inr ?_
    intro hzero
    have hmod := congrArg UInt32.toNat hzero
    rw [UInt32.toNat_mod] at hmod
    exact h hmod

theorem gap_lt (d : Driver) (memory : Region) : d.gap memory < d.geometry.slotCount.toNat :=
  Nat.mod_lt _ d.geometry.slotCount.toNat_pos

/-- The gap leads from the one head to the other. -/
theorem Sound.seat_gap (h : d.Sound) (hs : d.HeadShown memory) :
    d.geometry.seat d.cursor.head.index.toNat (d.gap memory)
      = memory.shown.head.toNat / d.geometry.slotSize.toNat := by
  have hon := h.ahead.onRing
  have hsize := h.geometry.size_eq
  have hslot := h.geometry.slotSize_eq
  have hinside := hs.inside
  have hslotPos := h.geometry.slotSize_pos
  have hlt : memory.shown.head.toNat / d.geometry.slotSize.toNat < d.geometry.slotCount.toNat := by
    rw [Nat.div_lt_iff_lt_mul hslotPos, hslot, hsize]
    exact hinside
  have hroom := Nat.le_trans (Nat.le_of_lt hon)
    (Nat.le_add_left _ (memory.shown.head.toNat / d.geometry.slotSize.toNat))
  unfold Geometry.seat gap
  rw [Nat.add_mod_mod, Nat.add_sub_cancel' hroom, Nat.add_mod_right, Nat.mod_eq_of_lt hlt]

/-- The gap is the only way there that is shorter than a lap. -/
theorem Sound.gap_eq (h : d.Sound) (hs : d.HeadShown memory) {k : Nat}
    (hk : d.geometry.seat d.cursor.head.index.toNat k
      = memory.shown.head.toNat / d.geometry.slotSize.toNat) :
    d.gap memory = k % d.geometry.slotCount.toNat := by
  have hmod := d.geometry.mod_eq_of_seat_eq ((h.seat_gap hs).trans hk.symm)
  rwa [Nat.mod_eq_of_lt (d.gap_lt memory)] at hmod

/-- The distance that a poll computes is the gap. -/
theorem Sound.toNat_distance (h : d.Sound) (hs : d.HeadShown memory) :
    (Position.distance d.cursor.head.index (memory.shown.head / d.geometry.slotSize)
      d.geometry.slotCount).toNat = d.gap memory := by
  have hlt := d.gap_lt memory
  have hseat := h.seat_gap hs
  unfold Geometry.seat at hseat
  rw [Position.distance_eq h.ahead.onRing (Nat.le_of_lt hlt), Nat.mod_eq_of_lt hlt]
  rw [UInt32.toNat_div, hseat]

theorem Sound.slotHeader_head (h : d.Sound)
    (hin : d.geometry.slotStart d.cursor.head.index.toNat + Header.size ≤ memory.length) :
    d.slotHeader memory d.cursor.head.index
      = .ok (Header.ofBytes (memory.extract (d.geometry.slotStart d.cursor.head.index.toNat)
          Header.size)) := by
  have hlen := Region.length_extract (Nat.le_trans hin memory.length_le_size)
  unfold slotHeader
  dsimp only [bind, Except.bind]
  rw [h.slotOffset_head, Region.read_eq_ok.mpr ⟨hin, rfl⟩]
  dsimp only
  unfold Header.decode
  rw [if_neg (by omega)]

/-- A head that is shown is counted up to, and checked against the occupied slots. -/
theorem HeadShown.answered_eq (hs : d.HeadShown memory) {count : UInt32}
    (hready : d.ready memory (memory.shown.head / d.geometry.slotSize) = .ok count) :
    d.answered memory =
      if d.cursor.occupied < count then
        .error (.corrupt (.headPastTail memory.shown.head.toNat
          (d.geometry.ringOffset d.cursor.tail.index).toNat))
      else
        .ok count := by
  unfold answered
  dsimp only [bind, Except.bind]
  rw [hs.load]
  dsimp only
  rw [hs.indexOf]
  dsimp only
  rw [hready]
  rfl

/-- **What is wrong with the mailbox is reported.** -/
theorem Sound.answered_fault (h : d.Sound) (hf : d.PollFault memory reason) :
    d.answered memory = .error (.corrupt reason) := by
  cases hf with
  | unreadable hout =>
      unfold answered
      dsimp only [bind, Except.bind]
      rw [Region.load_outside hout]
  | stray hin hplace =>
      have hload : memory.load Mailbox.headOffset = .ok memory.shown.head :=
        Region.load_eq_ok.mpr ⟨hin, rfl, rfl⟩
      unfold answered
      dsimp only [bind, Except.bind]
      rw [hload]
      dsimp only
      rw [indexOf_stray hplace]
  | beyond hs hbeyond =>
      have hdistance := h.toNat_distance hs
      have hsome : Position.distance d.cursor.head.index (memory.shown.head / d.geometry.slotSize)
          d.geometry.slotCount ≠ 0 := by
        intro hzero
        rw [hzero] at hdistance
        have hnone : d.gap memory = 0 := hdistance.symm
        omega
      have hready : d.ready memory (memory.shown.head / d.geometry.slotSize)
          = .ok (Position.distance d.cursor.head.index (memory.shown.head / d.geometry.slotSize)
            d.geometry.slotCount) := by
        unfold ready
        rw [if_neg fun hc => hsome hc.1]
        rfl
      rw [hs.answered_eq hready, if_pos]
      rw [UInt32.lt_iff_toNat_lt, hdistance]
      exact hbeyond
  | hidden hs hgap hfull hout =>
      have hdistance := h.toNat_distance hs
      have hzero : Position.distance d.cursor.head.index (memory.shown.head / d.geometry.slotSize)
          d.geometry.slotCount = 0 := by
        refine UInt32.toNat_inj.mp ?_
        rw [hdistance, hgap]
        rfl
      unfold answered
      dsimp only [bind, Except.bind]
      rw [hs.load]
      dsimp only
      rw [hs.indexOf]
      dsimp only
      unfold ready slotHeader
      dsimp only [bind, Except.bind]
      rw [if_pos ⟨hzero, hfull⟩, h.slotOffset_head, Region.read_outside hout]

/-- Without a fault, what is counted lies within the occupied slots. -/
theorem Sound.announced_le (h : d.Sound) (hok : ∀ reason, ¬ d.PollFault memory reason) :
    d.announced memory ≤ d.inFlight.length := by
  have hoccupied := h.toNat_occupied
  unfold announced
  split
  · rename_i hlap
    exact Nat.le_of_eq (h.isFull_iff.mp hlap.2.1).symm
  · by_contra hbeyond
    exact hok _ (.beyond (headShown_of_not_fault hok) (by omega))

theorem Sound.ready_announced (h : d.Sound) (hok : ∀ reason, ¬ d.PollFault memory reason) :
    ∃ count, d.ready memory (memory.shown.head / d.geometry.slotSize) = .ok count
      ∧ count.toNat = d.announced memory := by
  have hs := headShown_of_not_fault hok
  have hdistance := h.toNat_distance hs
  have hzero : Position.distance d.cursor.head.index (memory.shown.head / d.geometry.slotSize)
      d.geometry.slotCount = 0 ↔ d.gap memory = 0 := by
    rw [← hdistance]
    exact UInt32.toNat_inj.symm
  unfold ready
  dsimp only [bind, Except.bind, pure, Except.pure]
  by_cases hfull : d.gap memory = 0 ∧ d.cursor.isFull = true
  · have hreadable : d.geometry.slotStart d.cursor.head.index.toNat + Header.size
        ≤ memory.length := by
      by_contra hout
      exact hok _ (.hidden hs hfull.1 hfull.2 (by omega))
    rw [if_pos ⟨hzero.mpr hfull.1, hfull.2⟩, h.slotHeader_head hreadable]
    dsimp only
    by_cases hflag : d.flagged memory = true
    · have hlap : d.announced memory = d.geometry.slotCount.toNat :=
        if_pos ⟨hfull.1, hfull.2, hflag⟩
      unfold flagged at hflag
      rw [if_pos hflag, hlap]
      exact ⟨_, rfl, rfl⟩
    · have hgap : d.announced memory = d.gap memory := if_neg fun hc => hflag hc.2.2
      unfold flagged at hflag
      rw [if_neg hflag, hgap]
      exact ⟨_, rfl, hdistance⟩
  · have hgap : d.announced memory = d.gap memory := if_neg fun hc => hfull ⟨hc.1, hc.2.1⟩
    rw [if_neg fun hc => hfull ⟨hzero.mp hc.1, hc.2⟩, hgap]
    exact ⟨_, rfl, hdistance⟩

/-- **Otherwise the answered slots are counted.** -/
theorem Sound.answered_announced (h : d.Sound) (hok : ∀ reason, ¬ d.PollFault memory reason) :
    ∃ count, d.answered memory = .ok count ∧ count.toNat = d.announced memory := by
  have hs := headShown_of_not_fault hok
  have hwithin := h.announced_le hok
  have hoccupied := h.toNat_occupied
  obtain ⟨count, hready, hcount⟩ := h.ready_announced hok
  rw [hs.answered_eq hready, if_neg (by rw [UInt32.lt_iff_toNat_lt]; omega)]
  exact ⟨count, rfl, hcount⟩

theorem poisonedBy_trusting (hp : d.poison = none) (reason : Corruption) :
    d.poisonedBy (.corrupt reason) = { d with poison := some reason } := by
  unfold poisonedBy
  dsimp only
  rw [hp, Option.none_or]

theorem Sound.poll_announced (h : d.Sound) (hp : d.poison = none)
    (hok : ∀ reason, ¬ d.PollFault memory reason) :
    d.poll memory = (.ok ⟨d.announced memory, false⟩, d) := by
  obtain ⟨count, hanswered, hcount⟩ := h.answered_announced hok
  unfold poll
  rw [checkPoison_eq_ok.mpr hp]
  dsimp only
  rw [hanswered]
  dsimp only
  rw [hcount]

theorem Sound.poll_fault (h : d.Sound) (hp : d.poison = none) (hf : d.PollFault memory reason) :
    d.poll memory = (.error (.corrupt reason), { d with poison := some reason }) := by
  unfold poll
  rw [checkPoison_eq_ok.mpr hp]
  dsimp only
  rw [h.answered_fault hf]
  dsimp only
  rw [poisonedBy_trusting hp]

/-- **A poll of a driver that trusts the memory fails exactly for a fault**, and records it. -/
theorem Sound.poll_eq_error (h : d.Sound) (hp : d.poison = none) {e : Error} {d' : Driver} :
    d.poll memory = (.error e, d') ↔
      ∃ reason, d.PollFault memory reason ∧ e = .corrupt reason
        ∧ d' = { d with poison := some reason } := by
  constructor
  · intro hr
    by_cases hok : ∀ reason, ¬ d.PollFault memory reason
    · rw [h.poll_announced hp hok] at hr
      exact absurd hr (by simp)
    · rw [not_forall_not] at hok
      obtain ⟨reason, hf⟩ := hok
      rw [h.poll_fault hp hf] at hr
      injection hr with he hd
      injection he with he
      exact ⟨reason, hf, he.symm, hd.symm⟩
  · rintro ⟨reason, hf, rfl, rfl⟩
    exact h.poll_fault hp hf

/-! ## Slot by slot -/

/-- The driver once it took these responses: it has released a slot for each, and waits for none of their
commands any more. -/
def after (d : Driver) (taken : List Response) : Driver :=
  { d with
    cursor :=
      { d.cursor with
        head := d.cursor.head.advanceBy (UInt32.ofNat taken.length) d.geometry.slotCount }
    inFlight := d.inFlight.filter fun id => id ∉ taken.map Response.id }

theorem Sound.after_nil (h : d.Sound) : d.after [] = d := by
  have hhead := (Position.Ahead.zero h.ahead.onRing).eq
  unfold after
  simp only [List.length_nil, List.map_nil, List.not_mem_nil, not_false_eq_true, decide_true,
    List.filter_true]
  rw [← hhead]

/-- A step at the start of a walk. -/
theorem Sound.after_consumed (h : d.Sound) {r : Response} {taken : List Response}
    (hle : taken.length < d.geometry.slotCount.toNat) :
    (d.consumed r.id).after taken = d.after (r :: taken) := by
  have hhead : (d.cursor.head.advance d.geometry.slotCount).advanceBy
      (UInt32.ofNat taken.length) d.geometry.slotCount
      = d.cursor.head.advanceBy (UInt32.ofNat (taken.length + 1)) d.geometry.slotCount :=
    (Position.Ahead.mk h.ahead.onRing hle rfl).advance_head.eq.symm
  have hwaiting : (d.inFlight.erase r.id).filter (fun id => id ∉ taken.map Response.id)
      = d.inFlight.filter fun id => id ∉ (r :: taken).map Response.id := by
    rw [h.nodup.erase_eq_filter, List.filter_filter]
    refine List.filter_congr ?_
    intro id _
    by_cases hid : id = r.id <;> simp [hid]
  show ({ d with
    cursor :=
      { d.cursor with
        head := (d.cursor.head.advance d.geometry.slotCount).advanceBy
          (UInt32.ofNat taken.length) d.geometry.slotCount }
    inFlight := (d.inFlight.erase r.id).filter fun id => id ∉ taken.map Response.id } : Driver) = _
  rw [hhead, hwaiting]
  rfl

/-- What a drain of `count` announced slots takes from a driver: the response of each slot in turn, and the
fault of the first slot that has one. -/
inductive Drained (d : Driver) (memory : Region) (count : Nat) (taken : List Response) :
    List (Except Error Response) → Driver → Prop where
  | whole : taken.length = count → Drained d memory count taken (taken.map .ok) (d.after taken)
  | broken {reason : Corruption} : taken.length < count →
      d.geometry.SlotFault d.layout memory (d.after taken).inFlight
        (d.geometry.seat d.cursor.head.index.toNat taken.length) reason →
      Drained d memory count taken (taken.map .ok ++ [.error (.corrupt reason)])
        ((d.after taken).poisonedBy (.corrupt reason))

/-- The responses of the slots from the head on, each to a command that waits when its turn comes. -/
def Answering (d : Driver) (memory : Region) (taken : List Response) : Prop :=
  ∀ k r, taken[k]? = some r →
    d.geometry.SlotAnswer d.layout memory (d.after (taken.take k)).inFlight
      (d.geometry.seat d.cursor.head.index.toNat k) r

theorem Sound.head_consumed (h : d.Sound) (id : CommandId) :
    (d.consumed id).cursor.head.index.toNat = d.geometry.seat d.cursor.head.index.toNat 1 :=
  h.ahead.onRing.toNat_advance

theorem Sound.seat_head (h : d.Sound) :
    d.geometry.seat d.cursor.head.index.toNat 0 = d.cursor.head.index.toNat :=
  Nat.mod_eq_of_lt h.ahead.onRing

theorem Drained.length_le {count : Nat} {taken : List Response} {items : List (Except Error Response)}
    {d' : Driver} (h : d.Drained memory count taken items d') : taken.length ≤ count := by
  cases h with
  | whole hlen => exact Nat.le_of_eq hlen
  | broken hlen _ => exact Nat.le_of_lt hlen

/-- The slot at the head answers, and then those behind it. -/
theorem Sound.answering_cons (h : d.Sound) {r : Response} {taken : List Response}
    (ha : d.geometry.SlotAnswer d.layout memory d.inFlight d.cursor.head.index.toNat r)
    (hrest : (d.consumed r.id).Answering memory taken)
    (hlap : taken.length < d.geometry.slotCount.toNat) : d.Answering memory (r :: taken) := by
  intro k r' hr
  cases k with
  | zero =>
      have hself : r = r' := by simpa using hr
      subst hself
      rw [List.take_zero, h.after_nil, h.seat_head]
      exact ha
  | succ k =>
      have hlen : (taken.take k).length < d.geometry.slotCount.toNat := by
        rw [List.length_take]
        omega
      have hlater := hrest k r' (by simpa using hr)
      rw [h.after_consumed hlen, h.head_consumed] at hlater
      have hseat := d.geometry.seat_add d.cursor.head.index.toNat 1 k
      rw [List.take_succ_cons, Nat.add_comm k 1, ← hseat]
      exact hlater

theorem Sound.drained_cons (h : d.Sound) {r : Response} {count : Nat} {taken : List Response}
    {items : List (Except Error Response)} {d' : Driver}
    (hrest : (d.consumed r.id).Drained memory count taken items d')
    (hlap : count < d.geometry.slotCount.toNat) :
    d.Drained memory (count + 1) (r :: taken) (.ok r :: items) d' := by
  have hle := hrest.length_le
  have hafter : (d.consumed r.id).after taken = d.after (r :: taken) := h.after_consumed (by omega)
  cases hrest with
  | whole hlen =>
      rw [hafter]
      exact .whole (congrArg (· + 1) hlen)
  | broken hlen hf =>
      have hseat := d.geometry.seat_add d.cursor.head.index.toNat 1 taken.length
      rw [hafter, h.head_consumed] at hf
      rw [hafter]
      refine .broken (Nat.succ_lt_succ hlen) ?_
      rw [List.length_cons, Nat.add_comm taken.length 1, ← hseat]
      exact hf

/-- **A drain goes from slot to slot**, by induction on how many are announced. A reader that asks for more gets
no more. -/
theorem Sound.take_slots (h : d.Sound) (memory : Region) {count : Nat}
    (hcount : count ≤ d.inFlight.length) :
    ∃ taken items d', d.Answering memory taken ∧ d.Drained memory count taken items d'
      ∧ ∀ limit, count ≤ limit → ∃ drain,
        take memory limit d ⟨count, false⟩ = (items, d', drain) := by
  induction count generalizing d with
  | zero =>
      refine ⟨[], _, _, fun k r hr => absurd hr (by simp), .whole rfl, ?_⟩
      intro limit _
      rw [h.after_nil]
      exact ⟨_, take_ended (Or.inl rfl) memory limit d⟩
  | succ count ih =>
      have hlap := h.length_le
      rcases h.geometry.slot_cases memory d.inFlight d.cursor.head.index.toNat with
        ⟨r, ha⟩ | ⟨reason, hf⟩
      -- the slot at the head is released, and the drain goes on behind it
      · have hconsume := h.consume_answer ha
        have hshort : count ≤ (d.consumed r.id).inFlight.length := by
          show count ≤ (d.inFlight.erase r.id).length
          rw [List.length_erase_of_mem ha.waiting]
          omega
        obtain ⟨taken, items, d', hanswering, hdrained, htake⟩ := ih (h.consumed ha.waiting) hshort
        have hle := hdrained.length_le
        refine ⟨r :: taken, .ok r :: items, d', h.answering_cons ha hanswering (by omega),
          h.drained_cons hdrained (by omega), ?_⟩
        intro limit hlimit
        obtain ⟨limit, rfl⟩ := Nat.exists_eq_add_of_le' (Nat.le_trans (Nat.le_add_left 1 count) hlimit)
        obtain ⟨drain, hr⟩ := htake limit (by omega)
        rw [take_next (next_response hconsume count), hr]
        exact ⟨drain, rfl⟩
      -- the slot at the head is at fault, and the drain ends with it
      · have hconsume := h.consume_fault hf
        have hfirst : d.geometry.SlotFault d.layout memory (d.after []).inFlight
            (d.geometry.seat d.cursor.head.index.toNat 0) reason := by
          rw [h.after_nil, h.seat_head]
          exact hf
        refine ⟨[], _, _, fun k r hr => absurd hr (by simp), .broken (Nat.succ_pos _) hfirst, ?_⟩
        intro limit hlimit
        obtain ⟨limit, rfl⟩ := Nat.exists_eq_add_of_le' (Nat.le_trans (Nat.le_add_left 1 count) hlimit)
        rw [h.after_nil, take_next (next_error hconsume count), take_ended (Or.inr rfl)]
        exact ⟨_, rfl⟩

end Driver

/-! ## The whole poll -/

namespace Session

/--
**A poll on any memory.** A driver that trusts the memory polls as the mailbox says. The poll fails exactly for a
fault of the mailbox, and then records it and changes nothing else. Otherwise it announces `announced` slots, and
a reader that asks for as many or more gets the responses in them, from the head on, up to the first slot at
fault, for which it gets one corruption. For each response a slot was released and a command waits no more;
the slot at fault changes nothing but the poison. Neither call writes to the memory.
-/
theorem polled_slot_by_slot {replies : List Reply} {s : Session} (h : Run replies s)
    (hp : s.driver.poison = none) (memory : Region) :
    (∀ e d', s.driver.poll memory = (.error e, d') ↔
        ∃ reason, s.driver.PollFault memory reason ∧ e = .corrupt reason
          ∧ d' = { s.driver with poison := some reason })
      ∧ ((∀ reason, ¬ s.driver.PollFault memory reason) →
        s.driver.poll memory = (.ok ⟨s.driver.announced memory, false⟩, s.driver)
          ∧ ∃ taken items d', s.driver.Answering memory taken
            ∧ s.driver.Drained memory (s.driver.announced memory) taken items d'
            ∧ ∀ limit, s.driver.announced memory ≤ limit → ∃ drain,
              Driver.take memory limit s.driver ⟨s.driver.announced memory, false⟩
                = (items, d', drain)) := by
  have hs := (invariant_run h).sound
  refine ⟨fun e d' => hs.poll_eq_error hp, fun hok => ?_⟩
  exact ⟨hs.poll_announced hp hok, hs.take_slots memory (hs.announced_le hok)⟩

/-- Two commands on the small ring, which is full then. -/
def crammed : Session :=
  (((idle smallDriver).call smallRing (.submit Command.testUnitReady)).2.1.call smallRing
    (.submit Command.testUnitReady)).2.1

theorem run_crammed : ∃ replies, Run replies crammed :=
  ⟨_, .called smallRing (.submit Command.testUnitReady)
    (.called smallRing (.submit Command.testUnitReady) (.attached attach_smallRing.2))⟩

/-- Both slots of the small ring hold a response to the first command. -/
def echoing : Region :=
  let answer := (Response.answering smallLayout 1 0 []).image smallLayout
  (smallRing.put 72 answer).put 128 answer

set_option maxRecDepth 10000 in
theorem no_fault_echoing (reason : Corruption) : ¬ crammed.driver.PollFault echoing reason := by
  intro hf
  cases hf with
  | unreadable hout => exact absurd hout (by decide)
  | stray _ hplace => exact absurd hplace (by decide)
  | beyond _ hbeyond => exact absurd hbeyond (by decide)
  | hidden _ _ _ hout => exact absurd hout (by decide)

set_option maxRecDepth 10000 in
/-- The poll announces the whole lap, and the second response is no longer waited for. -/
theorem polled_echoing :
    (∃ replies, Run replies crammed) ∧ crammed.driver.poison = none
      ∧ (∀ reason, ¬ crammed.driver.PollFault echoing reason)
      ∧ crammed.driver.poll echoing = (.ok ⟨2, false⟩, crammed.driver)
      ∧ ∃ taken d', crammed.driver.Answering echoing taken
        ∧ crammed.driver.Drained echoing 2 taken
          [.ok (.answering smallLayout 1 0 []), .error (.corrupt (.strangeCommand 1 1))] d' := by
  obtain ⟨replies, hrun⟩ := run_crammed
  have hp : crammed.driver.poison = none := by decide
  obtain ⟨_, hdrained⟩ := polled_slot_by_slot hrun hp echoing
  obtain ⟨hpoll, taken, items, d', hanswering, hdrained, htake⟩ := hdrained no_fault_echoing
  have hannounced : crammed.driver.announced echoing = 2 := by decide
  rw [hannounced] at hpoll hdrained htake
  obtain ⟨drain, htake⟩ := htake 2 (Nat.le_refl 2)
  have hitems : items
      = [.ok (.answering smallLayout 1 0 []), .error (.corrupt (.strangeCommand 1 1))] := by
    rw [← show (Driver.take echoing 2 crammed.driver ⟨2, false⟩).1 = items by rw [htake]]
    decide
  rw [hitems] at hdrained
  exact ⟨⟨replies, hrun⟩, hp, no_fault_echoing, hpoll, taken, d', hanswering, hdrained⟩

end Session

end CommandRing
