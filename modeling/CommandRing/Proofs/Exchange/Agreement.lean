import CommandRing.Exchange
import CommandRing.Proofs.Driver.Drain
import CommandRing.Proofs.Driver.Session
import CommandRing.Proofs.Exchange.Calls
import Mathlib.Data.List.Infix
import Mathlib.Data.List.Perm.Subperm

/-!
# The two sides agree

`Agrees` is the invariant of an exchange: driver, kernel and memory are described by the same history. The
responses that were yielded are the first ones that were written, and every id was answered at most as often
as it was published, so the response that comes next is always for a command in flight.

Between the two steps of an answer the head is one behind the last response, and a driver that goes by the
head has `seen` one less than was written. A ring of one slot is different: its head has nowhere to go, and
a response shows as soon as it is in the slot.

Only a poll of a `Torn` exchange breaks the agreement. Every other call keeps it and both steps of an
answer do, whatever their order.
-/

namespace CommandRing.Exchange

/-- An attached ring has the driver and the kernel of its mailbox, and no history. -/
theorem attach_eq_ok {layout : Layout} {memory : Region} {e : Exchange} (h : attach layout memory = .ok e) :
    ∃ d, Driver.attach layout memory = (.ok d, memory)
      ∧ e = ⟨Session.idle d, memory, Kernel.ofMailbox layout memory.shown, [], [], 0⟩ := by
  unfold attach at h
  split at h
  · rename_i m d memory' hm hd
    have hmemory := Driver.attach_memory layout memory
    rw [hd] at hmemory
    dsimp only at hmemory
    subst hmemory
    obtain ⟨_, rfl⟩ := Region.mailbox_eq_ok.mp hm
    injection h with h
    exact ⟨d, hd, h.symm⟩
  · exact absurd h (by simp)
  · exact absurd h (by simp)

/-- How many responses the driver can learn of. -/
def seen (e : Exchange) : Nat :=
  if e.session.driver.geometry.slotCount.toNat = 1 then e.answers.length else e.passed

/-- Both sides are where their common history leads, from slot `start` on. -/
structure Agrees (start : Nat) (e : Exchange) : Prop where
  accounted : Session.Accounted e.replies e.session.driver
  inStep : InStep e.session.driver start e.memory e.yielded.length e.passed e.answers
    e.published.length
  kernel : e.kernel =
    ⟨e.session.driver.layout, e.session.driver.geometry.offset.toNat,
      e.session.driver.geometry.slotCount.toNat, e.session.driver.geometry.seat start e.passed⟩
  /-- What was yielded is what was answered first. -/
  yielded_first : e.yielded <+: e.answers
  /-- No id was answered more often than it was published. -/
  answers_subperm : (e.answers.map Response.id).Subperm e.published
  passed_le : e.passed ≤ e.answers.length
  le_passed : e.answers.length ≤ e.passed + 1
  /-- A drain promises no more than was seen. -/
  drain : e.session.drain.failed = false ∧ e.yielded.length + e.session.drain.remaining ≤ e.seen

namespace Agrees

variable {start : Nat} {e : Exchange}

theorem seen_le (h : Agrees start e) : e.seen ≤ e.answers.length := by
  unfold seen
  split
  · exact Nat.le_refl _
  · exact h.passed_le

theorem le_seen (h : Agrees start e) : e.yielded.length ≤ e.seen :=
  Nat.le_trans (Nat.le_add_right ..) h.drain.2

theorem yielded_le (h : Agrees start e) : e.yielded.length ≤ e.answers.length :=
  h.yielded_first.length_le

theorem answers_le (h : Agrees start e) : e.answers.length ≤ e.published.length := by
  have := h.answers_subperm.length_le
  rwa [List.length_map] at this

/-- The kernel's head shows what was seen. -/
theorem seat_seen (start : Nat) (e : Exchange) :
    e.session.driver.geometry.seat start e.passed
      = e.session.driver.geometry.seat start e.seen := by
  unfold seen
  split
  · rename_i hone
    unfold Geometry.seat
    rw [hone, Nat.mod_one, Nat.mod_one]
  · rfl

theorem yielded_le_passed (h : Agrees start e)
    (hseveral : e.session.driver.geometry.slotCount.toNat ≠ 1) : e.yielded.length ≤ e.passed := by
  have hle := h.le_seen
  unfold seen at hle
  rwa [if_neg hseveral] at hle

/-! ## Starting -/

theorem attached {layout : Layout} {memory : Region} (h : attach layout memory = .ok e) :
    ∃ start, Agrees start e := by
  obtain ⟨d, hd, rfl⟩ := attach_eq_ok h
  obtain ⟨start, hstart, hhead, hstep⟩ := InStep.attached hd
  obtain ⟨_, g, i, hm, hg, _, rfl⟩ := Driver.attach_eq_ok hd
  obtain ⟨_, rfl⟩ := Region.mailbox_eq_ok.mp hm
  -- the kernel divides where the driver multiplies, and both are exact on an accepted geometry
  obtain ⟨hvalid, hoffset, _⟩ := Geometry.ofMailbox_valid hg
  have hpos := layout.slotSize_pos
  have hslot : g.slotSize.toNat = layout.slotSize := hvalid.slotSize_eq
  have hcount := Geometry.toNat_slotCount hg
  have hseat : g.seat start 0 = memory.shown.head.toNat / layout.slotSize := by
    have hhead' : memory.shown.head.toNat = start * g.slotSize.toNat := hhead
    rw [hhead', hslot, Nat.mul_div_cancel _ hpos]
    exact Nat.mod_eq_of_lt hstart
  refine ⟨start, List.Perm.refl _, hstep, ?_, List.nil_prefix, List.nil_subperm, Nat.le_refl _,
    Nat.zero_le _, rfl, Nat.zero_le _⟩
  show Kernel.ofMailbox layout memory.shown
    = ⟨layout, g.offset.toNat, g.slotCount.toNat, g.seat start 0⟩
  rw [hoffset, hcount, hseat]
  rfl

/-! ## Calls -/

theorem call_eq {c : Call} {reply : Reply} {session : Session} {memory : Region}
    (h : e.session.call e.memory c = (reply, session, memory)) :
    e.call c = { e with session := session, memory := memory, replies := e.replies ++ [reply] } := by
  unfold call
  rw [h]

/-- A call that publishes nothing, yields nothing and leaves the memory alone. -/
theorem silent (h : Agrees start e) {session : Session} {reply : Reply}
    (hs : Session.submittedIds [reply] = []) (hy : Session.yielded [reply] = [])
    (hlayout : session.driver.layout = e.session.driver.layout)
    (hgeometry : session.driver.geometry = e.session.driver.geometry)
    (hflight : session.driver.inFlight = e.session.driver.inFlight)
    (hstep : InStep session.driver start e.memory e.yielded.length e.passed e.answers
      e.published.length)
    (hdrain : session.drain.failed = false ∧ e.yielded.length + session.drain.remaining ≤ e.seen) :
    Agrees start { e with session := session, replies := e.replies ++ [reply] } := by
  have hpublished : Session.submittedIds (e.replies ++ [reply]) = e.published :=
    Session.submittedIds_snoc_of_nil hs _
  have hyielded : Session.yielded (e.replies ++ [reply]) = e.yielded :=
    Session.yielded_snoc_of_nil hy _
  refine ⟨h.accounted.of_silent hs hy hflight, ?_, ?_, ?_, ?_, h.passed_le, h.le_passed, ?_⟩
  · show InStep session.driver start e.memory (Session.yielded _).length e.passed e.answers
      (Session.submittedIds _).length
    rw [hpublished, hyielded]
    exact hstep
  · show e.kernel = ⟨session.driver.layout, session.driver.geometry.offset.toNat, _, _⟩
    rw [hlayout, hgeometry]
    exact h.kernel
  · show Session.yielded _ <+: e.answers
    rw [hyielded]
    exact h.yielded_first
  · show (e.answers.map Response.id).Subperm (Session.submittedIds _)
    rw [hpublished]
    exact h.answers_subperm
  · show session.drain.failed = false ∧ (Session.yielded _).length + session.drain.remaining
      ≤ if session.driver.geometry.slotCount.toNat = 1 then e.answers.length else e.passed
    rw [hyielded, hgeometry]
    exact hdrain

/-- **A submit is refused, or publishes one more command.** -/
theorem submit (h : Agrees start e) (command : Command) :
    (∃ error, e.session.driver.checkCommand command = .error error
        ∧ (e.session.call e.memory (.submit command)).1 = .failed error
        ∧ Agrees start (e.call (.submit command)))
      ∨ (∃ id, e.session.driver.checkCommand command = .ok ()
        ∧ (e.session.call e.memory (.submit command)).1 = .submitted id
        ∧ Agrees start (e.call (.submit command))) := by
  rcases h.inStep.submit_cases h.yielded_le h.answers_le command with
    ⟨error, hcheck, hr⟩ | ⟨id, memory', hcheck, hr, hstep⟩
  · have hc : e.session.call e.memory (.submit command)
        = (.failed error, Session.idle e.session.driver, e.memory) := by
      unfold Session.call
      dsimp only
      rw [hr]
    refine Or.inl ⟨error, hcheck, by rw [hc], ?_⟩
    rw [call_eq hc]
    exact h.silent rfl rfl rfl rfl rfl h.inStep ⟨rfl, h.le_seen⟩
  · have hc : e.session.call e.memory (.submit command)
        = (.submitted id, Session.idle (e.session.driver.submitted id), memory') := by
      unfold Session.call
      dsimp only
      rw [hr]
    refine Or.inr ⟨id, hcheck, by rw [hc], ?_⟩
    rw [call_eq hc]
    have hpublished : Session.submittedIds (e.replies ++ [.submitted id]) = e.published ++ [id] :=
      Session.submittedIds_snoc _ _
    have hyielded : Session.yielded (e.replies ++ [.submitted id]) = e.yielded :=
      Session.yielded_snoc_of_nil rfl _
    refine ⟨h.accounted.submitted id, ?_, h.kernel, ?_, ?_, h.passed_le, h.le_passed, ?_⟩
    · show InStep _ start memory' (Session.yielded _).length e.passed e.answers
        (Session.submittedIds _).length
      rw [hpublished, hyielded, List.length_append]
      exact hstep
    · show Session.yielded _ <+: e.answers
      rw [hyielded]
      exact h.yielded_first
    · show (e.answers.map Response.id).Subperm (Session.submittedIds _)
      rw [hpublished]
      exact h.answers_subperm.trans (List.sublist_append_left _ _).subperm
    · refine ⟨rfl, ?_⟩
      show (Session.yielded _).length + 0 ≤ _
      rw [hyielded]
      exact h.le_seen

/-- **A poll announces what was seen and not yielded**, unless it is torn. -/
theorem poll (h : Agrees start e) (ht : ¬ e.Torn) :
    e.session.driver.poll e.memory = (.ok ⟨e.seen - e.yielded.length, false⟩, e.session.driver)
      ∧ Agrees start (e.call .poll) := by
  have hquiet : e.session.driver.cursor.isFull = true → e.seen = e.yielded.length →
      e.answers.length = e.yielded.length := by
    intro hfull hnone
    have hle := h.yielded_le
    have hwritten := h.le_passed
    -- a flag without a moved head would be a response that was written and not seen
    unfold seen at hnone
    split at hnone
    · exact hnone
    · rename_i hone
      have hpos := e.session.driver.geometry.slotCount.toNat_pos
      refine Classical.byContradiction fun hne => ht ⟨hfull, by omega, hnone, by omega⟩
  have hr := h.inStep.poll_exact h.le_seen h.seen_le h.answers_le (seat_seen start e) hquiet
  have hle := h.le_seen
  refine ⟨hr, ?_⟩
  rw [call_eq (Session.call_poll hr)]
  refine h.silent rfl rfl rfl rfl rfl h.inStep ⟨rfl, ?_⟩
  show e.yielded.length + (e.seen - e.yielded.length) ≤ e.seen
  omega

/-- **The first response that was not yielded is for a command in flight**, because what was yielded
accounts for the other commands. -/
theorem inFlight_next (h : Agrees start e) {r : Response}
    (hget : e.answers[e.yielded.length]? = some r) : r.id ∈ e.session.driver.inFlight := by
  obtain ⟨rest, hrest⟩ := h.yielded_first
  rw [← hrest, List.getElem?_append_right (Nat.le_refl _), Nat.sub_self] at hget
  obtain ⟨tail, rfl⟩ : ∃ tail, rest = r :: tail := by
    cases rest with
    | nil => exact absurd hget (by simp)
    | cons r' tail =>
        injection hget with hget
        exact ⟨tail, by rw [hget]⟩
  -- what was yielded cancels out of what was answered and of what was published
  have hsub := h.answers_subperm
  rw [← hrest, List.map_append] at hsub
  have hflight := (List.subperm_append_left _).mp (hsub.trans h.accounted.subperm)
  exact hflight.subset List.mem_cons_self

/-- **A drain yields the response after the last one that was yielded.** -/
theorem next (h : Agrees start e) :
    (e.session.drain.remaining = 0
        ∧ e.session.driver.next e.memory e.session.drain
          = (none, e.session.driver, e.session.drain)
        ∧ (e.session.call e.memory .next).1 = .ended ∧ Agrees start (e.call .next))
      ∨ (∃ r, 0 < e.session.drain.remaining ∧ e.answers[e.yielded.length]? = some r
        ∧ e.session.driver.next e.memory e.session.drain
          = (some (.ok r), e.session.driver.consumed r.id, ⟨e.session.drain.remaining - 1, false⟩)
        ∧ Agrees start (e.call .next)) := by
  obtain ⟨hfailed, hpromise⟩ := h.drain
  by_cases hrem : e.session.drain.remaining = 0
  · have hnext := Driver.next_ended (Or.inl hrem) e.session.driver e.memory
    have hc : e.session.call e.memory .next = (.ended, e.session, e.memory) := by
      unfold Session.call
      dsimp only
      rw [hnext]
    refine Or.inl ⟨hrem, hnext, by rw [hc], ?_⟩
    rw [call_eq hc]
    exact h.silent rfl rfl rfl rfl rfl h.inStep h.drain
  · have hlt : e.yielded.length < e.answers.length := by
      have := h.seen_le
      omega
    obtain ⟨r, hget⟩ : ∃ r, e.answers[e.yielded.length]? = some r :=
      ⟨_, List.getElem?_eq_getElem hlt⟩
    have hid := h.inFlight_next hget
    obtain ⟨hconsume, hstep⟩ := h.inStep.consume_answered hget hid
    have hnext : e.session.driver.next e.memory e.session.drain
        = (some (.ok r), e.session.driver.consumed r.id,
          ⟨e.session.drain.remaining - 1, false⟩) := by
      unfold Driver.next
      rw [if_neg (by rw [hfailed]; simp [hrem]), hconsume]
    refine Or.inr ⟨r, by omega, hget, hnext, ?_⟩
    rw [call_eq (Session.call_next hnext)]
    have hpublished : Session.submittedIds (e.replies ++ [.yielded r]) = e.published :=
      Session.submittedIds_snoc_of_nil rfl _
    have hyielded : Session.yielded (e.replies ++ [.yielded r]) = e.yielded ++ [r] :=
      Session.yielded_snoc _ _
    refine ⟨h.accounted.yielded hid, ?_, h.kernel, ?_, ?_, h.passed_le, h.le_passed, rfl, ?_⟩
    · show InStep _ start e.memory (Session.yielded _).length e.passed e.answers
        (Session.submittedIds _).length
      rw [hpublished, hyielded, List.length_append]
      exact hstep
    · show Session.yielded _ <+: e.answers
      obtain ⟨hlt', hr⟩ := List.getElem?_eq_some_iff.mp hget
      rw [hyielded, ← hr]
      exact List.concat_get_prefix h.yielded_first hlt'
    · show (e.answers.map Response.id).Subperm (Session.submittedIds _)
      rw [hpublished]
      exact h.answers_subperm
    · show (Session.yielded _).length + (e.session.drain.remaining - 1) ≤ e.seen
      rw [hyielded, List.length_append, List.length_singleton]
      omega

/-- **A reset is refused while something is outstanding, and succeeds otherwise.** -/
theorem reset (h : Agrees start e) :
    (e.yielded.length < e.published.length
        ∧ (e.session.call e.memory .reset).1
          = .failed (.outstanding (e.published.length - e.yielded.length))
        ∧ Agrees start (e.call .reset))
      ∨ (e.published.length = e.yielded.length
        ∧ (e.session.call e.memory .reset).1 = .restarted ∧ Agrees start (e.call .reset)) := by
  have hyielded := h.yielded_le
  have hanswers := h.answers_le
  have hpassed := h.passed_le
  by_cases hmore : e.yielded.length < e.published.length
  · have hr := h.inStep.reset_refused hmore
    have hc : e.session.call e.memory .reset
        = (.failed (.outstanding (e.published.length - e.yielded.length)),
          Session.idle e.session.driver, e.memory) := by
      unfold Session.call
      dsimp only
      rw [hr]
    refine Or.inl ⟨hmore, by rw [hc], ?_⟩
    rw [call_eq hc]
    exact h.silent rfl rfl rfl rfl rfl h.inStep ⟨rfl, h.le_seen⟩
  -- all responses were consumed, so the cursors of the mailbox meet: on a ring of one slot even before the
  -- head is moved
  · have hidle : e.published.length = e.passed
        ∨ e.published.length = e.passed + e.session.driver.geometry.slotCount.toNat := by
      by_cases hone : e.session.driver.geometry.slotCount.toNat = 1
      · have := h.le_passed
        omega
      · have := h.yielded_le_passed hone
        omega
    obtain ⟨i, hr, hstep⟩ := h.inStep.reset_restarts (by omega) hidle
    have hc : e.session.call e.memory .reset
        = (.restarted, Session.idle (e.session.driver.restarted i), e.memory) := by
      unfold Session.call
      dsimp only
      rw [hr]
    refine Or.inr ⟨by omega, by rw [hc], ?_⟩
    rw [call_eq hc]
    exact h.silent rfl rfl rfl rfl rfl hstep ⟨rfl, h.le_seen⟩

/-- **Every call but a poll of a torn exchange keeps the agreement.** -/
theorem call (h : Agrees start e) {c : Call} (hc : c = .poll → ¬ e.Torn) :
    Agrees start (e.call c) := by
  cases c with
  | submit command => rcases h.submit command with ⟨_, _, _, h'⟩ | ⟨_, _, _, h'⟩ <;> exact h'
  | poll => exact (h.poll (hc rfl)).2
  | next => rcases h.next with ⟨_, _, _, h'⟩ | ⟨_, _, _, _, h'⟩ <;> exact h'
  | reset => rcases h.reset with ⟨_, _, h'⟩ | ⟨_, _, h'⟩ <;> exact h'

/-- **A drain that is consumed to any depth yields what comes next, in order.** -/
theorem take (h : Agrees start e) (depth : Nat) :
    (Driver.take e.memory depth e.session.driver e.session.drain).1
      = ((e.answers.drop e.yielded.length).take (min depth e.session.drain.remaining)).map .ok := by
  -- every item is a call of its own, and leaves an exchange in agreement to the rest
  induction depth generalizing e with
  | zero =>
      rw [Nat.zero_min, List.take_zero]
      rfl
  | succ depth ih =>
      rcases h.next with ⟨hrem, _, _, _⟩ | ⟨r, hrem, hget, hnext, h'⟩
      · rw [Driver.take_ended (Or.inl hrem), hrem, Nat.min_zero, List.take_zero]
        rfl
      · rw [Driver.take_next hnext]
        have hyielded : Session.yielded (e.replies ++ [.yielded r]) = e.yielded ++ [r] :=
          Session.yielded_snoc _ _
        have hrest : (Driver.take e.memory depth (e.session.driver.consumed r.id)
            ⟨e.session.drain.remaining - 1, false⟩).1
            = ((e.answers.drop (e.yielded.length + 1)).take
              (min depth (e.session.drain.remaining - 1))).map .ok := by
          rw [call_eq (Session.call_next hnext)] at h'
          have hih := ih h'
          unfold yielded at hih
          dsimp only at hih
          rw [hyielded, List.length_append, List.length_singleton] at hih
          exact hih
        obtain ⟨hlt, hr⟩ := List.getElem?_eq_some_iff.mp hget
        rw [List.drop_eq_getElem_cons hlt, hr,
          show min (depth + 1) e.session.drain.remaining
            = min depth (e.session.drain.remaining - 1) + 1 by omega,
          List.take_succ_cons, List.map_cons, ← hrest]

/-- **So does a poll whose drain is consumed at once.** -/
theorem pollTake (h : Agrees start e) (ht : ¬ e.Torn) (limit : Option Nat) :
    (e.session.driver.pollTake e.memory limit).1
      = .ok (((e.answers.drop e.yielded.length).take
          (min (limit.getD (e.seen - e.yielded.length)) (e.seen - e.yielded.length))).map .ok) := by
  obtain ⟨hr, h'⟩ := h.poll ht
  have hyielded : Session.yielded (e.replies ++ [.announced (e.seen - e.yielded.length)])
      = e.yielded := Session.yielded_snoc_of_nil rfl _
  rw [call_eq (Session.call_poll hr)] at h'
  have htake : (Driver.take e.memory (limit.getD (e.seen - e.yielded.length)) e.session.driver
      ⟨e.seen - e.yielded.length, false⟩).1
      = ((e.answers.drop (Session.yielded (e.replies
        ++ [.announced (e.seen - e.yielded.length)])).length).take
          (min (limit.getD (e.seen - e.yielded.length)) (e.seen - e.yielded.length))).map .ok :=
    h'.take _
  rw [hyielded] at htake
  rw [Driver.pollTake_polled hr, htake]

/-- **A torn poll announces the whole ring for one response**: the item behind it is an error, because the next
slot still holds a request. -/
theorem pollTake_torn (h : Agrees start e) (ht : e.Torn) :
    e.session.driver.poll e.memory
        = (.ok ⟨e.session.driver.geometry.slotCount.toNat, false⟩, e.session.driver)
      ∧ ∃ r d, e.answers[e.yielded.length]? = some r
        ∧ d.poison = some (.unanswered d.cursor.head.index.toNat)
        ∧ ∀ limit : Option Nat, 2 ≤ limit.getD e.session.driver.geometry.slotCount.toNat →
          e.session.driver.pollTake e.memory limit
            = (.ok [.ok r, .error (.corrupt (.unanswered d.cursor.head.index.toNat))], d) := by
  obtain ⟨hfull, hseveral, hconsumed, hwritten⟩ := ht
  have hpoll := h.inStep.poll_whole hfull hconsumed (by omega)
  obtain ⟨r, hget⟩ : ∃ r, e.answers[e.yielded.length]? = some r :=
    ⟨_, List.getElem?_eq_getElem (by omega)⟩
  obtain ⟨hconsume, hstep⟩ := h.inStep.consume_answered hget (h.inFlight_next hget)
  have hlap := h.inStep.isFull_iff.mp hfull
  -- the slot behind the response holds the request of the next command
  have hwaits := hstep.holds.waiting (e.yielded.length + 1) (by omega) (by omega)
  have herror := hstep.consume_waiting hwaits
  refine ⟨hpoll, r, (e.session.driver.consumed r.id).poisonedBy
    (.corrupt (.unanswered (e.session.driver.consumed r.id).cursor.head.index.toNat)), hget, ?_, ?_⟩
  · rw [Driver.poisonedBy_trusting hstep.trusting]
  -- the two items one after the other: the response, and the error
  · intro limit hlimit
    obtain ⟨n, hn⟩ := Nat.exists_eq_add_of_le' hseveral
    obtain ⟨m, hm⟩ := Nat.exists_eq_add_of_le' hlimit
    rw [Driver.pollTake_polled hpoll, hm, hn,
      Driver.take_next (Driver.next_response hconsume (n + 1)),
      Driver.take_next (Driver.next_error herror n), Driver.take_ended (Or.inr rfl)]
    rfl

/-! ## The kernel -/

/-- An answer that is awaited leaves no id answered more often than published. -/
theorem answered_subperm (h : Agrees start e) {r : Response} (hawaits : e.Awaits r.id) :
    ((e.answers ++ [r]).map Response.id).Subperm e.published := by
  rw [List.map_append, List.map_singleton]
  refine List.subperm_ext_iff.mpr ?_
  intro id _
  have hle := h.answers_subperm.count_le id
  unfold Awaits at hawaits
  rw [List.count_append, List.count_singleton]
  split
  · rename_i heq
    rw [beq_iff_eq] at heq
    subst heq
    omega
  · exact hle

theorem answers_lt (h : Agrees start e) {r : Response} (hawaits : e.Awaits r.id) :
    e.answers.length < e.published.length := by
  have := (h.answered_subperm hawaits).length_le
  rwa [List.length_map, List.length_append] at this

/-- **The response goes over the oldest request that is not answered.** -/
theorem write_eq (h : Agrees start e) (hpassed : e.passed = e.answers.length) (id : CommandId)
    (status : UInt8) (sense : Bytes) :
    ∃ slot, e.kernel.fill id { status := status, sense := sense } = .ok slot
      ∧ slot.length = e.session.driver.geometry.slotSize.toNat
      ∧ Answers e.session.driver.layout slot
        (Response.answering e.session.driver.layout id status sense)
      ∧ e.kernel.overwrite e.memory slot = .ok (e.memory.put
        (e.session.driver.geometry.slotStart
          (e.session.driver.geometry.seat start e.answers.length)) slot)
      ∧ e.write id status sense = { e with
        memory := e.memory.put (e.session.driver.geometry.slotStart
          (e.session.driver.geometry.seat start e.answers.length)) slot
        answers := e.answers ++ [Response.answering e.session.driver.layout id status sense] } := by
  have hlayout : e.kernel.layout = e.session.driver.layout := by rw [h.kernel]
  obtain ⟨slot, hfill, hlen, hr⟩ := e.kernel.fill_eq_ok id status sense
  rw [hlayout] at hlen hr
  rw [← h.inStep.sound.geometry.slotSize_eq] at hlen
  have hslot : e.kernel.slotOffset e.kernel.head
      = e.session.driver.geometry.slotStart
        (e.session.driver.geometry.seat start e.answers.length) := by
    rw [h.kernel, hpassed]
    unfold Kernel.slotOffset Geometry.slotStart
    rw [h.inStep.sound.geometry.slotSize_eq]
  have hin := h.inStep.holds.slot_le (e.session.driver.geometry.seat_lt start e.answers.length)
  have hsize := e.memory.length_le_size
  have hoverwrite : e.kernel.overwrite e.memory slot = .ok (e.memory.put
      (e.session.driver.geometry.slotStart
        (e.session.driver.geometry.seat start e.answers.length)) slot) := by
    unfold Kernel.overwrite Kernel.write
    rw [hslot, Region.checkRange_eq_ok.mpr (by omega)]
  refine ⟨slot, hfill, hlen, hr, hoverwrite, ?_⟩
  unfold Exchange.write
  rw [hfill]
  dsimp only
  rw [hoverwrite, hlayout]

/-- A step of the kernel, which neither publishes nor yields anything. -/
theorem served (h : Agrees start e) {kernel : Kernel} {memory : Region} {answers : List Response}
    {passed : Nat}
    (hstep : InStep e.session.driver start memory e.yielded.length passed answers
      e.published.length)
    (hkernel : kernel = ⟨e.session.driver.layout, e.session.driver.geometry.offset.toNat,
      e.session.driver.geometry.slotCount.toNat, e.session.driver.geometry.seat start passed⟩)
    (hfirst : e.yielded <+: answers) (hsubperm : (answers.map Response.id).Subperm e.published)
    (hpassed : passed ≤ answers.length ∧ answers.length ≤ passed + 1)
    (hseen : e.seen ≤ if e.session.driver.geometry.slotCount.toNat = 1 then answers.length
      else passed) :
    Agrees start
      { e with kernel := kernel, memory := memory, answers := answers, passed := passed } :=
  ⟨h.accounted, hstep, hkernel, hfirst, hsubperm, hpassed.1, hpassed.2, h.drain.1,
    Nat.le_trans h.drain.2 hseen⟩

/-- **The first step of an answer keeps the agreement**, and never fails. -/
theorem write (h : Agrees start e) {id : CommandId} (hawaits : e.Awaits id)
    (hpassed : e.passed = e.answers.length) (status : UInt8) (sense : Bytes) :
    (e.write id status sense).answers
        = e.answers ++ [Response.answering e.session.driver.layout id status sense]
      ∧ Agrees start (e.write id status sense) := by
  obtain ⟨slot, _, hlen, hr, _, hwrite⟩ := h.write_eq hpassed id status sense
  have hid : e.Awaits (Response.answering e.session.driver.layout id status sense).id := hawaits
  have hholds := h.inStep.holds.write h.yielded_le h.inStep.le_lap (h.answers_lt hid) hlen hr
  rw [hwrite]
  refine ⟨rfl, h.served ?_ h.kernel ?_ (h.answered_subperm hid) ?_ ?_⟩
  · exact ⟨h.inStep.sound, h.inStep.trusting, hholds, h.inStep.index, h.inStep.count_eq⟩
  · exact h.yielded_first.trans (List.prefix_append _ _)
  · rw [List.length_append, List.length_singleton]
    omega
  · rw [List.length_append, List.length_singleton]
    unfold seen
    split <;> omega

theorem advance_eq (h : Agrees start e) :
    e.kernel.advance e.memory = (.ok (), e.kernel.movedOn,
      e.memory.put Mailbox.headOffset (Bytes.ofUInt32 e.kernel.movedOn.publishedHead)) := by
  have hmailbox := Nat.le_trans h.inStep.holds.mailbox_le e.memory.length_le_size
  unfold Kernel.advance Kernel.store
  rw [Region.checkCursor_eq_ok.mpr ⟨Nat.le_trans (by decide) hmailbox, by decide⟩]

/-- **The second step of an answer keeps the agreement**, and never fails. -/
theorem advance (h : Agrees start e) (hpassed : e.passed < e.answers.length) :
    Agrees start e.advance := by
  have hhead : e.kernel.movedOn.head = e.session.driver.geometry.seat start (e.passed + 1) := by
    rw [h.kernel, ← e.session.driver.geometry.seat_add start e.passed 1]
    rfl
  have hword : e.kernel.movedOn.publishedHead.toNat
      = e.session.driver.geometry.seat start (e.passed + 1)
        * e.session.driver.geometry.slotSize.toNat := by
    have htoNat := h.inStep.holds.toNat_word (e.session.driver.geometry.seat_lt start (e.passed + 1))
    have hlayout : e.kernel.movedOn.layout = e.session.driver.layout := by
      rw [h.kernel]
      rfl
    unfold Kernel.publishedHead
    rw [hhead, hlayout, ← h.inStep.sound.geometry.slotSize_eq, htoNat]
  have hadvance : e.advance = { e with
      kernel := e.kernel.movedOn
      memory := e.memory.put Mailbox.headOffset (Bytes.ofUInt32 e.kernel.movedOn.publishedHead)
      passed := e.passed + 1 } := by
    unfold Exchange.advance
    rw [h.advance_eq]
  rw [hadvance]
  refine h.served ?_ ?_ h.yielded_first h.answers_subperm ⟨hpassed, Nat.le_succ_of_le h.le_passed⟩ ?_
  · exact ⟨h.inStep.sound, h.inStep.trusting, h.inStep.holds.pass hword, h.inStep.index,
      h.inStep.count_eq⟩
  · rw [← hhead]
    unfold Kernel.movedOn
    rw [h.kernel]
  · unfold seen
    split <;> omega

/-- **An answer in one step is both steps, one after the other.** -/
theorem answer (h : Agrees start e) {id : CommandId} (hawaits : e.Awaits id)
    (hpassed : e.passed = e.answers.length) (status : UInt8) (sense : Bytes) :
    (e.kernel.complete e.memory id { status := status, sense := sense }).1 = .ok ()
      ∧ e.answer id status sense = (e.write id status sense).advance := by
  obtain ⟨_, hwritten⟩ := h.write hawaits hpassed status sense
  have hlayout : e.kernel.layout = e.session.driver.layout := by rw [h.kernel]
  obtain ⟨slot, hfill, _, _, hoverwrite, hwrite⟩ := h.write_eq hpassed id status sense
  have hadvance := hwritten.advance_eq
  rw [hwrite] at hadvance ⊢
  dsimp only at hadvance
  have hcomplete : e.kernel.complete e.memory id { status := status, sense := sense }
      = e.kernel.advance (e.memory.put (e.session.driver.geometry.slotStart
        (e.session.driver.geometry.seat start e.answers.length)) slot) := by
    unfold Kernel.complete Kernel.answer
    rw [hfill]
    dsimp only
    rw [hoverwrite]
  refine ⟨by rw [hcomplete, hadvance], ?_⟩
  unfold Exchange.answer Exchange.advance
  rw [hcomplete, hlayout]
  dsimp only
  rw [hadvance]

end Agrees

end CommandRing.Exchange
