import CommandRing.Proofs.Exchange.Agreement

/-!
# Every answer is delivered once, and in order

With a kernel that answers each command at once the head is always on the last response, so an exchange is
never torn and both sides agree after every run. What a driver can see is then what was answered, and all
that its calls do follows from two differences: how many answers were not yielded, and how many commands
were published and not yielded.
-/

namespace CommandRing.Exchange

variable {e : Exchange}

theorem not_torn (h : e.passed = e.answers.length) : ¬ e.Torn := by
  intro ht
  have := ht.written
  omega

theorem passed_write (e : Exchange) (id : CommandId) (status : UInt8) (sense : Bytes) :
    (e.write id status sense).passed = e.passed := by
  unfold write
  split
  · rfl
  · split <;> rfl

/-- **Both sides agree after every run**, and the head is on the last response. -/
theorem agrees_of_reachable (h : Reachable e) :
    ∃ start, Agrees start e ∧ e.passed = e.answers.length := by
  induction h with
  | attached ha =>
      obtain ⟨start, h⟩ := Agrees.attached ha
      obtain ⟨d, _, rfl⟩ := attach_eq_ok ha
      exact ⟨start, h, rfl⟩
  | called c _ ih =>
      obtain ⟨start, h, hpassed⟩ := ih
      exact ⟨start, h.call fun _ => not_torn hpassed, hpassed⟩
  | @answered e id status sense _ hawaits ih =>
      obtain ⟨start, h, hpassed⟩ := ih
      obtain ⟨hanswers, hwritten⟩ := h.write hawaits hpassed status sense
      obtain ⟨_, hanswer⟩ := h.answer hawaits hpassed status sense
      have hlen : (e.write id status sense).answers.length = e.answers.length + 1 := by
        rw [hanswers, List.length_append, List.length_singleton]
      have hsame := e.passed_write id status sense
      rw [hanswer]
      -- between the steps the head is one behind, and the second step makes up for it
      refine ⟨start, hwritten.advance (by omega), ?_⟩
      show (e.write id status sense).passed + 1 = (e.write id status sense).answers.length
      omega

/-- A call on a driver in agreement finds nothing corrupt. -/
theorem Agrees.not_corrupt {start : Nat} (h : Agrees start e) {c : Call}
    (hc : c = .poll → ¬ e.Torn) (reason : Corruption) :
    (e.session.call e.memory c).1 ≠ .failed (.corrupt reason) := by
  cases c with
  | submit command =>
      rcases h.submit command with ⟨error, hcheck, hr, _⟩ | ⟨id, _, hr, _⟩
      · rw [hr]
        intro he
        injection he with he
        subst he
        exact Driver.checkCommand_ne_corrupt h.inStep.trusting hcheck
      · rw [hr]
        exact Reply.noConfusion
  | poll =>
      rw [Session.call_poll (h.poll (hc rfl)).1]
      exact Reply.noConfusion
  | next =>
      rcases h.next with ⟨_, _, hr, _⟩ | ⟨_, _, _, hnext, _⟩
      · rw [hr]
        exact Reply.noConfusion
      · rw [Session.call_next hnext]
        exact Reply.noConfusion
  | reset =>
      rcases h.reset with ⟨_, hr, _⟩ | ⟨_, hr, _⟩
      · rw [hr]
        simp
      · rw [hr]
        exact Reply.noConfusion

/-- **Of the commands that fit, a full ring refuses all and any other ring none.** -/
theorem Agrees.submit_fitting {start : Nat} (h : Agrees start e) {command : Command}
    (hs : command.segments.count ≤ e.session.driver.layout.maxSegments)
    (hc : command.cdb.length ≤ e.session.driver.layout.cdbSize) :
    if e.published.length - e.yielded.length = e.session.driver.geometry.slotCount.toNat then
      (e.session.call e.memory (.submit command)).1
        = .failed (.ringFull e.session.driver.geometry.slotCount.toNat)
    else
      ∃ id, (e.session.call e.memory (.submit command)).1 = .submitted id := by
  have hle := h.yielded_le
  have hanswers := h.answers_le
  have hcheck := h.inStep.checkCommand_eq hs hc
  split
  · rw [if_pos (by omega)] at hcheck
    rcases h.submit command with ⟨error, herror, hr, _⟩ | ⟨_, hok, _, _⟩
    · rw [hcheck] at herror
      injection herror with herror
      rw [hr, herror]
    · rw [hcheck] at hok
      exact absurd hok (by simp)
  · rw [if_neg (by omega)] at hcheck
    rcases h.submit command with ⟨error, herror, _, _⟩ | ⟨id, _, hr, _⟩
    · rw [hcheck] at herror
      exact absurd herror (by simp)
    · exact ⟨id, hr⟩

/-- **What the driver waits for decides whether it may start over.** -/
theorem Agrees.reset_eq {start : Nat} (h : Agrees start e) :
    (e.session.call e.memory .reset).1 =
      if e.published.length = e.yielded.length then
        .restarted
      else
        .failed (.outstanding (e.published.length - e.yielded.length)) := by
  rcases h.reset with ⟨hmore, hr, _⟩ | ⟨hnone, hr, _⟩
  · rw [hr, if_neg (by omega)]
  · rw [hr, if_pos hnone]

/--
**Every answer is delivered once, in order.** After any run with a kernel that answers at once, the driver
trusts the memory and no call finds it corrupt. What was yielded is what was answered first, and a poll that
is consumed to its end yields the rest. A command that fits is refused only by a ring whose slots are all
taken by commands that were not yielded yet, and a reset is refused only while there are any. The kernel can
always answer a command that awaits it, and its answer is the next to come.
-/
theorem delivered_once_in_order (h : Reachable e) :
    e.session.driver.poison = none
      ∧ (∀ c reason, (e.session.call e.memory c).1 ≠ .failed (.corrupt reason))
      ∧ e.yielded <+: e.answers
      ∧ (e.session.driver.pollTake e.memory none).1
        = .ok ((e.answers.drop e.yielded.length).map .ok)
      ∧ (∀ command : Command, command.segments.count ≤ e.session.driver.layout.maxSegments →
        command.cdb.length ≤ e.session.driver.layout.cdbSize →
        if e.published.length - e.yielded.length = e.session.driver.geometry.slotCount.toNat then
          (e.session.call e.memory (.submit command)).1
            = .failed (.ringFull e.session.driver.geometry.slotCount.toNat)
        else
          ∃ id, (e.session.call e.memory (.submit command)).1 = .submitted id)
      ∧ ((e.session.call e.memory .reset).1 =
        if e.published.length = e.yielded.length then
          .restarted
        else
          .failed (.outstanding (e.published.length - e.yielded.length)))
      ∧ ∀ id status sense, e.Awaits id →
        (e.kernel.complete e.memory id { status := status, sense := sense }).1 = .ok ()
          ∧ (e.answer id status sense).answers
            = e.answers ++ [Response.answering e.session.driver.layout id status sense] := by
  obtain ⟨start, ha, hpassed⟩ := agrees_of_reachable h
  have htorn := not_torn hpassed
  -- with the head on the last response the driver has seen them all
  have hseen : e.seen = e.answers.length := by
    unfold seen
    rw [hpassed, ite_self]
  refine ⟨ha.inStep.trusting, fun c => ha.not_corrupt fun _ => htorn, ha.yielded_first, ?_,
    fun _ => ha.submit_fitting, ha.reset_eq, ?_⟩
  · have htake := ha.pollTake htorn none
    rw [hseen, Option.getD_none, Nat.min_self, List.take_of_length_le] at htake
    · exact htake
    · rw [List.length_drop]
  · intro id status sense hawaits
    obtain ⟨hcomplete, hanswer⟩ := ha.answer hawaits hpassed status sense
    refine ⟨hcomplete, ?_⟩
    rw [hanswer]
    exact (ha.write hawaits hpassed status sense).1

/-- The smallest ring of two slots, with both sides. -/
def small : Exchange :=
  ⟨Session.idle Session.smallDriver, Session.smallRing, ⟨Session.smallLayout, 72, 2, 0⟩, [], [], 0⟩

theorem attach_small : attach Session.smallLayout Session.smallRing = .ok small := by
  unfold attach
  rw [Session.attach_smallRing.1, Session.attach_smallRing.2]
  rfl

/-- Two commands are published on it. -/
def filled : Exchange :=
  (small.call (.submit Command.testUnitReady)).call (.submit Command.testUnitReady)

set_option maxRecDepth 10000 in
theorem awaits_filled : filled.Awaits 1 ∧ filled.Awaits 2 ∧ filled.passed = filled.answers.length := by
  decide

/-- The second is answered first, and this answer is taken. -/
def crossed : Exchange := (((filled.answer 2 0 []).answer 1 2 []).call .poll).call .next

set_option maxRecDepth 10000 in
theorem delivered_out_of_submission_order :
    Reachable crossed ∧ crossed.published = [1, 2] ∧ crossed.answers.map Response.id = [2, 1]
      ∧ crossed.yielded <+: crossed.answers
      ∧ (crossed.session.driver.pollTake crossed.memory none).1
        = .ok ((crossed.answers.drop crossed.yielded.length).map .ok) := by
  have hids : (filled.answer 2 0 []).Awaits 1 ∧ crossed.published = [1, 2]
      ∧ crossed.answers.map Response.id = [2, 1] := by
    decide
  have hreached : Reachable crossed :=
    .called .next (.called .poll (.answered 1 2 [] (.answered 2 0 []
      (.called _ (.called _ (.attached attach_small))) awaits_filled.2.1) hids.1))
  obtain ⟨_, _, hfirst, hrest, _⟩ := delivered_once_in_order hreached
  exact ⟨hreached, hids.2.1, hids.2.2, hfirst, hrest⟩

end CommandRing.Exchange
