import CommandRing.Proofs.Exchange.Agreement

/-!
# A drain that is taken to its end

Who polls and takes everything, in one go, has seen all that could be seen. That holds for every exchange in
agreement that is not torn. In a torn one the driver is poisoned right away, because a single response stands for
a whole lap of them and the slot behind it still waits.

The history of an exchange matters only for what was published and what was yielded, and a drain that its user
gives up promises nothing: `of_replies` and `withDrain` say so, and with them calls by one user become calls by
another.
-/

namespace CommandRing.Exchange.Agrees

variable {start : Nat} {e : Exchange}

theorem of_replies (h : Agrees start e) {replies : List Reply}
    (hpublished : Session.submittedIds replies = e.published)
    (hyielded : Session.yielded replies = e.yielded) : Agrees start { e with replies := replies } := by
  have haccounted := h.accounted
  unfold Session.Accounted Session.yieldedIds at haccounted
  refine ⟨?_, ?_, h.kernel, ?_, ?_, h.passed_le, h.le_passed, h.drain.1, ?_⟩
  · unfold Session.Accounted Session.yieldedIds
    rw [hpublished, hyielded]
    exact haccounted
  · show InStep _ _ _ (Session.yielded replies).length _ _ (Session.submittedIds replies).length
    rw [hpublished, hyielded]
    exact h.inStep
  · show Session.yielded replies <+: e.answers
    rw [hyielded]
    exact h.yielded_first
  · show (e.answers.map Response.id).Subperm (Session.submittedIds replies)
    rw [hpublished]
    exact h.answers_subperm
  · show (Session.yielded replies).length + e.session.drain.remaining ≤ e.seen
    rw [hyielded]
    exact h.drain.2

/-- A drain may promise anything that was seen. -/
theorem withDrain (h : Agrees start e) {remaining : Nat}
    (hremaining : e.yielded.length + remaining ≤ e.seen) :
    Agrees start { e with session := ⟨e.session.driver, ⟨remaining, false⟩⟩ } :=
  ⟨h.accounted, h.inStep, h.kernel, h.yielded_first, h.answers_subperm, h.passed_le, h.le_passed, rfl,
    hremaining⟩

/-- **A drain keeps its promise**, and leaves an exchange in agreement. -/
theorem take_all (h : Agrees start e) {depth : Nat} (hdepth : depth ≤ e.session.drain.remaining) :
    ∃ (taken : List Response) (d : Driver) (drain : Drain),
      Driver.take e.memory depth e.session.driver e.session.drain = (taken.map .ok, d, drain)
      ∧ taken.length = depth
      ∧ Agrees start
        { e with session := ⟨d, drain⟩, replies := e.replies ++ taken.map .yielded } := by
  -- every item is a call of its own, as in `take`
  induction depth generalizing e with
  | zero =>
      refine ⟨[], e.session.driver, e.session.drain, rfl, rfl, ?_⟩
      rw [List.map_nil, List.append_nil]
      exact h
  | succ depth ih =>
      rcases h.next with ⟨hrem, _⟩ | ⟨r, hrem, _, hnext, h'⟩
      · omega
      · rw [call_eq (Session.call_next hnext)] at h'
        have hrest : depth ≤ e.session.drain.remaining - 1 := by omega
        obtain ⟨taken, d, drain, htake, hlen, hagrees⟩ := ih h' hrest
        refine ⟨r :: taken, d, drain, ?_, ?_, ?_⟩
        · dsimp only at htake
          rw [Driver.take_next hnext, htake]
          rfl
        · rw [List.length_cons, hlen]
        · dsimp only at hagrees
          rw [List.append_assoc] at hagrees
          exact hagrees

/-- **Polling and taking everything leaves nothing that was seen**, unless the exchange is torn. -/
theorem pollTake_all (h : Agrees start e) (ht : ¬ e.Torn) :
    ∃ (taken : List Response) (d : Driver), e.session.driver.pollTake e.memory none = (.ok (taken.map .ok), d)
      ∧ e.yielded.length + taken.length = e.seen
      ∧ Agrees start
        { e with session := Session.idle d, replies := e.replies ++ taken.map .yielded } := by
  have hle := h.le_seen
  obtain ⟨hpoll, _⟩ := h.poll ht
  have hpromise : e.yielded.length + (e.seen - e.yielded.length) ≤ e.seen := by omega
  have hopen := h.withDrain hpromise
  obtain ⟨taken, d, drain, htake, hlen, hagrees⟩ := hopen.take_all (Nat.le_refl _)
  dsimp only at htake hlen
  refine ⟨taken, d, ?_, by omega, ?_⟩
  · rw [Driver.pollTake_polled hpoll, Option.getD_none, htake]
  · exact hagrees.withDrain hagrees.le_seen

/-- **Polling and taking everything of a torn exchange poisons the driver.** -/
theorem poisoned_of_torn (h : Agrees start e) (ht : e.Torn) :
    (e.session.driver.pollTake e.memory none).2.poison ≠ none := by
  have hseveral := ht.several
  obtain ⟨_, _, d, _, hpoison, htake⟩ := h.pollTake_torn ht
  rw [htake none hseveral, hpoison]
  exact Option.some_ne_none _

end CommandRing.Exchange.Agrees
