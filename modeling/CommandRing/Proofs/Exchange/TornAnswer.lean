import CommandRing.Proofs.Exchange.Delivery

/-!
# An answer that is half given

A kernel writes a response before it moves its head over it. A driver whose ring is not full goes by the
head and does not see the response until then. On a full ring it cannot go by the head, which is where it
was when nothing was answered and when everything was, and goes by the flag in the slot instead. The flag
is set by the first of the two steps, so for as long as the head has not moved a single response passes for
a whole lap of them.

A poll at that moment is the only thing that can go wrong. The first item of its drain is the response; the
second is a request, which the driver takes for a broken mapping.
-/

namespace CommandRing.Exchange

variable {e : Exchange}

/-- Calls other than a poll of a torn exchange. -/
def Careful (e : Exchange) (c : Call) : Prop := c = .poll → ¬ e.Torn

/-- **Both sides agree after every careful run**, however slow the kernel is. -/
theorem agrees_of_careful (h : SlowlyReachable Careful e) : ∃ start, Agrees start e := by
  induction h with
  | attached ha => exact Agrees.attached ha
  | called _ hc ih =>
      obtain ⟨start, h⟩ := ih
      exact ⟨start, h.call hc⟩
  | wrote id status sense _ hawaits hpassed ih =>
      obtain ⟨start, h⟩ := ih
      exact ⟨start, (h.write hawaits hpassed status sense).2⟩
  | moved _ hpassed ih =>
      obtain ⟨start, h⟩ := ih
      exact ⟨start, h.advance hpassed⟩

/-- No drain of a driver in agreement ends with an error. -/
theorem Agrees.next_ne_failed {start : Nat} (h : Agrees start e) (error : Error) :
    (e.session.call e.memory .next).1 ≠ .failed error := by
  rcases h.next with ⟨_, _, hr, _⟩ | ⟨_, _, _, hnext, _⟩
  · rw [hr]
    exact Reply.noConfusion
  · rw [Session.call_next hnext]
    exact Reply.noConfusion

/--
**A driver is misled by a torn poll, and by nothing else.** After any run without one the driver trusts the
memory, no call finds it corrupt, no drain ends with an error, and the kernel can always take its next step.
A poll then announces no more responses than were written and not yielded, unless the exchange is torn: it
then announces the whole ring, one response is all there is, and the second item poisons the driver.
-/
theorem misled_iff_torn (h : SlowlyReachable Careful e) :
    e.session.driver.poison = none
      ∧ (∀ c reason, Careful e c → (e.session.call e.memory c).1 ≠ .failed (.corrupt reason))
      ∧ (∀ error, (e.session.call e.memory .next).1 ≠ .failed error)
      ∧ (∀ id status sense, e.Awaits id → e.passed = e.answers.length →
        (e.write id status sense).answers
          = e.answers ++ [Response.answering e.session.driver.layout id status sense])
      ∧ (e.kernel.advance e.memory).1 = .ok ()
      ∧ (¬ e.Torn → ∃ count, (e.session.call e.memory .poll).1 = .announced count
        ∧ count ≤ e.answers.length - e.yielded.length)
      ∧ (e.Torn → (e.session.call e.memory .poll).1
          = .announced e.session.driver.geometry.slotCount.toNat
        ∧ e.answers.length - e.yielded.length < e.session.driver.geometry.slotCount.toNat
        ∧ ∃ r d, e.answers.drop e.yielded.length = [r]
          ∧ e.session.driver.pollTake e.memory (some 2)
            = (.ok [.ok r, .error (.corrupt (.unanswered d.cursor.head.index.toNat))], d)
          ∧ d.poison = some (.unanswered d.cursor.head.index.toNat)) := by
  obtain ⟨start, ha⟩ := agrees_of_careful h
  refine ⟨ha.inStep.trusting, fun c reason hc => ha.not_corrupt hc reason, ha.next_ne_failed,
    fun id status sense hawaits hpassed => (ha.write hawaits hpassed status sense).1,
    by rw [ha.advance_eq], ?_, ?_⟩
  · intro ht
    have hseen := ha.seen_le
    refine ⟨e.seen - e.yielded.length, by rw [Session.call_poll (ha.poll ht).1], by omega⟩
  · intro ht
    obtain ⟨hpoll, r, d, hget, hpoison, htake⟩ := ha.pollTake_torn ht
    obtain ⟨_, hseveral, hconsumed, hwritten⟩ := ht
    refine ⟨by rw [Session.call_poll hpoll], by omega, r, d, ?_, htake (some 2) (Nat.le_refl 2), hpoison⟩
    obtain ⟨hlt, hr⟩ := List.getElem?_eq_some_iff.mp hget
    rw [List.drop_eq_getElem_cons hlt, hr, List.drop_of_length_le (by omega)]

/-- Both slots of the smallest ring are taken, and one response is half given. -/
def halfAnswered : Exchange := filled.write 1 0 []

set_option maxRecDepth 10000 in
theorem torn_halfAnswered :
    SlowlyReachable Careful halfAnswered ∧ halfAnswered.Torn
      ∧ (halfAnswered.session.call halfAnswered.memory .poll).1 = .announced 2
      ∧ halfAnswered.answers.length - halfAnswered.yielded.length < 2 := by
  have hcareful : ∀ e command, Careful e (.submit command) := fun _ _ h => Call.noConfusion h
  have hreached : SlowlyReachable Careful halfAnswered :=
    .wrote 1 0 [] (.called (.called (.attached attach_small) (hcareful _ _)) (hcareful _ _))
      awaits_filled.1 awaits_filled.2.2
  have htorn : halfAnswered.Torn ∧ halfAnswered.session.driver.geometry.slotCount.toNat = 2 := by
    decide
  obtain ⟨_, _, _, _, _, _, hmisled⟩ := misled_iff_torn hreached
  obtain ⟨hannounced, hfew, _⟩ := hmisled htorn.1
  rw [htorn.2] at hannounced hfew
  exact ⟨hreached, htorn.1, hannounced, hfew⟩

set_option maxRecDepth 10000 in
/-- Without the care a driver can be poisoned, although the kernel does as it should. -/
theorem poisoned_by_torn_poll :
    ¬ ∀ e, SlowlyReachable (fun _ _ => True) e → e.session.driver.poison = none := by
  intro h
  have hhalf : SlowlyReachable (fun _ _ => True) halfAnswered :=
    .wrote 1 0 [] (.called (.called (.attached attach_small) trivial) trivial)
      awaits_filled.1 awaits_filled.2.2
  have hpoison := h (((halfAnswered.call .poll).call .next).call .next)
    (.called (.called (.called hhalf trivial) trivial) trivial)
  revert hpoison
  decide

end CommandRing.Exchange
