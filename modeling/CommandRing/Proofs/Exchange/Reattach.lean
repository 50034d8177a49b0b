import CommandRing.Proofs.Exchange.Delivery

/-!
# Taking a ring over from another driver

A driver that is dropped leaves its commands behind, and whoever attaches next has only the two cursors of
the mailbox to go by. They say how many commands wait for an answer, up to a whole lap: a ring on which
every slot waits has its cursors where an idle ring has them, and is taken for one.

The driver in use asks the slot in this case (`ready`); a reset does not.
-/

namespace CommandRing.Exchange

variable {e : Exchange}

/-- What waits for an answer takes at most a lap. -/
theorem Agrees.unanswered_le {start : Nat} (h : Agrees start e)
    (hpassed : e.passed = e.answers.length) :
    e.passed ≤ e.published.length
      ∧ e.published.length ≤ e.passed + e.session.driver.geometry.slotCount.toNat := by
  have hyielded := h.yielded_le
  have hanswers := h.answers_le
  have hlap := h.inStep.le_lap
  omega

/--
**A ring is handed over if nothing waits, and if a whole lap does.** In between the next driver is refused
with the number of commands that wait. The memory stays as it is either way.
-/
theorem handed_over_iff (h : Reachable e) :
    (Driver.attach e.session.driver.layout e.memory).2 = e.memory
      ∧ if e.published.length - e.answers.length = 0
          ∨ e.published.length - e.answers.length = e.session.driver.geometry.slotCount.toNat then
        ∃ d, (Driver.attach e.session.driver.layout e.memory).1 = .ok d ∧ d.inFlight = []
      else
        (Driver.attach e.session.driver.layout e.memory).1
          = .error (.outstanding (e.published.length - e.answers.length)) := by
  obtain ⟨start, ha, hpassed⟩ := agrees_of_reachable h
  -- what was yielded does not matter: the two cursors are the kernel's head and the last tail
  obtain ⟨hle, hlap⟩ := ha.unanswered_le hpassed
  have hattach := ha.inStep.holds.attach_eq hle hlap
  split
  · rw [if_pos (by omega)] at hattach
    rw [hattach]
    exact ⟨rfl, _, rfl, rfl⟩
  · rw [if_neg (by omega)] at hattach
    rw [hattach, hpassed]
    exact ⟨rfl, rfl⟩

/-- One of two commands is answered, and the answer is still there. -/
def halfServed : Exchange := filled.answer 1 0 []

set_option maxRecDepth 10000 in
theorem refused_halfServed :
    Reachable halfServed ∧ halfServed.published.length - halfServed.answers.length = 1
      ∧ (Driver.attach halfServed.session.driver.layout halfServed.memory).2 = halfServed.memory
      ∧ (Driver.attach halfServed.session.driver.layout halfServed.memory).1
        = .error (.outstanding 1) := by
  have hreached : Reachable halfServed :=
    .answered 1 0 [] (.called _ (.called _ (.attached attach_small))) awaits_filled.1
  have hcounts : halfServed.published.length - halfServed.answers.length = 1
      ∧ halfServed.session.driver.geometry.slotCount.toNat = 2 := by
    decide
  have hrefused := handed_over_iff hreached
  rw [hcounts.1, hcounts.2, if_neg (by decide)] at hrefused
  exact ⟨hreached, hcounts.1, hrefused⟩

set_option maxRecDepth 10000 in
/-- Two commands wait on a ring of two slots, and the next driver is let in. -/
theorem handed_over_unanswered :
    ¬ ∀ e, Reachable e → 0 < e.published.length - e.answers.length →
      (Driver.attach e.session.driver.layout e.memory).1
        = .error (.outstanding (e.published.length - e.answers.length)) := by
  intro h
  have hreached : Reachable filled := .called _ (.called _ (.attached attach_small))
  have hlet : 0 < filled.published.length - filled.answers.length
      ∧ (Driver.attach filled.session.driver.layout filled.memory).1
        ≠ .error (.outstanding (filled.published.length - filled.answers.length)) := by
    decide
  exact hlet.2 (h filled hreached hlet.1)

end CommandRing.Exchange
