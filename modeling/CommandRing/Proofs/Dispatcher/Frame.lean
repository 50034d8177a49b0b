import CommandRing.Proofs.Dispatcher.Reservation

/-!
# What acts leave alone

Most of what is done with a dispatcher concerns its two lists and nothing else. A pump also changes the driver,
and a submit the driver, the line, the memory and the next ticket. What an act changes is said here by the
dispatcher that it leaves, with the parts it may change replaced.
-/

namespace CommandRing.Dispatcher

theorem failAll_eq (d : Dispatcher) (e : Error) :
    ∃ pending settled, d.failAll e = { d with pending := pending, settled := settled } := by
  rcases failAll_cases d e with ⟨_, _, hr⟩ | ⟨_, hr⟩
  · exact ⟨_, _, hr⟩
  · exact ⟨_, _, hr⟩

theorem deliver_eq (d : Dispatcher) (r : Response) :
    ∃ pending settled, (d.deliver r).2 = { d with pending := pending, settled := settled } := by
  unfold deliver
  split
  · exact ⟨_, _, rfl⟩
  · exact ⟨_, _, rfl⟩

theorem deliverAll_eq (d : Dispatcher) (count : Nat) (items : List Outcome) :
    ∃ pending settled, (d.deliverAll count items).2 = { d with pending := pending, settled := settled } := by
  induction items generalizing d count with
  | nil => exact ⟨_, _, rfl⟩
  | cons item rest ih =>
      cases item with
      | error e => exact failAll_eq d e
      | ok r =>
          obtain ⟨pending, settled, hr⟩ := deliver_eq d r
          unfold deliverAll
          rcases hdeliver : d.deliver r with ⟨_ | _, d'⟩
          all_goals
            rw [hdeliver] at hr
            dsimp only at hr ⊢
            rw [hr]
            exact ih _ _

/-- A pump changes the driver and the two lists. -/
theorem pump_eq (d : Dispatcher) (memory : Region) :
    ∃ pending settled, (d.pump memory).2 = { d with
      driver := (d.driver.pollTake memory none).2, pending := pending, settled := settled } := by
  unfold pump
  rcases d.driver.pollTake memory none with ⟨e | items, driver⟩
  · exact failAll_eq _ e
  · exact deliverAll_eq _ 0 items

theorem memory_pump (d : Dispatcher) (memory : Region) : (d.act memory .pump).2.2 = memory := by
  unfold act
  dsimp only
  split <;> rfl

/-- Acts other than a submit and a pump. -/
theorem act_quiet (d : Dispatcher) (memory : Region) {a : Act} (hsubmit : ∀ command, a ≠ .submit command)
    (hpump : a ≠ .pump) :
    (d.act memory a).1.given = [] ∧ d.drainedBy memory a = []
      ∧ ∃ pending settled,
        (d.act memory a).2 = ({ d with pending := pending, settled := settled }, memory) := by
  cases a with
  | submit command => exact absurd rfl (hsubmit command)
  | pump => exact absurd rfl hpump
  | cancel id =>
      refine ⟨rfl, rfl, ?_⟩
      unfold act cancel
      dsimp only
      split
      · exact ⟨_, _, rfl⟩
      · exact ⟨_, _, rfl⟩
  | look x =>
      unfold act
      dsimp only
      split
      · exact ⟨rfl, rfl, _, _, rfl⟩
      · exact ⟨rfl, rfl, _, _, rfl⟩
  | expire x =>
      refine ⟨rfl, rfl, ?_⟩
      unfold act
      dsimp only
      rcases d.expire_cases x with ⟨_, hr⟩ | ⟨_, hr⟩
      · rw [hr]
        exact ⟨_, _, rfl⟩
      · rw [hr]
        exact ⟨_, _, rfl⟩
  | giveUp x =>
      refine ⟨rfl, rfl, ?_⟩
      unfold act
      dsimp only
      rcases d.forget_cases x with ⟨_, hr⟩ | ⟨_, hr⟩
      · rw [hr]
        exact ⟨_, _, rfl⟩
      · rw [hr]
        exact ⟨_, _, rfl⟩

/-- A permit is nobody's but the line's, and a handle that is given out has the next ticket. -/
theorem act_frame (d : Dispatcher) (memory : Region) (a : Act) :
    (d.act memory a).2.1.bell.permit = d.bell.permit
      ∧ d.nextTicket ≤ (d.act memory a).2.1.nextTicket
      ∧ ∀ x ∈ (d.act memory a).1.given,
        x.ticket = d.nextTicket ∧ x.ticket < (d.act memory a).2.1.nextTicket := by
  by_cases hsubmit : ∃ command, a = .submit command
  · obtain ⟨command, rfl⟩ := hsubmit
    unfold act submit
    dsimp only
    rcases d.driver.submit memory command with ⟨e | id, driver, memory'⟩
    · obtain ⟨_, _, hr⟩ := failAll_eq { d with driver := driver } e
      dsimp only
      rw [hr]
      exact ⟨rfl, Nat.le_refl _, fun x hx => absurd hx List.not_mem_nil⟩
    · refine ⟨rfl, Nat.le_succ _, ?_⟩
      intro x hx
      rw [List.mem_singleton.mp hx]
      exact ⟨rfl, Nat.lt_succ_self _⟩
  · by_cases hpump : a = .pump
    · subst hpump
      obtain ⟨_, _, hr⟩ := pump_eq d memory
      rw [dispatcher_pump, given_pump, hr]
      exact ⟨rfl, Nat.le_refl _, fun x hx => absurd hx List.not_mem_nil⟩
    · obtain ⟨hgiven, _, _, _, hr⟩ := d.act_quiet memory (fun c hc => hsubmit ⟨c, hc⟩) hpump
      rw [hgiven, hr]
      exact ⟨rfl, Nat.le_refl _, fun x hx => absurd hx List.not_mem_nil⟩

end CommandRing.Dispatcher
