import CommandRing.Dispatcher.Run
import CommandRing.Proofs.Dispatcher.Settling

/-!
# How the loop ends

The loop returns for one of two reasons, and only one of them is told to everybody. A pump that fails has met a
corruption, so it has failed every command that it could not answer, and nobody is left waiting. A line that
fails is no corruption: its error goes to whoever runs the loop, and those who wait for a command go on
waiting, without anybody who pumps.

Others use the dispatcher while the loop runs, and some of them the driver behind it. `Sound` is what survives
all of this, and it is enough to know that a failing pump failed because of a corruption.
-/

namespace CommandRing.Dispatcher

/-- What a dispatcher keeps, whoever uses it. -/
structure Sound (d : Dispatcher) : Prop where
  driver : d.driver.Sound
  keyed : WellKeyed d.pending

variable {d d' : Dispatcher} {e : Error}

theorem Sound.of_settles {new : List (Handle × Outcome)} (h : d.Sound) (hd : d'.driver.Sound)
    (hs : Settles d d' new) : d'.Sound := ⟨hd, hs.keyed h.keyed⟩

theorem Sound.failAll (h : d.Sound) (e : Error) : (d.failAll e).Sound := by
  rcases failAll_cases d e with ⟨reason, _, hr⟩ | ⟨_, hr⟩
  · rw [hr]
    exact ⟨h.driver, List.nodup_nil⟩
  · rw [hr]
    exact h

theorem Sound.handOver (h : d.Sound) (taken : List Response) : (d.handOver taken).Sound := by
  obtain ⟨new, hsettles, _⟩ := settles_handOver taken h.keyed
  refine h.of_settles ?_ hsettles
  rw [handOver_driver]
  exact h.driver

theorem Sound.withDriver (h : d.Sound) {driver : Driver} (hd : driver.Sound) :
    { d with driver := driver }.Sound := ⟨hd, h.keyed⟩

theorem Sound.submit (h : d.Sound) (memory : Region) (command : Command) :
    (d.submit memory command).2.1.Sound := by
  rcases submit_cases h.driver memory command with
    ⟨e, _, hr⟩ | ⟨id, reason, hr⟩ | ⟨id, slot, hcheck, h0, hfree, _, _, hr⟩
  · rw [hr]
    exact h.failAll e
  · rw [hr]
    dsimp only
    refine Sound.failAll (h.withDriver ?_) _
    have hs := h.driver
    exact ⟨hs.geometry, hs.capacity, hs.ahead, hs.nodup, hs.zero_notMem,
      CommandId.successor_ne_zero id⟩
  · rw [hr]
    refine ⟨h.driver.submitted (Driver.checkCommand_eq_ok.mp hcheck).2.2.2 h0 hfree, ?_⟩
    -- whoever had this id before has lost its place
    refine List.nodup_cons.mpr ⟨?_, h.keyed.sublist (withoutId_sublist d.pending id)⟩
    intro hid
    obtain ⟨x, hx, hxid⟩ := List.mem_map.mp hid
    exact (mem_withoutId.mp hx).2 hxid

theorem Sound.pump (h : d.Sound) (memory : Region) : (d.pump memory).2.Sound := by
  rcases pump_cases h.driver h.keyed memory with
    ⟨reason, _, hr⟩ | ⟨_, taken, driver, count, htaken, _, hr, _⟩
      | ⟨_, taken, driver, reason, htaken, _, hr⟩
  · rw [hr]
    dsimp only
    exact Sound.failAll (h.withDriver (h.driver.poisonedBy _)) _
  · rw [hr]
    exact Sound.handOver (h.withDriver (htaken.sound h.driver)) taken
  · rw [hr]
    have hdriver := (htaken.sound h.driver).poisonedBy (.corrupt reason)
    dsimp only
    exact Sound.failAll (Sound.handOver (h.withDriver hdriver) taken) _

theorem Sound.cancel (h : d.Sound) (id : CommandId) : (d.cancel id).2.Sound := by
  rcases cancel_cases h.keyed id with ⟨x, hx, _, hr⟩ | ⟨_, hr⟩
  · rw [hr]
    exact h.of_settles h.driver (settles_settle h.keyed hx _)
  · rw [hr]
    exact h

theorem Sound.forget (h : d.Sound) (x : Handle) : (d.forget x).2.Sound := by
  rcases d.forget_cases x with ⟨_, hr⟩ | ⟨_, hr⟩
  · rw [hr]
    exact ⟨h.driver, h.keyed.sublist List.erase_sublist⟩
  · rw [hr]
    exact h

theorem Sound.expire (h : d.Sound) (x : Handle) : (d.expire x).2.Sound := by
  rcases d.expire_cases x with ⟨_, hr⟩ | ⟨_, hr⟩
  · rw [hr]
    exact ⟨h.driver, h.keyed.sublist List.erase_sublist⟩
  · rw [hr]
    exact h

theorem dispatcher_submit (d : Dispatcher) (memory : Region) (command : Command) :
    (d.act memory (.submit command)).2.1 = (d.submit memory command).2.1 := by
  unfold act
  dsimp only
  rcases d.submit memory command with ⟨_ | _, _, _⟩ <;> rfl

theorem dispatcher_pump (d : Dispatcher) (memory : Region) :
    (d.act memory .pump).2.1 = (d.pump memory).2 := by
  unfold act
  dsimp only
  rcases d.pump memory with ⟨_ | _, _⟩ <;> rfl

theorem step_pumping (d : Dispatcher) (memory : Region) :
    (step memory (.pumping, d)).2 = (d.pump memory).2 := by
  unfold step
  dsimp only
  rcases d.pump memory with ⟨_ | _, _⟩ <;> rfl

/-- **Nothing that anybody does can spoil a dispatcher.** -/
theorem Sound.change (h : d.Sound) (hc : Change d d') : d'.Sound := by
  cases hc with
  | acted memory a =>
      cases a with
      | submit command =>
          rw [dispatcher_submit]
          exact h.submit memory command
      | pump =>
          rw [dispatcher_pump]
          exact h.pump memory
      | cancel id => exact h.cancel id
      | look x =>
          unfold act
          dsimp only
          split <;> exact h
      | expire x => exact h.expire x
      | giveUp x => exact h.forget x
  | called drain memory c => exact h.withDriver (Session.sound_call h.driver memory c)
  | signalled bell => exact ⟨h.driver, h.keyed⟩

theorem sound_of_reachable (h : Reachable d) : d.Sound := by
  induction h with
  | new bell hattach => exact ⟨Driver.sound_attach hattach, List.nodup_nil⟩
  | changed _ hc ih => exact ih.change hc

theorem sound_of_looping {phase : LoopPhase} (h : Looping phase d) : d.Sound := by
  induction h with
  | started hr => exact sound_of_reachable hr
  | pumped memory _ ih =>
      rw [step_pumping]
      exact ih.pump memory
  | looked pause bell _ _ ih => exact ⟨ih.driver, ih.keyed⟩
  | meanwhile _ _ hc ih => exact ih.change hc

/-! ## The two ends -/

/-- The loop that runs is one of those described here. -/
theorem Looping.step {phase : LoopPhase} (h : Looping phase d) (memory : Region) :
    Looping (Dispatcher.step memory (phase, d)).1 (Dispatcher.step memory (phase, d)).2 := by
  cases phase with
  | pumping => exact .pumped memory h
  | waiting =>
      refine .looked d.bell.wait.1 d.bell.wait.2 h ?_
      intro e he
      unfold Doorbell.wait at he
      split at he
      · exact Pause.noConfusion he
      · injection he with he
        exact ⟨_, he.symm⟩
      · split at he <;> exact Pause.noConfusion he
      · split at he <;> exact Pause.noConfusion he
  | returned e => exact h

/-- **A pump that fails leaves nobody behind**: it answered some commands and failed the others. -/
theorem pump_failed (h : d.Sound) {memory : Region} (hr : d.pump memory = (.error e, d')) :
    ∃ reason answered failed, e = .corrupt reason ∧ d'.pending = []
      ∧ d'.settled = failures failed e ++ (answered ++ d.settled)
      ∧ (∀ p ∈ answered, ∃ r, p.2 = .ok r)
      ∧ (answered.map Prod.fst ++ failed).Perm d.pending := by
  rcases pump_cases h.driver h.keyed memory with
    ⟨reason, _, hp⟩ | ⟨_, _, _, count, _, _, hp, _⟩ | ⟨_, taken, driver, reason, _, _, hp⟩
  · rw [hp] at hr
    injection hr with he hd
    injection he with he
    subst he
    subst hd
    exact ⟨reason, [], d.pending, rfl, rfl, rfl, fun _ hx => absurd hx List.not_mem_nil,
      List.Perm.refl _⟩
  · rw [hp] at hr
    exact absurd (congrArg Prod.fst hr) (by simp)
  · rw [hp] at hr
    injection hr with he hd
    injection he with he
    subst he
    obtain ⟨answered, hsettles, hanswered⟩ := settles_handOver taken
      (d := { d with driver := driver.poisonedBy (.corrupt reason) }) h.keyed
    have hfailed := settles_failAll
      ({ d with driver := driver.poisonedBy (.corrupt reason) }.handOver taken) reason
    rw [hd] at hfailed
    refine ⟨reason, answered, _, rfl, ?_, ?_, ?_, hsettles.pending⟩
    · rw [← hd]
      rfl
    · rw [hfailed.settled, hsettles.settled]
    · intro p hp
      obtain ⟨r, _, hok, _⟩ := hanswered p hp
      exact ⟨r, hok⟩

/--
**The loop returns with nobody left behind, unless its line fails.** If a pump ended it, then with a corruption:
nothing is pending any more, and of the commands that were pending when this pump began some were answered and
all others failed with that corruption. If the line ended it, then with an error of the system, and what was
pending is pending still.
-/
theorem told_unless_line_failed (h : Looping (.returned e) d) :
    (∃ reason d₀ memory answered failed, e = .corrupt reason ∧ Looping .pumping d₀
        ∧ d₀.pump memory = (.error e, d) ∧ d.pending = []
        ∧ d.settled = failures failed e ++ (answered ++ d₀.settled)
        ∧ (∀ p ∈ answered, ∃ r, p.2 = .ok r)
        ∧ (answered.map Prod.fst ++ failed).Perm d₀.pending)
      ∨ (∃ fault d₀ bell, e = .io fault ∧ Looping .waiting d₀ ∧ d = { d₀ with bell := bell }) := by
  generalize hphase : LoopPhase.returned e = phase at h
  cases h with
  | started _ => exact LoopPhase.noConfusion hphase
  | @pumped d₀ memory hloop =>
      rcases hr : d₀.pump memory with ⟨e' | count, d₁⟩
      · have hstep : Dispatcher.step memory (.pumping, d₀) = (.returned e', d₁) := by
          unfold Dispatcher.step
          dsimp only
          rw [hr]
        rw [hstep] at hphase ⊢
        injection hphase with he
        subst he
        obtain ⟨reason, answered, failed, he, hparts⟩ := pump_failed (sound_of_looping hloop) hr
        exact Or.inl ⟨reason, d₀, memory, answered, failed, he, hloop, hr, hparts⟩
      · unfold Dispatcher.step at hphase
        dsimp only at hphase
        rw [hr] at hphase
        exact LoopPhase.noConfusion hphase
  | @looked d₀ pause bell hloop hfault =>
      cases pause with
      | failed e' =>
          injection hphase with he
          subst he
          obtain ⟨fault, he⟩ := hfault _ rfl
          exact Or.inr ⟨fault, d₀, bell, he, hloop, rfl⟩
      | _ => exact LoopPhase.noConfusion hphase
  -- once it has returned, nothing that others do is part of it
  | meanwhile _ hgoing _ => exact absurd hphase.symm (hgoing e)

/-- A dispatcher on the smallest ring, whose line fails, after one command was submitted. -/
def lonely : Dispatcher :=
  ((new Session.smallDriver { wiring := .waitFails }).act Session.smallRing
    (.submit Command.testUnitReady)).2.1

theorem looping_lonely : Looping .pumping lonely :=
  .meanwhile (.started (.new _ Session.attach_smallRing.2)) (fun _ => LoopPhase.noConfusion)
    (.acted _ _)

set_option maxRecDepth 10000 in
/-- The memory is gone when the loop pumps: it returns, and the command has failed. -/
theorem told_that_memory_is_gone :
    ∃ d reason, Looping (.returned (.corrupt reason)) d ∧ lonely.pending = [⟨1, 0⟩]
      ∧ d.pending = [] := by
  have hgone : lonely.pending = [⟨1, 0⟩]
      ∧ (Dispatcher.step ⟨#[], 0⟩ (.pumping, lonely)).1
        = .returned (.corrupt (.outsideRegion 4 Mailbox.headOffset 0)) := by
    decide
  have hloop := looping_lonely.step ⟨#[], 0⟩
  rw [hgone.2] at hloop
  rcases told_unless_line_failed hloop with ⟨_, _, _, _, _, _, _, _, hnobody, _⟩ | ⟨fault, _, _, he, _⟩
  · exact ⟨_, _, hloop, hgone.1, hnobody⟩
  · exact Error.noConfusion he

set_option maxRecDepth 10000 in
/-- The line fails after the first pump: the loop returns, and the command is still pending. -/
theorem left_by_failing_line : ¬ ∀ e d, Looping (.returned e) d → d.pending = [] := by
  intro h
  have hfailed : (Dispatcher.step Session.smallRing
        (Dispatcher.step Session.smallRing (.pumping, lonely))).1 = .returned Doorbell.broken
      ∧ (Dispatcher.step Session.smallRing
        (Dispatcher.step Session.smallRing (.pumping, lonely))).2.pending ≠ [] := by
    decide
  have hloop := (looping_lonely.step Session.smallRing).step Session.smallRing
  rw [hfailed.1] at hloop
  exact hfailed.2 (h _ _ hloop)

end CommandRing.Dispatcher
