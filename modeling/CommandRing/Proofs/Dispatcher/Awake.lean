import CommandRing.Dispatcher.Station
import CommandRing.Proofs.Dispatcher.Frame
import CommandRing.Proofs.Driver.Poison
import CommandRing.Proofs.Exchange.Delivery
import CommandRing.Proofs.Exchange.WholeDrain

/-!
# The loop does not sleep on a response

A signal that comes while the loop pumps is not lost, because it leaves a permit and the next wait is over at
once. A signal that comes before the pump is not lost either, because the pump takes everything that can be seen.
So a loop that is parked without a permit has pumped since the latest signal, and whatever was answered by then
is drained.

`InOrder` is the invariant. The station and its kernel are an `Exchange` in agreement, with the users of the
dispatcher in the place of a single user, so what a pump sees is known. Of the responses that were drained none
has its command pending: the ids on the pending list are in flight, and handles are told apart by their tickets.

A driver that once met a corruption keeps it on record, so a driver without one has never met any, and that is
all that is asked of the mailbox.
-/

namespace CommandRing

namespace Dispatcher

variable {d : Dispatcher} {memory : Region}

/-! ## A driver that met a corruption -/

/-- A driver with a corruption on record is left as it is. -/
theorem act_poisoned {reason : Corruption} (h : d.driver.poison = some reason) (memory : Region) (a : Act) :
    (d.act memory a).2.1.driver = d.driver := by
  by_cases hsubmit : ∃ command, a = .submit command
  · obtain ⟨command, rfl⟩ := hsubmit
    unfold act submit
    dsimp only
    rw [Driver.submit_poisoned h]
    dsimp only
    obtain ⟨_, _, hr⟩ := failAll_eq d (Driver.refusal d.driver.layout reason command)
    rw [hr]
  · by_cases hpump : a = .pump
    · subst hpump
      obtain ⟨_, _, hr⟩ := pump_eq d memory
      rw [dispatcher_pump, hr, Driver.pollTake_failed (Driver.poll_poisoned h memory)]
    · obtain ⟨_, _, _, _, hr⟩ := d.act_quiet memory (fun c hc => hsubmit ⟨c, hc⟩) hpump
      rw [hr]

/-- A driver that trusts the memory after an act did so before it. -/
theorem trusting_of_act {a : Act} (h : (d.act memory a).2.1.driver.poison = none) :
    d.driver.poison = none := by
  cases hp : d.driver.poison with
  | none => rfl
  | some reason =>
      rw [act_poisoned hp, hp] at h
      exact absurd h (by simp)

end Dispatcher

namespace Station

variable {start : Nat} {s : Station}

/-! ## A station is an exchange -/

/-- What the driver's calls answered, whoever made them, in some order. -/
def history (s : Station) : List Reply :=
  s.submitted.map (fun h => .submitted h.id) ++ s.drained.map .yielded

theorem submittedIds_history (s : Station) :
    Session.submittedIds s.history = s.submitted.map Handle.id := by
  unfold history
  rw [Session.submittedIds_append_yielded]
  unfold Session.submittedIds
  simp [List.filterMap_map]

theorem yielded_history (s : Station) : Session.yielded s.history = s.drained := by
  have hnone : Session.yielded (s.submitted.map fun h => .submitted h.id) = [] := by
    unfold Session.yielded
    simp [List.filterMap_map]
  unfold history
  rw [Session.yielded_append_yielded, hnone, List.nil_append]

/-- The driver and its kernel by themselves. -/
def exchange (s : Station) : Exchange where
  session := Session.idle s.dispatcher.driver
  memory := s.memory
  kernel := s.kernel
  replies := s.history
  answers := s.answers.map Prod.snd
  passed := s.passed

theorem published_eq (s : Station) : s.exchange.published = s.submitted.map Handle.id :=
  submittedIds_history s

theorem yielded_eq (s : Station) : s.exchange.yielded = s.drained := yielded_history s

/-! ## What an act and a step of the loop change -/

theorem exchange_perform (s : Station) (a : Act) {driver : Driver} {memory : Region}
    (hdriver : (s.dispatcher.act s.memory a).2.1.driver = driver)
    (hmemory : (s.dispatcher.act s.memory a).2.2 = memory) :
    (s.perform a).exchange = { s.exchange with
      session := Session.idle driver, memory := memory, replies := (s.perform a).history } := by
  subst hdriver
  subst hmemory
  rfl

theorem submittedIds_perform (s : Station) (a : Act) : Session.submittedIds (s.perform a).history
    = s.submitted.map Handle.id ++ (s.dispatcher.act s.memory a).1.given.map Handle.id := by
  rw [submittedIds_history, ← List.map_append]
  rfl

theorem yielded_perform (s : Station) (a : Act) : Session.yielded (s.perform a).history
    = s.drained ++ s.dispatcher.drainedBy s.memory a := by
  rw [yielded_history]
  rfl

/-- A step that pumps is a pump. -/
theorem loop_pumping (hphase : s.phase = .pumping) :
    ∃ phase, s.loop = { s.perform .pump with phase := phase } := by
  have hstep : (Dispatcher.step s.memory (s.phase, s.dispatcher)).2
      = (s.dispatcher.act s.memory .pump).2.1 := by
    rw [hphase, Dispatcher.step_pumping, Dispatcher.dispatcher_pump]
  refine ⟨(Dispatcher.step s.memory (s.phase, s.dispatcher)).1, ?_⟩
  unfold Station.loop Station.perform
  dsimp only
  rw [hstep, if_pos hphase, s.dispatcher.memory_pump, Dispatcher.given_pump, List.append_nil]

/-- A step that waits concerns the line alone. -/
theorem loop_waiting (hphase : s.phase = .waiting) : s.loop = { s with
    phase := Dispatcher.afterWait s.dispatcher.bell.wait.1
    dispatcher := { s.dispatcher with bell := s.dispatcher.bell.wait.2 } } := by
  unfold Station.loop
  rw [hphase, if_neg (by simp), List.append_nil]
  rfl

theorem loop_returned {e : Error} (hphase : s.phase = .returned e) : s.loop = s := by
  unfold Station.loop
  rw [hphase, if_neg (by simp), List.append_nil]
  dsimp only [Dispatcher.step]
  rw [← hphase]

/-- A wait that goes on leaves the line as it is. -/
theorem wait_goes_on {bell : Doorbell} (h : Dispatcher.afterWait bell.wait.1 = .waiting) :
    bell.wait.2 = bell := by
  unfold Doorbell.wait at h ⊢
  cases hwiring : bell.wiring with
  | polled => rfl
  | waitFails => rfl
  | signalled =>
      rw [hwiring] at h
      cases hpermit : bell.permit with
      | false => rfl
      | true =>
          rw [hpermit] at h
          exact LoopPhase.noConfusion h
  | ringFails =>
      rw [hwiring] at h
      cases hpermit : bell.permit with
      | false => rfl
      | true =>
          rw [hpermit] at h
          exact LoopPhase.noConfusion h

/-! ## In order -/

/-- What a station keeps while the mailbox is not found corrupt. -/
structure InOrder (start : Nat) (s : Station) : Prop where
  agrees : Exchange.Agrees start s.exchange
  keyed : WellKeyed s.dispatcher.pending
  /-- A ticket is used once. -/
  tickets : ∀ h ∈ s.submitted, h.ticket < s.dispatcher.nextTicket
  /-- A submission is answered once. -/
  once : (s.answers.map Prod.fst).Nodup
  known : ∀ p ∈ s.answers, p.1 ∈ s.submitted
  named : ∀ p ∈ s.answers, p.2.id = p.1.id
  /-- Nobody waits for what was drained. -/
  settled : ∀ p ∈ s.answers.take s.drained.length, p.1 ∉ s.dispatcher.pending
  signalled_le : s.signalled ≤ s.passed
  parked : s.phase = .waiting → s.dispatcher.bell.permit = false → s.signalled ≤ s.drained.length

namespace InOrder

theorem sound (h : InOrder start s) : s.dispatcher.Sound := ⟨h.agrees.inStep.sound, h.keyed⟩

theorem drained_first (h : InOrder start s) : s.drained <+: s.answers.map Prod.snd := by
  have hfirst := h.agrees.yielded_first
  rw [yielded_eq] at hfirst
  exact hfirst

theorem drained_le (h : InOrder start s) : s.drained.length ≤ s.answers.length := by
  have hle := h.drained_first.length_le
  rwa [List.length_map] at hle

/-! ## Starting -/

theorem opened {layout : Layout} {memory : Region} {e : Exchange} (bell : Doorbell)
    (h : Exchange.attach layout memory = .ok e) : ∃ start, InOrder start (opened e bell) := by
  obtain ⟨start, hagrees⟩ := Exchange.Agrees.attached h
  refine ⟨start, ?_, List.nodup_nil, ?_, List.nodup_nil, ?_, ?_, ?_, Nat.le_refl _, ?_⟩
  · obtain ⟨d, _, rfl⟩ := Exchange.attach_eq_ok h
    exact hagrees
  · intro x hx
    exact absurd hx List.not_mem_nil
  · intro p hp
    exact absurd hp List.not_mem_nil
  · intro p hp
    exact absurd hp List.not_mem_nil
  · intro p _
    exact List.not_mem_nil
  · intro _ _
    exact Nat.le_refl _

/-! ## Acts -/

/-- What an act does to the driver can be read off the exchange that it leaves. -/
theorem agrees_of_replies {a : Act} {driver : Driver} {memory : Region} {replies : List Reply}
    (h : Exchange.Agrees start { s.exchange with
      session := Session.idle driver, memory := memory, replies := replies })
    (hdriver : (s.dispatcher.act s.memory a).2.1.driver = driver)
    (hmemory : (s.dispatcher.act s.memory a).2.2 = memory)
    (hpublished : Session.submittedIds replies
      = s.submitted.map Handle.id ++ (s.dispatcher.act s.memory a).1.given.map Handle.id)
    (hyielded : Session.yielded replies = s.drained ++ s.dispatcher.drainedBy s.memory a) :
    Exchange.Agrees start (s.perform a).exchange := by
  rw [exchange_perform s a hdriver hmemory]
  refine h.of_replies ?_ ?_
  · rw [submittedIds_perform]
    exact hpublished.symm
  · rw [yielded_perform]
    exact hyielded.symm

/-- A submit is a submit of the driver. -/
theorem agrees_submit (h : InOrder start s) (command : Command) :
    Exchange.Agrees start (s.perform (.submit command)).exchange := by
  have hcall : Exchange.Agrees start (s.exchange.call (.submit command)) := by
    rcases h.agrees.submit command with ⟨_, _, _, hagrees⟩ | ⟨_, _, _, hagrees⟩
    · exact hagrees
    · exact hagrees
  rcases hr : s.dispatcher.driver.submit s.memory command with ⟨e | id, driver, memory⟩
  · have hc : s.exchange.session.call s.exchange.memory (.submit command)
        = (.failed e, Session.idle driver, memory) := by
      unfold Session.call exchange Session.idle
      dsimp only
      rw [hr]
    have hact : s.dispatcher.act s.memory (.submit command)
        = (.failed e, { s.dispatcher with driver := driver }.failAll e, memory) := by
      unfold Dispatcher.act Dispatcher.submit
      dsimp only
      rw [hr]
    obtain ⟨_, _, hfailed⟩ := Dispatcher.failAll_eq { s.dispatcher with driver := driver } e
    rw [Exchange.Agrees.call_eq hc] at hcall
    refine agrees_of_replies hcall ?_ ?_ ?_ ?_
    · rw [hact, hfailed]
    · rw [hact]
    · rw [hact, Session.submittedIds_snoc_of_nil rfl]
      exact (submittedIds_history s).trans (List.append_nil _).symm
    · rw [Session.yielded_snoc_of_nil rfl]
      exact (yielded_history s).trans (List.append_nil _).symm
  · have hc : s.exchange.session.call s.exchange.memory (.submit command)
        = (.submitted id, Session.idle driver, memory) := by
      unfold Session.call exchange Session.idle
      dsimp only
      rw [hr]
    have hact : (s.dispatcher.act s.memory (.submit command)).1
          = .submitted ⟨id, s.dispatcher.nextTicket⟩
        ∧ (s.dispatcher.act s.memory (.submit command)).2.1.driver = driver
        ∧ (s.dispatcher.act s.memory (.submit command)).2.2 = memory := by
      unfold Dispatcher.act Dispatcher.submit
      dsimp only
      rw [hr]
      exact ⟨rfl, rfl, rfl⟩
    rw [Exchange.Agrees.call_eq hc] at hcall
    refine agrees_of_replies hcall hact.2.1 hact.2.2 ?_ ?_
    · rw [hact.1, Session.submittedIds_snoc]
      exact congrArg (· ++ [id]) (submittedIds_history s)
    · rw [Session.yielded_snoc_of_nil rfl]
      exact (yielded_history s).trans (List.append_nil _).symm

/-- **A pump takes what can be seen**, unless it finds the mailbox corrupt. -/
theorem agrees_pump (h : InOrder start s)
    (htrusting : (s.perform .pump).dispatcher.driver.poison = none) :
    Exchange.Agrees start (s.perform .pump).exchange
      ∧ (s.perform .pump).drained.length = s.exchange.seen := by
  obtain ⟨_, _, hpump⟩ := s.dispatcher.pump_eq s.memory
  have hdriver : (s.dispatcher.act s.memory .pump).2.1.driver
      = (s.dispatcher.driver.pollTake s.memory none).2 := by
    rw [Dispatcher.dispatcher_pump, hpump]
  have hmemory := s.dispatcher.memory_pump s.memory
  by_cases ht : s.exchange.Torn
  · refine absurd ?_ (h.agrees.poisoned_of_torn ht)
    rw [← htrusting]
    exact congrArg Driver.poison hdriver.symm
  · obtain ⟨taken, driver, htaken, hseen, hagrees⟩ := h.agrees.pollTake_all ht
    change s.dispatcher.driver.pollTake s.memory none = _ at htaken
    have hdrained : s.dispatcher.drainedBy s.memory .pump = taken := by
      rw [← List.append_nil (taken.map _)] at htaken
      rw [Dispatcher.drainedBy_of_taken htaken]
      exact List.append_nil taken
    rw [htaken] at hdriver
    refine ⟨agrees_of_replies hagrees hdriver hmemory ?_ ?_, ?_⟩
    · rw [Session.submittedIds_append_yielded, Dispatcher.given_pump]
      exact (submittedIds_history s).trans (List.append_nil _).symm
    · rw [Session.yielded_append_yielded, hdrained]
      exact congrArg (· ++ taken) (yielded_history s)
    · rw [yielded_eq] at hseen
      show (s.drained ++ s.dispatcher.drainedBy s.memory .pump).length = _
      rw [hdrained, List.length_append, hseen]

/-- Other acts leave the exchange alone. -/
theorem agrees_quiet (h : InOrder start s) {a : Act} (hsubmit : ∀ command, a ≠ .submit command)
    (hpump : a ≠ .pump) : Exchange.Agrees start (s.perform a).exchange := by
  obtain ⟨hgiven, hdrained, _, _, hr⟩ := s.dispatcher.act_quiet s.memory hsubmit hpump
  refine agrees_of_replies h.agrees ?_ ?_ ?_ ?_
  · rw [hr]
  · rw [hr]
  · rw [hgiven]
    exact (submittedIds_history s).trans (List.append_nil _).symm
  · rw [hdrained]
    exact (yielded_history s).trans (List.append_nil _).symm

theorem agrees_perform (h : InOrder start s) (a : Act)
    (htrusting : (s.perform a).dispatcher.driver.poison = none) :
    Exchange.Agrees start (s.perform a).exchange := by
  by_cases hsubmit : ∃ command, a = .submit command
  · obtain ⟨command, rfl⟩ := hsubmit
    exact h.agrees_submit command
  · by_cases hpump : a = .pump
    · subst hpump
      exact (h.agrees_pump htrusting).1
    · exact h.agrees_quiet (fun c hc => hsubmit ⟨c, hc⟩) hpump

/-- What is drained next is what was answered next. -/
theorem mem_take_append {answers : List (Handle × Response)} {old new : List Response}
    (h : old ++ new <+: answers.map Prod.snd) {p : Handle × Response}
    (hp : p ∈ answers.take (old ++ new).length) : p ∈ answers.take old.length ∨ p.2 ∈ new := by
  obtain ⟨rest, hrest⟩ := h
  rw [List.length_append, List.take_add] at hp
  rcases List.mem_append.mp hp with hold | hnew
  · exact Or.inl hold
  · have hsnd : ((answers.drop old.length).take new.length).map Prod.snd = new := by
      rw [List.map_take, List.map_drop, ← hrest, List.append_assoc, List.drop_left, List.take_left]
    refine Or.inr ?_
    rw [← hsnd]
    exact List.mem_map_of_mem hnew

/-- **Every act keeps a station in order**, unless it finds the mailbox corrupt. -/
theorem perform (h : InOrder start s) (a : Act)
    (htrusting : (s.perform a).dispatcher.driver.poison = none) : InOrder start (s.perform a) := by
  have hagrees := h.agrees_perform a htrusting
  have hentry := Dispatcher.entry_act h.sound s.memory a
  obtain ⟨hpermit, hlater, hticket⟩ := s.dispatcher.act_frame s.memory a
  have hfirst : s.drained ++ s.dispatcher.drainedBy s.memory a <+: s.answers.map Prod.snd := by
    have hfirst := hagrees.yielded_first
    rw [yielded_eq] at hfirst
    exact hfirst
  have hnew : ∀ x ∈ (s.dispatcher.act s.memory a).1.given, x ∉ s.submitted := by
    intro x hx hold
    have hlt := h.tickets x hold
    have hnext := (hticket x hx).1
    omega
  refine ⟨hagrees, (h.sound.change (.acted s.memory a)).keyed, ?_, h.once, ?_, h.named, ?_,
    h.signalled_le, ?_⟩
  · intro x hx
    change x ∈ s.submitted ++ (s.dispatcher.act s.memory a).1.given at hx
    show x.ticket < (s.dispatcher.act s.memory a).2.1.nextTicket
    rcases List.mem_append.mp hx with hold | hgiven
    · exact Nat.lt_of_lt_of_le (h.tickets x hold) hlater
    · exact (hticket x hgiven).2
  · intro p hp
    exact List.mem_append_left _ (h.known p hp)
  · intro p hp hpending
    obtain ⟨hfrom, hwaits⟩ := hentry.pending p.1 hpending
    have hmem : p ∈ s.answers := List.mem_of_mem_take hp
    have hold : p.1 ∈ s.dispatcher.pending := by
      rcases hfrom with hgiven | hold
      · exact absurd (h.known p hmem) (hnew p.1 hgiven)
      · exact hold
    rcases mem_take_append hfirst hp with hbefore | hdrained
    · exact h.settled p hbefore hold
    · refine hwaits ?_
      rw [← h.named p hmem]
      exact List.mem_map_of_mem hdrained
  · intro hphase hnone
    have hparked := h.parked hphase (hpermit.symm.trans hnone)
    show s.signalled ≤ (s.drained ++ _).length
    rw [List.length_append]
    omega

/-! ## The loop -/

/-- What concerns the loop and the line alone. -/
theorem of_line (h : InOrder start s) {phase : LoopPhase} {bell : Doorbell} {signalled : Nat}
    (hle : signalled ≤ s.passed)
    (hparked : phase = .waiting → bell.permit = false → signalled ≤ s.drained.length) :
    InOrder start { s with
      phase := phase, dispatcher := { s.dispatcher with bell := bell }, signalled := signalled } :=
  ⟨h.agrees, h.keyed, h.tickets, h.once, h.known, h.named, h.settled, hle, hparked⟩

theorem passed_le_seen (h : InOrder start s) : s.passed ≤ s.exchange.seen := by
  have hle := h.agrees.passed_le
  unfold Exchange.seen
  split
  · exact hle
  · exact Nat.le_refl _

/-- **Every step of the loop keeps a station in order**, unless it finds the mailbox corrupt. -/
theorem loop (h : InOrder start s) (htrusting : s.loop.dispatcher.driver.poison = none) :
    InOrder start s.loop := by
  have hsignalled := h.signalled_le
  cases hphase : s.phase with
  | pumping =>
      obtain ⟨phase, hloop⟩ := loop_pumping hphase
      rw [hloop] at htrusting ⊢
      have hpassed := h.passed_le_seen
      have hdrained := (h.agrees_pump htrusting).2
      refine (h.perform .pump htrusting).of_line hsignalled ?_
      -- the pump has seen all that was answered by now, and so by the latest signal
      intro _ _
      show s.signalled ≤ (s.perform .pump).drained.length
      omega
  | waiting =>
      rw [loop_waiting hphase]
      refine h.of_line hsignalled ?_
      intro hwaiting hnone
      rw [wait_goes_on hwaiting] at hnone
      exact h.parked hphase hnone
  | returned e =>
      rw [loop_returned hphase]
      exact h

/-! ## The kernel and the line -/

theorem signal (h : InOrder start s) : InOrder start s.signal := by
  refine h.of_line (Nat.le_refl _) ?_
  -- there is a permit now
  intro _ hnone
  exact Bool.noConfusion hnone

theorem wake (h : InOrder start s) : InOrder start s.wake := by
  refine h.of_line (Nat.le_refl _) ?_
  intro hwaiting _
  exact LoopPhase.noConfusion hwaiting

/-- A submission without an answer is one that the kernel may answer. -/
theorem awaits (h : InOrder start s) {x : Handle} (hx : x ∈ s.submitted)
    (hfirst : x ∉ s.answers.map Prod.fst) : s.exchange.Awaits x.id := by
  have hsubset : x :: s.answers.map Prod.fst ⊆ s.submitted := by
    intro y hy
    rcases List.mem_cons.mp hy with rfl | hy
    · exact hx
    · obtain ⟨p, hp, rfl⟩ := List.mem_map.mp hy
      exact h.known p hp
  obtain ⟨known, hperm, hsublist⟩ :=
    List.subperm_of_subset (List.nodup_cons.mpr ⟨hfirst, h.once⟩) hsubset
  have hcount := (hsublist.map Handle.id).count_le x.id
  rw [(hperm.map Handle.id).count_eq, List.map_cons, List.count_cons_self] at hcount
  have hnamed : s.exchange.answers.map Response.id = (s.answers.map Prod.fst).map Handle.id := by
    show (s.answers.map Prod.snd).map Response.id = _
    rw [List.map_map, List.map_map]
    exact List.map_congr_left h.named
  unfold Exchange.Awaits
  rw [hnamed, published_eq]
  exact hcount

theorem write (h : InOrder start s) {x : Handle} (hx : x ∈ s.submitted)
    (hfirst : x ∉ s.answers.map Prod.fst) (hpassed : s.passed = s.answers.length) (status : UInt8)
    (sense : Bytes) : InOrder start (s.write x status sense) := by
  have hpassed' : s.exchange.passed = s.exchange.answers.length := by
    show s.passed = (s.answers.map Prod.snd).length
    rw [List.length_map]
    exact hpassed
  obtain ⟨slot, hfill, _, _, hoverwrite, hwrite⟩ := h.agrees.write_eq hpassed' x.id status sense
  have hagrees := (h.agrees.write (h.awaits hx hfirst) hpassed' status sense).2
  have hlayout : s.kernel.layout = s.dispatcher.driver.layout := by
    have hkernel := congrArg Kernel.layout h.agrees.kernel
    exact hkernel
  change s.kernel.fill x.id { status := status, sense := sense } = .ok slot at hfill
  change s.kernel.overwrite s.memory slot = _ at hoverwrite
  have hle := h.drained_le
  unfold Station.write
  rw [hfill]
  dsimp only
  rw [hoverwrite]
  dsimp only
  refine ⟨?_, h.keyed, h.tickets, ?_, ?_, ?_, ?_, h.signalled_le, h.parked⟩
  · rw [hwrite] at hagrees
    unfold exchange at hagrees ⊢
    dsimp only at hagrees ⊢
    rw [List.map_append, hlayout]
    exact hagrees
  · rw [List.map_append, List.map_singleton, List.nodup_append]
    refine ⟨h.once, List.nodup_singleton _, ?_⟩
    intro y hy z hz he
    rw [he, List.mem_singleton.mp hz] at hy
    exact hfirst hy
  · intro p hp
    rcases List.mem_append.mp hp with hold | hnew
    · exact h.known p hold
    · rw [List.mem_singleton.mp hnew]
      exact hx
  · intro p hp
    rcases List.mem_append.mp hp with hold | hnew
    · exact h.named p hold
    · rw [List.mem_singleton.mp hnew]
      rfl
  · intro p hp
    rw [List.take_append_of_le_length hle] at hp
    exact h.settled p hp

theorem advance (h : InOrder start s) (hpassed : s.passed < s.answers.length) :
    InOrder start s.advance := by
  have hlt : s.exchange.passed < s.exchange.answers.length := by
    show s.passed < (s.answers.map Prod.snd).length
    rw [List.length_map]
    exact hpassed
  have hsignalled := h.signalled_le
  exact ⟨h.agrees.advance hlt, h.keyed, h.tickets, h.once, h.known, h.named, h.settled,
    Nat.le_succ_of_le hsignalled, h.parked⟩

end InOrder

/-- A driver that trusts the memory after a step of the loop did so before it. -/
theorem trusting_of_loop (h : s.loop.dispatcher.driver.poison = none) :
    s.dispatcher.driver.poison = none := by
  cases hphase : s.phase with
  | pumping =>
      obtain ⟨phase, hloop⟩ := loop_pumping hphase
      rw [hloop] at h
      change (s.dispatcher.act s.memory .pump).2.1.driver.poison = none at h
      exact Dispatcher.trusting_of_act h
  | waiting =>
      rw [loop_waiting hphase] at h
      exact h
  | returned e =>
      rw [loop_returned hphase] at h
      exact h

theorem dispatcher_write (s : Station) (x : Handle) (status : UInt8) (sense : Bytes) :
    (s.write x status sense).dispatcher = s.dispatcher := by
  unfold write
  split
  · rfl
  · split <;> rfl

/-- **A station is in order as long as the mailbox is not found corrupt**, by induction on what has happened. -/
theorem inOrder_of_reachable (h : Reachable s) (htrusting : s.dispatcher.driver.poison = none) :
    ∃ start, InOrder start s := by
  induction h with
  | opened bell hattach => exact InOrder.opened bell hattach
  | looped _ ih =>
      obtain ⟨start, h⟩ := ih (trusting_of_loop htrusting)
      exact ⟨start, h.loop htrusting⟩
  | performed a _ ih =>
      obtain ⟨start, h⟩ := ih (Dispatcher.trusting_of_act htrusting)
      exact ⟨start, h.perform a htrusting⟩
  | wrote x status sense _ hx hfirst hpassed ih =>
      rw [dispatcher_write] at htrusting
      obtain ⟨start, h⟩ := ih htrusting
      exact ⟨start, h.write hx hfirst hpassed status sense⟩
  | moved _ hpassed ih =>
      obtain ⟨start, h⟩ := ih htrusting
      exact ⟨start, h.advance hpassed⟩
  | signalled _ ih =>
      obtain ⟨start, h⟩ := ih htrusting
      exact ⟨start, h.signal⟩
  | woken _ _ _ ih =>
      obtain ⟨start, h⟩ := ih htrusting
      exact ⟨start, h.wake⟩

/--
**The loop does not sleep on a response.** Whatever has happened, if the loop is parked in its wait without a
permit, and the mailbox was never found corrupt, then every response that the kernel had answered at its latest
signal is drained, and nobody waits for the command that it answers.
-/
theorem drained_before_sleep (h : Reachable s) (htrusting : s.dispatcher.driver.poison = none)
    (hparked : s.phase = .waiting) (hnone : s.dispatcher.bell.permit = false) :
    s.signalled ≤ s.passed ∧ s.passed ≤ s.answers.length
      ∧ (s.answers.take s.signalled).map Prod.snd <+: s.drained
      ∧ ∀ p ∈ s.answers.take s.signalled, p.1 ∉ s.dispatcher.pending := by
  obtain ⟨start, hs⟩ := inOrder_of_reachable h htrusting
  have hsignalled := hs.parked hparked hnone
  have hpassed := hs.agrees.passed_le
  have hdrained := List.prefix_iff_eq_take.mp hs.drained_first
  refine ⟨hs.signalled_le, ?_, ?_, ?_⟩
  · show s.passed ≤ _
    rw [← List.length_map (f := Prod.snd)]
    exact hpassed
  · rw [hdrained, List.map_take]
    exact List.take_prefix_take_left hsignalled
  · intro p hp
    exact hs.settled p (List.take_subset_take_left _ hsignalled hp)

/-- One command, answered before the loop takes its first step. -/
def answeredOnce : Station :=
  (((opened Exchange.small {}).perform (.submit Command.testUnitReady)).write ⟨1, 0⟩ 0 []).advance

/-- The signal that follows it makes the loop pump twice. -/
def rested : Station := answeredOnce.signal.loop.loop.loop

set_option maxRecDepth 10000 in
theorem reachable_rested : Reachable rested := by
  have hsubmitted : Reachable ((opened Exchange.small {}).perform (.submit Command.testUnitReady)) :=
    .performed _ (.opened {} Exchange.attach_small)
  have hwritten := hsubmitted.wrote ⟨1, 0⟩ 0 [] (by decide) (by decide) (by decide)
  have hmoved := hwritten.moved (by decide)
  exact hmoved.signalled.looped.looped.looped

set_option maxRecDepth 10000 in
theorem drained_before_rest :
    Reachable rested ∧ (rested.phase = .waiting ∧ rested.dispatcher.bell.permit = false)
      ∧ (rested.signalled = 1 ∧ rested.answers.map Prod.fst = [⟨1, 0⟩])
      ∧ (rested.answers.take 1).map Prod.snd <+: rested.drained
      ∧ ∀ p ∈ rested.answers.take 1, p.1 ∉ rested.dispatcher.pending := by
  have hfound : (rested.dispatcher.driver.poison = none
        ∧ rested.phase = .waiting ∧ rested.dispatcher.bell.permit = false)
      ∧ rested.signalled = 1 ∧ rested.answers.map Prod.fst = [⟨1, 0⟩] := by
    decide
  obtain ⟨⟨htrusting, hparked, hnone⟩, hsignalled, hanswers⟩ := hfound
  obtain ⟨_, _, hdrained, hpending⟩ := drained_before_sleep reachable_rested htrusting hparked hnone
  rw [hsignalled] at hdrained hpending
  exact ⟨reachable_rested, ⟨hparked, hnone⟩, ⟨hsignalled, hanswers⟩, hdrained, hpending⟩

end Station

end CommandRing
