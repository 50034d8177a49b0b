import CommandRing.Proofs.Dispatcher.Tickets
import CommandRing.Proofs.Driver.Poison
import Mathlib.Logic.Relation

/-!
# What a corruption does to those who wait

A pump that meets a corruption has handed over the responses in front of it already, and fails whoever is pending
then. So the commands that were pending before are split by the drain: those whose ids were drained have their
response, and all others have the corruption. A pump whose poll fails drains nothing, and neither does a submit, so
there everybody gets the corruption.

It is the end of the dispatcher as well, because the driver is poisoned by then. Whoever calls it directly cannot
heal it, a poisoned driver publishes nothing, and so nobody waits ever again. What is on record stays there.
-/

namespace CommandRing

/-- **Poison stays**, whatever is called, and whoever holds a drain. -/
theorem Session.poison_call {s : Session} (h : s.driver.Sound) (hp : s.driver.poison ≠ none)
    (memory : Region) (c : Call) : (s.call memory c).2.1.driver.poison ≠ none := by
  obtain ⟨reason, hreason⟩ := Option.ne_none_iff_exists'.mp hp
  cases c with
  | submit command =>
      unfold call
      dsimp only
      rw [Driver.submit_poisoned hreason]
      exact hp
  | poll =>
      unfold call
      dsimp only
      rw [Driver.poll_poisoned hreason]
      exact hp
  -- a drain that was begun before may go on
  | next =>
      unfold call
      dsimp only
      rcases h.next_cases memory s.drain with ⟨_, hr⟩ | ⟨r, _, _, _, _, hr⟩ | ⟨e, _, _, hconsume, hr⟩
      · rw [hr]
        exact hp
      · rw [hr]
        exact hp
      · obtain ⟨found, rfl⟩ := h.consume_error hconsume
        rw [hr]
        exact Driver.poison_poisonedBy_ne_none s.driver found
  | reset =>
      unfold call
      dsimp only
      rw [Driver.reset_poisoned hreason]
      exact hp

namespace Dispatcher

variable {given : List Handle} {d d' d'' : Dispatcher} {memory : Region} {reason : Corruption}

/-! ## Nobody waits ever again -/

/-- Nobody waits, and the driver does not work any more. -/
structure Closed (d : Dispatcher) : Prop where
  poisoned : d.driver.poison ≠ none
  pending : d.pending = []

theorem Closed.failAll (h : d.Closed) (e : Error) : d.failAll e = d := by
  have hsame : { d with pending := [] } = d := by
    rw [← h.pending]
  rcases failAll_cases d e with ⟨reason, _, hr⟩ | ⟨_, hr⟩
  -- there is nobody to fail
  · rw [hr, h.pending]
    exact hsame
  · exact hr

/-- **No act changes anything then.** -/
theorem Closed.act (h : d.Closed) (memory : Region) (a : Act) : (d.act memory a).2.1 = d := by
  obtain ⟨reason, hreason⟩ := Option.ne_none_iff_exists'.mp h.poisoned
  have hnobody : ∀ x, x ∉ d.pending := by
    intro x hx
    rw [h.pending] at hx
    exact List.not_mem_nil hx
  cases a with
  | submit command =>
      rw [dispatcher_submit]
      unfold submit
      rw [Driver.submit_poisoned hreason]
      exact h.failAll (Driver.refusal d.driver.layout reason command)
  | pump =>
      rw [dispatcher_pump]
      unfold pump
      rw [Driver.pollTake_failed (Driver.poll_poisoned hreason memory)]
      exact h.failAll (.corrupt reason)
  | cancel id =>
      have hnone : d.waiter? id = none := by
        rw [waiter?_eq_none, h.pending]
        exact List.not_mem_nil
      unfold Dispatcher.act
      dsimp only
      unfold cancel
      rw [hnone]
  | look x =>
      unfold Dispatcher.act
      dsimp only
      split <;> rfl
  | expire x => exact congrArg Prod.fst ((d.removes_itself memory (Or.inl rfl)).2 (hnobody x)).1
  | giveUp x => exact congrArg Prod.fst ((d.removes_itself memory (Or.inr rfl)).2 (hnobody x)).1

theorem Closed.change (h : d.Closed) (hs : d.Sound) (hc : Change d d') :
    d'.Closed ∧ d'.settled = d.settled := by
  cases hc with
  | acted memory a =>
      rw [h.act memory a]
      exact ⟨h, rfl⟩
  | called drain memory c =>
      exact ⟨⟨Session.poison_call (s := ⟨d.driver, drain⟩) hs.driver h.poisoned memory c, h.pending⟩, rfl⟩
  | signalled bell => exact ⟨⟨h.poisoned, h.pending⟩, rfl⟩

/-- **A dispatcher that is closed stays so, and its record is final**, by induction on what is done to it. -/
theorem Closed.forGood (h : d.Closed) (hr : Reachable d) (hc : Relation.ReflTransGen Change d d') :
    d'.Closed ∧ Reachable d' ∧ d'.settled = d.settled := by
  induction hc with
  | refl => exact ⟨h, hr, rfl⟩
  | tail _ hstep ih =>
      obtain ⟨hclosed, hreachable, hsettled⟩ := ih
      obtain ⟨hclosed', hsame⟩ := hclosed.change (sound_of_reachable hreachable) hstep
      exact ⟨hclosed', hreachable.changed hstep, hsame.trans hsettled⟩

/-! ## The outcome of everybody else -/

/-- Nobody has an outcome before the command is settled. -/
theorem Ticketed.outcome_of_pending (h : Ticketed given d) {x : Handle} (hx : x ∈ d.pending) :
    d.outcome? x = none := by
  unfold outcome?
  rcases hlookup : d.settled.lookup x with _ | outcome
  · dsimp only
    rw [if_pos hx]
  · exact absurd hx (h.settled _ (mem_of_lookup hlookup)).2

theorem outcome_of_lookup {x : Handle} {outcome : Outcome} (h : d.settled.lookup x = some outcome) :
    d.outcome? x = some outcome := by
  unfold outcome?
  rw [h]

/-- Where nobody waits, outcomes are read off the record. -/
theorem outcome_eq_of_nobody (h : d.pending = []) (h' : d'.pending = []) {x : Handle}
    (hsettled : d'.settled.lookup x = d.settled.lookup x) : d'.outcome? x = d.outcome? x := by
  unfold outcome?
  rw [hsettled, h, h']

theorem Settles.lookup_of_kept {new : List (Handle × Outcome)} (h : Settles d d' new) {x : Handle}
    (hx : x ∉ d.pending) : d'.settled.lookup x = d.settled.lookup x := by
  rw [h.settled, List.lookup_append]
  rcases hlookup : new.lookup x with _ | outcome
  · rfl
  · have hnew : x ∈ new.map Prod.fst := List.mem_map_of_mem (mem_of_lookup hlookup)
    exact absurd (h.pending.subset (List.mem_append_left _ hnew)) hx

theorem Settles.lookup_of_new {new : List (Handle × Outcome)} (h : Settles d d' new) {x : Handle}
    (hx : x ∈ new.map Prod.fst) : ∃ outcome, (x, outcome) ∈ new ∧ d'.settled.lookup x = some outcome := by
  rcases hlookup : new.lookup x with _ | outcome
  · exact absurd hlookup (lookup_ne_none hx)
  · refine ⟨outcome, mem_of_lookup hlookup, ?_⟩
    rw [h.settled, List.lookup_append, hlookup]
    rfl

/-- Whoever has an outcome keeps it, whoever else is settled. -/
theorem Settles.outcome_of_kept {new : List (Handle × Outcome)} (h : Settles d d' new)
    (ht : Ticketed given d) {x : Handle} {outcome : Outcome} (hx : d.outcome? x = some outcome) :
    d'.outcome? x = some outcome := by
  have hgone : x ∉ d.pending := by
    intro hpending
    rw [ht.outcome_of_pending hpending] at hx
    exact absurd hx (by simp)
  have hgone' : x ∉ d'.pending := fun hpending => hgone (h.mem_of_pending hpending)
  unfold outcome? at hx ⊢
  rw [if_neg hgone] at hx
  rw [h.lookup_of_kept hgone, if_neg hgone']
  exact hx

/-! ## Everybody is told -/

/-- From `d` to `d'` everybody who waited was told, by the response that was drained for the command, or by the
corruption if there was none. Nobody waits from then on, and nobody was told twice. -/
structure ToldEveryone (reason : Corruption) (drained : List Response) (d d' : Dispatcher) : Prop where
  nobody : d'.pending = []
  forGood : ∀ d'', Relation.ReflTransGen Change d' d'' →
    d''.pending = [] ∧ ∀ x, d''.outcome? x = d'.outcome? x
  told : ∀ x ∈ d.pending, d.outcome? x = none
    ∧ ((∃ r ∈ drained, r.id = x.id ∧ d'.outcome? x = some (.ok r))
      ∨ ((∀ r ∈ drained, r.id ≠ x.id) ∧ d'.outcome? x = some (.error (.corrupt reason))))
  kept : ∀ x outcome, d.outcome? x = some outcome → d'.outcome? x = some outcome

/-- If some commands were answered and the rest of them failed, then the ids of the responses say who is who. -/
theorem Settles.split {rest : List Handle} {answered : List (Handle × Outcome)} {taken : List Response}
    (h : Settles d d' (failures rest (.corrupt reason) ++ answered)) (hnobody : d'.pending = [])
    (hrest : ∀ x ∈ rest, x.id ∉ taken.map Response.id)
    (hanswered : ∀ p ∈ answered, ∃ r ∈ taken, p.2 = .ok r ∧ r.id = p.1.id) {x : Handle}
    (hx : x ∈ d.pending) :
    (∃ r ∈ taken, r.id = x.id ∧ d'.outcome? x = some (.ok r))
      ∨ ((∀ r ∈ taken, r.id ≠ x.id) ∧ d'.outcome? x = some (.error (.corrupt reason))) := by
  have hleft : x ∈ (failures rest (.corrupt reason) ++ answered).map Prod.fst := by
    rcases h.mem_or hx with hstill | hnew
    · rw [hnobody] at hstill
      exact absurd hstill List.not_mem_nil
    · exact hnew
  obtain ⟨outcome, hnew, hlookup⟩ := h.lookup_of_new hleft
  rw [outcome_of_lookup hlookup]
  rcases List.mem_append.mp hnew with hfailed | hdelivered
  · obtain ⟨y, hy, hsame⟩ := List.mem_map.mp hfailed
    injection hsame with hyx houtcome
    subst hyx
    refine Or.inr ⟨?_, congrArg some houtcome.symm⟩
    intro r hr hid
    exact hrest y hy (List.mem_map.mpr ⟨r, hr, hid⟩)
  · obtain ⟨r, hr, hok, hid⟩ := hanswered _ hdelivered
    exact Or.inl ⟨r, hr, hid, congrArg some hok⟩

/-- **Handing over what was drained and failing the rest tells everybody.** -/
theorem toldEveryone (hr : Reachable d) (hr' : Reachable d') {driver : Driver}
    (hpoison : driver.poison ≠ none) {taken : List Response}
    (hd : d' = ({ d with driver := driver }.handOver taken).failAll (.corrupt reason)) :
    ToldEveryone reason taken d d' := by
  obtain ⟨given, hissued⟩ := issued_of_reachable hr
  have ht := hissued.ticketed
  have hk := (sound_of_reachable hr).keyed
  have hnobody : d'.pending = [] := by
    rw [hd]
    rfl
  have hdriver : d'.driver = driver := by
    rw [hd]
    exact handOver_driver ..
  have hclosed : d'.Closed := ⟨hdriver ▸ hpoison, hnobody⟩
  obtain ⟨answered, hsettles, hanswered⟩ := settles_handOver taken (d := { d with driver := driver }) hk
  have hrest : ∀ x ∈ ({ d with driver := driver }.handOver taken).pending,
      x.id ∉ taken.map Response.id :=
    fun x hx => ((mem_pending_handOver (d := { d with driver := driver }) taken hk).mp hx).2
  have hall := (hsettles.trans (settles_failAll _ reason)).of_driver
  rw [← hd] at hall
  refine ⟨hnobody, ?_, ?_, fun x outcome hx => hall.outcome_of_kept ht hx⟩
  · intro d'' hlater
    obtain ⟨hclosed', _, hsettled⟩ := hclosed.forGood hr' hlater
    refine ⟨hclosed'.pending, fun x => outcome_eq_of_nobody hnobody hclosed'.pending ?_⟩
    rw [hsettled]
  · intro x hx
    exact ⟨ht.outcome_of_pending hx, hall.split hnobody hrest hanswered hx⟩

/-! ## The calls that fail -/

/-- A pump that fails has handed over what it drained, and nothing if its poll failed. -/
theorem pump_corrupt (hs : d.Sound) (hp : d.pump memory = (.error (.corrupt reason), d')) :
    ∃ taken driver, driver.poison ≠ none
      ∧ d' = ({ d with driver := driver }.handOver taken).failAll (.corrupt reason)
      ∧ (taken.map Response.id).Nodup
      ∧ ((taken = [] ∧ (d.driver.pollTake memory none).1 = .error (.corrupt reason))
        ∨ (d.driver.pollTake memory none).1 = .ok (taken.map .ok ++ [.error (.corrupt reason)])) := by
  rcases pump_cases hs.driver hs.keyed memory with
    ⟨found, hpoll, hpump⟩ | ⟨_, taken, driver, count, _, _, hpump, _⟩
      | ⟨_, taken, driver, found, htaken, hpoll, hpump⟩
  · simp only [hp, Prod.mk.injEq, Except.error.injEq, Error.corrupt.injEq] at hpump
    obtain ⟨rfl, hd⟩ := hpump
    refine ⟨[], _, Driver.poison_poisonedBy_ne_none d.driver reason, hd, List.nodup_nil, Or.inl ⟨rfl, ?_⟩⟩
    rw [hpoll]
  · rw [hp] at hpump
    exact absurd (congrArg Prod.fst hpump) (by simp)
  · simp only [hp, Prod.mk.injEq, Except.error.injEq, Error.corrupt.injEq] at hpump
    obtain ⟨rfl, hd⟩ := hpump
    -- no two responses of one drain are for the same id
    have hnodup := (List.nodup_append.mp (htaken.conserved.nodup_iff.mpr hs.driver.nodup)).1
    refine ⟨taken, _, Driver.poison_poisonedBy_ne_none driver reason, hd, hnodup, Or.inr ?_⟩
    rw [hpoll]

/-- A submit that fails with a corruption has found the slot out of reach, or the driver was poisoned before. -/
theorem submit_corrupt (hs : d.Sound) {command : Command} {memory' : Region}
    (hsubmit : d.submit memory command = (.error (.corrupt reason), d', memory')) :
    ∃ driver : Driver, driver.poison ≠ none ∧ d' = { d with driver := driver }.failAll (.corrupt reason) := by
  rcases submit_cases hs.driver memory command with
    ⟨e, hcheck, hcase⟩ | ⟨id, found, hcase⟩ | ⟨id, slot, _, _, _, _, _, hcase⟩
  · simp only [hsubmit, Prod.mk.injEq, Except.error.injEq] at hcase
    obtain ⟨rfl, hd, _⟩ := hcase
    exact ⟨d.driver, fun hp => Driver.checkCommand_ne_corrupt hp hcheck, hd⟩
  · simp only [hsubmit, Prod.mk.injEq, Except.error.injEq, Error.corrupt.injEq] at hcase
    obtain ⟨rfl, hd, _⟩ := hcase
    exact ⟨_, Option.some_ne_none reason, hd⟩
  · rw [hsubmit] at hcase
    exact absurd (congrArg Prod.fst hcase) (by simp)

/-- A submit that fails for another reason concerns nobody but its caller. -/
theorem submit_refused (hs : d.Sound) {command : Command} {memory' : Region} {e : Error}
    (hsubmit : d.submit memory command = (.error e, d', memory')) (he : e.isFatal = false) : d' = d := by
  rcases submit_cases hs.driver memory command with
    ⟨e', _, hcase⟩ | ⟨id, found, hcase⟩ | ⟨id, slot, _, _, _, _, _, hcase⟩
  · simp only [hsubmit, Prod.mk.injEq, Except.error.injEq] at hcase
    obtain ⟨rfl, hd, _⟩ := hcase
    rcases failAll_cases d e with ⟨reason, rfl, _⟩ | ⟨_, hkept⟩
    · exact Bool.noConfusion he
    · exact hd.trans hkept
  · simp only [hsubmit, Prod.mk.injEq, Except.error.injEq] at hcase
    obtain ⟨rfl, _⟩ := hcase
    exact Bool.noConfusion he
  · rw [hsubmit] at hcase
    exact absurd (congrArg Prod.fst hcase) (by simp)

/--
**A corruption reaches everybody who waits, and nobody else.** Whatever became of a dispatcher and its driver: if a
pump or a submit fails with a corruption, nobody is pending, and nobody will be, whatever is done. Whoever was
pending had no outcome yet, and has one now: the response that this pump drained with the command's id, in front of
what it failed at, or that very corruption if there is none. Whoever had an outcome has the same one still. And a
submit that fails with another error leaves the dispatcher as it was.
-/
theorem corruption_reaches_everyone (h : Reachable d) :
    (∀ memory reason d', d.pump memory = (.error (.corrupt reason), d') →
        ∃ drained, ToldEveryone reason drained d d' ∧ (drained.map Response.id).Nodup
          ∧ ((drained = [] ∧ (d.driver.pollTake memory none).1 = .error (.corrupt reason))
            ∨ (d.driver.pollTake memory none).1
              = .ok (drained.map .ok ++ [.error (.corrupt reason)])))
      ∧ (∀ memory command reason d' memory',
        d.submit memory command = (.error (.corrupt reason), d', memory') → ToldEveryone reason [] d d')
      ∧ ∀ memory command e d' memory', d.submit memory command = (.error e, d', memory') →
        e.isFatal = false → d' = d := by
  have hs := sound_of_reachable h
  refine ⟨?_, ?_, ?_⟩
  · intro memory reason d' hp
    have h' := h.changed (.acted memory .pump)
    rw [dispatcher_pump, hp] at h'
    obtain ⟨drained, driver, hpoison, hd, hnodup, hitems⟩ := pump_corrupt hs hp
    exact ⟨drained, toldEveryone h h' hpoison hd, hnodup, hitems⟩
  · intro memory command reason d' memory' hsubmit
    have h' := h.changed (.acted memory (.submit command))
    rw [dispatcher_submit, hsubmit] at h'
    obtain ⟨driver, hpoison, hd⟩ := submit_corrupt hs hsubmit
    exact toldEveryone h h' hpoison hd
  · intro memory command e d' memory' hsubmit he
    exact submit_refused hs hsubmit he

/-! ## A run in which one command is answered and the other fails -/

/-- A second command takes the other slot of the ring of `busy`. -/
def crowded : Dispatcher := (busy.act publishedRing (.submit Command.testUnitReady)).2.1

/-- The kernel answers the first command, and pads the slot behind the answer. -/
def paddedRing : Region :=
  match (Kernel.ofMailbox Session.smallLayout Session.smallMailbox).complete
    (busy.act publishedRing (.submit Command.testUnitReady)).2.2 1 {} with
  | (_, kernel, memory) => (kernel.pad memory Header.responseFlag).2.2

theorem reachable_crowded : Reachable crowded := by
  have hbusy : Reachable busy := .changed (.new {} Session.attach_smallRing.2) (.acted _ _)
  exact .changed hbusy (.acted _ _)

set_option maxRecDepth 10000 in
/-- A pump hands the answer over, fails at the padding, and nobody waits ever again. -/
theorem told_before_padding :
    Reachable crowded ∧ crowded.pending = [⟨2, 1⟩, ⟨1, 0⟩]
      ∧ ∃ d', crowded.pump paddedRing = (.error (.corrupt (.padded 1)), d')
        ∧ d'.outcome? ⟨1, 0⟩ = some (.ok (.answering Session.smallLayout 1 0 []))
        ∧ d'.outcome? ⟨2, 1⟩ = some (.error (.corrupt (.padded 1)))
        ∧ (d'.act Session.smallRing (.submit Command.testUnitReady)).2.1.pending = [] := by
  have hfound : crowded.pending = [⟨2, 1⟩, ⟨1, 0⟩]
      ∧ (crowded.pump paddedRing).1 = .error (.corrupt (.padded 1))
      ∧ (crowded.driver.pollTake paddedRing none).1
        = .ok [.ok (.answering Session.smallLayout 1 0 []), .error (.corrupt (.padded 1))] := by
    decide
  obtain ⟨hpending, hpump, hitems⟩ := hfound
  have hrun : crowded.pump paddedRing
      = (.error (.corrupt (.padded 1)), (crowded.pump paddedRing).2) :=
    Prod.ext hpump rfl
  obtain ⟨hpumps, _, _⟩ := corruption_reaches_everyone reachable_crowded
  obtain ⟨drained, htold, _, hdrained⟩ := hpumps paddedRing _ _ hrun
  -- what was drained is the answer
  have hanswer : drained = [.answering Session.smallLayout 1 0 []] := by
    rw [hitems] at hdrained
    rcases hdrained with ⟨_, hfailed⟩ | hall
    · exact absurd hfailed (by simp)
    · have hitems' : [(.ok (.answering Session.smallLayout 1 0 []) : Outcome)]
          ++ [.error (.corrupt (.padded 1))] = drained.map .ok ++ [.error (.corrupt (.padded 1))] :=
        Except.ok.inj hall
      obtain ⟨r, hone, hr⟩ := List.map_eq_singleton_iff.mp (List.append_cancel_right hitems').symm
      rw [hone, Except.ok.inj hr]
  rw [hanswer] at htold
  have hfirst := htold.told ⟨1, 0⟩ (by rw [hpending]; decide)
  have hsecond := htold.told ⟨2, 1⟩ (by rw [hpending]; decide)
  have hnext := htold.forGood _ (.single (.acted Session.smallRing (.submit Command.testUnitReady)))
  refine ⟨reachable_crowded, hpending, _, hrun, ?_, ?_, hnext.1⟩
  · rcases hfirst.2 with ⟨r, hr, _, houtcome⟩ | ⟨hnone, _⟩
    · rw [List.mem_singleton.mp hr] at houtcome
      exact houtcome
    · exact absurd rfl (hnone _ List.mem_cons_self)
  · rcases hsecond.2 with ⟨r, hr, hid, _⟩ | ⟨_, houtcome⟩
    · rw [List.mem_singleton.mp hr] at hid
      exact absurd hid (by decide)
    · exact houtcome

end Dispatcher

end CommandRing
