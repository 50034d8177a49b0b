import CommandRing.Proofs.Driver.Poison
import CommandRing.Proofs.Driver.Submitting
import CommandRing.Proofs.Exchange.Rounds

/-!
# Ids are handed out in turn

The ids lie on a cycle, and the next id to try is a place on it. A submit goes on from there to the first id that
is not in flight and leaves the place behind it, so the place only ever moves forward, except that a reset puts it
back to the start. Between two submits that return the same id it has gone around the whole cycle: the turn of
every other id came in between, and it was either returned or passed over because it was in flight.

A driver that is poisoned may have lost an id, which it had set aside for a command that it could not write. As it
never submits anything again, everything here is about drivers that trust the memory.
-/

namespace CommandRing

open CommandId

namespace Driver

variable {d d' : Driver} {memory memory' : Region} {command : Command} {id : CommandId}

/-- The first id on the cycle, from the next one on, that is not in flight. -/
def FirstFree (d : Driver) (id : CommandId) : Prop :=
  ∃ k, k < 65535 ∧ id = d.nextId.onward k ∧ id ∉ d.inFlight
    ∧ ∀ j, j < k → d.nextId.onward j ∈ d.inFlight

/-- What the search finds. -/
theorem Sound.firstFree_of_allocateId (h : d.Sound) {next : CommandId}
    (ha : d.allocateId = (some id, next)) : d.FirstFree id ∧ next = id.successor := by
  obtain ⟨_, hfree, hnext, k, hk, hid, hbefore⟩ := findId_eq_some ha
  rw [iterate_successor_eq h.nextId_ne_zero] at hid
  refine ⟨⟨k, hk, hid, hfree, ?_⟩, hnext⟩
  intro j hj
  rcases hbefore j hj with hzero | htaken
  · exact absurd hzero (iterate_successor_ne_zero h.nextId_ne_zero j)
  · rwa [iterate_successor_eq h.nextId_ne_zero] at htaken

/-- **There always is a first free id**, and the search finds it. -/
theorem Sound.allocateId_eq (h : d.Sound) :
    ∃ id, d.FirstFree id ∧ d.allocateId = (some id, id.successor) := by
  obtain ⟨id, hid⟩ := findId_isSome h.nextId_ne_zero
    (Nat.lt_of_le_of_lt h.length_le h.geometry.count_lt)
  have ha : d.allocateId = (some id, id.successor) := hid
  exact ⟨id, (h.firstFree_of_allocateId ha).1, ha⟩

theorem FirstFree.ne_zero (h : d.FirstFree id) : id ≠ 0 := by
  obtain ⟨k, _, rfl, _⟩ := h
  exact onward_ne_zero _ k

theorem FirstFree.notMem (h : d.FirstFree id) : id ∉ d.inFlight := by
  obtain ⟨_, _, _, hfree, _⟩ := h
  exact hfree

/-- With nothing in flight the next id is free itself. -/
theorem FirstFree.eq_nextId (h : d.FirstFree id) (hnext : d.nextId ≠ 0) (hnone : d.inFlight = []) :
    id = d.nextId := by
  obtain ⟨k, _, rfl, _, hbefore⟩ := h
  cases k with
  | zero => exact onward_zero hnext
  | succ k =>
      have htaken := hbefore 0 (Nat.succ_pos k)
      rw [hnone] at htaken
      exact absurd htaken List.not_mem_nil

theorem allocateId_of_submit (hr : d.submit memory command = (.ok id, d', memory')) :
    ∃ next, d.allocateId = (some id, next) := by
  unfold submit at hr
  -- each `split` is one early return
  split at hr
  · exact absurd (congrArg Prod.fst hr) (by simp)
  split at hr
  · exact absurd (congrArg Prod.fst hr) (by simp)
  rename_i found next hfound
  split at hr
  · exact absurd (congrArg Prod.fst hr) (by simp)
  split at hr
  · exact absurd (congrArg Prod.fst hr) (by simp)
  · injection hr with hid _
    injection hid with hid
    subst hid
    exact ⟨next, hfound⟩

/-- No id other than the one that the search finds is returned. -/
theorem submit_id_eq {next id' : CommandId} (ha : d.allocateId = (some id, next))
    (hr : (d.submit memory command).1 = .ok id') : id' = id := by
  obtain ⟨_, ha'⟩ := allocateId_of_submit (Prod.ext hr rfl)
  rw [ha] at ha'
  injection ha' with hid _
  injection hid with hid
  exact hid.symm

/-- **A submit returns the first free id**, and only a driver that trusts the memory does. -/
theorem Sound.submit_issues (h : d.Sound) (hr : d.submit memory command = (.ok id, d', memory')) :
    d.poison = none ∧ d.FirstFree id ∧ d' = d.submitted id := by
  obtain ⟨next, ha⟩ := allocateId_of_submit hr
  obtain ⟨_, hcheck, _, _, hd, _⟩ := h.submit_eq_ok hr
  obtain ⟨_, _, htrust, _⟩ := checkCommand_eq_ok.mp hcheck
  exact ⟨htrust, (h.firstFree_of_allocateId ha).1, hd⟩

/-- **A submit with a free slot never fails for the ring.** -/
theorem Sound.submit_ne_ringFull (h : d.Sound) (hroom : d.cursor.isFull = false) (slots : Nat) :
    (d.submit memory command).1 ≠ .error (.ringFull slots) := by
  intro hr
  rcases hcall : d.submit memory command with ⟨result, d', memory'⟩
  rw [hcall] at hr
  dsimp only at hr
  subst hr
  obtain ⟨_, hrefused⟩ := h.submit_error hcall
  cases hrefused with
  | full _ hfull =>
      rw [h.isFull_iff.mpr hfull] at hroom
      exact Bool.noConfusion hroom

/-- **A submit succeeds on a driver that trusts the memory**, if a slot is free and in reach and can hold the
command. -/
theorem Sound.submit_succeeds (h : d.Sound) (htrust : d.poison = none)
    (hroom : d.cursor.isFull = false) (hs : command.segments.count ≤ d.layout.maxSegments)
    (hc : command.cdb.length ≤ d.layout.cdbSize)
    (hin : d.geometry.slotOffset d.cursor.tail.index + d.geometry.slotSize.toNat ≤ memory.length) :
    ∃ id slot, d.slotFor id command = .ok slot
      ∧ d.submit memory command = (.ok id, d.submitted id, d.writtenTo memory slot) := by
  have hcheck := checkCommand_eq_ok.mpr ⟨hs, hc, htrust, hroom⟩
  rw [h.slotOffset_tail] at hin
  rcases h.submit_cases memory command with
    ⟨e, herror, _⟩ | ⟨_, _, hout, _⟩ | ⟨id, slot, _, _, _, hslot, _, hcase⟩
  · rw [hcheck] at herror
    exact absurd herror (by simp)
  · exact absurd hin hout
  · exact ⟨id, slot, hslot, hcase⟩

end Driver

namespace Session

variable {replies : List Reply} {s s' : Session} {moments : List Moment} {memory : Region} {c : Call}
  {id x : CommandId}

/-! ## One call -/

theorem call_issues (h : s.driver.Sound) (hr : (s.call memory c).1 = .submitted id) :
    s.driver.poison = none ∧ s.driver.FirstFree id
      ∧ (s.call memory c).2.1.driver = s.driver.submitted id := by
  -- no other call returns an id
  cases c with
  | submit command =>
      rcases hcall : s.driver.submit memory command with ⟨e | id', d', memory'⟩
      · unfold call at hr
        dsimp only at hr
        rw [hcall] at hr
        exact Reply.noConfusion hr
      · unfold call at hr ⊢
        dsimp only at hr ⊢
        rw [hcall] at hr ⊢
        injection hr with hid
        subst hid
        exact h.submit_issues hcall
  | poll =>
      unfold call at hr
      dsimp only at hr
      split at hr <;> exact Reply.noConfusion hr
  | next =>
      unfold call at hr
      dsimp only at hr
      split at hr <;> exact Reply.noConfusion hr
  | reset =>
      unfold call at hr
      dsimp only at hr
      split at hr <;> exact Reply.noConfusion hr

/-- **What a call does to the driver that neither submits nor starts over**: nothing, unless it finds a corruption
or takes a response. -/
theorem quiet_call (h : s.driver.Sound) (hid : ∀ id, (s.call memory c).1 ≠ .submitted id)
    (hrestart : (s.call memory c).1 ≠ .restarted) :
    (s.call memory c).2.1.driver = s.driver ∨ (s.call memory c).2.1.driver.poison ≠ none
      ∨ ∃ id ∈ s.driver.inFlight, (s.call memory c).2.1.driver = s.driver.consumed id := by
  cases c with
  | submit command =>
      unfold call at hid ⊢
      dsimp only at hid ⊢
      rcases h.submit_cases memory command with ⟨e, _, hr⟩ | ⟨_, _, _, hr⟩ | ⟨id, _, _, _, _, _, _, hr⟩
      · rw [hr]
        exact Or.inl rfl
      -- the id that is lost to a command out of reach, at the price of the driver's trust
      · rw [hr]
        exact Or.inr (Or.inl (Option.some_ne_none _))
      · rw [hr] at hid
        exact absurd rfl (hid id)
  | poll =>
      unfold call
      dsimp only
      rcases s.driver.poll_cases memory with ⟨drain, _, hr⟩ | ⟨e, hr⟩
      · rw [hr]
        exact Or.inl rfl
      · rw [hr]
        exact (s.driver.poisonedBy_cases e).imp_right Or.inl
  | next =>
      unfold call
      dsimp only
      rcases h.next_cases memory s.drain with ⟨_, hr⟩ | ⟨r, _, _, hmem, _, hr⟩ | ⟨e, _, _, _, hr⟩
      · rw [hr]
        exact Or.inl rfl
      · rw [hr]
        exact Or.inr (Or.inr ⟨r.id, hmem, rfl⟩)
      · rw [hr]
        exact (s.driver.poisonedBy_cases e).imp_right Or.inl
  | reset =>
      unfold call at hrestart ⊢
      dsimp only at hrestart ⊢
      rcases h.reset_cases memory with ⟨e, hr⟩ | ⟨i, _, _, _, hr⟩
      · rw [hr]
        exact Or.inl rfl
      · rw [hr] at hrestart
        exact absurd rfl hrestart

/-- **No such call moves the next id**, as long as the driver trusts the memory. -/
theorem nextId_kept (h : s.driver.Sound) (hid : ∀ id, (s.call memory c).1 ≠ .submitted id)
    (hrestart : (s.call memory c).1 ≠ .restarted)
    (htrust : (s.call memory c).2.1.driver.poison = none) :
    (s.call memory c).2.1.driver.nextId = s.driver.nextId := by
  rcases quiet_call h hid hrestart with hsame | hpoison | ⟨id, _, hconsumed⟩
  · rw [hsame]
  · exact absurd htrust hpoison
  · rw [hconsumed]
    rfl

/-- A driver that trusts the memory has always trusted it. -/
theorem trusting_before (h : Run replies s) (htrust : (s.call memory c).2.1.driver.poison = none) :
    s.driver.poison = none := by
  cases hp : s.driver.poison with
  | none => rfl
  | some reason =>
      have hsome : s.driver.poison ≠ none := by
        rw [hp]
        exact Option.some_ne_none reason
      obtain ⟨_, hsame, _⟩ := call_poisoned hp (exhausted_of_poisoned h hsome) memory c
      rw [hsame] at htrust
      exact absurd htrust hsome

/-! ## From one id to the same id -/

theorem Run.stretch (h : Run replies s) (hs : Stretch s moments s') :
    Run (replies ++ moments.map Moment.reply) s' := by
  induction hs with
  | refl =>
      rw [List.map_nil, List.append_nil]
      exact h
  | called memory c _ ih =>
      rw [List.map_append, ← List.append_assoc]
      exact .called memory c ih

/-- A submit came across this id on its way, and passed it over because it was in flight. -/
def Moment.PassedOver (t : Moment) (id : CommandId) : Prop :=
  id ∈ t.driver.inFlight ∧ ∃ given j k, t.reply = .submitted given ∧ j < k ∧ k < 65535
    ∧ id = t.driver.nextId.onward j ∧ given = t.driver.nextId.onward k

/-- It was this id's turn: it was returned, or passed over. -/
def Moment.Turn (t : Moment) (id : CommandId) : Prop := t.reply = .submitted id ∨ t.PassedOver id

/-- A submit gives a turn to every id from the next one to the one that it returns. -/
theorem turns_of_issue {k j : Nat} (hk : k < 65535) (hj : j ≤ k)
    (hreply : (s.call memory c).1 = .submitted (s.driver.nextId.onward k))
    (hbefore : ∀ j, j < k → s.driver.nextId.onward j ∈ s.driver.inFlight) :
    Moment.Turn ⟨s.driver, (s.call memory c).1⟩ (s.driver.nextId.onward j) := by
  rcases Nat.lt_or_eq_of_le hj with hlt | rfl
  · exact Or.inr ⟨hbefore j hlt, _, j, k, hreply, hlt, hk, rfl, rfl⟩
  · exact Or.inl hreply

/-- **Every id behind the next one has had its turn**, since the id `x` was returned. -/
theorem turns_taken (h : Run replies s) (hnext : s.driver.nextId = x.onward 1)
    (hs : Stretch s moments s') (hrestart : ∀ t ∈ moments, t.reply ≠ .restarted)
    (htrust : s'.driver.poison = none) :
    ∃ m, 1 ≤ m ∧ s'.driver.nextId = x.onward m
      ∧ ∀ j, 1 ≤ j → j < m → ∃ t ∈ moments, t.Turn (x.onward j) := by
  induction hs with
  | refl =>
      refine ⟨1, Nat.le_refl 1, hnext, ?_⟩
      intro j hj hj'
      omega
  | @called moments s' memory c hs ih =>
      have hrun := h.stretch hs
      have hsound := (invariant_run hrun).sound
      obtain ⟨m, hm, hplace, hturns⟩ :=
        ih (fun t ht => hrestart t (List.mem_append_left _ ht)) (trusting_before hrun htrust)
      have hlast := hrestart _ (List.mem_append_right moments (List.mem_singleton_self _))
      by_cases hid : ∃ id, (s'.call memory c).1 = .submitted id
      · obtain ⟨id, hreply⟩ := hid
        obtain ⟨_, ⟨k, hk, hplace', _, hbefore⟩, hdriver⟩ := call_issues hsound hreply
        subst hplace'
        refine ⟨m + k + 1, by omega, ?_, ?_⟩
        · rw [hdriver]
          show (s'.driver.nextId.onward k).successor = x.onward (m + k + 1)
          rw [hplace, onward_onward, successor_onward]
        · intro j hj hj'
          rcases Nat.lt_or_ge j m with hlt | hge
          · obtain ⟨t, ht, hturn⟩ := hturns j hj hlt
            exact ⟨t, List.mem_append_left _ ht, hturn⟩
          -- the ids that this submit came across
          · refine ⟨_, List.mem_append_right _ (List.mem_singleton_self _), ?_⟩
            have hturn := turns_of_issue (j := j - m) hk (by omega) hreply hbefore
            rw [hplace, onward_onward, Nat.add_sub_cancel' hge] at hturn
            exact hturn
      · refine ⟨m, hm, ?_, ?_⟩
        · rw [nextId_kept hsound (fun id hr => hid ⟨id, hr⟩) hlast htrust, hplace]
        · intro j hj hj'
          obtain ⟨t, ht, hturn⟩ := hturns j hj hj'
          exact ⟨t, List.mem_append_left _ ht, hturn⟩

/-- **Between two submits that return the same id, every other id has its turn.** -/
theorem turns_between (h : Run replies s) {memory memory' : Region} {c c' : Call}
    (hfirst : (s.call memory c).1 = .submitted x) (hs : Stretch (s.call memory c).2.1 moments s')
    (hrestart : ∀ t ∈ moments, t.reply ≠ .restarted)
    (hagain : (s'.call memory' c').1 = .submitted x) {y : CommandId} (hy : y ≠ 0) (hne : y ≠ x) :
    (∃ t ∈ moments, t.reply = .submitted y)
      ∨ ∃ t ∈ moments ++ [⟨s'.driver, .submitted x⟩], t.PassedOver y := by
  have hrun := Run.called memory c h
  have hsound := (invariant_run (hrun.stretch hs)).sound
  obtain ⟨_, hfree, hdriver⟩ := call_issues (invariant_run h).sound hfirst
  have hx := hfree.ne_zero
  have hnext : (s.call memory c).2.1.driver.nextId = x.onward 1 := by
    rw [hdriver]
    show x.successor = x.onward 1
    rw [← successor_onward, onward_zero hx]
  obtain ⟨htrust, ⟨k, hk, hplace, _, hbefore⟩, _⟩ := call_issues hsound hagain
  obtain ⟨m, hm, hm', hturns⟩ := turns_taken hrun hnext hs hrestart htrust
  -- the place is `x` again, so it has gone around at least once
  have hlap : 65535 ≤ m + k := by
    rw [hm', onward_onward] at hplace
    have hmod := onward_eq_iff.mp ((onward_zero hx).trans hplace)
    omega
  obtain ⟨j, hj, rfl⟩ := exists_onward x hy
  have hpos : 1 ≤ j := by
    rcases Nat.eq_zero_or_pos j with rfl | hpos
    · exact absurd (onward_zero hx) hne
    · exact hpos
  rcases Nat.lt_or_ge j m with hlt | hge
  · obtain ⟨t, ht, hreturned | hpassed⟩ := hturns j hpos hlt
    · exact Or.inl ⟨t, ht, hreturned⟩
    · exact Or.inr ⟨t, List.mem_append_left _ ht, hpassed⟩
  -- the second submit itself came across it
  · refine Or.inr ⟨_, List.mem_append_right _ (List.mem_singleton_self _), ?_⟩
    have hturn := turns_of_issue (j := j - m) hk (by omega) (hplace ▸ hagain) hbefore
    rw [hm', onward_onward, Nat.add_sub_cancel' hge, hagain] at hturn
    rcases hturn with hreturned | hpassed
    · injection hreturned with heq
      exact absurd heq.symm hne
    · exact hpassed

/-! ## One command at a time -/

/-- Whatever was submitted had been yielded when the next command was submitted. -/
def OneAtATime (replies : List Reply) : Prop :=
  ∀ earlier id, earlier ++ [.submitted id] <+: replies →
    (submittedIds earlier).length = (yielded earlier).length

theorem OneAtATime.of_snoc {r : Reply} (h : OneAtATime (replies ++ [r])) : OneAtATime replies :=
  fun earlier id hfront => h earlier id (hfront.trans (List.prefix_append _ _))

theorem OneAtATime.snoc (h : OneAtATime replies) {r : Reply}
    (hr : ∀ id, r = .submitted id → (submittedIds replies).length = (yielded replies).length) :
    OneAtATime (replies ++ [r]) := by
  intro earlier id hfront
  rcases List.prefix_concat_iff.mp hfront with heq | hfront
  · obtain ⟨rfl, hlast⟩ := List.append_inj' heq rfl
    injection hlast with hlast _
    exact hr id hlast.symm
  · exact h earlier id hfront

theorem Accounted.inFlight_eq_nil (h : Accounted replies s.driver)
    (hall : (submittedIds replies).length = (Session.yielded replies).length) :
    s.driver.inFlight = [] := by
  have hlength := h.length_eq
  unfold yieldedIds at hlength
  rw [List.length_append, List.length_map] at hlength
  exact List.eq_nil_of_length_eq_zero (by omega)

/-- **One command at a time gets one id after the other.** -/
theorem ids_in_order (h : Run replies s) (hone : OneAtATime replies) (hrestart : .restarted ∉ replies) :
    submittedIds replies = (List.range (submittedIds replies).length).map (onward 1)
      ∧ (s.driver.poison = none → s.driver.nextId = onward 1 (submittedIds replies).length) := by
  induction h with
  | attached h =>
      obtain ⟨_, _, _, _, _, _, rfl⟩ := Driver.attach_eq_ok h
      exact ⟨rfl, fun _ => rfl⟩
  | @called replies s memory c hrun ih =>
      obtain ⟨hids, hnext⟩ := ih hone.of_snoc fun hm => hrestart (List.mem_append_left _ hm)
      obtain ⟨hsound, haccounted⟩ := invariant_run hrun
      by_cases hid : ∃ id, (s.call memory c).1 = .submitted id
      -- nothing is in flight, so the next id is the one
      · obtain ⟨id, hreply⟩ := hid
        obtain ⟨htrust, hfree, hdriver⟩ := call_issues hsound hreply
        rw [hreply] at hone
        have hnone := haccounted.inFlight_eq_nil (hone replies id (List.prefix_refl _))
        have heq := hfree.eq_nextId hsound.nextId_ne_zero hnone
        rw [hnext htrust] at heq
        subst heq
        have hmore : submittedIds (replies ++ [.submitted (onward 1 (submittedIds replies).length)])
            = submittedIds replies ++ [onward 1 (submittedIds replies).length] :=
          submittedIds_snoc _ _
        rw [hreply, hmore, List.length_append, List.length_singleton]
        refine ⟨?_, fun _ => ?_⟩
        · rw [List.range_succ, List.map_append, ← hids]
          rfl
        · rw [hdriver]
          exact successor_onward _ _
      · have hsame : submittedIds [(s.call memory c).1] = [] := by
          unfold submittedIds
          cases hr : (s.call memory c).1 with
          | submitted id => exact absurd ⟨id, hr⟩ hid
          | _ => rfl
        rw [submittedIds_snoc_of_nil hsame]
        refine ⟨hids, fun htrust => ?_⟩
        have hkept := nextId_kept hsound (fun id hr => hid ⟨id, hr⟩)
          (fun hr => hrestart (List.mem_append_right _ (by rw [hr]; exact List.mem_singleton_self _)))
          htrust
        rw [hkept]
        exact hnext (trusting_before hrun htrust)

end Session

namespace Exchange

open Session

variable {e : Exchange}

/-- Rounds keep to one command at a time, and never start over. -/
theorem Settled.rounds {jobs : List Job} (h : e.Settled)
    (hfits : ∀ job ∈ jobs, job.Fits e.kernel.layout) (hone : OneAtATime e.replies)
    (hrestart : .restarted ∉ e.replies) :
    (jobs.foldl Exchange.round e).Settled ∧ OneAtATime (jobs.foldl Exchange.round e).replies
      ∧ .restarted ∉ (jobs.foldl Exchange.round e).replies
      ∧ (jobs.foldl Exchange.round e).published.length = e.published.length + jobs.length := by
  induction jobs generalizing e with
  | nil => exact ⟨h, hone, hrestart, rfl⟩
  | cons job jobs ih =>
      obtain ⟨hsettled, hlayout, id, r, hreplies⟩ := h.round (hfits job List.mem_cons_self)
      have hone' : OneAtATime (e.round job).replies := by
        rw [hreplies, List.append_cons, List.append_cons]
        refine ((hone.snoc ?_).snoc ?_).snoc ?_
        · exact fun _ _ => h.all_yielded
        · exact fun _ hr => Reply.noConfusion hr
        · exact fun _ hr => Reply.noConfusion hr
      have hrestart' : .restarted ∉ (e.round job).replies := by
        rw [hreplies]
        simp [hrestart]
      have hmore : (e.round job).published.length = e.published.length + 1 := by
        unfold published submittedIds
        rw [hreplies, List.filterMap_append, List.length_append]
        rfl
      rw [← hlayout] at hfits
      obtain ⟨hs, ho, hr, hlength⟩ :=
        ih hsettled (fun job' hm => hfits job' (List.mem_cons_of_mem _ hm)) hone' hrestart'
      refine ⟨hs, ho, hr, ?_⟩
      rw [List.foldl_cons, hlength, hmore, List.length_cons]
      omega

/-- **On a ring that is used for one command after the other the ids come in order**, for as many rounds as
there are. -/
theorem published_rounds {layout : Layout} {memory : Region} {jobs : List Job}
    (h : attach layout memory = .ok e) (hfits : ∀ job ∈ jobs, job.Fits layout) :
    (jobs.foldl round e).published
      = (List.range jobs.length).map fun n => UInt16.ofNat (n % 65535 + 1) := by
  obtain ⟨hsettled, rfl, hreplies⟩ := Settled.attached h
  have hpublished : e.published = [] := by
    unfold published
    rw [hreplies]
    rfl
  have hone : OneAtATime e.replies := by
    intro earlier id hfront
    rw [hreplies] at hfront
    exact absurd (List.prefix_nil.mp hfront) (List.append_ne_nil_of_right_ne_nil _ (List.cons_ne_nil _ _))
  have hrestart : .restarted ∉ e.replies := by
    rw [hreplies]
    exact List.not_mem_nil
  obtain ⟨hs, ho, hr, hlength⟩ := hsettled.rounds hfits hone hrestart
  obtain ⟨hids, _⟩ := ids_in_order (run_of_reachable hs.reachable) ho hr
  have hcount : (submittedIds (jobs.foldl round e).replies).length = jobs.length := by
    rw [hpublished, List.length_nil, Nat.zero_add] at hlength
    exact hlength
  rw [hcount] at hids
  show submittedIds (jobs.foldl round e).replies = _
  rw [hids]
  refine List.map_congr_left ?_
  intro n _
  show UInt16.ofNat ((1 - 1 + n) % 65535 + 1) = _
  rw [Nat.sub_self, Nat.zero_add]

end Exchange

namespace Session

variable {replies : List Reply} {s : Session}

/--
**Ids go round, and never run out.** When a slot is free there is a first id, from the next one on along the
cycle `1, 2, …, 65535, 1, …`, that is not in flight. It is the only id that a submit can return, a submit never
fails for the ring, and it succeeds if the driver trusts the memory and the slot is in reach and can hold the
command. Between two submits that return the same id, without a restart in between, every other id was returned
or passed over while it was in flight. When each command is submitted only after the last one was yielded, submit
number `n`, from `0` on, returns `n % 65535 + 1`; and with a kernel that answers each of them every one of these
submits succeeds.
-/
theorem ids_go_round (h : Run replies s) :
    (s.driver.cursor.isFull = false →
        ∃ id, s.driver.FirstFree id ∧ id ≠ 0 ∧ id ∉ s.driver.inFlight
          ∧ s.driver.allocateId = (some id, id.successor)
          ∧ ∀ (memory : Region) (command : Command),
            (∀ slots, (s.driver.submit memory command).1 ≠ .error (.ringFull slots))
              ∧ (∀ id', (s.driver.submit memory command).1 = .ok id' → id' = id)
              ∧ (s.driver.poison = none → command.segments.count ≤ s.driver.layout.maxSegments →
                command.cdb.length ≤ s.driver.layout.cdbSize →
                s.driver.geometry.slotOffset s.driver.cursor.tail.index
                  + s.driver.geometry.slotSize.toNat ≤ memory.length →
                (s.driver.submit memory command).1 = .ok id))
      ∧ (∀ (memory memory' : Region) (c c' : Call) (x : CommandId) (moments : List Moment) (s' : Session),
        (s.call memory c).1 = .submitted x → Stretch (s.call memory c).2.1 moments s' →
        (∀ t ∈ moments, t.reply ≠ .restarted) → (s'.call memory' c').1 = .submitted x →
        ∀ y, y ≠ 0 → y ≠ x →
          (∃ t ∈ moments, t.reply = .submitted y)
            ∨ ∃ t ∈ moments ++ [⟨s'.driver, .submitted x⟩], t.PassedOver y)
      ∧ (OneAtATime replies → .restarted ∉ replies →
        ∀ n id, (submittedIds replies)[n]? = some id → id.toNat = n % 65535 + 1)
      ∧ ∀ (layout : Layout) (memory : Region) (e : Exchange) (jobs : List Exchange.Job),
        Exchange.attach layout memory = .ok e → (∀ job ∈ jobs, job.Fits layout) →
        (jobs.foldl Exchange.round e).published
          = (List.range jobs.length).map fun n => UInt16.ofNat (n % 65535 + 1) := by
  have hsound := (invariant_run h).sound
  refine ⟨?_, ?_, ?_, fun _ _ _ _ => Exchange.published_rounds⟩
  · intro hroom
    obtain ⟨id, hfree, ha⟩ := hsound.allocateId_eq
    refine ⟨id, hfree, hfree.ne_zero, hfree.notMem, ha, ?_⟩
    intro memory command
    refine ⟨hsound.submit_ne_ringFull hroom, fun _ => Driver.submit_id_eq ha, ?_⟩
    intro htrust hs hc hin
    obtain ⟨id', _, _, hr⟩ := hsound.submit_succeeds htrust hroom hs hc hin
    have hid := congrArg Prod.fst hr
    rw [← Driver.submit_id_eq ha hid]
    exact hid
  · intro memory memory' c c' x moments s' hfirst hs hrestart hagain y hy hne
    exact turns_between h hfirst hs hrestart hagain hy hne
  · intro hone hrestart n id hn
    obtain ⟨hids, _⟩ := ids_in_order h hone hrestart
    have hlt := (List.getElem?_eq_some_iff.mp hn).1
    rw [hids, List.getElem?_map, List.getElem?_range hlt] at hn
    injection hn with hn
    rw [← hn, toNat_onward]
    show (1 - 1 + n) % 65535 + 1 = n % 65535 + 1
    rw [Nat.sub_self, Nat.zero_add]

set_option maxRecDepth 10000 in
/-- On the small ring the id 1 comes first, and with one command after the other it comes again once there were
more commands than there are ids. -/
theorem ids_go_round_lap :
    smallDriver.FirstFree 1 ∧ (smallDriver.submit smallRing Command.testUnitReady).1 = .ok 1
      ∧ ∃ jobs : List Exchange.Job, (jobs.foldl Exchange.round Exchange.small).published[0]? = some 1
        ∧ (jobs.foldl Exchange.round Exchange.small).published[65534]? = some 65535
        ∧ (jobs.foldl Exchange.round Exchange.small).published[65535]? = some 1 := by
  obtain ⟨hroom, _, _, hrounds⟩ := ids_go_round (.attached attach_smallRing.2)
  obtain ⟨id, hfree, _, _, _, hsubmit⟩ := hroom (by decide)
  have hid : id = 1 := hfree.eq_nextId (by decide) rfl
  subst hid
  obtain ⟨_, _, hsucceeds⟩ := hsubmit smallRing Command.testUnitReady
  refine ⟨hfree, hsucceeds rfl (by decide) (by decide) (by decide),
    List.replicate 65536 ⟨Command.testUnitReady, 0, []⟩, ?_⟩
  have hjobs := hrounds smallLayout smallRing Exchange.small
    (List.replicate 65536 ⟨Command.testUnitReady, 0, []⟩) Exchange.attach_small (by
      intro job hjob
      rw [List.eq_of_mem_replicate hjob]
      exact ⟨by decide, by decide⟩)
  rw [List.length_replicate] at hjobs
  have hat {n : Nat} (hn : n < 65536) :
      ((List.replicate 65536 (⟨Command.testUnitReady, 0, []⟩ : Exchange.Job)).foldl Exchange.round
        Exchange.small).published[n]? = some (UInt16.ofNat (n % 65535 + 1)) := by
    rw [hjobs, List.getElem?_map, List.getElem?_range hn]
    rfl
  exact ⟨hat (by decide), hat (by decide), hat (by decide)⟩

end Session

end CommandRing
