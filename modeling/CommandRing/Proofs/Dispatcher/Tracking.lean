import CommandRing.Proofs.Dispatcher.Delivery
import CommandRing.Proofs.Dispatcher.Service
import CommandRing.Proofs.Dispatcher.Tickets

/-!
# Every command has one outcome

Several things can end the time for which a command is pending, and they race for its place in one list that is
keyed by ids. `Tracked` is the invariant that keeps them apart. The pending commands are among the submissions in
flight, and these are the latest ones that have their ids; one that is in flight and not pending was given up,
unless the driver stopped trusting the memory. The log holds one end for every command that is pending no longer
and none for the others, and every outcome on record is explained by the act that ended its command. That no handle
is submitted twice is what the tickets are for, and known already: a service is a dispatcher whose driver nobody else
calls (`issued_of_reachable`).

An act is a `Publication` of one command, or it is an `Effect`: it settles some of the pending commands, gives
others up, and leaves the rest. Each act has one lemma that says which, and what either does to the invariant is
said field by field.
-/

namespace CommandRing.Service

/-- What a service keeps, where `flying` are the submissions in flight. -/
structure Tracked (flying : List Handle) (s : Service) : Prop where
  attributed : Attributed flying s.answers s.dispatcher.driver s.memory
  pending : s.dispatcher.pending.Sublist flying
  /-- An id is not given out again while it is in flight. -/
  newest : ∀ h ∈ flying, s.latest? h.id = some h
  /-- Only an answer brings a submission down. -/
  unanswered : ∀ h ∈ s.submitted, h ∉ s.answers.map Prod.fst → h ∈ flying
  abandoned : ∀ h ∈ flying, h ∉ s.dispatcher.pending →
    s.GivenUp h ∨ s.dispatcher.driver.poison ≠ none
  endings : ∀ h, s.endings h = if h ∈ s.submitted ∧ h ∉ s.dispatcher.pending then 1 else 0
  settled : ∀ p ∈ s.dispatcher.settled, s.Cause p.1 p.2
  held : s.held.Nodup
  holders : ∀ h ∈ s.held, h ∈ s.submitted
    ∧ (h ∈ s.dispatcher.pending ∨ h ∈ s.dispatcher.settled.map Prod.fst)

/-- What an act does that submits nothing. The commands of `new` are settled, and of the submissions in flight
those of `flying'` are left. -/
structure Effect (flying : List Handle) (s : Service) (a : Act) (receipt : Receipt) (d : Dispatcher)
    (memory : Region) (flying' : List Handle) (new : List (Handle × Outcome)) : Prop where
  performed : s.dispatcher.act s.memory a = (receipt, d, memory)
  silent : ∀ h, receipt ≠ .submitted h
  attributed : Attributed flying' s.answers d.driver memory
  pending : d.pending.Sublist flying'
  fewer : flying'.Sublist flying
  landed : ∀ h ∈ flying, h ∈ flying' ∨ h ∈ s.answers.map Prod.fst
  settled : d.settled = new ++ s.dispatcher.settled
  shrinks : ∀ h ∈ d.pending, h ∈ s.dispatcher.pending
  /-- Whatever is settled was pending, and the act says why. -/
  given : ∀ p ∈ new, p.1 ∈ s.dispatcher.pending ∧ p.1 ∉ d.pending
    ∧ Moment.Gives s.answers ⟨a, receipt, s.dispatcher.pending, d.pending⟩ p.1 p.2
  /-- Nobody is forgotten who still has the handle. -/
  remembered : ∀ h ∈ s.dispatcher.pending,
    h ∈ d.pending ∨ h ∈ new.map Prod.fst ∨ h ∉ heldAfter s.held a receipt
  abandoned : ∀ h ∈ flying', h ∈ s.dispatcher.pending →
    h ∈ d.pending ∨ (a = .expire h ∨ a = .giveUp h ∨ a = .cancel h.id) ∨ d.driver.poison ≠ none
  poison : s.dispatcher.driver.poison ≠ none → d.driver.poison ≠ none

/-- What an act does that submits a command: `x` is a new handle, and nobody else is touched. -/
structure Publication (flying : List Handle) (s : Service) (a : Act) (x : Handle) (d : Dispatcher)
    (memory : Region) : Prop where
  performed : s.dispatcher.act s.memory a = (.submitted x, d, memory)
  attributed : Attributed (x :: flying) s.answers d.driver memory
  fresh : x ∉ s.submitted
  pending : d.pending = x :: s.dispatcher.pending
  settled : d.settled = s.dispatcher.settled
  poison : d.driver.poison = s.dispatcher.driver.poison

variable {s : Service} {flying : List Handle}

theorem Tracked.known (ht : Tracked flying s) {h : Handle} (hh : h ∈ flying) : h ∈ s.submitted :=
  List.mem_of_find?_eq_some (ht.newest h hh)

/-! ## The history -/

section

variable {a : Act} {receipt : Receipt} {d : Dispatcher} {memory : Region}

theorem perform_eq (h : s.dispatcher.act s.memory a = (receipt, d, memory)) :
    s.perform a = ⟨d, memory, heldAfter s.held a receipt, s.answers,
      ⟨a, receipt, s.dispatcher.pending, d.pending⟩ :: s.log⟩ := by
  unfold perform
  rw [h]

theorem dispatcher_perform (h : s.dispatcher.act s.memory a = (receipt, d, memory)) :
    (s.perform a).dispatcher = d := by
  rw [perform_eq h]

theorem memory_perform (h : s.dispatcher.act s.memory a = (receipt, d, memory)) :
    (s.perform a).memory = memory := by
  rw [perform_eq h]

theorem held_perform (h : s.dispatcher.act s.memory a = (receipt, d, memory)) :
    (s.perform a).held = heldAfter s.held a receipt := by
  rw [perform_eq h]

/-- What an act ends is counted. -/
theorem endings_perform (h : s.dispatcher.act s.memory a = (receipt, d, memory)) (x : Handle) :
    (s.perform a).endings x
      = s.endings x + if x ∈ s.dispatcher.pending ∧ x ∉ d.pending then 1 else 0 := by
  rw [perform_eq h]
  unfold endings
  rw [List.countP_cons]
  by_cases hends : x ∈ s.dispatcher.pending ∧ x ∉ d.pending
  · have hmoment : Moment.Ends ⟨a, receipt, s.dispatcher.pending, d.pending⟩ x := hends
    rw [if_pos (decide_eq_true hmoment), if_pos hends]
  · have hmoment : ¬ Moment.Ends ⟨a, receipt, s.dispatcher.pending, d.pending⟩ x := hends
    rw [if_neg fun hd => hmoment (of_decide_eq_true hd), if_neg hends]

theorem submitted_perform_of_silent (h : s.dispatcher.act s.memory a = (receipt, d, memory))
    (hsilent : ∀ x, receipt ≠ .submitted x) : (s.perform a).submitted = s.submitted := by
  have hnone : Moment.submitted? ⟨a, receipt, s.dispatcher.pending, d.pending⟩ = none := by
    unfold Moment.submitted?
    cases receipt with
    | submitted x => exact absurd rfl (hsilent x)
    | _ => rfl
  rw [perform_eq h]
  exact List.filterMap_cons_none hnone

theorem submitted_perform {x : Handle} (h : s.dispatcher.act s.memory a = (.submitted x, d, memory)) :
    (s.perform a).submitted = x :: s.submitted := by
  rw [perform_eq h]
  exact List.filterMap_cons_some rfl

/-- An act goes on record. -/
theorem moment_mem_log_perform (h : s.dispatcher.act s.memory a = (receipt, d, memory)) :
    ⟨a, receipt, s.dispatcher.pending, d.pending⟩ ∈ (s.perform a).log := by
  rw [perform_eq h]
  exact List.mem_cons_self

end

/-- What was done before stays on record. -/
theorem mem_log_perform {m : Moment} (hm : m ∈ s.log) (a : Act) : m ∈ (s.perform a).log :=
  List.mem_cons_of_mem _ hm

theorem GivenUp.perform {h : Handle} (hg : s.GivenUp h) (a : Act) : (s.perform a).GivenUp h := by
  obtain ⟨m, hm, hends⟩ := hg
  exact ⟨m, mem_log_perform hm a, hends⟩

theorem Gives.mono {answers answers' : List (Handle × Response)} {m : Moment} {h : Handle}
    {outcome : Outcome} (hg : m.Gives answers h outcome) (hanswers : ∀ p ∈ answers, p ∈ answers') :
    m.Gives answers' h outcome := by
  cases hg with
  | answered hact hanswer => exact .answered hact (hanswers _ hanswer)
  | cancelled hact hfound => exact .cancelled hact hfound
  | failed hact hreceipt => exact .failed hact hreceipt

theorem Cause.perform {h : Handle} {outcome : Outcome} (hc : s.Cause h outcome) (a : Act) :
    (s.perform a).Cause h outcome := by
  obtain ⟨m, hm, hends, hgives⟩ := hc
  exact ⟨m, mem_log_perform hm a, hends, hgives⟩

/-- Every end is counted. -/
theorem endings_pos {h : Handle} {m : Moment} (hm : m ∈ s.log) (hends : m.Ends h) : 0 < s.endings h := by
  unfold endings
  rw [List.countP_pos_iff]
  exact ⟨m, hm, decide_eq_true hends⟩

theorem mem_heldAfter {held : List Handle} {a : Act} {receipt : Receipt}
    (hsilent : ∀ h, receipt ≠ .submitted h) {x : Handle} (hx : x ∈ heldAfter held a receipt) :
    x ∈ held := by
  unfold heldAfter at hx
  split at hx
  · exact absurd rfl (hsilent _)
  · exact hx
  · split at hx
    · exact List.mem_of_mem_erase hx
    · exact hx

theorem nodup_heldAfter {held : List Handle} (hn : held.Nodup) {a : Act} {receipt : Receipt}
    (hsilent : ∀ h, receipt ≠ .submitted h) : (heldAfter held a receipt).Nodup := by
  unfold heldAfter
  split
  · exact absurd rfl (hsilent _)
  · exact hn
  · split
    · exact hn.erase _
    · exact hn

/-! ## Tickets -/

/-- A service submits what its dispatcher gives out. -/
theorem reverse_submitted_perform (s : Service) (a : Act) :
    (s.perform a).submitted.reverse
      = s.submitted.reverse ++ (s.dispatcher.act s.memory a).1.given := by
  rcases hact : s.dispatcher.act s.memory a with ⟨receipt, d, memory⟩
  cases receipt with
  | submitted x =>
      rw [submitted_perform hact]
      exact List.reverse_cons
  | _ =>
      rw [submitted_perform_of_silent hact fun _ => Receipt.noConfusion]
      exact (List.append_nil _).symm

/-- **Every service is a dispatcher with an account of its handles**, by induction on what has happened. -/
theorem issued_of_reachable (h : Reachable s) : Dispatcher.Issued s.submitted.reverse s.dispatcher := by
  induction h with
  | opened bell hattach => exact .new bell hattach
  | @performed s a _ _ ih =>
      rw [reverse_submitted_perform, dispatcher_perform rfl]
      exact ih.acted s.memory a
  | answered _ _ _ _ _ _ _ _ _ _ ih => exact ih
  | meddled _ bell _ _ ih => exact ih.signalled bell

/-! ## After an effect -/

namespace Effect

variable {a : Act} {receipt : Receipt} {d : Dispatcher} {memory : Region} {flying' : List Handle}
  {new : List (Handle × Outcome)}

theorem submitted_eq (he : Effect flying s a receipt d memory flying' new) :
    (s.perform a).submitted = s.submitted :=
  submitted_perform_of_silent he.performed he.silent

/-- No id is given out. -/
theorem newest_after (he : Effect flying s a receipt d memory flying' new) (ht : Tracked flying s)
    {h : Handle} (hh : h ∈ flying') : (s.perform a).latest? h.id = some h := by
  unfold latest?
  rw [he.submitted_eq]
  exact ht.newest h (he.fewer.subset hh)

theorem unanswered_after (he : Effect flying s a receipt d memory flying' new) (ht : Tracked flying s)
    {h : Handle} (hh : h ∈ (s.perform a).submitted) (hanswers : h ∉ s.answers.map Prod.fst) :
    h ∈ flying' := by
  rw [he.submitted_eq] at hh
  rcases he.landed h (ht.unanswered h hh hanswers) with hflying | hlanded
  · exact hflying
  · exact absurd hlanded hanswers

theorem abandoned_after (he : Effect flying s a receipt d memory flying' new) (ht : Tracked flying s)
    {h : Handle} (hh : h ∈ flying') (hgone : h ∉ d.pending) :
    (s.perform a).GivenUp h ∨ d.driver.poison ≠ none := by
  by_cases hpending : h ∈ s.dispatcher.pending
  · rcases he.abandoned h hh hpending with hstill | hact | hpoison
    · exact absurd hstill hgone
    · exact Or.inl ⟨_, moment_mem_log_perform he.performed, ⟨hpending, hgone⟩, hact⟩
    · exact Or.inr hpoison
  · rcases ht.abandoned h (he.fewer.subset hh) hpending with hgiven | hpoison
    · exact Or.inl (hgiven.perform a)
    · exact Or.inr (he.poison hpoison)

theorem endings_after (he : Effect flying s a receipt d memory flying' new) (ht : Tracked flying s)
    (h : Handle) :
    (s.perform a).endings h = if h ∈ (s.perform a).submitted ∧ h ∉ d.pending then 1 else 0 := by
  rw [endings_perform he.performed, he.submitted_eq, ht.endings h]
  by_cases hpending : h ∈ s.dispatcher.pending
  -- it was never ended, and this act may be its end
  · have hmember := ht.known (ht.pending.subset hpending)
    simp [hpending, hmember]
  · have hgone : h ∉ d.pending := fun hstill => hpending (he.shrinks h hstill)
    simp [hpending, hgone]

theorem settled_after (he : Effect flying s a receipt d memory flying' new) (ht : Tracked flying s)
    {p : Handle × Outcome} (hp : p ∈ d.settled) : (s.perform a).Cause p.1 p.2 := by
  rw [he.settled] at hp
  rcases List.mem_append.mp hp with hp | hp
  · obtain ⟨hpending, hgone, hgives⟩ := he.given p hp
    exact ⟨_, moment_mem_log_perform he.performed, ⟨hpending, hgone⟩, hgives⟩
  · exact (ht.settled p hp).perform a

theorem holders_after (he : Effect flying s a receipt d memory flying' new) (ht : Tracked flying s)
    {h : Handle} (hh : h ∈ heldAfter s.held a receipt) :
    h ∈ (s.perform a).submitted ∧ (h ∈ d.pending ∨ h ∈ d.settled.map Prod.fst) := by
  obtain ⟨hmember, hwaits⟩ := ht.holders h (mem_heldAfter he.silent hh)
  rw [he.submitted_eq, he.settled, List.map_append, List.mem_append]
  refine ⟨hmember, ?_⟩
  rcases hwaits with hpending | hsettled
  · rcases he.remembered h hpending with hstill | hnew | hnobody
    · exact Or.inl hstill
    · exact Or.inr (Or.inl hnew)
    · exact absurd hh hnobody
  · exact Or.inr (Or.inr hsettled)

end Effect

/-- **Effects keep a service in order.** -/
theorem Tracked.of_effect (ht : Tracked flying s) {a : Act} {receipt : Receipt} {d : Dispatcher}
    {memory : Region} {flying' : List Handle} {new : List (Handle × Outcome)}
    (he : Effect flying s a receipt d memory flying' new) : Tracked flying' (s.perform a) := by
  obtain rfl : d = (s.perform a).dispatcher := (dispatcher_perform he.performed).symm
  obtain rfl : memory = (s.perform a).memory := (memory_perform he.performed).symm
  have hheld := held_perform he.performed
  exact {
    attributed := he.attributed
    pending := he.pending
    newest := fun _ hh => he.newest_after ht hh
    unanswered := fun _ hh hanswers => he.unanswered_after ht hh hanswers
    abandoned := fun _ hh hgone => he.abandoned_after ht hh hgone
    endings := he.endings_after ht
    settled := fun _ hp => he.settled_after ht hp
    held := by
      rw [hheld]
      exact nodup_heldAfter ht.held he.silent
    holders := by
      intro h hh
      rw [hheld] at hh
      exact he.holders_after ht hh }

/-! ## After a publication -/

namespace Publication

variable {a : Act} {x : Handle} {d : Dispatcher} {memory : Region}

theorem newest_after (hp : Publication flying s a x d memory) (ht : Tracked flying s) {h : Handle}
    (hh : h ∈ x :: flying) : (s.perform a).latest? h.id = some h := by
  unfold latest?
  rw [submitted_perform hp.performed]
  rcases List.mem_cons.mp hh with rfl | hh
  · exact List.find?_cons_of_pos (decide_eq_true rfl)
  -- the id of `x` was not in flight, so the search passes it over
  · obtain ⟨hunused, _⟩ := List.nodup_cons.mp hp.attributed.keyed
    have hother : ¬ x.id = h.id := fun hsame => hunused (hsame ▸ List.mem_map_of_mem hh)
    exact (List.find?_cons_of_neg (by simpa using hother)).trans (ht.newest h hh)

theorem unanswered_after (hp : Publication flying s a x d memory) (ht : Tracked flying s) {h : Handle}
    (hh : h ∈ (s.perform a).submitted) (hanswers : h ∉ s.answers.map Prod.fst) : h ∈ x :: flying := by
  rw [submitted_perform hp.performed] at hh
  rcases List.mem_cons.mp hh with rfl | hh
  · exact List.mem_cons_self
  · exact List.mem_cons_of_mem _ (ht.unanswered h hh hanswers)

theorem abandoned_after (hp : Publication flying s a x d memory) (ht : Tracked flying s) {h : Handle}
    (hh : h ∈ x :: flying) (hgone : h ∉ d.pending) :
    (s.perform a).GivenUp h ∨ d.driver.poison ≠ none := by
  rw [hp.pending] at hgone
  rw [hp.poison]
  rcases List.mem_cons.mp hh with rfl | hh
  · exact absurd List.mem_cons_self hgone
  · rcases ht.abandoned h hh fun hpending => hgone (List.mem_cons_of_mem _ hpending) with
      hgiven | hpoison
    · exact Or.inl (hgiven.perform a)
    · exact Or.inr hpoison

/-- Nobody is ended by a publication. -/
theorem endings_after (hp : Publication flying s a x d memory) (ht : Tracked flying s) (h : Handle) :
    (s.perform a).endings h = if h ∈ (s.perform a).submitted ∧ h ∉ d.pending then 1 else 0 := by
  rw [endings_perform hp.performed, submitted_perform hp.performed, hp.pending, ht.endings h]
  by_cases hsame : h = x
  · subst hsame
    simp [hp.fresh]
  · by_cases hpending : h ∈ s.dispatcher.pending
    · simp [hpending]
    · simp [hpending, hsame]

theorem settled_after (hp : Publication flying s a x d memory) (ht : Tracked flying s)
    {p : Handle × Outcome} (hsettled : p ∈ d.settled) : (s.perform a).Cause p.1 p.2 := by
  rw [hp.settled] at hsettled
  exact (ht.settled p hsettled).perform a

theorem nodup_held_after (hp : Publication flying s a x d memory) (ht : Tracked flying s) :
    (x :: s.held).Nodup :=
  List.nodup_cons.mpr ⟨fun hheld => hp.fresh (ht.holders x hheld).1, ht.held⟩

theorem holders_after (hp : Publication flying s a x d memory) (ht : Tracked flying s) {h : Handle}
    (hh : h ∈ x :: s.held) :
    h ∈ (s.perform a).submitted ∧ (h ∈ d.pending ∨ h ∈ d.settled.map Prod.fst) := by
  rw [submitted_perform hp.performed, hp.pending, hp.settled]
  rcases List.mem_cons.mp hh with rfl | hh
  · exact ⟨List.mem_cons_self, Or.inl List.mem_cons_self⟩
  · obtain ⟨hmember, hwaits⟩ := ht.holders h hh
    exact ⟨List.mem_cons_of_mem _ hmember, hwaits.imp_left (List.mem_cons_of_mem _)⟩

end Publication

/-- **A publication keeps a service in order.** -/
theorem Tracked.of_publication (ht : Tracked flying s) {a : Act} {x : Handle} {d : Dispatcher}
    {memory : Region} (hp : Publication flying s a x d memory) : Tracked (x :: flying) (s.perform a) := by
  obtain rfl : d = (s.perform a).dispatcher := (dispatcher_perform hp.performed).symm
  obtain rfl : memory = (s.perform a).memory := (memory_perform hp.performed).symm
  have hheld : (s.perform a).held = x :: s.held := held_perform hp.performed
  exact {
    attributed := hp.attributed
    pending := by
      rw [hp.pending]
      exact ht.pending.cons_cons x
    newest := fun _ hh => hp.newest_after ht hh
    unanswered := fun _ hh hanswers => hp.unanswered_after ht hh hanswers
    abandoned := fun _ hh hgone => hp.abandoned_after ht hh hgone
    endings := hp.endings_after ht
    settled := fun _ hsettled => hp.settled_after ht hsettled
    held := by
      rw [hheld]
      exact hp.nodup_held_after ht
    holders := by
      intro h hh
      rw [hheld] at hh
      exact hp.holders_after ht hh }

/-! ## What each act does -/

theorem Tracked.keyed (ht : Tracked flying s) : WellKeyed s.dispatcher.pending :=
  ht.attributed.keyed.sublist ht.pending

/-- An act that settles whatever it takes off the pending list. -/
theorem Effect.of_settles (ht : Tracked flying s) {a : Act} {receipt : Receipt} {d : Dispatcher}
    {memory : Region} {flying' : List Handle} {new : List (Handle × Outcome)}
    (hact : s.dispatcher.act s.memory a = (receipt, d, memory)) (hsilent : ∀ h, receipt ≠ .submitted h)
    (hattributed : Attributed flying' s.answers d.driver memory) (hpending : d.pending.Sublist flying')
    (hfewer : flying'.Sublist flying) (hlanded : ∀ h ∈ flying, h ∈ flying' ∨ h ∈ s.answers.map Prod.fst)
    (hsettles : Dispatcher.Settles s.dispatcher d new)
    (hgives : ∀ p ∈ new,
      Moment.Gives s.answers ⟨a, receipt, s.dispatcher.pending, d.pending⟩ p.1 p.2)
    (habandoned : ∀ h ∈ flying', h ∈ s.dispatcher.pending →
      h ∈ d.pending ∨ (a = .expire h ∨ a = .giveUp h ∨ a = .cancel h.id) ∨ d.driver.poison ≠ none)
    (hpoison : s.dispatcher.driver.poison ≠ none → d.driver.poison ≠ none) :
    Effect flying s a receipt d memory flying' new where
  performed := hact
  silent := hsilent
  attributed := hattributed
  pending := hpending
  fewer := hfewer
  landed := hlanded
  settled := hsettles.settled
  shrinks := fun _ hh => hsettles.mem_of_pending hh
  given := by
    intro p hp
    obtain ⟨hbefore, hafter⟩ := hsettles.mem_of_new ht.keyed hp
    exact ⟨hbefore, hafter, hgives p hp⟩
  remembered := by
    intro h hh
    rcases hsettles.mem_or hh with hstill | hnew
    · exact Or.inl hstill
    · exact Or.inr (Or.inl hnew)
  abandoned := habandoned
  poison := hpoison

/-- An act that changes nothing. -/
theorem Effect.idle (ht : Tracked flying s) {a : Act} {receipt : Receipt}
    (hact : s.dispatcher.act s.memory a = (receipt, s.dispatcher, s.memory))
    (hsilent : ∀ h, receipt ≠ .submitted h) :
    Effect flying s a receipt s.dispatcher s.memory flying [] := by
  refine Effect.of_settles ht hact hsilent ht.attributed ht.pending (List.Sublist.refl _)
    (fun _ hh => Or.inl hh) (.refl _) (fun _ hp => absurd hp List.not_mem_nil) ?_ (fun hp => hp)
  intro h _ hpending
  exact Or.inl hpending

/-- A holder who gives up takes one command off the list, and has the handle no longer. -/
theorem Effect.forgotten (ht : Tracked flying s) {a : Act} {receipt : Receipt} {x : Handle}
    (hkind : a = .expire x ∨ a = .giveUp x)
    (hact : s.dispatcher.act s.memory a
      = (receipt, { s.dispatcher with pending := s.dispatcher.pending.erase x }, s.memory))
    (hsilent : ∀ h, receipt ≠ .submitted h) (hover : receipt ≠ .waiting) :
    Effect flying s a receipt { s.dispatcher with pending := s.dispatcher.pending.erase x } s.memory
      flying [] where
  performed := hact
  silent := hsilent
  attributed := ht.attributed
  pending := List.erase_sublist.trans ht.pending
  fewer := List.Sublist.refl _
  landed := fun _ hh => Or.inl hh
  settled := rfl
  shrinks := fun _ hh => List.mem_of_mem_erase hh
  given := fun _ hp => absurd hp List.not_mem_nil
  remembered := by
    intro h hh
    by_cases hsame : h = x
    · subst hsame
      refine Or.inr (Or.inr ?_)
      have hheld : heldAfter s.held a receipt = s.held.erase h := by
        unfold heldAfter
        split
        · exact absurd rfl (hsilent _)
        · exact absurd rfl hover
        · rcases hkind with rfl | rfl <;> rfl
      rw [hheld]
      exact fun hmem => (ht.held.mem_erase_iff.mp hmem).1 rfl
    · exact Or.inl ((List.mem_erase_of_ne hsame).mpr hh)
  abandoned := by
    intro h _ hh
    by_cases hsame : h = x
    · subst hsame
      rcases hkind with hkind | hkind
      · exact Or.inr (Or.inl (Or.inl hkind))
      · exact Or.inr (Or.inl (Or.inr (Or.inl hkind)))
    · exact Or.inl ((List.mem_erase_of_ne hsame).mpr hh)
  poison := fun hp => hp

theorem Effect.cancelled (ht : Tracked flying s) {x : Handle} (hx : x ∈ s.dispatcher.pending)
    (hact : s.dispatcher.cancel x.id
      = (true, s.dispatcher.settle x (.error (.cancelled x.id)))) :
    Effect flying s (.cancel x.id) (.found true) (s.dispatcher.settle x (.error (.cancelled x.id)))
      s.memory flying [(x, .error (.cancelled x.id))] := by
  refine Effect.of_settles ht ?_ (fun _ => Receipt.noConfusion) ht.attributed
    ((Dispatcher.withoutId_sublist _ _).trans ht.pending) (List.Sublist.refl _)
    (fun _ hh => Or.inl hh) (Dispatcher.settles_settle ht.keyed hx _) ?_ ?_ (fun hp => hp)
  · rw [Dispatcher.act, hact]
  · intro p hp
    rw [List.mem_singleton.mp hp]
    exact .cancelled rfl rfl
  · intro h _ hh
    by_cases hid : h.id = x.id
    · rw [hid]
      exact Or.inr (Or.inl (Or.inr (Or.inr rfl)))
    · exact Or.inl (Dispatcher.mem_withoutId.mpr ⟨hh, hid⟩)

/-- A corruption fails whatever is pending when it is found. A pump may find it after it handed over some
responses. -/
theorem Effect.failed (ht : Tracked flying s) {a : Act} (hkind : a = .pump ∨ ∃ command, a = .submit command)
    {driver : Driver} {reason : Corruption} {taken : List Response} {flying' : List Handle}
    {new : List (Handle × Outcome)} (hpump : new ≠ [] → a = .pump)
    (hattributed : Attributed flying' s.answers driver s.memory) (hpoison : driver.poison ≠ none)
    (hdelivery : Dispatcher.Delivery s.answers flying { s.dispatcher with driver := driver } taken
      flying' ({ s.dispatcher with driver := driver }.handOver taken) new)
    (hact : s.dispatcher.act s.memory a = (.failed (.corrupt reason),
      ({ s.dispatcher with driver := driver }.handOver taken).failAll (.corrupt reason), s.memory)) :
    ∃ new', Effect flying s a (.failed (.corrupt reason))
      (({ s.dispatcher with driver := driver }.handOver taken).failAll (.corrupt reason)) s.memory
      flying' new' := by
  have hdriver : (({ s.dispatcher with driver := driver }.handOver taken).failAll
      (.corrupt reason)).driver = driver := Dispatcher.handOver_driver ..
  refine ⟨_, Effect.of_settles ht hact (fun _ => Receipt.noConfusion) ?_ (List.nil_sublist _)
    hdelivery.fewer hdelivery.landed
    (hdelivery.settles.of_driver.trans (Dispatcher.settles_failAll _ reason)) ?_ ?_ ?_⟩
  · rw [hdriver]
    exact hattributed
  · intro p hp
    rcases List.mem_append.mp hp with hp | hp
    · obtain ⟨h, _, rfl⟩ := List.mem_map.mp hp
      exact .failed hkind rfl
    · obtain ⟨r, hr, hanswer⟩ := hdelivery.own p hp
      rw [hr]
      exact .answered (hpump (List.ne_nil_of_mem hp)) hanswer
  · intro h _ _
    rw [hdriver]
    exact Or.inr (Or.inr hpoison)
  · intro _
    rw [hdriver]
    exact hpoison

/-- **A command that is published is a new one**: its id is not in flight, and its ticket was never used. -/
theorem Tracked.publication (ht : Tracked flying s)
    (hticketed : Dispatcher.Ticketed s.submitted.reverse s.dispatcher) {command : Command} {id : CommandId}
    {slot : Bytes} (hcheck : s.dispatcher.driver.checkCommand command = .ok ()) (h0 : id ≠ 0)
    (hfree : id ∉ s.dispatcher.driver.inFlight)
    (hslot : s.dispatcher.driver.slotFor id command = .ok slot)
    (hin : s.dispatcher.driver.geometry.slotStart s.dispatcher.driver.cursor.tail.index.toNat
      + s.dispatcher.driver.geometry.slotSize.toNat ≤ s.memory.length)
    (hr : s.dispatcher.submit s.memory command = (.ok ⟨id, s.dispatcher.nextTicket⟩,
      s.dispatcher.submitted id, s.dispatcher.driver.writtenTo s.memory slot)) :
    Publication flying s (.submit command) ⟨id, s.dispatcher.nextTicket⟩ (s.dispatcher.submitted id)
      (s.dispatcher.driver.writtenTo s.memory slot) where
  performed := by rw [Dispatcher.act, hr]
  attributed := ht.attributed.submitted hcheck h0 hfree hslot hin s.dispatcher.nextTicket
  fresh := fun hmem => hticketed.next_notMem id (List.mem_reverse.mpr hmem)
  pending := by
    have hunused : id ∉ s.dispatcher.pending.map Handle.id := by
      intro hid
      rw [← ht.attributed.ids] at hfree
      exact hfree ((ht.pending.map Handle.id).subset hid)
    exact congrArg (List.cons _) (Dispatcher.withoutId_of_unused hunused)
  settled := rfl
  poison := rfl

/-- **A submit is refused, or makes one more command pending.** -/
theorem Tracked.submit (ht : Tracked flying s)
    (hticketed : Dispatcher.Ticketed s.submitted.reverse s.dispatcher) (command : Command) :
    ∃ flying', Tracked flying' (s.perform (.submit command)) := by
  have hact : ∀ {reply d memory}, s.dispatcher.submit s.memory command = (.error reply, d, memory) →
      s.dispatcher.act s.memory (.submit command) = (.failed reply, d, memory) := by
    intro reply d memory hr
    rw [Dispatcher.act, hr]
  rcases Dispatcher.submit_cases ht.attributed.sound s.memory command with
    ⟨e, hcheck, hr⟩ | ⟨id, reason, hr⟩ | ⟨id, slot, hcheck, h0, hfree, hslot, hin, hr⟩
  · rcases Dispatcher.failAll_cases s.dispatcher e with ⟨reason, rfl, _⟩ | ⟨_, hsame⟩
    -- a driver that trusts the memory refuses no command because of it
    · have hpoison : s.dispatcher.driver.poison ≠ none := by
        intro hp
        exact Driver.checkCommand_ne_corrupt hp hcheck
      obtain ⟨_, he⟩ := Effect.failed ht (Or.inr ⟨command, rfl⟩) (fun hn => absurd rfl hn)
        ht.attributed hpoison (.nil ht.pending) (hact hr)
      exact ⟨flying, ht.of_effect he⟩
    · rw [hsame] at hr
      exact ⟨flying, ht.of_effect (.idle ht (hact hr) fun _ => Receipt.noConfusion)⟩
  · have hs := ht.attributed.sound
    have hfrozen : Attributed flying s.answers
        { s.dispatcher.driver with nextId := CommandId.successor id, poison := some reason } s.memory :=
      ht.attributed.of_frozen ⟨hs.geometry, hs.capacity, hs.ahead, hs.nodup, hs.zero_notMem,
        CommandId.successor_ne_zero id⟩ rfl rfl rfl rfl
    obtain ⟨_, he⟩ := Effect.failed ht (Or.inr ⟨command, rfl⟩) (fun hn => absurd rfl hn)
      hfrozen (fun hn => by simp at hn) (.nil ht.pending) (hact hr)
    exact ⟨flying, ht.of_effect he⟩
  · exact ⟨_, ht.of_publication (ht.publication hticketed hcheck h0 hfree hslot hin hr)⟩

/-- **A pump settles commands with their answers**, and the rest of them if it finds a corruption. -/
theorem Tracked.pump (ht : Tracked flying s) : ∃ flying', Tracked flying' (s.perform .pump) := by
  have hact : ∀ {e d}, s.dispatcher.pump s.memory = (.error e, d) →
      s.dispatcher.act s.memory .pump = (.failed e, d, s.memory) := by
    intro e d hr
    rw [Dispatcher.act, hr]
  rcases Dispatcher.pump_cases ht.attributed.sound ht.keyed s.memory with
    ⟨reason, _, hr⟩ | ⟨htrusting, taken, driver, count, htaken, _, hr, _⟩
      | ⟨_, taken, driver, reason, htaken, _, hr⟩
  · obtain ⟨_, he⟩ := Effect.failed ht (Or.inl rfl) (fun _ => rfl) (ht.attributed.poisonedBy _)
      (Driver.poison_poisonedBy_ne_none _ reason) (.nil ht.pending) (hact hr)
    exact ⟨flying, ht.of_effect he⟩
  · obtain ⟨flying', new, hattributed, hdelivery⟩ :=
      Dispatcher.delivery_all (d := { s.dispatcher with driver := driver }) htaken ht.attributed
        ht.pending
    have hok : s.dispatcher.act s.memory .pump = (.pumped count,
        { s.dispatcher with driver := driver }.handOver taken, s.memory) := by
      rw [Dispatcher.act, hr]
    refine ⟨flying', ht.of_effect (Effect.of_settles ht hok (fun _ => Receipt.noConfusion) ?_
      hdelivery.pending hdelivery.fewer hdelivery.landed hdelivery.settles.of_driver ?_ ?_ ?_)⟩
    · rw [Dispatcher.handOver_driver]
      exact hattributed
    · intro p hp
      obtain ⟨r, hresponse, hanswer⟩ := hdelivery.own p hp
      rw [hresponse]
      exact .answered rfl hanswer
    · intro h hh hpending
      exact Or.inl (hdelivery.kept h hh hpending)
    · intro hpoison
      exact absurd htrusting hpoison
  · obtain ⟨flying', new, hattributed, hdelivery⟩ :=
      Dispatcher.delivery_all (d := { s.dispatcher with driver := driver.poisonedBy (.corrupt reason) })
        htaken ht.attributed ht.pending
    obtain ⟨_, he⟩ := Effect.failed ht (Or.inl rfl) (fun _ => rfl) (hattributed.poisonedBy _)
      (Driver.poison_poisonedBy_ne_none _ reason) hdelivery (hact hr)
    exact ⟨flying', ht.of_effect he⟩

theorem Tracked.cancel (ht : Tracked flying s) (id : CommandId) : Tracked flying (s.perform (.cancel id)) := by
  rcases Dispatcher.cancel_cases ht.keyed id with ⟨x, hx, rfl, hr⟩ | ⟨_, hr⟩
  · exact ht.of_effect (.cancelled ht hx hr)
  · have hact : s.dispatcher.act s.memory (.cancel id) = (.found false, s.dispatcher, s.memory) := by
      rw [Dispatcher.act, hr]
    exact ht.of_effect (.idle ht hact fun _ => Receipt.noConfusion)

theorem Tracked.look (ht : Tracked flying s) (x : Handle) : Tracked flying (s.perform (.look x)) := by
  rcases hr : s.dispatcher.outcome? x with _ | outcome
  · have hact : s.dispatcher.act s.memory (.look x) = (.waiting, s.dispatcher, s.memory) := by
      rw [Dispatcher.act, hr]
    exact ht.of_effect (.idle ht hact fun _ => Receipt.noConfusion)
  · have hact : s.dispatcher.act s.memory (.look x) = (.ended outcome, s.dispatcher, s.memory) := by
      rw [Dispatcher.act, hr]
    exact ht.of_effect (.idle ht hact fun _ => Receipt.noConfusion)

theorem Tracked.expire (ht : Tracked flying s) (x : Handle) : Tracked flying (s.perform (.expire x)) := by
  rcases s.dispatcher.expire_cases x with ⟨_, hr⟩ | ⟨_, hr⟩
  · have hact : s.dispatcher.act s.memory (.expire x) = (.ended (.error (.timedOut x.id)),
        { s.dispatcher with pending := s.dispatcher.pending.erase x }, s.memory) := by
      rw [Dispatcher.act, hr]
    exact ht.of_effect (.forgotten ht (Or.inl rfl) hact (fun _ => Receipt.noConfusion)
      Receipt.noConfusion)
  · have hact : s.dispatcher.act s.memory (.expire x) = (.ended
        ((s.dispatcher.settled.lookup x).getD (.error (.timedOut x.id))), s.dispatcher, s.memory) := by
      rw [Dispatcher.act, hr]
    exact ht.of_effect (.idle ht hact fun _ => Receipt.noConfusion)

theorem Tracked.giveUp (ht : Tracked flying s) (x : Handle) : Tracked flying (s.perform (.giveUp x)) := by
  rcases s.dispatcher.forget_cases x with ⟨_, hr⟩ | ⟨_, hr⟩
  · have hact : s.dispatcher.act s.memory (.giveUp x) = (.found true,
        { s.dispatcher with pending := s.dispatcher.pending.erase x }, s.memory) := by
      rw [Dispatcher.act, hr]
    exact ht.of_effect (.forgotten ht (Or.inr rfl) hact (fun _ => Receipt.noConfusion)
      Receipt.noConfusion)
  · have hact : s.dispatcher.act s.memory (.giveUp x) = (.found false, s.dispatcher, s.memory) := by
      rw [Dispatcher.act, hr]
    exact ht.of_effect (.idle ht hact fun _ => Receipt.noConfusion)

/-- **Every act keeps a service in order.** -/
theorem Tracked.perform (ht : Tracked flying s)
    (hticketed : Dispatcher.Ticketed s.submitted.reverse s.dispatcher) (a : Act) :
    ∃ flying', Tracked flying' (s.perform a) := by
  cases a with
  | submit command => exact ht.submit hticketed command
  | pump => exact ht.pump
  | cancel id => exact ⟨flying, ht.cancel id⟩
  | look h => exact ⟨flying, ht.look h⟩
  | expire h => exact ⟨flying, ht.expire h⟩
  | giveUp h => exact ⟨flying, ht.giveUp h⟩

/-! ## Runs -/

theorem tracked_opened {layout : Layout} {memory memory' : Region} {driver : Driver} (bell : Doorbell)
    (h : Driver.attach layout memory = (.ok driver, memory')) :
    Tracked [] ⟨.new driver bell, memory', [], [], []⟩ := by
  have hsound := Driver.sound_attach h
  obtain ⟨_, _, _, _, _, _, hdriver⟩ := Driver.attach_eq_ok h
  have hempty : driver.inFlight = [] := by
    rw [hdriver]
    rfl
  -- nothing is in flight, so nothing can be found
  have hnothing : ∀ k r, ¬ driver.Finds memory' k r := by
    intro k r hfinds
    have hoccupied := hfinds.occupied
    rw [hempty] at hoccupied
    exact Nat.not_lt_zero k hoccupied
  exact {
    attributed := {
      sound := hsound
      ids := hempty.symm
      named := fun _ hp => absurd hp List.not_mem_nil
      owned := fun k r hk => absurd hk (hnothing k r)
      distinct := fun k _ r _ hk => absurd hk (hnothing k r) }
    pending := List.Sublist.refl _
    newest := fun _ hh => absurd hh List.not_mem_nil
    unanswered := fun _ hh => absurd hh List.not_mem_nil
    abandoned := fun _ hh => absurd hh List.not_mem_nil
    endings := by
      intro h
      rw [if_neg (fun hh => List.not_mem_nil hh.1)]
      rfl
    settled := fun _ hp => absurd hp List.not_mem_nil
    held := List.nodup_nil
    holders := fun _ hh => absurd hh List.not_mem_nil }

/-- What the kernel does concerns the memory and the answers alone. -/
theorem Tracked.of_kernel (ht : Tracked flying s) {memory : Region} {bell : Doorbell}
    {answers : List (Handle × Response)} (hmore : ∀ p ∈ s.answers, p ∈ answers)
    (ha : Attributed flying answers s.dispatcher.driver memory) :
    Tracked flying { s with
      memory := memory
      answers := answers
      dispatcher := { s.dispatcher with bell := bell } } := by
  refine ⟨ha, ht.pending, ht.newest, ?_, ht.abandoned, ht.endings, ?_, ht.held, ht.holders⟩
  · intro h hh hanswers
    refine ht.unanswered h hh ?_
    intro hmem
    obtain ⟨p, hp, rfl⟩ := List.mem_map.mp hmem
    exact hanswers (List.mem_map_of_mem (hmore p hp))
  · intro p hp
    obtain ⟨m, hm, hends, hgives⟩ := ht.settled p hp
    exact ⟨m, hm, hends, Gives.mono hgives hmore⟩

/-- **Every service is in order**, by induction on what has happened. -/
theorem tracked_of_reachable (h : Reachable s) : ∃ flying, Tracked flying s := by
  induction h with
  | opened bell hattach => exact ⟨[], tracked_opened bell hattach⟩
  | performed a hs _ ih =>
      obtain ⟨flying, ht⟩ := ih
      exact ht.perform (issued_of_reachable hs).ticketed a
  | @answered s h r i memory _ hsubmitted hfirst hid hshown hothers ih =>
      obtain ⟨flying, ht⟩ := ih
      refine ⟨flying, ht.of_kernel (fun p hp => List.mem_cons_of_mem _ hp) ?_⟩
      refine ht.attributed.answered (ht.unanswered h hsubmitted hfirst) hfirst hid ?_ hothers
      -- a slot shows one response
      intro r' hr'
      have hdecoded := hr'.decoded
      rw [hshown.decoded] at hdecoded
      injection hdecoded with hdecoded
      exact hdecoded.symm
  | @meddled s memory bell _ hnone ih =>
      obtain ⟨flying, ht⟩ := ih
      exact ⟨flying, ht.of_kernel (fun _ hp => hp) (ht.attributed.faded hnone)⟩

end CommandRing.Service
