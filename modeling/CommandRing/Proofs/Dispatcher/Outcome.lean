import CommandRing.Proofs.Dispatcher.Tracking

/-!
# Every command has one outcome, and it is its own

Read off the invariant: a command leaves the pending list once, a wait for it ends with what the act said that
ended its time there, and a response that reaches nobody is the answer to a command that was given up.
-/

namespace CommandRing.Service

variable {s : Service} {flying : List Handle}

/-- **An id says which submission an answer is for**: no two submissions without an answer have the same. -/
theorem unanswered_id_injective (h : Reachable s) {x y : Handle} (hx : x ∈ s.submitted)
    (hy : y ∈ s.submitted) (hx' : x ∉ s.answers.map Prod.fst) (hy' : y ∉ s.answers.map Prod.fst)
    (hid : x.id = y.id) : x = y := by
  obtain ⟨flying, ht⟩ := tracked_of_reachable h
  exact ht.attributed.keyed.eq_of_id_eq (ht.unanswered x hx hx') (ht.unanswered y hy hy') hid

/-! ## What a wait ends with -/

theorem Tracked.endings_of_pending (ht : Tracked flying s) {x : Handle} (hx : x ∈ s.dispatcher.pending) :
    s.endings x = 0 := by
  rw [ht.endings x, if_neg fun hh => hh.2 hx]

/-- Whoever has a handle that is not pending finds its outcome. -/
theorem Tracked.outcome_of_gone (ht : Tracked flying s) {x : Handle} (hheld : x ∈ s.held)
    (hx : x ∉ s.dispatcher.pending) :
    ∃ outcome, s.dispatcher.settled.lookup x = some outcome ∧ s.Cause x outcome := by
  rcases (ht.holders x hheld).2 with hpending | hsettled
  · exact absurd hpending hx
  · rcases hlookup : s.dispatcher.settled.lookup x with _ | outcome
    · exact absurd hlookup (Dispatcher.lookup_ne_none hsettled)
    · exact ⟨outcome, rfl, ht.settled _ (Dispatcher.mem_of_lookup hlookup)⟩

/-- While a command is pending, nothing is on record for it. -/
theorem Tracked.outcome_of_pending (ht : Tracked flying s) {x : Handle}
    (hx : x ∈ s.dispatcher.pending) : s.dispatcher.settled.lookup x = none := by
  rcases hlookup : s.dispatcher.settled.lookup x with _ | outcome
  · rfl
  · obtain ⟨m, hm, hends, _⟩ := ht.settled _ (Dispatcher.mem_of_lookup hlookup)
    have hcounted : 0 < s.endings x := endings_pos hm hends
    have hnever := ht.endings_of_pending hx
    omega

/-- **A wait goes on exactly as long as its command is pending.** -/
theorem wait_goes_on_iff (h : Reachable s) {x : Handle} (hheld : x ∈ s.held) :
    (s.dispatcher.act s.memory (.look x)).1 = .waiting ↔ x ∈ s.dispatcher.pending := by
  obtain ⟨flying, ht⟩ := tracked_of_reachable h
  unfold Dispatcher.act Dispatcher.outcome?
  dsimp only
  by_cases hx : x ∈ s.dispatcher.pending
  · rw [ht.outcome_of_pending hx, if_pos hx]
    exact ⟨fun _ => hx, fun _ => rfl⟩
  · obtain ⟨outcome, hlookup, _⟩ := ht.outcome_of_gone hheld hx
    rw [hlookup]
    exact ⟨Receipt.noConfusion, fun hpending => absurd hpending hx⟩

theorem Tracked.look_ends (ht : Tracked flying s) {x : Handle} (hheld : x ∈ s.held) {outcome : Outcome}
    (hr : (s.dispatcher.act s.memory (.look x)).1 = .ended outcome) : s.Cause x outcome := by
  unfold Dispatcher.act Dispatcher.outcome? at hr
  dsimp only at hr
  by_cases hx : x ∈ s.dispatcher.pending
  · rw [ht.outcome_of_pending hx, if_pos hx] at hr
    exact Receipt.noConfusion hr
  · obtain ⟨found, hlookup, hcause⟩ := ht.outcome_of_gone hheld hx
    rw [hlookup] at hr
    injection hr with hr
    rw [← hr]
    exact hcause

theorem Tracked.expire_ends (ht : Tracked flying s) {x : Handle} (hheld : x ∈ s.held) {outcome : Outcome}
    (hr : (s.dispatcher.act s.memory (.expire x)).1 = .ended outcome) :
    s.Cause x outcome
      ∨ (outcome = .error (.timedOut x.id) ∧ x ∈ s.dispatcher.pending ∧ s.endings x = 0) := by
  unfold Dispatcher.act at hr
  dsimp only at hr
  rcases s.dispatcher.expire_cases x with ⟨hx, he⟩ | ⟨hx, he⟩
  · rw [he] at hr
    injection hr with hr
    exact Or.inr ⟨hr.symm, hx, ht.endings_of_pending hx⟩
  · obtain ⟨found, hlookup, hcause⟩ := ht.outcome_of_gone hheld hx
    rw [he, hlookup] at hr
    injection hr with hr
    rw [← hr]
    exact Or.inl hcause

/-! ## What a pump does with a response -/

theorem mem_of_ok_mem_map {r : Response} {taken : List Response}
    (h : .ok r ∈ taken.map (Except.ok : Response → Outcome)) : r ∈ taken := by
  obtain ⟨r', hr', hsame⟩ := List.mem_map.mp h
  injection hsame with hsame
  rw [← hsame]
  exact hr'

/-- What a pump takes off the ring it hands over, before it fails the rest or not. -/
theorem Tracked.pump_delivers (ht : Tracked flying s) {items : List Outcome} {driver : Driver}
    (hr : s.dispatcher.driver.pollTake s.memory none = (.ok items, driver)) :
    s.dispatcher.driver.poison = none ∧ ∃ taken driver' flying' d' new,
      (∀ r, .ok r ∈ items → r ∈ taken)
        ∧ Dispatcher.Delivery s.answers flying { s.dispatcher with driver := driver' } taken flying' d' new
        ∧ (∀ p ∈ d'.settled, p ∈ (s.dispatcher.pump s.memory).2.settled)
        ∧ ∀ x ∈ (s.dispatcher.pump s.memory).2.pending, x ∈ d'.pending := by
  rcases Dispatcher.pump_cases ht.attributed.sound ht.keyed s.memory with
    ⟨reason, hpoll, _⟩ | ⟨htrusting, taken, driver', count, htaken, hpoll, hpump, _⟩
      | ⟨htrusting, taken, driver', reason, htaken, hpoll, hpump⟩
  · rw [hpoll] at hr
    exact absurd (congrArg Prod.fst hr) (by simp)
  · obtain ⟨flying', new, _, hdelivery⟩ :=
      Dispatcher.delivery_all (d := { s.dispatcher with driver := driver' }) htaken ht.attributed ht.pending
    rw [hpoll] at hr
    injection hr with hitems
    injection hitems with hitems
    rw [hpump]
    refine ⟨htrusting, taken, driver', flying', _, new, ?_, hdelivery, fun _ hp => hp, fun _ hx => hx⟩
    intro r hmem
    rw [← hitems] at hmem
    exact mem_of_ok_mem_map hmem
  · obtain ⟨flying', new, _, hdelivery⟩ :=
      Dispatcher.delivery_all (d := { s.dispatcher with driver := driver'.poisonedBy (.corrupt reason) })
        htaken ht.attributed ht.pending
    rw [hpoll] at hr
    injection hr with hitems
    injection hitems with hitems
    rw [hpump]
    refine ⟨htrusting, taken, _, flying', _, new, ?_, hdelivery, ?_, fun _ hx => absurd hx List.not_mem_nil⟩
    · intro r hmem
      rw [← hitems] at hmem
      rcases List.mem_append.mp hmem with hmem | hmem
      · exact mem_of_ok_mem_map hmem
      · exact absurd (List.mem_singleton.mp hmem) (by simp)
    · intro p hp
      exact List.mem_append_right _ hp

/-- Who is in flight is known by the id. -/
theorem Tracked.inFlight?_eq (ht : Tracked flying s) {x : Handle} (hx : x ∈ flying) :
    s.inFlight? x.id = some x := by
  have hid : x.id ∈ s.dispatcher.driver.inFlight := by
    rw [← ht.attributed.ids]
    exact List.mem_map_of_mem hx
  unfold inFlight?
  rw [if_pos hid]
  exact ht.newest x hx

/-- **A pump drops a response only if its command was given up.** -/
theorem Tracked.pump_reaches (ht : Tracked flying s) {items : List Outcome} {driver : Driver} {r : Response}
    (hr : s.dispatcher.driver.pollTake s.memory none = (.ok items, driver)) (hmem : .ok r ∈ items) :
    ∃ x, s.inFlight? r.id = some x ∧ (x, r) ∈ s.answers
      ∧ (x ∈ s.dispatcher.pending →
          (x, .ok r) ∈ (s.dispatcher.pump s.memory).2.settled
            ∧ x ∉ (s.dispatcher.pump s.memory).2.pending)
      ∧ (x ∉ s.dispatcher.pending → s.GivenUp x) := by
  obtain ⟨htrusting, taken, driver', flying', d', new, htaken, hdelivery, hsettled, hpending⟩ :=
    ht.pump_delivers hr
  obtain ⟨x, hx, hanswer, hnew⟩ := hdelivery.reached r (htaken r hmem)
  have hflight := ht.inFlight?_eq hx
  rw [← ht.attributed.named _ hanswer] at hflight
  refine ⟨x, hflight, hanswer, ?_, ?_⟩
  · intro hwaits
    refine ⟨hsettled _ ?_, ?_⟩
    · rw [hdelivery.settles.settled]
      exact List.mem_append_left _ (hnew hwaits)
    · intro hstill
      exact (hdelivery.settles.mem_of_new ht.keyed (hnew hwaits)).2 (hpending x hstill)
  · intro hgone
    rcases ht.abandoned x hx hgone with hgiven | hpoison
    · exact hgiven
    · exact absurd htrusting hpoison

/-- **A pump counts the commands that it settles**, and settles them with responses. -/
theorem Tracked.pump_counts (ht : Tracked flying s) {count : Nat} {d : Dispatcher}
    (hr : s.dispatcher.pump s.memory = (.ok count, d)) :
    ∃ new, new.length = count ∧ Dispatcher.Settles s.dispatcher d new ∧ ∀ p ∈ new, ∃ r, p.2 = .ok r := by
  rcases Dispatcher.pump_cases ht.attributed.sound ht.keyed s.memory with
    ⟨reason, _, hpump⟩ | ⟨_, taken, driver, count', _, _, hpump, hcount⟩ | ⟨_, taken, _, reason, _, _, hpump⟩
  · rw [hpump] at hr
    exact absurd (congrArg Prod.fst hr) (by simp)
  · obtain ⟨new, hsettles, hnew⟩ :=
      Dispatcher.settles_handOver taken (d := { s.dispatcher with driver := driver }) ht.keyed
    dsimp only at hsettles
    rw [hpump] at hr
    injection hr with hok hd
    injection hok with hok
    have hlength := congrArg List.length hsettles.of_driver.settled
    rw [List.length_append] at hlength
    rw [← hd]
    refine ⟨new, by omega, hsettles.of_driver, ?_⟩
    intro p hp
    obtain ⟨r, _, hresponse, _⟩ := hnew p hp
    exact ⟨r, hresponse⟩
  · rw [hpump] at hr
    exact absurd (congrArg Prod.fst hr) (by simp)

/--
**Every command has one outcome, and it is its own.** Submissions are told apart by their handles. A submission
is pending, or it left the pending list exactly once. What a wait ends with was caused by the act that ended the
time for which its command was pending: a response is the answer that the kernel wrote to this submission, a
cancel found the command pending, and a corruption was found by a pump or a submit. Only if none of these
happened, a wait ends with its deadline. A response that a pump takes off the ring was written for the submission
that is in flight under its id; it reaches that command if it is pending, and otherwise that very command was given
up. A pump that succeeds returns how many commands it settled with a response. And as long as fewer than `2 ^ 64`
commands were submitted, tickets may as well be words: words tell the submissions apart too, and whoever gives a
handle up by its word removes what its ticket removes.
-/
theorem one_outcome_each (h : Reachable s) :
    s.submitted.Nodup
      ∧ (∀ x ∈ s.submitted, s.endings x = if x ∈ s.dispatcher.pending then 0 else 1)
      ∧ (∀ x ∈ s.held, ∀ a outcome, a = .look x ∨ a = .expire x →
          (s.dispatcher.act s.memory a).1 = .ended outcome →
          s.Cause x outcome ∨ (outcome = .error (.timedOut x.id) ∧ a = .expire x
            ∧ x ∈ s.dispatcher.pending ∧ s.endings x = 0))
      ∧ (∀ items driver r, s.dispatcher.driver.pollTake s.memory none = (.ok items, driver) →
          .ok r ∈ items →
          ∃ x, s.inFlight? r.id = some x ∧ (x, r) ∈ s.answers
            ∧ (x ∈ s.dispatcher.pending → (x, .ok r) ∈ (s.dispatcher.pump s.memory).2.settled
              ∧ x ∉ (s.dispatcher.pump s.memory).2.pending)
            ∧ (x ∉ s.dispatcher.pending → s.GivenUp x))
      ∧ (∀ count d, s.dispatcher.pump s.memory = (.ok count, d) →
          ∃ new, new.length = count ∧ Dispatcher.Settles s.dispatcher d new
            ∧ ∀ p ∈ new, ∃ r, p.2 = .ok r)
      ∧ (s.submitted.length < UInt64.size →
          (∀ x ∈ s.submitted, ∀ y ∈ s.submitted, UInt64.ofNat x.ticket = UInt64.ofNat y.ticket → x = y)
            ∧ ∀ x ∈ s.submitted, s.dispatcher.forgetWord x = s.dispatcher.forget x) := by
  obtain ⟨flying, ht⟩ := tracked_of_reachable h
  have hticketed := (issued_of_reachable h).ticketed
  refine ⟨List.nodup_reverse.mp hticketed.nodup, ?_, ?_, ?_, ?_, ?_⟩
  · intro x hx
    rw [ht.endings x]
    by_cases hpending : x ∈ s.dispatcher.pending
    · rw [if_pos hpending, if_neg fun hh => hh.2 hpending]
    · rw [if_neg hpending, if_pos ⟨hx, hpending⟩]
  · rintro x hx a outcome (rfl | rfl) hr
    · exact Or.inl (ht.look_ends hx hr)
    · rcases ht.expire_ends hx hr with hcause | ⟨houtcome, hpending, hnever⟩
      · exact Or.inl hcause
      · exact Or.inr ⟨houtcome, rfl, hpending, hnever⟩
  · intro items driver r hr hmem
    exact ht.pump_reaches hr hmem
  · intro count d hr
    exact ht.pump_counts hr
  · intro hcount
    rw [← List.length_reverse] at hcount
    refine ⟨?_, ?_⟩
    · intro x hx y hy hword
      exact hticketed.eq_of_ticketWord_eq hcount (List.mem_reverse.mpr hx) (List.mem_reverse.mpr hy) hword
    · intro x hx
      exact hticketed.forgetWord_eq ht.keyed hcount (List.mem_reverse.mpr hx)

/-! ## A run -/

/-- Two commands on the smallest ring. The holder of the first one drops it. -/
def busy : Service :=
  (((⟨.new Session.smallDriver {}, Session.smallRing, [], [], []⟩ : Service).perform
    (.submit Command.testUnitReady)).perform (.submit Command.testUnitReady)).perform (.giveUp ⟨1, 0⟩)

def smallKernel : Kernel := .ofMailbox Session.smallLayout Session.smallMailbox

def goodResponse : Response := .answering Session.smallLayout 1 0 []

/-- The kernel answers the first command all the same, and moves its head. -/
def served : Service :=
  { busy with
    memory := (busy.memory.put 72 (goodResponse.image Session.smallLayout ++ Bytes.zeros 40)).put
      Mailbox.headOffset (Bytes.ofUInt32 56)
    answers := [(⟨1, 0⟩, goodResponse)] }

set_option maxRecDepth 10000 in
theorem reachable_served : Reachable served := by
  have hbusy : Reachable busy := by
    refine .performed _ (.performed _ (.performed _ (.opened {} Session.attach_smallRing.2) ?_) ?_) ?_
    · exact fun h hh => absurd hh (by simp [Act.handle?])
    · exact fun h hh => absurd hh (by simp [Act.handle?])
    · intro h hh
      injection hh with hh
      rw [← hh]
      decide
  have hwrote : Reachable { busy with
      memory := busy.memory.put 72 (goodResponse.image Session.smallLayout ++ Bytes.zeros 40)
      answers := [(⟨1, 0⟩, goodResponse)] } := by
    obtain ⟨flying, ht⟩ := tracked_of_reachable hbusy
    have hvalid := ht.attributed.sound.geometry
    have hlayout : smallKernel.layout = busy.dispatcher.driver.layout := by decide
    rw [← hlayout] at hvalid
    exact hbusy.wrote (h := ⟨1, 0⟩) (i := 0) hlayout hvalid (by decide) List.not_mem_nil (by decide)
      (by decide)
  obtain ⟨flying, ht⟩ := tracked_of_reachable hwrote
  exact hwrote.moved ht.attributed.sound.geometry 56 _

set_option maxRecDepth 10000 in
/-- A pump drops the answer to the first command, which is in flight still, because that was dropped, and the
second one is pending still. -/
theorem answer_to_dropped_command :
    (served.dispatcher.driver.pollTake served.memory none).1 = .ok [.ok goodResponse]
      ∧ (served.dispatcher.pump served.memory).1 = .ok 0
      ∧ served.inFlight? 1 = some ⟨1, 0⟩
      ∧ served.GivenUp ⟨1, 0⟩ ∧ served.endings ⟨1, 0⟩ = 1 ∧ served.endings ⟨2, 1⟩ = 0
      ∧ served.dispatcher.forgetWord ⟨1, 0⟩ = served.dispatcher.forget ⟨1, 0⟩ := by
  have hrun : (served.dispatcher.driver.pollTake served.memory none).1 = .ok [.ok goodResponse]
      ∧ (served.dispatcher.pump served.memory).1 = .ok 0
      ∧ served.submitted = [⟨2, 1⟩, ⟨1, 0⟩] ∧ served.dispatcher.pending = [⟨2, 1⟩] := by
    decide
  obtain ⟨htaken, hpumped, hsubmitted, hpending⟩ := hrun
  obtain ⟨_, hendings, _, hreaches, _, hwords⟩ := one_outcome_each reachable_served
  rw [hsubmitted, hpending] at hendings
  rw [hsubmitted] at hwords
  obtain ⟨_, hforget⟩ := hwords (by decide)
  obtain ⟨x, hflight, hanswer, _, hdropped⟩ := hreaches _ _ _ (Prod.ext htaken rfl) List.mem_cons_self
  have hx : x = ⟨1, 0⟩ := congrArg Prod.fst (List.mem_singleton.mp hanswer)
  rw [hx] at hflight
  rw [hx, hpending] at hdropped
  exact ⟨htaken, hpumped, hflight, hdropped (by decide), hendings _ (by decide), hendings _ (by decide),
    hforget _ (by decide)⟩

end CommandRing.Service
