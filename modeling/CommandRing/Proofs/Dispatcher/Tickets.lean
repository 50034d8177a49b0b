import CommandRing.Kernel
import CommandRing.Proofs.Dispatcher.Reservation

/-!
# A handle stands for one submission

Ids come back: they are handed out again once their response was consumed, they start over with a reset, and there
are only so many of them. Any number of handles may therefore have the same id, and all but one of them are stale:
their commands were settled or given up, or lost their place to a newer command. What tells them apart is the
ticket. The handles that were given out have the tickets `0`, `1`, `2` and so on, in the order of the submits, so
a ticket belongs to one submit for as long as there are words for it.

Whoever gives a handle up looks for that very handle, so a stale one finds nothing. The pending list is kept by
id, and the tickets are words of 64 bits: `forgetWord` is what is done then, and it does the same.
-/

namespace CommandRing.Dispatcher

variable {given : List Handle} {d d' : Dispatcher}

/-! ## Runs -/

theorem Issued.reachable (h : Issued given d) : Reachable d := by
  induction h with
  | new bell hattach => exact .new bell hattach
  | acted memory a _ ih => exact ih.changed (.acted memory a)
  | called drain memory c _ ih => exact ih.changed (.called drain memory c)
  | signalled bell _ ih => exact ih.changed (.signalled bell)

/-- Whatever became of a dispatcher, there is an account of the handles. -/
theorem issued_of_reachable (h : Reachable d) : ∃ given, Issued given d := by
  induction h with
  | new bell hattach => exact ⟨[], .new bell hattach⟩
  | changed _ hc ih =>
      obtain ⟨given, hi⟩ := ih
      cases hc with
      | acted memory a => exact ⟨_, hi.acted memory a⟩
      | called drain memory c => exact ⟨_, hi.called drain memory c⟩
      | signalled bell => exact ⟨_, hi.signalled bell⟩

/-! ## Tickets -/

/-- The handles of `given` were given out, one for each ticket, and nobody else waits or is settled. -/
structure Ticketed (given : List Handle) (d : Dispatcher) : Prop where
  tickets : given.map Handle.ticket = List.range d.nextTicket
  pending : ∀ x ∈ d.pending, x ∈ given
  /-- A command that is settled was given out, and is not pending any more. -/
  settled : ∀ p ∈ d.settled, p.1 ∈ given ∧ p.1 ∉ d.pending

namespace Ticketed

theorem length_eq (h : Ticketed given d) : given.length = d.nextTicket := by
  have hlength := congrArg List.length h.tickets
  rwa [List.length_map, List.length_range] at hlength

theorem ticket_lt (h : Ticketed given d) {x : Handle} (hx : x ∈ given) : x.ticket < d.nextTicket := by
  have hmem : x.ticket ∈ given.map Handle.ticket := List.mem_map_of_mem hx
  rw [h.tickets] at hmem
  exact List.mem_range.mp hmem

theorem nodup_tickets (h : Ticketed given d) : (given.map Handle.ticket).Nodup := by
  rw [h.tickets]
  exact List.nodup_range

theorem nodup (h : Ticketed given d) : given.Nodup := List.Nodup.of_map Handle.ticket h.nodup_tickets

/-- **A ticket belongs to one handle.** -/
theorem eq_of_ticket_eq (h : Ticketed given d) {x y : Handle} (hx : x ∈ given) (hy : y ∈ given)
    (hticket : x.ticket = y.ticket) : x = y := List.inj_on_of_nodup_map h.nodup_tickets hx hy hticket

/-- The handle of the next submit was never given out. -/
theorem next_notMem (h : Ticketed given d) (id : CommandId) : ⟨id, d.nextTicket⟩ ∉ given := by
  intro hmem
  exact Nat.lt_irrefl _ (h.ticket_lt hmem)

/-! ## What the operations keep -/

/-- Commands leave the pending list, and some of them get an outcome. -/
theorem of_left (h : Ticketed given d) {new : List (Handle × Outcome)}
    (hticket : d'.nextTicket = d.nextTicket) (hsettled : d'.settled = new ++ d.settled)
    (hnew : ∀ p ∈ new, p.1 ∈ d.pending ∧ p.1 ∉ d'.pending)
    (hpending : ∀ x ∈ d'.pending, x ∈ d.pending) : Ticketed given d' where
  tickets := by
    rw [hticket]
    exact h.tickets
  pending x hx := h.pending x (hpending x hx)
  settled p hp := by
    rw [hsettled] at hp
    rcases List.mem_append.mp hp with hp | hp
    · exact ⟨h.pending _ (hnew p hp).1, (hnew p hp).2⟩
    · exact ⟨(h.settled p hp).1, fun hx => (h.settled p hp).2 (hpending _ hx)⟩

theorem of_settles (h : Ticketed given d) (hk : WellKeyed d.pending) {new : List (Handle × Outcome)}
    (hticket : d'.nextTicket = d.nextTicket) (hs : Settles d d' new) : Ticketed given d' :=
  h.of_left hticket hs.settled (fun _ hp => hs.mem_of_new hk hp) fun _ hx => hs.mem_of_pending hx

theorem of_erase (h : Ticketed given d) (x : Handle) :
    Ticketed given { d with pending := d.pending.erase x } :=
  h.of_left rfl (List.nil_append _).symm (fun _ hp => absurd hp List.not_mem_nil)
    fun _ hy => List.mem_of_mem_erase hy

theorem withDriver (h : Ticketed given d) (driver : Driver) :
    Ticketed given { d with driver := driver } := ⟨h.tickets, h.pending, h.settled⟩

theorem failAll (h : Ticketed given d) (hk : WellKeyed d.pending) (e : Error) :
    Ticketed given (d.failAll e) := by
  rcases failAll_cases d e with ⟨reason, rfl, hr⟩ | ⟨_, hr⟩
  · refine h.of_settles hk ?_ (settles_failAll d reason)
    rw [hr]
  · rw [hr]
    exact h

theorem handOver (h : Ticketed given d) (hk : WellKeyed d.pending) (taken : List Response) :
    Ticketed given (d.handOver taken) := by
  obtain ⟨new, hsettles, _⟩ := settles_handOver taken hk
  exact h.of_settles hk (handOver_nextTicket taken d) hsettles

/-- **The next submit gets the next ticket**, whatever its id. -/
theorem submitted (h : Ticketed given d) (id : CommandId) :
    Ticketed (given ++ [⟨id, d.nextTicket⟩]) (d.submitted id) where
  tickets := by
    rw [List.map_append, h.tickets]
    exact List.range_succ.symm
  pending x hx := by
    rcases List.mem_cons.mp hx with rfl | hx
    · exact List.mem_append_right _ List.mem_cons_self
    · exact List.mem_append_left _ (h.pending x (mem_withoutId.mp hx).1)
  settled p hp := by
    obtain ⟨hgiven, hgone⟩ := h.settled p hp
    refine ⟨List.mem_append_left _ hgiven, ?_⟩
    intro hx
    rcases List.mem_cons.mp hx with hnew | hx
    · exact h.next_notMem id (hnew ▸ hgiven)
    · exact hgone (mem_withoutId.mp hx).1

theorem submit (h : Ticketed given d) (hs : d.Sound) (memory : Region) (command : Command) :
    Ticketed (given ++ (d.act memory (.submit command)).1.given)
      (d.act memory (.submit command)).2.1 := by
  unfold act
  dsimp only
  rcases submit_cases hs.driver memory command with
    ⟨e, _, hr⟩ | ⟨id, reason, hr⟩ | ⟨id, slot, _, _, _, _, _, hr⟩
  · rw [hr]
    dsimp only [Receipt.given]
    rw [List.append_nil]
    exact h.failAll hs.keyed e
  · rw [hr]
    dsimp only [Receipt.given]
    rw [List.append_nil]
    have hpoisoned := h.withDriver
      { d.driver with nextId := CommandId.successor id, poison := some reason }
    exact hpoisoned.failAll hs.keyed (.corrupt reason)
  · rw [hr]
    exact h.submitted id

theorem pump (h : Ticketed given d) (hs : d.Sound) (memory : Region) :
    Ticketed given (d.pump memory).2 := by
  rcases pump_cases hs.driver hs.keyed memory with
    ⟨reason, _, hr⟩ | ⟨_, taken, driver, count, htaken, _, hr, _⟩
      | ⟨_, taken, driver, reason, htaken, _, hr⟩
  · rw [hr]
    have hpoisoned := h.withDriver (d.driver.poisonedBy (.corrupt reason))
    exact hpoisoned.failAll hs.keyed (.corrupt reason)
  · rw [hr]
    exact (h.withDriver driver).handOver hs.keyed taken
  · rw [hr]
    have hdriver := (htaken.sound hs.driver).poisonedBy (.corrupt reason)
    have hkeyed := ((hs.withDriver hdriver).handOver taken).keyed
    have hpoisoned := h.withDriver (driver.poisonedBy (.corrupt reason))
    exact (hpoisoned.handOver hs.keyed taken).failAll hkeyed (.corrupt reason)

/-- **Every act keeps the account.** -/
theorem act (h : Ticketed given d) (hs : d.Sound) (memory : Region) (a : Act) :
    Ticketed (given ++ (d.act memory a).1.given) (d.act memory a).2.1 := by
  cases a with
  | submit command => exact h.submit hs memory command
  | pump =>
      rw [given_pump, dispatcher_pump, List.append_nil]
      exact h.pump hs memory
  -- the others give nothing out
  | cancel id =>
      unfold Dispatcher.act
      dsimp only [Receipt.given]
      rw [List.append_nil]
      rcases cancel_cases hs.keyed id with ⟨x, hx, _, hr⟩ | ⟨_, hr⟩
      · rw [hr]
        exact h.of_settles hs.keyed rfl (settles_settle hs.keyed hx _)
      · rw [hr]
        exact h
  | look x =>
      unfold Dispatcher.act
      dsimp only
      split <;> simpa only [Receipt.given, List.append_nil] using h
  | expire x =>
      unfold Dispatcher.act
      dsimp only [Receipt.given]
      rw [List.append_nil]
      rcases d.expire_cases x with ⟨_, hr⟩ | ⟨_, hr⟩
      · rw [hr]
        exact h.of_erase x
      · rw [hr]
        exact h
  | giveUp x =>
      unfold Dispatcher.act
      dsimp only [Receipt.given]
      rw [List.append_nil]
      rcases d.forget_cases x with ⟨_, hr⟩ | ⟨_, hr⟩
      · rw [hr]
        exact h.of_erase x
      · rw [hr]
        exact h

end Ticketed

/-- **Handles are told apart by their tickets**, by induction on what became of the dispatcher. -/
theorem Issued.ticketed (h : Issued given d) : Ticketed given d := by
  induction h with
  | new bell _ =>
      exact ⟨rfl, fun _ hx => absurd hx List.not_mem_nil, fun _ hp => absurd hp List.not_mem_nil⟩
  | acted memory a hi ih => exact ih.act (sound_of_reachable hi.reachable) memory a
  | called drain memory c _ ih => exact ih.withDriver _
  | signalled bell _ ih => exact ⟨ih.tickets, ih.pending, ih.settled⟩

/-! ## Giving up -/

/-- Gives a handle up where the pending list is kept by id: the entry of its id is looked up, the tickets are
compared as words, and then whatever has that id is taken off. -/
def forgetWord (d : Dispatcher) (h : Handle) : Bool × Dispatcher :=
  match d.waiter? h.id with
  | none => (false, d)
  | some x =>
    if UInt64.ofNat x.ticket = UInt64.ofNat h.ticket then
      (true, { d with pending := withoutId d.pending h.id })
    else
      (false, d)

/-- A number that fits in a word is known by the word. -/
theorem eq_of_word_eq {m n : Nat} (hm : m < UInt64.size) (hn : n < UInt64.size)
    (h : UInt64.ofNat m = UInt64.ofNat n) : m = n := by
  have hnat := congrArg UInt64.toNat h
  rwa [UInt64.toNat_ofNat_of_lt' hm, UInt64.toNat_ofNat_of_lt' hn] at hnat

/-- **Words tell fewer than `2 ^ 64` handles apart.** -/
theorem Ticketed.eq_of_ticketWord_eq (h : Ticketed given d) (hcount : given.length < UInt64.size)
    {x y : Handle} (hx : x ∈ given) (hy : y ∈ given)
    (hword : UInt64.ofNat x.ticket = UInt64.ofNat y.ticket) : x = y := by
  have hxlt := h.ticket_lt hx
  have hylt := h.ticket_lt hy
  rw [h.length_eq] at hcount
  exact h.eq_of_ticket_eq hx hy
    (eq_of_word_eq (Nat.lt_trans hxlt hcount) (Nat.lt_trans hylt hcount) hword)

/-- **Words are enough for fewer than `2 ^ 64` submits.** -/
theorem Ticketed.forgetWord_eq (h : Ticketed given d) (hk : WellKeyed d.pending)
    (hcount : given.length < UInt64.size) {x : Handle} (hx : x ∈ given) : d.forgetWord x = d.forget x := by
  unfold forgetWord
  rcases hw : d.waiter? x.id with _ | y
  · have hgone : x ∉ d.pending := fun hpending =>
      waiter?_eq_none.mp hw (List.mem_map_of_mem hpending)
    unfold forget
    rw [if_neg hgone]
  · obtain ⟨hy, hid⟩ := (waiter?_eq_some hk).mp hw
    dsimp only
    by_cases hsame : y = x
    · subst hsame
      unfold forget
      rw [if_pos rfl, if_pos hy, withoutId_eq_erase hk hy]
    -- another handle holds the id
    · have hgone : x ∉ d.pending := fun hpending => hsame (hk.eq_of_id_eq hy hpending hid)
      have hdiffers : ¬ UInt64.ofNat y.ticket = UInt64.ofNat x.ticket :=
        fun hword => hsame (h.eq_of_ticketWord_eq hcount (h.pending y hy) hx hword)
      unfold forget
      rw [if_neg hdiffers, if_neg hgone]

/-- A handle that is given up, or whose deadline passes, leaves the pending list alone, but for itself. -/
theorem removes_itself (d : Dispatcher) (memory : Region) {x : Handle} {a : Act}
    (ha : a = .expire x ∨ a = .giveUp x) :
    (x ∈ d.pending → (d.act memory a).2 = ({ d with pending := d.pending.erase x }, memory))
      ∧ (x ∉ d.pending → (d.act memory a).2 = (d, memory)
        ∧ (a = .giveUp x → (d.act memory a).1 = .found false)) := by
  rcases ha with rfl | rfl
  · unfold act
    dsimp only
    rcases d.expire_cases x with ⟨hx, hr⟩ | ⟨hx, hr⟩
    · rw [hr]
      exact ⟨fun _ => rfl, fun hgone => absurd hx hgone⟩
    · rw [hr]
      exact ⟨fun hpending => absurd hpending hx, fun _ => ⟨rfl, Act.noConfusion⟩⟩
  · unfold act
    dsimp only
    rcases d.forget_cases x with ⟨hx, hr⟩ | ⟨hx, hr⟩
    · rw [hr]
      exact ⟨fun _ => rfl, fun hgone => absurd hx hgone⟩
    · rw [hr]
      exact ⟨fun hpending => absurd hpending hx, fun _ => ⟨rfl, fun _ => rfl⟩⟩

/-- **A submit gives out a handle that nobody has**, and its entry replaces that of an older command with the
same id. -/
theorem Ticketed.next_submit (h : Ticketed given d) (hs : d.Sound) {memory : Region} {command : Command}
    {x : Handle} (hr : (d.act memory (.submit command)).1 = .submitted x) :
    x ∉ given ∧ (d.act memory (.submit command)).2.1.pending = x :: withoutId d.pending x.id := by
  unfold Dispatcher.act at hr ⊢
  dsimp only at hr ⊢
  rcases submit_cases hs.driver memory command with
    ⟨e, _, hsubmit⟩ | ⟨id, reason, hsubmit⟩ | ⟨id, slot, _, _, _, _, _, hsubmit⟩
  · rw [hsubmit] at hr
    exact Receipt.noConfusion hr
  · rw [hsubmit] at hr
    exact Receipt.noConfusion hr
  · rw [hsubmit] at hr ⊢
    injection hr with hr
    subst hr
    exact ⟨h.next_notMem id, rfl⟩

/--
**A handle never touches the entry of another command.** Whatever became of a dispatcher, and whoever called its
driver meanwhile, the handles that were given out have the tickets `0`, `1`, `2` and so on, and those that are
pending are among them, at most one for each id. A submit adds a handle that was not given out before. When a wait
times out, or a handle is cancelled or dropped, its own entry is removed, and if it has none any more, nothing
is: a cancel says so, and an entry that another submit made stays, be it under the same id. With fewer than
`2 ^ 64` handles it makes no difference that tickets are words and that entries are found and removed by id.
-/
theorem handle_removes_own_entry (h : Issued given d) :
    given.map Handle.ticket = List.range d.nextTicket
      ∧ (∀ x ∈ d.pending, x ∈ given)
      ∧ WellKeyed d.pending
      ∧ (∀ memory command x, (d.act memory (.submit command)).1 = .submitted x →
        x ∉ given
          ∧ (d.act memory (.submit command)).2.1.pending = x :: withoutId d.pending x.id)
      ∧ (∀ x ∈ given, ∀ memory a, a = .expire x ∨ a = .giveUp x →
        (x ∈ d.pending → (d.act memory a).2 = ({ d with pending := d.pending.erase x }, memory))
          ∧ (x ∉ d.pending → (d.act memory a).2 = (d, memory)
            ∧ (a = .giveUp x → (d.act memory a).1 = .found false))
          ∧ ∀ y ∈ d.pending, y ≠ x → y ∈ (d.act memory a).2.1.pending)
      ∧ (given.length < UInt64.size → ∀ x ∈ given, d.forgetWord x = d.forget x) := by
  have hticketed := h.ticketed
  have hs := sound_of_reachable h.reachable
  refine ⟨hticketed.tickets, hticketed.pending, hs.keyed, ?_, ?_, ?_⟩
  · intro memory command x hr
    exact hticketed.next_submit hs hr
  · intro x _ memory a ha
    obtain ⟨hfound, hgone⟩ := d.removes_itself memory ha
    refine ⟨hfound, hgone, ?_⟩
    intro y hy hyx
    by_cases hx : x ∈ d.pending
    · rw [hfound hx]
      exact (List.mem_erase_of_ne hyx).mpr hy
    · rw [(hgone hx).1]
      exact hy
  · intro hcount x hx
    exact hticketed.forgetWord_eq hs.keyed hcount hx

/-! ## A run in which an id comes back -/

/-- The ring on which the command of `busy` was published. -/
def publishedRing : Region :=
  ((new Session.smallDriver {}).act Session.smallRing (.submit Command.testUnitReady)).2.2

/-- The kernel answered that command. -/
def answeredRing : Region :=
  ((Kernel.ofMailbox Session.smallLayout Session.smallMailbox).complete publishedRing 1 {}).2.2

/-- Somebody calls the driver directly: polls, takes one response and starts the driver over. -/
def robbed (d : Dispatcher) (memory : Region) : Dispatcher :=
  let polled := ((Session.idle d.driver).call memory .poll).2.1
  let taken := (polled.call memory .next).2.1
  { d with driver := (taken.call memory .reset).2.1.driver }

theorem Issued.robbed (h : Issued given d) (memory : Region) : Issued given (d.robbed memory) := by
  have hpolled := h.called (Session.idle d.driver).drain memory .poll
  have htaken := hpolled.called ((Session.idle d.driver).call memory .poll).2.1.drain memory .next
  exact htaken.called
    ((((Session.idle d.driver).call memory .poll).2.1.call memory .next).2.1).drain memory .reset

/-- The next command has the same id, while the first one is still pending. -/
def reused : Dispatcher :=
  ((busy.robbed answeredRing).act answeredRing (.submit Command.testUnitReady)).2.1

set_option maxRecDepth 10000 in
theorem issued_reused : Issued [⟨1, 0⟩, ⟨1, 1⟩] reused := by
  have hreceipts : ((new Session.smallDriver {}).act Session.smallRing
        (.submit Command.testUnitReady)).1.given = [⟨1, 0⟩]
      ∧ ((busy.robbed answeredRing).act answeredRing
        (.submit Command.testUnitReady)).1.given = [⟨1, 1⟩] := by
    decide
  have hbusy := (Issued.new {} Session.attach_smallRing.2).acted Session.smallRing
    (.submit Command.testUnitReady)
  rw [hreceipts.1] at hbusy
  have hreused := (Issued.robbed (d := busy) hbusy answeredRing).acted answeredRing
    (.submit Command.testUnitReady)
  rw [hreceipts.2] at hreused
  unfold reused
  exact hreused

set_option maxRecDepth 10000 in
/-- The first handle is stale then, and finds nothing to cancel. The second one keeps the entry. -/
theorem stale_handle_finds_nothing :
    Issued [⟨1, 0⟩, ⟨1, 1⟩] reused ∧ reused.pending = [⟨1, 1⟩]
      ∧ (reused.act answeredRing (.giveUp ⟨1, 0⟩)).1 = .found false
      ∧ (⟨1, 1⟩ : Handle) ∈ (reused.act answeredRing (.giveUp ⟨1, 0⟩)).2.1.pending
      ∧ reused.forgetWord ⟨1, 0⟩ = reused.forget ⟨1, 0⟩ := by
  have hpending : reused.pending = [⟨1, 1⟩] := by decide
  obtain ⟨_, _, _, _, hremoves, hwords⟩ := handle_removes_own_entry issued_reused
  have hgiven : (⟨1, 0⟩ : Handle) ∈ [(⟨1, 0⟩ : Handle), ⟨1, 1⟩] := List.mem_cons_self
  obtain ⟨_, hgone, hothers⟩ := hremoves ⟨1, 0⟩ hgiven answeredRing _ (Or.inr rfl)
  rw [hpending] at hgone hothers
  exact ⟨issued_reused, hpending, (hgone (by decide)).2 rfl,
    hothers ⟨1, 1⟩ List.mem_cons_self (by decide), hwords (by decide) _ hgiven⟩

end CommandRing.Dispatcher
