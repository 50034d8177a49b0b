import CommandRing.Dispatcher.Act
import CommandRing.Proofs.Driver.Drain
import CommandRing.Proofs.Driver.Session
import Mathlib.Data.List.Perm.Basic

/-!
# How commands leave the pending list

A command leaves the pending list with an outcome, or because its holder gave it up. `Settles` says which
commands left with which outcomes, and nothing of it gets lost: those that left and those that stay are
together those that were pending. What makes this exact is that no two pending commands have the same id, so an
id names one of them.

Each operation of a dispatcher has one lemma that says everything it can do, and what is known about all
dispatchers is read off these.
-/

namespace CommandRing

/-- No two of these commands have the same id. -/
def WellKeyed (pending : List Handle) : Prop := (pending.map Handle.id).Nodup

theorem WellKeyed.nodup {pending : List Handle} (h : WellKeyed pending) : pending.Nodup :=
  List.Nodup.of_map _ h

theorem WellKeyed.sublist {pending pending' : List Handle} (h : WellKeyed pending)
    (hs : pending'.Sublist pending) : WellKeyed pending' := List.Nodup.sublist (hs.map _) h

theorem WellKeyed.eq_of_id_eq {pending : List Handle} (h : WellKeyed pending) {a b : Handle}
    (ha : a ∈ pending) (hb : b ∈ pending) (hid : a.id = b.id) : a = b :=
  List.inj_on_of_nodup_map h ha hb hid

namespace Dispatcher

/-! ## Taking an id off the list -/

theorem mem_withoutId {pending : List Handle} {id : CommandId} {h : Handle} :
    h ∈ withoutId pending id ↔ h ∈ pending ∧ h.id ≠ id := by
  unfold withoutId
  rw [List.mem_filter, decide_eq_true_iff]

theorem withoutId_sublist (pending : List Handle) (id : CommandId) :
    (withoutId pending id).Sublist pending := List.filter_sublist

theorem withoutId_of_unused {pending : List Handle} {id : CommandId}
    (h : id ∉ pending.map Handle.id) : withoutId pending id = pending := by
  unfold withoutId
  rw [List.filter_eq_self]
  intro x hx
  rw [decide_eq_true_iff]
  intro hid
  exact h (List.mem_map.mpr ⟨x, hx, hid⟩)

/-- An id is the id of one pending command at most. -/
theorem withoutId_eq_erase {pending : List Handle} (hk : WellKeyed pending) {h : Handle}
    (hh : h ∈ pending) : withoutId pending h.id = pending.erase h := by
  rw [hk.nodup.erase_eq_filter]
  unfold withoutId
  refine List.filter_congr ?_
  intro x hx
  by_cases hxh : x = h
  · subst hxh
    simp
  · have hid : x.id ≠ h.id := fun hid => hxh (hk.eq_of_id_eq hx hh hid)
    simp [hxh, hid]

theorem map_id_withoutId (pending : List Handle) (id : CommandId) :
    (withoutId pending id).map Handle.id = (pending.map Handle.id).filter (· ≠ id) := by
  unfold withoutId
  rw [List.filter_map]
  rfl

theorem waiter?_eq_some {d : Dispatcher} (hk : WellKeyed d.pending) {id : CommandId} {h : Handle} :
    d.waiter? id = some h ↔ h ∈ d.pending ∧ h.id = id := by
  unfold waiter?
  constructor
  · intro hw
    have hid := List.find?_some hw
    rw [decide_eq_true_iff] at hid
    exact ⟨List.mem_of_find?_eq_some hw, hid⟩
  · rintro ⟨hh, hid⟩
    rcases hw : d.pending.find? fun x => x.id = id with _ | x
    · have hnone := List.find?_eq_none.mp hw h hh
      rw [decide_eq_true_iff] at hnone
      exact absurd hid hnone
    · have hxid := List.find?_some hw
      rw [decide_eq_true_iff] at hxid
      rw [hw, hk.eq_of_id_eq (List.mem_of_find?_eq_some hw) hh (hxid.trans hid.symm)]

theorem waiter?_eq_none {d : Dispatcher} {id : CommandId} :
    d.waiter? id = none ↔ id ∉ d.pending.map Handle.id := by
  unfold waiter?
  rw [List.find?_eq_none, List.mem_map, not_exists]
  refine forall_congr' ?_
  intro x
  rw [decide_eq_true_iff, not_and]

/-! ## What is on record -/

theorem mem_of_lookup {settled : List (Handle × Outcome)} {x : Handle} {outcome : Outcome}
    (h : settled.lookup x = some outcome) : (x, outcome) ∈ settled := by
  obtain ⟨before, after, rfl, _⟩ := List.lookup_eq_some_iff.mp h
  exact List.mem_append_right _ List.mem_cons_self

/-- Whoever was settled has an outcome. -/
theorem lookup_ne_none {settled : List (Handle × Outcome)} {x : Handle}
    (h : x ∈ settled.map Prod.fst) : settled.lookup x ≠ none := by
  obtain ⟨p, hp, rfl⟩ := List.mem_map.mp h
  intro hnone
  have hdiffers := List.lookup_eq_none_iff.mp hnone p hp
  simp at hdiffers

/-! ## Settling -/

/-- From `d` to `d'` the commands of `new` left the pending list, with the outcomes that stand there. -/
structure Settles (d d' : Dispatcher) (new : List (Handle × Outcome)) : Prop where
  settled : d'.settled = new ++ d.settled
  pending : (new.map Prod.fst ++ d'.pending).Perm d.pending

namespace Settles

variable {d d' d'' : Dispatcher} {new new' : List (Handle × Outcome)}

theorem refl (d : Dispatcher) : Settles d d [] := ⟨rfl, List.Perm.refl _⟩

theorem trans (h : Settles d d' new) (h' : Settles d' d'' new') : Settles d d'' (new' ++ new) := by
  refine ⟨?_, ?_⟩
  · rw [h'.settled, h.settled, List.append_assoc]
  · rw [List.map_append]
    have hswap : (new'.map Prod.fst ++ new.map Prod.fst ++ d''.pending).Perm
        (new.map Prod.fst ++ (new'.map Prod.fst ++ d''.pending)) := by
      rw [← List.append_assoc]
      exact List.perm_append_comm.append_right _
    exact hswap.trans ((h'.pending.append_left _).trans h.pending)

theorem keyed (h : Settles d d' new) (hk : WellKeyed d.pending) : WellKeyed d'.pending := by
  have hall := (h.pending.map Handle.id).nodup_iff.mpr hk
  rw [List.map_append] at hall
  exact (List.nodup_append.mp hall).2.1

theorem mem_of_pending (h : Settles d d' new) {x : Handle} (hx : x ∈ d'.pending) : x ∈ d.pending :=
  h.pending.subset (List.mem_append_right _ hx)

/-- The driver has no part in it. -/
theorem of_driver {driver : Driver} (h : Settles { d with driver := driver } d' new) : Settles d d' new :=
  ⟨h.settled, h.pending⟩

/-- A command that is settled was pending, and is no longer. -/
theorem mem_of_new (h : Settles d d' new) (hk : WellKeyed d.pending) {p : Handle × Outcome}
    (hp : p ∈ new) : p.1 ∈ d.pending ∧ p.1 ∉ d'.pending := by
  have hfst : p.1 ∈ new.map Prod.fst := List.mem_map_of_mem hp
  refine ⟨h.pending.subset (List.mem_append_left _ hfst), ?_⟩
  intro hpending
  have hall := h.pending.nodup_iff.mpr hk.nodup
  exact (List.nodup_append.mp hall).2.2 _ hfst _ hpending rfl

/-- A command stays, or is settled. -/
theorem mem_or (h : Settles d d' new) {x : Handle} (hx : x ∈ d.pending) :
    x ∈ d'.pending ∨ x ∈ new.map Prod.fst := by
  rcases List.mem_append.mp (h.pending.symm.subset hx) with hnew | hpending
  · exact Or.inr hnew
  · exact Or.inl hpending

end Settles

theorem settles_settle {d : Dispatcher} (hk : WellKeyed d.pending) {h : Handle} (hh : h ∈ d.pending)
    (outcome : Outcome) : Settles d (d.settle h outcome) [(h, outcome)] := by
  refine ⟨rfl, ?_⟩
  show ([h] ++ withoutId d.pending h.id).Perm d.pending
  rw [withoutId_eq_erase hk hh]
  exact (List.perm_cons_erase hh).symm

/-- The outcomes of the commands that a corruption fails. -/
def failures (pending : List Handle) (e : Error) : List (Handle × Outcome) :=
  pending.map fun h => (h, .error e)

theorem map_fst_failures (pending : List Handle) (e : Error) :
    (failures pending e).map Prod.fst = pending := by
  unfold failures
  rw [List.map_map]
  exact List.map_id _

theorem settles_failAll (d : Dispatcher) (reason : Corruption) :
    Settles d (d.failAll (.corrupt reason)) (failures d.pending (.corrupt reason)) := by
  refine ⟨rfl, ?_⟩
  show (_ ++ []).Perm d.pending
  rw [map_fst_failures, List.append_nil]

theorem failAll_cases (d : Dispatcher) (e : Error) :
    (∃ reason, e = .corrupt reason ∧ d.failAll e =
        { d with pending := [], settled := failures d.pending e ++ d.settled })
      ∨ (e.isFatal = false ∧ d.failAll e = d) := by
  unfold failAll
  cases hf : e.isFatal with
  | true =>
      obtain ⟨reason, rfl⟩ := Error.isFatal_iff.mp hf
      exact Or.inl ⟨reason, rfl, rfl⟩
  | false => exact Or.inr ⟨rfl, rfl⟩

/-! ## Handing responses over -/

/-- **A response goes to the command with its id**, if that is pending. -/
theorem deliver_cases {d : Dispatcher} (hk : WellKeyed d.pending) (r : Response) :
    (∃ h ∈ d.pending, h.id = r.id ∧ d.deliver r = (true, d.settle h (.ok r)))
      ∨ (r.id ∉ d.pending.map Handle.id ∧ d.deliver r = (false, d)) := by
  unfold deliver
  rcases hw : d.waiter? r.id with _ | h
  · exact Or.inr ⟨waiter?_eq_none.mp hw, rfl⟩
  · obtain ⟨hh, hid⟩ := (waiter?_eq_some hk).mp hw
    exact Or.inl ⟨h, hh, hid, rfl⟩

theorem pending_deliver {d : Dispatcher} (hk : WellKeyed d.pending) (r : Response) :
    (d.deliver r).2.pending = withoutId d.pending r.id := by
  rcases deliver_cases hk r with ⟨h, _, hid, hr⟩ | ⟨hunused, hr⟩
  · rw [hr, ← hid]
    rfl
  · rw [hr]
    exact (withoutId_of_unused hunused).symm

/-- The dispatcher after these responses were handed over. -/
def handOver (d : Dispatcher) : List Response → Dispatcher
  | [] => d
  | r :: rest => (d.deliver r).2.handOver rest

/-- **What is handed over settles commands with it**, each with a response that has its id. -/
theorem settles_handOver (taken : List Response) {d : Dispatcher} (hk : WellKeyed d.pending) :
    ∃ new, Settles d (d.handOver taken) new ∧ ∀ p ∈ new, ∃ r ∈ taken, p.2 = .ok r ∧ r.id = p.1.id := by
  induction taken generalizing d with
  | nil => exact ⟨[], .refl d, fun _ hp => absurd hp List.not_mem_nil⟩
  | cons r rest ih =>
      unfold handOver
      rcases deliver_cases hk r with ⟨h, hh, hid, hr⟩ | ⟨_, hr⟩
      · have hone := settles_settle hk hh (.ok r)
        obtain ⟨new, hsettles, hnew⟩ := ih (hone.keyed hk)
        rw [hr]
        refine ⟨new ++ [(h, .ok r)], hone.trans hsettles, ?_⟩
        intro p hp
        rcases List.mem_append.mp hp with hp | hp
        · obtain ⟨r', hr', hok⟩ := hnew p hp
          exact ⟨r', List.mem_cons_of_mem _ hr', hok⟩
        · rw [List.mem_singleton.mp hp]
          exact ⟨r, List.mem_cons_self, rfl, hid.symm⟩
      · obtain ⟨new, hsettles, hnew⟩ := ih hk
        rw [hr]
        refine ⟨new, hsettles, ?_⟩
        intro p hp
        obtain ⟨r', hr', hok⟩ := hnew p hp
        exact ⟨r', List.mem_cons_of_mem _ hr', hok⟩

/-- Responses are handed over before what comes behind them, and counted if they settle a command. -/
theorem deliverAll_append (taken : List Response) (items : List Outcome) {d : Dispatcher}
    (hk : WellKeyed d.pending) (count : Nat) :
    ∃ count', d.deliverAll count (taken.map .ok ++ items) = (d.handOver taken).deliverAll count' items
      ∧ count' + d.settled.length = count + (d.handOver taken).settled.length := by
  induction taken generalizing d count with
  | nil => exact ⟨count, rfl, rfl⟩
  | cons r rest ih =>
      unfold handOver
      rw [List.map_cons, List.cons_append]
      rcases deliver_cases hk r with ⟨h, hh, _, hr⟩ | ⟨_, hr⟩
      · have hone := settles_settle hk hh (.ok r)
        obtain ⟨count', hall, hcount⟩ := ih (hone.keyed hk) (count + 1)
        have hlength : (d.settle h (.ok r)).settled.length = d.settled.length + 1 := rfl
        rw [hr]
        refine ⟨count', ?_, ?_⟩
        · rw [← hall, deliverAll, hr]
        · dsimp only
          omega
      · obtain ⟨count', hall, hcount⟩ := ih hk count
        rw [hr]
        refine ⟨count', ?_, hcount⟩
        rw [← hall, deliverAll, hr]

theorem handOver_driver (taken : List Response) (d : Dispatcher) :
    (d.handOver taken).driver = d.driver := by
  induction taken generalizing d with
  | nil => rfl
  | cons r rest ih =>
      unfold handOver
      rw [ih]
      unfold deliver
      split <;> rfl

theorem handOver_nextTicket (taken : List Response) (d : Dispatcher) :
    (d.handOver taken).nextTicket = d.nextTicket := by
  induction taken generalizing d with
  | nil => rfl
  | cons r rest ih =>
      unfold handOver
      rw [ih]
      unfold deliver
      split <;> rfl

/-! ## What the operations can do -/

/-- The dispatcher with one more pending command. -/
def submitted (d : Dispatcher) (id : CommandId) : Dispatcher :=
  { d with
    driver := d.driver.submitted id
    bell := d.bell.ring.2
    pending := ⟨id, d.nextTicket⟩ :: withoutId d.pending id
    nextTicket := d.nextTicket + 1 }

/-- **What a submit can do**: refuse, find the slot out of reach, or publish under a free id. -/
theorem submit_cases {d : Dispatcher} (hs : d.driver.Sound) (memory : Region) (command : Command) :
    (∃ e, d.driver.checkCommand command = .error e
        ∧ d.submit memory command = (.error e, d.failAll e, memory))
      ∨ (∃ id reason, d.submit memory command = (.error (.corrupt reason),
          { d with driver :=
            { d.driver with nextId := CommandId.successor id, poison := some reason } }.failAll
              (.corrupt reason), memory))
      ∨ (∃ id slot, d.driver.checkCommand command = .ok () ∧ id ≠ 0 ∧ id ∉ d.driver.inFlight
        ∧ d.driver.slotFor id command = .ok slot
        ∧ d.driver.geometry.slotStart d.driver.cursor.tail.index.toNat
            + d.driver.geometry.slotSize.toNat ≤ memory.length
        ∧ d.submit memory command
          = (.ok ⟨id, d.nextTicket⟩, d.submitted id, d.driver.writtenTo memory slot)) := by
  unfold submit
  rcases hs.submit_cases memory command with
    ⟨e, hcheck, hr⟩ | ⟨id, _, _, hr⟩ | ⟨id, slot, hcheck, h0, hfree, hslot, hin, hr⟩
  · rw [hr]
    exact Or.inl ⟨e, hcheck, rfl⟩
  · rw [hr]
    exact Or.inr (Or.inl ⟨id, _, rfl⟩)
  · rw [hr]
    exact Or.inr (Or.inr ⟨id, slot, hcheck, h0, hfree, hslot, hin, rfl⟩)

/-- **What a pump can do**: hand over what the driver takes, and maybe fail the rest with a corruption. -/
theorem pump_cases {d : Dispatcher} (hs : d.driver.Sound) (hk : WellKeyed d.pending) (memory : Region) :
    (∃ reason, d.driver.pollTake memory none
          = (.error (.corrupt reason), d.driver.poisonedBy (.corrupt reason))
        ∧ d.pump memory = (.error (.corrupt reason),
          { d with driver := d.driver.poisonedBy (.corrupt reason) }.failAll (.corrupt reason)))
      ∨ (d.driver.poison = none ∧ ∃ taken driver count, Driver.Consumes memory d.driver taken driver
        ∧ d.driver.pollTake memory none = (.ok (taken.map .ok), driver)
        ∧ d.pump memory = (.ok count, { d with driver := driver }.handOver taken)
        ∧ count + d.settled.length = ({ d with driver := driver }.handOver taken).settled.length)
      ∨ (d.driver.poison = none ∧ ∃ taken driver reason, Driver.Consumes memory d.driver taken driver
        ∧ d.driver.pollTake memory none = (.ok (taken.map .ok ++ [.error (.corrupt reason)]),
          driver.poisonedBy (.corrupt reason))
        ∧ d.pump memory = (.error (.corrupt reason),
          ({ d with driver := driver.poisonedBy (.corrupt reason) }.handOver taken).failAll
            (.corrupt reason))) := by
  unfold pump
  rcases hs.pollTake_cases memory with
    ⟨reason, hr⟩ | ⟨htrusting, taken, driver, htaken, hr⟩ | ⟨htrusting, taken, driver, reason, htaken, hr⟩
  · rw [hr]
    exact Or.inl ⟨reason, rfl, rfl⟩
  · obtain ⟨count, hall, hcount⟩ :=
      deliverAll_append taken [] (d := { d with driver := driver }) hk 0
    rw [List.append_nil, deliverAll] at hall
    rw [Nat.zero_add] at hcount
    rw [hr]
    exact Or.inr (Or.inl ⟨htrusting, taken, driver, count, htaken, rfl, hall, hcount⟩)
  · obtain ⟨count, hall, _⟩ := deliverAll_append taken [.error (.corrupt reason)]
      (d := { d with driver := driver.poisonedBy (.corrupt reason) }) hk 0
    rw [deliverAll] at hall
    rw [hr]
    exact Or.inr (Or.inr ⟨htrusting, taken, driver, reason, htaken, rfl, hall⟩)

/-- What a cancel can do. -/
theorem cancel_cases {d : Dispatcher} (hk : WellKeyed d.pending) (id : CommandId) :
    (∃ h ∈ d.pending, h.id = id ∧ d.cancel id = (true, d.settle h (.error (.cancelled id))))
      ∨ (id ∉ d.pending.map Handle.id ∧ d.cancel id = (false, d)) := by
  unfold cancel
  rcases hw : d.waiter? id with _ | h
  · exact Or.inr ⟨waiter?_eq_none.mp hw, rfl⟩
  · obtain ⟨hh, hid⟩ := (waiter?_eq_some hk).mp hw
    exact Or.inl ⟨h, hh, hid, rfl⟩

/-- What giving up a handle can do. -/
theorem forget_cases (d : Dispatcher) (x : Handle) :
    (x ∈ d.pending ∧ d.forget x = (true, { d with pending := d.pending.erase x }))
      ∨ (x ∉ d.pending ∧ d.forget x = (false, d)) := by
  unfold forget
  by_cases hx : x ∈ d.pending
  · rw [if_pos hx]
    exact Or.inl ⟨hx, rfl⟩
  · rw [if_neg hx]
    exact Or.inr ⟨hx, rfl⟩

/-- What the deadline of a wait can do. -/
theorem expire_cases (d : Dispatcher) (x : Handle) :
    (x ∈ d.pending
        ∧ d.expire x = (.error (.timedOut x.id), { d with pending := d.pending.erase x }))
      ∨ (x ∉ d.pending
        ∧ d.expire x = ((d.settled.lookup x).getD (.error (.timedOut x.id)), d)) := by
  unfold expire
  rcases d.forget_cases x with ⟨hx, hr⟩ | ⟨hx, hr⟩
  · rw [hr]
    exact Or.inl ⟨hx, rfl⟩
  · rw [hr]
    exact Or.inr ⟨hx, rfl⟩

end Dispatcher

end CommandRing
