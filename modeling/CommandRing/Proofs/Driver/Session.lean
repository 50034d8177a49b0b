import CommandRing.Driver.Session
import CommandRing.Proofs.Driver.Invariant
import Mathlib.Data.List.Perm.Basic

/-!
# Invariants against any memory

A driver stays sound whatever it finds in the memory, because no operation takes more from the memory than
a decision to go on or to stop. On top of that every id that a submit returned is accounted for: it is still
in flight, or exactly one response with it was yielded.
-/

namespace CommandRing.Session

/-- Every id that was handed out was yielded once, or is in flight. -/
def Accounted (replies : List Reply) (d : Driver) : Prop :=
  (submittedIds replies).Perm (yieldedIds replies ++ d.inFlight)

theorem submittedIds_snoc (replies : List Reply) (r : Reply) :
    submittedIds (replies ++ [r]) = submittedIds replies ++ submittedIds [r] :=
  List.filterMap_append

theorem yielded_snoc (replies : List Reply) (r : Reply) :
    yielded (replies ++ [r]) = yielded replies ++ yielded [r] :=
  List.filterMap_append

theorem submittedIds_snoc_of_nil {r : Reply} (h : submittedIds [r] = []) (replies : List Reply) :
    submittedIds (replies ++ [r]) = submittedIds replies := by
  rw [submittedIds_snoc, h, List.append_nil]

theorem yielded_snoc_of_nil {r : Reply} (h : yielded [r] = []) (replies : List Reply) :
    yielded (replies ++ [r]) = yielded replies := by
  rw [yielded_snoc, h, List.append_nil]

/-- Responses that were yielded say nothing about what was submitted. -/
theorem submittedIds_append_yielded (replies : List Reply) (taken : List Response) :
    submittedIds (replies ++ taken.map .yielded) = submittedIds replies := by
  unfold submittedIds
  simp [List.filterMap_append, List.filterMap_map]

theorem yielded_append_yielded (replies : List Reply) (taken : List Response) :
    yielded (replies ++ taken.map .yielded) = yielded replies ++ taken := by
  unfold yielded
  simp [List.filterMap_append, List.filterMap_map]

/-- A reply that is neither a new id nor a response leaves the account as it is. -/
theorem Accounted.of_silent {replies : List Reply} {d d' : Driver} {r : Reply}
    (h : Accounted replies d) (hs : submittedIds [r] = []) (hy : yielded [r] = [])
    (hd : d'.inFlight = d.inFlight) : Accounted (replies ++ [r]) d' := by
  unfold Accounted yieldedIds at h ⊢
  rw [submittedIds_snoc_of_nil hs, yielded_snoc_of_nil hy, hd]
  exact h

theorem Accounted.submitted {replies : List Reply} {d : Driver} (h : Accounted replies d)
    (id : CommandId) : Accounted (replies ++ [.submitted id]) (d.submitted id) := by
  unfold Accounted yieldedIds at h ⊢
  rw [submittedIds_snoc, yielded_snoc_of_nil rfl]
  exact (List.perm_append_singleton id _).trans ((h.cons id).trans List.perm_middle.symm)

theorem Accounted.yielded {replies : List Reply} {d : Driver} (h : Accounted replies d)
    {r : Response} (hr : r.id ∈ d.inFlight) :
    Accounted (replies ++ [.yielded r]) (d.consumed r.id) := by
  unfold Accounted yieldedIds at h ⊢
  rw [submittedIds_snoc_of_nil rfl, yielded_snoc, List.map_append, List.append_assoc]
  exact h.trans ((List.perm_cons_erase hr).append_left _)

theorem inFlight_poisonedBy (d : Driver) (e : Error) : (d.poisonedBy e).inFlight = d.inFlight := by
  cases e <;> rfl

theorem call_poll {s : Session} {memory : Region} {d : Driver} {drain : Drain}
    (h : s.driver.poll memory = (.ok drain, d)) :
    s.call memory .poll = (.announced drain.remaining, ⟨d, drain⟩, memory) := by
  unfold call
  dsimp only
  rw [h]

theorem call_next {s : Session} {memory : Region} {r : Response} {d : Driver} {drain : Drain}
    (h : s.driver.next memory s.drain = (some (.ok r), d, drain)) :
    s.call memory .next = (.yielded r, ⟨d, drain⟩, memory) := by
  unfold call
  dsimp only
  rw [h]

/-- What a run keeps. -/
structure Invariant (replies : List Reply) (s : Session) : Prop where
  sound : s.driver.Sound
  accounted : Accounted replies s.driver

theorem invariant_attached {layout : Layout} {memory memory' : Region} {d : Driver}
    (h : Driver.attach layout memory = (.ok d, memory')) : Invariant [] (idle d) := by
  refine ⟨Driver.sound_attach h, ?_⟩
  obtain ⟨_, _, _, _, _, _, rfl⟩ := Driver.attach_eq_ok h
  exact List.Perm.refl _

/-- **One call keeps it, whatever the memory holds.** -/
theorem invariant_call {replies : List Reply} {s : Session} (h : Invariant replies s)
    (memory : Region) (c : Call) :
    Invariant (replies ++ [(s.call memory c).1]) (s.call memory c).2.1 := by
  obtain ⟨hs, ha⟩ := h
  cases c with
  | submit command =>
      unfold call
      dsimp only
      rcases hs.submit_cases memory command with
        ⟨e, _, hr⟩ | ⟨id, hok, _, hr⟩ | ⟨id, slot, hok, h0, hfree, _, _, hr⟩
      · rw [hr]
        exact ⟨hs, ha.of_silent rfl rfl rfl⟩
      -- the id that was set aside is gone, but it was never in flight
      · rw [hr]
        exact ⟨⟨hs.geometry, hs.capacity, hs.ahead, hs.nodup, hs.zero_notMem,
          CommandId.successor_ne_zero id⟩, ha.of_silent rfl rfl rfl⟩
      · rw [hr]
        exact ⟨hs.submitted (Driver.checkCommand_eq_ok.mp hok).2.2.2 h0 hfree, ha.submitted id⟩
  | poll =>
      unfold call
      dsimp only
      rcases s.driver.poll_cases memory with ⟨drain, _, hr⟩ | ⟨e, hr⟩
      · rw [hr]
        exact ⟨hs, ha.of_silent rfl rfl rfl⟩
      · rw [hr]
        exact ⟨hs.poisonedBy e, ha.of_silent rfl rfl (inFlight_poisonedBy _ e)⟩
  | next =>
      unfold call
      dsimp only
      rcases hs.next_cases memory s.drain with ⟨_, hr⟩ | ⟨r, _, _, hid, _, hr⟩ | ⟨e, _, _, _, hr⟩
      · rw [hr]
        exact ⟨hs, ha.of_silent rfl rfl rfl⟩
      · rw [hr]
        exact ⟨hs.consumed hid, ha.yielded hid⟩
      · rw [hr]
        exact ⟨hs.poisonedBy e, ha.of_silent rfl rfl (inFlight_poisonedBy _ e)⟩
  | reset =>
      unfold call
      dsimp only
      rcases hs.reset_cases memory with ⟨e, hr⟩ | ⟨i, _, hempty, hidle, hr⟩
      · rw [hr]
        exact ⟨hs, ha.of_silent rfl rfl rfl⟩
      · rw [hr]
        have hi := ((Driver.idleSlot_eq_ok hs.geometry).mp hidle).1
        exact ⟨hs.restarted hempty hi, ha.of_silent rfl rfl rfl⟩

/-- A sound driver stays sound, whatever its calls answered before. -/
theorem sound_call {s : Session} (h : s.driver.Sound) (memory : Region) (c : Call) :
    (s.call memory c).2.1.driver.Sound := by
  -- an account that holds nothing but what is in flight
  have hsubmitted : submittedIds (s.driver.inFlight.map .submitted) = s.driver.inFlight := by
    unfold submittedIds
    rw [List.filterMap_map]
    exact List.filterMap_some
  have hyielded : yieldedIds (s.driver.inFlight.map .submitted) = [] := by
    unfold yieldedIds yielded
    rw [List.filterMap_map, List.map_eq_nil_iff, List.filterMap_eq_nil_iff]
    exact fun _ _ => rfl
  have hi : Invariant (s.driver.inFlight.map .submitted) s := by
    refine ⟨h, ?_⟩
    unfold Accounted
    rw [hsubmitted, hyielded]
    exact List.Perm.refl _
  exact (invariant_call hi memory c).sound

theorem invariant_run {replies : List Reply} {s : Session} (h : Run replies s) :
    Invariant replies s := by
  induction h with
  | attached h => exact invariant_attached h
  | called memory c _ ih => exact invariant_call ih memory c

/-- A response is yielded for a command that is in flight at that moment. -/
theorem inFlight_of_yielded {s : Session} (h : s.driver.Sound) {memory : Region} {c : Call}
    {r : Response} (hr : (s.call memory c).1 = .yielded r) : r.id ∈ s.driver.inFlight := by
  -- no call but this one yields anything
  cases c with
  | next =>
      unfold call at hr
      dsimp only at hr
      rcases h.next_cases memory s.drain with ⟨_, hn⟩ | ⟨r', _, _, hid, _, hn⟩ | ⟨e, _, _, _, hn⟩
      · rw [hn] at hr
        exact Reply.noConfusion hr
      · rw [hn] at hr
        injection hr with hr
        subst hr
        exact hid
      · rw [hn] at hr
        exact Reply.noConfusion hr
  | submit command =>
      unfold call at hr
      dsimp only at hr
      split at hr <;> exact Reply.noConfusion hr
  | poll =>
      unfold call at hr
      dsimp only at hr
      split at hr <;> exact Reply.noConfusion hr
  | reset =>
      unfold call at hr
      dsimp only at hr
      split at hr <;> exact Reply.noConfusion hr

/--
**The invariants of a driver, against any other side.** After any run both cursors are on the ring, the tail
is as many slots ahead of the head as there are ids in flight, which is what the cursor counts as occupied,
and neither an id in flight nor the next one to try is `0`. What a drain yields was in flight, so no id is
answered more often than it was handed out.
-/
theorem invariants_on_any_memory {replies : List Reply} {s : Session} (h : Run replies s) :
    s.driver.cursor.capacity = s.driver.geometry.slotCount
      ∧ s.driver.cursor.head.index < s.driver.geometry.slotCount.slots
      ∧ s.driver.cursor.tail.index < s.driver.geometry.slotCount.slots
      ∧ s.driver.inFlight.length ≤ s.driver.geometry.slotCount.toNat
      ∧ s.driver.cursor.tail = s.driver.cursor.head.advanceBy
          (UInt32.ofNat s.driver.inFlight.length) s.driver.geometry.slotCount
      ∧ s.driver.cursor.occupied.toNat = s.driver.inFlight.length
      ∧ s.driver.inFlight.Nodup ∧ (∀ id ∈ s.driver.inFlight, id ≠ 0) ∧ s.driver.nextId ≠ 0
      ∧ (∀ memory c r, (s.call memory c).1 = .yielded r → r.id ∈ s.driver.inFlight)
      ∧ ∀ id, (yieldedIds replies).count id ≤ (submittedIds replies).count id := by
  obtain ⟨hs, ha⟩ := invariant_run h
  refine ⟨hs.capacity, UInt32.lt_iff_toNat_lt.mpr hs.ahead.onRing,
    UInt32.lt_iff_toNat_lt.mpr hs.ahead.tail_onRing, hs.length_le, hs.ahead.eq, hs.toNat_occupied,
    hs.nodup, ?_, hs.nextId_ne_zero, ?_, ?_⟩
  · intro id hid h0
    exact hs.zero_notMem (h0 ▸ hid)
  · intro memory c r hr
    exact inFlight_of_yielded hs hr
  -- what was handed out is what was yielded, and what is still in flight
  · intro id
    rw [ha.count_eq, List.count_append]
    exact Nat.le_add_right _ _

/-! ## The smallest ring of two slots -/

/-- Room for a descriptor block of six bytes, and for nothing else. -/
def smallLayout : Layout := { maxSegments := 0, cdbSize := 6, senseSize := 0 }

/-- The mailbox of an idle ring of two such slots, which lies right behind it. -/
def smallMailbox : Mailbox :=
  { version := Mailbox.currentVersion, ringOffset := 72, ringSize := 112 }

def smallRing : Region := ⟨(smallMailbox.image ++ Bytes.zeros 116).toArray, 184⟩

def smallDriver : Driver := Driver.fresh smallLayout ⟨72, 112, 56, ⟨2, by decide⟩⟩

set_option maxRecDepth 10000 in
theorem attach_smallRing : smallRing.mailbox = .ok smallMailbox
    ∧ Driver.attach smallLayout smallRing = (.ok smallDriver, smallRing) := by
  have hdriver : smallRing.mailbox = .ok smallMailbox
      ∧ (Driver.attach smallLayout smallRing).1 = .ok smallDriver := by
    decide
  exact ⟨hdriver.1, Prod.ext hdriver.2 (Driver.attach_memory ..)⟩

set_option maxRecDepth 10000 in
/-- A command is published, and then the whole memory is gone: the driver is poisoned, and still in order. -/
theorem invariants_without_memory :
    ∃ replies s, Run replies s ∧ (s.driver.poison.isSome = true ∧ s.driver.inFlight = [1])
      ∧ s.driver.cursor.occupied.toNat = s.driver.inFlight.length
      ∧ (yieldedIds replies).count 1 ≤ (submittedIds replies).count 1 := by
  have hrun := Run.called ⟨#[], 0⟩ .poll
    (Run.called smallRing (.submit Command.testUnitReady) (Run.attached attach_smallRing.2))
  obtain ⟨_, _, _, _, _, hoccupied, _, _, _, _, hcount⟩ := invariants_on_any_memory hrun
  refine ⟨_, _, hrun, ?_, hoccupied, hcount 1⟩
  decide

end CommandRing.Session
