import CommandRing.Proofs.Driver.Poison
import CommandRing.Proofs.Driver.Polling

/-!
# A drain can be cut anywhere

A reader may give up a drain and poll again. Nothing is lost by that and nothing is seen twice, because a poll of
the same memory announces exactly what is left: each response that was taken has moved the driver's head one slot
closer to the kernel's. That holds on a full ring as well, where the count came from a flag in a slot. Once a
response is taken the ring is not full any more, and the gap between the heads, which was nothing before, is a
lap less one slot.

So a poll is as good as what is left of the last one (`take_resumes`), and taking some items and then some more
is taking all of them at once (`take_add`). An error ends a drain, and poisons the driver, so all polls behind it
fail; what they report repeats the error, and `throughError` leaves the repetitions out.
-/

namespace CommandRing

namespace Driver

variable {d : Driver} {memory : Region}

/-! ## Polling behind a response -/

theorem Sound.isFull_consumed (h : d.Sound) {id : CommandId} (hid : id ∈ d.inFlight) :
    (d.consumed id).cursor.isFull = false := by
  refine Bool.eq_false_iff.mpr ?_
  intro hfull
  have hlap := (h.consumed hid).isFull_iff.mp hfull
  have hle := h.length_le
  have hlen := List.length_erase_add_one hid
  have hsame : (d.inFlight.erase id).length = d.geometry.slotCount.toNat := hlap
  omega

theorem HeadShown.consumed (h : d.HeadShown memory) (id : CommandId) :
    (d.consumed id).HeadShown memory :=
  ⟨h.readable, h.inside, h.boundary⟩

/-- The gap closes by one slot, around the ring. -/
theorem Sound.gap_consumed (h : d.Sound) (hs : d.HeadShown memory) {id : CommandId}
    (hid : id ∈ d.inFlight) :
    (1 + (d.consumed id).gap memory) % d.geometry.slotCount.toNat = d.gap memory := by
  have hrest := (h.consumed hid).seat_gap (hs.consumed id)
  rw [h.head_consumed] at hrest
  exact (h.gap_eq hs ((d.geometry.seat_add _ 1 _).symm.trans hrest)).symm

/-- On a ring with room the mailbox alone says what was answered. -/
theorem announced_of_room (h : d.cursor.isFull = false) (memory : Region) :
    d.announced memory = d.gap memory := by
  refine if_neg ?_
  rintro ⟨_, hfull, _⟩
  rw [h] at hfull
  exact Bool.noConfusion hfull

theorem Sound.announced_consumed (h : d.Sound) (hok : ∀ reason, ¬ d.PollFault memory reason)
    {id : CommandId} (hid : id ∈ d.inFlight) (hsome : 0 < d.announced memory) :
    (d.consumed id).announced memory + 1 = d.announced memory := by
  have hgap := h.gap_consumed (headShown_of_not_fault hok) hid
  have hlt : (d.consumed id).gap memory < d.geometry.slotCount.toNat := gap_lt _ _
  rw [announced_of_room (h.isFull_consumed hid)]
  -- less than a lap is left, and it is a whole one with the slot that was released
  rcases Nat.lt_or_ge (1 + (d.consumed id).gap memory) d.geometry.slotCount.toNat with hin | hlap
  · rw [Nat.mod_eq_of_lt hin] at hgap
    have hcount : d.announced memory = d.gap memory := by
      refine if_neg ?_
      intro hc
      omega
    omega
  · have hwhole : 1 + (d.consumed id).gap memory = d.geometry.slotCount.toNat := by omega
    rw [hwhole, Nat.mod_self] at hgap
    unfold announced at hsome ⊢
    split at hsome
    · rename_i hc
      rw [if_pos hc]
      omega
    · omega

theorem Sound.no_fault_consumed (h : d.Sound) (hok : ∀ reason, ¬ d.PollFault memory reason)
    {id : CommandId} (hid : id ∈ d.inFlight) (hsome : 0 < d.announced memory) (reason : Corruption) :
    ¬ (d.consumed id).PollFault memory reason := by
  have hs := headShown_of_not_fault hok
  have hfull := h.isFull_consumed hid
  intro hf
  cases hf with
  | unreadable hout => exact hok _ (.unreadable hout)
  | stray hin hplace => exact hok _ (.stray hin hplace)
  | beyond _ hbeyond =>
      have hle := h.announced_le hok
      have hcount := h.announced_consumed hok hid hsome
      have hlen := List.length_erase_add_one hid
      have hoccupied : (d.consumed id).cursor.occupied.toNat = (d.inFlight.erase id).length :=
        (h.consumed hid).toNat_occupied
      have hgap := announced_of_room hfull memory
      omega
  | hidden _ _ hfull' _ =>
      rw [hfull] at hfull'
      exact Bool.noConfusion hfull'

/-- **Behind a response, a poll announces what is left of the drain.** -/
theorem Sound.poll_consumed (h : d.Sound) {count : Nat} {id : CommandId} (hid : id ∈ d.inFlight)
    (hpoll : d.poll memory = (.ok ⟨count + 1, false⟩, d)) :
    (d.consumed id).poll memory = (.ok ⟨count, false⟩, d.consumed id) := by
  have hp := trusting_of_poll hpoll
  have hok : ∀ reason, ¬ d.PollFault memory reason := by
    intro reason hf
    rw [h.poll_fault hp hf] at hpoll
    exact absurd (congrArg Prod.fst hpoll) (by simp)
  have hcount : d.announced memory = count + 1 := by
    rw [h.poll_announced hp hok] at hpoll
    injection hpoll with hdrain _
    injection hdrain with hdrain
    injection hdrain
  have hrest := h.announced_consumed hok hid (by omega)
  have hsame : (d.consumed id).poison = none := hp
  rw [(h.consumed hid).poll_announced hsame (h.no_fault_consumed hok hid (by omega)),
    show (d.consumed id).announced memory = count by omega]

/-! ## Taking items in parts -/

/-- Some items and then some more are all of them. -/
theorem take_add {first : Nat} {drain drain' : Drain} {d' : Driver}
    {items : List (Except Error Response)} (h : take memory first d drain = (items, d', drain'))
    (more : Nat) :
    take memory (first + more) d drain
      = (items ++ (take memory more d' drain').1, (take memory more d' drain').2) := by
  induction first generalizing d drain items with
  | zero =>
      injection h with hitems h
      injection h with hd hdrain
      subst hitems hd hdrain
      rw [Nat.zero_add]
      rfl
  | succ first ih =>
      by_cases hend : drain.remaining = 0 ∨ drain.failed = true
      · rw [take_ended hend] at h
        injection h with hitems h
        injection h with hd hdrain
        subst hitems hd hdrain
        rw [take_ended hend, take_ended hend]
        rfl
      · rcases hnext : d.next memory drain with ⟨_ | item, d₁, drain₁⟩
        · unfold next at hnext
          rw [if_neg hend] at hnext
          dsimp only at hnext
          split at hnext <;> exact absurd (congrArg Prod.fst hnext) (by simp)
        · rw [take_next hnext] at h
          injection h with hitems hleft
          have hfirst : take memory first d₁ drain₁
              = ((take memory first d₁ drain₁).1, d', drain') := by rw [← hleft]
          rw [Nat.succ_add, take_next hnext, ih hfirst, ← hitems]
          rfl

/-- **What is left of a drain is what the next poll announces**, unless an error ended it. -/
theorem Sound.take_resumes (h : d.Sound) {drain : Drain} (hpoll : d.poll memory = (.ok drain, d))
    (limit : Nat) :
    ∃ items d' drain', take memory limit d drain = (items, d', drain') ∧ d'.Sound
      ∧ ∃ taken : List Response, (items = taken.map .ok ∧ d'.poll memory = (.ok drain', d'))
        ∨ ∃ reason, items = taken.map .ok ++ [.error (.corrupt reason)] ∧ drain'.failed = true
          ∧ d'.poison = some reason := by
  obtain ⟨remaining, failed⟩ := drain
  obtain rfl : failed = false := failed_of_poll hpoll
  induction limit generalizing d remaining with
  | zero => exact ⟨_, _, _, rfl, h, [], Or.inl ⟨rfl, hpoll⟩⟩
  | succ limit ih =>
      cases remaining with
      | zero => exact ⟨_, _, _, take_ended (Or.inl rfl) _ _ _, h, [], Or.inl ⟨rfl, hpoll⟩⟩
      | succ remaining =>
          rcases hc : d.consume memory with e | ⟨r, d'⟩
          · obtain ⟨reason, rfl⟩ := h.consume_error hc
            rw [take_next (next_error hc remaining), take_ended (Or.inr rfl)]
            have hpoison : (d.poisonedBy (.corrupt reason)).poison = some reason :=
              (poison_poisonedBy_iff (trusting_of_poll hpoll)).mpr rfl
            exact ⟨_, _, _, rfl, h.poisonedBy _, [], Or.inr ⟨reason, rfl, rfl, hpoison⟩⟩
          · obtain ⟨_, hid, rfl⟩ := h.consume_eq_ok.mp hc
            obtain ⟨items, d', drain', htake, hs', taken, hrest⟩ :=
              ih (h.consumed hid) remaining (h.poll_consumed hid hpoll)
            rw [take_next (next_response hc remaining), htake]
            refine ⟨_, _, _, rfl, hs', r :: taken, ?_⟩
            rcases hrest with ⟨rfl, hpoll'⟩ | ⟨reason, rfl, hfailed, hpoison⟩
            · exact Or.inl ⟨rfl, hpoll'⟩
            · exact Or.inr ⟨reason, rfl, hfailed, hpoison⟩

/-! ## Polling several times -/

/-- What a reader sees of a poll and its drain: the items, or the error of the poll itself. -/
def seen : Except Error (List (Except Error Response)) → List (Except Error Response)
  | .ok items => items
  | .error e => [.error e]

/-- One poll for each count, each drain given up after so many items. -/
def pollEach (memory : Region) :
    (counts : List Nat) → Driver → List (Except Error Response) × Driver
  | [], d => ([], d)
  | count :: counts, d =>
    let (result, d) := d.pollTake memory (some count)
    let (items, d) := pollEach memory counts d
    (seen result ++ items, d)

/-- The items up to the first error, with this error. -/
def throughError : List (Except Error Response) → List (Except Error Response)
  | [] => []
  | .ok r :: items => .ok r :: throughError items
  | .error e :: _ => [.error e]

theorem throughError_responses (taken : List Response) (items : List (Except Error Response)) :
    throughError (taken.map .ok ++ items) = taken.map .ok ++ throughError items := by
  induction taken with
  | nil => rfl
  | cons r taken ih => exact congrArg (.ok r :: ·) ih

theorem throughError_append (items more : List (Except Error Response)) :
    throughError (items ++ more) = throughError (items ++ throughError more) := by
  induction items with
  | nil =>
      induction more with
      | nil => rfl
      | cons item more ih =>
          cases item with
          | ok r => exact congrArg (.ok r :: ·) ih
          | error e => rfl
  | cons item items ih =>
      cases item with
      | ok r => exact congrArg (.ok r :: ·) ih
      | error e => rfl

/-- A poll that failed fails again. -/
theorem poll_again {e : Error} {d' : Driver} (h : d.poll memory = (.error e, d')) :
    d'.poll memory = (.error e, d') := by
  obtain ⟨reason, rfl⟩ := poll_error h
  cases hp : d.poison with
  | some first =>
      rw [poll_poisoned hp] at h
      injection h with he hd
      subst hd
      rw [poll_poisoned hp, he]
  | none =>
      rcases d.poll_cases memory with ⟨drain, _, hr⟩ | ⟨e, hr⟩
      · rw [hr] at h
        exact absurd (congrArg Prod.fst h) (by simp)
      · rw [hr] at h
        injection h with he hd
        injection he with he
        subst he hd
        exact poll_poisoned ((poison_poisonedBy_iff hp).mpr rfl) memory

/-- What a reader sees ends with the first error. -/
theorem Sound.throughError_seen (h : d.Sound) (memory : Region) (limit : Nat) :
    throughError (seen (d.pollTake memory (some limit)).1) = seen (d.pollTake memory (some limit)).1
      ∧ (d.pollTake memory (some limit)).2.Sound := by
  rcases d.poll_cases memory with ⟨drain, _, hpoll⟩ | ⟨e, hpoll⟩
  · obtain ⟨items, d', drain', htake, hs', taken, hitems⟩ := h.take_resumes hpoll limit
    rw [pollTake_polled hpoll, Option.getD_some, htake]
    refine ⟨?_, hs'⟩
    show throughError items = items
    rcases hitems with ⟨rfl, _⟩ | ⟨reason, rfl, _⟩
    · have hwhole := throughError_responses taken []
      rw [throughError, List.append_nil] at hwhole
      exact hwhole
    · exact throughError_responses taken _
  · rw [pollTake_failed hpoll]
    exact ⟨rfl, h.poisonedBy e⟩

/-- **Two polls see what one sees**, up to the first error, and leave the driver that it leaves. -/
theorem Sound.pollTake_add (h : d.Sound) (memory : Region) (first more : Nat) :
    throughError (seen (d.pollTake memory (some first)).1
        ++ seen ((d.pollTake memory (some first)).2.pollTake memory (some more)).1)
        = seen (d.pollTake memory (some (first + more))).1
      ∧ ((d.pollTake memory (some first)).2.pollTake memory (some more)).2
        = (d.pollTake memory (some (first + more))).2 := by
  rcases d.poll_cases memory with ⟨drain, _, hpoll⟩ | ⟨e, hpoll⟩
  · obtain ⟨items, d', drain', htake, hs', taken, hitems⟩ := h.take_resumes hpoll first
    rw [pollTake_polled hpoll, pollTake_polled hpoll, Option.getD_some, Option.getD_some, htake,
      take_add htake]
    dsimp only
    rcases hitems with ⟨rfl, hagain⟩ | ⟨reason, rfl, hfailed, hpoison⟩
    -- the second poll goes on where the first one was left
    · have hrest := (hs'.throughError_seen memory more).1
      rw [pollTake_polled hagain] at hrest ⊢
      exact ⟨(throughError_responses taken _).trans (congrArg _ hrest), rfl⟩
    -- the first one ended with an error, which the second one repeats
    · rw [pollTake_failed (poll_poisoned hpoison memory), take_ended (Or.inr hfailed)]
      refine ⟨?_, rfl⟩
      show throughError (taken.map .ok ++ [_] ++ [_]) = taken.map .ok ++ [_] ++ []
      rw [List.append_assoc, throughError_responses, List.append_nil]
      rfl
  · rw [pollTake_failed hpoll, pollTake_failed hpoll, pollTake_failed (poll_again hpoll)]
    exact ⟨rfl, rfl⟩

/-- Any number of polls, by induction on them. -/
theorem Sound.pollEach_eq (h : d.Sound) (memory : Region) {counts : List Nat} (hne : counts ≠ []) :
    throughError (pollEach memory counts d).1 = seen (d.pollTake memory (some counts.sum)).1
      ∧ (pollEach memory counts d).2 = (d.pollTake memory (some counts.sum)).2 := by
  induction counts generalizing d with
  | nil => exact absurd rfl hne
  | cons count counts ih =>
      obtain ⟨hone, hs'⟩ := h.throughError_seen memory count
      unfold pollEach
      dsimp only
      cases counts with
      | nil =>
          unfold pollEach
          rw [List.append_nil, List.sum_singleton]
          exact ⟨hone, rfl⟩
      | cons next counts =>
          obtain ⟨hseen, hdriver⟩ := ih hs' (List.cons_ne_nil next counts)
          obtain ⟨hboth, hleft⟩ := h.pollTake_add memory count (next :: counts).sum
          rw [throughError_append, hseen, hdriver, List.sum_cons]
          exact ⟨hboth, hleft⟩

end Driver

namespace Session

/--
**However a drain is cut up, it is the same.** A reader that polls again and again on one memory, and takes as
many items of each drain as it likes before it gives the drain up, sees up to the first error what a reader sees
who polls once and takes as many items in all. The driver is the same in the end as well, also if there was an
error.
-/
theorem drain_cut_anywhere {replies : List Reply} {s : Session} (h : Run replies s) (memory : Region)
    {counts : List Nat} (hne : counts ≠ []) :
    Driver.throughError (Driver.pollEach memory counts s.driver).1
        = Driver.seen (s.driver.pollTake memory (some counts.sum)).1
      ∧ (Driver.pollEach memory counts s.driver).2
        = (s.driver.pollTake memory (some counts.sum)).2 :=
  (invariant_run h).sound.pollEach_eq memory hne

set_option maxRecDepth 10000 in
/-- A first reader takes nothing, the next one a response, and the third meets the second response to its
command. So does everyone behind it. -/
theorem drain_cut_echoing :
    (∃ replies, Run replies crammed)
      ∧ Driver.throughError (Driver.pollEach echoing [0, 1, 2, 0] crammed.driver).1
        = [.ok (.answering smallLayout 1 0 []), .error (.corrupt (.strangeCommand 1 1))]
      ∧ (Driver.pollEach echoing [0, 1, 2, 0] crammed.driver).1.length = 3
      ∧ (Driver.pollEach echoing [0, 1, 2, 0] crammed.driver).2
        = (crammed.driver.pollTake echoing (some 3)).2 := by
  obtain ⟨replies, hrun⟩ := run_crammed
  obtain ⟨hseen, hdriver⟩ := drain_cut_anywhere hrun echoing (List.cons_ne_nil 0 [1, 2, 0])
  exact ⟨⟨replies, hrun⟩, hseen.trans (by decide), by decide, hdriver⟩

end Session

end CommandRing
