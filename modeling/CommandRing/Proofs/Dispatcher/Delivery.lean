import CommandRing.Proofs.Dispatcher.Attribution

/-!
# Where the responses of a pump go

A pump hands over one response after the other. Each was written for a submission in flight, and goes to that
one if it is still pending: another command with the same id cannot be pending, because the id is in flight. A
response whose submission is not pending any more goes to nobody.

`Delivery` says this of a whole pump. It is kept by one response at a time, since what is consumed is in flight
no longer and what is handed over is pending no longer, and both lists lose the same id.
-/

namespace CommandRing.Dispatcher

/-- From `d` to `d'` the responses `taken` were handed over, so that of the submissions in flight, `flying`,
these are left: `flying'`. The commands of `new` were settled. -/
structure Delivery (answers : List (Handle × Response)) (flying : List Handle) (d : Dispatcher)
    (taken : List Response) (flying' : List Handle) (d' : Dispatcher) (new : List (Handle × Outcome)) :
    Prop where
  settles : Settles d d' new
  fewer : flying'.Sublist flying
  pending : d'.pending.Sublist flying'
  /-- What settles a command is the answer to it. -/
  own : ∀ p ∈ new, ∃ r, p.2 = .ok r ∧ (p.1, r) ∈ answers
  /-- Only answered submissions are in flight no longer. -/
  landed : ∀ h ∈ flying, h ∈ flying' ∨ h ∈ answers.map Prod.fst
  /-- Those in flight are left alone. -/
  kept : ∀ h ∈ flying', h ∈ d.pending → h ∈ d'.pending
  /-- Every response was written for a submission, and reached it if it was pending. -/
  reached : ∀ r ∈ taken, ∃ h ∈ flying, (h, r) ∈ answers ∧ (h ∈ d.pending → (h, .ok r) ∈ new)

namespace Delivery

variable {answers : List (Handle × Response)} {flying flying' flying'' : List Handle}
  {d d' d'' : Dispatcher} {taken taken' : List Response} {new new' : List (Handle × Outcome)}

theorem nil (hpending : d.pending.Sublist flying) : Delivery answers flying d [] flying d [] where
  settles := .refl d
  fewer := List.Sublist.refl _
  pending := hpending
  own := fun _ hp => absurd hp List.not_mem_nil
  landed := fun _ hh => Or.inl hh
  kept := fun _ _ hh => hh
  reached := fun _ hr => absurd hr List.not_mem_nil

theorem trans (h : Delivery answers flying d taken flying' d' new)
    (h' : Delivery answers flying' d' taken' flying'' d'' new') :
    Delivery answers flying d (taken ++ taken') flying'' d'' (new' ++ new) where
  settles := h.settles.trans h'.settles
  fewer := h'.fewer.trans h.fewer
  pending := h'.pending
  own := by
    intro p hp
    rcases List.mem_append.mp hp with hp | hp
    · exact h'.own p hp
    · exact h.own p hp
  landed := by
    intro x hx
    rcases h.landed x hx with hx' | hanswered
    · exact h'.landed x hx'
    · exact Or.inr hanswered
  kept := by
    intro x hx hpending
    exact h'.kept x hx (h.kept x (h'.fewer.subset hx) hpending)
  reached := by
    intro r hr
    rcases List.mem_append.mp hr with hr | hr
    · obtain ⟨x, hx, hanswer, hnew⟩ := h.reached r hr
      exact ⟨x, hx, hanswer, fun hpending => List.mem_append_right _ (hnew hpending)⟩
    -- a submission that is in flight later on has not been touched yet
    · obtain ⟨x, hx, hanswer, hnew⟩ := h'.reached r hr
      refine ⟨x, h.fewer.subset hx, hanswer, ?_⟩
      intro hpending
      exact List.mem_append_left _ (hnew (h.kept x hx hpending))

end Delivery

variable {answers : List (Handle × Response)} {flying : List Handle} {d : Dispatcher} {memory : Region}

/-- **One response**: it is consumed, and handed over. -/
theorem delivery_one {driver : Driver} (h : Attributed flying answers driver memory)
    (hpending : d.pending.Sublist flying) {r : Response}
    (hr : driver.consume memory = .ok (r, driver.consumed r.id)) (hid : r.id ∈ driver.inFlight) :
    ∃ flying' new, Attributed flying' answers (driver.consumed r.id) memory
      ∧ Delivery answers flying d [r] flying' (d.deliver r).2 new := by
  obtain ⟨x, hx, hxid, hanswer, hconsumed⟩ := h.consumed hr hid
  have hkeyed := h.keyed.sublist hpending
  have hleft := pending_deliver hkeyed r
  have hsublist : (d.deliver r).2.pending.Sublist (withoutId flying r.id) := by
    rw [hleft]
    exact hpending.filter _
  have hlanded : ∀ y ∈ flying, y ∈ withoutId flying r.id ∨ y ∈ answers.map Prod.fst := by
    intro y hy
    by_cases hyid : y.id = r.id
    · rw [h.keyed.eq_of_id_eq hy hx (hyid.trans hxid.symm)]
      exact Or.inr (List.mem_map_of_mem hanswer)
    · exact Or.inl (mem_withoutId.mpr ⟨hy, hyid⟩)
  have hkept : ∀ y ∈ withoutId flying r.id, y ∈ d.pending → y ∈ (d.deliver r).2.pending := by
    intro y hy hmem
    rw [hleft]
    exact mem_withoutId.mpr ⟨hmem, (mem_withoutId.mp hy).2⟩
  rcases deliver_cases hkeyed r with ⟨y, hy, hyid, hd⟩ | ⟨hunused, hd⟩
  -- whoever has this id is the submission in flight
  · have hyx := h.keyed.eq_of_id_eq (hpending.subset hy) hx (hyid.trans hxid.symm)
    subst hyx
    refine ⟨_, [(y, .ok r)], hconsumed, ?_, withoutId_sublist _ _, hsublist, ?_, hlanded, hkept, ?_⟩
    · rw [hd]
      exact settles_settle hkeyed hy _
    · intro p hp
      rw [List.mem_singleton.mp hp]
      exact ⟨r, rfl, hanswer⟩
    · intro r' hr'
      rw [List.mem_singleton.mp hr']
      exact ⟨y, hx, hanswer, fun _ => List.mem_cons_self⟩
  · refine ⟨_, [], hconsumed, ?_, withoutId_sublist _ _, hsublist, ?_, hlanded, hkept, ?_⟩
    · rw [hd]
      exact .refl d
    · intro p hp
      exact absurd hp List.not_mem_nil
    · intro r' hr'
      rw [List.mem_singleton.mp hr']
      refine ⟨x, hx, hanswer, ?_⟩
      intro hmem
      exact absurd (List.mem_map.mpr ⟨x, hmem, hxid⟩) hunused

/-- **All responses of a pump**, by induction on what the driver takes. -/
theorem delivery_all {driver driver' : Driver} {taken : List Response}
    (htaken : Driver.Consumes memory driver taken driver') (h : Attributed flying answers driver memory)
    (hpending : d.pending.Sublist flying) :
    ∃ flying' new, Attributed flying' answers driver' memory
      ∧ Delivery answers flying d taken flying' (d.handOver taken) new := by
  induction htaken generalizing flying d with
  | nil => exact ⟨flying, [], h, .nil hpending⟩
  | @cons driver driver' r rest hr hid _ ih =>
      obtain ⟨flying₁, new₁, hconsumed, hone⟩ := delivery_one h hpending hr hid
      obtain ⟨flying₂, new₂, hattributed, hrest⟩ := ih hconsumed hone.pending
      exact ⟨flying₂, new₂ ++ new₁, hattributed, hone.trans hrest⟩

end CommandRing.Dispatcher
