import CommandRing.Proofs.Dispatcher.Settling
import CommandRing.Proofs.Exchange.Memory

/-!
# Whose response it is

A response names an id, and ids are used again, so the id alone does not say which submission was answered. Two
things make up for it. An id stays in flight until its response is consumed, so it is not given to a second
command while a response to the first is on its way. And publishing a request wipes out what the slot showed
before, so a response that was consumed long ago is not found again.

`Attributed` is what follows: every response that a driver can come across was written for a submission that is
in flight, and no two of them for the same one. It asks nothing of the kernel's head, which may lie anywhere.
-/

namespace CommandRing

/-- Slot `i` shows the response `r`. -/
def Geometry.Shows (g : Geometry) (layout : Layout) (memory : Region) (i : Nat) (r : Response) : Prop :=
  Answers layout (g.slotBytes memory i) r

theorem Geometry.Shows.of_bytes_eq {g : Geometry} {layout : Layout} {memory memory' : Region} {i : Nat}
    {r : Response} (h : g.Shows layout memory i r)
    (hbytes : g.slotBytes memory' i = g.slotBytes memory i) : g.Shows layout memory' i r := by
  unfold Geometry.Shows at h ⊢
  rw [hbytes]
  exact h

/-- Slot number `k` of those that are occupied shows `r`. -/
structure Driver.Finds (d : Driver) (memory : Region) (k : Nat) (r : Response) : Prop where
  occupied : k < d.inFlight.length
  shown : d.geometry.Shows d.layout memory (d.geometry.seat d.cursor.head.index.toNat k) r

/-- The submissions of `flying` are in flight, and whatever the driver finds was written for one of them. -/
structure Attributed (flying : List Handle) (answers : List (Handle × Response)) (d : Driver)
    (memory : Region) : Prop where
  sound : d.Sound
  ids : flying.map Handle.id = d.inFlight
  /-- An answer names the id of its submission. -/
  named : ∀ p ∈ answers, p.2.id = p.1.id
  owned : ∀ k r, d.Finds memory k r → ∃ h ∈ flying, (h, r) ∈ answers
  /-- No two slots answer the same id. -/
  distinct : ∀ k k' r r', d.Finds memory k r → d.Finds memory k' r' → r.id = r'.id → k = k'

namespace Attributed

variable {flying : List Handle} {answers : List (Handle × Response)} {d : Driver} {memory : Region}

theorem keyed (h : Attributed flying answers d memory) : WellKeyed flying := by
  unfold WellKeyed
  rw [h.ids]
  exact h.sound.nodup

/-- Nothing of it depends on the id to try next, or on what is on record. -/
theorem of_frozen (h : Attributed flying answers d memory) {d' : Driver} (hs : d'.Sound)
    (hlayout : d'.layout = d.layout) (hgeometry : d'.geometry = d.geometry)
    (hcursor : d'.cursor = d.cursor) (hflight : d'.inFlight = d.inFlight) :
    Attributed flying answers d' memory := by
  have hfinds : ∀ k r, d'.Finds memory k r → d.Finds memory k r := by
    rintro k r ⟨hk, hshown⟩
    rw [hflight] at hk
    rw [hlayout, hgeometry, hcursor] at hshown
    exact ⟨hk, hshown⟩
  refine ⟨hs, ?_, h.named, ?_, ?_⟩
  · rw [hflight]
    exact h.ids
  · intro k r hk
    exact h.owned k r (hfinds k r hk)
  · intro k k' r r' hk hk'
    exact h.distinct k k' r r' (hfinds k r hk) (hfinds k' r' hk')

theorem poisonedBy (h : Attributed flying answers d memory) (e : Error) :
    Attributed flying answers (d.poisonedBy e) memory := by
  cases e with
  | corrupt reason => exact h.of_frozen (h.sound.poisonedBy _) rfl rfl rfl rfl
  | _ => exact h

/-! ## What the kernel does -/

/-- Responses may disappear. -/
theorem faded (h : Attributed flying answers d memory) {memory' : Region}
    (hnone : ∀ i r, i < d.geometry.slotCount.toNat → d.geometry.Shows d.layout memory' i r →
      d.geometry.Shows d.layout memory i r) :
    Attributed flying answers d memory' := by
  have hfinds : ∀ k r, d.Finds memory' k r → d.Finds memory k r := by
    rintro k r ⟨hk, hshown⟩
    exact ⟨hk, hnone _ r (d.geometry.seat_lt _ k) hshown⟩
  refine ⟨h.sound, h.ids, h.named, ?_, ?_⟩
  · intro k r hk
    exact h.owned k r (hfinds k r hk)
  · intro k k' r r' hk hk'
    exact h.distinct k k' r r' (hfinds k r hk) (hfinds k' r' hk')

/-- **A submission that is in flight is answered**, for the first time and in any slot. -/
theorem answered (h : Attributed flying answers d memory) {x : Handle} {r : Response} {i : Nat}
    {memory' : Region} (hx : x ∈ flying) (hfirst : x ∉ answers.map Prod.fst) (hid : r.id = x.id)
    (hshown : ∀ r', d.geometry.Shows d.layout memory' i r' → r' = r)
    (hothers : ∀ j r', j < d.geometry.slotCount.toNat → j ≠ i → d.geometry.Shows d.layout memory' j r' →
      d.geometry.Shows d.layout memory j r') :
    Attributed flying ((x, r) :: answers) d memory' := by
  -- what is found is in the slot that was written, or was found before
  have hfinds : ∀ k r', d.Finds memory' k r' →
      (d.geometry.seat d.cursor.head.index.toNat k = i ∧ r' = r) ∨ d.Finds memory k r' := by
    rintro k r' ⟨hk, hr'⟩
    by_cases hki : d.geometry.seat d.cursor.head.index.toNat k = i
    · rw [hki] at hr'
      exact Or.inl ⟨hki, hshown r' hr'⟩
    · exact Or.inr ⟨hk, hothers _ r' (d.geometry.seat_lt _ k) hki hr'⟩
  -- and what was found before answers another id, because this submission had no answer
  have hother : ∀ k r', d.Finds memory k r' → r'.id ≠ r.id := by
    intro k r' hk hsame
    obtain ⟨y, hy, hanswer⟩ := h.owned k r' hk
    have hyid : y.id = x.id := by rw [← h.named _ hanswer, hsame, hid]
    have hyx := h.keyed.eq_of_id_eq hy hx hyid
    rw [hyx] at hanswer
    exact hfirst (List.mem_map_of_mem hanswer)
  refine ⟨h.sound, h.ids, ?_, ?_, ?_⟩
  · intro p hp
    rcases List.mem_cons.mp hp with rfl | hp
    · exact hid
    · exact h.named p hp
  · intro k r' hk
    rcases hfinds k r' hk with ⟨_, rfl⟩ | hold
    · exact ⟨x, hx, List.mem_cons_self⟩
    · obtain ⟨y, hy, hanswer⟩ := h.owned k r' hold
      exact ⟨y, hy, List.mem_cons_of_mem _ hanswer⟩
  · intro k k' r₁ r₂ hk hk' hsame
    rcases hfinds k r₁ hk with ⟨hki, rfl⟩ | hold
    · rcases hfinds k' r₂ hk' with ⟨hki', rfl⟩ | hold'
      -- two occupied slots are less than a lap apart
      · have hlap := h.sound.length_le
        have hlt := hk.occupied
        have hlt' := hk'.occupied
        rcases Nat.lt_trichotomy k k' with hlow | heq | hhigh
        · exact absurd (hki'.trans hki.symm) (d.geometry.seat_ne _ hlow (by omega))
        · exact heq
        · exact absurd (hki.trans hki'.symm) (d.geometry.seat_ne _ hhigh (by omega))
      · exact absurd hsame.symm (hother k' r₂ hold')
    · rcases hfinds k' r₂ hk' with ⟨_, rfl⟩ | hold'
      · exact absurd hsame (hother k r₁ hold)
      · exact h.distinct k k' r₁ r₂ hold hold' hsame

/-! ## What the driver does -/

theorem finds_head (h : Attributed flying answers d memory) {r : Response} {d' : Driver}
    (hr : d.consume memory = .ok (r, d')) : d.Finds memory 0 r := by
  obtain ⟨⟨raw, header, hread, hheader, hanswer, hresponse⟩, hid, _⟩ := h.sound.consume_eq_ok.mp hr
  have hlen := Driver.length_of_read hread
  have hseat : d.geometry.seat d.cursor.head.index.toNat 0 = d.cursor.head.index.toNat :=
    Nat.mod_eq_of_lt h.sound.ahead.onRing
  rw [h.sound.slotOffset_head] at hread
  have hraw : d.geometry.slotBytes memory (d.geometry.seat d.cursor.head.index.toNat 0) = raw := by
    rw [hseat]
    exact (Region.read_eq_ok.mp hread).2
  have hheaderEq : header = Header.ofBytes raw := by
    have hsize := d.layout.headerSize_le_slotSize
    have hslot := h.sound.geometry.slotSize_eq
    unfold Header.decode at hheader
    rw [if_neg (by omega)] at hheader
    injection hheader with hheader
    exact hheader.symm
  rw [hheaderEq] at hanswer
  refine ⟨List.length_pos_of_mem hid, ?_⟩
  unfold Geometry.Shows
  rw [hraw]
  -- the driver accepted the slot only because of its flag and its opcode
  unfold Driver.checkAnswer at hanswer
  split at hanswer
  · rename_i hflag
    split at hanswer
    · rename_i hcommand
      exact ⟨hflag, hcommand, hresponse⟩
    · exact absurd hanswer (by simp)
    · exact absurd hanswer (by simp)
  · exact absurd hanswer (by simp)

/-- What a driver finds after it consumed a response, it found one slot further on before. -/
theorem finds_of_consumed (h : Attributed flying answers d memory) {id : CommandId}
    (hid : id ∈ d.inFlight) {k : Nat} {r : Response} (hr : (d.consumed id).Finds memory k r) :
    d.Finds memory (k + 1) r := by
  obtain ⟨hk, hshown⟩ := hr
  have hlen := List.length_erase_of_mem hid
  have hpos := List.length_pos_of_mem hid
  have hhead : (d.consumed id).cursor.head.index.toNat
      = d.geometry.seat d.cursor.head.index.toNat 1 := h.sound.ahead.onRing.toNat_advance
  refine ⟨?_, ?_⟩
  · have hk' : k < (d.inFlight.erase id).length := hk
    omega
  · rw [hhead] at hshown
    have hseat := d.geometry.seat_add d.cursor.head.index.toNat 1 k
    rw [Nat.add_comm 1 k] at hseat
    rw [← hseat]
    exact hshown

/-- **A response that is consumed answers a submission in flight**, and that one is in flight no longer. -/
theorem consumed (h : Attributed flying answers d memory) {r : Response}
    (hr : d.consume memory = .ok (r, d.consumed r.id)) (hid : r.id ∈ d.inFlight) :
    ∃ x ∈ flying, x.id = r.id ∧ (x, r) ∈ answers
      ∧ Attributed (Dispatcher.withoutId flying r.id) answers (d.consumed r.id) memory := by
  have hhead := h.finds_head hr
  obtain ⟨x, hx, hanswer⟩ := h.owned 0 r hhead
  refine ⟨x, hx, (h.named _ hanswer).symm, hanswer, h.sound.consumed hid, ?_, h.named, ?_, ?_⟩
  · rw [Dispatcher.map_id_withoutId, h.ids]
    show _ = d.inFlight.erase r.id
    rw [h.sound.nodup.erase_eq_filter]
    refine List.filter_congr ?_
    intro id _
    by_cases hsame : id = r.id
    · simp [hsame]
    · simp [hsame]
  · intro k r' hk
    have hbefore := h.finds_of_consumed hid hk
    obtain ⟨y, hy, hanswer'⟩ := h.owned (k + 1) r' hbefore
    refine ⟨y, Dispatcher.mem_withoutId.mpr ⟨hy, ?_⟩, hanswer'⟩
    -- the head has its response, so this one is for another submission
    intro hsame
    have hids : r'.id = r.id := (h.named _ hanswer').trans hsame
    exact absurd (h.distinct (k + 1) 0 r' r hbefore hhead hids) (by simp)
  · intro k k' r₁ r₂ hk hk' hsame
    have hnext := h.distinct (k + 1) (k' + 1) r₁ r₂ (h.finds_of_consumed hid hk)
      (h.finds_of_consumed hid hk') hsame
    omega

/-- **A submission takes a slot that shows nothing.** -/
theorem submitted (h : Attributed flying answers d memory) {command : Command} {id : CommandId}
    {slot : Bytes} (hcheck : d.checkCommand command = .ok ()) (h0 : id ≠ 0) (hfree : id ∉ d.inFlight)
    (hslot : d.slotFor id command = .ok slot)
    (hin : d.geometry.slotStart d.cursor.tail.index.toNat + d.geometry.slotSize.toNat ≤ memory.length)
    (ticket : Nat) :
    Attributed (⟨id, ticket⟩ :: flying) answers (d.submitted id) (d.writtenTo memory slot) := by
  obtain ⟨hsegments, hcdb, _, hroom⟩ := Driver.checkCommand_eq_ok.mp hcheck
  have hlen := Driver.length_slotFor h.sound.geometry hsegments hcdb hslot
  have hwaits := Waits.slotFor h.sound.geometry hsegments hslot
  have hsize := Nat.le_trans hin memory.length_le_size
  have htail : d.cursor.tail.index.toNat
      = d.geometry.seat d.cursor.head.index.toNat d.inFlight.length := h.sound.ahead.index_eq
  have hnotFull : d.inFlight.length < d.geometry.slotCount.toNat := by
    refine Nat.lt_of_le_of_ne h.sound.length_le ?_
    intro hfull
    rw [h.sound.isFull_iff.mpr hfull] at hroom
    exact Bool.noConfusion hroom
  -- whatever it finds now lies in front of the new slot, and was found before
  have hfinds : ∀ k r, (d.submitted id).Finds (d.writtenTo memory slot) k r → d.Finds memory k r := by
    rintro k r ⟨hk, hshown⟩
    have hk' : k < d.inFlight.length + 1 := hk
    change d.geometry.Shows d.layout (d.writtenTo memory slot)
      (d.geometry.seat d.cursor.head.index.toNat k) r at hshown
    unfold Geometry.Shows Driver.writtenTo at hshown
    rw [h.sound.geometry.slotBytes_put_cursor (by decide)] at hshown
    rcases Nat.lt_or_ge k d.inFlight.length with hlt | hge
    · have hne := d.geometry.seat_ne d.cursor.head.index.toNat hlt (by omega)
      rw [htail, d.geometry.slotBytes_put_other hlen hne] at hshown
      exact ⟨hlt, hshown⟩
    · rw [show k = d.inFlight.length by omega, ← htail,
        d.geometry.slotBytes_put_self hlen hsize] at hshown
      have hflag := hshown.flagged
      unfold Waits at hwaits
      rw [hwaits] at hflag
      exact Bool.noConfusion hflag
  refine ⟨h.sound.submitted hroom h0 hfree, ?_, h.named, ?_, ?_⟩
  · show id :: flying.map Handle.id = id :: d.inFlight
    rw [h.ids]
  · intro k r hk
    obtain ⟨x, hx, hanswer⟩ := h.owned k r (hfinds k r hk)
    exact ⟨x, List.mem_cons_of_mem _ hx, hanswer⟩
  · intro k k' r r' hk hk'
    exact h.distinct k k' r r' (hfinds k r hk) (hfinds k' r' hk')

end Attributed

end CommandRing
