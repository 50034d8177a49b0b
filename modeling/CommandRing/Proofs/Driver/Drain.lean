import CommandRing.Proofs.Driver.Invariant

/-!
# What a whole drain takes

A reader that takes a drain to its end takes one response after the other, until it has what was announced or
meets an error. `Consumes` is the part without the error. Whether an error comes from the poll or from the
drain, it is a corruption: the other ways in which reading a slot could fail are excluded by the geometry.
-/

namespace CommandRing

theorem Region.read_error {r : Region} {offset count : Nat} {e : Error}
    (h : r.read offset count = .error e) : ∃ reason, e = .corrupt reason := by
  unfold Region.read Region.checkRange at h
  by_cases hin : offset + count ≤ r.length
  · rw [if_pos hin] at h
    exact absurd h (by simp)
  · rw [if_neg hin] at h
    injection h with h
    exact ⟨_, h.symm⟩

theorem Region.load_error {r : Region} {offset : Nat} {e : Error} (h : r.load offset = .error e) :
    ∃ reason, e = .corrupt reason := by
  unfold Region.load Region.checkCursor Region.checkRange at h
  by_cases hin : offset + 4 ≤ r.length
  · rw [if_pos hin] at h
    dsimp only at h
    by_cases hmod : offset % 4 = 0
    · rw [if_pos hmod] at h
      exact absurd h (by simp)
    · rw [if_neg hmod] at h
      injection h with h
      exact ⟨_, h.symm⟩
  · rw [if_neg hin] at h
    injection h with h
    exact ⟨_, h.symm⟩

theorem Geometry.indexOf_error {g : Geometry} {v : UInt32} {e : Error} (h : g.indexOf v = .error e) :
    ∃ reason, e = .corrupt reason := by
  unfold Geometry.indexOf at h
  split at h
  · injection h with h
    exact ⟨_, h.symm⟩
  · exact absurd h (by simp)

namespace Driver

variable {d : Driver} {memory : Region} {e : Error}

/-! ## Errors -/

/-- A driver that has met a corruption has one on record. -/
theorem poison_poisonedBy_ne_none (d : Driver) (reason : Corruption) :
    (d.poisonedBy (.corrupt reason)).poison ≠ none := by
  unfold poisonedBy
  cases d.poison with
  | none => exact Option.some_ne_none reason
  | some first => exact Option.some_ne_none first

/-- A corruption is recorded, and other errors leave no trace. -/
theorem poisonedBy_cases (d : Driver) (e : Error) :
    d.poisonedBy e = d ∨ (d.poisonedBy e).poison ≠ none := by
  cases e with
  | corrupt reason => exact Or.inr (d.poison_poisonedBy_ne_none reason)
  | _ => exact Or.inl rfl

/-- A poll that announces anything was made by a driver that trusts the memory. -/
theorem trusting_of_poll {drain : Drain} {d' : Driver} (h : d.poll memory = (.ok drain, d')) :
    d.poison = none := by
  refine checkPoison_eq_ok.mp ?_
  rcases hp : d.checkPoison with e | ⟨⟩
  · unfold poll at h
    rw [hp] at h
    exact absurd (congrArg Prod.fst h) (by simp)
  · rfl

/-- A new drain has met no error. -/
theorem failed_of_poll {drain : Drain} {d' : Driver} (h : d.poll memory = (.ok drain, d')) :
    drain.failed = false := by
  rcases d.poll_cases memory with ⟨fresh, hfailed, hr⟩ | ⟨e, hr⟩
  · rw [hr] at h
    injection h with hdrain _
    injection hdrain with hdrain
    subst hdrain
    exact hfailed
  · rw [hr] at h
    exact absurd (congrArg Prod.fst h) (by simp)

theorem length_of_read {offset count : Nat} {raw : Bytes} (h : memory.read offset count = .ok raw) :
    raw.length = count := by
  obtain ⟨hin, rfl⟩ := Region.read_eq_ok.mp h
  exact Region.length_extract (Nat.le_trans hin memory.length_le_size)

theorem slotHeader_error {index : UInt32} (h : d.slotHeader memory index = .error e) :
    ∃ reason, e = .corrupt reason := by
  unfold slotHeader at h
  dsimp only [bind, Except.bind] at h
  split at h
  · rename_i hread
    injection h with h
    exact Region.read_error (h ▸ hread)
  · rename_i raw hread
    have hlen := length_of_read hread
    unfold Header.decode at h
    rw [if_neg (by omega)] at h
    exact absurd h (by simp)

theorem ready_error {kernelHead : UInt32} (h : d.ready memory kernelHead = .error e) :
    ∃ reason, e = .corrupt reason := by
  unfold ready at h
  dsimp only [bind, Except.bind, pure, Except.pure] at h
  split at h
  · split at h
    · rename_i hheader
      injection h with h
      exact slotHeader_error (h ▸ hheader)
    · exact absurd h (by simp)
  · exact absurd h (by simp)

theorem answered_error (h : d.answered memory = .error e) : ∃ reason, e = .corrupt reason := by
  unfold answered at h
  dsimp only [bind, Except.bind] at h
  split at h
  · rename_i hload
    injection h with h
    exact Region.load_error (h ▸ hload)
  split at h
  · rename_i hindex
    injection h with h
    exact Geometry.indexOf_error (h ▸ hindex)
  split at h
  · rename_i hready
    injection h with h
    exact ready_error (h ▸ hready)
  split at h
  · injection h with h
    exact ⟨_, h.symm⟩
  · exact absurd h (by simp [pure, Except.pure])

theorem poll_error {d' : Driver} (h : d.poll memory = (.error e, d')) :
    ∃ reason, e = .corrupt reason := by
  unfold poll at h
  split at h
  · rename_i hpoison
    injection h with h
    injection h with h
    subst h
    unfold checkPoison at hpoison
    split at hpoison
    · exact absurd hpoison (by simp)
    · injection hpoison with hpoison
      exact ⟨_, hpoison.symm⟩
  · split at h
    · rename_i hanswered
      injection h with h
      injection h with h
      exact answered_error (h ▸ hanswered)
    · exact absurd (congrArg Prod.fst h) (by simp)

theorem checkAnswer_error {index : UInt32} {header : Header} (h : checkAnswer index header = .error e) :
    ∃ reason, e = .corrupt reason := by
  unfold checkAnswer at h
  split at h
  · split at h
    · exact absurd h (by simp)
    · injection h with h
      exact ⟨_, h.symm⟩
    · injection h with h
      exact ⟨_, h.symm⟩
  · injection h with h
    exact ⟨_, h.symm⟩

/-- A slot is large enough for whatever is read from it. -/
theorem Sound.consume_error (h : d.Sound) (he : d.consume memory = .error e) :
    ∃ reason, e = .corrupt reason := by
  have hroom := d.layout.le_slotSize.2
  have hheader := d.layout.headerSize_le_slotSize
  have hslot := h.geometry.slotSize_eq
  unfold consume at he
  dsimp only [bind, Except.bind] at he
  split at he
  · rename_i hread
    injection he with he
    exact Region.read_error (he ▸ hread)
  rename_i raw hread
  have hlen := length_of_read hread
  split at he
  · rename_i hdecode
    unfold Header.decode at hdecode
    rw [if_neg (by omega)] at hdecode
    exact absurd hdecode (by simp)
  split at he
  · rename_i hanswer
    injection he with he
    exact checkAnswer_error (he ▸ hanswer)
  split at he
  · rename_i hdecode
    unfold Response.decode at hdecode
    rw [if_neg (by omega)] at hdecode
    exact absurd hdecode (by simp)
  split at he
  · exact absurd he (by simp [pure, Except.pure])
  · injection he with he
    exact ⟨_, he.symm⟩

/-! ## Responses -/

/-- A driver takes these responses one after the other. -/
inductive Consumes (memory : Region) : Driver → List Response → Driver → Prop where
  | nil {d : Driver} : Consumes memory d [] d
  | cons {d d' : Driver} {r : Response} {rest : List Response} :
      d.consume memory = .ok (r, d.consumed r.id) → r.id ∈ d.inFlight →
      Consumes memory (d.consumed r.id) rest d' → Consumes memory d (r :: rest) d'

theorem Consumes.sound {d' : Driver} {taken : List Response} (h : Consumes memory d taken d')
    (hs : d.Sound) : d'.Sound := by
  induction h with
  | nil => exact hs
  | cons _ hid _ ih => exact ih (hs.consumed hid)

/-- What was in flight is consumed, or still in flight. -/
theorem Consumes.conserved {d' : Driver} {taken : List Response} (h : Consumes memory d taken d') :
    (taken.map Response.id ++ d'.inFlight).Perm d.inFlight := by
  induction h with
  | nil => exact List.Perm.refl _
  | cons _ hid _ ih => exact (ih.cons _).trans (List.perm_cons_erase hid).symm

/-- A drain that has nothing more to give. -/
theorem next_ended {drain : Drain} (h : drain.remaining = 0 ∨ drain.failed = true) (d : Driver)
    (memory : Region) : d.next memory drain = (none, d, drain) := by
  unfold next
  rw [if_pos h]

theorem take_ended {drain : Drain} (h : drain.remaining = 0 ∨ drain.failed = true) (memory : Region)
    (count : Nat) (d : Driver) : take memory count d drain = ([], d, drain) := by
  cases count with
  | zero => rfl
  | succ count => rw [take, next_ended h]

theorem next_response {r : Response} {d' : Driver} (h : d.consume memory = .ok (r, d'))
    (count : Nat) : d.next memory ⟨count + 1, false⟩ = (some (.ok r), d', ⟨count, false⟩) := by
  unfold next
  rw [if_neg (by simp), h]
  rfl

theorem next_error (h : d.consume memory = .error e) (count : Nat) :
    d.next memory ⟨count + 1, false⟩
      = (some (.error e), d.poisonedBy e, ⟨count, true⟩) := by
  unfold next
  rw [if_neg (by simp), h]
  rfl

/-- A drain that gives an item first, and then the rest. -/
theorem take_next {drain drain' : Drain} {d' : Driver} {item : Except Error Response}
    (h : d.next memory drain = (some item, d', drain')) (count : Nat) :
    take memory (count + 1) d drain
      = (item :: (take memory count d' drain').1, (take memory count d' drain').2) := by
  rw [take, h]

/-- **A reader that asks for as much as a drain has gets responses, and maybe a corruption behind them.** -/
theorem Sound.take_cases (h : d.Sound) (memory : Region) (count : Nat) :
    (∃ taken d' drain, Consumes memory d taken d'
        ∧ take memory count d ⟨count, false⟩ = (taken.map .ok, d', drain))
      ∨ (∃ taken d' drain reason, Consumes memory d taken d'
        ∧ take memory count d ⟨count, false⟩
          = (taken.map .ok ++ [.error (.corrupt reason)], d'.poisonedBy (.corrupt reason), drain)) := by
  induction count generalizing d with
  | zero => exact Or.inl ⟨[], d, ⟨0, false⟩, .nil, rfl⟩
  | succ count ih =>
      rcases h.next_cases memory ⟨count + 1, false⟩ with
        ⟨hend, _⟩ | ⟨r, _, _, hid, hconsume, _⟩ | ⟨e, _, _, hconsume, _⟩
      · rcases hend with hend | hend
        · exact absurd hend (by simp)
        · exact Bool.noConfusion hend
      · rw [take_next (next_response hconsume count)]
        rcases ih (h.consumed hid) with ⟨taken, d', drain, htaken, hrest⟩
          | ⟨taken, d', drain, reason, htaken, hrest⟩
        · rw [hrest]
          exact Or.inl ⟨r :: taken, d', drain, .cons hconsume hid htaken, rfl⟩
        · rw [hrest]
          exact Or.inr ⟨r :: taken, d', drain, reason, .cons hconsume hid htaken, rfl⟩
      · obtain ⟨reason, rfl⟩ := h.consume_error hconsume
        rw [take_next (next_error hconsume count), take_ended (Or.inr rfl)]
        exact Or.inr ⟨[], d, _, reason, .nil, rfl⟩

theorem pollTake_failed {d' : Driver} (h : d.poll memory = (.error e, d')) (limit : Option Nat) :
    d.pollTake memory limit = (.error e, d') := by
  unfold pollTake
  rw [h]

theorem pollTake_polled {drain : Drain} {d' : Driver} (h : d.poll memory = (.ok drain, d'))
    (limit : Option Nat) :
    d.pollTake memory limit
      = (.ok (take memory (limit.getD drain.remaining) d' drain).1,
        (take memory (limit.getD drain.remaining) d' drain).2.1) := by
  unfold pollTake
  rw [h]

/-- **What polling and taking everything can do**: the poll fails, the responses are all there is, or a
corruption comes behind them. -/
theorem Sound.pollTake_cases (h : d.Sound) (memory : Region) :
    (∃ reason, d.pollTake memory none
        = (.error (.corrupt reason), d.poisonedBy (.corrupt reason)))
      ∨ (d.poison = none ∧ ∃ taken d', Consumes memory d taken d'
        ∧ d.pollTake memory none = (.ok (taken.map .ok), d'))
      ∨ (d.poison = none ∧ ∃ taken d' reason, Consumes memory d taken d'
        ∧ d.pollTake memory none = (.ok (taken.map .ok ++ [.error (.corrupt reason)]),
          d'.poisonedBy (.corrupt reason))) := by
  rcases d.poll_cases memory with ⟨⟨remaining, failed⟩, rfl, hr⟩ | ⟨e, hr⟩
  · have htrusting := trusting_of_poll hr
    rw [pollTake_polled hr, Option.getD_none]
    rcases h.take_cases memory remaining with ⟨taken, d', drain, htaken, htake⟩
      | ⟨taken, d', drain, reason, htaken, htake⟩
    · rw [htake]
      exact Or.inr (Or.inl ⟨htrusting, taken, d', htaken, rfl⟩)
    · rw [htake]
      exact Or.inr (Or.inr ⟨htrusting, taken, d', reason, htaken, rfl⟩)
  · obtain ⟨reason, rfl⟩ := poll_error hr
    exact Or.inl ⟨reason, pollTake_failed hr none⟩

end Driver

end CommandRing
