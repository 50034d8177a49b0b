import CommandRing.Proofs.Region.Words
import Mathlib.Data.List.Induction

/-!
# What memory remembers

Of all that was done to memory, a byte keeps what was put there last. `latest` says what that is and looks at no memory
for it: it goes back through the steps to the last one that put a byte there, and finds zero if none did. A step that
was refused put none anywhere.

That memory is the latest of everything (`byte_after`) is an induction on the steps from the last one back, with
`byte_apply` for one of them. So every reply can be told from the history alone, as it can for an array of bytes
(`ArrayOfBytes`), and it does not matter whether the memory is one or is made of words.
-/

namespace CommandRing

open Scenario

/-! ## What a step is about -/

namespace Scenario.RegionStep

/-- The step stays inside a region of `length` bytes, and a cursor that it is about is aligned. -/
def Inside (length : Nat) : RegionStep → Prop
  | read offset count => offset + count ≤ length
  | write offset data => offset + data.length ≤ length
  | load offset | store offset _ => offset + 4 ≤ length ∧ offset % 4 = 0
  | snapshot => True
  | mailbox => Mailbox.size ≤ length

instance (length : Nat) : (step : RegionStep) → Decidable (step.Inside length)
  | read .. | write .. | mailbox => inferInstanceAs (Decidable (_ ≤ _))
  | load _ | store .. => inferInstanceAs (Decidable (_ ∧ _))
  | snapshot => inferInstanceAs (Decidable True)

/-- The bytes that the step writes. -/
def data : RegionStep → Bytes
  | write _ data => data
  | store _ value => Bytes.ofUInt32 value
  | _ => []

/-- Where it writes the first of them. -/
def start : RegionStep → Nat
  | write offset _ | store offset _ => offset
  | _ => 0

theorem Inside.end_le {length : Nat} {step : RegionStep} (h : step.Inside length) :
    step.start + step.data.length ≤ length := by
  cases step with
  | write offset data => exact h
  | store offset value =>
      have hlen := Bytes.length_ofUInt32 value
      exact Nat.le_trans (Nat.le_of_eq (congrArg (offset + ·) hlen)) h.1
  | read offset count => exact Nat.zero_le _
  | load offset => exact Nat.zero_le _
  | snapshot => exact Nat.zero_le _
  | mailbox => exact Nat.zero_le _

/-- The byte that the step puts at `i`, if it puts one there. -/
def puts? (length : Nat) (step : RegionStep) (i : Nat) : Option UInt8 :=
  if step.Inside length ∧ step.start ≤ i then step.data[i - step.start]? else none

/-- What the reply to a step has to be, of memory with this content. -/
def Answered (length : Nat) (content : Nat → UInt8) : RegionStep → RegionReply → Prop
  | read offset count, reply =>
    reply = .bytes ((List.range count).map fun k => content (offset + k))
  | load offset, reply => ∃ v, reply = .word v
    ∧ v.toNat = (content offset).toNat + 256 * (content (offset + 1)).toNat
      + 65536 * (content (offset + 2)).toNat + 16777216 * (content (offset + 3)).toNat
  | snapshot, reply => reply = .bytes ((List.range length).map content)
  | mailbox, reply => ∃ m, reply = .mailbox m
    ∧ Mailbox.decode ((List.range Mailbox.size).map content) = .ok m
  | write .., reply | store .., reply => reply = .done

end Scenario.RegionStep

/-- The byte that was put at `i` last, and zero if none was. -/
def latest (length : Nat) (before : List RegionStep) (i : Nat) : UInt8 :=
  (before.reverse.findSome? fun step => step.puts? length i).getD 0

theorem latest_concat (length : Nat) (before : List RegionStep) (step : RegionStep) (i : Nat) :
    latest length (before ++ [step]) i = (step.puts? length i).getD (latest length before i) := by
  unfold latest
  rw [List.reverse_append, List.reverse_singleton, List.singleton_append, List.findSome?_cons]
  cases step.puts? length i with
  | none => rfl
  | some b => rfl

/-! ## One step -/

namespace Region

variable {r : Region} {step : RegionStep}

theorem checkRange_refuses {length offset count : Nat} (h : ¬ offset + count ≤ length) :
    checkRange length offset count = .error (.corrupt (.outsideRegion count offset length)) :=
  if_neg h

theorem checkCursor_refuses {length offset : Nat} (h : ¬ (offset + 4 ≤ length ∧ offset % 4 = 0)) :
    ∃ reason, checkCursor length offset = .error (.corrupt reason) := by
  unfold checkCursor
  by_cases hin : offset + 4 ≤ length
  · rw [checkRange_eq_ok.mpr hin]
    exact ⟨_, if_neg fun haligned => h ⟨hin, haligned⟩⟩
  · rw [checkRange_refuses hin]
    exact ⟨_, rfl⟩

/-- **A step that is not inside is refused as corruption and changes nothing.** -/
theorem apply_of_not_inside (h : ¬ step.Inside r.length) :
    ∃ reason, step.apply r = (.failed (.corrupt reason), r) := by
  cases step with
  | read offset count =>
      have hout : ¬ offset + count ≤ r.length := h
      have hread : r.read offset count = .error (.corrupt (.outsideRegion count offset r.length)) := by
        unfold read
        rw [checkRange_refuses hout]
      exact ⟨_, congrArg (fun a => (regionReply .bytes a, r)) hread⟩
  | write offset data =>
      have hout : ¬ offset + data.length ≤ r.length := h
      have hwrite : r.write offset data
          = .error (.corrupt (.outsideRegion data.length offset r.length)) := by
        unfold write
        rw [checkRange_refuses hout]
      exact ⟨_, congrArg (regionAfter r) hwrite⟩
  | load offset =>
      have hout : ¬ (offset + 4 ≤ r.length ∧ offset % 4 = 0) := h
      obtain ⟨reason, hcursor⟩ := checkCursor_refuses hout
      have hload : r.load offset = .error (.corrupt reason) := by
        unfold load
        rw [hcursor]
      exact ⟨reason, congrArg (fun a => (regionReply .word a, r)) hload⟩
  | store offset value =>
      have hout : ¬ (offset + 4 ≤ r.length ∧ offset % 4 = 0) := h
      obtain ⟨reason, hcursor⟩ := checkCursor_refuses hout
      have hstore : r.store offset value = .error (.corrupt reason) := by
        unfold store
        rw [hcursor]
      exact ⟨reason, congrArg (regionAfter r) hstore⟩
  | snapshot => exact absurd trivial h
  | mailbox =>
      have hout : ¬ 0 + Mailbox.size ≤ r.length := by
        rw [Nat.zero_add]
        exact h
      have hmailbox : r.mailbox
          = .error (.corrupt (.outsideRegion Mailbox.size 0 r.length)) := by
        unfold mailbox read
        rw [checkRange_refuses hout]
      exact ⟨_, congrArg (fun a => (regionReply .mailbox a, r)) hmailbox⟩

/-- A stretch from the start of memory. -/
theorem extract_zero {count : Nat} (h : count ≤ r.length) :
    r.extract 0 count = (List.range count).map r.byte := by
  have hsize := r.length_le_size
  rw [extract_eq_map (by omega)]
  exact List.map_congr_left fun i _ => congrArg r.byte (Nat.zero_add i)

/-- **A step inside is answered by what memory holds.** -/
theorem apply_of_inside (h : step.Inside r.length) :
    step.Answered r.length r.byte (step.apply r).1 := by
  have hsize := r.length_le_size
  cases step with
  | read offset count =>
      have hin : offset + count ≤ r.length := h
      exact congrArg (regionReply .bytes) (read_eq_ok.mpr ⟨hin, extract_eq_map (by omega)⟩)
  | write offset data =>
      exact congrArg (fun a => (regionAfter r a).1) (write_eq_ok.mpr ⟨h, rfl⟩)
  | load offset =>
      obtain ⟨hin, haligned⟩ : offset + 4 ≤ r.length ∧ offset % 4 = 0 := h
      have hin' : offset + 4 ≤ r.bytes.size := by omega
      have hrange : List.range 4 = [0, 1, 2, 3] := rfl
      refine ⟨_, congrArg (regionReply .word) (load_eq_ok.mpr ⟨hin, haligned, rfl⟩), ?_⟩
      rw [Bytes.toNat_wordAt32 (length_extract hin'), extract_eq_map hin', hrange]
      simp only [List.map_cons, List.map_nil, Bytes.toNat, Nat.add_zero]
      omega
  | store offset value =>
      exact congrArg (fun a => (regionAfter r a).1) (store_eq_ok.mpr ⟨h.1, h.2, rfl⟩)
  | snapshot => exact congrArg RegionReply.bytes (extract_zero (Nat.le_refl _))
  | mailbox =>
      have hin : Mailbox.size ≤ r.length := h
      have hmailbox : r.mailbox = .ok r.shown := mailbox_eq_ok.mpr ⟨hin, rfl⟩
      refine ⟨_, congrArg (regionReply .mailbox) hmailbox, ?_⟩
      -- what is decoded is what was read
      rw [← extract_zero hin, ← hmailbox]
      unfold mailbox
      rw [read_eq_ok.mpr ⟨by omega, rfl⟩]

/-- **A step inside puts its data where it starts.** -/
theorem put_of_inside (h : step.Inside r.length) : (step.apply r).2 = r.put step.start step.data := by
  cases step with
  | write offset data =>
      exact congrArg (fun a => (regionAfter r a).2) (write_eq_ok.mpr ⟨h, rfl⟩)
  | store offset value =>
      exact congrArg (fun a => (regionAfter r a).2) (store_eq_ok.mpr ⟨h.1, h.2, rfl⟩)
  | read offset count => rfl
  | load offset => rfl
  | snapshot => rfl
  | mailbox => rfl

theorem byte_apply_of_inside (h : step.Inside r.length) (i : Nat) :
    (step.apply r).2.byte i
      = if step.start ≤ i ∧ i < step.start + step.data.length then step.data.getD (i - step.start) 0
        else r.byte i := by
  rw [put_of_inside h, byte_put_of_fits (Nat.le_trans h.end_le r.length_le_size)]

theorem length_apply (r : Region) (step : RegionStep) : (step.apply r).2.length = r.length := by
  by_cases h : step.Inside r.length
  · rw [put_of_inside h, length_put]
  · obtain ⟨_, hfailed⟩ := apply_of_not_inside h
    rw [hfailed]

/-- **A step changes the bytes that it puts somewhere.** -/
theorem byte_apply (r : Region) (step : RegionStep) (i : Nat) :
    (step.apply r).2.byte i = (step.puts? r.length i).getD (r.byte i) := by
  by_cases h : step.Inside r.length
  · unfold RegionStep.puts?
    rw [byte_apply_of_inside h]
    by_cases hc : step.start ≤ i ∧ i < step.start + step.data.length
    · have hlt : i - step.start < step.data.length := by omega
      rw [if_pos hc, if_pos ⟨h, hc.1⟩, List.getElem?_eq_getElem hlt, List.getD_eq_getElem _ _ hlt,
        Option.getD_some]
    · rw [if_neg hc]
      split
      · rw [List.getElem?_eq_none (by omega), Option.getD_none]
      · rfl
  · obtain ⟨_, hfailed⟩ := apply_of_not_inside h
    unfold RegionStep.puts?
    rw [hfailed, if_neg fun hc => h hc.1, Option.getD_none]

/-! ## A run -/

theorem after_concat (r : Region) (before : List RegionStep) (step : RegionStep) :
    r.after (before ++ [step]) = (step.apply (r.after before)).2 := by
  unfold after
  rw [List.foldl_append]
  rfl

theorem length_after (r : Region) (steps : List RegionStep) : (r.after steps).length = r.length := by
  induction steps using List.reverseRecOn with
  | nil => rfl
  | append_singleton before step ih => rw [after_concat, length_apply, ih]

/-- **Memory is the latest of everything that was done to it.** -/
theorem byte_after (length : Nat) (steps : List RegionStep) (i : Nat) :
    ((zeroed length).after steps).byte i = latest length steps i := by
  induction steps using List.reverseRecOn with
  | nil => exact byte_zeroed length i
  | append_singleton before step ih =>
      rw [after_concat, byte_apply, length_after, length_zeroed, latest_concat, ih]

/-- The reply to a step is that of the memory that the steps before it left. -/
theorem getElem?_runRegion (r : Region) (before : List RegionStep) (step : RegionStep)
    (rest : List RegionStep) :
    (runRegion r (before ++ step :: rest))[before.length]? = some (step.apply (r.after before)).1 := by
  induction before generalizing r with
  | nil => rfl
  | cons first before ih => exact ih (first.apply r).2

end Region

/-! ## As an array of bytes -/

/-- What `step` does to an array of `length` bytes once `before` was done to it: what it held (`bytes`), what it holds
then (`bytes'`), and the reply. -/
structure Performed (length : Nat) (before : List RegionStep) (step : RegionStep)
    (reply : RegionReply) (bytes bytes' : Nat → UInt8) : Prop where
  /-- The steps inside succeed, and no others. -/
  succeeds : (∀ e, reply ≠ .failed e) ↔ step.Inside length
  /-- A failure is corruption, and then no byte changes. -/
  refuses : ∀ e, reply = .failed e → (∃ reason, e = .corrupt reason) ∧ bytes' = bytes
  /-- Otherwise the bytes that are written change, and no others. -/
  changes : step.Inside length → ∀ i, bytes' i =
    if step.start ≤ i ∧ i < step.start + step.data.length then step.data.getD (i - step.start) 0
    else bytes i
  /-- Every byte is the one that was written last. -/
  remembers : bytes = latest length before
  answers : step.Inside length → step.Answered length (latest length before) reply

/-- The replies to `steps`, and the bytes that are held after every beginning of them, are those of an array of
`length` bytes. -/
def ArrayOfBytes (length : Nat) (steps : List RegionStep) (replies : List RegionReply)
    (bytes : List RegionStep → Nat → UInt8) : Prop :=
  ∀ before step rest, steps = before ++ step :: rest →
    ∃ reply, replies[before.length]? = some reply
      ∧ Performed length before step reply (bytes before) (bytes (before ++ [step]))

theorem Scenario.RegionStep.Answered.ne_failed {length : Nat} {content : Nat → UInt8}
    {step : RegionStep} {reply : RegionReply} (h : step.Answered length content reply) (e : Error) :
    reply ≠ .failed e := by
  rintro rfl
  cases step with
  | read offset count => exact RegionReply.noConfusion h
  | write offset data => exact RegionReply.noConfusion h
  | load offset => exact RegionReply.noConfusion h.choose_spec.1
  | store offset value => exact RegionReply.noConfusion h
  | snapshot => exact RegionReply.noConfusion h
  | mailbox => exact RegionReply.noConfusion h.choose_spec.1

namespace Region

variable {r : Region}

theorem performed {length : Nat} {before : List RegionStep} (step : RegionStep)
    (hlength : r.length = length) (hbytes : r.byte = latest length before) :
    Performed length before step (step.apply r).1 r.byte (step.apply r).2.byte := by
  subst hlength
  by_cases h : step.Inside r.length
  · have hanswered := apply_of_inside h
    exact ⟨iff_of_true hanswered.ne_failed h, fun e he => absurd he (hanswered.ne_failed e),
      fun _ => byte_apply_of_inside h, hbytes, fun _ => hbytes ▸ hanswered⟩
  · obtain ⟨reason, hfailed⟩ := apply_of_not_inside h
    rw [hfailed]
    refine ⟨iff_of_false (fun hne => hne _ rfl) h, ?_, fun hin => absurd hin h, hbytes,
      fun hin => absurd hin h⟩
    intro e he
    exact ⟨⟨reason, (RegionReply.failed.inj he).symm⟩, rfl⟩

theorem arrayOfBytes (length : Nat) (steps : List RegionStep) :
    ArrayOfBytes length steps (runRegion (.zeroed length) steps)
      fun before => ((zeroed length).after before).byte := by
  rintro before step rest rfl
  have hlength : ((zeroed length).after before).length = length := by
    rw [length_after, length_zeroed]
  refine ⟨_, getElem?_runRegion _ before step rest, ?_⟩
  dsimp only
  rw [after_concat]
  exact performed step hlength (funext (byte_after length before))

end Region

namespace WordRegion

/--
**A region behaves as an array of exactly as many bytes as it is long**, whatever steps are taken on a new one. A step
succeeds if its range, computed without a bound, ends inside, and if a cursor is aligned; it fails as corruption
otherwise, and then no byte changes. What is written changes, and nothing else. Whatever is read, byte by byte, as a
word with the lowest byte first, or as a whole, is what was written last, and zero where nothing was.

Allocated words, in which sums wrap around and bytes are shifted and masked, are such a region too, and have the same
replies.
-/
theorem array_of_bytes :
    (∀ (length : Nat) (steps : List RegionStep),
      ArrayOfBytes length steps (runRegion (.zeroed length) steps)
        fun before => ((Region.zeroed length).after before).byte)
      ∧ ∀ (length : UInt64) (steps : List RegionStep), (∀ step ∈ steps, step.InWords) →
        runWordRegion (.zeroed length) steps = runRegion (.zeroed length.toNat) steps
          ∧ ArrayOfBytes length.toNat steps (runWordRegion (.zeroed length) steps)
            fun before => ((WordRegion.zeroed length).after before).byte := by
  refine ⟨Region.arrayOfBytes, fun length steps hwords => ?_⟩
  have hstart := Represents.zeroed length
  have hreplies := (hstart.run hwords).1
  refine ⟨hreplies, ?_⟩
  intro before step rest hsteps
  -- the steps so far are steps of the run, and both memories hold the same after them
  have hsame : ∀ {steps'}, steps' <+: steps →
      ((WordRegion.zeroed length).after steps').byte
        = ((Region.zeroed length.toNat).after steps').byte :=
    fun hpart => funext (hstart.run fun s hs => hwords s (hpart.subset hs)).2.byte
  have hbefore : before <+: steps := ⟨step :: rest, hsteps.symm⟩
  have hthen : before ++ [step] <+: steps := ⟨rest, by rw [hsteps, List.append_assoc]; rfl⟩
  rw [hreplies]
  dsimp only
  rw [hsame hbefore, hsame hthen]
  exact Region.arrayOfBytes length.toNat steps before step rest hsteps

/-- Bytes across two words, a cursor over two of them and a byte over the cursor, and in between what is refused: a
range that wraps around, and a cursor that the region ends in. -/
def overlaid : List RegionStep :=
  [.write 7 [1, 2, 3], .store 8 0xdeadbeef, .write 18446744073709551615 [9, 9], .load 12, .write 11 [5],
    .load 8, .snapshot]

/-- Thirteen bytes; the last three of the second word are no part of them. -/
theorem array_of_bytes_overlaid :
    (∀ step ∈ overlaid, step.InWords)
      ∧ (∃ reason, (runWordRegion (.zeroed 13) overlaid)[2]? = some (.failed (.corrupt reason)))
      ∧ (∃ v, (runWordRegion (.zeroed 13) overlaid)[5]? = some (.word v) ∧ v.toNat = 0x05adbeef)
      ∧ (runWordRegion (.zeroed 13) overlaid)[6]?
        = some (.bytes [0, 0, 0, 0, 0, 0, 0, 1, 0xef, 0xbe, 0xad, 5, 0]) := by
  have hwords : ∀ step ∈ overlaid, step.InWords := by
    simp [overlaid, RegionStep.InWords, UInt64.size]
  obtain ⟨_, harray⟩ := array_of_bytes.2 13 overlaid hwords
  refine ⟨hwords, ?_, ?_, ?_⟩
  · obtain ⟨reply, hreply, hdone⟩ := harray (overlaid.take 2) _ (overlaid.drop 3) rfl
    have hout : ¬ ∀ e, reply ≠ .failed e := mt hdone.succeeds.mp (by decide)
    obtain ⟨e, he⟩ := Classical.not_forall.mp hout
    have he := Classical.not_not.mp he
    obtain ⟨⟨reason, rfl⟩, _⟩ := hdone.refuses e he
    exact ⟨reason, he ▸ hreply⟩
  · obtain ⟨reply, hreply, hdone⟩ := harray (overlaid.take 5) _ (overlaid.drop 6) rfl
    obtain ⟨v, rfl, hv⟩ := hdone.answers (by decide)
    exact ⟨v, hreply, hv.trans (by decide)⟩
  · obtain ⟨reply, hreply, hdone⟩ := harray (overlaid.take 6) _ (overlaid.drop 7) rfl
    have hall : reply = .bytes ((List.range 13).map _) := hdone.answers (by decide)
    have hbytes : reply = .bytes [0, 0, 0, 0, 0, 0, 0, 1, 0xef, 0xbe, 0xad, 5, 0] :=
      hall.trans (congrArg RegionReply.bytes (by decide))
    exact hbytes ▸ hreply

end WordRegion

end CommandRing
