import CommandRing.Proofs.Driver.Drain
import CommandRing.Proofs.Driver.Session

/-!
# A driver that stopped trusting the memory

A submit, a poll and a drain record the corruption that they come across, and report it. The first one on
record is final: from then on the driver refuses its work with that reason, and its calls leave no trace,
neither in the driver nor in the memory.

A reset comes across corruptions as well, because it reads both cursors of the mailbox, but it only reports
them. So a driver whose reset found the mailbox corrupt is as good as before.
-/

namespace CommandRing

namespace Driver

variable {d : Driver} {reason : Corruption}

theorem checkPoison_poisoned (h : d.poison = some reason) :
    d.checkPoison = .error (.corrupt reason) := by
  unfold checkPoison
  rw [h]

/-- A driver that trusts the memory stops doing so with the first corruption. -/
theorem poison_poisonedBy_iff (h : d.poison = none) {e : Error} :
    (d.poisonedBy e).poison = some reason ↔ e = .corrupt reason := by
  cases e with
  | corrupt found =>
      unfold poisonedBy
      dsimp only
      rw [h, Option.none_or, Option.some.injEq, Error.corrupt.injEq]
  | _ =>
      unfold poisonedBy
      dsimp only
      rw [h]
      simp

/-! ## What a poisoned driver does -/

/-- The error of a submit on a poisoned driver: a command that no slot can hold is refused for that. -/
def refusal (layout : Layout) (reason : Corruption) (command : Command) : Error :=
  if layout.maxSegments < command.segments.count then
    .tooManySegments command.segments.count layout.maxSegments
  else if layout.cdbSize < command.cdb.length then
    .cdbTooLong command.cdb.length layout.cdbSize
  else
    .corrupt reason

theorem submit_poisoned (h : d.poison = some reason) (memory : Region) (command : Command) :
    d.submit memory command = (.error (refusal d.layout reason command), d, memory) := by
  have hcheck : d.checkCommand command = .error (refusal d.layout reason command) := by
    unfold checkCommand refusal
    rw [checkPoison_poisoned h]
    dsimp only
    split
    · rfl
    · split <;> rfl
  unfold submit
  rw [hcheck]

theorem poll_poisoned (h : d.poison = some reason) (memory : Region) :
    d.poll memory = (.error (.corrupt reason), d) := by
  unfold poll
  rw [checkPoison_poisoned h]

theorem reset_poisoned (h : d.poison = some reason) (memory : Region) :
    d.reset memory = (.error (.corrupt reason), d, memory) := by
  unfold reset
  rw [checkPoison_poisoned h]

end Driver

namespace Session

variable {s : Session} {reason : Corruption}

/-- What the calls on a poisoned driver answer. -/
def refused (layout : Layout) (reason : Corruption) : Call → Reply
  | .submit command => .failed (Driver.refusal layout reason command)
  | .poll | .reset => .failed (.corrupt reason)
  | .next => .ended

/-- A reply with a corruption names the reason on record. -/
theorem eq_of_refused {layout : Layout} {c : Call} {other : Corruption}
    (h : refused layout reason c = .failed (.corrupt other)) : reason = other := by
  cases c with
  | submit command =>
      unfold refused Driver.refusal at h
      injection h with h
      split at h
      · exact absurd h (by simp)
      · split at h
        · exact absurd h (by simp)
        · injection h
  | poll | reset =>
      injection h with h
      injection h
  | next => exact Reply.noConfusion h

/-- A drain that has nothing more to give. -/
def Exhausted (drain : Drain) : Prop := drain.remaining = 0 ∨ drain.failed = true

/-- **A call on a poisoned driver is refused, and leaves no trace.** -/
theorem call_poisoned (hp : s.driver.poison = some reason) (hd : Exhausted s.drain)
    (memory : Region) (c : Call) :
    (s.call memory c).1 = refused s.driver.layout reason c
      ∧ (s.call memory c).2.1.driver = s.driver ∧ Exhausted (s.call memory c).2.1.drain
      ∧ (s.call memory c).2.2 = memory := by
  cases c with
  | submit command =>
      unfold call
      dsimp only
      rw [Driver.submit_poisoned hp]
      exact ⟨rfl, rfl, Or.inl rfl, rfl⟩
  | poll =>
      unfold call
      dsimp only
      rw [Driver.poll_poisoned hp]
      exact ⟨rfl, rfl, Or.inl rfl, rfl⟩
  | next =>
      unfold call
      dsimp only
      rw [Driver.next_ended hd]
      exact ⟨rfl, rfl, hd, rfl⟩
  | reset =>
      unfold call
      dsimp only
      rw [Driver.reset_poisoned hp]
      exact ⟨rfl, rfl, Or.inl rfl, rfl⟩

/-- **A poisoned driver has no drain that could go on**: the error that poisoned it ended the drain. -/
theorem exhausted_of_poisoned {replies : List Reply} (h : Run replies s)
    (hp : s.driver.poison ≠ none) : Exhausted s.drain := by
  induction h with
  | attached _ => exact Or.inl rfl
  | @called replies s memory c hrun ih =>
      cases hs : s.driver.poison with
      | some before => exact (call_poisoned hs (ih (by rw [hs]; simp)) memory c).2.2.1
      -- the driver was poisoned by this very call
      | none =>
          cases c with
          | submit command =>
              unfold call
              dsimp only
              split <;> exact Or.inl rfl
          | poll =>
              unfold call at hp ⊢
              dsimp only at hp ⊢
              rcases s.driver.poll_cases memory with ⟨drain, _, hr⟩ | ⟨e, hr⟩
              · rw [hr] at hp
                exact absurd hs hp
              · rw [hr]
                exact Or.inl rfl
          | next =>
              unfold call at hp ⊢
              dsimp only at hp ⊢
              rcases (invariant_run hrun).sound.next_cases memory s.drain with
                ⟨_, hr⟩ | ⟨r, _, _, _, _, hr⟩ | ⟨e, _, _, _, hr⟩
              · rw [hr] at hp
                exact absurd hs hp
              · rw [hr] at hp
                exact absurd hs hp
              · rw [hr]
                exact Or.inr rfl
          | reset =>
              unfold call
              dsimp only
              split <;> exact Or.inl rfl

/-- **Nothing comes back from a poisoned driver.** -/
theorem later_poisoned {s' : Session} (hp : s.driver.poison = some reason)
    (hd : Exhausted s.drain) (hl : Later s s') :
    s'.driver = s.driver ∧ Exhausted s'.drain := by
  induction hl with
  | refl => exact ⟨rfl, hd⟩
  | @called s' memory c _ ih =>
      obtain ⟨hdriver, hdrain⟩ := ih
      rw [← hdriver] at hp
      obtain ⟨_, hsame, hdrain', _⟩ := call_poisoned hp hdrain memory c
      exact ⟨hsame.trans hdriver, hdrain'⟩

/-! ## What poisons a driver -/

/-- **A call on a driver that trusts the memory poisons it exactly with the corruption it reports**, unless
the call is a reset. -/
theorem poison_call_iff (h : s.driver.Sound) (hp : s.driver.poison = none) (memory : Region) {c : Call}
    (hc : c ≠ .reset) :
    (s.call memory c).2.1.driver.poison = some reason
      ↔ (s.call memory c).1 = .failed (.corrupt reason) := by
  cases c with
  | submit command =>
      unfold call
      dsimp only
      rcases h.submit_cases memory command with
        ⟨e, hcheck, hr⟩ | ⟨id, _, _, hr⟩ | ⟨id, slot, _, _, _, _, _, hr⟩
      -- a refusal of such a driver is no corruption
      · rw [hr]
        dsimp only [idle]
        rw [hp]
        refine ⟨fun he => absurd he (by simp), fun he => ?_⟩
        injection he with he
        subst he
        exact absurd hcheck (Driver.checkCommand_ne_corrupt hp)
      · rw [hr]
        dsimp only [idle]
        rw [Option.some.injEq, Reply.failed.injEq, Error.corrupt.injEq]
      · rw [hr]
        have hsame : (s.driver.submitted id).poison = none := hp
        dsimp only [idle]
        rw [hsame]
        exact ⟨fun he => absurd he (by simp), Reply.noConfusion⟩
  | poll =>
      unfold call
      dsimp only
      rcases s.driver.poll_cases memory with ⟨drain, _, hr⟩ | ⟨e, hr⟩
      · rw [hr]
        dsimp only
        rw [hp]
        exact ⟨fun he => absurd he (by simp), Reply.noConfusion⟩
      · rw [hr]
        dsimp only [idle]
        rw [Driver.poison_poisonedBy_iff hp, Reply.failed.injEq]
  | next =>
      unfold call
      dsimp only
      rcases h.next_cases memory s.drain with ⟨_, hr⟩ | ⟨r, _, _, _, _, hr⟩ | ⟨e, _, _, _, hr⟩
      · rw [hr]
        dsimp only
        rw [hp]
        exact ⟨fun he => absurd he (by simp), Reply.noConfusion⟩
      · rw [hr]
        have hsame : (s.driver.consumed r.id).poison = none := hp
        dsimp only
        rw [hsame]
        exact ⟨fun he => absurd he (by simp), Reply.noConfusion⟩
      · rw [hr]
        dsimp only
        rw [Driver.poison_poisonedBy_iff hp, Reply.failed.injEq]
  | reset => exact absurd rfl hc

/-- A reset that fails leaves the driver as it is. -/
theorem reset_failed (h : s.driver.Sound) {memory : Region} {e : Error}
    (hr : (s.call memory .reset).1 = .failed e) :
    (s.call memory .reset).2.1.driver = s.driver := by
  unfold call at hr ⊢
  dsimp only at hr ⊢
  rcases h.reset_cases memory with ⟨e', hreset⟩ | ⟨i, _, _, _, hreset⟩
  · rw [hreset]
    rfl
  · rw [hreset] at hr
    exact Reply.noConfusion hr

/-- **The reason on record is the one that was reported first**, by a call on a driver that still trusted the
memory. -/
theorem reported_first {replies : List Reply} (h : Run replies s)
    (hp : s.driver.poison = some reason) :
    ∃ earlier s₀ memory c, Run earlier s₀ ∧ s₀.driver.poison = none
      ∧ (s₀.call memory c).1 = .failed (.corrupt reason)
      ∧ Later (s₀.call memory c).2.1 s := by
  induction h with
  | attached h =>
      obtain ⟨_, _, _, _, _, _, rfl⟩ := Driver.attach_eq_ok h
      exact absurd hp (by simp [idle, Driver.restarted, Driver.fresh])
  | @called replies s memory c hrun ih =>
      have hsound := (invariant_run hrun).sound
      cases hs : s.driver.poison with
      | some before =>
          have hsame := (call_poisoned hs (exhausted_of_poisoned hrun (by rw [hs]; simp)) memory c).2.1
          rw [hsame] at hp
          obtain ⟨earlier, s₀, memory₀, c₀, hrun₀, htrust, hreported, hlater⟩ := ih hp
          exact ⟨earlier, s₀, memory₀, c₀, hrun₀, htrust, hreported, .called memory c hlater⟩
      | none =>
          by_cases hc : c = .reset
          -- no reset poisons a driver, whether it succeeds or not
          · subst hc
            rcases hsound.reset_cases memory with ⟨e, hr⟩ | ⟨i, _, _, _, hr⟩
            · unfold call at hp
              dsimp only at hp
              rw [hr] at hp
              dsimp only [idle] at hp
              rw [hs] at hp
              exact absurd hp (by simp)
            · unfold call at hp
              dsimp only at hp
              rw [hr] at hp
              have hsame : (s.driver.restarted i).poison = none := hs
              dsimp only [idle] at hp
              rw [hsame] at hp
              exact absurd hp (by simp)
          · exact ⟨replies, s, memory, c, hrun, hs, (poison_call_iff hsound hs memory hc).mp hp, .refl⟩

/--
**A corruption that is reported is on record, unless a reset reports it first.** A call that reports a
corruption leaves a driver that is poisoned with this reason, and no later submit, poll or reset succeeds,
whatever becomes of the memory. The exception is a reset of a driver that trusts the memory: it leaves the
driver as it was, so nothing is on record, and whatever succeeds without the reset still does.
-/
theorem recorded_unless_reset {replies : List Reply} (h : Run replies s) {memory : Region} {c : Call}
    (hr : (s.call memory c).1 = .failed (.corrupt reason)) :
    (¬ (c = .reset ∧ s.driver.poison = none) →
        (s.call memory c).2.1.driver.poison = some reason
          ∧ ∀ s', Later (s.call memory c).2.1 s' → ∀ memory' c', c' ≠ .next →
            ∃ e, (s'.call memory' c').1 = .failed e)
      ∧ (c = .reset ∧ s.driver.poison = none → (s.call memory c).2.1.driver = s.driver) := by
  have hsound := (invariant_run h).sound
  refine ⟨fun hrecorded => ?_, ?_⟩
  · have hpoison : (s.call memory c).2.1.driver.poison = some reason := by
      cases hs : s.driver.poison with
      | some before =>
          -- the reason it refuses with is the one it has
          obtain ⟨hrefused, hsame, _⟩ :=
            call_poisoned hs (exhausted_of_poisoned h (by rw [hs]; simp)) memory c
          rw [hsame, hs, eq_of_refused (hrefused.symm.trans hr)]
      | none => exact (poison_call_iff hsound hs memory fun hc => hrecorded ⟨hc, hs⟩).mpr hr
    have hexhausted := exhausted_of_poisoned (.called memory c h) (by rw [hpoison]; simp)
    refine ⟨hpoison, fun s' hl memory' c' hc' => ?_⟩
    obtain ⟨hdriver, hdrain⟩ := later_poisoned hpoison hexhausted hl
    rw [← hdriver] at hpoison
    obtain ⟨hrefused, _⟩ := call_poisoned hpoison hdrain memory' c'
    rw [hrefused]
    cases c' with
    | next => exact absurd rfl hc'
    | _ => exact ⟨_, rfl⟩
  · rintro ⟨rfl, _⟩
    exact reset_failed hsound hr

/-- A driver that published a command, and then finds the whole memory gone. -/
def stranded : Session := ((idle smallDriver).call smallRing (.submit Command.testUnitReady)).2.1

def gone : Region := ⟨#[], 0⟩

theorem run_stranded : ∃ replies, Run replies stranded :=
  ⟨_, .called smallRing (.submit Command.testUnitReady) (.attached attach_smallRing.2)⟩

set_option maxRecDepth 10000 in
theorem poll_stranded :
    (stranded.call gone .poll).1 = .failed (.corrupt (.outsideRegion 4 Mailbox.headOffset 0))
      ∧ stranded.driver.poison = none := by
  decide

/-- Its poll is the end of it: on the memory as it was, a reset fails. -/
theorem recorded_stranded :
    (∃ replies, Run replies stranded)
      ∧ (stranded.call gone .poll).1 = .failed (.corrupt (.outsideRegion 4 Mailbox.headOffset 0))
      ∧ (stranded.call gone .poll).2.1.driver.poison
        = some (.outsideRegion 4 Mailbox.headOffset 0)
      ∧ ∃ e, ((stranded.call gone .poll).2.1.call smallRing .reset).1 = .failed e := by
  obtain ⟨replies, hrun⟩ := run_stranded
  obtain ⟨hrecorded, _⟩ := recorded_unless_reset hrun poll_stranded.1
  obtain ⟨hpoison, hrefused⟩ := hrecorded fun hc => Call.noConfusion hc.1
  exact ⟨⟨replies, hrun⟩, poll_stranded.1, hpoison,
    hrefused _ .refl smallRing .reset Call.noConfusion⟩

/-- The smallest ring, with a head that is no slot boundary. -/
def strayRing : Region := smallRing.put Mailbox.headOffset (Bytes.ofUInt32 3)

set_option maxRecDepth 10000 in
/-- A reset reports the stray head, and the next one succeeds. -/
theorem reset_forgets_corruption :
    ¬ ∀ replies s, Run replies s → ∀ memory c reason,
      (s.call memory c).1 = .failed (.corrupt reason) →
      (s.call memory c).2.1.driver.poison ≠ none
        ∨ ∀ memory', ((s.call memory c).2.1.call memory' .reset).1 ≠ .restarted := by
  intro h
  have hstray : ((idle smallDriver).call strayRing .reset).1 = .failed (.corrupt (.strayCursor 3 112))
      ∧ ((idle smallDriver).call strayRing .reset).2.1.driver.poison = none
      ∧ (((idle smallDriver).call strayRing .reset).2.1.call smallRing .reset).1 = .restarted := by
    decide
  rcases h [] _ (.attached attach_smallRing.2) strayRing .reset _ hstray.1 with hpoison | hnever
  · exact hpoison hstray.2.1
  · exact hnever smallRing hstray.2.2

/--
**Poison is for good.** A driver that is poisoned keeps the reason that was reported first. It refuses every
later submit, poll and reset with that reason, except that a command that no slot can hold is refused for
that, and a drain has no item any more. Whatever the memory is by then, no call changes it, or the driver.
-/
theorem poisoned_for_good {replies : List Reply} {s' : Session} (h : Run replies s)
    (hp : s.driver.poison = some reason) (hl : Later s s') :
    (∃ earlier s₀ memory c, Run earlier s₀ ∧ s₀.driver.poison = none
        ∧ (s₀.call memory c).1 = .failed (.corrupt reason) ∧ Later (s₀.call memory c).2.1 s)
      ∧ s'.driver = s.driver
      ∧ ∀ memory c, (s'.call memory c).1 = refused s.driver.layout reason c
        ∧ (s'.call memory c).2.1.driver = s.driver ∧ (s'.call memory c).2.2 = memory := by
  obtain ⟨hdriver, hdrain⟩ :=
    later_poisoned hp (exhausted_of_poisoned h (by rw [hp]; simp)) hl
  refine ⟨reported_first h hp, hdriver, fun memory c => ?_⟩
  rw [← hdriver] at hp ⊢
  obtain ⟨hrefused, hsame, _, hmemory⟩ := call_poisoned hp hdrain memory c
  exact ⟨hrefused, hsame, hmemory⟩

set_option maxRecDepth 10000 in
/-- The memory is back, but the driver that missed it does not come back. -/
theorem refused_stranded :
    (∃ replies, Run replies (stranded.call gone .poll).2.1)
      ∧ (stranded.call gone .poll).2.1.driver.poison
        = some (.outsideRegion 4 Mailbox.headOffset 0)
      ∧ ((stranded.call gone .poll).2.1.call smallRing (.submit Command.testUnitReady)).1
        = .failed (.corrupt (.outsideRegion 4 Mailbox.headOffset 0))
      ∧ ((stranded.call gone .poll).2.1.call smallRing (.submit Command.testUnitReady)).2.2
        = smallRing := by
  obtain ⟨replies, hrun⟩ := run_stranded
  have hafter := Run.called gone .poll hrun
  have hpoison := (poison_call_iff (invariant_run hrun).sound poll_stranded.2 gone
    Call.noConfusion).mpr poll_stranded.1
  obtain ⟨_, _, hcalls⟩ := poisoned_for_good hafter hpoison .refl
  obtain ⟨hrefused, _, hmemory⟩ := hcalls smallRing (.submit Command.testUnitReady)
  have hfits : refused (stranded.call gone .poll).2.1.driver.layout
      (.outsideRegion 4 Mailbox.headOffset 0) (.submit Command.testUnitReady)
      = .failed (.corrupt (.outsideRegion 4 Mailbox.headOffset 0)) := by
    decide
  exact ⟨⟨_, hafter⟩, hpoison, hrefused.trans hfits, hmemory⟩

end Session

end CommandRing
