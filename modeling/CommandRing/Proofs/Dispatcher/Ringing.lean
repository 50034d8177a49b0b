import CommandRing.Proofs.Dispatcher.FanOut
import CommandRing.Proofs.Dispatcher.Frame
import CommandRing.Proofs.Driver.Submitting

/-!
# A command is registered, and the line is rung once

A submit has four things to do: the driver takes a slot and an id, somebody becomes pending, and the line is rung.
It does all of them or none, because the driver is asked first, and nothing that comes then can fail. A line that
fails is not asked for its answer.

What is added is new everywhere. The id was not in flight, so nobody was pending under it, and the ticket is the
number of the submit. `Registered` says what a submit adds. Nothing else rings the line, so it is rung as often as
handles are given out.
-/

namespace CommandRing

/-- The line after a submit that ended like this. -/
def Doorbell.afterSubmit (b : Doorbell) : Except Error Handle → Doorbell
  | .ok _ => b.ring.2
  | .error _ => b

namespace Dispatcher

variable {given : List Handle} {d d' : Dispatcher} {memory memory' : Region} {command : Command}

/-! ## The line has no say -/

/-- **A submit on any other line does the same**, and only what it did to the line tells them apart. -/
theorem submit_line (d : Dispatcher) (memory : Region) (command : Command) (b : Doorbell) :
    { d with bell := b }.submit memory command
      = ((d.submit memory command).1,
        { (d.submit memory command).2.1 with bell := b.afterSubmit (d.submit memory command).1 },
        (d.submit memory command).2.2) := by
  unfold submit
  dsimp only
  rcases d.driver.submit memory command with ⟨e | id, driver, memory'⟩
  · dsimp only [Doorbell.afterSubmit]
    unfold failAll
    split <;> rfl
  · rfl

theorem bell_submit (d : Dispatcher) (memory : Region) (command : Command) :
    (d.submit memory command).2.1.bell = d.bell.afterSubmit (d.submit memory command).1 :=
  congrArg (fun r => r.2.1.bell) (d.submit_line memory command d.bell)

/-- **An act rings once for each handle that it gives out.** -/
theorem kicks_act (d : Dispatcher) (memory : Region) (a : Act) :
    (d.act memory a).2.1.bell.kicks = d.bell.kicks + (d.act memory a).1.given.length := by
  by_cases hsubmit : ∃ command, a = .submit command
  · obtain ⟨command, rfl⟩ := hsubmit
    rw [dispatcher_submit, bell_submit]
    unfold act
    dsimp only
    rcases d.submit memory command with ⟨e | x, d', memory'⟩ <;> rfl
  by_cases hpump : a = .pump
  · subst hpump
    obtain ⟨_, _, hr⟩ := pump_eq d memory
    rw [dispatcher_pump, given_pump, hr]
    rfl
  · obtain ⟨hgiven, _, _, _, hr⟩ := d.act_quiet memory (fun c hc => hsubmit ⟨c, hc⟩) hpump
    rw [hgiven, hr]
    rfl

namespace Ringing

/-- Over a run: every handle that was given out was rung for once, by induction on the run. -/
theorem kicks_eq (h : Ringing d given d') : d'.bell.kicks = d.bell.kicks + given.length := by
  induction h with
  | refl => rfl
  | acted memory a _ ih => rw [kicks_act, ih, List.length_append, Nat.add_assoc]
  | signalled bell hkicks _ ih => exact hkicks.trans ih

/-- The loop is one of those who do not ring: it pumps and waits. -/
theorem looped (h : Ringing d given d') (memory : Region) (phase : LoopPhase) :
    Ringing d given (step memory (phase, d')).2 := by
  cases phase with
  | pumping =>
      have hpumped := h.acted memory .pump
      rw [given_pump, List.append_nil, dispatcher_pump] at hpumped
      rw [step_pumping]
      exact hpumped
  | waiting => exact h.signalled d'.bell.wait.2 d'.bell.kicks_wait
  | returned e => exact h

theorem acts (h : Ringing d given d') : ∃ drained, Acts d given drained d' := by
  induction h with
  | refl => exact ⟨[], .refl⟩
  | acted memory a _ ih =>
      obtain ⟨drained, hacts⟩ := ih
      exact ⟨_, hacts.acted memory a⟩
  | signalled bell _ _ ih =>
      obtain ⟨drained, hacts⟩ := ih
      exact ⟨drained, hacts.signalled bell⟩

theorem issued (hd : Issued [] d) (h : Ringing d given d') : Issued given d' := by
  induction h with
  | refl => exact hd
  | acted memory a _ ih => exact ih.acted memory a
  | signalled bell _ _ ih => exact ih.signalled bell

end Ringing

/-! ## What a submit adds -/

/-- A submit made `d'` of `d` and gave out `x`, after those of `given`. -/
structure Registered (given : List Handle) (d : Dispatcher) (x : Handle) (d' : Dispatcher) : Prop where
  /-- There is one more entry, and it replaces none. -/
  pending : d'.pending = x :: d.pending
  unused : x.id ∉ d.pending.map Handle.id
  ticket : ∀ y ∈ given, y.ticket ≠ x.ticket
  /-- The same as words, as long as there are enough of them. -/
  word : given.length < UInt64.size → ∀ y ∈ given, UInt64.ofNat y.ticket ≠ UInt64.ofNat x.ticket
  inFlight : d'.driver.inFlight = x.id :: d.driver.inFlight
  free : x.id ∉ d.driver.inFlight
  slot : d'.driver.cursor.occupied.toNat = d.driver.cursor.occupied.toNat + 1
  rung : d'.bell = d.bell.ring.2

/-- **A submit that succeeds does everything**, and what it adds is new. -/
theorem Booked.registered (hb : d.Booked) (ht : Ticketed given d) {x : Handle}
    (hr : d.submit memory command = (.ok x, d', memory')) : Registered given d x d' := by
  have hsound' : d'.Sound := by
    have hs := hb.sound.submit memory command
    rwa [hr] at hs
  rcases submit_cases hb.sound.driver memory command with
    ⟨e, _, hcase⟩ | ⟨id, reason, hcase⟩ | ⟨id, slot, _, _, hfree, _, _, hcase⟩
  · rw [hr] at hcase
    exact absurd (congrArg Prod.fst hcase) (by simp)
  · rw [hr] at hcase
    exact absurd (congrArg Prod.fst hcase) (by simp)
  · rw [hr] at hcase
    injection hcase with hx hcase
    injection hx with hx
    injection hcase with hd _
    subst hx hd
    -- whoever is pending is in flight, so nobody is pending under a free id
    have hunused : id ∉ d.pending.map Handle.id := by
      intro hid
      obtain ⟨y, hy, rfl⟩ := List.mem_map.mp hid
      exact hfree (hb.inFlight y hy)
    have hlt : ∀ y ∈ given, y.ticket < d.nextTicket := fun y => ht.ticket_lt
    exact {
      pending := congrArg _ (withoutId_of_unused hunused)
      unused := hunused
      ticket := fun y hy => Nat.ne_of_lt (hlt y hy)
      word := by
        intro hcount y hy hsame
        rw [ht.length_eq] at hcount
        exact Nat.ne_of_lt (hlt y hy) (eq_of_word_eq (Nat.lt_trans (hlt y hy) hcount) hcount hsame)
      inFlight := rfl
      free := hfree
      slot := by
        rw [hsound'.driver.toNat_occupied, hb.sound.driver.toNat_occupied]
        rfl
      rung := rfl }

/-- **A submit that fails does nothing**, unless it finds the memory corrupt. -/
theorem Sound.submit_nothing (hs : d.Sound) {e : Error}
    (hr : d.submit memory command = (.error e, d', memory')) :
    memory' = memory ∧ d'.bell = d.bell ∧ ((∀ reason, e ≠ .corrupt reason) → d' = d) := by
  refine ⟨?_, ?_, ?_⟩
  · unfold Dispatcher.submit at hr
    rcases hsubmit : d.driver.submit memory command with ⟨e' | id, driver, memory₁⟩
    · rw [hsubmit] at hr
      injection hr with _ hr
      injection hr with _ hm
      rw [← hm]
      exact (hs.driver.submit_error hsubmit).1
    · rw [hsubmit] at hr
      exact absurd (congrArg Prod.fst hr) (by simp)
  · have hbell := d.bell_submit memory command
    rwa [hr] at hbell
  · intro he
    refine submit_refused hs hr ?_
    rw [← Bool.not_eq_true, Error.isFatal_iff, not_exists]
    exact he

/--
**A command is registered and the line rung once, or nothing happens.** After any acts, each on any memory, and
whatever the line does, a submit that succeeds adds one entry, under an id that nobody was pending under and that
was not in flight, with a ticket that no earlier handle has. The driver has that id more in flight and one slot
more in use, and the line was rung once. A submit that fails rings nobody and writes nothing, and if it did not
find the memory corrupt, the dispatcher and its driver are what they were. On another line, be it one that fails,
a submit does the same. So the line was rung as often as submits have succeeded.
-/
theorem registered_and_rung_once {layout : Layout} {memory₀ memory₁ : Region} {driver : Driver}
    (bell : Doorbell) (hattach : Driver.attach layout memory₀ = (.ok driver, memory₁))
    (h : Ringing (new driver bell) given d) :
    d.bell.kicks = bell.kicks + given.length
      ∧ ∀ memory command result d' memory', d.submit memory command = (result, d', memory') →
        (∀ x, result = .ok x → Registered given d x d')
          ∧ (∀ e, result = .error e → memory' = memory ∧ d'.bell = d.bell
            ∧ ((∀ reason, e ≠ .corrupt reason) → d' = d))
          ∧ ∀ b, { d with bell := b }.submit memory command
            = (result, { d' with bell := b.afterSubmit result }, memory') := by
  obtain ⟨_, hacts⟩ := h.acts
  have hb := hacts.booked (booked_new bell hattach)
  have ht := (h.issued (.new bell hattach)).ticketed
  refine ⟨h.kicks_eq, ?_⟩
  intro memory command result d' memory' hr
  refine ⟨?_, ?_, ?_⟩
  · rintro x rfl
    exact hb.registered ht hr
  · rintro e rfl
    exact hb.sound.submit_nothing hr
  · intro b
    rw [submit_line, hr]

/-! ## A run on a line that fails -/

def failingBell : Doorbell := { wiring := .ringFails }

/-- A dispatcher on the smallest ring, with one command pending. -/
def rungInVain : Dispatcher :=
  ((new Session.smallDriver failingBell).act Session.smallRing (.submit Command.testUnitReady)).2.1

/-- The loop pumped and waited, and then the deadline of that command passed. -/
def orphaned : Dispatcher :=
  let pumped := (step Session.smallRing (.pumping, rungInVain)).2
  ((step Session.smallRing (.waiting, pumped)).2.act Session.smallRing (.expire ⟨1, 0⟩)).2.1

/-- The next command takes the other slot. -/
def rungTwice : Dispatcher := (orphaned.act Session.smallRing (.submit Command.testUnitReady)).2.1

set_option maxRecDepth 10000 in
theorem ringing_orphaned : Ringing (new Session.smallDriver failingBell) [⟨1, 0⟩] orphaned := by
  have hgiven : ((new Session.smallDriver failingBell).act Session.smallRing
      (.submit Command.testUnitReady)).1.given = [⟨1, 0⟩] := by decide
  have hsubmitted := (Ringing.refl (d := new Session.smallDriver failingBell)).acted
    Session.smallRing (.submit Command.testUnitReady)
  rw [hgiven, List.nil_append] at hsubmitted
  exact ((hsubmitted.looped Session.smallRing .pumping).looped Session.smallRing .waiting).acted
    Session.smallRing (.expire ⟨1, 0⟩)

set_option maxRecDepth 10000 in
/-- The line failed both times and was rung both times. The second command has an entry of its own while the first
one is still in flight, and a third one finds the ring full and changes nothing. -/
theorem registered_beside_orphan :
    orphaned.bell.kicks = 1 ∧ orphaned.pending = [] ∧ orphaned.driver.inFlight = [1]
      ∧ Registered [⟨1, 0⟩] orphaned ⟨2, 1⟩ rungTwice ∧ rungTwice.bell.kicks = 2
      ∧ (rungTwice.submit Session.smallRing Command.testUnitReady).1 = .error (.ringFull 2)
      ∧ (rungTwice.submit Session.smallRing Command.testUnitReady).2.1 = rungTwice := by
  have hattach := Session.attach_smallRing.2
  have hfound : orphaned.pending = [] ∧ orphaned.driver.inFlight = [1]
      ∧ (orphaned.submit Session.smallRing Command.testUnitReady).1 = .ok ⟨2, 1⟩
      ∧ (rungTwice.submit Session.smallRing Command.testUnitReady).1 = .error (.ringFull 2) := by
    decide
  have hnext : Ringing (new Session.smallDriver failingBell) _ rungTwice :=
    ringing_orphaned.acted Session.smallRing (.submit Command.testUnitReady)
  obtain ⟨hpending, hinFlight, hok, hfull⟩ := hfound
  obtain ⟨hkicks, hsubmit⟩ := registered_and_rung_once failingBell hattach ringing_orphaned
  obtain ⟨_, hsubmit'⟩ := registered_and_rung_once failingBell hattach hnext
  have hregistered : Registered [⟨1, 0⟩] orphaned ⟨2, 1⟩ rungTwice := by
    unfold rungTwice
    rw [dispatcher_submit]
    rcases hr : orphaned.submit Session.smallRing Command.testUnitReady with ⟨result, d', memory'⟩
    rw [hr] at hok
    exact (hsubmit _ _ _ _ _ hr).1 _ hok
  have hsame : (rungTwice.submit Session.smallRing Command.testUnitReady).2.1 = rungTwice := by
    rcases hr : rungTwice.submit Session.smallRing Command.testUnitReady with ⟨result, d', memory'⟩
    rw [hr] at hfull
    exact ((hsubmit' _ _ _ _ _ hr).2.1 _ hfull).2.2 fun reason => Error.noConfusion
  have hkicks' : rungTwice.bell.kicks = 2 := by
    rw [hregistered.rung, Doorbell.kicks_ring, hkicks]
    rfl
  exact ⟨hkicks, hpending, hinFlight, hregistered, hkicks', hfull, hsame⟩

end Dispatcher

end CommandRing
