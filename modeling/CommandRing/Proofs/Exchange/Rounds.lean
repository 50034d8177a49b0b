import CommandRing.Proofs.Exchange.Delivery

/-!
# One command at a time

A ring can be used for one command after the other: each is answered, and its answer is taken, before the next is
published. Nothing is left over after such a `round`, so there can always be another one, and a round leaves
exactly three replies: an id, an announcement, and the answer to that id.
-/

namespace CommandRing

/-- No step of a kernel changes how its slots are laid out. -/
theorem Kernel.layout_complete (k : Kernel) (memory : Region) (id : CommandId) (a : Answer) :
    (k.complete memory id a).2.1.layout = k.layout := by
  unfold complete
  cases k.fill id a with
  | error e => rfl
  | ok slot =>
      unfold answer
      dsimp only
      cases k.overwrite memory slot with
      | error e => rfl
      | ok written =>
          unfold advance
          dsimp only
          split <;> rfl

namespace Exchange

/-- A command, and how the kernel answers it. -/
structure Job where
  command : Command
  status : UInt8 := 0
  sense : Bytes := []

/-- A slot can hold the command. -/
def Job.Fits (layout : Layout) (job : Job) : Prop :=
  job.command.segments.count ≤ layout.maxSegments ∧ job.command.cdb.length ≤ layout.cdbSize

/-- Publishes a command. If it got an id, the kernel answers it, and the answer is polled and taken. -/
def round (e : Exchange) (job : Job) : Exchange :=
  match (e.session.call e.memory (.submit job.command)).1 with
  | .submitted id =>
    (((e.call (.submit job.command)).answer id job.status job.sense).call .poll).call .next
  | _ => e.call (.submit job.command)

/-- Whatever was published is answered, and the answer is yielded. -/
structure Settled (e : Exchange) : Prop where
  reachable : Reachable e
  all_yielded : e.published.length = e.yielded.length

variable {e : Exchange}

theorem replies_call (e : Exchange) (c : Call) :
    (e.call c).replies = e.replies ++ [(e.session.call e.memory c).1] := rfl

theorem layout_answer (e : Exchange) (id : CommandId) (status : UInt8) (sense : Bytes) :
    (e.answer id status sense).kernel.layout = e.kernel.layout := by
  have hlayout := e.kernel.layout_complete e.memory id { status := status, sense := sense }
  unfold answer
  split <;> rename_i hcomplete <;> rw [hcomplete] at hlayout <;> exact hlayout

/-- An answer is no reply of the driver. -/
theorem replies_answer (e : Exchange) (id : CommandId) (status : UInt8) (sense : Bytes) :
    (e.answer id status sense).replies = e.replies := by
  unfold answer
  split <;> rfl

theorem session_answer (e : Exchange) (id : CommandId) (status : UInt8) (sense : Bytes) :
    (e.answer id status sense).session = e.session := by
  unfold answer
  split <;> rfl

/-- **A driver that shares its memory with a kernel only is in use like any other.** -/
theorem run_of_reachable (h : Reachable e) : Session.Run e.replies e.session := by
  induction h with
  | attached h =>
      obtain ⟨d, hd, rfl⟩ := attach_eq_ok h
      exact .attached hd
  | called c _ ih => exact .called _ c ih
  | answered id status sense _ _ ih =>
      rw [replies_answer, session_answer]
      exact ih

/-- An answer that is awaited is written. -/
theorem length_answer (h : Reachable e) {id : CommandId} (hawaits : e.Awaits id) (status : UInt8)
    (sense : Bytes) :
    (e.answer id status sense).answers.length = e.answers.length + 1 := by
  obtain ⟨start, ha, hpassed⟩ := agrees_of_reachable h
  obtain ⟨hanswers, _⟩ := ha.write hawaits hpassed status sense
  obtain ⟨_, hanswer⟩ := ha.answer hawaits hpassed status sense
  rw [hanswer]
  show (e.write id status sense).answers.length = _
  rw [hanswers, List.length_append, List.length_singleton]

/-- With every answer passed, the driver can see all of them. -/
theorem seen_eq (h : e.passed = e.answers.length) : e.seen = e.answers.length := by
  unfold seen
  rw [h, ite_self]

/-- An attached ring is settled, as nothing has happened on it. -/
theorem Settled.attached {layout : Layout} {memory : Region} (h : attach layout memory = .ok e) :
    e.Settled ∧ e.kernel.layout = layout ∧ e.replies = [] := by
  have hreached := Reachable.attached h
  obtain ⟨d, _, rfl⟩ := attach_eq_ok h
  exact ⟨⟨hreached, rfl⟩, rfl, rfl⟩

/-- **A settled exchange takes a command that fits.** -/
theorem Settled.submit (h : e.Settled) {job : Job} (hfits : job.Fits e.kernel.layout) :
    ∃ id, (e.session.call e.memory (.submit job.command)).1 = .submitted id := by
  obtain ⟨start, ha, _⟩ := agrees_of_reachable h.reachable
  have hlayout : e.kernel.layout = e.session.driver.layout := by rw [ha.kernel]
  have hpos := e.session.driver.geometry.slotCount.toNat_pos
  have hall := h.all_yielded
  rw [hlayout] at hfits
  have hsubmit := ha.submit_fitting hfits.1 hfits.2
  rw [if_neg (by omega)] at hsubmit
  exact hsubmit

/-- The id that was just published is awaited. -/
theorem awaits_submitted (h : Reachable e) {c : Call} {id : CommandId}
    (hid : (e.session.call e.memory c).1 = .submitted id) : (e.call c).Awaits id := by
  obtain ⟨start, ha, _⟩ := agrees_of_reachable h
  have hcount := ha.answers_subperm.count_le id
  have hpublished : (e.call c).published = e.published ++ [id] := by
    unfold published
    rw [replies_call, hid]
    exact Session.submittedIds_snoc _ _
  unfold Awaits
  rw [hpublished, List.count_append, List.count_singleton_self]
  exact Nat.lt_succ_of_le hcount

/-- In a settled exchange everything is answered. -/
theorem Settled.length_answers (h : e.Settled) : e.answers.length = e.yielded.length := by
  obtain ⟨_, ha, _⟩ := agrees_of_reachable h.reachable
  have hyielded := ha.yielded_le
  have hanswers := ha.answers_le
  have hall := h.all_yielded
  omega

/-- **One answer that was not yielded is announced, and it is the next item.** -/
theorem yields_one (h : Reachable e) (hone : e.answers.length = e.yielded.length + 1) :
    ∃ r, ((e.call .poll).call .next).replies = e.replies ++ [.announced 1, .yielded r] := by
  obtain ⟨_, ha, hpassed⟩ := agrees_of_reachable h
  have hcount : e.seen - e.yielded.length = 1 := by
    rw [seen_eq hpassed, hone, Nat.add_sub_cancel_left]
  obtain ⟨hpoll, _⟩ := ha.poll (not_torn hpassed)
  rw [hcount] at hpoll
  have hcall := Session.call_poll hpoll
  have hdrain : (e.call .poll).session.drain.remaining = 1 := by
    rw [Agrees.call_eq hcall]
  obtain ⟨_, hpolled, _⟩ := agrees_of_reachable (.called .poll h)
  rcases hpolled.next with ⟨hnone, _⟩ | ⟨r, _, _, hnext, _⟩
  · omega
  · refine ⟨r, ?_⟩
    rw [replies_call, Session.call_next hnext, replies_call, hcall, List.append_assoc]
    rfl

/-- **A round of a settled exchange leaves an id and the answer to it, and the exchange settled.** -/
theorem Settled.round (h : e.Settled) {job : Job} (hfits : job.Fits e.kernel.layout) :
    (e.round job).Settled ∧ (e.round job).kernel.layout = e.kernel.layout
      ∧ ∃ id r, (e.round job).replies = e.replies ++ [.submitted id, .announced 1, .yielded r] := by
  obtain ⟨id, hid⟩ := h.submit hfits
  have hround : e.round job
      = (((e.call (.submit job.command)).answer id job.status job.sense).call .poll).call .next := by
    unfold Exchange.round
    rw [hid]
  have hpublished := Reachable.called (.submit job.command) h.reachable
  have hawaits := awaits_submitted h.reachable hid
  have hanswered := Reachable.answered id job.status job.sense hpublished hawaits
  have hreplies : ((e.call (.submit job.command)).answer id job.status job.sense).replies
      = e.replies ++ [.submitted id] := by
    rw [replies_answer, replies_call, hid]
  -- of the answers only the one to this command was not yielded
  have hone : ((e.call (.submit job.command)).answer id job.status job.sense).answers.length
      = ((e.call (.submit job.command)).answer id job.status job.sense).yielded.length + 1 := by
    have hyielded : Session.yielded (e.replies ++ [.submitted id]) = e.yielded :=
      Session.yielded_snoc_of_nil rfl _
    rw [length_answer hpublished hawaits]
    unfold yielded
    rw [hreplies, hyielded, ← h.length_answers]
    rfl
  obtain ⟨r, hyields⟩ := yields_one hanswered hone
  have hfinal : (e.round job).replies
      = e.replies ++ [.submitted id, .announced 1, .yielded r] := by
    rw [hround, hyields, hreplies, List.append_assoc]
    rfl
  refine ⟨⟨?_, ?_⟩, ?_, id, r, hfinal⟩
  · rw [hround]
    exact .called .next (.called .poll hanswered)
  · have hall := h.all_yielded
    unfold published yielded Session.submittedIds Session.yielded at hall ⊢
    rw [hfinal, List.filterMap_append, List.filterMap_append, List.length_append, List.length_append,
      hall]
    rfl
  · rw [hround]
    exact (e.call (.submit job.command)).layout_answer id job.status job.sense

end Exchange

end CommandRing
