import CommandRing.Kernel
import CommandRing.Proofs.Driver.Invariant

/-!
# What the two sides write into a slot

The driver writes a request and the kernel writes a response over it. All that a driver ever learns from a
slot is whether it holds a request (`Waits`) or which response it holds (`Answers`), so this is all that
has to be known about the bytes.
-/

namespace CommandRing

/-- A slot with a request that is not answered yet. -/
def Waits (raw : Bytes) : Prop := (Header.ofBytes raw).isAnswered = false

/-- A slot with the response `r`. -/
structure Answers (layout : Layout) (raw : Bytes) (r : Response) : Prop where
  flagged : (Header.ofBytes raw).isAnswered = true
  command : (Header.ofBytes raw).opcode = .command
  decoded : Response.decode layout raw = .ok r

/-- **A driver writes requests.** -/
theorem Waits.slotFor {d : Driver} {id : CommandId} {command : Command} {slot : Bytes}
    (hg : d.geometry.Valid d.layout) (hs : command.segments.count ≤ d.layout.maxSegments)
    (h : d.slotFor id command = .ok slot) : Waits slot := by
  rw [Driver.slotFor_eq_ok hg hs] at h
  injection h with h
  subst h
  have hsize : Header.size ≤ d.layout.cdbOffset :=
    Nat.le_trans (by decide) d.layout.requestBase_le_cdbOffset
  have himage : ∃ rest, (d.requestFor id command).image d.layout
      = (d.requestFor id command).header.image ++ rest := by
    unfold Request.image
    simp only [List.append_assoc]
    exact ⟨_, rfl⟩
  obtain ⟨rest, himage⟩ := himage
  unfold Waits Bytes.place
  -- the descriptor block lies behind the header
  rw [himage, List.append_assoc, List.append_assoc, ← Header.ofBytes_take (Nat.le_refl _),
    List.take_append_of_le_length, List.take_take, Nat.min_eq_left hsize, Header.ofBytes_take
      (Nat.le_refl _), Header.ofBytes_image]
  · rfl
  · rw [List.length_take, List.length_append, Header.length_image]
    omega

/-- **A kernel writes responses.** -/
theorem Kernel.fill_eq_ok (k : Kernel) (id : CommandId) (status : UInt8) (sense : Bytes) :
    ∃ slot, k.fill id { status := status, sense := sense } = .ok slot
      ∧ slot.length = k.layout.slotSize
      ∧ Answers k.layout slot (Response.answering k.layout id status sense) := by
  have hlen := Response.length_image k.layout (Response.answering k.layout id status sense)
  have hsize := k.layout.le_slotSize.2
  refine ⟨(Response.answering k.layout id status sense).image k.layout
    ++ (Bytes.zeros k.layout.slotSize).drop
      ((Response.answering k.layout id status sense).image k.layout).length, ?_, ?_, ?_⟩
  · show Bytes.overwrite _ ((Response.answering k.layout id status sense).image k.layout) = _
    unfold Bytes.overwrite
    rw [if_neg (by rw [Bytes.length_zeros]; omega)]
  · rw [List.length_append, List.length_drop, Bytes.length_zeros]
    omega
  -- the flag and the opcode are part of the header that decoding brings back
  · have hdecode := Response.decode_image k.layout (Response.answering k.layout id status sense)
      ((Bytes.zeros k.layout.slotSize).drop
        ((Response.answering k.layout id status sense).image k.layout).length)
    rw [Response.normal_answering] at hdecode
    have hheader := Response.header_of_decode hdecode
    exact ⟨by rw [← hheader]; rfl, by rw [← hheader]; rfl, hdecode⟩

end CommandRing
