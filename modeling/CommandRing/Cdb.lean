import CommandRing.Bytes

/-!
# Command descriptor blocks

The ring carries descriptor blocks as opaque bytes, but the kernel finds the end of one from its
operation code alone. A `CommandBlock` is therefore a byte string whose length is the one that its own
first bytes define.
-/

namespace CommandRing

namespace Cdb

def testUnitReadyOpcode : UInt8 := 0x00

/-- The opcode of a block of variable length, whose byte 7 counts the bytes behind the first
eight. -/
def variableLengthOpcode : UInt8 := 0x7f

/-- The length that a block starting with these bytes has, if its group defines one. Reserved and
vendor specific groups define none, nor does a block of variable length that ends before byte 7. -/
def expectedLength (b : Bytes) : Option Nat :=
  match b with
  | [] => none
  | opcode :: _ =>
    if opcode < 0x20 then some 6
    else if opcode < 0x60 then some 10
    else if opcode = variableLengthOpcode then b[7]?.map fun more => more.toNat + 8
    else if opcode < 0x80 then none
    else if opcode < 0xa0 then some 16
    else if opcode < 0xc0 then some 12
    else none

/-- **A block that defines its length does so whatever follows it.** -/
theorem expectedLength_append {b : Bytes} {n : Nat} (h : expectedLength b = some n) (rest : Bytes) :
    expectedLength (b ++ rest) = some n := by
  cases b with
  | nil => exact absurd h (by simp [expectedLength])
  | cons opcode b =>
    -- only the length of a block of variable length lies behind the opcode
    rcases hmore : (opcode :: b)[7]? with _ | more
    · have hfixed : opcode ≠ variableLengthOpcode := by
        rintro rfl
        unfold expectedLength at h
        dsimp only at h
        rw [hmore] at h
        exact absurd h (by simp [variableLengthOpcode])
      unfold expectedLength at h ⊢
      rw [List.cons_append]
      dsimp only at h ⊢
      rw [if_neg hfixed] at h ⊢
      exact h
    · obtain ⟨hlen, _⟩ := List.getElem?_eq_some_iff.mp hmore
      have hsame : (opcode :: (b ++ rest))[7]? = (opcode :: b)[7]? := by
        rw [← List.cons_append]
        exact List.getElem?_append_left hlen
      unfold expectedLength at h ⊢
      rw [List.cons_append]
      dsimp only at h ⊢
      rw [hsame]
      exact h

end Cdb

/-- A descriptor block that delimits itself. -/
structure CommandBlock where
  bytes : Bytes
  expectedLength_eq : Cdb.expectedLength bytes = some bytes.length

namespace CommandBlock

instance : DecidableEq CommandBlock := fun a b =>
  if h : a.bytes = b.bytes then
    isTrue (by cases a; cases b; simp_all)
  else
    isFalse (fun e => h (by rw [e]))

/-- Accepts bytes whose length is the one that their opcode defines. -/
def ofBytes (b : Bytes) : Except Error CommandBlock :=
  match h : Cdb.expectedLength b with
  | none =>
    .error (.invalidCdb (match b with
      | [] => .empty
      | opcode :: _ => .undefinedLength opcode))
  | some expected =>
    if hlength : b.length = expected then
      .ok ⟨b, by rw [h, hlength]⟩
    else
      .error (.invalidCdb (.wrongLength (b.headD 0) expected b.length))

def length (block : CommandBlock) : Nat := block.bytes.length

/-- The block has no bytes; no block is empty. -/
def isEmpty (block : CommandBlock) : Bool := block.bytes.isEmpty

def opcode (block : CommandBlock) : UInt8 := block.bytes.headD 0

/-- TEST UNIT READY: six bytes, all of them zero. -/
def testUnitReady : CommandBlock := ⟨[Cdb.testUnitReadyOpcode, 0, 0, 0, 0, 0], rfl⟩

end CommandBlock

end CommandRing
