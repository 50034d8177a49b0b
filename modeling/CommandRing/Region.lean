import CommandRing.Bytes
import CommandRing.Mailbox

/-!
# The shared region

The memory that driver and kernel share is an array of bytes. Who accesses it checks the range first,
in natural numbers, so no offset however large wraps around; an access that leaves the region is a
corruption and changes nothing. Cursors are words at offsets divisible by four.

A region may be granted in part: accesses then end at the `limit`, and the bytes behind it are kept.

Accesses follow one another here, and each sees all that were made before it. What keeps them in this order while
the two sides run at the same time is not described, nor how a device's memory is mapped and given back.
-/

namespace CommandRing

/-- Shared memory, of which the first `limit` bytes may be accessed. -/
structure Region where
  bytes : Array UInt8
  limit : Nat
deriving DecidableEq

namespace Region

/-- A region of `length` zero bytes. -/
def zeroed (length : Nat) : Region := ⟨Array.replicate length 0, length⟩

/-- How many bytes may be accessed. -/
def length (r : Region) : Nat := min r.limit r.bytes.size

def isEmpty (r : Region) : Bool := r.length == 0

/-- The same memory, of which at most the first `limit` bytes may be accessed. -/
def grant (r : Region) (limit : Nat) : Region := { r with limit := limit }

def whole (r : Region) : Region := r.grant r.bytes.size

/-- The byte at `offset`, and zero outside the memory. -/
def byte (r : Region) (offset : Nat) : UInt8 := r.bytes.getD offset 0

/-! ## Ranges -/

/-- Refuses a range that leaves the first `length` bytes. -/
def checkRange (length offset count : Nat) : Except Error Unit :=
  if offset + count ≤ length then
    .ok ()
  else
    .error (.corrupt (.outsideRegion count offset length))

/-- Refuses what is no cursor among the first `length` bytes. -/
def checkCursor (length offset : Nat) : Except Error Unit :=
  match checkRange length offset 4 with
  | .error e => .error e
  | .ok () =>
    if offset % 4 = 0 then .ok () else .error (.corrupt (.unalignedCursor offset))

/-! ## Bytes and words, unchecked -/

/-- The `count` bytes from `offset` on, whether accessible or not. -/
def extract (r : Region) (offset count : Nat) : Bytes :=
  (r.bytes.extract offset (offset + count)).toList

/-- Puts `data` into the memory from `offset` on. -/
def setFrom (memory : Array UInt8) (offset : Nat) : Bytes → Array UInt8
  | [] => memory
  | b :: rest => setFrom (memory.setIfInBounds offset b) (offset + 1) rest

/-- Puts `data` into the region from `offset` on, whether accessible or not. -/
def put (r : Region) (offset : Nat) (data : Bytes) : Region :=
  { r with bytes := setFrom r.bytes offset data }

@[simp] theorem size_setFrom (memory : Array UInt8) (offset : Nat) (data : Bytes) :
    (setFrom memory offset data).size = memory.size := by
  induction data generalizing memory offset with
  | nil => rfl
  | cons b rest ih => simp [setFrom, ih]

/-- **A write changes exactly the bytes it covers.** -/
theorem getD_setFrom (memory : Array UInt8) (offset : Nat) (data : Bytes) (i : Nat) :
    (setFrom memory offset data).getD i 0 =
      if offset ≤ i ∧ i < offset + data.length ∧ i < memory.size then
        data.getD (i - offset) 0
      else
        memory.getD i 0 := by
  induction data generalizing memory offset with
  | nil =>
    have h : ¬ (offset ≤ i ∧ i < offset + ([] : Bytes).length ∧ i < memory.size) := by
      simp only [List.length_nil]
      omega
    rw [if_neg h, setFrom]
  | cons b rest ih =>
    rw [setFrom, ih]
    simp only [Array.size_setIfInBounds, List.length_cons]
    by_cases hi : i = offset
    · subst hi
      have hlate : ¬ (i + 1 ≤ i ∧ i < i + 1 + rest.length ∧ i < memory.size) := by omega
      rw [if_neg hlate]
      by_cases hsize : i < memory.size <;>
        simp [Array.getD_eq_getD_getElem?, hsize]
    · by_cases hin : offset + 1 ≤ i ∧ i < offset + 1 + rest.length ∧ i < memory.size
      · have hout : offset ≤ i ∧ i < offset + (rest.length + 1) ∧ i < memory.size := by omega
        have hsub : i - offset = (i - (offset + 1)) + 1 := by omega
        rw [if_pos hin, if_pos hout, hsub, List.getD_cons_succ]
      · have hout : ¬ (offset ≤ i ∧ i < offset + (rest.length + 1) ∧ i < memory.size) := by omega
        have hne : offset ≠ i := fun h => hi h.symm
        rw [if_neg hin, if_neg hout]
        simp [Array.getD_eq_getD_getElem?, hne]

@[simp] theorem length_put (r : Region) (offset : Nat) (data : Bytes) :
    (r.put offset data).length = r.length := by
  simp [length, put]

/-- The view of a write, byte by byte. -/
theorem byte_put (r : Region) (offset : Nat) (data : Bytes) (i : Nat) :
    (r.put offset data).byte i =
      if offset ≤ i ∧ i < offset + data.length ∧ i < r.bytes.size then
        data.getD (i - offset) 0
      else
        r.byte i :=
  getD_setFrom r.bytes offset data i

/-! ## Accesses of the holder -/

def read (r : Region) (offset count : Nat) : Except Error Bytes :=
  match checkRange r.length offset count with
  | .error e => .error e
  | .ok () => .ok (r.extract offset count)

def write (r : Region) (offset : Nat) (data : Bytes) : Except Error Region :=
  match checkRange r.length offset data.length with
  | .error e => .error e
  | .ok () => .ok (r.put offset data)

def load (r : Region) (offset : Nat) : Except Error UInt32 :=
  match checkCursor r.length offset with
  | .error e => .error e
  | .ok () => .ok ((r.extract offset 4).wordAt32 0)

def store (r : Region) (offset : Nat) (value : UInt32) : Except Error Region :=
  match checkCursor r.length offset with
  | .error e => .error e
  | .ok () => .ok (r.put offset (Bytes.ofUInt32 value))

theorem checkRange_eq_ok {length offset count : Nat} :
    checkRange length offset count = .ok () ↔ offset + count ≤ length := by
  unfold checkRange
  split <;> simp_all

theorem checkCursor_eq_ok {length offset : Nat} :
    checkCursor length offset = .ok () ↔ offset + 4 ≤ length ∧ offset % 4 = 0 := by
  unfold checkCursor checkRange
  by_cases h : offset + 4 ≤ length <;> by_cases h4 : offset % 4 = 0 <;> simp [h, h4]

theorem read_eq_ok {r : Region} {offset count : Nat} {b : Bytes} :
    r.read offset count = .ok b ↔ offset + count ≤ r.length ∧ r.extract offset count = b := by
  unfold read checkRange
  by_cases h : offset + count ≤ r.length <;> simp [h]

theorem write_eq_ok {r s : Region} {offset : Nat} {data : Bytes} :
    r.write offset data = .ok s ↔ offset + data.length ≤ r.length ∧ r.put offset data = s := by
  unfold write checkRange
  by_cases h : offset + data.length ≤ r.length <;> simp [h]

def snapshot (r : Region) : Bytes := r.extract 0 r.length

def mailbox (r : Region) : Except Error Mailbox :=
  match r.read 0 Mailbox.size with
  | .error e => .error e
  | .ok raw => Mailbox.decode raw

end Region

end CommandRing
