import CommandRing.Region

/-!
# A region made of words

Memory that no device maps is allocated, in 64-bit words, so that it starts on the entry alignment. There are as many
words as the region needs; the bytes behind its end in the last one belong to nobody.

Offsets, counts and lengths are words as well. The end of a range is a sum of two of them and may wrap around; it is
then smaller than what was added, and the range is refused. Within the region bytes are copied one after the other, and
a cursor is loaded and stored as one half of a word, which is all of it because it is aligned.
-/

namespace CommandRing

/-! ## Parts of a word -/

namespace Word

/-- The word whose low `count` bytes are full. -/
def lowBytes (count : Nat) : UInt64 := UInt64.ofNat (Nat.pow 256 count - 1)

/-- The byte at `lane`, counted from the lowest. -/
def byte (w : UInt64) (lane : Nat) : UInt8 := (w >>> UInt64.ofNat (8 * lane)).toUInt8

/-- The four bytes from `lane` on. -/
def half (w : UInt64) (lane : Nat) : UInt32 := (w >>> UInt64.ofNat (8 * lane)).toUInt32

/-- Replaces the `count` bytes from `lane` on by the low bytes of `value`. -/
def splice (lane count : Nat) (value w : UInt64) : UInt64 :=
  let shift := UInt64.ofNat (8 * lane)
  let mask := lowBytes count <<< shift
  w &&& ~~~mask ||| value <<< shift &&& mask

end Word

/-! ## Memory -/

namespace Words

/-- The byte at `offset`, and zero outside the memory. -/
def byte (memory : Array UInt64) (offset : Nat) : UInt8 :=
  Word.byte (memory.getD (offset / 8) 0) (offset % 8)

/-- Puts the low `count` bytes of `value` into the word at `offset`. -/
def set (memory : Array UInt64) (offset count : Nat) (value : UInt64) : Array UInt64 :=
  memory.modify (offset / 8) (Word.splice (offset % 8) count value)

/-- Copies `count` bytes out of the memory. -/
def copyOut (memory : Array UInt64) (offset count : Nat) : Bytes :=
  (List.range count).map fun i => byte memory (offset + i)

/-- Copies `data` into the memory. -/
def copyIn (memory : Array UInt64) (offset : Nat) : Bytes → Array UInt64
  | [] => memory
  | b :: rest => copyIn (set memory offset 1 b.toUInt64) (offset + 1) rest

@[simp] theorem size_set (memory : Array UInt64) (offset count : Nat) (value : UInt64) :
    (set memory offset count value).size = memory.size := Array.size_modify

@[simp] theorem size_copyIn (memory : Array UInt64) (offset : Nat) (data : Bytes) :
    (copyIn memory offset data).size = memory.size := by
  induction data generalizing memory offset with
  | nil => rfl
  | cons b rest ih => rw [copyIn, ih, size_set]

/-- How many words `length` bytes need. -/
def countFor (length : UInt64) : UInt64 :=
  if length % 8 = 0 then length / 8 else length / 8 + 1

theorem le_countFor (length : UInt64) : length.toNat ≤ 8 * (countFor length).toNat := by
  have hlt := length.toNat_lt
  have hdiv : (length / 8).toNat = length.toNat / 8 := UInt64.toNat_div ..
  have hmod : (length % 8).toNat = length.toNat % 8 := UInt64.toNat_mod ..
  unfold countFor
  split
  · rename_i h
    rw [h] at hmod
    simp only [UInt64.reduceToNat] at hmod
    omega
  · have hsum : (length / 8 + 1).toNat = length.toNat / 8 + 1 := by
      rw [UInt64.toNat_add, hdiv]
      exact Nat.mod_eq_of_lt (by simp only [UInt64.reduceToNat]; omega)
    omega

end Words

/-- Allocated memory, of which the first `length` bytes are the region. -/
structure WordRegion where
  words : Array UInt64
  length : UInt64
  covered : length.toNat ≤ 8 * words.size
deriving DecidableEq

namespace WordRegion

/-- A region of `length` zero bytes. -/
def zeroed (length : UInt64) : WordRegion where
  words := Array.replicate (Words.countFor length).toNat 0
  length := length
  covered := by
    rw [Array.size_replicate]
    exact Words.le_countFor length

def byte (r : WordRegion) (offset : Nat) : UInt8 := Words.byte r.words offset

/-! ## Ranges -/

/-- Where a range ends, unless that is no word. -/
def rangeEnd? (offset count : UInt64) : Option UInt64 :=
  if offset + count < offset then none else some (offset + count)

/-- Refuses a range that leaves the first `length` bytes. -/
def checkRange (length offset count : UInt64) : Except Error Unit :=
  if (rangeEnd? offset count).any (· ≤ length) then
    .ok ()
  else
    .error (.corrupt (.outsideRegion count.toNat offset.toNat length.toNat))

/-- Refuses what is no cursor among the first `length` bytes. -/
def checkCursor (length offset : UInt64) : Except Error Unit :=
  match checkRange length offset 4 with
  | .error e => .error e
  | .ok () =>
    if offset % 4 = 0 then .ok () else .error (.corrupt (.unalignedCursor offset.toNat))

/-! ## Accesses -/

def read (r : WordRegion) (offset count : UInt64) : Except Error Bytes :=
  match checkRange r.length offset count with
  | .error e => .error e
  | .ok () => .ok (Words.copyOut r.words offset.toNat count.toNat)

def write (r : WordRegion) (offset : UInt64) (data : Bytes) : Except Error WordRegion :=
  match checkRange r.length offset (UInt64.ofNat data.length) with
  | .error e => .error e
  | .ok () =>
    .ok { r with
      words := Words.copyIn r.words offset.toNat data
      covered := by
        rw [Words.size_copyIn]
        exact r.covered }

def load (r : WordRegion) (offset : UInt64) : Except Error UInt32 :=
  match checkCursor r.length offset with
  | .error e => .error e
  | .ok () => .ok (Word.half (r.words.getD (offset.toNat / 8) 0) (offset.toNat % 8))

def store (r : WordRegion) (offset : UInt64) (value : UInt32) : Except Error WordRegion :=
  match checkCursor r.length offset with
  | .error e => .error e
  | .ok () =>
    .ok { r with
      words := Words.set r.words offset.toNat 4 value.toUInt64
      covered := by
        rw [Words.size_set]
        exact r.covered }

/-- All bytes of the region. They can always be read; a buffer of zeros would be left otherwise. -/
def snapshot (r : WordRegion) : Bytes :=
  match r.read 0 r.length with
  | .ok b => b
  | .error _ => Bytes.zeros r.length.toNat

def mailbox (r : WordRegion) : Except Error Mailbox :=
  match r.read 0 (UInt64.ofNat Mailbox.size) with
  | .error e => .error e
  | .ok raw => Mailbox.decode raw

end WordRegion

end CommandRing
