import CommandRing.Error

/-!
# Byte strings and little-endian words

Everything that driver and kernel share is bytes, the low byte of a word first. A word of `width`
bytes is read and written by one pair of functions over `Nat`, and the fixed widths are cases of
it. The two laws are `toNat_ofNat`, which says that writing keeps a number modulo `256 ^ width`, and
`ofNat_toNat`, which says that reading loses nothing.

A structure is written by laying its image over the front of a buffer (`overwrite`): the image
depends on the structure alone, and the bytes behind it stay as they were.
-/

namespace CommandRing

abbrev Bytes := List UInt8

namespace Bytes

/-! ## Words -/

/-- The `width` low bytes of `n`, the lowest first. -/
def ofNat : (width n : Nat) → Bytes
  | 0, _ => []
  | width + 1, n => UInt8.ofNat n :: ofNat width (n / 256)

/-- The number a byte string spells, the lowest byte first. -/
def toNat : Bytes → Nat
  | [] => 0
  | b :: rest => b.toNat + 256 * toNat rest

@[simp] theorem length_ofNat (width n : Nat) : (ofNat width n).length = width := by
  induction width generalizing n with
  | zero => rfl
  | succ width ih => simp [ofNat, ih]

/-- **Writing keeps a number modulo the width.** -/
theorem toNat_ofNat (width n : Nat) : toNat (ofNat width n) = n % Nat.pow 256 width := by
  induction width generalizing n with
  | zero => simp [ofNat, toNat, Nat.mod_one]
  | succ width ih =>
    have hlow : (UInt8.ofNat n).toNat = n % 256 := UInt8.toNat_ofNat'
    simp only [ofNat, toNat, ih, hlow]
    rw [show Nat.pow 256 (width + 1) = Nat.pow 256 width * 256 from rfl,
      Nat.mul_comm (Nat.pow 256 width) 256, Nat.mod_mul]

theorem toNat_lt (b : Bytes) : b.toNat < Nat.pow 256 b.length := by
  induction b with
  | nil => simp [toNat]
  | cons x rest ih =>
    have hx := x.toNat_lt
    have hpow : Nat.pow 256 (rest.length + 1) = Nat.pow 256 rest.length * 256 := rfl
    simp only [toNat, List.length_cons]
    omega

/-- **Reading loses nothing.** -/
theorem ofNat_toNat (b : Bytes) : ofNat b.length b.toNat = b := by
  induction b with
  | nil => rfl
  | cons x rest ih =>
    have hx := x.toNat_lt
    have hlow : (x.toNat + 256 * toNat rest) / 256 = toNat rest := by omega
    have hbyte : UInt8.ofNat (x.toNat + 256 * toNat rest) = x := by
      apply UInt8.toNat_inj.mp
      simp only [UInt8.toNat_ofNat']
      omega
    simp only [toNat, List.length_cons, ofNat, hlow, hbyte, ih]

def ofUInt16 (v : UInt16) : Bytes := ofNat 2 v.toNat

def ofUInt32 (v : UInt32) : Bytes := ofNat 4 v.toNat

def ofUInt64 (v : UInt64) : Bytes := ofNat 8 v.toNat

@[simp] theorem length_ofUInt16 (v : UInt16) : (ofUInt16 v).length = 2 := length_ofNat ..

@[simp] theorem length_ofUInt32 (v : UInt32) : (ofUInt32 v).length = 4 := length_ofNat ..

@[simp] theorem length_ofUInt64 (v : UInt64) : (ofUInt64 v).length = 8 := length_ofNat ..

/-! ## Fields -/

/-- The `count` bytes from `offset` on, or as many of them as there are. -/
def slice (b : Bytes) (offset count : Nat) : Bytes :=
  (b.drop offset).take count

def byteAt (b : Bytes) (offset : Nat) : UInt8 := b.getD offset 0

def wordAt16 (b : Bytes) (offset : Nat) : UInt16 := UInt16.ofNat (toNat (b.slice offset 2))

def wordAt32 (b : Bytes) (offset : Nat) : UInt32 := UInt32.ofNat (toNat (b.slice offset 4))

def wordAt64 (b : Bytes) (offset : Nat) : UInt64 := UInt64.ofNat (toNat (b.slice offset 8))

/-! ## Images -/

def zeros (count : Nat) : Bytes := List.replicate count 0

/-- The first `count` bytes, filled up with zeros. -/
def fit (count : Nat) (b : Bytes) : Bytes :=
  b.take count ++ zeros (count - b.length)

@[simp] theorem length_zeros (count : Nat) : (zeros count).length = count := by simp [zeros]

@[simp] theorem length_fit (count : Nat) (b : Bytes) : (fit count b).length = count := by
  simp [fit]
  omega

/-- Lays `image` over the front of `buffer`, which has to be long enough. -/
def overwrite (buffer image : Bytes) : Except Error Bytes :=
  if buffer.length < image.length then
    .error (.bufferTooShort image.length buffer.length)
  else
    .ok (image ++ buffer.drop image.length)

/-- Puts `data` over the bytes of `buffer` from `offset` on. -/
def place (buffer : Bytes) (offset : Nat) (data : Bytes) : Bytes :=
  buffer.take offset ++ data ++ buffer.drop (offset + data.length)

end Bytes

end CommandRing
