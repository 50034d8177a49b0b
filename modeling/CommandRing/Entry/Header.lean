import CommandRing.Bytes

/-!
# The header of a ring entry

Every slot starts with eight bytes: a word that packs the entry's length and its opcode, the command
id, and a byte of flags for each side. Lengths are multiples of eight, so the opcode takes the low
three bits of the word.
-/

namespace CommandRing

/-- What an entry asks for. -/
inductive Opcode where
  /-- Filler that a reader skips. -/
  | pad
  | command
  /-- A value this driver does not know, of which only the low three bits are stored. -/
  | other (bits : UInt8)
deriving DecidableEq

namespace Opcode

def code : Opcode → Nat
  | pad => 0
  | command => 1
  | other bits => bits.toNat % 8

def ofCode (code : Nat) : Opcode :=
  match code % 8 with
  | 0 => pad
  | 1 => command
  | n => other (UInt8.ofNat n)

theorem code_lt (op : Opcode) : op.code < 8 := by
  cases op <;> simp [code]
  omega

end Opcode

/-- The eight bytes at the start of a slot. -/
structure Header where
  /-- Bytes of the whole entry, a multiple of eight. -/
  length : UInt32
  opcode : Opcode
  id : CommandId
  /-- Flags of the kernel. -/
  kernelFlags : UInt8
  /-- Flags of the driver. -/
  userFlags : UInt8
deriving DecidableEq

namespace Header

def size : Nat := 8

/-- The kernel flag of a slot that holds a response. -/
def responseFlag : UInt8 := 1

/-- The kernel has written a response into the slot. -/
def isAnswered (h : Header) : Bool := h.kernelFlags % 2 == 1

/-- The responder did not recognise the opcode. -/
def isUnknownOpcode (h : Header) : Bool := h.userFlags % 2 == 1

/-- Length and opcode in one word: the length gives up its low three bits. -/
def packedLength (h : Header) : UInt32 :=
  UInt32.ofNat (h.length.toNat / 8 * 8 + h.opcode.code)

def image (h : Header) : Bytes :=
  Bytes.ofUInt32 h.packedLength ++ Bytes.ofUInt16 h.id ++ [h.kernelFlags, h.userFlags]

@[simp] theorem length_image (h : Header) : h.image.length = size := by
  simp [image, size]

def encode (h : Header) (buffer : Bytes) : Except Error Bytes :=
  buffer.overwrite h.image

/-- The header that the first eight bytes spell. -/
def ofBytes (buffer : Bytes) : Header :=
  let word := (buffer.wordAt32 0).toNat
  { length := UInt32.ofNat (word / 8 * 8)
    opcode := Opcode.ofCode word
    id := buffer.wordAt16 4
    kernelFlags := buffer.byteAt 6
    userFlags := buffer.byteAt 7 }

def decode (buffer : Bytes) : Except Error Header :=
  if buffer.length < size then
    .error (.bufferTooShort size buffer.length)
  else
    .ok (ofBytes buffer)

end Header

end CommandRing
