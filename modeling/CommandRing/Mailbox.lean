import CommandRing.Bytes

/-!
# The mailbox

The first 68 bytes of the mapping describe the ring and hold its two cursors: the kernel's head at
offset 12, and the driver's tail at offset 64, on a cache line of its own. The bytes between them are
reserved; they are written as zero and never read.
-/

namespace CommandRing

/-- The header at the start of the mapping. -/
structure Mailbox where
  version : UInt16 := 0
  flags : UInt16 := 0
  ringOffset : UInt32 := 0
  ringSize : UInt32 := 0
  /-- Ring offset up to which the kernel has answered. -/
  head : UInt32 := 0
  /-- Ring offset up to which the driver has published. -/
  tail : UInt32 := 0
deriving DecidableEq

namespace Mailbox

def size : Nat := 68

def headOffset : Nat := 12

def tailOffset : Nat := 64

/-- The version this driver speaks. -/
def currentVersion : UInt16 := 2

/-- The flag of a kernel that accepts completions out of submission order. -/
def outOfOrderFlag : UInt16 := 1

/-- The kernel accepts completions out of submission order. -/
def supportsOutOfOrder (m : Mailbox) : Bool := m.flags % 2 == 1

def image (m : Mailbox) : Bytes :=
  Bytes.ofUInt16 m.version ++ Bytes.ofUInt16 m.flags ++ Bytes.ofUInt32 m.ringOffset ++
    Bytes.ofUInt32 m.ringSize ++ Bytes.ofUInt32 m.head ++ Bytes.zeros 48 ++ Bytes.ofUInt32 m.tail

@[simp] theorem length_image (m : Mailbox) : m.image.length = size := by
  simp [image, size]

def encode (m : Mailbox) (buffer : Bytes) : Except Error Bytes :=
  buffer.overwrite m.image

def decode (buffer : Bytes) : Except Error Mailbox :=
  if buffer.length < size then
    .error (.bufferTooShort size buffer.length)
  else
    .ok {
      version := buffer.wordAt16 0
      flags := buffer.wordAt16 2
      ringOffset := buffer.wordAt32 4
      ringSize := buffer.wordAt32 8
      head := buffer.wordAt32 headOffset
      tail := buffer.wordAt32 tailOffset
    }

end Mailbox

end CommandRing
