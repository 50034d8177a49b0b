import CommandRing.Cdb
import CommandRing.Entry
import CommandRing.Region

/-!
# The kernel's side

The kernel answers in completion order: it writes each answer over the oldest unanswered slot, moves
its head one slot on around the ring, and publishes it. It read the mailbox once, when the ring was set
up, and keeps a head of its own; what is written into the mailbox later does not move it. It reaches
the whole memory, however little of it the driver is granted.
-/

namespace CommandRing

/-- The answering side of a ring. -/
structure Kernel where
  layout : Layout
  offset : Nat
  slots : Nat
  /-- The oldest unanswered slot. -/
  head : Nat
deriving DecidableEq

/-- What a response says beyond the command it answers. -/
structure Answer where
  status : UInt8 := 0
  sense : Bytes := []
  kernelFlags : UInt8 := Header.responseFlag
  userFlags : UInt8 := 0
  opcode : Opcode := .command
  /-- The length to put into the header, if it is not the slot size. -/
  length : Option UInt32 := none
deriving DecidableEq

namespace Kernel

/-- The kernel of the ring that a mailbox describes. -/
def ofMailbox (layout : Layout) (m : Mailbox) : Kernel where
  layout := layout
  offset := m.ringOffset.toNat
  slots := m.ringSize.toNat / layout.slotSize
  head := m.head.toNat / layout.slotSize

/-- Where a slot starts in the mapping. -/
def slotOffset (k : Kernel) (index : Nat) : Nat := k.offset + index * k.layout.slotSize

/-- Writes anywhere in the memory, however little of it is granted. -/
def write (memory : Region) (offset : Nat) (data : Bytes) : Except Error Region :=
  match Region.checkRange memory.bytes.size offset data.length with
  | .error e => .error e
  | .ok () => .ok (memory.put offset data)

/-- Writes a cursor anywhere in the memory. -/
def store (memory : Region) (offset : Nat) (value : UInt32) : Except Error Region :=
  match Region.checkCursor memory.bytes.size offset with
  | .error e => .error e
  | .ok () => .ok (memory.put offset (Bytes.ofUInt32 value))

/-- The kernel with its head on the next slot. -/
def movedOn (k : Kernel) : Kernel := { k with head := (k.head + 1) % k.slots }

/-- The head as the mailbox shows it. -/
def publishedHead (k : Kernel) : UInt32 := UInt32.ofNat (k.head * k.layout.slotSize)

/-- Writes an answer over the slot at the head, which stays where it is. -/
def overwrite (k : Kernel) (memory : Region) (answer : Bytes) : Except Error Region :=
  write memory (k.slotOffset k.head) answer

/-- Moves the head on and publishes it. -/
def advance (k : Kernel) (memory : Region) : Except Error Unit × Kernel × Region :=
  match store memory Mailbox.headOffset k.movedOn.publishedHead with
  | .error e => (.error e, k.movedOn, memory)
  | .ok published => (.ok (), k.movedOn, published)

/-- Writes an answer over the slot at the head, moves the head on and publishes it. -/
def answer (k : Kernel) (memory : Region) (answer : Bytes) : Except Error Unit × Kernel × Region :=
  match k.overwrite memory answer with
  | .error e => (.error e, k, memory)
  | .ok written => k.advance written

def response (k : Kernel) (id : CommandId) (a : Answer) : Response :=
  let plain := Response.answering k.layout id a.status a.sense
  { plain with
    header :=
      { plain.header with
        length := a.length.getD plain.header.length
        opcode := a.opcode
        kernelFlags := a.kernelFlags
        userFlags := a.userFlags } }

/-- The slot that answers a command: the response, and zeros behind it. -/
def fill (k : Kernel) (id : CommandId) (a : Answer) : Except Error Bytes :=
  (k.response id a).encode k.layout (Bytes.zeros k.layout.slotSize)

def complete (k : Kernel) (memory : Region) (id : CommandId) (a : Answer) :
    Except Error Unit × Kernel × Region :=
  match k.fill id a with
  | .error e => (.error e, k, memory)
  | .ok slot => k.answer memory slot

/-- Answers commands one after the other, up to the first that fails. -/
def completeAll (k : Kernel) (memory : Region) (a : Answer) :
    List CommandId → Except Error Unit × Kernel × Region
  | [] => (.ok (), k, memory)
  | id :: rest =>
    match k.complete memory id a with
    | (.error e, k, memory) => (.error e, k, memory)
    | (.ok (), k, memory) => k.completeAll memory a rest

/-- Puts filler over the slot at the head; only its header is written. -/
def pad (k : Kernel) (memory : Region) (flags : UInt8) : Except Error Unit × Kernel × Region :=
  let header : Header :=
    { length := UInt32.ofNat k.layout.slotSize
      opcode := .pad
      id := 0
      kernelFlags := flags
      userFlags := 0 }
  k.answer memory header.image

def slot (k : Kernel) (memory : Region) (index : Nat) : Except Error Bytes :=
  memory.whole.read (k.slotOffset index) k.layout.slotSize

def requestAt (k : Kernel) (memory : Region) (index : Nat) : Except Error Request := do
  let raw ← k.slot memory index
  Request.decode k.layout raw

/-- The inline descriptor block of a slot, as long as its opcode says. -/
def cdbAt (k : Kernel) (memory : Region) (index : Nat) : Except Error Bytes := do
  let raw ← k.slot memory index
  let cdb := raw.drop k.layout.cdbOffset
  return cdb.take ((Cdb.expectedLength cdb).getD 0)

end Kernel

end CommandRing
