import CommandRing.Buffer
import CommandRing.Entry
import CommandRing.Mailbox

/-!
# Structures in a buffer

How each structure is written and read where it lies. A writer first asks for as many bytes as the structure has,
clears them, and then puts field after field; the header alone has no reserved bytes, so nothing has to be cleared
for it. A reader asks for the bytes as soon as it knows how many there have to be, which for a request takes two
steps, as its fixed part says how much there is behind it.

The segments of a request are numbered through its three lists, and each stands at an offset that its number
determines.
-/

namespace CommandRing

/-! ## Writing -/

namespace Mailbox

def write (m : Mailbox) : Edit Unit := do
  Edit.require size
  Edit.clear size
  Edit.put 0 (Bytes.ofUInt16 m.version)
  Edit.put 2 (Bytes.ofUInt16 m.flags)
  Edit.put 4 (Bytes.ofUInt32 m.ringOffset)
  Edit.put 8 (Bytes.ofUInt32 m.ringSize)
  Edit.put headOffset (Bytes.ofUInt32 m.head)
  Edit.put tailOffset (Bytes.ofUInt32 m.tail)

end Mailbox

namespace Header

def write (h : Header) : Edit Unit := do
  Edit.require size
  Edit.put 0 (Bytes.ofUInt32 h.packedLength)
  Edit.put 4 (Bytes.ofUInt16 h.id)
  Edit.put 6 [h.kernelFlags]
  Edit.put 7 [h.userFlags]

end Header

namespace Segment

/-- Writes segment number `i` of a request. -/
def write (layout : Layout) (i : Nat) (s : Segment) : Edit Unit := do
  let width := layout.pointerWidth.bytes
  let offset ← Edit.check (layout.requestSizeInWord i)
  Edit.put offset (Bytes.ofNat width s.base.toNat)
  let behind ← Edit.check (inWord (offset + width))
  Edit.put behind (Bytes.ofNat width s.length.toNat)

/-- Writes segments, the first of which has number `i`. -/
def writeFrom (layout : Layout) : (i : Nat) → List Segment → Edit Unit
  | _, [] => pure ()
  | i, s :: rest => do
    s.write layout i
    writeFrom layout (i + 1) rest

end Segment

def Segments.countInWord (s : Segments) : Except Halt Nat := do
  inWord ((← inWord (s.data.length + s.bidirectional.length)) + s.integrity.length)

namespace Request

def write (layout : Layout) (r : Request) : Edit Unit := do
  let count ← Edit.check r.segments.countInWord
  let size ← Edit.check (layout.requestSizeInWord count)
  Edit.require size
  Edit.clear size
  r.header.write
  Edit.put 8 (Bytes.ofNat 4 r.segments.data.length)
  Edit.put 12 (Bytes.ofNat 4 r.segments.bidirectional.length)
  Edit.put 16 (Bytes.ofNat 4 r.segments.integrity.length)
  Edit.put 24 (Bytes.ofUInt64 r.cdbOffset)
  Segment.writeFrom layout 0 r.segments.all

end Request

namespace Response

/-- Sense data that is too long is cut. -/
def write (layout : Layout) (r : Response) : Edit Unit := do
  let size ← Edit.check layout.responseSizeInWord
  Edit.require size
  Edit.clear size
  r.header.write
  Edit.put 8 [r.status]
  Edit.put Layout.responseBase (r.sense.take layout.senseSize)

end Response

def Entry.write (layout : Layout) : Entry → Edit Unit
  | request r => r.write layout
  | response r => r.write layout
  | pad h => h.write

/-! ## Reading -/

namespace Header

def read (b : Bytes) : Except Halt Header := do
  Buffer.require b size
  let word ← Buffer.word32 b 0
  let id ← Buffer.word16 b 4
  let kernelFlags ← Buffer.byte b 6
  let userFlags ← Buffer.byte b 7
  return {
    length := UInt32.ofNat (word.toNat / 8 * 8)
    opcode := Opcode.ofCode word.toNat
    id := id
    kernelFlags := kernelFlags
    userFlags := userFlags
  }

end Header

namespace Segment

/-- Reads segment number `i` of a request. -/
def read (layout : Layout) (b : Bytes) (i : Nat) : Except Halt Segment := do
  let offset ← layout.requestSizeInWord i
  let base ← Buffer.pointer b offset layout.pointerWidth
  let behind ← inWord (offset + layout.pointerWidth.bytes)
  let length ← Buffer.pointer b behind layout.pointerWidth
  return ⟨base, length⟩

/-- Reads `count` segments from number `next` on, and says which number comes behind them. -/
def readList (layout : Layout) (b : Bytes) (next count : Nat) : Except Halt (List Segment × Nat) := do
  let behind ← inWord (next + count)
  let segments ← (List.range' next count).mapM (read layout b)
  return (segments, behind)

end Segment

namespace Request

/-- The size of a request with these counts. A number that fits into no word is a size that no buffer has. -/
def sizeOfCounts (layout : Layout) (counts : List Nat) : Nat :=
  let size := do
    let total ← counts.foldlM (fun sum count => inWord (sum + count)) 0
    let bytes ← inWord (total * layout.segmentSize)
    inWord (bytes + Layout.requestBase)
  match size with
  | .ok size => size
  | .error _ => UInt64.size - 1

/-- Reads the three lists one after the other, each from where the one before ended. -/
def readSegments (layout : Layout) (b : Bytes) (data bidirectional integrity : Nat) :
    Except Halt Segments := do
  Buffer.require b (sizeOfCounts layout [data, bidirectional, integrity])
  let (data, next) ← Segment.readList layout b 0 data
  let (bidirectional, next) ← Segment.readList layout b next bidirectional
  let (integrity, _) ← Segment.readList layout b next integrity
  return ⟨data, bidirectional, integrity⟩

def read (layout : Layout) (b : Bytes) : Except Halt Request := do
  Buffer.require b Layout.requestBase
  let header ← Header.read b
  let data ← Buffer.word32 b 8
  let bidirectional ← Buffer.word32 b 12
  let integrity ← Buffer.word32 b 16
  let segments ← readSegments layout b data.toNat bidirectional.toNat integrity.toNat
  let cdbOffset ← Buffer.word64 b 24
  return ⟨header, cdbOffset, segments⟩

end Request

namespace Response

def read (layout : Layout) (b : Bytes) : Except Halt Response := do
  let size ← layout.responseSizeInWord
  Buffer.require b size
  let header ← Header.read b
  let status ← Buffer.byte b 8
  let sense ← Buffer.field b Layout.responseBase layout.senseSize
  return ⟨header, status, sense⟩

end Response

end CommandRing
