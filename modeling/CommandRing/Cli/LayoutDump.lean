import CommandRing.Cdb
import CommandRing.Entry
import CommandRing.Mailbox

/-!
# The structures as bytes

One sample of each shared structure, filled with values that are easy to recognise, so that the offsets
can be checked against the kernel's header by eye.
-/

namespace CommandRing.LayoutDump

def sampleId : CommandId := 0x0102

def sampleRing : Nat := 0x80

/-- A mailbox with a ring of sixteen slots and both cursors set. -/
def mailbox (layout : Layout) : Mailbox where
  version := Mailbox.currentVersion
  flags := Mailbox.outOfOrderFlag
  ringOffset := UInt32.ofNat sampleRing
  ringSize := UInt32.ofNat (0x10 * layout.slotSize)
  head := 0x07
  tail := 0x08

def request (layout : Layout) : Request where
  header :=
    { length := UInt32.ofNat layout.slotSize
      opcode := .command
      id := sampleId
      kernelFlags := 0
      userFlags := 0 }
  cdbOffset := UInt64.ofNat (sampleRing + layout.cdbOffset)
  segments := { data := [⟨0x1000, 0x200⟩] }

def response (layout : Layout) : Response :=
  Response.answering layout sampleId 0x02 [0x70, 0x00, 0x05]

def slot (layout : Layout) (image : Bytes) : Bytes := Bytes.fit layout.slotSize image

/-- A heading, a dump, and the end of the line. -/
def block (heading : String) (content : Bytes) : String :=
  heading ++ "\n" ++ Hex.dump content ++ "\n"

def text (layout : Layout) : String :=
  let size := layout.slotSize
  let requestSlot :=
    (slot layout ((request layout).image layout)).place layout.cdbOffset
      CommandBlock.testUnitReady.bytes
  let responseSlot := slot layout ((response layout).image layout)
  s!"slot size {size}, inline CDB at {layout.cdbOffset}, {layout.segmentSize * 4}-bit iovecs\n" ++
    block s!"mailbox ({Mailbox.size} bytes):" (mailbox layout).image ++
    block s!"request entry ({size} bytes):" requestSlot ++
    block s!"response entry ({size} bytes, kflags {Hex.byte Header.responseFlag}):" responseSlot

end CommandRing.LayoutDump
