import CommandRing.Entry.Header
import CommandRing.Layout

/-!
# Responses

The shape that the kernel writes over a request: the header, the status at 8, and the sense data from
16 on. Sense data is as long as the layout's sense buffer, cut or filled up with zeros.
-/

namespace CommandRing

/-- What the kernel writes into a slot. -/
structure Response where
  header : Header
  /-- Status code; zero is good. -/
  status : UInt8
  sense : Bytes
deriving DecidableEq

namespace Response

/-- The response that a kernel writes for command `id`. -/
def answering (layout : Layout) (id : CommandId) (status : UInt8) (sense : Bytes) : Response where
  header :=
    { length := UInt32.ofNat layout.slotSize
      opcode := .command
      id := id
      kernelFlags := Header.responseFlag
      userFlags := 0 }
  status := status
  sense := Bytes.fit layout.senseSize sense

def id (r : Response) : CommandId := r.header.id

def isGood (r : Response) : Bool := r.status == 0

def image (layout : Layout) (r : Response) : Bytes :=
  r.header.image ++ [r.status] ++ Bytes.zeros 7 ++ Bytes.fit layout.senseSize r.sense

theorem length_image (layout : Layout) (r : Response) :
    (r.image layout).length = layout.responseSize := by
  simp only [image, List.length_append, Header.length_image, Header.size, List.length_cons,
    List.length_nil, Bytes.length_zeros, Bytes.length_fit, Layout.responseSize,
    Layout.responseBase]

def encode (layout : Layout) (r : Response) (buffer : Bytes) : Except Error Bytes :=
  buffer.overwrite (r.image layout)

def decode (layout : Layout) (buffer : Bytes) : Except Error Response :=
  if buffer.length < layout.responseSize then
    .error (.bufferTooShort layout.responseSize buffer.length)
  else
    .ok {
      header := Header.ofBytes buffer
      status := buffer.byteAt 8
      sense := buffer.slice Layout.responseBase layout.senseSize
    }

end Response

end CommandRing
