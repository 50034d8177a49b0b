import CommandRing.Entry.Header
import CommandRing.Entry.Segment

/-!
# Requests

The shape that the driver writes into a slot: the header, the three segment counts at 8, 12 and 16,
the region offset of the command descriptor block at 24, and the segments from 48 on. Reserved bytes
are written as zero and never read.
-/

namespace CommandRing

/-- What the driver writes into a slot. -/
structure Request where
  header : Header
  /-- Where the command descriptor block starts in the mapping. -/
  cdbOffset : UInt64
  segments : Segments
deriving DecidableEq

namespace Request

def size (layout : Layout) (r : Request) : Nat := layout.requestSize r.segments.count

def image (layout : Layout) (r : Request) : Bytes :=
  r.header.image ++
    Bytes.ofNat 4 r.segments.data.length ++
    Bytes.ofNat 4 r.segments.bidirectional.length ++
    Bytes.ofNat 4 r.segments.integrity.length ++
    Bytes.zeros 4 ++ Bytes.ofUInt64 r.cdbOffset ++ Bytes.zeros 16 ++
    r.segments.all.flatMap (Segment.image layout.pointerWidth)

theorem length_image (layout : Layout) (r : Request) :
    (r.image layout).length = r.size layout := by
  have hsegments : ∀ l : List Segment,
      (l.flatMap (Segment.image layout.pointerWidth)).length = l.length * layout.segmentSize := by
    intro l
    induction l with
    | nil => simp
    | cons s rest ih =>
      simp only [List.flatMap_cons, List.length_append, Segment.length_image, ih,
        List.length_cons, Layout.segmentSize, Nat.add_mul]
      omega
  simp only [image, List.length_append, hsegments, Segments.length_all, size, Layout.requestSize,
    Layout.requestBase, Header.length_image, Header.size, Bytes.length_ofNat, Bytes.length_zeros,
    Bytes.length_ofUInt64]

def encode (layout : Layout) (r : Request) (buffer : Bytes) : Except Error Bytes :=
  buffer.overwrite (r.image layout)

/-- Reads the request at the front of `buffer`. The fixed part has to be there before the counts
mean anything; then the buffer has to hold as many segments as they announce. -/
def decode (layout : Layout) (buffer : Bytes) : Except Error Request :=
  if buffer.length < Layout.requestBase then
    .error (.bufferTooShort Layout.requestBase buffer.length)
  else
    let data := (buffer.wordAt32 8).toNat
    let bidirectional := (buffer.wordAt32 12).toNat
    let integrity := (buffer.wordAt32 16).toNat
    let total := data + bidirectional + integrity
    if buffer.length < layout.requestSize total then
      .error (.bufferTooShort (layout.requestSize total) buffer.length)
    else
      .ok {
        header := Header.ofBytes buffer
        cdbOffset := buffer.wordAt64 24
        segments := Segments.cut data bidirectional
          (Segment.listOfBytes layout.pointerWidth total (buffer.drop Layout.requestBase))
      }

end Request

end CommandRing
