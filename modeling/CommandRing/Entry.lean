import CommandRing.Entry.Request
import CommandRing.Entry.Response

/-!
# Ring entries

A slot holds one of two shapes in the same bytes: the request, and later the response. The bytes do
not say which, so a reader names the `Phase` it expects. Filler has a header only and reads as filler
in either phase.
-/

namespace CommandRing

/-- The shape that a slot is expected to hold. -/
inductive Phase where
  | request
  | response
deriving DecidableEq

/-- What a slot holds. -/
inductive Entry where
  | request (r : Request)
  | response (r : Response)
  | pad (header : Header)
deriving DecidableEq

namespace Entry

def header : Entry → Header
  | request r => r.header
  | response r => r.header
  | pad h => h

def image (layout : Layout) : Entry → Bytes
  | request r => r.image layout
  | response r => r.image layout
  | pad h => h.image

def encode (layout : Layout) : Entry → Bytes → Except Error Bytes
  | request r => r.encode layout
  | response r => r.encode layout
  | pad h => h.encode

theorem encode_eq_overwrite (layout : Layout) (e : Entry) (buffer : Bytes) :
    e.encode layout buffer = buffer.overwrite (e.image layout) := by
  cases e <;> rfl

/-- Reads the entry at the front of `buffer` in the phase that the caller expects. -/
def decode (layout : Layout) (phase : Phase) (buffer : Bytes) : Except Error Entry :=
  match Header.decode buffer with
  | .error e => .error e
  | .ok header =>
    if header.opcode = .pad then
      .ok (pad header)
    else
      match phase with
      | .request => (Request.decode layout buffer).map request
      | .response => (Response.decode layout buffer).map response

end Entry

end CommandRing
