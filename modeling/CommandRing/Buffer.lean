import CommandRing.Bytes
import CommandRing.Layout

/-!
# Working in a buffer

An image says what a structure looks like in memory, and a slice what is read there. A program that is given a
buffer gets to either one access at a time: it computes an offset in 64-bit words and copies a few bytes from there
or to there. Two things can go wrong that are no errors of the library. An access may leave the buffer, and a number
may not fit into its word; the program is then stopped where it is, whatever it has written so far.

A `Halt` is any reason not to go on. What only looks at a buffer is a function to `Except Halt`; an `Edit` changes
the buffer as well, and leaves it as it is when it halts.
-/

namespace CommandRing

/-- Why a program does not go on. -/
inductive Halt where
  /-- It reports an error to its caller. -/
  | refused (e : Error)
  /-- It is stopped: `count` bytes at `offset` leave a buffer of `length` bytes. -/
  | outside (offset count length : Nat)
  /-- It is stopped: `n` does not fit into a word. -/
  | overflow (n : Nat)
deriving DecidableEq

/-- A number that is computed in a 64-bit word. -/
def inWord (n : Nat) : Except Halt Nat :=
  if n < UInt64.size then .ok n else .error (.overflow n)

/-- What another part of the library refuses is refused. -/
def reported {α : Type} : Except Error α → Except Halt α
  | .ok a => .ok a
  | .error e => .error (.refused e)

/-! ## Looking at a buffer -/

namespace Buffer

/-- Refuses a buffer of less than `required` bytes. -/
def require (b : Bytes) (required : Nat) : Except Halt Unit :=
  if b.length < required then .error (.refused (.bufferTooShort required b.length)) else .ok ()

def field (b : Bytes) (offset count : Nat) : Except Halt Bytes :=
  if b.length < offset + count then .error (.outside offset count b.length)
  else .ok (b.slice offset count)

def byte (b : Bytes) (offset : Nat) : Except Halt UInt8 :=
  match b[offset]? with
  | none => .error (.outside offset 1 b.length)
  | some x => .ok x

def word16 (b : Bytes) (offset : Nat) : Except Halt UInt16 := do
  return UInt16.ofNat (← field b offset 2).toNat

def word32 (b : Bytes) (offset : Nat) : Except Halt UInt32 := do
  return UInt32.ofNat (← field b offset 4).toNat

def word64 (b : Bytes) (offset : Nat) : Except Halt UInt64 := do
  return UInt64.ofNat (← field b offset 8).toNat

/-- A value of the layout's pointer width. -/
def pointer (b : Bytes) (offset : Nat) (width : PointerWidth) : Except Halt UInt64 := do
  return UInt64.ofNat (← field b offset width.bytes).toNat

end Buffer

/-! ## Changing it -/

/-- Something that is done to a buffer. -/
abbrev Edit := EStateM Halt Bytes

namespace Edit

/-- Halts for a reason that the buffer does not change. -/
def check {α : Type} (reason : Except Halt α) : Edit α := fun b =>
  match reason with
  | .ok a => .ok a b
  | .error halt => .error halt b

def require (required : Nat) : Edit Unit := fun b => check (Buffer.require b required) b

/-- Copies `data` over the bytes from `offset` on. -/
def put (offset : Nat) (data : Bytes) : Edit Unit := fun b =>
  if b.length < offset + data.length then .error (.outside offset data.length b.length) b
  else .ok () (b.place offset data)

/-- Sets the first `count` bytes to zero. -/
def clear (count : Nat) : Edit Unit := put 0 (Bytes.zeros count)

/-- The buffer that an edit leaves, unless it halts. -/
def result (edit : Edit Unit) (b : Bytes) : Except Halt Bytes :=
  match edit b with
  | .ok () written => .ok written
  | .error halt _ => .error halt

end Edit

/-! ## Sizes in words -/

namespace Layout

def requestSizeInWord (layout : Layout) (segments : Nat) : Except Halt Nat := do
  inWord (requestBase + (← inWord (segments * layout.segmentSize)))

def responseSizeInWord (layout : Layout) : Except Halt Nat := inWord (responseBase + layout.senseSize)

end Layout

/-- `n` rounded up to a multiple of `alignment`, which is a power of two. Words wrap around: the sum leaves its
word from `2 ^ 64 - alignment` on. That number is a multiple itself, and the subtraction takes the sum back; the
larger ones have no multiple above them in a word. -/
def roundUp (n alignment : UInt64) : UInt64 := (n + alignment - 1) &&& ~~~(alignment - 1)

/-- The same, if the sum has to fit into its word. -/
def roundUpChecked (n alignment : Nat) : Except Halt Nat := do
  let sum ← inWord (n + alignment)
  return (UInt64.ofNat (sum - 1) &&& ~~~(UInt64.ofNat alignment - 1)).toNat

namespace Layout

/-! Two ways to compute the size of a slot. In words that wrap around, sums may leave their words, and nobody is
told. A program that checks its sums is stopped instead. -/

/-- Where the request with its descriptor block ends. -/
def requestEndInWords (layout : Layout) : UInt64 :=
  UInt64.ofNat requestBase + UInt64.ofNat layout.maxSegments * UInt64.ofNat layout.segmentSize
    + UInt64.ofNat layout.cdbSize

/-- Where the response ends. -/
def responseEndInWords (layout : Layout) : UInt64 :=
  UInt64.ofNat responseBase + UInt64.ofNat layout.senseSize

/-- The size of a slot in words that wrap around. -/
def slotSizeInWords (layout : Layout) : UInt64 :=
  let request := layout.requestEndInWords
  let response := layout.responseEndInWords
  roundUp (if response < request then request else response) (UInt64.ofNat entryAlignment)

/-- The size of a slot if every sum has to fit into its word. -/
def slotSizeChecked (layout : Layout) : Except Halt Nat := do
  let request ← inWord ((← layout.requestSizeInWord layout.maxSegments) + layout.cdbSize)
  let response ← layout.responseSizeInWord
  roundUpChecked (if response < request then request else response) entryAlignment

end Layout

end CommandRing
