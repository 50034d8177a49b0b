import CommandRing.Driver.Basic

/-!
# Consuming responses

A poll counts the slots that the kernel has answered and announces them as a `Drain`. The responses
themselves are read one at a time, and a slot is released only when its response is taken: what a
reader leaves, the next poll announces again. A drain ends after what it announced, or with its first
error.

Every slot holds one request and every request gets one response. Filler in a slot, or a response to a
command that is not in flight, would leave some command without an answer, so both are corruption.
-/

namespace CommandRing

/-- What is left of one poll. -/
structure Drain where
  /-- Announced slots that were not read yet. -/
  remaining : Nat
  /-- An error ended the drain. -/
  failed : Bool
deriving DecidableEq

namespace Driver

def slotHeader (d : Driver) (memory : Region) (index : UInt32) : Except Error Header := do
  let raw ← memory.read (d.geometry.slotOffset index) Header.size
  Header.decode raw

/-- Slots from the driver's head up to the kernel's. On a full ring both lie on one slot when nothing
was answered and when everything was; the slot itself says which. -/
def ready (d : Driver) (memory : Region) (kernelHead : UInt32) : Except Error UInt32 := do
  let capacity := d.geometry.slotCount
  let ahead := Position.distance d.cursor.head.index kernelHead capacity
  if ahead = 0 ∧ d.cursor.isFull then
    let header ← d.slotHeader memory d.cursor.head.index
    return if header.isAnswered then capacity.slots else ahead
  else
    return ahead

/-- How many slots the kernel has answered. -/
def answered (d : Driver) (memory : Region) : Except Error UInt32 := do
  let rawHead ← memory.load Mailbox.headOffset
  let kernelHead ← d.geometry.indexOf rawHead
  let count ← d.ready memory kernelHead
  if d.cursor.occupied < count then
    throw (.corrupt (.headPastTail rawHead.toNat
      (d.geometry.ringOffset d.cursor.tail.index).toNat))
  else
    return count

/-- Announces the answered slots. -/
def poll (d : Driver) (memory : Region) : Except Error Drain × Driver :=
  match d.checkPoison with
  | .error e => (.error e, d)
  | .ok () =>
    match d.answered memory with
    | .error e => (.error e, d.poisonedBy e)
    | .ok count => (.ok ⟨count.toNat, false⟩, d)

/-- Refuses a slot that cannot hold a response. -/
def checkAnswer (index : UInt32) (header : Header) : Except Error Unit :=
  if header.isAnswered then
    match header.opcode with
    | .command => .ok ()
    | .pad => .error (.corrupt (.padded index.toNat))
    | .other code => .error (.corrupt (.unknownOpcode index.toNat code.toNat))
  else
    .error (.corrupt (.unanswered index.toNat))

/-- Reads the response in the slot at the head and releases the slot. -/
def consume (d : Driver) (memory : Region) : Except Error (Response × Driver) := do
  let index := d.cursor.head.index
  let raw ← memory.read (d.geometry.slotOffset index) d.geometry.slotSize.toNat
  let header ← Header.decode raw
  checkAnswer index header
  let response ← Response.decode d.layout raw
  if response.id ∈ d.inFlight then
    return (response,
      { d with
        inFlight := d.inFlight.erase response.id
        cursor := d.cursor.release.getD d.cursor })
  else
    throw (.corrupt (.strangeCommand index.toNat response.id))

/-- The next item of a drain. -/
def next (d : Driver) (memory : Region) (drain : Drain) :
    Option (Except Error Response) × Driver × Drain :=
  if drain.remaining = 0 ∨ drain.failed then
    (none, d, drain)
  else
    let remaining := drain.remaining - 1
    match d.consume memory with
    | .ok (response, d) => (some (.ok response), d, ⟨remaining, false⟩)
    | .error e => (some (.error e), d.poisonedBy e, ⟨remaining, true⟩)

/-- The next `count` items of a drain, or as many as it has. -/
def take (memory : Region) : (count : Nat) → Driver → Drain →
    List (Except Error Response) × Driver × Drain
  | 0, d, drain => ([], d, drain)
  | count + 1, d, drain =>
    match d.next memory drain with
    | (none, d, drain) => ([], d, drain)
    | (some item, d, drain) =>
      let (items, d, drain) := take memory count d drain
      (item :: items, d, drain)

/-- Polls, and takes `limit` items of the drain, or all of them. -/
def pollTake (d : Driver) (memory : Region) (limit : Option Nat) :
    Except Error (List (Except Error Response)) × Driver :=
  match d.poll memory with
  | (.error e, d) => (.error e, d)
  | (.ok drain, d) =>
    let (items, d, _) := take memory (limit.getD drain.remaining) d drain
    (.ok items, d)

end Driver

end CommandRing
