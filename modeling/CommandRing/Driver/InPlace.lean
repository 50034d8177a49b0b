import CommandRing.Driver.Drain
import CommandRing.Driver.Submit
import CommandRing.InPlace

/-!
# The driver's own buffers

A driver does not build slots in the ring. It writes a slot into a buffer of its own, which it then copies into the
region, and it reads responses from a copy of their slot. Both buffers are as large as a slot, and that is all the
driver relies on: the descriptor block goes to its place in the slot without a look at where the buffer ends.
-/

namespace CommandRing.Driver

/-- Writes the slot at the tail. -/
def fillSlot (d : Driver) (id : CommandId) (command : Command) : Edit Unit := do
  let cdbOffset ← Edit.check (d.layout.requestSizeInWord d.layout.maxSegments)
  -- this is where the request says that the block is
  let _ ← Edit.check (inWord (d.geometry.slotOffset d.cursor.tail.index + cdbOffset))
  (d.requestFor id command).write d.layout
  Edit.put cdbOffset command.cdb.bytes

/-- The bytes of the slot at the tail. -/
def slotInPlace (d : Driver) (id : CommandId) (command : Command) : Except Halt Bytes :=
  (d.fillSlot id command).result (Bytes.zeros d.geometry.slotSize.toNat)

/-- Publishes a command and returns its id. -/
def submitInPlace (d : Driver) (memory : Region) (command : Command) :
    Except Halt CommandId × Driver × Region :=
  match d.checkCommand command with
  | .error e => (.error (.refused e), d, memory)
  | .ok () =>
    match d.allocateId with
    | (none, next) =>
      (.error (.refused (.ringFull d.geometry.slotCount.toNat)), { d with nextId := next }, memory)
    | (some id, next) =>
      match { d with nextId := next }.slotInPlace id command with
      | .error halt => (.error halt, { d with nextId := next }, memory)
      | .ok slot =>
        match { d with nextId := next }.publish memory slot with
        | (.error e, d, memory) => (.error (.refused e), d.poisonedBy e, memory)
        | (.ok (), d, memory) => (.ok id, { d with inFlight := id :: d.inFlight }, memory)

/-- Reads the response in the slot at the head and releases the slot. -/
def consumeInPlace (d : Driver) (memory : Region) : Except Halt (Response × Driver) := do
  let index := d.cursor.head.index
  let raw ← reported (memory.read (d.geometry.slotOffset index) d.geometry.slotSize.toNat)
  let header ← Header.read raw
  reported (checkAnswer index header)
  let response ← Response.read d.layout raw
  if response.id ∈ d.inFlight then
    return (response,
      { d with
        inFlight := d.inFlight.erase response.id
        cursor := d.cursor.release.getD d.cursor })
  else
    throw (.refused (.corrupt (.strangeCommand index.toNat response.id)))

end CommandRing.Driver
