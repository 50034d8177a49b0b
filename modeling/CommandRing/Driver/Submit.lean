import CommandRing.Driver.Basic

/-!
# Publishing a command

A command is written in full into the slot at the tail before the tail moves over it. Requests that no
slot can hold are refused before anything else is looked at; a poisoned driver and a full ring refuse
the rest. A command whose slot cannot be written poisons the driver.
-/

namespace CommandRing.Driver

/-- Refuses a command that this driver cannot publish now. -/
def checkCommand (d : Driver) (command : Command) : Except Error Unit :=
  if d.layout.maxSegments < command.segments.count then
    .error (.tooManySegments command.segments.count d.layout.maxSegments)
  else if d.layout.cdbSize < command.cdb.length then
    .error (.cdbTooLong command.cdb.length d.layout.cdbSize)
  else
    match d.checkPoison with
    | .error e => .error e
    | .ok () =>
      if d.cursor.isFull then
        .error (.ringFull d.geometry.slotCount.toNat)
      else
        .ok ()

/-- The request for a command in the slot at the tail. -/
def requestFor (d : Driver) (id : CommandId) (command : Command) : Request where
  header :=
    { length := d.geometry.slotSize
      opcode := .command
      id := id
      kernelFlags := 0
      userFlags := 0 }
  cdbOffset :=
    UInt64.ofNat (d.geometry.slotOffset d.cursor.tail.index + d.layout.cdbOffset)
  segments := command.segments

/-- The bytes of the slot at the tail: the request, the descriptor block, and zeros elsewhere. -/
def slotFor (d : Driver) (id : CommandId) (command : Command) : Except Error Bytes := do
  let blank := Bytes.zeros d.geometry.slotSize.toNat
  let image ← (d.requestFor id command).encode d.layout blank
  return image.place d.layout.cdbOffset command.cdb.bytes

/-- Writes the slot at the tail, moves the tail over it and then publishes the tail, up to the first of
the three that fails. -/
def publish (d : Driver) (memory : Region) (slot : Bytes) : Except Error Unit × Driver × Region :=
  match memory.write (d.geometry.slotOffset d.cursor.tail.index) slot with
  | .error e => (.error e, d, memory)
  | .ok written =>
    match d.cursor.acquire with
    | .error e => (.error e, d, written)
    | .ok cursor =>
      match written.store Mailbox.tailOffset (d.geometry.ringOffset cursor.tail.index) with
      | .error e => (.error e, { d with cursor := cursor }, written)
      | .ok published => (.ok (), { d with cursor := cursor }, published)

/-- Publishes a command and returns its id. -/
def submit (d : Driver) (memory : Region) (command : Command) :
    Except Error CommandId × Driver × Region :=
  match d.checkCommand command with
  | .error e => (.error e, d, memory)
  | .ok () =>
    match d.allocateId with
    | (none, next) =>
      (.error (.ringFull d.geometry.slotCount.toNat), { d with nextId := next }, memory)
    | (some id, next) =>
      match { d with nextId := next }.slotFor id command with
      | .error e => (.error e, { d with nextId := next }, memory)
      | .ok slot =>
        match { d with nextId := next }.publish memory slot with
        | (.error e, d, memory) => (.error e, d.poisonedBy e, memory)
        | (.ok (), d, memory) => (.ok id, { d with inFlight := id :: d.inFlight }, memory)

end CommandRing.Driver
