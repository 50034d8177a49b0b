import CommandRing.Driver.Basic

/-!
# Taking over a ring

A mapping may have carried traffic before, so a ring need not start at slot 0. It has to be idle,
though: the kernel's head and the driver's tail have to name the same slot, and the cursor then starts
there. Commands that were published and never answered are a reason to stay away.
-/

namespace CommandRing.Driver

/-- Commands that this driver still waits for: occupied slots, or ids in flight. -/
def outstanding (d : Driver) : Nat := max d.cursor.occupied.toNat d.inFlight.length

/-- The slot on which both cursors of the mailbox lie. -/
def idleSlot (g : Geometry) (memory : Region) : Except Error UInt32 := do
  let rawHead ← memory.load Mailbox.headOffset
  let rawTail ← memory.load Mailbox.tailOffset
  let head ← g.indexOf rawHead
  let tail ← g.indexOf rawTail
  if head = tail then
    return head
  else
    throw (.outstanding (Position.distance head tail g.slotCount).toNat)

/-- Restarts an idle driver on the slot of the kernel's head, and publishes the matching tail. -/
def reset (d : Driver) (memory : Region) : Except Error Unit × Driver × Region :=
  match d.checkPoison with
  | .error e => (.error e, d, memory)
  | .ok () =>
    if 0 < d.outstanding then
      (.error (.outstanding d.outstanding), d, memory)
    else
      match idleSlot d.geometry memory with
      | .error e => (.error e, d, memory)
      | .ok slot =>
        let restarted := { d with cursor := d.cursor.resetAt slot, nextId := 1 }
        match memory.store Mailbox.tailOffset (d.geometry.ringOffset slot) with
        | .error e => (.error e, restarted, memory)
        | .ok published => (.ok (), restarted, published)

/-- Checks the mailbox at the start of the region and takes over its ring. -/
def attach (layout : Layout) (memory : Region) : Except Error Driver × Region :=
  match memory.mailbox with
  | .error e => (.error e, memory)
  | .ok mailbox =>
    match Geometry.ofMailbox mailbox layout memory.length with
    | .error e => (.error e, memory)
    | .ok geometry =>
      match (fresh layout geometry).reset memory with
      | (.error e, _, memory) => (.error e, memory)
      | (.ok (), d, memory) => (.ok d, memory)

end CommandRing.Driver
