import CommandRing.Driver.Attach
import CommandRing.Driver.Drain
import CommandRing.Driver.Submit
import CommandRing.Kernel

/-!
# Scripted runs: the bench

A scenario drives both sides of a ring from a list of steps and reports what each step answers. This
module holds what all scenarios share: the replies, the bench with the memory and the kernel, and the
steps that the kernel and a bare driver can take.
-/

namespace CommandRing.Scenario

/-- A command as a script writes it, with a descriptor block that may be bad. -/
structure Order where
  /-- No bytes at all stand for TEST UNIT READY. -/
  cdb : Option Bytes := none
  segments : Segments := {}
deriving DecidableEq

def Order.command (o : Order) : Except Error Command :=
  match o.cdb with
  | none => .ok { Command.testUnitReady with segments := o.segments }
  | some raw => (CommandBlock.ofBytes raw).map fun cdb => ⟨cdb, o.segments⟩

inductive Reply where
  | done
  | failed (e : Error)
  | noDriver
  | noHandle
  | flag (b : Bool)
  | count (n : Nat)
  | id (id : CommandId)
  | handle (index : Nat) (id : CommandId)
  | bytes (b : Bytes)
  | mailbox (m : Mailbox)
  | geometry (g : Geometry)
  | request (r : Request)
  | slot (raw : Bytes) (r : Request)
  | response (r : Response)
  | responses (items : List (Except Error Response))

namespace Reply

def ofExcept {α : Type} (wrap : α → Reply) : Except Error α → Reply
  | .ok a => wrap a
  | .error e => failed e

def ofUnit : Except Error Unit → Reply := ofExcept fun _ => done

end Reply

/-! ## The other side -/

structure Bench where
  memory : Region
  kernel : Kernel
deriving DecidableEq

namespace Bench

/-- A zeroed memory of `length` bytes that starts with a mailbox, cut if there is no room for it. -/
def new (layout : Layout) (m : Mailbox) (length : Nat) : Bench where
  memory := (Region.zeroed length).put 0 (m.image.take length)
  kernel := Kernel.ofMailbox layout m

/-- Where the ring of a standard bench starts. -/
def standardOffset : Nat := 128

/-- The mailbox `m`, with a ring of `slots` slots. -/
def withSlots (layout : Layout) (m : Mailbox) (slots : Nat) : Mailbox :=
  { m with ringSize := UInt32.ofNat (slots * layout.slotSize) }

/-- A bench in the default layout with an idle ring of `slots` slots, and no byte behind it. -/
def standard (slots : Nat) : Bench :=
  let layout : Layout := {}
  let m : Mailbox :=
    { version := Mailbox.currentVersion
      flags := Mailbox.outOfOrderFlag
      ringOffset := UInt32.ofNat standardOffset }
  new layout (withSlots layout m slots) (standardOffset + slots * layout.slotSize)

def head (b : Bench) : Except Error UInt32 := b.memory.whole.load Mailbox.headOffset

def tail (b : Bench) : Except Error UInt32 := b.memory.whole.load Mailbox.tailOffset

def change (b : Bench) (result : Except Error Region) : Reply × Bench :=
  match result with
  | .ok memory => (.done, { b with memory := memory })
  | .error e => (.failed e, b)

def answered : Except Error Unit × Kernel × Region → Reply × Bench
  | (result, kernel, memory) => (Reply.ofUnit result, ⟨memory, kernel⟩)

end Bench

inductive KernelStep where
  | complete (ids : List CommandId) (answer : Answer)
  | pad (flags : UInt8)
  | setHead (raw : UInt32)
  | setTail (raw : UInt32)
  | write (offset : Nat) (data : Bytes)
  | dump (offset count : Nat)
  | shrink (length : Nat)
  | slot (index : Nat)
  | requestAt (index : Nat)
  | cdbAt (index : Nat)

def KernelStep.apply (b : Bench) : KernelStep → Reply × Bench
  | complete ids answer => Bench.answered (b.kernel.completeAll b.memory answer ids)
  | pad flags => Bench.answered (b.kernel.pad b.memory flags)
  | setHead raw => b.change (Kernel.store b.memory Mailbox.headOffset raw)
  | setTail raw => b.change (Kernel.store b.memory Mailbox.tailOffset raw)
  | write offset data => b.change (Kernel.write b.memory offset data)
  | dump offset count => (.ofExcept .bytes (b.memory.whole.read offset count), b)
  | shrink length => (.done, { b with memory := b.memory.grant length })
  | slot index =>
    (.ofExcept (fun p => .slot p.1 p.2) (do
      let raw ← b.kernel.slot b.memory index
      let request ← Request.decode b.kernel.layout raw
      return (raw, request)), b)
  | requestAt index => (.ofExcept .request (b.kernel.requestAt b.memory index), b)
  | cdbAt index => (.ofExcept .bytes (b.kernel.cdbAt b.memory index), b)

/-! ## A bare driver -/

inductive DriverStep where
  | submit (order : Order)
  /-- Poll, and take so many items, or all of them. -/
  | poll (limit : Option Nat)
  | reset
  | mailbox
  | geometry
  /-- So many times: submit TEST UNIT READY, answer it, consume the answer. -/
  | churn (times : Nat)

/-- The first error among the items of a drain. -/
def firstError? (items : List (Except Error Response)) : Option Error :=
  items.findSome? fun
    | .error e => some e
    | .ok _ => none

/-- One round of churning: the id it used, or the error that stopped it. -/
def churnOnce (d : Driver) : Bench → Except Error CommandId × Driver × Bench
  | ⟨memory, kernel⟩ =>
    match d.submit memory Command.testUnitReady with
    | (.error e, d, memory) => (.error e, d, ⟨memory, kernel⟩)
    | (.ok id, d, memory) =>
      let (_, kernel, memory) := kernel.complete memory id {}
      match d.pollTake memory none with
      | (.error e, d) => (.error e, d, ⟨memory, kernel⟩)
      | (.ok items, d) =>
        match firstError? items with
        | some e => (.error e, d, ⟨memory, kernel⟩)
        | none => (.ok id, d, ⟨memory, kernel⟩)

/-- Churns until a round fails or all are done; replies with the last id. -/
def churn (last : CommandId) : (times : Nat) → Driver → Bench → Reply × Driver × Bench
  | 0, d, b => (.id last, d, b)
  | times + 1, d, b =>
    match churnOnce d b with
    | (.ok id, d, b) => churn id times d b
    | (.error e, d, b) => (.failed e, d, b)

def DriverStep.apply (d : Driver) (b : Bench) : DriverStep → Reply × Driver × Bench
  | submit order =>
    match order.command with
    | .error e => (.failed e, d, b)
    | .ok command =>
      let (result, d, memory) := d.submit b.memory command
      (.ofExcept .id result, d, { b with memory := memory })
  | poll limit =>
    let (result, d) := d.pollTake b.memory limit
    (.ofExcept .responses result, d, b)
  | reset =>
    let (result, d, memory) := d.reset b.memory
    (Reply.ofUnit result, d, { b with memory := memory })
  | mailbox => (.ofExcept .mailbox b.memory.mailbox, d, b)
  | geometry => (.geometry d.geometry, d, b)
  | churn times => Scenario.churn 0 times d b

end CommandRing.Scenario
