import CommandRing.Doorbell
import CommandRing.Driver.Drain
import CommandRing.Driver.Submit

/-!
# Matching responses with those who wait

Every submitted command gets a `Handle`: its id, and a ticket that is never used again and tells apart
two commands that had the same id at different times. While somebody waits for it, the handle is
*pending*; it leaves that list once, and what it leaves with is recorded as its outcome. A handle that
is neither pending nor has an outcome was given up by its holder, or lost its place to a newer command
with its id.

Once the mapping turns out to be corrupt, every pending command fails with that reason, and the
driver's poison keeps refusing further work. Other errors concern nobody but their caller.

What would only be logged leaves no trace: a ring that fails, a response that nobody waits for.
-/

namespace CommandRing

/-- A submitted command: its id, and a number used once. -/
structure Handle where
  id : CommandId
  ticket : Nat
deriving DecidableEq

abbrev Outcome := Except Error Response

/-- A driver, its interrupt line, and who waits for what. -/
structure Dispatcher where
  driver : Driver
  bell : Doorbell
  /-- Commands that somebody waits for. -/
  pending : List Handle
  /-- What became of commands that are settled, the latest first. -/
  settled : List (Handle × Outcome)
  nextTicket : Nat

namespace Dispatcher

def new (driver : Driver) (bell : Doorbell) : Dispatcher := ⟨driver, bell, [], [], 0⟩

def waiter? (d : Dispatcher) (id : CommandId) : Option Handle :=
  d.pending.find? fun h => h.id = id

/-- Takes every handle with this id off the pending list. -/
def withoutId (pending : List Handle) (id : CommandId) : List Handle :=
  pending.filter fun h => h.id ≠ id

def settle (d : Dispatcher) (h : Handle) (outcome : Outcome) : Dispatcher :=
  { d with
    pending := withoutId d.pending h.id
    settled := (h, outcome) :: d.settled }

/-- A corruption fails every pending command; other errors change nothing. -/
def failAll (d : Dispatcher) (e : Error) : Dispatcher :=
  if e.isFatal then
    { d with
      pending := []
      settled := d.pending.map (fun h => (h, .error e)) ++ d.settled }
  else
    d

/-- Publishes a command, makes its handle pending and rings. The kernel finds the entry the next time
it looks, so a ring that fails does not matter. -/
def submit (d : Dispatcher) (memory : Region) (command : Command) :
    Except Error Handle × Dispatcher × Region :=
  match d.driver.submit memory command with
  | (.error e, driver, memory) => (.error e, { d with driver := driver }.failAll e, memory)
  | (.ok id, driver, memory) =>
    let handle : Handle := ⟨id, d.nextTicket⟩
    (.ok handle,
      { d with
        driver := driver
        bell := d.bell.ring.2
        pending := handle :: withoutId d.pending id
        nextTicket := d.nextTicket + 1 },
      memory)

/-- Stops waiting for the command `id`, and says whether somebody did. -/
def cancel (d : Dispatcher) (id : CommandId) : Bool × Dispatcher :=
  match d.waiter? id with
  | none => (false, d)
  | some h => (true, d.settle h (.error (.cancelled id)))

/-- Hands a response to whoever waits for it, and says whether somebody did. -/
def deliver (d : Dispatcher) (r : Response) : Bool × Dispatcher :=
  match d.waiter? r.id with
  | none => (false, d)
  | some h => (true, d.settle h (.ok r))

/-- Hands over what a drain yields, and counts the commands settled; an error ends it. -/
def deliverAll (d : Dispatcher) (count : Nat) : List Outcome → Except Error Nat × Dispatcher
  | [] => (.ok count, d)
  | .error e :: _ => (.error e, d.failAll e)
  | .ok r :: rest =>
    match d.deliver r with
    | (true, d) => d.deliverAll (count + 1) rest
    | (false, d) => d.deliverAll count rest

/-- Drains the ring and hands each response over. Returns how many commands were settled. -/
def pump (d : Dispatcher) (memory : Region) : Except Error Nat × Dispatcher :=
  match d.driver.pollTake memory none with
  | (.error e, driver) => (.error e, { d with driver := driver }.failAll e)
  | (.ok items, driver) => { d with driver := driver }.deliverAll 0 items

/-! ## What the holder of a handle does -/

/-- The handle gives up, and says whether it was still pending. A newer command with the same id keeps
its place. -/
def forget (d : Dispatcher) (h : Handle) : Bool × Dispatcher :=
  if h ∈ d.pending then
    (true, { d with pending := d.pending.erase h })
  else
    (false, d)

/-- What a handle waits for, if that is decided. A handle that lost its place counts as cancelled. -/
def outcome? (d : Dispatcher) (h : Handle) : Option Outcome :=
  match d.settled.lookup h with
  | some outcome => some outcome
  | none => if h ∈ d.pending then none else some (.error (.cancelled h.id))

/-- The deadline of a wait passes. -/
def expire (d : Dispatcher) (h : Handle) : Outcome × Dispatcher :=
  match d.forget h with
  | (true, d) => (.error (.timedOut h.id), d)
  | (false, d) => ((d.settled.lookup h).getD (.error (.timedOut h.id)), d)

/-- A wait during which nothing else happens: it ends with the outcome if there is one, and with its
deadline otherwise. -/
def wait (d : Dispatcher) (h : Handle) : Outcome × Dispatcher :=
  match d.outcome? h with
  | some outcome => (outcome, d)
  | none => d.expire h

end Dispatcher

end CommandRing
