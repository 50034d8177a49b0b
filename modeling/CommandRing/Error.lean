import CommandRing.CommandId
import CommandRing.Text.Hex

/-!
# What can go wrong on a command ring

Every refusal of the library is one `Error`: a cause together with the numbers that belong to it.
The wording lives in `Error.message` alone, so the code that raises an error never handles text.

Two classes matter to callers. A *retryable* error may go away by itself: a full ring drains, a late
response arrives. A *fatal* one says that the mapping can no longer be trusted, and only a
`Corruption` is of that kind.
-/

namespace CommandRing

/-- Ways in which the shared mapping breaks the contract between driver and kernel. -/
inductive Corruption where
  /-- An access of `count` bytes at `offset` leaves a region of `length` bytes. -/
  | outsideRegion (count offset length : Nat)
  /-- A cursor has to lie on a multiple of four. -/
  | unalignedCursor (offset : Nat)
  /-- The ring starts inside the mailbox, or off the entry alignment. -/
  | misplacedRing (offset : Nat)
  /-- The ring ends behind the mapping. -/
  | ringPastMapping (size offset length : Nat)
  /-- The ring is not cut into whole slots. -/
  | raggedRing (size slot : Nat)
  /-- There are as many slots as command ids, or more. -/
  | tooManySlots (count : Nat)
  | noSlots
  /-- A cursor is no slot boundary of the ring. -/
  | strayCursor (value size : Nat)
  /-- The kernel's head lies beyond what was published. -/
  | headPastTail (head tail : Nat)
  /-- The kernel moved its head over a slot that holds no response. -/
  | unanswered (slot : Nat)
  /-- A slot was answered with filler. -/
  | padded (slot : Nat)
  | unknownOpcode (slot code : Nat)
  /-- A response names a command that is not in flight. -/
  | strangeCommand (slot : Nat) (id : CommandId)
  /-- A reason in the words of whoever found it. -/
  | described (text : String)
deriving DecidableEq

/-- Why bytes are not a command descriptor block. -/
inductive CdbFault where
  | empty
  /-- The opcode's group defines no length. -/
  | undefinedLength (opcode : UInt8)
  | wrongLength (opcode : UInt8) (expected actual : Nat)
  | described (text : String)
deriving DecidableEq

/-- Failures of the system underneath: files, numerals and the interrupt line. -/
inductive IoFault where
  | notFound
  | isDirectory
  | brokenPipe
  | connectionReset
  | invalidUtf8
  | emptyNumeral
  | invalidDigit
  | numeralTooLarge
  | described (text : String)
deriving DecidableEq

/-- A refusal, with the numbers that explain it. -/
inductive Error where
  | bufferTooShort (required actual : Nat)
  | ringFull (capacity : Nat)
  | timedOut (id : CommandId)
  /-- The wait was given up on this side; the entry itself stays on the ring. -/
  | cancelled (id : CommandId)
  | corrupt (reason : Corruption)
  | tooManySegments (count limit : Nat)
  | cdbTooLong (length limit : Nat)
  | invalidCdb (fault : CdbFault)
  /-- Commands are still waiting for an answer. -/
  | outstanding (count : Nat)
  | notTcmuDevice (name : String)
  | io (fault : IoFault)
deriving DecidableEq

def Corruption.message : Corruption → String
  | .outsideRegion count offset length =>
    s!"access of {count} bytes at {offset} is outside the {length} byte region"
  | .unalignedCursor offset => s!"unaligned cursor offset {offset}"
  | .misplacedRing offset => s!"ring offset {offset} overlaps the mailbox or is unaligned"
  | .ringPastMapping size offset length =>
    s!"ring of {size} bytes at {offset} runs past the {length} byte mapping"
  | .raggedRing size slot => s!"ring size {size} is not a multiple of the {slot} byte slot"
  | .tooManySlots count => s!"{count} slots outnumber the command ids"
  | .noSlots => "ring has no slots"
  | .strayCursor value size =>
    s!"cursor {value} is not a slot boundary inside the {size} byte ring"
  | .headPastTail head tail => s!"kernel head {head} is past the driver's tail {tail}"
  | .unanswered slot => s!"slot {slot} is behind the kernel head but was never answered"
  | .padded slot => s!"slot {slot} was padded instead of answered"
  | .unknownOpcode slot code => s!"slot {slot} has unknown opcode {code}"
  | .strangeCommand slot id => s!"slot {slot} answers command {id}, which isn't in flight"
  | .described text => text

def CdbFault.message : CdbFault → String
  | .empty => "empty CDB"
  | .undefinedLength opcode => s!"opcode {Hex.byte opcode} has no defined length"
  | .wrongLength opcode expected actual =>
    s!"opcode {Hex.byte opcode} needs {expected} bytes, got {actual}"
  | .described text => text

def IoFault.message : IoFault → String
  | .notFound => "No such file or directory (os error 2)"
  | .isDirectory => "Is a directory (os error 21)"
  | .brokenPipe => "Broken pipe (os error 32)"
  | .connectionReset => "Connection reset by peer (os error 104)"
  | .invalidUtf8 => "stream did not contain valid UTF-8"
  | .emptyNumeral => "cannot parse integer from empty string"
  | .invalidDigit => "invalid digit found in string"
  | .numeralTooLarge => "number too large to fit in target type"
  | .described text => text

namespace Error

def message : Error → String
  | .bufferTooShort required actual =>
    s!"buffer is {actual} bytes, structure needs at least {required}"
  | .ringFull capacity => s!"command ring is full ({capacity} slots in flight)"
  | .timedOut id => s!"command {id} timed out"
  | .cancelled id => s!"command {id} was cancelled"
  | .corrupt reason => "mailbox is corrupt: " ++ reason.message
  | .tooManySegments count limit => s!"request carries {count} iovecs, a slot holds at most {limit}"
  | .cdbTooLong length limit => s!"CDB is {length} bytes, a slot holds at most {limit}"
  | .invalidCdb fault => "invalid CDB: " ++ fault.message
  | .outstanding count => s!"{count} commands are still outstanding"
  | .notTcmuDevice name => s!"{name} is not a tcm-user device"
  | .io fault => fault.message

/-- The same call may succeed if it is made again later. -/
def isRetryable : Error → Bool
  | .ringFull _ | .timedOut _ => true
  | _ => false

/-- The mapping has to be abandoned. -/
def isFatal : Error → Bool
  | .corrupt _ => true
  | _ => false

theorem isFatal_iff {e : Error} : e.isFatal = true ↔ ∃ reason, e = .corrupt reason := by
  cases e <;> simp [isFatal]

end Error

end CommandRing
