import CommandRing.Bytes

/-!
# The interrupt line of a device

The descriptor of a device is its interrupt line in both directions: writing four bytes rings, and
reading, which takes up to four bytes, waits. Here the other end is a byte stream held by the kernel.

When the kernel's end closes, what it had written can still be read. After that a read finds the end of
the stream, which counts as a signal; but if the kernel left kicks unread, the stream was reset, and
the first such read reports it.

That there is something to read again is for the system to say: a wait that finds nothing has no answer yet.
-/

namespace CommandRing

structure Line where
  /-- Written by the kernel, not read yet. -/
  incoming : Bytes := []
  /-- Written by the driver, not read yet. -/
  outgoing : Bytes := []
  isOpen : Bool := true
  /-- The kernel's end closed with kicks unread, and no read has reported it. -/
  wasReset : Bool := false
deriving DecidableEq

namespace Line

def kick : Bytes := Bytes.ofUInt32 1

/-- Bytes that one wait takes. -/
def waitSize : Nat := 4

def ring (l : Line) : Except Error Line :=
  if l.isOpen then
    .ok { l with outgoing := l.outgoing ++ kick }
  else
    .error (.io .brokenPipe)

/-- Waits: nothing if there is nothing to read. -/
def wait (l : Line) : Option (Except Error Unit) × Line :=
  if l.incoming ≠ [] then
    (some (.ok ()), { l with incoming := l.incoming.drop waitSize })
  else if l.wasReset then
    (some (.error (.io .connectionReset)), { l with wasReset := false })
  else if l.isOpen then
    (none, l)
  else
    (some (.ok ()), l)

def signal (l : Line) (data : Bytes) : Line :=
  if l.isOpen then { l with incoming := l.incoming ++ data } else l

def takeKicks (l : Line) : Bytes × Line := (l.outgoing, { l with outgoing := [] })

def close (l : Line) : Line :=
  { l with isOpen := false, outgoing := [], wasReset := l.wasReset || l.outgoing ≠ [] }

end Line

end CommandRing
