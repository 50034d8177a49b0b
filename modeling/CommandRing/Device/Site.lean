import CommandRing.Device.Listing
import CommandRing.Text.Numeral

/-!
# Opening a device

Besides the text, the system keeps the size of a device's first memory map, as a numeral in a file of
its own. A device is opened in three steps, each of which may refuse it: its text has to be a label,
its map has to have a size, and its node has to be one that can be mapped.

Mapping memory is left to the system, so a node here is one of those that cannot be mapped.
-/

namespace CommandRing.Device

/-- Sizes are 64-bit numbers. -/
def sizeLimit : Nat := UInt64.size

/-- Reads a size: hexadecimal behind `0x` or `0X`, decimal otherwise, between any blanks. -/
def parseSize (text : String) : Except IoFault Nat :=
  match Text.trim text.toList with
  | '0' :: 'x' :: digits => Numeral.parse 16 sizeLimit digits
  | '0' :: 'X' :: digits => Numeral.parse 16 sizeLimit digits
  | digits => Numeral.parse 10 sizeLimit digits

def mapSize (file : Option Bytes) : Except Error Nat :=
  match readText file with
  | .error e => .error e
  | .ok text => (parseSize text).mapError Error.io

inductive Node where
  | missing
  | directory
deriving DecidableEq

structure Site where
  uio : String
  text : Option Bytes
  size : Option Bytes
  node : Node
deriving DecidableEq

/-- Opens the node of a device; neither kind of node can be mapped. -/
def Node.tryOpen : Node → Except Error Unit
  | missing => .error (.io .notFound)
  | directory => .error (.io .isDirectory)

/-- Opens a device: it has to be one of the family and to have a map before its node is touched. -/
def Site.tryOpen (s : Site) : Except Error Unit := do
  let text ← readText s.text
  if (DeviceLabel.parse text).isNone then
    throw (.notTcmuDevice s.uio)
  let _ ← mapSize s.size
  s.node.tryOpen

end CommandRing.Device
