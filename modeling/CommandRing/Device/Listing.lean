import CommandRing.Bytes
import CommandRing.Device.Label

/-!
# The devices of a system

The system keeps one folder per device, with the device's text in a file. A folder that belongs to
another kind of device, whose text cannot be read, or whose text is no label, is passed over; what
remains is listed by name, in whatever order the folders come.

A file is the bytes it holds, or nothing if it is missing.
-/

namespace CommandRing

def readText (file : Option Bytes) : Except Error String :=
  match file with
  | none => .error (.io .notFound)
  | some content =>
    match String.fromUTF8? ⟨content.toArray⟩ with
    | none => .error (.io .invalidUtf8)
    | some text => .ok text

structure Device where
  uio : String
  label : DeviceLabel
deriving DecidableEq

def Device.node (d : Device) : String := "/dev/" ++ d.uio

structure Folder where
  name : String
  text : Option Bytes
deriving DecidableEq

namespace Folder

/-- How the names of device folders begin. -/
def nameStart : List Char := ['u', 'i', 'o']

/-- The device of a folder, if it is one of the family. -/
def device? (f : Folder) : Option Device :=
  if nameStart.isPrefixOf f.name.toList then
    match readText f.text with
    | .error _ => none
    | .ok text => (DeviceLabel.parse text).map fun label => ⟨f.name, label⟩
  else
    none

end Folder

namespace Device

/-- The devices among the folders, by name. -/
def list (folders : List Folder) : List Device :=
  (folders.filterMap Folder.device?).mergeSort fun a b => a.uio ≤ b.uio

/-- The devices of a system that may have no folders at all. -/
def enumerate (folders : Option (List Folder)) : Except Error (List Device) :=
  match folders with
  | none => .error (.io .notFound)
  | some folders => .ok (list folders)

end Device

end CommandRing
