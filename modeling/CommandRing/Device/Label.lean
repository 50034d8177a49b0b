import CommandRing.Text.Blank

/-!
# What a device says about itself

Each user-space storage device announces itself by a text of four parts separated by slashes: the
family `tcm-user`, the adapter, the volume, and the configuration it was created with, which is the
rest of the text and may hold slashes of its own. Blanks at the end do not count.
-/

namespace CommandRing

/-- The parts of a device's text behind the family. -/
structure DeviceLabel where
  adapter : String
  volume : String
  config : String
deriving DecidableEq

namespace DeviceLabel

def family : String := "tcm-user"

/-- Reads a label; texts of other families, or with too few parts, are none. -/
def parse (text : String) : Option DeviceLabel := do
  let (first, rest) ← Text.cut '/' (Text.trimEnd text.toList)
  guard (first = family.toList)
  let (adapter, rest) ← Text.cut '/' rest
  let (volume, config) ← Text.cut '/' rest
  return ⟨String.ofList adapter, String.ofList volume, String.ofList config⟩

def render (l : DeviceLabel) : String :=
  family ++ "/" ++ l.adapter ++ "/" ++ l.volume ++ "/" ++ l.config

end DeviceLabel

end CommandRing
