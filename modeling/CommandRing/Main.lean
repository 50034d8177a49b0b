import CommandRing.Cli

/-!
# The program

Prints what the command line decides for a system without device folders.
-/

/-- Runs the program and hands its exit code to the system. -/
def main (arguments : List String) : IO UInt32 := do
  let output := CommandRing.Cli.run none arguments
  IO.print output.text
  return output.code.toUInt32
