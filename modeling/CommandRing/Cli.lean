import CommandRing.Cli.LayoutDump
import CommandRing.Device.Listing

/-!
# The command line

Arguments are read from the left, and the first that decides the outcome wins: a request for help or
for the version, or something that has no place where it stands. Behind `--` every argument is a plain
word. Usage errors end with code 2, commands that fail with code 1; neither prints to standard output.
-/

namespace CommandRing.Cli

inductive Subcommand where
  | layout
  | list
  | inspect
  | tur
  | help
deriving DecidableEq

namespace Subcommand

def all : List Subcommand := [layout, list, inspect, tur, help]

def name : Subcommand → String
  | layout => "layout"
  | list => "list"
  | inspect => "inspect"
  | tur => "tur"
  | help => "help"

def summary : Subcommand → String
  | layout => "Hexdump the shared structures as this build lays them out"
  | list => "List tcm-user UIO devices"
  | inspect => "Print a device's mailbox and ring geometry without touching the ring"
  | tur => "Send one TEST UNIT READY through the ring"
  | help => "Print this message or the help of the given subcommand(s)"

def ofName? (word : String) : Option Subcommand := all.find? fun s => s.name == word

def takesDevice : Subcommand → Bool
  | inspect | tur => true
  | layout | list | help => false

end Subcommand

inductive Invocation where
  | layout
  | list
  | inspect (device : String)
  | tur (device : String)
  | version
  | help (about : Option Subcommand)
  | badUsage
deriving DecidableEq

/-- How one argument in front of any `--` reads. -/
inductive Argument where
  | help
  | version
  /-- The two dashes behind which all arguments are plain words. -/
  | separator
  | unknownFlag
  | word (text : String)
deriving DecidableEq

/-- Reads one argument. Of flags written together the first letter decides, and a single dash is a
word. -/
def Argument.ofString (arg : String) : Argument :=
  match arg.toList with
  | ['-', '-'] => separator
  | '-' :: '-' :: _ =>
    if arg = "--help" then help else if arg = "--version" then version else unknownFlag
  | '-' :: 'h' :: _ => help
  | '-' :: 'V' :: _ => version
  | '-' :: _ :: _ => unknownFlag
  | _ => word arg

/-- What a subcommand asks for once its arguments were all read: the device it was given, if any. -/
def Subcommand.invocation : Subcommand → Option String → Invocation
  | layout, none => .layout
  | list, none => .list
  | inspect, some device => .inspect device
  | tur, some device => .tur device
  | _, _ => .badUsage

/-- Reads the arguments of a subcommand; `device` is the word read so far, and `plain` says that `--`
was passed. -/
def readArguments (s : Subcommand) (plain : Bool) (device : Option String) :
    List String → Invocation
  | [] => s.invocation device
  | arg :: rest =>
    match if plain then .word arg else Argument.ofString arg with
    | .help => .help (some s)
    | .version | .unknownFlag => .badUsage
    | .separator => readArguments s true device rest
    | .word text =>
      if s.takesDevice ∧ device = none then readArguments s plain (some text) rest else .badUsage

def readHelp : List String → Invocation
  | [] => .help none
  | [word] =>
    match Subcommand.ofName? word with
    | none => .badUsage
    | some s => .help (some s)
  | _ => .badUsage

def Invocation.ofArguments : List String → Invocation
  | [] => .badUsage
  | arg :: rest =>
    match Argument.ofString arg with
    | .help => .help none
    | .version => .version
    | .separator | .unknownFlag => .badUsage
    | .word text =>
      match Subcommand.ofName? text with
      | none => .badUsage
      | some .help => readHelp rest
      | some s => readArguments s false none rest

/-! ## Help -/

/-- Two columns, the first as wide as its widest cell. -/
def table (rows : List (String × String)) : List String :=
  let width := (rows.map fun r => r.1.length).foldl max 0
  rows.map fun r => "  " ++ r.1 ++ String.ofList (List.replicate (width - r.1.length) ' ') ++
    "  " ++ r.2

/-- Paragraphs with an empty line between two of them. -/
def paragraphs (ps : List (List String)) : String :=
  "\n\n".intercalate (ps.map "\n".intercalate) ++ "\n"

def versionText : String := "tcmu-ring 0.1.0\n"

def programHelp : String :=
  paragraphs [
    ["Inspect and exercise TCMU command rings"],
    ["Usage: tcmu-ring <COMMAND>"],
    "Commands:" :: table (Subcommand.all.map fun s => (s.name, s.summary)),
    "Options:" :: table [("-h, --help", "Print help"), ("-V, --version", "Print version")]]

def Subcommand.helpText (s : Subcommand) : String :=
  let options := "Options:" :: table [("-h, --help", "Print help")]
  let usage := "Usage: tcmu-ring " ++ s.name
  paragraphs (match s with
    | .layout | .list => [[s.summary], [usage], options]
    | .inspect | .tur =>
      [[s.summary], [usage ++ " <UIO>"],
        "Arguments:" :: table [("<UIO>", "UIO device name, e.g. uio0")], options]
    | .help =>
      [[s.summary], [usage ++ " [COMMAND]..."],
        "Arguments:" :: table [("[COMMAND]...", "Print help for the subcommand(s)")]])

/-! ## Running -/

structure Output where
  code : UInt8
  text : String
deriving DecidableEq

def deviceLine (d : Device) : String :=
  d.uio ++ "\thba " ++ d.label.adapter ++ "\tvolume " ++ d.label.volume ++ "\tconfig " ++
    d.label.config ++ "\n"

/-- Runs an invocation on a system with these device folders, or with none at all. What the two commands
that touch a device do to it is not part of the library: they end with code 1, as they do for a device
that is not there. -/
def Invocation.run (folders : Option (List Folder)) : Invocation → Output
  | layout => ⟨0, LayoutDump.text {}⟩
  | list =>
    match Device.enumerate folders with
    | .ok devices => ⟨0, String.join (devices.map deviceLine)⟩
    | .error _ => ⟨1, ""⟩
  | inspect _ | tur _ => ⟨1, ""⟩
  | version => ⟨0, versionText⟩
  | help none => ⟨0, programHelp⟩
  | help (some s) => ⟨0, s.helpText⟩
  | badUsage => ⟨2, ""⟩

def run (folders : Option (List Folder)) (arguments : List String) : Output :=
  (Invocation.ofArguments arguments).run folders

end CommandRing.Cli
