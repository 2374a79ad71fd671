import Dialogue.Script.Catalogue

/-! # Commands

What the program can be asked to do on its command line, and what it answers. -/

namespace Dialogue

/-- How to hold a conversation. -/
structure Play where
  /-- The file to read the settings from, if not the defaults. -/
  config : Option String := none
  /-- The name of a script of the catalogue, or else of a file. -/
  script : String := Script.standardName
  /-- The file with lines to read before those of the user. -/
  file : Option String := none
  /-- Whether the transcript is shown in the end. -/
  recap : Bool := false
  deriving DecidableEq

inductive Command where
  | play (p : Play)
  /-- Show the summary of a script, possibly as JSON. -/
  | dump (script : String) (json : Bool)
  /-- List the catalogue. -/
  | scripts
  deriving DecidableEq

/-- What a command line comes to. -/
inductive Request where
  | command (c : Command)
  | help
  | version
  /-- The command line is not understood. -/
  | misuse
  deriving DecidableEq

/-- What a run of the program leaves behind. -/
structure Outcome where
  status : Nat := 0
  output : String := ""
  /-- Why the run failed, if it did. -/
  report : Option String := none
  deriving DecidableEq

/-- The files that a script is read from: none if it is in the catalogue. -/
def scriptFiles (name : String) : List String :=
  if (Script.builtin? name).isSome then [] else [name]

/-- The files that a command reads. -/
def Command.files : Command → List String
  | .play p => p.config.toList ++ scriptFiles p.script ++ p.file.toList
  | .dump script _ => scriptFiles script
  | .scripts => []

end Dialogue
