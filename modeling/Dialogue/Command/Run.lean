import Dialogue.Command.Arguments
import Dialogue.Command.Failure
import Dialogue.Script.Summary
import Dialogue.Text.Lines

/-! # Running commands

A command is run on the files it names and the bytes of the standard input. It fails with status 1,
and a command line that is not understood gives status 2. -/

namespace Dialogue

/-- The contents of the file with a name. -/
abbrev Files := String → Except FileFault (List UInt8)

namespace Files

/-- The text of a file. -/
def text (files : Files) (name : String) : Except FileFault String := do
  match decodeUtf8? (← files name) with
  | some text => return text
  | none => .error .notUtf8

/-- The settings that a file gives. -/
def settings (files : Files) (name : String) : Except Failure Settings := do
  let text ← (files.text name).mapError (.settingsFile name)
  (Settings.ofYaml text).mapError (.settings name)

/-- The script with a name, from the catalogue or else from a file. -/
def script (files : Files) (name : String) : Except Failure Script := do
  let source ← match Script.builtin? name with
    | some source => pure source
    | none => (files.text name).mapError (.scriptFile name)
  (Script.load source).mapError (.script name source)

/-- The console of a conversation: prepared lines, if a file has some, are echoed and come before
those of the standard input. -/
def console (files : Files) (name : Option String) (input : List UInt8) :
    Except Failure Console := do
  let stream := Console.stream input ""
  match name with
  | none => return stream
  | some name =>
    let text ← (files.text name).mapError (.linesFile name)
    return .relay (Text.lines text) true stream

end Files

def Outcome.ofFailure (f : Failure) (output : String) : Outcome :=
  { status := 1, output := output, report := some f.report }

namespace Play

/-- A conversation of which only the opening line has been written. The settings are read first,
then the script, then the prepared lines. -/
def begin (p : Play) (files : Files) (input : List UInt8) : Except Failure Conversation := do
  let settings ← match p.config with
    | none => pure {}
    | some name => files.settings name
  let script ← files.script p.script
  let console ← files.console p.file input
  return .begin (.start script settings) console

/-- What is left when a conversation has come to its end. -/
def close (p : Play) : Option ReadFault × Conversation → Outcome
  | (some fault, c) => .ofFailure (.conversation fault) c.console.output
  | (none, c) =>
    { output := c.console.output ++ if p.recap then "\n" ++ c.transcript.text else "" }

def run (p : Play) (files : Files) (input : List UInt8) : Outcome :=
  match p.begin files input with
  | .error f => .ofFailure f ""
  | .ok c => p.close c.finish

end Play

/-- Shows the summary of a script. -/
def Files.dump (files : Files) (name : String) (json : Bool) : Outcome :=
  match files.script name with
  | .error f => .ofFailure f ""
  | .ok s => { output := if json then s.summary.json.pretty 0 ++ "\n" else s.summary.text }

def Command.run (files : Files) (input : List UInt8) : Command → Outcome
  | .play p => p.run files input
  | .dump name json => files.dump name json
  | .scripts => { output := Script.listing }

namespace Request

/-- How the program is used. -/
def usage : String :=
  "Usage: eliza [OPTIONS] <COMMAND>\n\n" ++
  "Commands:\n" ++
  "  play     Hold a conversation on stdin/stdout\n" ++
  "  dump     Print the keyword table layout of a script\n" ++
  "  scripts  List the builtin scripts\n" ++
  "  help     Print this message\n\n" ++
  "Options:\n" ++
  "      --config <CONFIG>  Path to an engine configuration file (YAML)\n" ++
  "  -v, --verbose          Enable verbose logging\n" ++
  "  -h, --help             Print help\n" ++
  "  -V, --version          Print version\n"

def run (files : Files) (input : List UInt8) : Request → Outcome
  | .command c => c.run files input
  | .help => { output := usage }
  | .version => { output := "eliza 0.1.0\n" }
  | .misuse => { status := 2 }

end Request

end Dialogue
