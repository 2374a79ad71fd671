import Dialogue.Conversation
import Dialogue.Script.Catalogue
import Dialogue.Settings.Reading
import Dialogue.Source.Excerpt
import Dialogue.Text.Quoted

/-! # Failures

Why a command fails. A report of a failure says what could not be done and lists what that was
caused by, nearest cause first. -/

namespace Dialogue

/-- Why a file cannot be read. -/
inductive FileFault where
  /-- The system refuses, for a reason that has a number. -/
  | refused (code : Nat) (reason : String)
  | notUtf8
  deriving DecidableEq

namespace FileFault

def missing : FileFault := .refused 2 "No such file or directory"

def notDirectory : FileFault := .refused 20 "Not a directory"

def isDirectory : FileFault := .refused 21 "Is a directory"

def nameTooLong : FileFault := .refused 36 "File name too long"

def message : FileFault → String
  | .refused code reason => s!"{reason} (os error {code})"
  | .notUtf8 => ReadFault.notUtf8.message

end FileFault

inductive Failure where
  | settingsFile (path : String) (f : FileFault)
  | settings (path : String) (f : SettingsFault)
  | scriptFile (name : String) (f : FileFault)
  | script (name source : String) (f : ScriptFault)
  | linesFile (path : String) (f : FileFault)
  /-- A conversation has been broken off. -/
  | conversation (f : ReadFault)

/-- The message of a broken conversation. -/
def ReadFault.complaint (f : ReadFault) : String := "Console I/O failed: " ++ f.message

def SettingsFault.message : SettingsFault → String
  | .illFormed => "Failed to parse YAML"
  | .unfit u => u.message

/-- What is wrong with a script, shown at its place in the source if it has one. -/
def ScriptFault.explanation (source : String) : ScriptFault → String
  | .source f => Text.trimEnd (f.excerpt source)
  | f => f.message

namespace Failure

def headline : Failure → String
  | .settingsFile file _ | .settings file _ =>
    "Failed to load configuration from " ++ Text.quoted file
  | .scriptFile name _ =>
    let names := ", ".intercalate (Script.catalogue.map Prod.fst)
    "No builtin script named " ++ Text.quoted name ++ " and failed to read " ++ Text.quoted name ++
      " (builtin: " ++ names ++ ")"
  | .script name .. => "Failed to load script " ++ Text.quoted name
  | .linesFile file _ => "Failed to read input file " ++ Text.quoted file
  | .conversation _ => "Conversation aborted"

/-- What a failure was caused by, nearest cause first. -/
def causes : Failure → List String
  | .settingsFile _ f => ["Failed to read config file: " ++ f.message, f.message]
  | .settings _ f => [f.message]
  | .scriptFile _ f | .linesFile _ f => [f.message]
  | .script _ source f => [f.explanation source]
  | .conversation f => [f.complaint, f.message]

/-- A cause behind its mark; the lines after its first are moved as far as the mark is wide. -/
def entry (mark cause : String) : String :=
  let indent := String.ofList (List.replicate mark.length ' ')
  mark ++ ("\n" ++ indent).intercalate (cause.splitOn "\n") ++ "\n"

/-- The causes as they are listed: several causes are numbered from zero. -/
def listing : List String → List String
  | [cause] => [entry "    " cause]
  | causes =>
    causes.mapIdx fun n cause =>
      let number := String.ofList ((toString n).toList.leftpad 5 ' ')
      entry (number ++ ": ") cause

def report (f : Failure) : String :=
  "Error: " ++ f.headline ++ "\n\nCaused by:\n" ++ String.join (listing f.causes)

end Failure

end Dialogue
