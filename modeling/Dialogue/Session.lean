import Dialogue.Cells.Cursor
import Dialogue.Script
import Dialogue.Settings

/-! # Sessions

A session is a conversation in progress: what it was started with, the table with the turns of its
rules, the sentences remembered for later, and the scratch state of the current turn. A turn passes
through stages (`Dialogue.Session.Transition`). -/

namespace Dialogue

/-- Where a turn stands. -/
inductive Stage where
  /-- Waiting for a line. -/
  | await
  /-- Looking whether the line is a command. -/
  | vet
  /-- Looking for keywords. -/
  | scan
  /-- There was no keyword. -/
  | fallBack
  /-- There was a keyword. -/
  | dispatch
  /-- Trying the items of an entry, from one on. -/
  | decompose (entry : EntryRef) (item : Nat)
  /-- Replying with a rule that has cut the input into groups. -/
  | reassemble (entry : EntryRef) (item : Nat) (groups : List (List Word))
  /-- Nothing applied. -/
  | acknowledge
  /-- Saying goodbye. -/
  | close
  | halted
  deriving DecidableEq

/-- The entry chosen by a scan and the precedence it was chosen for. -/
structure Selection where
  entry : EntryRef
  precedence : UInt32
  deriving DecidableEq

structure Session where
  settings : Settings
  greeting : List Datum
  table : Table
  memory : Option MemoryRules
  /-- Remembered sentences, oldest first. -/
  memories : List (List Word) := []
  /-- The words of the line, as far as they have been kept and substituted. -/
  input : Cells := Cells.ofWords "INPUT" []
  /-- A line that has not been looked at. -/
  pending : Option String := none
  selection : Option Selection := none
  /-- Counts turns from 1 to 4 and from 1 again. -/
  rotation : Nat := 1
  /-- The links followed within the turn. -/
  redirects : Nat := 0
  /-- What has been said and not been collected, oldest first. -/
  outbox : List String := []
  finished : Bool := false

namespace Session

/-- A session that has not begun. -/
def start (script : Script) (settings : Settings) : Session where
  settings := settings
  greeting := script.greeting
  table := script.table
  memory := script.memory

/-- The line that opens the conversation. -/
def opening (s : Session) : String := Datum.line s.greeting

def emit (s : Session) (line : String) : Session := { s with outbox := s.outbox ++ [line] }

end Session

end Dialogue
