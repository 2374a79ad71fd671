import Dialogue.Rule.Reading
import Dialogue.Source.Reader
import Dialogue.Table

/-! # Scripts

A script is a sequence of lists. The first is the greeting; then come entries, up to an empty list,
which ends the script. An entry headed `MEMORY` holds the memory rules and one headed `NONE` is the
entry to fall back on; of several the last counts. All others are entered into the table. -/

namespace Dialogue

structure Script where
  greeting : List Datum
  table : Table := .empty
  memory : Option MemoryRules := none

/-- Why a script cannot be loaded. -/
inductive ScriptFault where
  | source (f : Source.Fault)
  | empty
  | missingTerminator
  | malformed (m : Malformed)

def ScriptFault.message : ScriptFault → String
  | .source f => f.message
  | .empty => "Script is empty; expected a greeting list"
  | .missingTerminator => "Script ends without the terminating empty list '()'"
  | .malformed m => m.message

namespace Script

/-- The line that opens a conversation. -/
def opening (s : Script) : String := Datum.line s.greeting

/-- Adds the entry that a list stands for. -/
def add (s : Script) (cells : List Datum) : Except Malformed Script :=
  if cells.head?.any (·.isWord "NONE") then
    return { s with table := s.table.setFallback (← Entry.ofCells cells) }
  else if cells.head?.any (·.isWord "MEMORY") then
    return { s with memory := some (← MemoryRules.ofCells cells) }
  else
    return { s with table := (s.table.insert (← Entry.ofCells cells)).2 }

/-- Adds entries up to the empty list; `fault` is what stopped the reading of the lists. -/
def addAll (fault : Option Source.Fault) (s : Script) :
    List (List Datum) → Except ScriptFault Script
  | [] =>
    match fault with
    | some f => .error (.source f)
    | none => .error .missingTerminator
  | [] :: _ => .ok s
  | cells :: rest => do addAll fault (← (s.add cells).mapError .malformed) rest

/-- The script that a sequence of lists makes up. -/
def ofLists (lists : List (List Datum)) (fault : Option Source.Fault) : Except ScriptFault Script :=
  match lists with
  | [] =>
    match fault with
    | some f => .error (.source f)
    | none => .error .empty
  | [] :: _ => .error .empty
  | greeting :: rest => addAll fault { greeting := greeting } rest

def load (source : String) : Except ScriptFault Script := do
  let reader ← (Source.Reader.ofSource source).mapError .source
  let (lists, fault) := reader.lists
  ofLists lists fault

end Script

end Dialogue
