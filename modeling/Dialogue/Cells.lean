import Dialogue.Datum
import Dialogue.Text.Quoted

/-! # Lists that change

A list of data with a generation number. Every insertion and removal starts a new generation, so
that whoever walks over the list can tell whether it still is the list they set out on
(`Dialogue.Cells.Cursor`). Overwriting a cell changes no generation. -/

namespace Dialogue

/-- Why a cell cannot be reached. -/
inductive AccessFault where
  /-- There is no cell at the index. -/
  | outOfRange (index : Int) (length : Nat)
  /-- The list has changed under a cursor. -/
  | stale (list : Option String)
  deriving DecidableEq

namespace AccessFault

def message : AccessFault → String
  | .outOfRange index length => s!"Index {index} out of range for list of length {length}"
  | .stale list =>
    let name := Text.quoted (list.getD "<anonymous>")
    s!"cursor used on {name} after a structural mutation"

end AccessFault

/-- An index as messages show it: a signed number, so the upper half of the range is negative. -/
def signedIndex (index : UInt64) : Int := index.toInt64.toInt

structure Cells where
  name : Option String := none
  data : List Datum := []
  generation : UInt64 := 0

namespace Cells

def ofWords (name : String) (ws : List Word) : Cells :=
  { name := some name, data := ws.map .word }

def length (l : Cells) : Nat := l.data.length

/-- The list with other cells, in its next generation. -/
def renewed (l : Cells) (data : List Datum) : Cells :=
  { l with data := data, generation := l.generation + 1 }

/-- The cell at an index. -/
def cellAt (l : Cells) (index : UInt64) : Except AccessFault Datum :=
  match l.data[index.toNat]? with
  | some d => .ok d
  | none => .error (.outOfRange (signedIndex index) l.length)

def pushFront (l : Cells) (d : Datum) : Cells := l.renewed (d :: l.data)

def pushBack (l : Cells) (d : Datum) : Cells := l.renewed (l.data ++ [d])

/-- Takes the first cell off; nothing happens to an empty list. -/
def popFront (l : Cells) : Option Datum × Cells :=
  match l.data with
  | [] => (none, l)
  | d :: ds => (some d, l.renewed ds)

/-- Takes the last cell off; nothing happens to an empty list. -/
def popBack (l : Cells) : Option Datum × Cells :=
  match l.data.getLast? with
  | none => (none, l)
  | some d => (some d, l.renewed l.data.dropLast)

/-- Takes the first `n` cells off, or as many as there are; taking none changes nothing. -/
def popFrontN (l : Cells) (n : Nat) : List Datum × Cells :=
  if min n l.length = 0 then ([], l) else (l.data.take n, l.renewed (l.data.drop n))

theorem length_popFrontN (l : Cells) (n : Nat) : (l.popFrontN n).2.length = l.length - n := by
  unfold popFrontN
  split
  · simp only [length] at *
    omega
  · simp [renewed, length]

/-- Drops the cells from an index on; dropping none changes nothing. -/
def truncateFrom (l : Cells) (index : Nat) : Cells :=
  if index < l.length then l.renewed (l.data.take index) else l

def clear (l : Cells) : Cells := if l.data.isEmpty then l else l.renewed []

/-- Replaces the whole contents, which is a new generation even if they stay the same. -/
def assign (l : Cells) (data : List Datum) : Cells := l.renewed data

/-- Puts a cell at an index; the cells from there on move up. -/
def insert (l : Cells) (index : Nat) (d : Datum) : Cells := l.renewed (l.data.insertIdx index d)

/-- Overwrites a cell. -/
def overwrite (l : Cells) (index : Nat) (d : Datum) : Cells :=
  { l with data := l.data.set index d }

/-- The words among the cells. -/
def words (l : Cells) : List Word := Datum.words l.data

/-- The cells, separated by spaces. -/
def line (l : Cells) : String := Datum.line l.data

/-- The written form of the list. -/
def text (l : Cells) : String := (Datum.list l.data).text

end Cells

end Dialogue
