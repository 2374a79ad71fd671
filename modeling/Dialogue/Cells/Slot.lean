import Dialogue.Cells

/-! # Editing at a place

A slot is a list together with one of its cells. Edits at a slot give the slot of the new cell, so
they can be chained; the cell of a slot always exists. -/

namespace Dialogue

structure Slot where
  list : Cells
  index : Nat
  index_lt : index < list.data.length

namespace Slot

def get (s : Slot) : Datum := s.list.data.get ⟨s.index, s.index_lt⟩

/-- Puts a cell in front of this one; the slot is now that of the new cell. -/
def insertBefore (s : Slot) (d : Datum) : Slot where
  list := s.list.insert s.index d
  index := s.index
  index_lt := by
    have := s.index_lt
    simp only [Cells.insert, Cells.renewed, List.length_insertIdx]
    split <;> omega

/-- Puts a cell behind this one; the slot is now that of the new cell. -/
def insertAfter (s : Slot) (d : Datum) : Slot where
  list := s.list.insert (s.index + 1) d
  index := s.index + 1
  index_lt := by
    have := s.index_lt
    simp only [Cells.insert, Cells.renewed, List.length_insertIdx]
    split <;> omega

/-- Overwrites the cell. -/
def replace (s : Slot) (d : Datum) : Slot where
  list := s.list.overwrite s.index d
  index := s.index
  index_lt := by simpa [Cells.overwrite] using s.index_lt

/-- Overwrites the cell and gives what it held. -/
def exchange (s : Slot) (d : Datum) : Datum × Slot := (s.get, s.replace d)

end Slot

/-- The slot of the cell at an index. -/
def Cells.slot (l : Cells) (index : UInt64) : Except AccessFault Slot :=
  if h : index.toNat < l.data.length then .ok ⟨l, index.toNat, h⟩
  else .error (.outOfRange (signedIndex index) l.length)

end Dialogue
