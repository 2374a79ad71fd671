import Dialogue.Cells.Slot

/-! # Walking over a list

A cursor is a position in a list, which it does not hold: the list is given to it at every step. The
cells have the positions from 0 on; `-1` is the header, a place in front of the first cell, and any
position from the length on is past the end. A cursor remembers the generation of the list it was
set on and refuses to work on any other. -/

namespace Dialogue

structure Cursor where
  position : Int
  generation : UInt64
  deriving DecidableEq

/-- What a cursor finds where it stands. -/
inductive Reading where
  | cell (d : Datum)
  | past
  | header

namespace Reading

/-- The sign of a reading: zero on a cell, positive past the end, negative on the header. -/
def sign : Reading → Int
  | .cell _ => 0
  | .past => 1
  | .header => -1

def cell? : Reading → Option Datum
  | .cell d => some d
  | _ => none

end Reading

namespace Cursor

/-- A cursor on the header of a list. -/
def onHeader (l : Cells) : Cursor := ⟨-1, l.generation⟩

/-- The index of the cell the cursor is on, if it is on one. -/
def index? (c : Cursor) (l : Cells) : Option Nat :=
  if 0 ≤ c.position ∧ c.position < l.length then some c.position.toNat else none

theorem lt_of_index? {c : Cursor} {l : Cells} {i : Nat} (h : c.index? l = some i) :
    c.position = i ∧ i < l.length := by
  unfold index? at h
  split at h <;> simp at h
  omega

/-- The list has not changed since the cursor was set on it. -/
def fits (c : Cursor) (l : Cells) : Bool := c.generation == l.generation

def read (c : Cursor) (l : Cells) : Reading :=
  if c.position < 0 then .header
  else match l.data[c.position.toNat]? with
    | some d => .cell d
    | none => .past

/-- Refuses a list that the cursor does not fit. -/
def checked {α : Type} (c : Cursor) (l : Cells) (a : α) : Except AccessFault α :=
  if c.fits l then .ok a else .error (.stale l.name)

/-- One position on, but not beyond the end. -/
def advanced (c : Cursor) (l : Cells) : Cursor :=
  if c.position < l.length then { c with position := c.position + 1 } else c

/-- One position back, but not beyond the header. -/
def retreated (c : Cursor) (l : Cells) : Cursor :=
  if -1 < c.position then { c with position := min c.position l.length - 1 } else c

/-- Moves on, then reads. -/
def forward (c : Cursor) (l : Cells) : Except AccessFault (Reading × Cursor) :=
  c.checked l ((c.advanced l).read l, c.advanced l)

/-- A move that leads onto a cell goes on by one. -/
theorem position_of_read_cell {c : Cursor} {l : Cells} {d : Datum}
    (h : (c.advanced l).read l = .cell d) :
    (c.advanced l).position = c.position + 1 ∧ (c.advanced l).position < l.length := by
  have hlt : (c.advanced l).position < l.length := by
    unfold read at h
    split at h
    · cases h
    · split at h
      · rename_i hd
        have := (List.getElem?_eq_some_iff.1 hd).1
        simp only [Cells.length]
        omega
      · cases h
  refine ⟨?_, hlt⟩
  unfold advanced at hlt ⊢
  split <;> simp_all

/-- Reads, then moves back. -/
def backward (c : Cursor) (l : Cells) : Except AccessFault (Reading × Cursor) :=
  c.checked l (c.read l, c.retreated l)

def current (c : Cursor) (l : Cells) : Except AccessFault Reading := c.checked l (c.read l)

/-- A cursor on the cell at an index, or past the end if there is none. The index is read as a
signed number, so the upper half of the range lies in front of the header. -/
def onto (l : Cells) (index : UInt64) : Cursor :=
  ⟨min (signedIndex index) l.length, l.generation⟩

/-- The slot of the cell the cursor is on. -/
def slot (c : Cursor) (l : Cells) : Except AccessFault Slot :=
  if c.fits l then
    if h : 0 ≤ c.position ∧ c.position < l.data.length then
      .ok ⟨l, c.position.toNat, by omega⟩
    else .error (.outOfRange c.position l.length)
  else .error (.stale l.name)

end Cursor

end Dialogue
