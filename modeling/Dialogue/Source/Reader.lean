import Dialogue.Datum
import Dialogue.Source.Token

/-! # Reading lists

A reader takes the lists of a source one at a time. A fault leaves it where it was found: behind the
offending token inside a list, and in front of it at top level. -/

namespace Dialogue.Source

/-- A list that is not closed yet, its cells newest first. -/
structure OpenList where
  place : Span
  cells : List Datum

namespace OpenList

def push (l : OpenList) (d : Datum) : OpenList := { l with cells := d :: l.cells }

def close (l : OpenList) : List Datum := l.cells.reverse

end OpenList

/-- Fills the open list `inner`, which lies in the open lists `outer`, up to the end of the
outermost of them. -/
def fill (outer : List OpenList) (inner : OpenList) :
    List Lexeme → Except Fault (List Datum) × List Lexeme
  | [] => (.error (.unclosed inner.place), [])
  | ⟨token, place⟩ :: rest =>
    match token with
    | .opening => fill (inner :: outer) ⟨place, []⟩ rest
    | .closing =>
      match outer with
      | [] => (.ok inner.close, rest)
      | next :: outer => fill outer (next.push (.list inner.close)) rest
    | .equals => fill outer (inner.push (.ofText "=")) rest
    | .word text => fill outer (inner.push (.ofText text)) rest
    | .number (some n) => fill outer (inner.push (.number n)) rest
    | .number none => (.error (.hugeNumber place), rest)
    | .finish => (.error (.unclosed inner.place), rest)

theorem fill_length_le (outer : List OpenList) (inner : OpenList) (ts : List Lexeme) :
    (fill outer inner ts).2.length ≤ ts.length := by
  fun_induction fill outer inner ts <;> simp_all <;> omega

/-- What is left to read of a source. -/
structure Reader where
  rest : List Lexeme

namespace Reader

/-- A reader at the start of a source that can be cut into tokens. -/
def ofSource (source : String) : Except Fault Reader := (tokenize source).map Reader.mk

/-- Nothing but the end of the source is left. -/
def atEnd (r : Reader) : Bool :=
  match r.rest with
  | [] => true
  | x :: _ => x.token == .finish

/-- The place of the next token. -/
def place (r : Reader) : Span :=
  match r.rest with
  | [] => .nowhere
  | x :: _ => x.place

/-- Reads the next list; there is none at the end of the source. -/
def next (r : Reader) : Except Fault (Option (List Datum)) × Reader :=
  match r.rest with
  | [] => (.ok none, r)
  | x :: rest =>
    match x.token with
    | .finish => (.ok none, r)
    | .opening =>
      let (cells, rest) := fill [] ⟨x.place, []⟩ rest
      (cells.map some, ⟨rest⟩)
    | _ => (.error (.notAList x.place), r)

theorem length_next_lt {r r' : Reader} {cells : List Datum} (h : r.next = (.ok (some cells), r')) :
    r'.rest.length < r.rest.length := by
  unfold next at h
  split at h
  · simp at h
  · rename_i x rest hr
    split at h
    · simp at h
    · have := fill_length_le [] ⟨x.place, []⟩ rest
      simp only [Prod.mk.injEq] at h
      rw [← h.2, hr]
      simp only [List.length_cons]
      omega
    · simp at h

/-- The lists from here on up to the first fault, and that fault if there is one. -/
def lists (r : Reader) : List (List Datum) × Option Fault :=
  match _h : r.next with
  | (.ok none, _) => ([], none)
  | (.error fault, _) => ([], some fault)
  | (.ok (some cells), r') =>
    let (more, fault) := r'.lists
    (cells :: more, fault)
termination_by r.rest.length
decreasing_by exact length_next_lt _h

/-- Every list from here on. -/
def all (r : Reader) : Except Fault (List (List Datum)) :=
  match r.lists with
  | (ls, none) => .ok ls
  | (_, some fault) => .error fault

end Reader

/-- Reads a source that holds one list and nothing else. -/
def readOne (source : String) : Except Fault (List Datum) := do
  let (cells, after) := (← Reader.ofSource source).next
  match ← cells with
  | none => .error .noList
  | some cells => if after.atEnd then .ok cells else .error (.trailing after.place)

end Dialogue.Source
