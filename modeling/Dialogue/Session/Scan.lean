import Dialogue.Session

/-! # Scanning for keywords

The input is walked over once, from left to right. A delimiter ends the walk if a keyword has been
found, and what it parts off is dropped; otherwise what stands before it is dropped. A keyword with
a substitute is overwritten where it stands, and the walk goes on behind it, so that no substitute
is looked up again. Of the keywords with rules, the leftmost of those with the highest rank is
chosen. -/

namespace Dialogue

/-- The choice between what has been selected and another entry. -/
def Selection.choose (selected : Option Selection) (entry : EntryRef) (e : Entry) :
    Option Selection :=
  if !e.hasRules then selected
  else match selected with
    | none => some ⟨entry, e.rank⟩
    | some s => if s.precedence < e.rank then some ⟨entry, e.rank⟩ else some s

namespace Scan

/-- Writes a word over the cell under the cursor, if there is one. -/
def overwrite (cursor : Cursor) (cells : Cells) (w : Word) : Cells :=
  match cursor.index? cells with
  | some index => cells.overwrite index (.word w)
  | none => cells

theorem length_overwrite (cursor : Cursor) (cells : Cells) (w : Word) :
    (overwrite cursor cells w).length = cells.length := by
  unfold overwrite
  split
  · simp [Cells.overwrite, Cells.length]
  · rfl

/-- Looks up the word under the cursor, overwrites it if its entry says so, and selects the entry if
it beats what has been selected. -/
def visit (table : Table) (cursor : Cursor) (cells : Cells) (selected : Option Selection)
    (w : Word) : Cells × Option Selection :=
  match table.locate w with
  | none => (cells, selected)
  | some entry =>
    match table.get? entry with
    | none => (cells, selected)
    | some e =>
      match e.recognize w with
      | .miss => (cells, selected)
      | .hit => (cells, Selection.choose selected entry e)
      | .substitute replacement =>
        (overwrite cursor cells replacement, Selection.choose selected entry e)

theorem length_visit (table : Table) (cursor : Cursor) (cells : Cells) (selected : Option Selection)
    (w : Word) : (visit table cursor cells selected w).1.length = cells.length := by
  unfold visit
  split
  · rfl
  · split
    · rfl
    · split
      · rfl
      · rfl
      · exact length_overwrite _ _ _

/-- Walks on from a cursor over the cells, with what has been selected so far. A cursor that does not
fit the cells is not refused, but none is met in a scan. -/
def walk (settings : Settings) (table : Table) (cursor : Cursor) (cells : Cells)
    (selected : Option Selection) : Cells × Option Selection :=
  let next := cursor.advanced cells
  match _h : next.read cells with
  | .past | .header => (cells, selected)
  | .cell d =>
    match d.word?, _hi : next.index? cells with
    | none, _ => walk settings table next cells selected
    | some _, none => (cells, selected)
    | some w, some index =>
      if settings.isDelimiter w.text then
        if selected.isNone then
          let kept := (cells.popFrontN (index + 1)).2
          walk settings table (.onHeader kept) kept selected
        else (cells.truncateFrom index, selected)
      else
        let visited := visit table next cells selected w
        walk settings table next visited.1 visited.2
termination_by (cells.length - cursor.position).toNat
decreasing_by
  · have := Cursor.position_of_read_cell _h
    omega
  · have := Cursor.position_of_read_cell _h
    have hi : (cursor.advanced cells).position = index ∧ index < cells.length := Cursor.lt_of_index? _hi
    simp only [Cursor.onHeader, Cells.length_popFrontN]
    omega
  · have := Cursor.position_of_read_cell _h
    have := length_visit table (cursor.advanced cells) cells selected w
    omega

end Scan

end Dialogue
