import Dialogue.Proofs.Table
import Dialogue.Session.Scan

/-!
# The walk over an input of words

`Scan.Walks` relates what a walk starts with to what it ends with, and has a rule only for the steps
that a walk is meant to make: there is none for a cursor that does not fit its list, for a cell that
is no word, or for an entry that is found and then cannot be read or does not know the word. Over
words a walk always ends by these rules (`walks_of_words`), as the function on lists that
`Scan.sweep` is.
-/

namespace Dialogue

namespace Cursor

/-- The cursor in front of the cell `n`. -/
def before (l : Cells) (n : Nat) : Cursor := ⟨n - 1, l.generation⟩

variable {l : Cells} {n : Nat}

theorem forward_before_of_lt (h : n < l.data.length) :
    (before l n).forward l = .ok (.cell l.data[n], before l (n + 1)) := by
  have hn : (before l n).position < l.length := by simp only [before, Cells.length]; omega
  have hp : ¬ ((n : Int) - 1 + 1 < 0) := by omega
  have hi : ((n : Int) - 1 + 1).toNat = n := by omega
  simp only [forward, checked, fits, advanced, if_pos hn]
  simp only [before, beq_self_eq_true, if_true, read, hp, if_false, hi, List.getElem?_eq_getElem h]
  congr 4; omega

theorem forward_before_of_eq (h : n = l.data.length) :
    ∃ next, (before l n).forward l = .ok (.past, next) := by
  have hn : (before l n).position < l.length := by simp only [before, Cells.length]; omega
  have hp : ¬ ((n : Int) - 1 + 1 < 0) := by omega
  have hi : ((n : Int) - 1 + 1).toNat = n := by omega
  simp only [forward, checked, fits, advanced, if_pos hn]
  simp only [before, beq_self_eq_true, if_true, read, hp, if_false, hi,
    List.getElem?_eq_none (Nat.le_of_eq h.symm)]
  exact ⟨_, rfl⟩

theorem advanced_of_forward {c next : Cursor} {r : Reading} (h : c.forward l = .ok (r, next)) :
    c.advanced l = next ∧ next.read l = r := by
  unfold forward checked at h
  split at h <;> cases h
  exact ⟨rfl, rfl⟩

theorem index?_before (h : n < l.data.length) : (before l (n + 1)).index? l = some n := by
  rw [index?, if_pos (by simp only [before, Cells.length]; omega)]
  simp only [before, Option.some.injEq]
  omega

theorem slot_before (h : n < l.data.length) : (before l (n + 1)).slot l = .ok ⟨l, n, h⟩ := by
  have hp : 0 ≤ (before l (n + 1)).position ∧ (before l (n + 1)).position < l.data.length := by
    simp only [before]; omega
  rw [slot, if_pos (by simp [fits, before]), dif_pos hp]
  congr 2
  simp only [before]; omega

end Cursor

namespace Scan

variable {settings : Settings} {table : Table}

/-- The cursor moves on to the word `w`, which is the cell `i` of the list. -/
structure Meets (c : Cursor) (l : Cells) (w : Word) (i : Nat) (next : Cursor) : Prop where
  forward : c.forward l = .ok (.cell (.word w), next)
  index : next.index? l = some i

/-- A walk from a cursor over a list, with what has been selected, to the list and the selection that
it ends with. -/
inductive Walks (settings : Settings) (table : Table) :
    Cursor → Cells → Option Selection → Cells → Option Selection → Prop
  | ended {c next : Cursor} {l : Cells} {selected : Option Selection}
      (h : c.forward l = .ok (.past, next)) : Walks settings table c l selected l selected
  /-- What stands before a delimiter is dropped while nothing is selected. -/
  | dropped {c next : Cursor} {l l' : Cells} {selected' : Option Selection} {w : Word} {i : Nat}
      (hm : Meets c l w i next) (hd : settings.isDelimiter w.text)
      (rest : Walks settings table (.onHeader (l.popFrontN (i + 1)).2) (l.popFrontN (i + 1)).2 none
        l' selected') : Walks settings table c l none l' selected'
  | cut {c next : Cursor} {l : Cells} {s : Selection} {w : Word} {i : Nat}
      (hm : Meets c l w i next) (hd : settings.isDelimiter w.text) :
      Walks settings table c l (some s) (l.truncateFrom i) (some s)
  | passed {c next : Cursor} {l l' : Cells} {selected selected' : Option Selection} {w : Word}
      {i : Nat} (hm : Meets c l w i next) (hd : ¬ settings.isDelimiter w.text)
      (hl : table.locate w = none) (rest : Walks settings table next l selected l' selected') :
      Walks settings table c l selected l' selected'
  | hit {c next : Cursor} {l l' : Cells} {selected selected' : Option Selection} {w : Word}
      {i : Nat} {r : EntryRef} {e : Entry} (hm : Meets c l w i next)
      (hd : ¬ settings.isDelimiter w.text) (hl : table.locate w = some r)
      (he : table.get? r = some e) (hr : e.recognize w = .hit)
      (rest : Walks settings table next l (Selection.choose selected r e) l' selected') :
      Walks settings table c l selected l' selected'
  | substituted {c next : Cursor} {l l' : Cells} {selected selected' : Option Selection}
      {w v : Word} {i : Nat} {r : EntryRef} {e : Entry} {slot : Slot} (hm : Meets c l w i next)
      (hd : ¬ settings.isDelimiter w.text) (hl : table.locate w = some r)
      (he : table.get? r = some e) (hr : e.recognize w = .substitute v)
      (hs : next.slot l = .ok slot)
      (rest : Walks settings table next (slot.replace (.word v)).list
        (Selection.choose selected r e) l' selected') :
      Walks settings table c l selected l' selected'

/-- One round of the walk, without the evidence that it gets nearer to the end. -/
theorem walk_eq (settings : Settings) (table : Table) (c : Cursor) (l : Cells)
    (selected : Option Selection) :
    walk settings table c l selected =
      match (c.advanced l).read l with
      | .past | .header => (l, selected)
      | .cell d =>
        match d.word?, (c.advanced l).index? l with
        | none, _ => walk settings table (c.advanced l) l selected
        | some _, none => (l, selected)
        | some w, some index =>
          if settings.isDelimiter w.text then
            if selected.isNone then
              walk settings table (.onHeader (l.popFrontN (index + 1)).2) (l.popFrontN (index + 1)).2
                selected
            else (l.truncateFrom index, selected)
          else
            walk settings table (c.advanced l) (visit table (c.advanced l) l selected w).1
              (visit table (c.advanced l) l selected w).2 := by
  rw [walk]
  split <;> simp_all
  split <;> simp_all

theorem walk_of_meets {c next : Cursor} {l : Cells} {w : Word} {i : Nat} (hm : Meets c l w i next)
    (selected : Option Selection) :
    walk settings table c l selected =
      if settings.isDelimiter w.text then
        if selected.isNone then
          walk settings table (.onHeader (l.popFrontN (i + 1)).2) (l.popFrontN (i + 1)).2 selected
        else (l.truncateFrom i, selected)
      else
        walk settings table next (visit table next l selected w).1 (visit table next l selected w).2 := by
  obtain ⟨hnext, hread⟩ := Cursor.advanced_of_forward hm.forward
  rw [walk_eq, hnext, hread]
  simp only [Datum.word?, hm.index]

theorem overwrite_of_slot {c : Cursor} {l : Cells} {slot : Slot} (h : c.slot l = .ok slot) (w : Word) :
    overwrite c l w = (slot.replace (.word w)).list := by
  unfold Cursor.slot at h
  split at h
  · split at h
    · rename_i hi
      cases h
      rw [overwrite, Cursor.index?, if_pos (show 0 ≤ c.position ∧ c.position < l.length from hi)]
      rfl
    · cases h
  · cases h

/-- The walk goes by the rules where they lead to an end. -/
theorem Walks.walk_eq {c : Cursor} {l l' : Cells} {selected selected' : Option Selection}
    (h : Walks settings table c l selected l' selected') :
    walk settings table c l selected = (l', selected') := by
  induction h with
  | ended h =>
    obtain ⟨hnext, hread⟩ := Cursor.advanced_of_forward h
    rw [Scan.walk_eq, hnext, hread]
  | dropped hm hd _ ih => rw [walk_of_meets hm, if_pos hd, if_pos (by rfl), ih]
  | cut hm hd => rw [walk_of_meets hm, if_pos hd, if_neg (by simp)]
  | passed hm hd hl _ ih =>
    rw [walk_of_meets hm, if_neg hd, ← ih]
    simp only [visit, hl]
  | hit hm hd hl he hr _ ih =>
    rw [walk_of_meets hm, if_neg hd, ← ih]
    simp only [visit, hl, he, hr]
  | substituted hm hd hl he hr hs _ ih =>
    rw [walk_of_meets hm, if_neg hd, ← ih]
    simp only [visit, hl, he, hr, overwrite_of_slot hs]

/-! ### Over words -/

/-- The entry of a word, with its place. -/
def entryOf (table : Table) (w : Word) : Option (EntryRef × Entry) := do
  let r ← table.locate w
  return (r, ← table.get? r)

theorem entryOf_eq_none {w : Word} (h : table.locate w = none) : entryOf table w = none := by
  simp [entryOf, h]

theorem entryOf_eq_some_iff {w : Word} {r : EntryRef} {e : Entry} :
    entryOf table w = some (r, e) ↔ table.locate w = some r ∧ table.get? r = some e := by
  unfold entryOf
  cases hl : table.locate w with
  | none => simp
  | some q =>
    cases he : table.get? q with
    | none => simp only [Option.bind_eq_bind, Option.bind_some, he, Option.bind_none]; grind
    | some e' => simp only [Option.bind_eq_bind, Option.bind_some, he, Option.pure_def]; grind

/-- What a walk over words keeps and selects: `kept` are the words it has kept so far, in their
clause. -/
def sweep (settings : Settings) (table : Table) (kept : List Word) (selected : Option Selection) :
    List Word → List Word × Option Selection
  | [] => (kept, selected)
  | w :: rest =>
    if settings.isDelimiter w.text then
      if selected.isNone then sweep settings table [] none rest else (kept, selected)
    else
      match entryOf table w with
      | none => sweep settings table (kept ++ [w]) selected rest
      | some (r, e) =>
        sweep settings table (kept ++ [e.substitute.getD w]) (Selection.choose selected r e) rest

theorem recognize_hit {e : Entry} {w : Word} (h : e.keyword ≈ w) (hs : e.substitute = none) :
    e.recognize w = .hit := by
  rw [Entry.recognize, if_pos h, hs]

theorem recognize_substitute {e : Entry} {w v : Word} (h : e.keyword ≈ w)
    (hs : e.substitute = some v) : e.recognize w = .substitute v := by
  rw [Entry.recognize, if_pos h, hs]

section
variable {l : Cells} {kept rest : List Word} {w : Word}

theorem length_lt_of_data (h : l.data = (kept ++ w :: rest).map .word) :
    kept.length < l.data.length := by
  simp [h]

theorem data_popFrontN (h : l.data = (kept ++ w :: rest).map .word) :
    (l.popFrontN (kept.length + 1)).2.data = rest.map .word := by
  have hlt := length_lt_of_data h
  have hne : ¬ min (kept.length + 1) l.length = 0 := by
    simp only [Cells.length]; omega
  rw [Cells.popFrontN, if_neg hne, Cells.renewed, h, ← List.map_drop, List.drop_append]
  simp

theorem data_truncateFrom (h : l.data = (kept ++ w :: rest).map .word) :
    (l.truncateFrom kept.length).data = kept.map .word := by
  rw [Cells.truncateFrom, if_pos (show kept.length < l.length from length_lt_of_data h),
    Cells.renewed, h, ← List.map_take, List.take_left]

theorem data_replace (h : l.data = (kept ++ w :: rest).map .word) (v : Word) :
    (Slot.replace ⟨l, kept.length, length_lt_of_data h⟩ (.word v)).list.data =
      ((kept ++ [v]) ++ rest).map .word := by
  simp [Slot.replace, Cells.overwrite, h]

theorem meets_of_data (h : l.data = (kept ++ w :: rest).map .word) :
    Meets (.before l kept.length) l w kept.length (.before l (kept.length + 1)) := by
  have hlt := length_lt_of_data h
  refine ⟨?_, Cursor.index?_before hlt⟩
  rw [Cursor.forward_before_of_lt hlt]
  simp [h]

end

/-- Over words, a walk goes by the rules to its end. -/
theorem walks_of_words (kept rest : List Word) (selected : Option Selection) {l : Cells}
    (h : l.data = (kept ++ rest).map .word) :
    ∃ l', Walks settings table (.before l kept.length) l selected l'
        (sweep settings table kept selected rest).2 ∧
      l'.data = (sweep settings table kept selected rest).1.map .word := by
  induction rest generalizing kept selected l with
  | nil =>
    obtain ⟨next, hn⟩ := Cursor.forward_before_of_eq (l := l) (n := kept.length) (by simp [h])
    exact ⟨l, .ended hn, by simpa [sweep] using h⟩
  | cons w rest ih =>
    have hm := meets_of_data h
    rw [sweep]
    by_cases hd : settings.isDelimiter w.text
    · rw [if_pos hd]
      cases selected with
      | none =>
        -- the clause is dropped and the walk starts again on what is left
        obtain ⟨l', hw, hl'⟩ := ih [] none (data_popFrontN h)
        exact ⟨l', .dropped hm hd hw, hl'⟩
      | some s => exact ⟨_, .cut hm hd, data_truncateFrom h⟩
    · rw [if_neg hd]
      cases hl : table.locate w with
      | none =>
        obtain ⟨l', hw, hl'⟩ := ih (kept ++ [w]) selected (l := l) (by simp [h])
        rw [List.length_append] at hw
        rw [entryOf_eq_none hl]
        exact ⟨l', .passed hm hd hl hw, hl'⟩
      | some r =>
        obtain ⟨e, he, hk⟩ := Table.exists_get?_of_locate hl
        rw [entryOf_eq_some_iff.2 ⟨hl, he⟩]
        cases hs : e.substitute with
        | none =>
          obtain ⟨l', hw, hl'⟩ := ih (kept ++ [w]) (Selection.choose selected r e) (l := l) (by simp [h])
          rw [List.length_append] at hw
          simp only [hs, Option.getD_none]
          exact ⟨l', .hit hm hd hl he (recognize_hit hk hs) hw, hl'⟩
        | some v =>
          obtain ⟨l', hw, hl'⟩ := ih (kept ++ [v]) (Selection.choose selected r e) (data_replace h v)
          rw [List.length_append] at hw
          simp only [hs, Option.getD_some]
          have hslot := Cursor.slot_before (length_lt_of_data h)
          exact ⟨l', .substituted hm hd hl he (recognize_substitute hk hs) hslot hw, hl'⟩

section
variable (settings : Settings) (table : Table)

theorem choose_eq_or (selected : Option Selection) (r : EntryRef) (e : Entry) :
    Selection.choose selected r e = selected ∨
      e.hasRules ∧ Selection.choose selected r e = some ⟨r, e.rank⟩ := by
  unfold Selection.choose
  by_cases hr : e.hasRules
  · rw [if_neg (by simp [hr])]
    cases selected with
    | none => exact .inr ⟨hr, rfl⟩
    | some s =>
      by_cases hlt : s.precedence < e.rank
      · exact .inr ⟨hr, if_pos hlt⟩
      · exact .inl (if_neg hlt)
  · exact .inl (if_pos (by simpa using hr))

/-- Whatever is selected in the end and was not at the start is an entry of the table with rules. -/
theorem sweep_selected {kept rest : List Word} {selected : Option Selection} {s : Selection}
    (h : (sweep settings table kept selected rest).2 = some s) :
    selected = some s ∨ ∃ e, table.get? s.entry = some e ∧ e.hasRules := by
  induction rest generalizing kept selected with
  | nil => exact .inl h
  | cons w rest ih =>
    rw [sweep] at h
    split at h
    · split at h
      · exact .inr ((ih h).resolve_left nofun)
      · exact .inl h
    · split at h
      · exact ih h
      · rename_i r e hw
        obtain ⟨-, he⟩ := entryOf_eq_some_iff.1 hw
        rcases ih h with hc | hc
        · rcases choose_eq_or selected r e with hs | ⟨hr, hs⟩ <;> rw [hs] at hc
          · exact .inl hc
          · cases hc
            exact .inr ⟨e, he, hr⟩
        · exact .inr hc

/-- A walk that ends with a selection keeps at least the word it was made for. -/
theorem sweep_ne_nil {kept rest : List Word} {selected : Option Selection}
    (hk : selected.isSome → kept ≠ []) :
    (sweep settings table kept selected rest).2.isSome →
      (sweep settings table kept selected rest).1 ≠ [] := by
  induction rest generalizing kept selected with
  | nil => exact hk
  | cons w rest ih =>
    rw [sweep]
    split
    · split
      · exact ih nofun
      · exact hk
    · split <;> exact ih (by simp)

end

end Scan

end Dialogue
