import Dialogue.Source.Reader

/-!
# Lists, one after the other

`Reads r lists r'` says that a reader `r` takes `lists` from its source and is `r'` then. The last token
that it takes is the closing parenthesis of the last list, and the tokens behind that do not matter
(`Reads.exists_closing`). It can go on until there is no list left, or until there is a fault
(`reads_lists`).
-/

namespace Dialogue.Source

variable {outer : List OpenList} {inner : OpenList} {ts after : List Lexeme} {cells : List Datum}

theorem fill_eq_ok (h : fill outer inner ts = (.ok cells, after)) :
    ∃ used place, ts = used ++ ⟨.closing, place⟩ :: after ∧
      ∀ after', fill outer inner (used ++ ⟨.closing, place⟩ :: after') = (.ok cells, after') := by
  induction ts generalizing outer inner with
  | nil => cases h
  | cons x ts ih =>
    obtain ⟨token, place⟩ := x
    -- every token but the last is passed over
    have hpass : ∀ {outer' inner'},
        (∀ ts', fill outer inner (⟨token, place⟩ :: ts') = fill outer' inner' ts') →
        ∃ used place', ⟨token, place⟩ :: ts = used ++ ⟨.closing, place'⟩ :: after ∧
          ∀ after', fill outer inner (used ++ ⟨.closing, place'⟩ :: after') = (.ok cells, after') := by
      intro outer' inner' hnext
      rw [hnext] at h
      obtain ⟨used, place', rfl, hlocal⟩ := ih h
      refine ⟨⟨token, place⟩ :: used, place', rfl, fun after' => ?_⟩
      rw [List.cons_append, hnext, hlocal]
    cases token with
    | opening => exact hpass fun _ => rfl
    | equals => exact hpass fun _ => rfl
    | word text => exact hpass fun _ => rfl
    | number value =>
      cases value with
      | some n => exact hpass fun _ => rfl
      | none => cases h
    | finish => cases h
    | closing =>
      cases outer with
      | cons next outer => exact hpass fun _ => rfl
      | nil =>
        cases h
        exact ⟨[], place, rfl, fun _ => rfl⟩

namespace Reader

variable {r m r' : Reader} {lists a b : List (List Datum)} {fault : Fault}

/-- The list that is read ends with a parenthesis, and what is behind the parenthesis does not
matter. -/
theorem next_eq_some (h : r.next = (.ok (some cells), r')) :
    ∃ used place, r.rest = used ++ ⟨.closing, place⟩ :: r'.rest ∧
      ∀ rest', next ⟨used ++ ⟨.closing, place⟩ :: rest'⟩ = (.ok (some cells), ⟨rest'⟩) := by
  obtain ⟨_ | ⟨⟨token, start⟩, ts⟩⟩ := r
  · cases h
  · cases token with
    | opening =>
      have hnext : ∀ ts', next ⟨⟨.opening, start⟩ :: ts'⟩ =
          ((fill [] ⟨start, []⟩ ts').1.map some, ⟨(fill [] ⟨start, []⟩ ts').2⟩) := fun _ => rfl
      rw [hnext] at h
      obtain ⟨hcells, rfl⟩ := Prod.mk.inj h
      cases hf : (fill [] ⟨start, []⟩ ts).1 with
      | error => rw [hf] at hcells; cases hcells
      | ok filled =>
        rw [hf] at hcells
        cases hcells
        obtain ⟨used, place, hts, hlocal⟩ := fill_eq_ok (Prod.ext hf rfl)
        refine ⟨⟨.opening, start⟩ :: used, place, congrArg (_ :: ·) hts, fun rest' => ?_⟩
        rw [List.cons_append, hnext, hlocal]
        rfl
    | _ => cases h

/-- The reader takes the lists from its source, and `r'` is what it is then. -/
inductive Reads : Reader → List (List Datum) → Reader → Prop where
  | nothing (r : Reader) : Reads r [] r
  | list {r m r' : Reader} {cells : List Datum} {lists : List (List Datum)} :
      r.next = (.ok (some cells), m) → Reads m lists r' → Reads r (cells :: lists) r'

theorem Reads.append (h : Reads r a m) (h' : Reads m b r') : Reads r (a ++ b) r' := by
  induction h with
  | nothing => exact h'
  | list hnext _ ih => exact .list hnext (ih h')

theorem Reads.exists_closing (h : Reads r lists r') (hne : lists ≠ []) :
    ∃ used place, r.rest = used ++ ⟨.closing, place⟩ :: r'.rest ∧
      ∀ rest', Reads ⟨used ++ ⟨.closing, place⟩ :: rest'⟩ lists ⟨rest'⟩ := by
  induction h with
  | nothing => exact (hne rfl).elim
  | list hnext hreads ih =>
    obtain ⟨used, place, hrest, hlocal⟩ := next_eq_some hnext
    cases hreads with
    | nothing => exact ⟨used, place, hrest, fun rest' => .list (hlocal rest') (.nothing _)⟩
    | list hnext' hreads' =>
      obtain ⟨used', place', hrest', hlocal'⟩ := ih (List.cons_ne_nil _ _)
      refine ⟨used ++ ⟨.closing, place⟩ :: used', place', ?_, fun rest' => ?_⟩
      · rw [hrest, hrest', List.append_assoc, List.cons_append]
      · rw [List.append_assoc, List.cons_append]
        exact .list (hlocal _) (hlocal' rest')

/-! ### All lists -/

theorem lists_of_next_none (h : r.next.1 = .ok none) : r.lists = ([], none) := by
  rw [lists]
  split <;> simp_all

theorem lists_of_next_error (h : r.next.1 = .error fault) : r.lists = ([], some fault) := by
  rw [lists]
  split <;> simp_all

theorem lists_of_next_some (h : r.next = (.ok (some cells), r')) :
    r.lists = (cells :: r'.lists.1, r'.lists.2) := by
  rw [lists]
  split <;> simp_all

theorem Reads.lists_eq (h : Reads r lists r') : r.lists = (lists ++ r'.lists.1, r'.lists.2) := by
  induction h with
  | nothing => rfl
  | list hnext _ ih => rw [lists_of_next_some hnext, ih]; rfl

/-- Reading all lists ends where there is no list left, or where there is a fault. -/
theorem reads_lists (r : Reader) :
    ∃ r', Reads r r.lists.1 r' ∧
      r'.next.1 = (match r.lists.2 with | none => .ok none | some fault => .error fault) := by
  induction hn : r.rest.length using Nat.strongRecOn generalizing r with
  | ind n ih =>
    subst hn
    cases hnext : r.next with
    | mk result m =>
      have hfirst : r.next.1 = result := congrArg Prod.fst hnext
      rcases result with fault | _ | cells
      · rw [lists_of_next_error hfirst]
        exact ⟨r, .nothing r, hfirst⟩
      · rw [lists_of_next_none hfirst]
        exact ⟨r, .nothing r, hfirst⟩
      · rw [lists_of_next_some hnext]
        obtain ⟨r', hreads, hend⟩ := ih _ (length_next_lt hnext) m rfl
        exact ⟨r', .list hnext hreads, hend⟩

end Reader

end Dialogue.Source
