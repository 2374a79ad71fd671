import Dialogue.Proofs.Staleness
import Dialogue.Proofs.Walks

/-!
# Edits at a place

A slot parts its list into the cells in front of it, its own cell and the cells behind it
(`Slot.Parts`), and an edit changes next to the slot only: what it brings becomes the slot's own cell, and
the cell that was there goes in front, goes behind or is lost. So edits in a row leave all cells that the
slot was never on where they were, and between them the cells that it was on, as far as they have not been
overwritten (`Slot.Parts.edited`).
-/

namespace Dialogue

namespace Slot

/-- The datum that an edit brings. -/
def Edit.datum : Edit → Datum
  | .before d | .after d | .replace d => d

/-- The cell of a slot after edits: what the last of them brought, if it is not `d` still. -/
def newest (d : Datum) (edits : List Edit) : Datum := (edits.getLast?.map Edit.datum).getD d

/-- The cells of a slot that edits leave in front of it; `d` is the first of its cells. -/
def passed (d : Datum) : List Edit → List Datum
  | [] => []
  | .after e :: edits => d :: passed e edits
  | .before e :: edits | .replace e :: edits => passed e edits

/-- The cells of a slot that edits leave behind it; `d` is the first of its cells. -/
def pushed (d : Datum) : List Edit → List Datum
  | [] => []
  | .before e :: edits => pushed e edits ++ [d]
  | .after e :: edits | .replace e :: edits => pushed e edits

/-- The cells of the list that edits at the slot do not overwrite. -/
def survivors (s : Slot) : List Edit → List Datum
  | .replace _ :: _ => s.list.data.eraseIdx s.index
  | _ => s.list.data

/-- The slot is that of `d`, in front of which are the cells `a` and behind which are the cells `b`. -/
structure Parts (s : Slot) (a : List Datum) (d : Datum) (b : List Datum) : Prop where
  data : s.list.data = a ++ d :: b
  index : s.index = a.length

variable {s : Slot} {a b : List Datum} {d : Datum}

theorem newest_cons (d : Datum) (e : Edit) (edits : List Edit) :
    newest d (e :: edits) = newest e.datum edits := by
  simp only [newest, List.getLast?_cons]
  cases edits.getLast? <;> rfl

theorem insertIdx_append (a b : List Datum) (d : Datum) :
    (a ++ b).insertIdx a.length d = a ++ d :: b := by
  induction a with
  | nil => rfl
  | cons c a ih => rw [List.cons_append, List.length_cons, List.insertIdx_succ_cons, ih]; rfl

theorem parts (s : Slot) : s.Parts (s.list.data.take s.index) s.get (s.list.data.drop (s.index + 1)) where
  data := by
    have h : s.list.data.drop s.index = s.get :: s.list.data.drop (s.index + 1) :=
      List.drop_eq_getElem_cons s.index_lt
    rw [← h, List.take_append_drop]
  index := (List.length_take_of_le (Nat.le_of_lt s.index_lt)).symm

namespace Parts

theorem get (h : s.Parts a d b) : s.get = d := by
  obtain ⟨l, i, hi⟩ := s
  obtain ⟨hdata, hindex⟩ := h
  simp only at hdata hindex
  simp [Slot.get, hdata, hindex]

theorem insertBefore (h : s.Parts a d b) (e : Datum) : (s.insertBefore e).Parts a e (d :: b) where
  data := by
    simp only [Slot.insertBefore, Cells.insert, Cells.renewed, h.data, h.index]
    exact insertIdx_append a (d :: b) e
  index := h.index

theorem insertAfter (h : s.Parts a d b) (e : Datum) : (s.insertAfter e).Parts (a ++ [d]) e b where
  data := by
    have hlen : a.length + 1 = (a ++ [d]).length := by rw [List.length_append]; rfl
    have hdata : a ++ d :: b = (a ++ [d]) ++ b := by rw [List.append_assoc]; rfl
    simp only [Slot.insertAfter, Cells.insert, Cells.renewed, h.data, h.index]
    rw [hlen, hdata]
    exact insertIdx_append (a ++ [d]) b e
  index := by simp [Slot.insertAfter, h.index]

theorem replace (h : s.Parts a d b) (e : Datum) : (s.replace e).Parts a e b where
  data := by simp [Slot.replace, Cells.overwrite, h.data, h.index]
  index := h.index

theorem edited (h : s.Parts a d b) (edits : List Edit) :
    (s.edited edits).Parts (a ++ passed d edits) (newest d edits) (pushed d edits ++ b) := by
  induction edits generalizing s a d b with
  | nil =>
    rw [passed, pushed, List.append_nil]
    exact h
  | cons e edits ih =>
    have hedited : s.edited (e :: edits) = (s.edit e).edited edits := rfl
    rw [hedited, newest_cons]
    cases e with
    | before e => simpa [edit, passed, pushed, Edit.datum] using ih (h.insertBefore e)
    | after e => simpa [edit, passed, pushed, Edit.datum] using ih (h.insertAfter e)
    | replace e => simpa [edit, passed, pushed, Edit.datum] using ih (h.replace e)

end Parts

/-- The first of the cells of a slot is still there unless it has been overwritten. -/
theorem mem_of_not_replaced (d : Datum) {edits : List Edit}
    (h : ∀ e rest, edits ≠ .replace e :: rest) :
    d ∈ passed d edits ++ newest d edits :: pushed d edits := by
  match edits with
  | [] => simp [newest]
  | .before e :: edits => simp [pushed]
  | .after e :: edits => simp [passed]
  | .replace e :: edits => exact absurd rfl (h e edits)

theorem survivors_sublist (s : Slot) (edits : List Edit) :
    (s.survivors edits).Sublist (s.edited edits).list.data := by
  have hparts := s.parts
  generalize s.list.data.take s.index = a at hparts
  generalize s.list.data.drop (s.index + 1) = b at hparts
  rw [(hparts.edited edits).data]
  have hkept (h : ∀ e rest, edits ≠ .replace e :: rest) : s.list.data.Sublist
      (a ++ passed s.get edits ++ newest s.get edits :: (pushed s.get edits ++ b)) := by
    have hget : [s.get].Sublist (passed s.get edits ++ newest s.get edits :: pushed s.get edits) :=
      List.singleton_sublist.2 (mem_of_not_replaced _ h)
    have hsub := (List.Sublist.refl a).append (hget.append (List.Sublist.refl b))
    rw [hparts.data]
    simpa using hsub
  -- later edits are to cells that were not in the list, so only the first can overwrite one that was
  match edits with
  | [] | .before _ :: _ | .after _ :: _ => exact hkept nofun
  | .replace e :: edits =>
    have hsub := (List.sublist_append_left a (passed s.get (.replace e :: edits))).append
      ((List.sublist_append_right (pushed s.get (.replace e :: edits)) b).cons
        (newest s.get (.replace e :: edits)))
    rw [survivors, hparts.data, hparts.index, List.eraseIdx_append_of_length_le (Nat.le_refl _), Nat.sub_self]
    exact hsub

/-- What edits make of the slot `s` and of its list: `t` is the slot then. -/
structure Edited (s : Slot) (edits : List Edit) (t : Slot) : Prop where
  within : t.index < t.list.length
  /-- The cell is the datum that was inserted or put in place last. -/
  get : t.get = newest s.get edits
  index : t.index = s.index + (passed s.get edits).length
  /-- The other cells of the list are where they were, in front of the slot and behind it. -/
  data : t.list.data = s.list.data.take s.index ++ passed s.get edits ++
    newest s.get edits :: (pushed s.get edits ++ s.list.data.drop (s.index + 1))
  survivors : (s.survivors edits).Sublist t.list.data
  length : t.list.length = s.list.length + edits.countP Edit.inserts
  generation : t.list.generation = s.list.generation + UInt64.ofNat (edits.countP Edit.inserts)
  /-- Putting another datum in place gives the cell that was there, and nothing else changes. -/
  exchange : ∀ d, (t.exchange d).1 = newest s.get edits ∧ (t.exchange d).2 = t.edit (.replace d) ∧
    (t.exchange d).2.list.length = t.list.length ∧
    (t.exchange d).2.list.generation = t.list.generation

theorem edited_edited (s : Slot) (edits : List Edit) : s.Edited edits (s.edited edits) := by
  have hparts := s.parts.edited edits
  obtain ⟨hgeneration, hlength⟩ := s.list_edited edits
  refine ⟨(s.edited edits).index_lt, hparts.get, ?_, hparts.data, s.survivors_sublist edits, hlength,
    hgeneration, fun d => ?_⟩
  · rw [hparts.index, List.length_append, ← s.parts.index]
  · obtain ⟨hgeneration, hlength⟩ := (s.edited edits).list_edit (.replace d)
    exact ⟨hparts.get, rfl, hlength, hgeneration.trans (UInt64.add_zero _)⟩

end Slot

/-! ### Slots of a list -/

variable {l : Cells} {s : Slot} {index : UInt64} {c : Cursor}

theorem Cells.slot_of_lt (h : index.toNat < l.length) : l.slot index = .ok ⟨l, index.toNat, h⟩ := dif_pos h

theorem Cells.slot_eq_error_iff :
    l.slot index = .error (.outOfRange (signedIndex index) l.length) ↔ l.length ≤ index.toNat := by
  constructor
  · intro h
    by_contra hlt
    rw [slot_of_lt (Nat.lt_of_not_le hlt)] at h
    cases h
  · exact fun h => dif_neg (Nat.not_lt.2 h)

theorem Cells.change_edit_of_error {fault : AccessFault} (h : l.slot index = .error fault)
    (edits : List Slot.Edit) : l.change (.edit index edits) = l := by
  simp only [change, h]

namespace Cursor

theorem slot_of_cell (hfits : c.fits l) (h : 0 ≤ c.position ∧ c.position < l.length) :
    ∃ s, c.slot l = .ok s ∧ s.list = l ∧ s.index = c.position := by
  refine ⟨_, (if_pos hfits).trans (dif_pos h), rfl, ?_⟩
  simp only
  omega

/-- There is no slot where a cursor reads no cell. -/
theorem slot_eq_error_iff (hfits : c.fits l) :
    c.slot l = .error (.outOfRange c.position l.length) ↔
      c.current l = .ok .header ∨ c.current l = .ok .past := by
  rw [current_eq hfits]
  by_cases hon : 0 ≤ c.position ∧ c.position < l.length
  · obtain ⟨s, hs, -⟩ := slot_of_cell hfits hon
    have hcell : ∃ d, c.read l = .cell d := by
      have hlt : c.position.toNat < l.data.length := by simp only [Cells.length] at hon; omega
      exact ⟨l.data[c.position.toNat], by rw [read, if_neg (by omega), List.getElem?_eq_getElem hlt]⟩
    obtain ⟨d, hd⟩ := hcell
    rw [hs, hd]
    exact iff_of_false (by simp) (by simp)
  · refine iff_of_true ((if_pos hfits).trans (dif_neg hon)) ?_
    by_cases hneg : c.position < 0
    · exact .inl (congrArg Except.ok (read_of_header hneg))
    · exact .inr (congrArg Except.ok (read_of_end (by omega)))

end Cursor

/-- There is a slot for each index of a list and for each cursor on a cell of it, and edits there do to it
and to the list what `Slot.Edited` says. For any other index and any other cursor there is none, and then
nothing happens to the list. -/
theorem edits_stay_in_place (l : Cells) (edits : List Slot.Edit) :
    (∀ index, index.toNat < l.length → ∃ s, l.slot index = .ok s ∧ s.list = l ∧ s.index = index.toNat ∧
      s.Edited edits (s.edited edits)) ∧
    (∀ index, l.slot index = .error (.outOfRange (signedIndex index) l.length) ↔
      l.length ≤ index.toNat) ∧
    (∀ index, l.length ≤ index.toNat → l.change (.edit index edits) = l) ∧
    (∀ c : Cursor, c.fits l → 0 ≤ c.position ∧ c.position < l.length → ∃ s, c.slot l = .ok s ∧ s.list = l ∧
      s.index = c.position ∧ s.Edited edits (s.edited edits)) ∧
    (∀ c : Cursor, c.fits l → (c.slot l = .error (.outOfRange c.position l.length) ↔
      c.current l = .ok .header ∨ c.current l = .ok .past)) ∧
    ∀ t : Traversal, ∀ k c fault, t.cursors k = some c → c.slot t.list = .error fault →
      t.act (.use k (.edit edits)) = (some fault, t) := by
  refine ⟨fun index h => ⟨_, Cells.slot_of_lt h, rfl, rfl, Slot.edited_edited _ edits⟩,
    fun index => Cells.slot_eq_error_iff,
    fun index h => Cells.change_edit_of_error (Cells.slot_eq_error_iff.2 h) edits, fun c hfits h => ?_,
    fun c hfits => Cursor.slot_eq_error_iff hfits, fun t k c fault hc hslot => ?_⟩
  · obtain ⟨s, hs, hlist, hindex⟩ := Cursor.slot_of_cell hfits h
    exact ⟨s, hs, hlist, hindex, s.edited_edited edits⟩
  · simp only [Traversal.act, hc, Traversal.useCursor, hslot, Except.map]

/-- The second of three cells is overwritten, and so is one that has been put in since. -/
theorem edits_stay_in_place_overwritten :
    let l := Cells.ofWords "L" [⟨"A"⟩, ⟨"B"⟩, ⟨"C"⟩]
    let edits : List Slot.Edit :=
      [.replace (.ofText "X"), .after (.ofText "Y"), .before (.ofText "Z"), .replace (.ofText "W")]
    ((1 : UInt64).toNat < l.length ∧ ∃ s, l.slot 1 = .ok s ∧ (s.edited edits).index = 2 ∧
      (s.edited edits).list.data = ["A", "X", "W", "Y", "C"].map .ofText ∧
      ((s.edited edits).exchange (.ofText "V")).1 = .ofText "W") ∧
    (l.length ≤ (3 : UInt64).toNat ∧ l.change (.edit 3 edits) = l) ∧
    (Cursor.onHeader l).fits l ∧ (Cursor.onHeader l).slot l = .error (.outOfRange (-1) 3) := by
  intro l edits
  obtain ⟨hindex, -, huntouched, -, hcursor, -⟩ := edits_stay_in_place l edits
  have hlt : (1 : UInt64).toNat < l.length := by decide
  have hle : l.length ≤ (3 : UInt64).toNat := by decide
  have hfits : (Cursor.onHeader l).fits l := by decide
  obtain ⟨s, hs, -, -, hedited⟩ := hindex 1 hlt
  cases hs
  exact ⟨⟨hlt, _, rfl, hedited.index, hedited.data, (hedited.exchange _).1⟩, ⟨hle, huntouched 3 hle⟩, hfits,
    (hcursor _ hfits).2 (.inl rfl)⟩

end Dialogue
