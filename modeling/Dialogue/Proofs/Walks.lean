import Dialogue.Cells.Cursor
import Mathlib

/-!
# Walks over a list

A walk that starts on a list stays on it (`Cursor.On.step`), and its steps undo each other
(`Cursor.On.retreated_advanced`, `Cursor.On.advanced_retreated`): what differs is only when the cursor
reads. So a walk from one end to the other reads the cells in their order, and one back reads them in
reverse. A cursor that is put onto an index is on the list, too, unless the index is in the upper half of
its range (`Cursor.onto_on_iff`).
-/

namespace Dialogue

/-- What a reading shows: the cell, if there is one, and the sign. -/
def Reading.shown (r : Reading) : Option Datum × Int := (r.cell?, r.sign)

@[simp] theorem Reading.shown_cell (d : Datum) : (Reading.cell d).shown = (some d, 0) := rfl

@[simp] theorem Reading.shown_past : Reading.past.shown = (none, 1) := rfl

@[simp] theorem Reading.shown_header : Reading.header.shown = (none, -1) := rfl

theorem signedIndex_eq (index : UInt64) :
    signedIndex index =
      if index.toNat < 2 ^ 63 then (index.toNat : Int) else (index.toNat : Int) - 2 ^ 64 := by
  have h : signedIndex index = index.toBitVec.toInt := rfl
  rw [h, BitVec.toInt_eq_toNat_cond, UInt64.toNat_toBitVec]
  split <;> split <;> omega

namespace Cursor

/-! ### Steps -/

inductive Step where
  | forward
  | backward

def step (c : Cursor) (l : Cells) : Step → Except AccessFault (Reading × Cursor)
  | .forward => c.forward l
  | .backward => c.backward l

/-- What steps read, one after the other, and the cursor after them. -/
def walk (c : Cursor) (l : Cells) : List Step → Except AccessFault (List Reading × Cursor)
  | [] => .ok ([], c)
  | s :: steps => do
    let (reading, next) ← c.step l s
    let (readings, last) ← next.walk l steps
    return (reading :: readings, last)

/-- The cursor fits the list and is on its header, on one of its cells or at its end. -/
structure On (l : Cells) (c : Cursor) : Prop where
  fits : c.fits l
  header_le : -1 ≤ c.position
  le_end : c.position ≤ l.length

variable {l : Cells} {c next last : Cursor} {r : Reading} {rs rs' : List Reading} {s : Step}
  {steps steps' : List Step} {a b : List Datum}

theorem forward_eq (h : c.fits l) : c.forward l = .ok ((c.advanced l).read l, c.advanced l) := if_pos h

theorem backward_eq (h : c.fits l) : c.backward l = .ok (c.read l, c.retreated l) := if_pos h

theorem current_eq (h : c.fits l) : c.current l = .ok (c.read l) := if_pos h

theorem position_advanced (c : Cursor) (l : Cells) :
    (c.advanced l).position = if c.position < l.length then c.position + 1 else c.position := by
  unfold advanced
  split <;> rfl

theorem position_retreated (c : Cursor) (l : Cells) :
    (c.retreated l).position = if -1 < c.position then min c.position l.length - 1 else c.position := by
  unfold retreated
  split <;> rfl

theorem fits_advanced (h : c.fits l) : (c.advanced l).fits l := by
  unfold advanced
  split <;> exact h

theorem fits_retreated (h : c.fits l) : (c.retreated l).fits l := by
  unfold retreated
  split <;> exact h

theorem fits_onto (l : Cells) (index : UInt64) : (onto l index).fits l := beq_self_eq_true _

/-- There is one cursor for each position on a list. -/
theorem eq_of_fits (h : c.fits l) (h' : next.fits l) (hp : c.position = next.position) : c = next := by
  obtain ⟨p, g⟩ := c
  obtain ⟨q, g'⟩ := next
  obtain rfl : p = q := hp
  obtain rfl : g = g' := (beq_iff_eq.1 h).trans (beq_iff_eq.1 h').symm
  rfl

theorem read_of_lt (h : l.data = a ++ b) (hp : c.position = a.length) {d : Datum}
    (hb : b.head? = some d) : c.read l = .cell d := by
  obtain ⟨b, rfl⟩ := List.head?_eq_some_iff.1 hb
  simp [read, hp, h]

theorem read_of_header (h : c.position < 0) : c.read l = .header := if_pos h

theorem read_of_end (h : l.length ≤ c.position) : c.read l = .past := by
  have hlen : l.data.length ≤ c.position.toNat := by
    simp only [Cells.length] at h
    omega
  rw [read, if_neg (by omega), List.getElem?_eq_none hlen]

namespace On

theorem onHeader (l : Cells) : On l (.onHeader l) :=
  ⟨beq_self_eq_true _, Int.le_refl _, by simp only [Cursor.onHeader]; omega⟩

theorem advanced (h : On l c) : On l (c.advanced l) := by
  have hlow := h.header_le
  have hhigh := h.le_end
  refine ⟨fits_advanced h.fits, ?_, ?_⟩ <;> rw [position_advanced] <;> split <;> omega

theorem retreated (h : On l c) : On l (c.retreated l) := by
  have hlow := h.header_le
  have hhigh := h.le_end
  refine ⟨fits_retreated h.fits, ?_, ?_⟩ <;> rw [position_retreated] <;> split <;> omega

theorem retreated_advanced (h : On l c) (hlt : c.position < l.length) :
    (c.advanced l).retreated l = c := by
  refine eq_of_fits h.advanced.retreated.fits h.fits ?_
  have hlow := h.header_le
  rw [position_retreated, position_advanced, if_pos hlt, if_pos (by omega)]
  omega

theorem advanced_retreated (h : On l c) (hlt : -1 < c.position) :
    (c.retreated l).advanced l = c := by
  refine eq_of_fits h.retreated.advanced.fits h.fits ?_
  have hhigh := h.le_end
  rw [position_advanced, position_retreated, if_pos hlt, if_pos (by omega)]
  omega

theorem step (h : On l c) (s : Step) : ∃ r next, c.step l s = .ok (r, next) ∧ On l next := by
  cases s with
  | forward => exact ⟨_, _, forward_eq h.fits, h.advanced⟩
  | backward => exact ⟨_, _, backward_eq h.fits, h.retreated⟩

end On

/-! ### Walks -/

theorem walk_cons (h : c.step l s = .ok (r, next)) (h' : next.walk l steps = .ok (rs, last)) :
    c.walk l (s :: steps) = .ok (r :: rs, last) := by
  simp only [walk, h, h', bind, Except.bind]
  rfl

theorem On.walk (h : On l c) (steps : List Step) :
    ∃ rs last, c.walk l steps = .ok (rs, last) ∧ On l last := by
  induction steps generalizing c with
  | nil => exact ⟨[], c, rfl, h⟩
  | cons s steps ih =>
    obtain ⟨r, next, hstep, hnext⟩ := h.step s
    obtain ⟨rs, last, hwalk, hlast⟩ := ih hnext
    exact ⟨r :: rs, last, walk_cons hstep hwalk, hlast⟩

theorem walk_append (h : c.walk l steps = .ok (rs, next)) (h' : next.walk l steps' = .ok (rs', last)) :
    c.walk l (steps ++ steps') = .ok (rs ++ rs', last) := by
  induction steps generalizing c rs with
  | nil =>
    cases h
    exact h'
  | cons s steps ih =>
    cases hs : c.step l s with
    | error fault => simp [walk, hs, bind, Except.bind] at h
    | ok first =>
      cases hw : first.2.walk l steps with
      | error fault => simp [walk, hs, hw, bind, Except.bind] at h
      | ok others =>
        cases (walk_cons hs hw).symm.trans h
        exact walk_cons hs (ih hw)

/-- The cursors on a list are those that walks from its header come to. -/
theorem on_iff_walked : On l c ↔ ∃ steps rs, (onHeader l).walk l steps = .ok (rs, c) := by
  constructor
  · intro h
    -- by the distance from the header: the cursor is one step forward from where a step backward leads
    induction hn : (c.position + 1).toNat generalizing c with
    | zero =>
      have hc : c.position = -1 := by have := h.header_le; omega
      rw [eq_of_fits h.fits (On.onHeader l).fits hc]
      exact ⟨[], [], rfl⟩
    | succ n ih =>
      have hlt : -1 < c.position := by omega
      have hback : (c.retreated l).position = c.position - 1 := by
        have := h.le_end
        rw [position_retreated, if_pos hlt]
        omega
      obtain ⟨steps, rs, hwalk⟩ := ih h.retreated (by rw [hback]; omega)
      have hstep := forward_eq h.retreated.fits
      rw [h.advanced_retreated hlt] at hstep
      have hlast : (c.retreated l).walk l [.forward] = .ok ([c.read l], c) := walk_cons hstep rfl
      exact ⟨_, _, walk_append hwalk hlast⟩
  · rintro ⟨steps, rs, hwalk⟩
    obtain ⟨rs', last, hwalk', hlast⟩ := (On.onHeader l).walk steps
    cases hwalk.symm.trans hwalk'
    exact hlast

/-- A step that leaves the cursor where it is can be taken again and again. -/
theorem walk_parked (h : c.step l s = .ok (r, c)) (k : Nat) :
    c.walk l (.replicate k s) = .ok (.replicate k r, c) := by
  induction k with
  | zero => rfl
  | succ k ih => exact walk_cons h ih

theorem step_forward_end (hfits : c.fits l) (hp : l.length ≤ c.position) :
    c.step l .forward = .ok (.past, c) := by
  have hstay : c.advanced l = c := if_neg (by omega)
  rw [step, forward_eq hfits, hstay, read_of_end hp]

theorem step_backward_header (hfits : c.fits l) (hp : c.position = -1) :
    c.step l .backward = .ok (.header, c) := by
  have hstay : c.retreated l = c := if_neg (by omega)
  rw [step, backward_eq hfits, hstay, read_of_header (by omega)]

/-- Forward from in front of `b`, its cells are read. -/
theorem walk_forward (h : l.data = a ++ b) (hfits : c.fits l) (hp : c.position + 1 = a.length) :
    ∃ last, c.walk l (.replicate b.length .forward) = .ok (b.map .cell, last) ∧ last.fits l ∧
      last.position + 1 = l.length := by
  induction b generalizing a c with
  | nil =>
    rw [List.append_nil] at h
    exact ⟨c, rfl, hfits, by rw [hp, Cells.length, h]⟩
  | cons d b ih =>
    have hlt : c.position < l.length := by
      simp only [Cells.length, h, List.length_append, List.length_cons]
      omega
    have hadv : (c.advanced l).position = a.length := by rw [position_advanced, if_pos hlt, hp]
    have hstep : c.step l .forward = .ok (.cell d, c.advanced l) := by
      rw [step, forward_eq hfits, read_of_lt h hadv rfl]
    obtain ⟨last, hwalk, hlast⟩ := ih (a := a ++ [d]) (by rw [h, List.append_assoc]; rfl)
      (fits_advanced hfits) (by rw [hadv, List.length_append]; rfl)
    exact ⟨last, walk_cons hstep hwalk, hlast⟩

/-- Backward from the last cell of what is in front of `b`, the cells there are read. -/
theorem walk_backward (h : l.data = a.reverse ++ b) (hfits : c.fits l) (hp : c.position + 1 = a.length) :
    ∃ last, c.walk l (.replicate a.length .backward) = .ok (a.map .cell, last) ∧ last.fits l ∧
      last.position = -1 := by
  induction a generalizing b c with
  | nil =>
    rw [List.length_nil] at hp
    exact ⟨c, rfl, hfits, by omega⟩
  | cons d a ih =>
    rw [List.reverse_cons, List.append_assoc] at h
    rw [List.length_cons] at hp
    have hpos : c.position = a.reverse.length := by
      rw [List.length_reverse]
      omega
    have hback : (c.retreated l).position + 1 = a.length := by
      have hlen : a.length < l.length := by simp [Cells.length, h]
      rw [position_retreated, if_pos (by omega)]
      omega
    have hstep : c.step l .backward = .ok (.cell d, c.retreated l) := by
      rw [step, backward_eq hfits, read_of_lt h hpos rfl]
    obtain ⟨last, hwalk, hlast⟩ := ih h (fits_retreated hfits) hback
    exact ⟨last, walk_cons hstep hwalk, hlast⟩

/-- From the header forward the cells are read in their order, and then nothing. -/
theorem walk_forward_onHeader (l : Cells) (k : Nat) :
    ∃ rs last, (onHeader l).walk l (.replicate (l.length + k) .forward) = .ok (rs, last) ∧
      rs.map Reading.shown = l.data.map (fun d => (some d, 0)) ++ .replicate k (none, 1) ∧
      last.position = if k = 0 then (l.length : Int) - 1 else l.length := by
  obtain ⟨next, hcells, hfits, hlast⟩ :=
    walk_forward (l := l) (a := []) rfl (On.onHeader l).fits (Int.add_left_neg 1)
  rw [← List.replicate_append_replicate]
  cases k with
  | zero =>
    refine ⟨_, _, walk_append hcells rfl, by simp [Function.comp_def], ?_⟩
    rw [if_pos rfl]
    omega
  | succ k =>
    have hadv : (next.advanced l).position = l.length := by
      rw [position_advanced, if_pos (by omega), hlast]
    have hend : l.length ≤ (next.advanced l).position := Int.le_of_eq hadv.symm
    have hstep : next.step l .forward = .ok (.past, next.advanced l) := by
      rw [step, forward_eq hfits, read_of_end hend]
    have hparked := walk_parked (step_forward_end (fits_advanced hfits) hend) k
    refine ⟨_, _, walk_append hcells (walk_cons hstep hparked), ?_, ?_⟩
    · simp [Function.comp_def, List.replicate_succ]
    · rw [if_neg (Nat.succ_ne_zero k), hadv]

/-- From the end backward nothing is read, then the cells in reverse, and then nothing. -/
theorem walk_backward_end (hfits : c.fits l) (hend : l.length ≤ c.position) (k : Nat) :
    ∃ rs last, c.walk l (.backward :: .replicate (l.length + k) .backward) = .ok (rs, last) ∧
      rs.map Reading.shown =
        (none, 1) :: (l.data.reverse.map (fun d => (some d, 0)) ++ .replicate k (none, -1)) ∧
      last.position = -1 := by
  have hback : (c.retreated l).position + 1 = l.data.reverse.length := by
    rw [position_retreated, if_pos (by omega), List.length_reverse, ← Cells.length]
    omega
  have hstep : c.step l .backward = .ok (.past, c.retreated l) := by
    rw [step, backward_eq hfits, read_of_end hend]
  obtain ⟨next, hcells, hfits, hlast⟩ :=
    walk_backward (l := l) (b := []) (by simp) (fits_retreated hfits) hback
  have hparked := walk_parked (step_backward_header hfits hlast) k
  rw [List.length_reverse] at hcells
  rw [← List.replicate_append_replicate]
  refine ⟨_, _, walk_cons hstep (walk_append hcells hparked), ?_, hlast⟩
  simp [Function.comp_def]

/-- A walk over a list from the header reads its cells in their order and then nothing, and one back from
the end reads nothing and then the cells in reverse. A walk can start from wherever a walk from the header
comes to, and at every point of it a step on and the step back, or a step back and the step on, read the
same and leave the cursor where it was. -/
theorem walks_both_ways (l : Cells) :
    (∀ k, ∃ rs last, (onHeader l).walk l (.replicate (l.length + k) .forward) = .ok (rs, last) ∧
      rs.map Reading.shown = l.data.map (fun d => (some d, 0)) ++ .replicate k (none, 1) ∧
      last.position = if k = 0 then (l.length : Int) - 1 else l.length) ∧
    (∀ c : Cursor, ∀ k, c.fits l → l.length ≤ c.position →
      ∃ rs last, c.walk l (.backward :: .replicate (l.length + k) .backward) = .ok (rs, last) ∧
        rs.map Reading.shown =
          (none, 1) :: (l.data.reverse.map (fun d => (some d, 0)) ++ .replicate k (none, -1)) ∧
        last.position = -1) ∧
    (∀ c, On l c ↔ ∃ steps rs, (onHeader l).walk l steps = .ok (rs, c)) ∧
    ∀ c steps, On l c → ∃ rs last, c.walk l steps = .ok (rs, last) ∧ On l last ∧
      (last.position < l.length →
        ∃ r next, last.forward l = .ok (r, next) ∧ next.backward l = .ok (r, last)) ∧
      (-1 < last.position →
        ∃ r next, last.backward l = .ok (r, next) ∧ next.forward l = .ok (r, last)) := by
  refine ⟨walk_forward_onHeader l, fun c k hfits hend => walk_backward_end hfits hend k,
    fun c => on_iff_walked, fun c steps h => ?_⟩
  obtain ⟨rs, last, hwalk, hlast⟩ := h.walk steps
  refine ⟨rs, last, hwalk, hlast, fun hlt => ?_, fun hlt => ?_⟩
  · have hback := backward_eq hlast.advanced.fits
    rw [hlast.retreated_advanced hlt] at hback
    exact ⟨_, _, forward_eq hlast.fits, hback⟩
  · have hon := forward_eq hlast.retreated.fits
    rw [hlast.advanced_retreated hlt] at hon
    exact ⟨_, _, backward_eq hlast.fits, hon⟩

/-- From the end of a list of two cells, where the cursor has been put. -/
theorem walks_both_ways_two :
    let l := Cells.ofWords "L" [⟨"A"⟩, ⟨"B"⟩]
    let c := onto l 7
    c.fits l ∧ l.length ≤ c.position ∧ On l c ∧
    (∃ rs last, c.walk l [.backward, .backward, .backward, .backward] = .ok (rs, last) ∧
      rs.map Reading.shown =
        [(none, 1), (some (.ofText "B"), 0), (some (.ofText "A"), 0), (none, -1)] ∧
      last.position = -1) ∧
    ∃ rs last, c.walk l [.backward, .backward] = .ok (rs, last) ∧ last.position = 0 ∧
      ∃ r next, last.forward l = .ok (r, next) ∧ next.backward l = .ok (r, last) := by
  intro l c
  have hposition : c.position = 2 := by decide +kernel
  have hon : On l c := ⟨fits_onto l 7, by omega, Int.le_of_eq hposition⟩
  have hend : l.length ≤ c.position := Int.le_of_eq hposition.symm
  obtain ⟨-, hback, -, hwalk⟩ := walks_both_ways l
  obtain ⟨rs, last, hsteps, -, hforward, -⟩ := hwalk c [.backward, .backward] hon
  have hzero : last.position = 0 := by
    cases hsteps
    decide +kernel
  exact ⟨hon.fits, hend, hon, hback c 1 hon.fits hend, rs, last, hsteps, hzero,
    hforward (by rw [hzero]; decide)⟩

/-! ### Moves -/

/-- What can be done to a cursor on a list that stays as it is. -/
inductive Move where
  | step (s : Step)
  | rewind
  | reposition (index : UInt64)

def move (c : Cursor) (l : Cells) : Move → Except AccessFault Cursor
  | .step s => (c.step l s).map Prod.snd
  | .rewind => .ok (.onHeader l)
  | .reposition index => .ok (.onto l index)

/-- The cursor after moves, one after the other. -/
def moved (c : Cursor) (l : Cells) (moves : List Move) : Except AccessFault Cursor :=
  moves.foldlM (fun c m => c.move l m) c

variable {index : UInt64} {m : Move} {moves : List Move}

theorem position_onto (l : Cells) (index : UInt64) :
    (onto l index).position = min (signedIndex index) l.length := rfl

theorem onto_eq_min_iff :
    (onto l index).position = min (index.toNat : Int) l.length ↔ index.toNat < 2 ^ 63 := by
  have hsize := index.toNat_lt
  rw [position_onto, signedIndex_eq]
  split <;> omega

/-- An index in the upper half of its range puts the cursor in front of the header, but for the last. -/
theorem onto_on_iff : On l (onto l index) ↔ index.toNat < 2 ^ 63 ∨ index.toNat = 2 ^ 64 - 1 := by
  have hsize := index.toNat_lt
  have hbounds : On l (onto l index) ↔ -1 ≤ (onto l index).position :=
    ⟨On.header_le, fun h => ⟨fits_onto l index, h, Int.min_le_right _ _⟩⟩
  rw [hbounds, position_onto, signedIndex_eq]
  split <;> omega

theorem On.move (h : On l c) (hm : ∀ index, m = .reposition index → On l (.onto l index)) :
    ∃ next, c.move l m = .ok next ∧ On l next := by
  cases m with
  | step s =>
    obtain ⟨r, next, hstep, hnext⟩ := h.step s
    exact ⟨next, by rw [Cursor.move, hstep]; rfl, hnext⟩
  | rewind => exact ⟨_, rfl, On.onHeader l⟩
  | reposition index => exact ⟨_, rfl, hm index rfl⟩

theorem On.moved (h : On l c) (hm : ∀ index, .reposition index ∈ moves → On l (.onto l index)) :
    ∃ last, c.moved l moves = .ok last ∧ On l last := by
  induction moves generalizing c with
  | nil => exact ⟨c, rfl, h⟩
  | cons m moves ih =>
    obtain ⟨next, hmove, hnext⟩ := h.move (m := m) fun index hi => hm index (hi ▸ List.mem_cons_self)
    obtain ⟨last, hmoved, hlast⟩ := ih hnext fun index hi => hm index (List.mem_cons_of_mem _ hi)
    refine ⟨last, ?_, hlast⟩
    rw [Cursor.moved, List.foldlM_cons, hmove]
    exact hmoved

theorem moved_reposition (h : c.moved l (moves ++ [.reposition index]) = .ok last) :
    last = .onto l index := by
  rw [moved, List.foldlM_append] at h
  cases hm : moves.foldlM (fun c m => c.move l m) c with
  | error fault => rw [hm] at h; cases h
  | ok next =>
    rw [hm] at h
    cases h
    rfl

/-- A cursor that is put onto an index in the lower half of its range is on the cell there, or past the
end if there is none, and one that is put onto another index is in front of the cells. So whatever is done
to a cursor, it stays on the list just if it is not put onto an index from the middle of the range up to
the last but one. -/
theorem reposition_stays_within (l : Cells) :
    (∀ index, (onto l index).fits l ∧
      ((onto l index).position = min (index.toNat : Int) l.length ↔ index.toNat < 2 ^ 63) ∧
      (l.length ≤ index.toNat → index.toNat < 2 ^ 63 → (onto l index).current l = .ok .past) ∧
      (2 ^ 63 ≤ index.toNat → (onto l index).current l = .ok .header)) ∧
    ∀ moves, (∀ before, before <+: moves → ∃ c, (onHeader l).moved l before = .ok c ∧ On l c) ↔
      ∀ index, .reposition index ∈ moves → index.toNat < 2 ^ 63 ∨ index.toNat = 2 ^ 64 - 1 := by
  refine ⟨fun index => ⟨fits_onto l index, onto_eq_min_iff, fun hle hlow => ?_, fun hhigh => ?_⟩,
    fun moves => ⟨fun h index hi => ?_, fun h before hbefore => ?_⟩⟩
  · have hposition : (onto l index).position = min (index.toNat : Int) l.length := onto_eq_min_iff.2 hlow
    rw [current_eq (fits_onto l index), read_of_end (by omega)]
  · have hsize := index.toNat_lt
    have hneg : (onto l index).position < 0 := by
      rw [position_onto, signedIndex_eq, if_neg (by omega)]
      omega
    rw [current_eq (fits_onto l index), read_of_header hneg]
  · obtain ⟨earlier, later, rfl⟩ := List.append_of_mem hi
    obtain ⟨c, hmoved, hc⟩ := h (earlier ++ [.reposition index]) ⟨later, by simp⟩
    rw [moved_reposition hmoved] at hc
    exact onto_on_iff.1 hc
  · exact (On.onHeader l).moved fun index hi => onto_on_iff.2 (h index (hbefore.subset hi))

/-- Indices below, at and far beyond the end of a list of two cells. -/
theorem reposition_stays_within_two :
    let l := Cells.ofWords "L" [⟨"A"⟩, ⟨"B"⟩]
    let far : UInt64 := 0x7fffffffffffffff
    (onto l 1).position = 1 ∧ (onto l far).position = 2 ∧ (onto l far).current l = .ok .past ∧
    (onto l (far + 1)).current l = .ok .header ∧
    ∃ c, (onHeader l).moved l
      [.reposition far, .step .backward, .rewind, .reposition 1, .step .forward, .step .forward] = .ok c ∧
      On l c := by
  intro l far
  obtain ⟨honto, hmoves⟩ := reposition_stays_within l
  refine ⟨(honto 1).2.1.2 (by decide), (honto far).2.1.2 (by decide),
    (honto far).2.2.1 (by decide) (by decide), (honto (far + 1)).2.2.2 (by decide), ?_⟩
  refine (hmoves _).2 (fun index hi => ?_) _ (List.prefix_refl _)
  obtain rfl | rfl : index = far ∨ index = 1 := by simpa using hi
  · exact .inl (by decide)
  · exact .inl (by decide)

/-- The first index of the upper half is beyond the end of a list of one cell. -/
theorem reposition_before_header :
    let l := Cells.ofWords "L" [⟨"A"⟩]
    let index : UInt64 := 0x8000000000000000
    let c := onto l index
    l.length ≤ index.toNat ∧ c.position ≠ min (index.toNat : Int) l.length ∧ ¬ -1 ≤ c.position ∧
      c.current l = .ok .header := by
  intro l index c
  have hposition : c.position = -2 ^ 63 := by decide +kernel
  exact ⟨by decide, by omega, by omega, rfl⟩

end Cursor

end Dialogue
