import Dialogue.Cells.Cursor
import Mathlib

/-!
# Stale cursors

A list is walked over by any number of cursors while operations change it, all in any order. A cursor does
not see what is done to the list, it only sees that the list is in another generation. That is enough
(`stale_iff_changed`): an operation starts a new generation if and only if it changes the length of the list
or assigns its contents (`Cells.exists_aged`), and fewer of them than there are generations do not come
round to the generation that the cursor was set on. `Traversal.Since` carries this along a history,
together with the number of new generations since the cursor was set.
-/

namespace Dialogue

/-! ### Operations -/

namespace Slot

/-- An edit at a slot. -/
inductive Edit where
  | before (d : Datum)
  | after (d : Datum)
  | replace (d : Datum)

/-- Puts a new cell into the list. -/
def Edit.inserts : Edit → Bool
  | .before _ | .after _ => true
  | .replace _ => false

def edit (s : Slot) : Edit → Slot
  | .before d => s.insertBefore d
  | .after d => s.insertAfter d
  | .replace d => s.replace d

/-- The slot after edits, each at the slot that the one before it gives. -/
def edited (s : Slot) (edits : List Edit) : Slot := edits.foldl edit s

end Slot

namespace Cells

/-- An operation on a list. -/
inductive Change where
  | pushFront (d : Datum)
  | pushBack (d : Datum)
  | popFront
  | popBack
  | popFrontN (n : Nat)
  | truncateFrom (index : Nat)
  | clear
  | assign (data : List Datum)
  /-- Edits at the slot of an index, if there is one. -/
  | edit (index : UInt64) (edits : List Slot.Edit)

def change (l : Cells) : Change → Cells
  | .pushFront d => l.pushFront d
  | .pushBack d => l.pushBack d
  | .popFront => l.popFront.2
  | .popBack => l.popBack.2
  | .popFrontN n => (l.popFrontN n).2
  | .truncateFrom index => l.truncateFrom index
  | .clear => l.clear
  | .assign data => l.assign data
  | .edit index edits =>
    match l.slot index with
    | .ok s => (s.edited edits).list
    | .error _ => l

/-- The number of operations in a change: each edit is one. -/
def Change.count : Change → Nat
  | .edit _ edits => edits.length
  | _ => 1

end Cells

/-- What a cursor is used for. -/
inductive Cursor.Use where
  | forward
  | backward
  | current
  /-- Edits at the slot of the cursor. -/
  | edit (edits : List Slot.Edit)

/-- A list and the cursors on it, by their numbers. -/
structure Traversal where
  list : Cells
  cursors : Nat → Option Cursor := fun _ => none

/-- Something that is done to the list or to one of its cursors. -/
inductive Act where
  | change (c : Cells.Change)
  /-- Sets a cursor on the header, be it a new one or one that is wound back. -/
  | rewind (k : Nat)
  | reposition (k : Nat) (index : UInt64)
  | use (k : Nat) (use : Cursor.Use)

namespace Act

/-- Sets the cursor on the list as it is. -/
def Sets (k : Nat) : Act → Prop
  | .rewind j | .reposition j _ => j = k
  | _ => False

/-- The number of operations on the list. -/
def count : Act → Nat
  | .change c => c.count
  | .use _ (.edit edits) => edits.length
  | _ => 0

end Act

namespace Traversal

/-- Puts a cursor in the place `k`. -/
def set (t : Traversal) (k : Nat) (c : Cursor) : Traversal :=
  { t with cursors := fun j => if j = k then some c else t.cursors j }

/-- Uses the cursor `c`, which has the number `k`. -/
def useCursor (t : Traversal) (k : Nat) (c : Cursor) : Cursor.Use → Except AccessFault Traversal
  | .forward => (c.forward t.list).map fun r => t.set k r.2
  | .backward => (c.backward t.list).map fun r => t.set k r.2
  | .current => (c.current t.list).map fun _ => t
  | .edit edits => (c.slot t.list).map fun s => { t with list := (s.edited edits).list }

/-- The fault that an act comes to, if it does, and what the list and the cursors are after it. There is
nothing to use where no cursor has been set. -/
def act (t : Traversal) : Act → Option AccessFault × Traversal
  | .change c => (none, { t with list := t.list.change c })
  | .rewind k => (none, t.set k (.onHeader t.list))
  | .reposition k index => (none, t.set k (.onto t.list index))
  | .use k use =>
    match t.cursors k with
    | none => (none, t)
    | some c =>
      match t.useCursor k c use with
      | .ok t' => (none, t')
      | .error fault => (some fault, t)

/-- After acts, one after the other. -/
def acted (t : Traversal) (acts : List Act) : Traversal := acts.foldl (fun t a => (t.act a).2) t

/-- The act changes the length of the list, or is an assignment. -/
def AlteredBy (t : Traversal) (a : Act) : Prop :=
  (∃ data, a = .change (.assign data)) ∨ (t.act a).2.list.length ≠ t.list.length

/-- One of the acts changes the length of the list, as it finds it, or is an assignment. -/
def Changed (t : Traversal) (acts : List Act) : Prop :=
  ∃ earlier a later, acts = earlier ++ a :: later ∧ (t.acted earlier).AlteredBy a

end Traversal

/-- The number of operations on the list in acts. -/
def operations (acts : List Act) : Nat := (acts.map Act.count).sum

/-! ### Generations -/

/-- The list `l'` is `n` generations after `l`, and there has been a new generation just if its contents
have been assigned or its length has changed. -/
structure Cells.Aged (l l' : Cells) (assigned : Prop) (n : Nat) : Prop where
  generation : l'.generation = l.generation + UInt64.ofNat n
  pos_iff : 0 < n ↔ assigned ∨ l'.length ≠ l.length

namespace Cells

variable {l : Cells} {assigned : Prop}

/-- A list that stays as it is. -/
theorem Aged.same {m : Nat} (h : ¬ assigned) : ∃ n ≤ m, Aged l l assigned n :=
  ⟨0, Nat.zero_le m, by simp, by simp [h]⟩

theorem Aged.renewed {data : List Datum} (h : assigned ∨ data.length ≠ l.length) :
    ∃ n ≤ 1, Aged l (l.renewed data) assigned n :=
  ⟨1, Nat.le_refl 1, rfl, iff_of_true Nat.one_pos h⟩

end Cells

namespace Slot

theorem list_edit (s : Slot) (e : Edit) :
    (s.edit e).list.generation = s.list.generation + UInt64.ofNat (if e.inserts then 1 else 0) ∧
      (s.edit e).list.length = s.list.length + if e.inserts then 1 else 0 := by
  have hlt := s.index_lt
  cases e with
  | before d => exact ⟨rfl, List.length_insertIdx_of_le_length (Nat.le_of_lt hlt) d⟩
  | after d => exact ⟨rfl, List.length_insertIdx_of_le_length hlt d⟩
  | replace d => simp [edit, replace, Cells.overwrite, Cells.length, Edit.inserts]

theorem list_edited (s : Slot) (edits : List Edit) :
    (s.edited edits).list.generation =
        s.list.generation + UInt64.ofNat (edits.countP Edit.inserts) ∧
      (s.edited edits).list.length = s.list.length + edits.countP Edit.inserts := by
  induction edits generalizing s with
  | nil => simp [edited]
  | cons e edits ih =>
    obtain ⟨hgen, hlen⟩ := s.list_edit e
    obtain ⟨hgens, hlens⟩ := ih (s.edit e)
    have hedited : s.edited (e :: edits) = (s.edit e).edited edits := rfl
    rw [hedited, hgens, hlens, hgen, hlen, List.countP_cons, UInt64.add_assoc, ← UInt64.ofNat_add,
      Nat.add_assoc, Nat.add_comm (List.countP _ _)]
    exact ⟨rfl, rfl⟩

theorem exists_aged (s : Slot) (edits : List Edit) {assigned : Prop} (h : ¬ assigned) :
    ∃ n ≤ edits.length, Cells.Aged s.list (s.edited edits).list assigned n := by
  obtain ⟨hgen, hlen⟩ := s.list_edited edits
  refine ⟨edits.countP Edit.inserts, List.countP_le_length, hgen, ?_⟩
  rw [hlen]
  simp only [h, false_or]
  omega

end Slot

theorem Cells.list_of_slot {l : Cells} {index : UInt64} {s : Slot} (h : l.slot index = .ok s) :
    s.list = l := by
  unfold slot at h
  split at h
  · cases h
    rfl
  · cases h

/-- An operation starts a new generation if it changes the length or is an assignment, and else it does
not. -/
theorem Cells.exists_aged (l : Cells) (c : Change) :
    ∃ n ≤ c.count, Aged l (l.change c) (∃ data, c = .assign data) n := by
  cases c with
  | pushFront d => exact Aged.renewed (.inr (by simp [length]))
  | pushBack d => exact Aged.renewed (.inr (by simp [length]))
  | popFront =>
    simp only [change, popFront]
    split
    · exact Aged.same (by simp)
    · rename_i d ds hd
      exact Aged.renewed (.inr (by simp [length, hd]))
  | popBack =>
    simp only [change, popBack]
    split
    · exact Aged.same (by simp)
    · rename_i d hd
      have hne : l.data ≠ [] := by
        rintro hnil
        simp [hnil] at hd
      have hpos := List.length_pos_iff.2 hne
      refine Aged.renewed (.inr ?_)
      rw [List.length_dropLast, length]
      omega
  | popFrontN n =>
    simp only [change, popFrontN]
    split
    · exact Aged.same (by simp)
    · rename_i hn
      refine Aged.renewed (.inr ?_)
      simp only [length, List.length_drop] at hn ⊢
      omega
  | truncateFrom index =>
    simp only [change, truncateFrom]
    split
    · rename_i hlt
      refine Aged.renewed (.inr ?_)
      simp only [length, List.length_take] at hlt ⊢
      omega
    · exact Aged.same (by simp)
  | clear =>
    simp only [change, clear]
    split
    · exact Aged.same (by simp)
    · rename_i hne
      have hne : l.data ≠ [] := by simpa using hne
      exact Aged.renewed (.inr (Nat.ne_of_lt (List.length_pos_iff.2 hne)))
  | assign data => exact Aged.renewed (.inl ⟨data, rfl⟩)
  | edit index edits =>
    simp only [change]
    cases hs : l.slot index with
    | error fault => exact Aged.same (by simp)
    | ok s =>
      rw [← list_of_slot hs]
      exact s.exists_aged edits (by simp)

namespace Traversal

variable {t : Traversal} {a : Act} {k : Nat} {c : Cursor} {l : Cells} {n : Nat}

/-! ### One act -/

/-- A cursor that does not fit the list is refused, whatever it is used for. -/
theorem act_use_of_stale (hc : t.cursors k = some c) (h : c.fits t.list = false) (use : Cursor.Use) :
    t.act (.use k use) = (some (.stale t.list.name), t) := by
  cases use with
  | forward => simp [act, hc, useCursor, Cursor.forward, Cursor.checked, h, Except.map]
  | backward => simp [act, hc, useCursor, Cursor.backward, Cursor.checked, h, Except.map]
  | current => simp [act, hc, useCursor, Cursor.current, Cursor.checked, h, Except.map]
  | edit edits => simp [act, hc, useCursor, Cursor.slot, h, Except.map]

/-- What comes of the use of a cursor that fits the list. -/
inductive Serves (t : Traversal) (k : Nat) (c : Cursor) : Cursor.Use → Option AccessFault × Traversal → Prop
  | advances : Serves t k c .forward (none, t.set k (c.advanced t.list))
  | retreats : Serves t k c .backward (none, t.set k (c.retreated t.list))
  | reads : Serves t k c .current (none, t)
  | edits {edits : List Slot.Edit} {s : Slot} (hs : s.list = t.list) :
      Serves t k c (.edit edits) (none, { t with list := (s.edited edits).list })
  /-- The cursor is on no cell. -/
  | misses {edits : List Slot.Edit} :
      Serves t k c (.edit edits) (some (.outOfRange c.position t.list.length), t)

theorem serves (hc : t.cursors k = some c) (h : c.fits t.list) (use : Cursor.Use) :
    Serves t k c use (t.act (.use k use)) := by
  cases use with
  | forward =>
    simp only [act, hc, useCursor, Cursor.forward, Cursor.checked, h, if_true, Except.map]
    exact .advances
  | backward =>
    simp only [act, hc, useCursor, Cursor.backward, Cursor.checked, h, if_true, Except.map]
    exact .retreats
  | current =>
    simp only [act, hc, useCursor, Cursor.current, Cursor.checked, h, if_true, Except.map]
    exact .reads
  | edit edits =>
    by_cases hp : 0 ≤ c.position ∧ c.position < t.list.data.length
    · simp only [act, hc, useCursor, Cursor.slot, h, if_true, dif_pos hp, Except.map]
      exact .edits rfl
    · simp only [act, hc, useCursor, Cursor.slot, h, if_true, dif_neg hp, Except.map]
      exact .misses

theorem exists_aged (t : Traversal) (a : Act) :
    ∃ n ≤ a.count, t.list.Aged (t.act a).2.list (∃ data, a = .change (.assign data)) n := by
  cases a with
  | change c => simpa [act, Act.count] using t.list.exists_aged c
  | rewind j => exact Cells.Aged.same (by simp)
  | reposition j index => exact Cells.Aged.same (by simp)
  | use j use =>
    cases hc : t.cursors j with
    | none =>
      have hnone : t.act (.use j use) = (none, t) := by simp only [act, hc]
      rw [hnone]
      exact Cells.Aged.same (by simp)
    | some c =>
      cases h : c.fits t.list with
      | false =>
        rw [act_use_of_stale hc h use]
        exact Cells.Aged.same (by simp)
      | true =>
        have hserves := serves hc h use
        generalize t.act (.use j use) = r at hserves
        cases hserves with
        | advances => exact Cells.Aged.same (by simp)
        | retreats => exact Cells.Aged.same (by simp)
        | reads => exact Cells.Aged.same (by simp)
        | @edits edits s hs =>
          rw [← hs]
          exact s.exists_aged edits (by simp)
        | misses => exact Cells.Aged.same (by simp)

theorem cursors_set (t : Traversal) (k : Nat) (c : Cursor) : (t.set k c).cursors k = some c := if_pos rfl

theorem cursors_set_of_ne {j : Nat} (h : k ≠ j) (t : Traversal) (c : Cursor) :
    (t.set j c).cursors k = t.cursors k := if_neg h

/-- A cursor that is not set moves by its own use only, and only if it fits the list. -/
theorem cursors_act (hc : t.cursors k = some c) (ha : ¬ a.Sets k) :
    (t.act a).2.cursors k = some c ∨
      c.fits t.list ∧ ((t.act a).2.cursors k = some (c.advanced t.list) ∨
        (t.act a).2.cursors k = some (c.retreated t.list)) := by
  cases a with
  | change => exact .inl hc
  | rewind j | reposition j =>
    have hne : k ≠ j := fun h => ha h.symm
    exact .inl ((cursors_set_of_ne hne t _).trans hc)
  | use j use =>
    cases hj : t.cursors j with
    | none =>
      left
      simpa only [act, hj] using hc
    | some b =>
      cases h : b.fits t.list with
      | false =>
        rw [act_use_of_stale hj h]
        exact .inl hc
      | true =>
        have hserves := serves hj h use
        generalize t.act (.use j use) = r at hserves
        by_cases hne : k = j
        · subst hne
          cases hj.symm.trans hc
          cases hserves with
          | advances => exact .inr ⟨h, .inl (cursors_set t k _)⟩
          | retreats => exact .inr ⟨h, .inr (cursors_set t k _)⟩
          | reads | edits | misses => exact .inl hc
        · left
          cases hserves with
          | advances | retreats => exact (cursors_set_of_ne hne t _).trans hc
          | reads | edits | misses => exact hc

/-! ### A history -/

/-- The cursor `k` was set on the list when it was `l`, and there have been `n` new generations since. -/
structure Since (l : Cells) (k n : Nat) (t : Traversal) : Prop where
  generation : t.list.generation = l.generation + UInt64.ofNat n
  length : n = 0 → t.list.length = l.length
  cursor : ∃ c, t.cursors k = some c ∧ c.generation = l.generation

/-- The cursor `k` is on the header, on a cell or past the end of a list. -/
def Within (l : Cells) (k : Nat) (t : Traversal) : Prop :=
  ∀ c, t.cursors k = some c → -1 ≤ c.position ∧ c.position ≤ l.length

namespace Since

/-- Fewer new generations than there are in all do not come round to the first one. -/
theorem fits_iff (h : Since l k n t) (hn : n < 2 ^ 64) (hc : t.cursors k = some c) :
    c.fits t.list ↔ n = 0 := by
  obtain ⟨b, hb, hgen⟩ := h.cursor
  cases hc.symm.trans hb
  have hzero : UInt64.ofNat n = 0 ↔ n = 0 := by
    rw [← UInt64.toNat_inj, UInt64.toNat_ofNat', Nat.mod_eq_of_lt hn, UInt64.toNat_zero]
  rw [Cursor.fits, beq_iff_eq, hgen, h.generation, eq_comm, UInt64.add_eq_left, hzero]

theorem act (h : Since l k n t) (ha : ¬ a.Sets k) :
    ∃ m ≤ a.count, Since l k (n + m) (t.act a).2 ∧ (0 < m ↔ t.AlteredBy a) := by
  obtain ⟨m, hm, haged⟩ := t.exists_aged a
  refine ⟨m, hm, ⟨?_, fun hzero => ?_, ?_⟩, haged.pos_iff⟩
  · rw [haged.generation, h.generation, UInt64.add_assoc, UInt64.ofNat_add]
  · have hnot : ¬ t.AlteredBy a := by
      rw [AlteredBy, ← haged.pos_iff]
      omega
    have hlen : (t.act a).2.list.length = t.list.length := by
      by_contra hne
      exact hnot (.inr hne)
    rw [hlen, h.length (by omega)]
  · obtain ⟨c, hc, hgen⟩ := h.cursor
    rcases cursors_act hc ha with hc' | ⟨-, hc' | hc'⟩
    · exact ⟨c, hc', hgen⟩
    · refine ⟨_, hc', ?_⟩
      unfold Cursor.advanced
      split <;> exact hgen
    · refine ⟨_, hc', ?_⟩
      unfold Cursor.retreated
      split <;> exact hgen

/-- A cursor moves on a list that is as long as it was when the cursor was set. -/
theorem within (h : Since l k n t) (hn : n < 2 ^ 64) (ha : ¬ a.Sets k) (hw : Within l k t) :
    Within l k (t.act a).2 := by
  obtain ⟨c, hc, -⟩ := h.cursor
  have hbounds := hw c hc
  intro next hnext
  rcases cursors_act hc ha with hc' | ⟨hfits, hc'⟩
  · cases hc'.symm.trans hnext
    exact hbounds
  · have hlen := h.length ((h.fits_iff hn hc).1 hfits)
    rcases hc' with hc' | hc' <;> cases hc'.symm.trans hnext
    · unfold Cursor.advanced
      split
      · dsimp only
        omega
      · exact hbounds
    · unfold Cursor.retreated
      split
      · dsimp only
        omega
      · exact hbounds

end Since

theorem changed_cons (t : Traversal) (a : Act) (acts : List Act) :
    t.Changed (a :: acts) ↔ t.AlteredBy a ∨ (t.act a).2.Changed acts := by
  constructor
  · rintro ⟨earlier, b, later, heq, hb⟩
    cases earlier with
    | nil =>
      cases heq
      exact .inl hb
    | cons first earlier =>
      cases heq
      exact .inr ⟨earlier, b, later, rfl, hb⟩
  · rintro (ha | ⟨earlier, b, later, rfl, hb⟩)
    · exact ⟨[], a, acts, rfl, ha⟩
    · exact ⟨a :: earlier, b, later, rfl, hb⟩

theorem not_changed_nil (t : Traversal) : ¬ t.Changed [] := by
  rintro ⟨earlier, a, later, heq, -⟩
  simp at heq

theorem Since.acted {acts : List Act} (h : Since l k n t) (hk : ∀ a ∈ acts, ¬ a.Sets k)
    (hfew : n + operations acts < 2 ^ 64) :
    ∃ m < 2 ^ 64, Since l k m (t.acted acts) ∧ (n < m ↔ t.Changed acts) ∧ n ≤ m ∧
      (Within l k t → Within l k (t.acted acts)) := by
  induction acts generalizing t n with
  | nil =>
    have hn : n < 2 ^ 64 := by simpa [operations] using hfew
    exact ⟨n, hn, h, iff_of_false (Nat.lt_irrefl n) t.not_changed_nil, Nat.le_refl n, id⟩
  | cons a acts ih =>
    have ha := hk a List.mem_cons_self
    obtain ⟨i, hi, hact, haltered⟩ := h.act ha
    have hcount : operations (a :: acts) = a.count + operations acts := by simp [operations]
    obtain ⟨m, hm, hsince, hchanged, hle, hwithin⟩ :=
      ih hact (fun b hb => hk b (List.mem_cons_of_mem _ hb)) (by omega)
    refine ⟨m, hm, hsince, ?_, by omega, fun hw => hwithin (h.within (by omega) ha hw)⟩
    rw [changed_cons, ← haltered, ← hchanged]
    omega

theorem since_set {set : Act} (hset : set.Sets k) (t : Traversal) : Since t.list k 0 (t.act set).2 := by
  cases set with
  | change | use => cases hset
  | rewind | reposition =>
    cases hset
    exact ⟨by simp [Traversal.act, Traversal.set], fun _ => rfl, _, cursors_set t k _, rfl⟩

end Traversal

/-- A cursor is refused if and only if the list has been changed since the cursor was set, in length or by
an assignment, whatever else has been done to the list and to any cursors on it. A refusal changes nothing,
and a cursor that was set on the header and is not refused stands between the header and the end. -/
theorem stale_iff_changed (t : Traversal) {k : Nat} {set : Act} (hset : set.Sets k) {acts : List Act}
    (hacts : ∀ a ∈ acts, ¬ a.Sets k) (hfew : operations acts < 2 ^ 64) (use : Cursor.Use) :
    let start := (t.act set).2
    let now := start.acted acts
    ((now.act (.use k use)).1 = some (.stale now.list.name) ↔ start.Changed acts) ∧
    (start.Changed acts → (now.act (.use k use)).2 = now) ∧
    (set = .rewind k → ¬ start.Changed acts →
      ∃ c, now.cursors k = some c ∧ -1 ≤ c.position ∧ c.position ≤ now.list.length) := by
  intro start now
  have hstart := Traversal.since_set hset t
  obtain ⟨n, hn, hsince, hchanged, -, hwithin⟩ := hstart.acted hacts (by omega)
  obtain ⟨c, hc, -⟩ := hsince.cursor
  have hfits : c.fits now.list = true ↔ ¬ start.Changed acts := by
    rw [hsince.fits_iff hn hc, ← hchanged]
    omega
  by_cases hch : start.Changed acts
  · have hstale : c.fits now.list = false := by simpa [hch] using hfits
    rw [Traversal.act_use_of_stale hc hstale use]
    exact ⟨iff_of_true rfl hch, fun _ => rfl, fun _ h => absurd hch h⟩
  · have hserves := Traversal.serves hc (hfits.2 hch) use
    refine ⟨iff_of_false ?_ hch, fun h => absurd h hch, ?_⟩
    · generalize now.act (.use k use) = r at hserves
      cases hserves <;> nofun
    · rintro rfl -
      have hzero : n = 0 := (hsince.fits_iff hn hc).1 (hfits.2 hch)
      have hheader : Traversal.Within t.list k start := by
        intro b hb
        cases (Traversal.cursors_set t k (.onHeader t.list)).symm.trans hb
        exact ⟨Int.le_refl _, by simp only [Cursor.onHeader]; omega⟩
      rw [hsince.length hzero]
      exact ⟨c, hc, hwithin hheader c hc⟩

/-- A list that has been put back as it was is not the list that the cursor was set on, while one that has
only been overwritten is. -/
theorem stale_iff_changed_restored :
    let start := (Traversal.act { list := Cells.ofWords "L" [⟨"A"⟩, ⟨"B"⟩] } (.rewind 0)).2
    let restored : List Act := [.use 0 .forward, .change .popBack, .change (.pushBack (.ofText "B"))]
    let kept : List Act :=
      [.use 0 .forward, .use 0 (.edit [.replace (.ofText "C")]), .change (.truncateFrom 7)]
    ((start.acted restored).act (.use 0 .backward)).1 = some (.stale (some "L")) ∧
    ¬ start.Changed kept ∧
    ∃ c, (start.acted kept).cursors 0 = some c ∧ -1 ≤ c.position ∧
      c.position ≤ (start.acted kept).list.length := by
  intro start restored kept
  have hset : (Act.rewind 0).Sets 0 := rfl
  have hrestored : ∀ a ∈ restored, ¬ a.Sets 0 := by simp [restored, Act.Sets]
  have hkept : ∀ a ∈ kept, ¬ a.Sets 0 := by simp [kept, Act.Sets]
  obtain ⟨hstale, -⟩ := stale_iff_changed _ hset hrestored (by decide) .backward
  obtain ⟨hfresh, -, hbounds⟩ := stale_iff_changed _ hset hkept (by decide) .backward
  have hchanged : start.Changed restored :=
    ⟨[.use 0 .forward], .change .popBack, [.change (.pushBack (.ofText "B"))], rfl,
      .inr (by decide +kernel)⟩
  have hnot : ¬ start.Changed kept := by
    rw [← hfresh]
    decide +kernel
  exact ⟨hstale.2 hchanged, hnot, hbounds rfl hnot⟩

end Dialogue
