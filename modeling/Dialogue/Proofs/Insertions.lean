import Dialogue.Proofs.Table

/-!
# A table as a list of insertions

Whatever is put into a table and in whatever order, a keyword is found where the first entry that has
it was inserted: the 32 buckets do not show. `Table.filled` is the table after operations of
`Filling`. What `Table.locate` finds after an operation is what it found before, or else the entry just
inserted (`locate_insert`, `locate_setFallback`); the rest is by induction on the operations, the last
one first.
-/

namespace Dialogue

namespace Table

/-- What is put into a table. -/
inductive Filling where
  | insert (e : Entry)
  | setFallback (e : Entry)

/-- The entry that an operation inserts. -/
def Filling.inserted? : Filling → Option Entry
  | .insert e => some e
  | .setFallback _ => none

def fill (t : Table) : Filling → Table
  | .insert e => (t.insert e).2
  | .setFallback e => t.setFallback e

/-- The table that operations fill, the first of them first. -/
def filled (ops : List Filling) : Table := ops.foldl fill empty

/-- The entries that operations insert, in their order. -/
def inserted (ops : List Filling) : List Entry := ops.filterMap Filling.inserted?

variable {t : Table} {e : Entry} {w : Word} {r : EntryRef} {ops : List Filling} {op : Filling}

theorem filled_concat (ops : List Filling) (op : Filling) :
    filled (ops ++ [op]) = (filled ops).fill op := by
  rw [filled, List.foldl_concat]; rfl

theorem inserted_append (ops ops' : List Filling) :
    inserted (ops ++ ops') = inserted ops ++ inserted ops' := List.filterMap_append

theorem inserted_concat_insert (ops : List Filling) (e : Entry) :
    inserted (ops ++ [.insert e]) = inserted ops ++ [e] := inserted_append ops _

theorem inserted_concat_setFallback (ops : List Filling) (e : Entry) :
    inserted (ops ++ [.setFallback e]) = inserted ops := by
  rw [inserted_append]
  exact List.append_nil _

theorem bucketOf_eq_of_equiv {a b : Word} (h : a ≈ b) : bucketOf a = bucketOf b :=
  Word.hash_eq_of_equiv h 5

/-! ### One operation -/

@[simp] theorem locate_empty (w : Word) : empty.locate w = none := by
  have hb : empty.bucket (bucketOf w) = [] := by
    rw [bucket, empty, List.getElem?_replicate, if_pos (bucketOf_lt w)]; rfl
  rw [locate, hb]; rfl

theorem locate_insert (t : Table) (e : Entry) (w : Word) :
    (t.insert e).2.locate w =
      (t.locate w).or (if e.keyword ≈ w then some (t.insert e).1 else none) := by
  rw [locate, locate, bucket_insert]
  by_cases hb : bucketOf e.keyword = bucketOf w
  · rw [if_pos hb, List.findIdx?_append, List.findIdx?_singleton, Option.map_or, Option.map_map]
    congr 1
    by_cases hw : e.keyword ≈ w
    · rw [if_pos (by simpa using hw), if_pos hw]
      simp [insert, hb]
    · rw [if_neg (by simpa using hw), if_neg hw]
      rfl
  · -- an entry in another bucket has another keyword
    have hw : ¬ e.keyword ≈ w := fun hw => hb (bucketOf_eq_of_equiv hw)
    rw [if_neg hb, if_neg hw, Option.or_none]

theorem locate_setFallback (t : Table) (e : Entry) (w : Word) :
    (t.setFallback e).locate w = t.locate w := rfl

theorem insert_ne_fallback (t : Table) (e : Entry) : (t.insert e).1 ≠ .fallback := fun h =>
  Nat.ne_of_lt (bucketOf_lt e.keyword) (congrArg EntryRef.bucket h)

theorem flatten_modify_perm {α : Type} (a : α) {l : List (List α)} {n : Nat} (h : n < l.length) :
    (l.modify n (· ++ [a])).flatten.Perm (l.flatten ++ [a]) := by
  induction l generalizing n with
  | nil => cases h
  | cons as l ih =>
    rcases n with _ | n
    · rw [List.modify_zero_cons, List.flatten_cons, List.flatten_cons, List.append_assoc, List.append_assoc]
      exact List.perm_append_comm.append_left as
    · rw [List.modify_succ_cons, List.flatten_cons, List.flatten_cons, List.append_assoc]
      exact (ih (Nat.lt_of_succ_lt_succ h)).append_left as

theorem flatten_insert_perm (t : Table) (e : Entry) :
    (t.insert e).2.buckets.flatten.Perm (t.buckets.flatten ++ [e]) :=
  flatten_modify_perm e (by rw [t.length_buckets]; exact bucketOf_lt _)

/-- An insertion does not take the place of an entry. -/
theorem get?_insert_of_some {d : Entry} (h : t.get? r = some d) : (t.insert e).2.get? r = some d := by
  rw [get?_insert]
  split
  · rename_i hr
    have hn : bucketOf e.keyword ≠ 32 := Nat.ne_of_lt (bucketOf_lt _)
    rw [hr, get?_of_bucket_ne hn] at h
    simp [insert] at h
  · exact h

theorem lookup_insert (t : Table) (e : Entry) (w : Word) :
    (t.insert e).2.lookup w = (t.lookup w).or (if e.keyword ≈ w then some e else none) := by
  rw [lookup, lookup, locate_insert]
  cases h : t.locate w with
  | some r =>
    obtain ⟨d, hd, -⟩ := exists_get?_of_locate h
    rw [Option.some_or, Option.bind_some, Option.bind_some, get?_insert_of_some hd, hd, Option.some_or]
  | none =>
    rw [Option.none_or, Option.bind_none, Option.none_or]
    split
    · rw [Option.bind_some, get?_insert, if_pos rfl]
    · rfl

theorem lookup_setFallback (t : Table) (e : Entry) (w : Word) :
    (t.setFallback e).lookup w = t.lookup w := by
  rw [lookup, lookup, locate_setFallback]
  cases h : t.locate w with
  | none => rfl
  | some r =>
    rw [Option.bind_some, Option.bind_some, get?_setFallback, if_neg]
    rintro rfl
    exact bucket_ne_of_locate h rfl

/-! ### Any number of operations -/

/-- A reference that an insertion gave goes on naming the entry. -/
theorem get?_fill (h : t.get? r = some e) (hr : r ≠ .fallback) (op : Filling) :
    (t.fill op).get? r = some e := by
  cases op with
  | insert d => exact get?_insert_of_some h
  | setFallback d => rw [fill, get?_setFallback, if_neg hr, h]

theorem get?_filled_insert (before : List Filling) (e : Entry) (after : List Filling) :
    (filled (before ++ .insert e :: after)).get? ((filled before).insert e).1 = some e := by
  induction after using List.reverseRecOn with
  | nil => rw [filled_concat, fill, get?_insert, if_pos rfl]
  | append_singleton after op ih =>
    rw [← List.cons_append, ← List.append_assoc, filled_concat]
    exact get?_fill ih (insert_ne_fallback _ _) op

/-- The operations up to the first that inserts an entry with a keyword, that entry, and the operations
behind it. -/
def FirstInsertion (w : Word) (ops before : List Filling) (e : Entry) (after : List Filling) : Prop :=
  ops = before ++ .insert e :: after ∧ e.keyword ≈ w ∧ ∀ d ∈ inserted before, ¬ d.keyword ≈ w

theorem FirstInsertion.concat {before after : List Filling}
    (h : FirstInsertion w ops before e after) (op : Filling) :
    FirstInsertion w (ops ++ [op]) before e (after ++ [op]) := by
  obtain ⟨rfl, hw, hb⟩ := h
  exact ⟨by simp, hw, hb⟩

theorem FirstInsertion.find? {before after : List Filling}
    (h : FirstInsertion w ops before e after) :
    (inserted ops).find? (fun d => d.keyword ≈ w) = some e := by
  obtain ⟨rfl, hw, hb⟩ := h
  have hnone : (inserted before).find? (fun d => decide (d.keyword ≈ w)) = none := by
    simpa [List.find?_eq_none] using hb
  have hcons : inserted (.insert e :: after) = e :: inserted after := rfl
  rw [inserted_append, List.find?_append, hnone, Option.none_or, hcons,
    List.find?_cons_of_pos (by simpa using hw)]

/-- A keyword is found where the first entry that has it was inserted, and nowhere if no entry has
it. -/
theorem locate_filled (ops : List Filling) (w : Word) :
    ((filled ops).locate w = none ∧ ∀ d ∈ inserted ops, ¬ d.keyword ≈ w) ∨
      ∃ before e after, FirstInsertion w ops before e after ∧
        (filled ops).locate w = some ((filled before).insert e).1 := by
  induction ops using List.reverseRecOn with
  | nil => exact .inl ⟨locate_empty w, nofun⟩
  | append_singleton ops op ih =>
    rw [filled_concat]
    obtain ⟨hl, hne⟩ | ⟨before, e, after, hf, hl⟩ := ih
    · cases op with
      | setFallback d => exact .inl ⟨hl, by rwa [inserted_concat_setFallback]⟩
      | insert d =>
        rw [fill, locate_insert, hl, Option.none_or]
        by_cases hd : d.keyword ≈ w
        · exact .inr ⟨ops, d, [], ⟨rfl, hd, hne⟩, if_pos hd⟩
        · refine .inl ⟨if_neg hd, ?_⟩
          rw [inserted_concat_insert]
          intro c hc
          rcases List.mem_append.1 hc with hc | hc
          · exact hne c hc
          · rw [List.mem_singleton.1 hc]; exact hd
    · refine .inr ⟨before, e, after ++ [op], hf.concat op, ?_⟩
      cases op with
      | setFallback d => exact hl
      | insert d => rw [fill, locate_insert, hl, Option.some_or]

theorem flatten_filled_perm (ops : List Filling) :
    (filled ops).buckets.flatten.Perm (inserted ops) := by
  induction ops using List.reverseRecOn with
  | nil => exact List.Perm.refl _
  | append_singleton ops op ih =>
    rw [filled_concat]
    rcases op with e | e
    · rw [inserted_concat_insert]
      exact (flatten_insert_perm _ e).trans (ih.append_right [e])
    · rwa [inserted_concat_setFallback]

theorem size_filled (ops : List Filling) : (filled ops).size = (inserted ops).length :=
  (flatten_filled_perm ops).length_eq

/-- A table is the list of the entries inserted into it: the first entry that has a keyword is found,
never the one to fall back on, and references stay good. -/
theorem table_is_list (ops : List Filling) :
    (∀ w, ((filled ops).locate w).isSome ↔ ∃ e ∈ inserted ops, e.keyword ≈ w) ∧
    (∀ w r, (filled ops).locate w = some r →
      (filled ops).get? r = (inserted ops).find? (fun e => e.keyword ≈ w) ∧ ¬ r.isFallback ∧
      ∃ before e after, FirstInsertion w ops before e after ∧ r = ((filled before).insert e).1) ∧
    (∀ before e after, ops = before ++ .insert e :: after →
      (filled ops).get? ((filled before).insert e).1 = some e) ∧
    (∀ e, ((filled ops).setFallback e).fallback = some e ∧
      (∀ r, ¬ r.isFallback → ((filled ops).setFallback e).get? r = (filled ops).get? r) ∧
      (∀ w, ((filled ops).setFallback e).locate w = (filled ops).locate w) ∧
      ((filled ops).setFallback e).occupied = (filled ops).occupied ∧
      ((filled ops).setFallback e).keywords = (filled ops).keywords ∧
      ((filled ops).setFallback e).size = (filled ops).size) ∧
    (filled ops).size = (inserted ops).length := by
  refine ⟨fun w => ?_, fun w r hr => ?_, ?_, fun e => ⟨rfl, fun r hr => ?_, fun _ => rfl, rfl, rfl, rfl⟩,
    size_filled ops⟩
  · obtain ⟨hl, hne⟩ | ⟨before, e, after, hf, hl⟩ := locate_filled ops w
    · rw [hl]
      exact ⟨nofun, fun ⟨e, he, hw⟩ => (hne e he hw).elim⟩
    · rw [hl]
      exact ⟨fun _ => ⟨e, List.mem_of_find?_eq_some hf.find?, hf.2.1⟩, fun _ => rfl⟩
  · obtain ⟨hl, -⟩ | ⟨before, e, after, hf, hl⟩ := locate_filled ops w
    · rw [hl] at hr; cases hr
    · cases hl.symm.trans hr
      refine ⟨?_, ?_, before, e, after, hf, rfl⟩
      · rw [hf.find?]
        obtain ⟨rfl, -⟩ := hf
        exact get?_filled_insert before e after
      · rw [EntryRef.isFallback_iff]
        exact bucket_ne_of_locate hl
  · rintro before e after rfl
    exact get?_filled_insert before e after
  · rw [get?_setFallback, if_neg]
    rintro rfl
    exact hr rfl

/-- Two keywords that share a bucket, a second entry for the first of them, and a fallback entry. -/
def crowd : List Filling :=
  [.insert { keyword := ⟨"MY"⟩, precedence := some 1 }, .setFallback { keyword := ⟨"AM"⟩ },
    .insert { keyword := ⟨"AM"⟩ }, .insert { keyword := ⟨"My"⟩, precedence := some 9 }]

theorem table_is_list_crowd :
    (filled crowd).locate ⟨"my"⟩ = some ⟨12, 0⟩ ∧
    (filled crowd).get? ⟨12, 0⟩ = some { keyword := ⟨"MY"⟩, precedence := some 1 } ∧
    (filled crowd).get? ⟨12, 1⟩ = some { keyword := ⟨"AM"⟩ } ∧ (filled crowd).size = 3 := by
  obtain ⟨-, hfirst, hkept, -, hsize⟩ := table_is_list crowd
  have hmy : (filled crowd).locate ⟨"my"⟩ = some ⟨12, 0⟩ := by decide +kernel
  have ham : ((filled (crowd.take 2)).insert { keyword := ⟨"AM"⟩ }).1 = ⟨12, 1⟩ := by decide +kernel
  refine ⟨hmy, (hfirst _ _ hmy).1.trans (by decide +kernel), ?_, hsize⟩
  rw [← ham]
  exact hkept (crowd.take 2) _ (crowd.drop 3) rfl

end Table

end Dialogue
