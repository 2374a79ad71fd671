import Dialogue.Proofs.Hashes
import Dialogue.Table

/-!
# Entries of a table

`Table.get?` after each change of a table, and `Table.locate`: what it finds can be read, has the
keyword, and is found in the same place when an entry is changed that keeps its keyword.
-/

namespace Dialogue

theorem EntryRef.isFallback_iff {r : EntryRef} : r.isFallback ↔ r.bucket = 32 := by
  simp [EntryRef.isFallback, EntryRef.fallback]

namespace Table

variable {t : Table} {w : Word} {r q : EntryRef} {f : Entry → Entry}

theorem bucketOf_lt (w : Word) : bucketOf w < 32 := w.hash_lt 5

@[simp] theorem get?_fallback (t : Table) : t.get? .fallback = t.fallback := by
  simp [get?, EntryRef.isFallback, EntryRef.fallback]

theorem get?_of_bucket_ne (h : r.bucket ≠ 32) : t.get? r = (t.bucket r.bucket)[r.index]? := by
  rw [get?, if_neg (by rwa [EntryRef.isFallback_iff])]

theorem bucket_ne_of_locate (h : t.locate w = some r) : r.bucket ≠ 32 := by
  obtain ⟨i, _, rfl⟩ := Option.map_eq_some_iff.1 h
  exact Nat.ne_of_lt (bucketOf_lt w)

theorem exists_get?_of_locate (h : t.locate w = some r) :
    ∃ e, t.get? r = some e ∧ e.keyword ≈ w := by
  rw [get?_of_bucket_ne (bucket_ne_of_locate h)]
  obtain ⟨i, hi, rfl⟩ := Option.map_eq_some_iff.1 h
  obtain ⟨hlt, hw, _⟩ := List.findIdx?_eq_some_iff_getElem.1 hi
  exact ⟨_, List.getElem?_eq_getElem hlt, by simpa using hw⟩

/-! ### Changing an entry -/

theorem bucket_modify (t : Table) (r : EntryRef) (f : Entry → Entry) {n : Nat} (hr : r.bucket ≠ 32) :
    (t.modify r f).bucket n =
      if r.bucket = n then (t.bucket n).modify r.index f else t.bucket n := by
  unfold modify bucket
  rw [if_neg (by rwa [EntryRef.isFallback_iff])]
  simp only [List.getElem?_modify]
  split
  · cases h : t.buckets[n]? <;> simp
  · simp

theorem bucket_modify_fallback (t : Table) (f : Entry → Entry) (n : Nat) (hr : r.bucket = 32) :
    (t.modify r f).bucket n = t.bucket n := by
  unfold modify bucket
  rw [if_pos (EntryRef.isFallback_iff.2 hr)]
  split <;> rfl

theorem get?_modify (t : Table) (r q : EntryRef) (f : Entry → Entry) :
    (t.modify r f).get? q = if q = r then (t.get? q).map f else t.get? q := by
  obtain ⟨b, i⟩ := r
  obtain ⟨c, j⟩ := q
  by_cases hb : b = 32 <;> by_cases hc : c = 32
  · subst hb hc
    by_cases hi : i = 0 <;> by_cases hj : j = 0 <;>
      simp_all [get?, modify, EntryRef.isFallback, EntryRef.fallback, Ne.symm]
  · rw [get?_of_bucket_ne hc, get?_of_bucket_ne hc, bucket_modify_fallback t f c hb]
    rw [if_neg (by rintro ⟨⟩; exact hc hb)]
  · subst hc
    rw [if_neg (by rintro ⟨⟩; exact hb rfl)]
    simp [get?, modify, EntryRef.isFallback, EntryRef.fallback, hb]
  · rw [get?_of_bucket_ne hc, get?_of_bucket_ne hc, bucket_modify t _ f hb]
    by_cases hbc : b = c
    · subst hbc
      simp only [if_true, List.getElem?_modify, EntryRef.mk.injEq, true_and]
      by_cases hij : i = j <;> simp [hij, Ne.symm]
    · rw [if_neg hbc, if_neg (by rintro ⟨⟩; exact hbc rfl)]

theorem ext {t u : Table} (hb : t.buckets = u.buckets) (hf : t.fallback = u.fallback) : t = u := by
  cases t; cases u
  simp_all

/-- A table is what its references name. -/
theorem ext_get? {t u : Table} (h : ∀ r, t.get? r = u.get? r) : t = u := by
  have hbucket : ∀ n < 32, t.bucket n = u.bucket n := by
    intro n hn
    refine List.ext_getElem? fun i => ?_
    have hget := h ⟨n, i⟩
    rwa [get?_of_bucket_ne (Nat.ne_of_lt hn), get?_of_bucket_ne (Nat.ne_of_lt hn)] at hget
  refine ext (List.ext_getElem (by rw [t.length_buckets, u.length_buckets]) fun n ht hu => ?_) ?_
  · have hn := hbucket n (by rwa [t.length_buckets] at ht)
    rwa [bucket, bucket, List.getElem?_eq_getElem ht, List.getElem?_eq_getElem hu] at hn
  · have hget := h .fallback
    rwa [get?_fallback, get?_fallback] at hget

/-- The table with all its entries changed. -/
def map (f : Entry → Entry) (t : Table) : Table where
  buckets := t.buckets.map (List.map f)
  fallback := t.fallback.map f
  length_buckets := by rw [List.length_map, t.length_buckets]

theorem bucket_map (f : Entry → Entry) (t : Table) (n : Nat) :
    (t.map f).bucket n = (t.bucket n).map f := by
  simp only [bucket, map, List.getElem?_map]
  cases t.buckets[n]? <;> rfl

theorem get?_map (f : Entry → Entry) (t : Table) (r : EntryRef) :
    (t.map f).get? r = (t.get? r).map f := by
  simp only [get?, bucket_map, List.getElem?_map]
  split
  · split <;> rfl
  · rfl

theorem list_modify_congr {α : Type} {l : List α} {i : Nat} {f g : α → α}
    (h : ∀ a, l[i]? = some a → f a = g a) : l.modify i f = l.modify i g := by
  refine List.ext_getElem? fun j => ?_
  simp only [List.getElem?_modify]
  by_cases hij : i = j
  · subst hij
    cases ha : l[i]? with
    | none => rfl
    | some a => simp [h a ha]
  · simp only [if_neg hij]

/-- What a change makes of entries that are not there does not matter. -/
theorem modify_congr {g : Entry → Entry} (h : ∀ e, t.get? r = some e → f e = g e) :
    t.modify r f = t.modify r g := by
  unfold modify
  by_cases hr : r.isFallback
  · by_cases hi : r.index = 0
    · rw [if_pos hr, if_pos hr, if_pos hi, if_pos hi]
      rw [get?, if_pos hr, if_pos hi] at h
      exact ext rfl (Option.map_congr (by simpa using h))
    · rw [if_pos hr, if_pos hr, if_neg hi, if_neg hi]
  · rw [if_neg hr, if_neg hr]
    refine ext (list_modify_congr fun es hes => list_modify_congr fun e he => h e ?_) rfl
    rw [get?, if_neg hr, bucket, hes]
    exact he

theorem modify_eq_self (h : ∀ e, t.get? r = some e → f e = e) : t.modify r f = t := by
  rw [modify_congr (g := id) h]
  unfold modify
  split
  · split
    · exact ext rfl (by simp)
    · rfl
  · exact ext (by simp only [List.modify_id]; exact List.modify_id _ _) rfl

theorem map_modify_comm {α β : Type} {g : α → β} {f : α → α} {f' : β → β} (h : ∀ a, g (f a) = f' (g a))
    (l : List α) (i : Nat) : (l.modify i f).map g = (l.map g).modify i f' := by
  refine List.ext_getElem? fun j => ?_
  simp only [List.getElem?_map, List.getElem?_modify]
  cases l[j]? with
  | none => rfl
  | some a => by_cases hi : i = j <;> simp [hi, h]

theorem map_modify_of_eq {α β : Type} {g : α → β} {f : α → α} (hf : ∀ a, g (f a) = g a) (l : List α)
    (i : Nat) : (l.modify i f).map g = l.map g := by
  have h : ∀ a, g (f a) = id (g a) := hf
  rw [map_modify_comm h, List.modify_id]

theorem findIdx?_keyword (es : List Entry) (w : Word) :
    (es.findIdx? fun e => e.keyword ≈ w) = (es.map Entry.keyword).findIdx? fun k => k ≈ w := by
  rw [List.findIdx?_map]; rfl

/-- A change that keeps the keywords moves no entry. -/
theorem locate_modify (t : Table) (r : EntryRef) (hf : ∀ e, (f e).keyword = e.keyword) (w : Word) :
    (t.modify r f).locate w = t.locate w := by
  unfold locate
  simp only [findIdx?_keyword]
  by_cases hr : r.bucket = 32
  · rw [bucket_modify_fallback t f _ hr]
  · rw [bucket_modify t r f hr]
    split
    · rw [map_modify_of_eq hf]
    · rfl

/-! ### Adding entries -/

@[simp] theorem get?_empty (r : EntryRef) : empty.get? r = none := by
  unfold get? empty bucket
  split
  · split <;> rfl
  · rw [List.getElem?_replicate]
    split <;> rfl

theorem get?_setFallback (t : Table) (e : Entry) (r : EntryRef) :
    (t.setFallback e).get? r = if r = .fallback then some e else t.get? r := by
  obtain ⟨b, i⟩ := r
  by_cases hb : b = 32 <;> by_cases hi : i = 0 <;>
    simp [get?, setFallback, bucket, EntryRef.isFallback, EntryRef.fallback, hb, hi]

theorem bucket_insert (t : Table) (e : Entry) (n : Nat) :
    (t.insert e).2.bucket n =
      if bucketOf e.keyword = n then t.bucket n ++ [e] else t.bucket n := by
  simp only [insert, bucket, List.getElem?_modify]
  split
  · subst_vars
    have : bucketOf e.keyword < t.buckets.length := by rw [t.length_buckets]; exact bucketOf_lt _
    simp [List.getElem?_eq_getElem this]
  · simp

theorem get?_insert (t : Table) (e : Entry) (r : EntryRef) :
    (t.insert e).2.get? r = if r = (t.insert e).1 then some e else t.get? r := by
  have hn : bucketOf e.keyword ≠ 32 := Nat.ne_of_lt (bucketOf_lt _)
  obtain ⟨b, i⟩ := r
  by_cases hb : b = 32
  · subst hb
    rw [if_neg fun h => hn (congrArg EntryRef.bucket h).symm]
    simp [get?, insert, EntryRef.isFallback, EntryRef.fallback]
  · rw [get?_of_bucket_ne hb, get?_of_bucket_ne hb, bucket_insert]
    by_cases hbe : bucketOf e.keyword = b
    · subst hbe
      simp only [if_true, insert, EntryRef.mk.injEq, true_and, List.getElem?_append]
      split
      · rw [if_neg (by omega)]
      · rw [List.getElem?_singleton]
        have hnone : (t.bucket (bucketOf e.keyword))[i]? = none := by
          rw [List.getElem?_eq_none_iff]; omega
        rw [hnone]
        split <;> split <;> first | rfl | omega
    · rw [if_neg hbe, if_neg (by rintro ⟨⟩; exact hbe rfl)]

end Table

end Dialogue
