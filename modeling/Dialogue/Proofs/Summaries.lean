import Dialogue.Proofs.Contents
import Dialogue.Script.Summary

/-!
# What a summary shows

A bucket holds the entries that were inserted under its number, in their order (`Table.bucket_filled`), and
the buckets that are not empty hold all of them (`Table.flatMap_occupied`). A table that has been loaded is
filled with the entries of its script, list by list (`Script.filled_of_foldlM`), so that its summary shows the
keywords of these and no others (`Summary.Shows`).
-/

namespace Dialogue

namespace Table

variable {t : Table} {b : Nat × List Entry}

theorem bucket_filled (ops : List Filling) (n : Nat) :
    (filled ops).bucket n = (inserted ops).filter fun e => bucketOf e.keyword = n := by
  induction ops using List.reverseRecOn with
  | nil =>
    rw [filled, List.foldl_nil, bucket, empty, List.getElem?_replicate]
    split <;> rfl
  | append_singleton ops op ih =>
    rw [filled_concat]
    rcases op with e | e
    · rw [fill, bucket_insert, inserted_concat_insert, List.filter_append, ih]
      by_cases hn : bucketOf e.keyword = n <;> simp [hn]
    · rwa [inserted_concat_setFallback]

theorem occupied_eq (t : Table) :
    t.occupied = ((List.range 32).map fun n => (n, t.bucket n)).filter fun b => !b.2.isEmpty := by
  refine congrArg (List.filter _) (List.ext_getElem ?_ fun n h h' => ?_)
  · simp [t.length_buckets]
  · have hn : n < t.buckets.length := by simpa using h
    simp [bucket, List.getElem?_eq_getElem hn]

theorem mem_occupied : b ∈ t.occupied ↔ b.1 < 32 ∧ t.bucket b.1 = b.2 ∧ b.2 ≠ [] := by
  rcases b with ⟨n, es⟩
  simp only [occupied_eq, List.mem_filter, List.mem_map, List.mem_range, Prod.mk.injEq]
  constructor
  · rintro ⟨⟨n, hn, rfl, rfl⟩, hne⟩
    exact ⟨hn, rfl, by simpa using hne⟩
  · rintro ⟨hn, rfl, hne⟩
    exact ⟨⟨n, hn, rfl, rfl⟩, by simpa using hne⟩

theorem occupied_pairwise (t : Table) : t.occupied.Pairwise (·.1 < ·.1) := by
  rw [occupied_eq]
  refine List.Pairwise.filter _ (List.pairwise_map.2 ?_)
  exact List.pairwise_lt_range

/-- The buckets that are left out hold nothing. -/
theorem flatMap_occupied (t : Table) : t.occupied.flatMap Prod.snd = t.buckets.flatten := by
  have hfilter (l : List (Nat × List Entry)) :
      (l.filter fun b => !b.2.isEmpty).flatMap Prod.snd = l.flatMap Prod.snd := by
    induction l with
    | nil => rfl
    | cons b l ih =>
      rcases b with ⟨n, _ | ⟨e, es⟩⟩
      · exact ih
      · exact congrArg ((e :: es) ++ ·) ih
  rw [occupied, hfilter, List.flatMap_map]
  show t.buckets.zipIdx.flatMap Prod.fst = _
  rw [List.flatMap_def, List.zipIdx_map_fst]

theorem filter_allOccupied (t : Table) :
    (t.allOccupied.filter fun b => b.1 != EntryRef.fallback.bucket) = t.occupied := by
  have hoccupied : (t.occupied.filter fun b => b.1 != EntryRef.fallback.bucket) = t.occupied := by
    refine List.filter_eq_self.2 fun b hb => ?_
    obtain ⟨hlt, -⟩ := mem_occupied.1 hb
    exact bne_iff_ne.2 (Nat.ne_of_lt hlt)
  rw [allOccupied, List.filter_append, hoccupied]
  rcases t.fallback with _ | e <;> exact List.append_nil _

end Table

/-! ### The keywords of a summary -/

/-- The buckets of the summary hold these keywords, each where it belongs. -/
structure Summary.Shows (s : Summary) (keywords : List Word) : Prop where
  increasing : s.buckets.Pairwise (·.index < ·.index)
  bounded : ∀ b ∈ s.buckets, b.index < 32
  nonempty : ∀ b ∈ s.buckets, b.keywords ≠ []
  placed : ∀ b ∈ s.buckets, b.keywords = (keywords.filter fun w => w.hash 5 = b.index).map Word.text
  complete : (s.buckets.flatMap (·.keywords)).Perm (keywords.map Word.text)

namespace Summary.Shows

variable {s : Summary} {keywords : List Word} {b c : BucketSummary} {v w : String}

theorem hash_eq (h : s.Shows keywords) (hb : b ∈ s.buckets) (hw : w ∈ b.keywords) :
    (⟨w⟩ : Word) ∈ keywords ∧ (⟨w⟩ : Word).hash 5 = b.index := by
  rw [h.placed b hb] at hw
  obtain ⟨⟨w⟩, hmem, rfl⟩ := List.mem_map.1 hw
  obtain ⟨hmem, hhash⟩ := List.mem_filter.1 hmem
  exact ⟨hmem, of_decide_eq_true hhash⟩

/-- Words that are the same but for case have one hash. -/
theorem index_eq_of_equiv (h : s.Shows keywords) (hb : b ∈ s.buckets) (hc : c ∈ s.buckets)
    (hv : v ∈ b.keywords) (hw : w ∈ c.keywords) (hvw : (⟨v⟩ : Word) ≈ ⟨w⟩) : b.index = c.index := by
  rw [← (h.hash_eq hb hv).2, ← (h.hash_eq hc hw).2]
  exact Word.hash_eq_of_equiv hvw 5

end Summary.Shows

namespace Script

open Source (Reader)
open Source.Reader (Reads)
open Table (Filling filled inserted)

variable {s script : Script} {greeting : List Datum} {body : List (List Datum)} {source : String}

theorem buckets_summary (s : Script) :
    s.summary.buckets = s.table.occupied.map fun b => ⟨b.1, b.2.map fun e => e.keyword.text⟩ := by
  rw [← Table.filter_allOccupied]
  rfl

theorem flatMap_keywords (s : Script) :
    s.summary.buckets.flatMap (·.keywords) = s.table.keywords.map Word.text := by
  rw [buckets_summary, Table.keywords, ← Table.flatMap_occupied, List.flatMap_map]
  simp [List.map_flatMap, Function.comp_def]

theorem shows_of_filled {ops : List Filling} (h : s.table = filled ops) :
    s.summary.Shows ((inserted ops).map Entry.keyword) := by
  have hmem : ∀ b ∈ s.summary.buckets, b.index < 32 ∧ b.keywords ≠ [] ∧
      b.keywords = (s.table.bucket b.index).map fun e => e.keyword.text := by
    intro b hb
    rw [buckets_summary] at hb
    obtain ⟨⟨n, es⟩, hocc, rfl⟩ := List.mem_map.1 hb
    obtain ⟨hn, hes, hne⟩ := Table.mem_occupied.1 hocc
    exact ⟨hn, mt List.map_eq_nil_iff.1 hne, congrArg _ hes.symm⟩
  constructor
  case increasing =>
    rw [buckets_summary]
    exact List.pairwise_map.2 s.table.occupied_pairwise
  case bounded => exact fun b hb => (hmem b hb).1
  case nonempty => exact fun b hb => (hmem b hb).2.1
  case placed =>
    intro b hb
    rw [(hmem b hb).2.2, h, Table.bucket_filled, List.filter_map, List.map_map]
    rfl
  case complete =>
    rw [flatMap_keywords, h]
    exact ((Table.flatten_filled_perm ops).map _).map _

/-! ### The entries of a script -/

/-- The list is an entry of the table. -/
def isEntry (cells : List Datum) : Bool := !headedBy ⟨"NONE"⟩ cells && !headedBy ⟨"MEMORY"⟩ cells

/-- The lists of a script fill its table with their entries. -/
theorem filled_of_foldlM (h : body.foldlM add { greeting := greeting } = .ok s) :
    ∃ ops, s.table = filled ops ∧ (inserted ops).map .ok = (body.filter isEntry).map Entry.ofCells := by
  induction body using List.reverseRecOn generalizing s with
  | nil =>
    cases h
    exact ⟨[], rfl, rfl⟩
  | append_singleton body cells ih =>
    obtain ⟨t, ht, h⟩ := exists_of_foldlM_concat h
    obtain ⟨ops, htable, hops⟩ := ih ht
    rw [List.filter_append, List.map_append, ← hops]
    rcases added h with @⟨e, hn, -, -⟩ | ⟨-, hm, -⟩ | @⟨e, hn, hm, he⟩
    · refine ⟨ops ++ [.setFallback e], ?_, ?_⟩
      · rw [Table.filled_concat, ← htable]
        rfl
      · rw [Table.inserted_concat_setFallback]
        simp [isEntry, hn]
    · exact ⟨ops, htable, by simp [isEntry, hm]⟩
    · refine ⟨ops ++ [.insert e], ?_, ?_⟩
      · rw [Table.filled_concat, ← htable]
        rfl
      · rw [Table.inserted_concat_insert]
        simp [isEntry, hn, hm, he]

theorem heads_of_read {es : List Entry} (h : es.map .ok = body.map Entry.ofCells) :
    body.map List.head? = (es.map Entry.keyword).map fun w => some (.word w) := by
  induction body generalizing es with
  | nil =>
    rw [List.map_nil, List.map_eq_nil_iff] at h
    rw [h]
    rfl
  | cons cells body ih =>
    obtain ⟨e, es, rfl, he, hes⟩ := List.map_eq_cons_iff.1 h
    rw [List.map_cons, ih hes, Entry.head?_of_ofCells he.symm]
    rfl

theorem not_none_of_heads {keywords : List Word} {w : Word}
    (h : (body.filter isEntry).map List.head? = keywords.map fun w => some (.word w)) (hw : w ∈ keywords) :
    ¬ w ≈ ⟨"NONE"⟩ := by
  intro hnone
  have hmem : some (.word w) ∈ (body.filter isEntry).map List.head? := by
    rw [h]
    exact List.mem_map_of_mem hw
  obtain ⟨cells, hcells, hhead⟩ := List.mem_map.1 hmem
  have hheaded := headedBy_iff.2 ⟨w, hhead, hnone⟩
  have hentry := (List.mem_filter.1 hcells).2
  simp [isEntry, hheaded] at hentry

/-- The buckets of a summary are increasing in their indices, which lie below 32, and none is empty. They show
the whole table: the first word of every entry of the script, once for each time that it is there, under its
hash, those of one bucket in their order in the script. No two words under different indices are the same but
for case, and none is `NONE`; what is shown as the fallback is the number of items of the last such entry. -/
theorem summary_shows_table (h : load source = .ok script) :
    ∃ reader greeting body after keywords,
      Reader.ofSource source = .ok reader ∧ Reads reader (greeting :: body ++ [[]]) after ∧ [] ∉ body ∧
      (body.filter isEntry).map List.head? = keywords.map (fun w => some (.word w)) ∧
      script.summary.Shows keywords ∧
      script.summary.buckets.flatMap (·.keywords) = script.table.keywords.map Word.text ∧
      (script.summary.buckets.flatMap (·.keywords)).length = script.table.size ∧
      (∀ b ∈ script.summary.buckets, ∀ c ∈ script.summary.buckets, b.index ≠ c.index →
        ∀ v ∈ b.keywords, ∀ w ∈ c.keywords, ¬ (⟨v⟩ : Word) ≈ ⟨w⟩) ∧
      (∀ b ∈ script.summary.buckets, ∀ w ∈ b.keywords, ¬ (⟨w⟩ : Word) ≈ ⟨"NONE"⟩) ∧
      script.summary.fallback.map .ok = (body.reverse.find? (headedBy ⟨"NONE"⟩)).map fun cells =>
        (Entry.ofCells cells).map fun e => e.items.length := by
  obtain ⟨reader, hr⟩ : ∃ reader, Reader.ofSource source = .ok reader := by
    obtain ⟨reader, hr, -⟩ := bind_eq_ok.1 h
    exact ⟨reader, mapError_eq_ok.1 hr⟩
  obtain ⟨greeting, body, after, hreads, hg, hb, -⟩ := terminates_of_isOk_load hr (h ▸ rfl)
  rw [load_terminated hr hreads hg hb] at h
  have hfold := mapError_eq_ok.1 h
  obtain ⟨ops, htable, hops⟩ := filled_of_foldlM hfold
  have hshows := shows_of_filled htable
  have hheads := heads_of_read hops
  refine ⟨reader, greeting, body, after, _, hr, hreads, hb, hheads, hshows, script.flatMap_keywords,
    ?_, ?_, ?_, ?_⟩
  · rw [hshows.complete.length_eq, List.length_map, List.length_map, htable, Table.size_filled]
  · intro b hb c hc hne v hv w hw hvw
    exact hne (hshows.index_eq_of_equiv hb hc hv hw hvw)
  · intro b hb w hw
    exact not_none_of_heads hheads (hshows.hash_eq hb hw).1
  · have hfallback := congrArg (Option.map (Except.map fun e => e.items.length))
      (says_of_foldlM hfold).fallback
    rw [Option.map_map, Option.map_map] at hfallback
    rw [summary, Option.map_map]
    exact hfallback

/-- Two keywords that share a bucket, one of them twice, and two entries to fall back on. -/
theorem summary_shows_table_crowd : ∃ script keywords,
    load "(HI)(MY 1)(AM)(NONE ((0) (A)))(my)(YOU)(NONE ((0) (B)) ((0) (C)))()" = .ok script ∧
    script.summary.buckets = [⟨12, ["MY", "AM", "my"]⟩, ⟨31, ["YOU"]⟩] ∧
    script.summary.fallback = some 2 ∧ script.summary.Shows keywords ∧ script.table.size = 4 := by
  have hsummary : (load "(HI)(MY 1)(AM)(NONE ((0) (A)))(my)(YOU)(NONE ((0) (B)) ((0) (C)))()").map
      (fun script => (script.summary.buckets, script.summary.fallback)) =
        .ok ([⟨12, ["MY", "AM", "my"]⟩, ⟨31, ["YOU"]⟩], some 2) := by
    with_unfolding_all rfl
  obtain ⟨script, hload, hsummary⟩ := map_eq_ok.1 hsummary
  obtain ⟨hbuckets, hfallback⟩ := Prod.mk.inj hsummary
  obtain ⟨-, -, -, -, keywords, -, -, -, -, hshows, -, hsize, -⟩ := summary_shows_table hload
  rw [hbuckets] at hsize
  exact ⟨script, keywords, hload, hbuckets, hfallback, hshows, hsize.symm⟩

end Script

end Dialogue
