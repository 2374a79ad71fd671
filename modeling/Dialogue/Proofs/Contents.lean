import Dialogue.Proofs.Insertions
import Dialogue.Proofs.Lists
import Dialogue.Proofs.Loading

/-!
# What a script says

The lists of a source are taken in their order, and loading ends with the first that stops it
(`Stops`) or with the empty list. What has been loaded says what its lists say (`Says`): of entries
with one keyword the first is found, of entries to fall back on and of memory rules the last counts.
Each list adds its own to that (`Says.add`).
-/

namespace Dialogue

theorem Entry.keyword_of_readHead {e head : Entry} {cells items : List Datum}
    (h : e.readHead cells = .ok (head, items)) : head.keyword = e.keyword := by
  fun_induction readHead e cells <;> simp_all

theorem Entry.head?_of_ofCells {cells : List Datum} {e : Entry} (h : Entry.ofCells cells = .ok e) :
    cells.head? = some (.word e.keyword) := by
  unfold ofCells at h
  split at h
  · cases h
  · obtain ⟨⟨head, items⟩, hhead, h⟩ := bind_eq_ok.1 (mapError_eq_ok.1 h)
    obtain ⟨read, -, h⟩ := bind_eq_ok.1 h
    cases h
    exact congrArg (some ∘ Datum.word) (keyword_of_readHead hhead).symm
  · cases h

namespace Script

open Source (Reader)
open Source.Reader (Reads)

variable {s s' script : Script} {greeting cells : List Datum} {body rest : List (List Datum)} {w v : Word}

/-! ### One list -/

/-- The list starts with the word. -/
def headedBy (w : Word) (cells : List Datum) : Bool := cells.head?.any (·.isWord w.text)

/-- The list is an entry of the table, and the word is its keyword. -/
def isEntryOf (w : Word) (cells : List Datum) : Bool :=
  headedBy w cells && !headedBy ⟨"NONE"⟩ cells && !headedBy ⟨"MEMORY"⟩ cells

/-- Refuses a list that cannot be read as what it is, memory rules or an entry. -/
def check (cells : List Datum) : Except Malformed Unit :=
  if headedBy ⟨"MEMORY"⟩ cells then (MemoryRules.ofCells cells).map fun _ => ()
  else (Entry.ofCells cells).map fun _ => ()

theorem headedBy_iff : headedBy w cells ↔ ∃ v, cells.head? = some (.word v) ∧ v ≈ w := by
  unfold headedBy
  cases cells.head? with
  | none => simp
  | some d => cases d <;> simp [Datum.isWord]

/-- A list has one first word. -/
theorem equiv_of_headedBy (h : headedBy w cells) (h' : headedBy v cells) : w ≈ v := by
  obtain ⟨a, ha, haw⟩ := headedBy_iff.1 h
  obtain ⟨b, hb, hbv⟩ := headedBy_iff.1 h'
  cases ha.symm.trans hb
  exact Setoid.trans (Setoid.symm haw) hbv

theorem not_memory_of_none (h : headedBy ⟨"NONE"⟩ cells) : headedBy ⟨"MEMORY"⟩ cells = false := by
  by_contra hm
  have hsame := equiv_of_headedBy h (Bool.not_eq_false _ ▸ hm)
  revert hsame
  decide

theorem headedBy_of_ofCells {e : Entry} (h : Entry.ofCells cells = .ok e) (w : Word) :
    headedBy w cells = decide (e.keyword ≈ w) := by
  rw [headedBy, Entry.head?_of_ofCells h]
  rfl

/-- What a list adds to a script, by the three things that it can be. -/
inductive Adds (s : Script) (cells : List Datum) : Except Malformed Script → Prop where
  | fallback : headedBy ⟨"NONE"⟩ cells → headedBy ⟨"MEMORY"⟩ cells = false →
      Adds s cells ((Entry.ofCells cells).map fun e => { s with table := s.table.setFallback e })
  | memory : headedBy ⟨"NONE"⟩ cells = false → headedBy ⟨"MEMORY"⟩ cells →
      Adds s cells ((MemoryRules.ofCells cells).map fun m => { s with memory := some m })
  | entry : headedBy ⟨"NONE"⟩ cells = false → headedBy ⟨"MEMORY"⟩ cells = false →
      Adds s cells ((Entry.ofCells cells).map fun e => { s with table := (s.table.insert e).2 })

theorem adds (s : Script) (cells : List Datum) : Adds s cells (s.add cells) := by
  have hmap {α : Type} (x : Except Malformed α) (f : α → Script) :
      (do return f (← x)) = x.map f := by cases x <;> rfl
  have hadd : s.add cells =
      if headedBy ⟨"NONE"⟩ cells then
        (Entry.ofCells cells).map fun e => { s with table := s.table.setFallback e }
      else if headedBy ⟨"MEMORY"⟩ cells then
        (MemoryRules.ofCells cells).map fun m => { s with memory := some m }
      else (Entry.ofCells cells).map fun e => { s with table := (s.table.insert e).2 } := by
    unfold add
    rw [hmap, hmap, hmap]
    rfl
  rw [hadd]
  cases hn : headedBy ⟨"NONE"⟩ cells with
  | true => exact .fallback hn (not_memory_of_none hn)
  | false =>
    cases hm : headedBy ⟨"MEMORY"⟩ cells with
    | true => exact .memory hn hm
    | false => exact .entry hn hm

/-- What has been added, by what the list was read as. -/
inductive Added (s : Script) (cells : List Datum) : Script → Prop where
  | fallback {e : Entry} : headedBy ⟨"NONE"⟩ cells → headedBy ⟨"MEMORY"⟩ cells = false →
      Entry.ofCells cells = .ok e → Added s cells { s with table := s.table.setFallback e }
  | memory {m : MemoryRules} : headedBy ⟨"NONE"⟩ cells = false → headedBy ⟨"MEMORY"⟩ cells →
      MemoryRules.ofCells cells = .ok m → Added s cells { s with memory := some m }
  | entry {e : Entry} : headedBy ⟨"NONE"⟩ cells = false → headedBy ⟨"MEMORY"⟩ cells = false →
      Entry.ofCells cells = .ok e → Added s cells { s with table := (s.table.insert e).2 }

theorem added (h : s.add cells = .ok s') : Added s cells s' := by
  have hadds := s.adds cells
  rw [h] at hadds
  generalize hx : Except.ok s' = x at hadds
  rcases hadds with ⟨hn, hm⟩ | ⟨hn, hm⟩ | ⟨hn, hm⟩ <;> obtain ⟨read, hread, rfl⟩ := map_eq_ok.1 hx.symm
  · exact .fallback hn hm hread
  · exact .memory hn hm hread
  · exact .entry hn hm hread

/-- Whether a list can be added does not depend on the script. -/
theorem map_add (s : Script) (cells : List Datum) : (s.add cells).map (fun _ => ()) = check cells := by
  unfold check
  have hadds := s.adds cells
  generalize s.add cells = x at hadds ⊢
  cases hadds with
  | fallback hn hm | entry hn hm =>
    rw [if_neg (Bool.eq_false_iff.1 hm)]
    cases Entry.ofCells cells <;> rfl
  | memory hn hm =>
    rw [if_pos hm]
    cases MemoryRules.ofCells cells <;> rfl

/-! ### Many lists -/

/-- What a script with this greeting and these lists behind it says. -/
structure Says (greeting : List Datum) (body : List (List Datum)) (s : Script) : Prop where
  greeting : s.greeting = greeting
  lookup : ∀ w, (s.table.lookup w).map .ok = (body.find? (isEntryOf w)).map Entry.ofCells
  fallback : s.table.fallback.map .ok = (body.reverse.find? (headedBy ⟨"NONE"⟩)).map Entry.ofCells
  memory : s.memory.map .ok = (body.reverse.find? (headedBy ⟨"MEMORY"⟩)).map MemoryRules.ofCells

theorem says_nothing (greeting : List Datum) : Says greeting [] { greeting := greeting } := by
  refine ⟨rfl, fun w => ?_, rfl, rfl⟩
  rw [Table.lookup, Table.locate_empty]
  rfl

theorem find?_concat {α : Type} (p : α → Bool) (l : List α) (a : α) :
    (l ++ [a]).find? p = (l.find? p).or (if p a then some a else none) := by
  rw [List.find?_append]
  congr 1
  cases h : p a <;> simp [h]

theorem find?_reverse_concat {α : Type} (p : α → Bool) (l : List α) (a : α) :
    (l ++ [a]).reverse.find? p = if p a then some a else l.reverse.find? p := by
  rw [List.reverse_concat, List.find?_cons]
  cases p a <;> rfl

/-- A list adds its own to what a script says. -/
theorem Says.add (h : Says greeting body s) (hs : s.add cells = .ok s') :
    Says greeting (body ++ [cells]) s' := by
  -- a list that is no entry of the table leaves what the keywords lead to
  have hlookup : ∀ w, isEntryOf w cells = false →
      (s.table.lookup w).map .ok = ((body ++ [cells]).find? (isEntryOf w)).map Entry.ofCells := by
    intro w hw
    rw [find?_concat, if_neg (Bool.eq_false_iff.1 hw), Option.or_none, h.lookup]
  rcases added hs with ⟨hn, hm, he⟩ | ⟨hn, hm, hread⟩ | @⟨e, hn, hm, he⟩
  · refine ⟨h.greeting, fun w => ?_, ?_, ?_⟩
    · rw [Table.lookup_setFallback]
      exact hlookup w (by simp [isEntryOf, hn])
    · rw [find?_reverse_concat, if_pos hn, Option.map_some, he]
      rfl
    · rw [find?_reverse_concat, if_neg (Bool.eq_false_iff.1 hm)]
      exact h.memory
  · refine ⟨h.greeting, fun w => hlookup w (by simp [isEntryOf, hm]), ?_, ?_⟩
    · rw [find?_reverse_concat, if_neg (Bool.eq_false_iff.1 hn)]
      exact h.fallback
    · rw [find?_reverse_concat, if_pos hm, Option.map_some, Option.map_some, hread]
  · refine ⟨h.greeting, fun w => ?_, ?_, ?_⟩
    · have hentry : isEntryOf w cells = decide (e.keyword ≈ w) := by
        rw [isEntryOf, hn, hm, headedBy_of_ofCells he]
        simp
      rw [Table.lookup_insert, find?_concat, hentry, Option.map_or, Option.map_or, h.lookup]
      by_cases hw : e.keyword ≈ w
      · rw [if_pos hw, if_pos (decide_eq_true hw), Option.map_some, Option.map_some, he]
      · rw [if_neg hw, if_neg (by rwa [decide_eq_true_iff])]
        rfl
    · rw [find?_reverse_concat, if_neg (Bool.eq_false_iff.1 hn)]
      exact h.fallback
    · rw [find?_reverse_concat, if_neg (Bool.eq_false_iff.1 hm)]
      exact h.memory

/-- The last list is added to what the others make up. -/
theorem exists_of_foldlM_concat (h : (body ++ [cells]).foldlM add s = .ok s') :
    ∃ t, body.foldlM add s = .ok t ∧ t.add cells = .ok s' := by
  rw [List.foldlM_append] at h
  obtain ⟨t, ht, h⟩ := bind_eq_ok.1 h
  obtain ⟨t', ht', h⟩ := bind_eq_ok.1 h
  cases h
  exact ⟨t, ht, ht'⟩

theorem says_of_foldlM (h : body.foldlM add { greeting := greeting } = .ok s) :
    Says greeting body s := by
  induction body using List.reverseRecOn generalizing s with
  | nil => cases h; exact says_nothing greeting
  | append_singleton body cells ih =>
    obtain ⟨t, ht, h⟩ := exists_of_foldlM_concat h
    exact (ih ht).add h

/-- Lists can be added if each of them can be read. -/
theorem isOk_foldlM_add (s : Script) (body : List (List Datum)) :
    (body.foldlM add s).isOk ↔ ∀ cells ∈ body, check cells = .ok () := by
  induction body generalizing s with
  | nil => exact ⟨fun _ => nofun, fun _ => rfl⟩
  | cons cells body ih =>
    rw [List.foldlM_cons, List.forall_mem_cons, ← s.map_add]
    cases s.add cells with
    | error m => exact ⟨nofun, nofun⟩
    | ok s' => exact (ih s').trans (and_iff_right rfl).symm

theorem addAll_cons (fault : Option Source.Fault) (s : Script) (h : cells ≠ [])
    (rest : List (List Datum)) :
    addAll fault s (cells :: rest) =
      (s.add cells).mapError .malformed >>= fun s' => addAll fault s' rest := by
  cases cells with
  | nil => exact (h rfl).elim
  | cons => rfl

theorem ofLists_cons (fault : Option Source.Fault) (h : greeting ≠ []) (rest : List (List Datum)) :
    ofLists (greeting :: rest) fault = addAll fault { greeting := greeting } rest := by
  cases greeting with
  | nil => exact (h rfl).elim
  | cons => rfl

theorem addAll_append (fault : Option Source.Fault) (s : Script) (hb : [] ∉ body)
    (rest : List (List Datum)) :
    addAll fault s (body ++ rest) =
      (body.foldlM add s).mapError .malformed >>= fun s' => addAll fault s' rest := by
  induction body generalizing s with
  | nil => rfl
  | cons cells body ih =>
    obtain ⟨hne, hbody⟩ := not_or.1 (mt List.mem_cons.2 hb)
    rw [List.cons_append, addAll_cons _ _ (Ne.symm hne), List.foldlM_cons]
    cases s.add cells with
    | error => rfl
    | ok s' => exact ih s' hbody

/-- The empty list ends a script, whatever comes behind it. -/
theorem ofLists_terminated (fault : Option Source.Fault) (hg : greeting ≠ []) (hb : [] ∉ body)
    (rest : List (List Datum)) :
    ofLists (greeting :: body ++ [] :: rest) fault =
      (body.foldlM add { greeting := greeting }).mapError .malformed := by
  rw [List.cons_append, ofLists_cons fault hg, addAll_append fault _ hb]
  cases body.foldlM add { greeting := greeting } <;> rfl

/-! ### Loading -/

variable {source : String} {reader r : Reader} {before : List (List Datum)} {fault : ScriptFault}

theorem load_of_error {fault : Source.Fault} (h : Reader.ofSource source = .error fault) :
    load source = .error (.source fault) := by
  rw [load, h]
  rfl

theorem load_eq (h : Reader.ofSource source = .ok reader) :
    load source = ofLists reader.lists.1 reader.lists.2 := by
  rw [load, h]
  rfl

/-- The lists that loading goes on after: a greeting and entries that can be read. -/
def Passed : List (List Datum) → Prop
  | [] => True
  | greeting :: body => greeting ≠ [] ∧ [] ∉ body ∧ ∀ cells ∈ body, check cells = .ok ()

theorem Passed.concat (h : Passed (greeting :: body)) (hne : cells ≠ []) (hc : check cells = .ok ()) :
    Passed (greeting :: (body ++ [cells])) := by
  obtain ⟨hg, hb, hcheck⟩ := h
  refine ⟨hg, ?_, ?_⟩
  · rw [List.mem_append, List.mem_singleton]
    exact not_or.2 ⟨hb, Ne.symm hne⟩
  · rw [List.forall_mem_append, List.forall_mem_singleton]
    exact ⟨hcheck, hc⟩

/-- What can stop loading after some lists, by what the reader finds next. -/
inductive Stops : List (List Datum) → Reader → ScriptFault → Prop where
  | unreadable {before : List (List Datum)} {r : Reader} {fault : Source.Fault} :
      r.next.1 = .error fault → Stops before r (.source fault)
  | ungreeted {r : Reader} : r.next.1 = .ok none ∨ r.next.1 = .ok (some []) → Stops [] r .empty
  | unterminated {greeting : List Datum} {body : List (List Datum)} {r : Reader} :
      r.next.1 = .ok none → Stops (greeting :: body) r .missingTerminator
  | malformed {greeting cells : List Datum} {body : List (List Datum)} {r : Reader} {m : Malformed} :
      r.next.1 = .ok (some cells) → cells ≠ [] → check cells = .error m →
      Stops (greeting :: body) r (.malformed m)

/-- The empty list ends the loading of a script that nothing stops. -/
theorem load_terminated {after : Reader} (hr : Reader.ofSource source = .ok reader)
    (h : Reads reader (greeting :: body ++ [[]]) after) (hg : greeting ≠ []) (hb : [] ∉ body) :
    load source = (body.foldlM add { greeting := greeting }).mapError .malformed := by
  rw [load_eq hr, h.lists_eq, List.append_assoc]
  exact ofLists_terminated _ hg hb _

theorem isOk_load_of_terminated {after : Reader} (hr : Reader.ofSource source = .ok reader)
    (h : Reads reader (greeting :: body ++ [[]]) after) (hp : Passed (greeting :: body)) :
    (load source).isOk := by
  obtain ⟨hg, hb, hc⟩ := hp
  obtain ⟨s, hs⟩ := exists_of_isOk ((isOk_foldlM_add { greeting := greeting } body).2 hc)
  rw [load_terminated hr h hg hb, hs]
  rfl

theorem load_of_stops (hr : Reader.ofSource source = .ok reader) (h : Reads reader before r)
    (hp : Passed before) (hs : Stops before r fault) : load source = .error fault := by
  rw [load_eq hr, h.lists_eq]
  cases before with
  | nil =>
    rw [List.nil_append]
    cases hs with
    | unreadable hn => rw [Reader.lists_of_next_error hn]; rfl
    | ungreeted hn =>
      obtain hn | hn := hn
      · rw [Reader.lists_of_next_none hn]; rfl
      · rw [Reader.lists_of_next_some (Prod.ext hn rfl)]; rfl
  | cons greeting body =>
    obtain ⟨hg, hb, hc⟩ := hp
    obtain ⟨s, hfold⟩ := exists_of_isOk ((isOk_foldlM_add { greeting := greeting } body).2 hc)
    rw [List.cons_append, ofLists_cons _ hg, addAll_append _ _ hb, hfold]
    show addAll r.lists.2 s r.lists.1 = .error fault
    cases hs with
    | unreadable hn => rw [Reader.lists_of_next_error hn]; rfl
    | unterminated hn => rw [Reader.lists_of_next_none hn]; rfl
    | @malformed _ cells _ _ m hn hne hm =>
      rw [Reader.lists_of_next_some (Prod.ext hn rfl), addAll_cons _ _ hne]
      rw [← s.map_add] at hm
      cases ha : s.add cells with
      | ok => rw [ha] at hm; cases hm
      | error => rw [ha] at hm; cases hm; rfl

/-- Something stops loading, or the empty list is reached. -/
theorem stops_or_terminates (h : Reads reader before r) (hp : Passed before) :
    (∃ before r fault, Reads reader before r ∧ Passed before ∧ Stops before r fault) ∨
      ∃ greeting body after, Reads reader (greeting :: body ++ [[]]) after ∧
        Passed (greeting :: body) := by
  -- by the number of tokens left: what is read next is passed, stops loading, or ends the script
  induction hn : r.rest.length using Nat.strongRecOn generalizing before r with
  | ind n ih =>
    subst hn
    have hstep {cells : List Datum} {m : Reader} (hnext : r.next = (.ok (some cells), m))
        (hp' : Passed (before ++ [cells])) :=
      ih _ (Reader.length_next_lt hnext) (h.append (.list hnext (.nothing m))) hp' rfl
    cases hnext : r.next with
    | mk result m =>
      have hfirst : r.next.1 = result := congrArg Prod.fst hnext
      rcases result with fault | _ | cells
      · exact .inl ⟨before, r, _, h, hp, .unreadable hfirst⟩
      · cases before with
        | nil => exact .inl ⟨[], r, _, h, hp, .ungreeted (.inl hfirst)⟩
        | cons greeting body => exact .inl ⟨_, r, _, h, hp, .unterminated hfirst⟩
      · by_cases hne : cells = []
        · subst hne
          cases before with
          | nil => exact .inl ⟨[], r, _, h, hp, .ungreeted (.inr hfirst)⟩
          | cons greeting body =>
            exact .inr ⟨greeting, body, m, h.append (.list hnext (.nothing m)), hp⟩
        · cases before with
          | nil => exact hstep hnext ⟨hne, nofun, nofun⟩
          | cons greeting body =>
            cases hc : check cells with
            | error fault => exact .inl ⟨_, r, _, h, hp, .malformed hfirst hne hc⟩
            | ok => exact hstep hnext (hp.concat hne hc)

theorem terminates_of_isOk_load (hr : Reader.ofSource source = .ok reader) (h : (load source).isOk) :
    ∃ greeting body after,
      Reads reader (greeting :: body ++ [[]]) after ∧ Passed (greeting :: body) := by
  obtain ⟨before, r, fault, hreads, hp, hs⟩ | hends := stops_or_terminates (.nothing reader) trivial
  · rw [load_of_stops hr hreads hp hs] at h
    cases h
  · exact hends

/-- Loading succeeds if the empty list is reached, and fails for what stops it if anything does. -/
theorem load_reads_in_order (source : String) :
    (∀ fault, Reader.ofSource source = .error fault → load source = .error (.source fault)) ∧
    ∀ reader, Reader.ofSource source = .ok reader →
      ((load source).isOk ↔ ∃ greeting body after,
        Reads reader (greeting :: body ++ [[]]) after ∧ Passed (greeting :: body)) ∧
      (∀ script greeting body after, load source = .ok script →
        Reads reader (greeting :: body ++ [[]]) after → [] ∉ body → Says greeting body script) ∧
      ∀ fault, load source = .error fault ↔
        ∃ before r, Reads reader before r ∧ Passed before ∧ Stops before r fault := by
  refine ⟨fun _ => load_of_error, fun reader hr => ⟨⟨terminates_of_isOk_load hr, ?_⟩, ?_,
    fun fault => ⟨fun hload => ?_, ?_⟩⟩⟩
  · rintro ⟨greeting, body, after, h, hp⟩
    exact isOk_load_of_terminated hr h hp
  · intro script greeting body after hload h hb
    by_cases hg : greeting = []
    · -- an empty greeting stops loading
      subst hg
      obtain _ | ⟨hnext, -⟩ := h
      cases (load_of_stops hr (.nothing reader) trivial
        (.ungreeted (.inr (congrArg Prod.fst hnext)))).symm.trans hload
    · rw [load_terminated hr h hg hb] at hload
      exact says_of_foldlM (mapError_eq_ok.1 hload)
  · obtain ⟨before, r, fault', h, hp, hs⟩ | ⟨greeting, body, after, h, hp⟩ :=
      stops_or_terminates (.nothing reader) trivial
    · cases (load_of_stops hr h hp hs).symm.trans hload
      exact ⟨before, r, h, hp, hs⟩
    · have hok := isOk_load_of_terminated hr h hp
      rw [hload] at hok
      cases hok
  · rintro ⟨before, r, h, hp, hs⟩
    exact load_of_stops hr h hp hs

/-- Two entries of one keyword and two to fall back on. -/
theorem load_reads_in_order_twice :
    ∃ script, load "(HI)(NONE 1)(A 1)(NONE 2)(a 2)()" = .ok script ∧
      script.table.lookup ⟨"a"⟩ = some { keyword := ⟨"A"⟩, precedence := some 1 } ∧
      script.table.fallback = some { keyword := ⟨"NONE"⟩, precedence := some 2 } := by
  have hread : (Reader.ofSource "(HI)(NONE 1)(A 1)(NONE 2)(a 2)()").map Reader.lists =
      .ok ([[.word ⟨"HI"⟩], [.word ⟨"NONE"⟩, .number 1], [.word ⟨"A"⟩, .number 1],
        [.word ⟨"NONE"⟩, .number 2], [.word ⟨"a"⟩, .number 2], []], none) := by
    with_unfolding_all rfl
  obtain ⟨script, hload⟩ := exists_of_isOk
    (show (load "(HI)(NONE 1)(A 1)(NONE 2)(a 2)()").isOk by decide +kernel)
  obtain ⟨reader, hr, hlists⟩ := map_eq_ok.1 hread
  obtain ⟨after, hreads, -⟩ := reader.reads_lists
  rw [hlists] at hreads
  obtain ⟨-, hcontents, -⟩ := (load_reads_in_order _).2 reader hr
  have hs := hcontents script _ [_, _, _, _] after hload hreads (by simp)
  have hlookup := (hs.lookup ⟨"a"⟩).trans
    (show _ = some (.ok { keyword := ⟨"A"⟩, precedence := some 1 }) by with_unfolding_all rfl)
  have hfallback := hs.fallback.trans
    (show _ = some (.ok { keyword := ⟨"NONE"⟩, precedence := some 2 }) by with_unfolding_all rfl)
  obtain ⟨e, he, heq⟩ := Option.map_eq_some_iff.1 hlookup
  obtain ⟨f, hf, hfeq⟩ := Option.map_eq_some_iff.1 hfallback
  cases heq
  cases hfeq
  exact ⟨script, hload, he, hf⟩

end Script

end Dialogue
