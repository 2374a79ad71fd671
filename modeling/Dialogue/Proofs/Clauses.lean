import Dialogue.Proofs.Turn

/-!
# Clauses

The scan walks over an input once, dropping, cutting off and overwriting cells as it goes. What it comes
to is said here without a walk. The delimiters part the words into clauses; of these one is heeded, the
first with a keyword that has rules or else the last (`Scan.heeded`). The clause is what is kept, each of
its words rewritten at most once (`Scan.rewritten`), and it selects the leftmost of its keywords of the
highest rank (`Scan.Leads`). `sweep_eq_of_clauses` carries this along the walk, whatever it has kept and
selected of the clause that it is in.
-/

namespace Dialogue

namespace Scan

/-- What lies between the delimiters. There is always a last clause, which may be empty. -/
def clauses (settings : Settings) (words : List Word) : List (List Word) :=
  words.splitOnP fun w => settings.isDelimiter w.text

/-- A word as the scan leaves it. -/
def rewritten (table : Table) (w : Word) : Word := ((table.lookup w).bind Entry.substitute).getD w

/-- A word of the clause has an entry with rules. -/
def hasKeyword (table : Table) (clause : List Word) : Bool :=
  clause.any fun w => (table.lookup w).any Entry.hasRules

/-- The clause that the scan keeps. -/
def heeded (table : Table) (clauses : List (List Word)) : List Word :=
  (clauses.find? (hasKeyword table)).getD (clauses.getLastD [])

/-- What is selected after the words of a clause. -/
def favour (table : Table) (selected : Option Selection) (clause : List Word) : Option Selection :=
  clause.foldl
    (fun selected w =>
      match entryOf table w with
      | some (r, e) => Selection.choose selected r e
      | none => selected)
    selected

/-- The selection is the entry of a word of the clause: among the entries with rules it has the highest
rank, and it is the leftmost of that rank. -/
def Leads (table : Table) (clause : List Word) (selected : Selection) : Prop :=
  ∃ before w after e, clause = before ++ w :: after ∧
    table.locate w = some selected.entry ∧ table.get? selected.entry = some e ∧ e.hasRules ∧
    selected.precedence = e.rank ∧
    (∀ v ∈ before, ∀ d, table.lookup v = some d → d.hasRules → d.rank < e.rank) ∧
    ∀ v ∈ after, ∀ d, table.lookup v = some d → d.hasRules → d.rank ≤ e.rank

variable {settings : Settings} {table : Table} {w : Word} {words clause : List Word}
  {more : List (List Word)} {selected : Option Selection} {s : Selection} {r : EntryRef} {e : Entry}

/-! ### Clauses -/

theorem clauses_cons_of_delimiter (hd : settings.isDelimiter w.text) (words : List Word) :
    clauses settings (w :: words) = [] :: clauses settings words := by
  rw [clauses, List.splitOnP_cons_eq_if_modifyHead, if_pos hd, clauses]

theorem clauses_cons_of_not (hd : ¬ settings.isDelimiter w.text)
    (h : clauses settings words = clause :: more) :
    clauses settings (w :: words) = (w :: clause) :: more := by
  rw [clauses] at h
  rw [clauses, List.splitOnP_cons_eq_if_modifyHead, if_neg hd, h, List.modifyHead_cons]

theorem exists_clauses (settings : Settings) (words : List Word) :
    ∃ clause more, clauses settings words = clause :: more :=
  List.exists_cons_of_ne_nil (List.splitOnP_ne_nil _ words)

theorem heeded_cons (table : Table) (clause : List Word) (more : List (List Word)) :
    heeded table (clause :: more) =
      if hasKeyword table clause ∨ more = [] then clause else heeded table more := by
  unfold heeded
  by_cases hk : hasKeyword table clause
  · rw [List.find?_cons_of_pos hk, if_pos (.inl hk), Option.getD_some]
  · rw [List.find?_cons_of_neg hk]
    cases more with
    | nil => simp
    | cons c more => simp [hk]

/-! ### The words of a clause -/

theorem lookup_of_entryOf (h : entryOf table w = some (r, e)) : table.lookup w = some e := by
  obtain ⟨hl, he⟩ := entryOf_eq_some_iff.1 h
  rw [Table.lookup, hl, Option.bind_some, he]

theorem lookup_of_entryOf_eq_none (h : entryOf table w = none) : table.lookup w = none := by
  cases hl : table.locate w with
  | none => rw [Table.lookup, hl, Option.bind_none]
  | some q =>
    cases he : table.get? q with
    | none => rw [Table.lookup, hl, Option.bind_some, he]
    | some e => rw [entryOf_eq_some_iff.2 ⟨hl, he⟩] at h; cases h

theorem choose_of_no_rules (h : ¬ e.hasRules) (selected : Option Selection) (r : EntryRef) :
    Selection.choose selected r e = selected := by
  unfold Selection.choose
  rw [if_pos (by simpa using h)]

theorem isSome_choose (selected : Option Selection) (r : EntryRef) (e : Entry) :
    (Selection.choose selected r e).isSome = (selected.isSome || e.hasRules) := by
  by_cases hr : e.hasRules
  · rcases choose_eq_or selected r e with h | ⟨-, h⟩
    · rw [h, hr]
      cases selected with
      | none => simp [Selection.choose, hr] at h
      | some s => rfl
    · rw [h, hr, Bool.or_true]; rfl
  · rw [choose_of_no_rules hr]
    simp [hr]

theorem isSome_favour (table : Table) (selected : Option Selection) (clause : List Word) :
    (favour table selected clause).isSome = (selected.isSome || hasKeyword table clause) := by
  induction clause generalizing selected with
  | nil => simp [favour, hasKeyword]
  | cons w clause ih =>
    rw [favour, List.foldl_cons]
    cases hw : entryOf table w with
    | none =>
      have hl := lookup_of_entryOf_eq_none hw
      exact (ih selected).trans (by simp [hasKeyword, hl])
    | some x =>
      obtain ⟨r, e⟩ := x
      have hl := lookup_of_entryOf hw
      refine (ih (Selection.choose selected r e)).trans ?_
      rw [isSome_choose]
      simp [hasKeyword, hl, Bool.or_assoc]

/-- With nothing kept or selected, the first clause and those after it come to the one that is heeded. -/
theorem of_heeded_cons (table : Table) (clause : List Word) (more : List (List Word)) :
    (if (favour table none clause).isSome ∨ more = [] then
        ([] ++ clause.map (rewritten table), favour table none clause)
      else ((heeded table more).map (rewritten table), favour table none (heeded table more))) =
      ((heeded table (clause :: more)).map (rewritten table),
        favour table none (heeded table (clause :: more))) := by
  rw [heeded_cons, isSome_favour, Option.isSome_none, Bool.false_or, List.nil_append]
  split <;> rfl

/-- The words that are kept of an input, and what is selected, from the clause that a sweep is in. -/
theorem sweep_eq_of_clauses (h : clauses settings words = clause :: more) (kept : List Word)
    (selected : Option Selection) :
    sweep settings table kept selected words =
      if (favour table selected clause).isSome ∨ more = [] then
        (kept ++ clause.map (rewritten table), favour table selected clause)
      else ((heeded table more).map (rewritten table), favour table none (heeded table more)) := by
  induction words generalizing kept selected clause more with
  | nil =>
    cases h
    simp [sweep, favour]
  | cons w words ih =>
    rw [sweep]
    by_cases hd : settings.isDelimiter w.text
    · rw [if_pos hd]
      rw [clauses_cons_of_delimiter hd] at h
      cases h
      cases selected with
      | some s => simp [favour]
      | none =>
        -- the clause has no keyword, so that the sweep starts again with the next one
        obtain ⟨next, rest, hnext⟩ := exists_clauses settings words
        have hgo : ¬ ((favour table none []).isSome ∨ clauses settings words = []) := by
          simp [favour, hnext]
        rw [if_neg hgo, hnext, ← of_heeded_cons]
        exact ih hnext [] none
    · rw [if_neg hd]
      obtain ⟨next, rest, hnext⟩ := exists_clauses settings words
      rw [clauses_cons_of_not hd hnext] at h
      cases h
      cases hw : entryOf table w with
      | none =>
        have hl := lookup_of_entryOf_eq_none hw
        simp only [ih hnext, favour, List.foldl_cons, hw, List.map_cons, rewritten, hl]
        simp
      | some x =>
        obtain ⟨r, e⟩ := x
        have hl := lookup_of_entryOf hw
        simp only [ih hnext, favour, List.foldl_cons, hw, List.map_cons, rewritten, hl]
        simp

/-- A sweep keeps the clause that is heeded. -/
theorem sweep_eq (settings : Settings) (table : Table) (words : List Word) :
    sweep settings table [] none words =
      ((heeded table (clauses settings words)).map (rewritten table),
        favour table none (heeded table (clauses settings words))) := by
  obtain ⟨clause, more, h⟩ := exists_clauses settings words
  rw [sweep_eq_of_clauses h, h, of_heeded_cons]

/-! ### The leading keyword -/

namespace Leads

theorem bound (h : Leads table clause s) :
    ∀ v ∈ clause, ∀ d, table.lookup v = some d → d.hasRules → d.rank ≤ s.precedence := by
  obtain ⟨before, w, after, e, rfl, hl, he, hr, hp, hbefore, hafter⟩ := h
  intro v hv d hd hdr
  rw [hp]
  rcases List.mem_append.1 hv with hv | hv
  · exact UInt32.le_of_lt (hbefore v hv d hd hdr)
  · rcases List.mem_cons.1 hv with rfl | hv
    · rw [Table.lookup, hl, Option.bind_some, he] at hd
      cases hd
      exact UInt32.le_refl _
    · exact hafter v hv d hd hdr

/-- A word of no higher rank does not take over. -/
theorem concat (h : Leads table clause s)
    (hw : ∀ d, table.lookup w = some d → d.hasRules → d.rank ≤ s.precedence) :
    Leads table (clause ++ [w]) s := by
  obtain ⟨before, v, after, e, rfl, hl, he, hr, hp, hbefore, hafter⟩ := h
  refine ⟨before, v, after ++ [w], e, by simp, hl, he, hr, hp, hbefore, fun u hu => ?_⟩
  rcases List.mem_append.1 hu with hu | hu
  · exact hafter u hu
  · rw [List.mem_singleton.1 hu, ← hp]
    exact hw

/-- A word of a rank that no word before it has takes over. -/
theorem last (hw : entryOf table w = some (r, e)) (hr : e.hasRules)
    (hbefore : ∀ v ∈ clause, ∀ d, table.lookup v = some d → d.hasRules → d.rank < e.rank) :
    Leads table (clause ++ [w]) ⟨r, e.rank⟩ := by
  obtain ⟨hl, he⟩ := entryOf_eq_some_iff.1 hw
  exact ⟨clause, w, [], e, rfl, hl, he, hr, rfl, hbefore, nofun⟩

end Leads

/-- Nothing is selected if no word of the clause has an entry with rules, and else what leads the clause. -/
def Led (table : Table) (clause : List Word) : Option Selection → Prop
  | none => ∀ v ∈ clause, ∀ d, table.lookup v = some d → ¬ d.hasRules
  | some s => Leads table clause s

namespace Led

theorem concat (h : Led table clause selected)
    (hw : ∀ d, table.lookup w = some d → ¬ d.hasRules) : Led table (clause ++ [w]) selected := by
  cases selected with
  | none =>
    intro v hv d hd
    rcases List.mem_append.1 hv with hv | hv
    · exact h v hv d hd
    · rw [List.mem_singleton.1 hv] at hd
      exact hw d hd
  | some s => exact Leads.concat h fun d hd hr => absurd hr (hw d hd)

/-- The choice keeps what is selected if it ties with it, and so the leftmost word. -/
theorem choose (h : Led table clause selected) (hw : entryOf table w = some (r, e)) (hr : e.hasRules) :
    Led table (clause ++ [w]) (Selection.choose selected r e) := by
  unfold Selection.choose
  rw [if_neg (by simp [hr])]
  cases selected with
  | none => exact Leads.last hw hr fun v hv d hd hdr => absurd hdr (h v hv d hd)
  | some best =>
    dsimp only
    split
    · rename_i hlt
      exact Leads.last hw hr fun v hv d hd hdr => UInt32.lt_of_le_of_lt (Leads.bound h v hv d hd hdr) hlt
    · rename_i hle
      refine Leads.concat h fun d hd _ => ?_
      rw [lookup_of_entryOf hw] at hd
      cases hd
      exact UInt32.not_lt.1 hle

end Led

theorem led_favour (table : Table) (clause : List Word) : Led table clause (favour table none clause) := by
  induction clause using List.reverseRecOn with
  | nil => exact nofun
  | append_singleton clause w ih =>
    have hfavour : favour table none (clause ++ [w]) =
        match entryOf table w with
        | some (r, e) => Selection.choose (favour table none clause) r e
        | none => favour table none clause := by
      simp only [favour, List.foldl_append, List.foldl_cons, List.foldl_nil]
    rw [hfavour]
    cases hw : entryOf table w with
    | none =>
      refine ih.concat fun d hd => ?_
      rw [lookup_of_entryOf_eq_none hw] at hd
      cases hd
    | some x =>
      obtain ⟨r, e⟩ := x
      by_cases hr : e.hasRules
      · exact ih.choose hw hr
      · dsimp only
        rw [choose_of_no_rules hr]
        refine ih.concat fun d hd => ?_
        rw [lookup_of_entryOf hw] at hd
        cases hd
        exact hr

theorem exists_favour (hk : hasKeyword table clause) :
    ∃ s, favour table none clause = some s ∧ Leads table clause s := by
  obtain ⟨s, hs⟩ : ∃ s, favour table none clause = some s := by
    rw [← Option.isSome_iff_exists, isSome_favour, hk, Bool.or_true]
  have hled := led_favour table clause
  rw [hs] at hled
  exact ⟨s, hs, hled⟩

theorem favour_eq_none (hk : hasKeyword table clause = false) : favour table none clause = none := by
  rw [← Option.isNone_iff_eq_none, ← Option.not_isSome, isSome_favour, hk]
  rfl

end Scan

namespace Session

variable {s : Session}

/-- The scan of words keeps one clause of them. If a clause has a keyword with rules, the first such
clause is kept and leads to the entry that leads it; if there is none, the last clause is kept and leads
to no entry. -/
theorem scan_heeds_clause (words : List Word) (hwords : s.input.data = words.map .word)
    (hnone : s.selection = none) :
    let clauses := Scan.clauses s.settings words
    (∀ clause, clauses.find? (Scan.hasKeyword s.table) = some clause →
      ∃ input selected, Scan.Leads s.table clause selected ∧
        input.data = (clause.map (Scan.rewritten s.table)).map .word ∧
        s.transition .scan = (.dispatch, { s with input := input, selection := some selected })) ∧
    (clauses.find? (Scan.hasKeyword s.table) = none →
      ∃ input clause, clauses.getLast? = some clause ∧
        input.data = (clause.map (Scan.rewritten s.table)).map .word ∧
        s.transition .scan = (.fallBack, { s with input := input, selection := none })) := by
  intro clauses
  obtain ⟨input, -, hinput, hscan⟩ := exists_scan hwords
  rw [hnone, Scan.sweep_eq] at hinput hscan
  constructor
  · intro clause hfind
    have hheeded : Scan.heeded s.table clauses = clause := by rw [Scan.heeded, hfind, Option.getD_some]
    rw [hheeded] at hinput hscan
    obtain ⟨selected, hs, hleads⟩ := Scan.exists_favour (List.find?_some hfind)
    rw [hs] at hscan
    exact ⟨input, selected, hleads, hinput, hscan⟩
  · intro hfind
    obtain ⟨clause, hlast⟩ : ∃ clause, clauses.getLast? = some clause :=
      Option.isSome_iff_exists.1 (by simp [clauses, Scan.clauses, List.splitOnP_ne_nil])
    have hheeded : Scan.heeded s.table clauses = clause := by
      rw [Scan.heeded, hfind, Option.getD_none, List.getLastD_eq_getLast?, hlast, Option.getD_some]
    rw [hheeded] at hinput hscan
    have hk : Scan.hasKeyword s.table clause = false := by
      simpa using List.find?_eq_none.1 hfind clause (List.mem_of_getLast? hlast)
    rw [Scan.favour_eq_none hk] at hscan
    exact ⟨input, clause, hlast, hinput, hscan⟩

/-- Two pronouns that take each other's place, and two keywords of one rank. -/
def swapping : Table :=
  ([{ keyword := ⟨"I"⟩, substitute := some ⟨"YOU"⟩ },
    { keyword := ⟨"YOU"⟩, substitute := some ⟨"I"⟩ },
    { keyword := ⟨"MY"⟩, substitute := some ⟨"YOUR"⟩, precedence := some 2, items := [.link ⟨"I"⟩] },
    { keyword := ⟨"DOG"⟩, precedence := some 2, items := [.link ⟨"I"⟩] }] : List Entry).foldl
    (fun table e => (table.insert e).2) .empty

/-- A session that is to scan words. -/
def facing (words : List Word) : Session where
  settings := {}
  greeting := []
  table := swapping
  memory := none
  input := Cells.ofWords "INPUT" words

theorem scan_heeds_clause_swapping :
    let plea : List Word := [⟨"I"⟩, ⟨","⟩, ⟨"YOU"⟩, ⟨"PET"⟩, ⟨"MY"⟩, ⟨"DOG"⟩, ⟨"."⟩, ⟨"DOG"⟩]
    let thanks : List Word := [⟨"SO"⟩, ⟨","⟩, ⟨"YOU"⟩]
    (∃ input selected, Scan.Leads swapping [⟨"YOU"⟩, ⟨"PET"⟩, ⟨"MY"⟩, ⟨"DOG"⟩] selected ∧
      input.data = [⟨"I"⟩, ⟨"PET"⟩, ⟨"YOUR"⟩, ⟨"DOG"⟩].map Datum.word ∧
      (facing plea).transition .scan =
        (.dispatch, { facing plea with input := input, selection := some selected })) ∧
    ∃ input, input.data = [⟨"I"⟩].map Datum.word ∧
      (facing thanks).transition .scan =
        (.fallBack, { facing thanks with input := input, selection := none }) := by
  intro plea thanks
  obtain ⟨hplea, -⟩ := scan_heeds_clause (s := facing plea) plea rfl rfl
  obtain ⟨-, hthanks⟩ := scan_heeds_clause (s := facing thanks) thanks rfl rfl
  obtain ⟨input, selected, hleads, hdata, hscan⟩ :=
    hplea [⟨"YOU"⟩, ⟨"PET"⟩, ⟨"MY"⟩, ⟨"DOG"⟩] (by decide +kernel)
  obtain ⟨input', clause, hlast, hdata', hscan'⟩ := hthanks (by decide +kernel)
  have hplea' : List.map (Scan.rewritten swapping) [⟨"YOU"⟩, ⟨"PET"⟩, ⟨"MY"⟩, ⟨"DOG"⟩] =
      [⟨"I"⟩, ⟨"PET"⟩, ⟨"YOUR"⟩, ⟨"DOG"⟩] := by decide +kernel
  have hclause : clause = [⟨"YOU"⟩] := Option.some.inj (hlast.symm.trans (by decide +kernel))
  have hthanks' : List.map (Scan.rewritten swapping) clause = [⟨"I"⟩] := by
    rw [hclause]
    decide +kernel
  exact ⟨⟨input, selected, hleads, hplea' ▸ hdata, hscan⟩, input', hthanks' ▸ hdata', hscan'⟩

end Session

end Dialogue
