import Dialogue.Proofs.Links

/-!
# Turns as evaluation

`evaluate` says directly what a turn comes to from the entry that it starts with: the first item that
applies is used, and a link goes on with the entry that it leads to while hops are left. It knows of
words and of the table only. A session that is settled from the stage `Stage.decompose` comes to the
same reply, the same input and the same table (`settle_decompose`): the redirects it has left are the
hops of the evaluator.
-/

namespace Dialogue

/-! ### The evaluator -/

/-- An item that applies to an input: a link, or the rule with a number and the groups it cuts the
input into. -/
inductive Application where
  | link (keyword : Word)
  | rule (n : Nat) (r : Rule) (groups : List (List Word))

def Item.application? (words : List Word) : Item × Nat → Option Application
  | (.link keyword, _) => some (.link keyword)
  | (.rule r, n) => (decompose r.pattern words).map (.rule n r)

/-- The first item of an entry that applies. -/
def Entry.application? (e : Entry) (words : List Word) : Option Application :=
  e.items.zipIdx.findSome? (Item.application? words)

/-- The table with the turn of a rule passed on. -/
def Table.passOn (t : Table) (entry : EntryRef) (n : Nat) (r : Rule) : Table :=
  t.modify entry fun e => { e with items := e.items.set n (.rule r.passOn) }

/-- What an entry answers: words to say, a keyword to go on with, or nothing. -/
inductive Answer where
  | say (words : List Word)
  | follow (keyword : Word)
  | nothing

/-- An answer, with the input and the table as they are after it. -/
structure Consultation where
  answer : Answer
  input : List Word
  table : Table

/-- Asks an entry about an input. -/
def consult (settings : Settings) (table : Table) (entry : EntryRef) (words : List Word) :
    Consultation :=
  match (table.get? entry).bind (·.application? words) with
  | none => ⟨.nothing, words, table⟩
  | some (.link keyword) => ⟨.follow keyword, words, table⟩
  | some (.rule n r groups) =>
    match r.due with
    | none => ⟨.nothing, words, table⟩
    | some (.say template) =>
      ⟨.say (reassemble template groups settings.placeholder), words, table.passOn entry n r⟩
    | some (.follow keyword) => ⟨.follow keyword, words, table.passOn entry n r⟩
    | some (.rebuild template keyword) =>
      ⟨.follow keyword, reassemble template groups settings.placeholder, table.passOn entry n r⟩

/-- What a turn comes to. -/
structure Evaluation where
  reply : String
  input : List Word
  table : Table

/-- Evaluates an entry on an input. `hops` links may be followed; `acknowledgement` is the reply where
nothing applies. -/
def evaluate (settings : Settings) (acknowledgement : String) (hops : Nat) (table : Table)
    (entry : EntryRef) (words : List Word) : Evaluation :=
  let c := consult settings table entry words
  match c.answer with
  | .say line => ⟨Word.phrase line, c.input, c.table⟩
  | .nothing => ⟨acknowledgement, c.input, c.table⟩
  | .follow keyword =>
    match hops, c.table.locate keyword with
    | hops + 1, some target => evaluate settings acknowledgement hops c.table target c.input
    | _, _ => ⟨acknowledgement, c.input, c.table⟩

/-! ### Items -/

/-- The move that an application is. -/
def Application.move : Application → Move
  | .link keyword => .follow keyword
  | .rule n _ groups => .reply n groups

theorem firstMove_eq (words : List Word) (n : Nat) (items : List Item) :
    firstMove words n items =
      ((items.zipIdx n).findSome? (Item.application? words)).map Application.move := by
  induction items generalizing n with
  | nil => rfl
  | cons item items ih =>
    rw [List.zipIdx_cons, List.findSome?_cons]
    cases item with
    | link keyword => rfl
    | rule r =>
      rw [firstMove, Item.application?]
      cases decompose r.pattern words with
      | none => exact ih (n + 1)
      | some groups => rfl

theorem Entry.firstMove_eq (e : Entry) (words : List Word) :
    firstMove words 0 (e.items.drop 0) = (e.application? words).map Application.move :=
  Dialogue.firstMove_eq words 0 e.items

theorem getElem?_of_findSome? {words : List Word} {items : List Item} {k n : Nat} {r : Rule}
    {groups : List (List Word)}
    (h : (items.zipIdx k).findSome? (Item.application? words) = some (.rule n r groups)) :
    (k ≤ n ∧ items[n - k]? = some (.rule r)) ∧ decompose r.pattern words = some groups := by
  obtain ⟨⟨item, i⟩, hmem, hitem⟩ := List.exists_of_findSome?_eq_some h
  cases item with
  | link => cases hitem
  | rule r' =>
    obtain ⟨_, hg, h⟩ := Option.map_eq_some_iff.1 hitem
    cases h
    exact ⟨List.mk_mem_zipIdx_iff_le_and_getElem?_sub.1 hmem, hg⟩

theorem Entry.getElem?_of_application? {e : Entry} {words : List Word} {n : Nat} {r : Rule}
    {groups : List (List Word)} (h : e.application? words = some (.rule n r groups)) :
    e.items[n]? = some (.rule r) :=
  (getElem?_of_findSome? h).1.2

namespace Session

variable {s t : Session} {entry : EntryRef} {words : List Word} {line : String}

/-! ### A turn from its entry on -/

theorem settle_await (h : s.pending = none) : s.settle .await = s :=
  settle_of_settled (by simp [settled, h])

theorem settle_acknowledge (h : s.pending = none) :
    s.settle .acknowledge = s.emit (s.settings.acknowledgement s.rotation) := by
  rw [settle_of_running rfl]
  exact settle_await h

/-- The session goes on with the entry of a keyword. -/
def pursue (s : Session) (keyword : Word) : Session := (s.redirect keyword).2.settle (s.redirect keyword).1

/-- What comes of an entry is what its answer says. -/
theorem settle_consult (hp : s.pending = none) (hd : s.input.data = words.map .word)
    (entry : EntryRef) :
    ∃ input, input.data = (consult s.settings s.table entry words).input.map .word ∧
      s.settle (.decompose entry 0) =
        let next := { s with input := input, table := (consult s.settings s.table entry words).table }
        match (consult s.settings s.table entry words).answer with
        | .say line => next.emit (Word.phrase line)
        | .nothing => next.emit (s.settings.acknowledgement s.rotation)
        | .follow keyword => next.pursue keyword := by
  rw [settle_of_running rfl, transition, decompose]
  unfold consult
  cases he : s.table.get? entry with
  | none => exact ⟨s.input, hd, settle_acknowledge hp⟩
  | some e =>
    simp only [Option.bind_some, Entry.firstMove_eq, words_of_data hd]
    cases ha : e.application? words with
    | none => exact ⟨s.input, hd, settle_acknowledge hp⟩
    | some application =>
      cases application with
      | link keyword => exact ⟨s.input, hd, rfl⟩
      | rule n r groups =>
        -- two transitions: the item is found again by its number in the table
        have hr : s.rule? entry n = some r :=
          rule?_eq_some_iff.2 ⟨e, he, Entry.getElem?_of_application? ha⟩
        simp only [Option.map_some, Application.move]
        rw [settle_of_running rfl, transition, reassemble, hr]
        cases hdue : r.due with
        | none =>
          simp only [Rule.rotate_of_due_eq_none hdue, setRule_self hr]
          exact ⟨s.input, hd, settle_acknowledge hp⟩
        | some reply =>
          simp only [Rule.rotate_of_due hdue]
          cases reply with
          | say template => exact ⟨s.input, hd, settle_await hp⟩
          | follow keyword => exact ⟨s.input, hd, rfl⟩
          | rebuild template keyword => exact ⟨_, rfl, rfl⟩

theorem pursue_eq (hp : s.pending = none) (keyword : Word) :
    s.pursue keyword =
      let next := { s with redirects := s.redirects + 1 }
      if s.redirects < s.settings.maxRedirects then
        match s.table.locate keyword with
        | some target => next.settle (.decompose target 0)
        | none => next.emit (s.settings.acknowledgement s.rotation)
      else next.emit (s.settings.acknowledgement s.rotation) := by
  rw [pursue, redirect_eq]
  split
  · unfold Table.linkTarget
    cases s.table.locate keyword with
    | none => exact settle_acknowledge hp
    | some target => rfl
  · exact settle_acknowledge hp

/-- A session that goes on with an entry comes to the outcome of the evaluator, with as many hops as
links are left. -/
theorem settle_decompose (hp : s.pending = none) (hd : s.input.data = words.map .word)
    (entry : EntryRef) {hops : Nat} (hh : s.redirects + hops = s.settings.maxRedirects) :
    let o := evaluate s.settings (s.settings.acknowledgement s.rotation) hops s.table entry words
    ∃ input redirects, input.data = o.input.map .word ∧
      s.settle (.decompose entry 0) =
        { s with outbox := s.outbox ++ [o.reply], input, redirects, table := o.table } := by
  -- what is left of the redirects goes down with the hops, so the equation between them is kept
  induction hops using Nat.strongRecOn generalizing s entry words with
  | ind hops ih =>
    obtain ⟨input, hin, hs⟩ := settle_consult hp hd entry
    rw [evaluate.eq_def, hs]
    dsimp only
    cases hc : (consult s.settings s.table entry words).answer with
    | say line => exact ⟨input, s.redirects, hin, rfl⟩
    | nothing => exact ⟨input, s.redirects, hin, rfl⟩
    | follow keyword =>
      dsimp only
      rw [pursue_eq (by exact hp)]
      dsimp only
      cases hops with
      | zero =>
        rw [if_neg (by omega)]
        exact ⟨input, s.redirects + 1, hin, rfl⟩
      | succ hops =>
        rw [if_pos (by omega)]
        cases (consult s.settings s.table entry words).table.locate keyword with
        | none => exact ⟨input, s.redirects + 1, hin, rfl⟩
        | some target =>
          have hleft : s.redirects + 1 + hops = s.settings.maxRedirects := by omega
          exact ih hops (Nat.lt_succ_self _) (s := { s with
            input := input
            redirects := s.redirects + 1
            table := (consult s.settings s.table entry words).table }) hp hin target hleft

/-! ### Whole turns -/

/-- The sentence to remember of the input when it has led to an entry. -/
def sentence? (s : Session) (entry : EntryRef) : Option (List Word) := do
  let m ← s.memory
  let e ← s.table.get? entry
  let last ← s.input.words.getLast?
  let rule ← m.rule? (last.hash 2 + 1)
  let groups ← Dialogue.decompose rule.pattern s.input.words
  if m.keyword ≈ e.keyword then
    some (Dialogue.reassemble rule.template groups s.settings.placeholder)
  else none

theorem memoryOf_eq {m : MemoryRules} {last : Word} (hd : s.input.data = words.map .word)
    (hl : words.getLast? = some last) :
    s.memoryOf m = (do
      let rule ← m.rule? (last.hash 2 + 1)
      let groups ← Dialogue.decompose rule.pattern words
      return Dialogue.reassemble rule.template groups s.settings.placeholder) := by
  unfold memoryOf
  rw [words_of_data hd, hd, List.getLast?_map, hl]
  rfl

theorem remember_eq (hd : s.input.data = words.map .word) (hne : words ≠ []) (entry : EntryRef) :
    s.remember entry = { s with memories := s.memories ++ (s.sentence? entry).toList } := by
  have hl := List.getLast?_eq_some_getLast hne
  have hnone (h : s.sentence? entry = none) :
      { s with memories := s.memories ++ (s.sentence? entry).toList } = s := by
    simp [h]
  unfold remember
  split
  · rename_i m e hm he
    split
    · rename_i hk
      rw [memoryOf_eq hd hl]
      simp only [sentence?, words_of_data hd, hm, he, hl, if_pos hk, Option.bind_eq_bind,
        Option.bind_some, Option.pure_def]
    · rename_i hk
      refine (hnone ?_).symm
      simp only [sentence?, hm, he, if_neg hk, Option.bind_eq_bind, Option.bind_some,
        Option.bind_fun_none]
  · rename_i hmiss
    refine (hnone ?_).symm
    cases hm : s.memory with
    | none => simp [sentence?, hm]
    | some m =>
      cases he : s.table.get? entry with
      | none => simp [sentence?, hm, he]
      | some e => exact (hmiss m e hm he).elim

/-- The memories when a turn has been dispatched. -/
def memoriesAfter (s : Session) : List (List Word) :=
  s.memories ++ (s.selection.bind fun selected => s.sentence? selected.entry).toList

theorem memoriesAfter_of_none (h : s.selection = none) : s.memoriesAfter = s.memories := by
  simp [memoriesAfter, h]

theorem dispatch_eq {selected : Selection} (hs : s.selection = some selected)
    (hd : s.input.data = words.map .word) (hne : words ≠ []) :
    s.dispatch = (.decompose selected.entry 0, { s with memories := s.memoriesAfter }) := by
  rw [dispatch, hs]
  dsimp only
  rw [remember_eq hd hne, memoriesAfter, hs]
  rfl

/-- The entry that a turn goes on with after its scan. -/
def chosen (s : Session) : Option EntryRef :=
  match s.selection with
  | some selected => some selected.entry
  | none =>
    if s.rotation = 4 ∧ s.memories ≠ [] then none
    else if s.table.fallback.any Entry.hasRules then some .fallback
    else none

theorem chosen_of_selection {selected : Selection} (hs : s.selection = some selected) :
    s.chosen = some selected.entry := by
  rw [chosen, hs]

theorem chosen_of_rules (hs : s.selection = none) (hr : ¬ (s.rotation = 4 ∧ s.memories ≠ []))
    (hf : s.table.fallback.any Entry.hasRules) : s.chosen = some .fallback := by
  simp only [chosen, hs, if_neg hr, if_pos hf]

theorem chosen_eq_none (hs : s.selection = none)
    (h : (s.rotation = 4 ∧ s.memories ≠ []) ∨ ¬ s.table.fallback.any Entry.hasRules) :
    s.chosen = none := by
  simp only [chosen, hs]
  rcases h with hr | hf
  · rw [if_pos hr]
  · rw [if_neg hf, ite_self]

/-- The outcome of a turn from its scan on. -/
def outcome (s : Session) (entry : EntryRef) : Evaluation :=
  evaluate s.settings (s.settings.acknowledgement s.rotation) s.settings.maxRedirects s.table entry
    s.input.words

/-- What a turn on a line comes to: the lines that are said, and the session after it. -/
inductive Comes (s : Session) (line : String) : List String × Session → Prop
  | closed (hb : Text.isBlankText line) :
      Comes s line
        (s.outbox ++ [s.settings.closing], { s with pending := none, finished := true, outbox := [] })
  | refused (hb : Text.isBlankText line = false) (hc : (s.heard line).isCommand) :
      Comes s line (s.outbox ++ [s.settings.unsupportedReply], { s.heard line with outbox := [] })
  | recalled {memory : List Word} {rest : List (List Word)} (ho : s.Ordinary line)
      (hs : (s.scanned line).selection = none) (hr : (s.scanned line).rotation = 4)
      (hm : s.memories = memory :: rest) :
      Comes s line
        (s.outbox ++ [Word.phrase memory], { s.scanned line with memories := rest, outbox := [] })
  | evaluated {entry : EntryRef} {input : Cells} {redirects : Nat} (ho : s.Ordinary line)
      (hc : (s.scanned line).chosen = some entry)
      (hd : input.data = ((s.scanned line).outcome entry).input.map .word) :
      Comes s line
        (s.outbox ++ [((s.scanned line).outcome entry).reply],
          { s.scanned line with
            input, redirects
            memories := (s.scanned line).memoriesAfter
            table := ((s.scanned line).outcome entry).table
            outbox := [] })
  | acknowledged (ho : s.Ordinary line) (hs : (s.scanned line).selection = none)
      (hr : ¬ ((s.scanned line).rotation = 4 ∧ s.memories ≠ []))
      (hf : ¬ s.table.fallback.any Entry.hasRules) :
      Comes s line
        (s.outbox ++ [s.settings.acknowledgement (s.scanned line).rotation],
          { s.scanned line with outbox := [] })

theorem settle_line_blank (hb : Text.isBlankText line) :
    settle { s with pending := some line } .await =
      { s.emit s.settings.closing with pending := none, finished := true } := by
  rw [settle_of_running rfl]
  simp only [transition, takeLine, hb, if_true]
  rw [settle_of_running rfl]
  exact settle_of_settled rfl

theorem settle_line_command (hb : Text.isBlankText line = false) (hc : (s.heard line).isCommand) :
    settle { s with pending := some line } .await =
      (s.heard line).emit s.settings.unsupportedReply := by
  have h1 : transition { s with pending := some line } .await = (.vet, s.heard line) := turn_one hb
  rw [settle_of_running rfl, h1, settle_of_running rfl]
  simp only [transition, vet, hc, if_true]
  exact settle_await rfl

theorem settle_line (ho : s.Ordinary line) :
    settle { s with pending := some line } .await =
      (s.scanned line).settle
        (if (s.scanned line).selection.isSome then .dispatch else .fallBack) := by
  have h1 : transition { s with pending := some line } .await = (.vet, s.heard line) :=
    turn_one ho.notBlank
  have h2 : transition (s.heard line) .vet = (.scan, s.counted line) := by
    simp only [transition, vet, ho.notCommand]
    rfl
  rw [settle_of_running rfl, h1, settle_of_running rfl, h2, settle_of_running rfl]
  show ((s.counted line).scan.2).settle (s.counted line).scan.1 = _
  rw [scan_counted_eq]

theorem settle_line_dispatch {selected : Selection} (ho : s.Ordinary line)
    (hs : (s.scanned line).selection = some selected) :
    settle { s with pending := some line } .await =
      settle { s.scanned line with memories := (s.scanned line).memoriesAfter }
        (.decompose selected.entry 0) := by
  have hne : (s.swept line).1 ≠ [] := swept_ne_nil (by simp [hs])
  rw [settle_line ho, hs, Option.isSome_some, if_pos rfl, settle_of_running rfl, transition,
    dispatch_eq hs (s.scanned_data line) hne]

theorem settle_line_fallBack (ho : s.Ordinary line) (hs : (s.scanned line).selection = none) :
    settle { s with pending := some line } .await =
      (s.scanned line).fallBack.2.settle (s.scanned line).fallBack.1 := by
  rw [settle_line ho, hs]
  exact settle_of_running rfl

/-- A turn that goes on with an entry comes to its outcome. -/
theorem comes_evaluated {entry : EntryRef} (hf : s.finished = false) (ho : s.Ordinary line)
    (hc : (s.scanned line).chosen = some entry)
    (hs : settle { s with pending := some line } .await =
      settle { s.scanned line with memories := (s.scanned line).memoriesAfter } (.decompose entry 0)) :
    s.Comes line (s.respond line) := by
  have hleft : (s.scanned line).redirects + s.settings.maxRedirects =
      (s.scanned line).settings.maxRedirects := by
    simp
  obtain ⟨input, redirects, hin, hd⟩ := settle_decompose
    (s := { s.scanned line with memories := (s.scanned line).memoriesAfter }) (s.scanned_pending line)
    (s.scanned_data line) entry hleft
  have hin : input.data = ((s.scanned line).outcome entry).input.map .word := by
    rw [outcome, scanned_settings, scanned_words]
    simpa using hin
  rw [respond_of_unfinished hf, hs, hd, collect]
  simpa [outcome, scanned_words] using @Comes.evaluated s line entry input redirects ho hc hin

/-- A turn without a keyword says a memory, uses the fallback entry, or is acknowledged. -/
theorem comes_fallBack (hf : s.finished = false) (ho : s.Ordinary line)
    (hs : (s.scanned line).selection = none) : s.Comes line (s.respond line) := by
  have hline := settle_line_fallBack ho hs
  have hp : (s.scanned line).pending = none := s.scanned_pending line
  have hg := (s.scanned line).goes_fallBack
  generalize (s.scanned line).fallBack = r at hline hg
  cases hg with
  | recalls hr hm =>
    rw [respond_of_unfinished hf, hline, settle_await (by exact hp), collect]
    simpa [emit] using Comes.recalled ho hs hr (s.scanned_memories line ▸ hm)
  | fallsBack hr hrules =>
    refine comes_evaluated hf ho (chosen_of_rules hs hr hrules) ?_
    rw [hline, memoriesAfter_of_none hs]
  | shrugs hr hrules =>
    rw [respond_of_unfinished hf, hline, settle_acknowledge (by exact hp), collect]
    simpa [emit] using Comes.acknowledged ho hs (s.scanned_memories line ▸ hr)
      (s.scanned_table line ▸ hrules)

/-- What a turn can come to, it does come to. -/
theorem comes (hf : s.finished = false) (line : String) : s.Comes line (s.respond line) := by
  cases hb : Text.isBlankText line with
  | true =>
    rw [respond_of_unfinished hf, settle_line_blank hb]
    exact .closed hb
  | false =>
    cases hcmd : (s.heard line).isCommand with
    | true =>
      rw [respond_of_unfinished hf, settle_line_command hb hcmd]
      exact .refused hb hcmd
    | false =>
      have ho : s.Ordinary line := ⟨hb, hcmd⟩
      cases hs : (s.scanned line).selection with
      | some selected =>
        exact comes_evaluated hf ho (chosen_of_selection hs) (settle_line_dispatch ho hs)
      | none => exact comes_fallBack hf ho hs

/-! ### From turn to turn -/

namespace Comes

variable {r : List String × Session}

theorem outbox (h : s.Comes line r) : r.2.outbox = [] := by
  cases h <;> rfl

theorem settings (h : s.Comes line r) : r.2.settings = s.settings := by
  cases h <;> simp [heard]

theorem memory (h : s.Comes line r) : r.2.memory = s.memory := by
  cases h <;> simp [heard]

/-- The turn of a line that goes on with an entry has no other end than its outcome. -/
theorem of_chosen {entry : EntryRef} (h : s.Comes line r) (ho : s.Ordinary line)
    (hc : (s.scanned line).chosen = some entry) :
    r.1 = s.outbox ++ [((s.scanned line).outcome entry).reply] ∧
      r.2.input.data = ((s.scanned line).outcome entry).input.map .word ∧
      r.2.memories = (s.scanned line).memoriesAfter ∧
      r.2.table = ((s.scanned line).outcome entry).table := by
  cases h with
  | closed hb => simp [ho.notBlank] at hb
  | refused _ hcmd => simp [ho.notCommand] at hcmd
  | recalled _ hs hr hm =>
    rw [chosen_eq_none hs (.inl ⟨hr, by simp [hm]⟩)] at hc
    cases hc
  | evaluated _ hc' hd =>
    cases hc.symm.trans hc'
    exact ⟨rfl, hd, rfl, rfl⟩
  | acknowledged _ hs _ hf =>
    rw [chosen_eq_none hs (.inr (by rwa [scanned_table]))] at hc
    cases hc

end Comes

/-- What a script is and what a session was started with does not change from turn to turn. -/
theorem respond_kept (s : Session) (line : String) :
    (s.respond line).2.settings = s.settings ∧ (s.respond line).2.memory = s.memory ∧
      (s.outbox = [] → (s.respond line).2.outbox = []) := by
  cases hf : s.finished with
  | true => rw [respond_of_finished hf]; exact ⟨rfl, rfl, id⟩
  | false =>
    have := comes hf line
    exact ⟨this.settings, this.memory, fun _ => this.outbox⟩

theorem converse_kept (script : Script) (settings : Settings) (lines : List String) :
    ((start script settings).converse lines).settings = settings ∧
      ((start script settings).converse lines).memory = script.memory ∧
      ((start script settings).converse lines).outbox = [] := by
  refine converse_invariant (P := fun s =>
    s.settings = settings ∧ s.memory = script.memory ∧ s.outbox = []) ⟨rfl, rfl, rfl⟩ ?_ lines
  rintro s line ⟨hs, hm, ho⟩
  obtain ⟨hs', hm', ho'⟩ := s.respond_kept line
  exact ⟨hs'.trans hs, hm'.trans hm, ho' ho⟩

theorem chosen_of_turn {k : Nat} (hk : s.turn line k = (.dispatch, t) ∨
      s.turn line k = (.fallBack, t) ∧ (s.turn line (k + 1)).1 = .decompose .fallback 0) :
    s.Ordinary line ∧ s.scanned line = t ∧
      t.chosen = some ((t.selection.map Selection.entry).getD .fallback) := by
  rcases hk with hk | ⟨hk, hnext⟩
  · obtain ⟨ho, -, ht, hs⟩ := turn_of_choice hk (.inl rfl)
    refine ⟨ho, ht, ?_⟩
    cases hsel : t.selection with
    | none => rw [hsel] at hs; cases hs
    | some selected => exact chosen_of_selection hsel
  · obtain ⟨ho, -, ht, hs⟩ := turn_of_choice hk (.inr rfl)
    refine ⟨ho, ht, ?_⟩
    have hsel : t.selection = none := by
      by_contra hne
      rw [if_pos (Option.isSome_iff_ne_none.2 hne)] at hs
      cases hs
    rw [turn_succ, hk] at hnext
    have hnext : t.fallBack.1 = .decompose .fallback 0 := hnext
    have hg := t.goes_fallBack
    generalize t.fallBack = r at hnext hg
    cases hg with
    | recalls | shrugs => cases hnext
    | fallsBack hr hrules => rw [hsel]; exact chosen_of_rules hsel hr hrules

/-- A turn that reaches an entry comes to what the evaluator says: the reply, the input, the memories
and the positions of all rules are the same. -/
theorem respond_evaluates (script : Script) (settings : Settings) (lines : List String) (line : String)
    (k : Nat) (t : Session) (ho : ((start script settings).converse lines).finished = false)
    (hk : ((start script settings).converse lines).turn line k = (.dispatch, t) ∨
      ((start script settings).converse lines).turn line k = (.fallBack, t) ∧
        (((start script settings).converse lines).turn line (k + 1)).1 = .decompose .fallback 0) :
    let r := ((start script settings).converse lines).respond line
    let o := evaluate settings (settings.acknowledgement t.rotation) settings.maxRedirects t.table
      ((t.selection.map Selection.entry).getD .fallback) t.input.words
    r.1 = [o.reply] ∧ r.2.input.data = o.input.map .word ∧
      r.2.memories =
        t.memories ++ (t.selection.bind fun selected => t.sentence? selected.entry).toList ∧
      r.2.table = o.table := by
  obtain ⟨hset, -, hout⟩ := converse_kept script settings lines
  obtain ⟨hord, rfl, hc⟩ := chosen_of_turn hk
  have h := (comes ho line).of_chosen hord hc
  rw [hout, outcome, scanned_settings, hset] at h
  exact h

/-- A script whose first entry rebuilds the input for the second. -/
def rebuilding : Script where
  greeting := []
  table :=
    ((Table.empty.insert
      { keyword := ⟨"A"⟩
        items := [.rule
          { pattern := [.gap 0, .word ⟨"A"⟩, .gap 0]
            replies := [.rebuild [.word ⟨"I"⟩, .group 3] ⟨"B"⟩] }] }).2.insert
      { keyword := ⟨"B"⟩
        items := [.rule
          { pattern := [.gap 0], replies := [.say [.word ⟨"SO"⟩, .group 1], .say []] }] }).2

theorem respond_evaluates_rebuilding :
    (start rebuilding {}).finished = false ∧
      (start rebuilding {}).turn "A C" 3 = (.dispatch, ((start rebuilding {}).turn "A C" 3).2) ∧
      ((start rebuilding {}).respond "A C").1 = ["SO I C"] ∧
      ((start rebuilding {}).respond "A C").2.input.data = [.word ⟨"I"⟩, .word ⟨"C"⟩] := by
  have hk : (start rebuilding {}).turn "A C" 3 = (.dispatch, ((start rebuilding {}).turn "A C" 3).2) :=
    Prod.ext (by decide +kernel) rfl
  have h := respond_evaluates rebuilding {} [] "A C" 3 _ rfl (.inl hk)
  refine ⟨rfl, hk, h.1.trans (by decide +kernel), h.2.1.trans ?_⟩
  show _ = List.map Datum.word [⟨"I"⟩, ⟨"C"⟩]
  exact congrArg (List.map Datum.word) (by decide +kernel)

end Session

end Dialogue
