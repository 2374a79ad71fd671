import Dialogue.Proofs.CapitalReading
import Dialogue.Proofs.CapitalTurn
import Dialogue.Proofs.Loading
import Dialogue.Proofs.Scratch

/-!
# Case is ignored

A session in capitals (`Session.capitals`) says what the session says, in capitals
(`Session.verdict_capitals`), and a line in capitals is answered as the line is
(`Session.verdict_upperText`). So two sessions that are the same in capitals stay so, whatever the
spelling of the lines that they are given, and two scripts that are equal up to case start such
sessions.
-/

namespace Dialogue

open Text

namespace Session

variable {s t : Session} {line line' : String}

/-- The session with all its words in capitals, and without scratch state. -/
def capitals (s : Session) : Session :=
  { s.rested with
    settings := s.settings.upper
    table := s.table.upper
    memory := s.memory.map MemoryRules.upper
    memories := s.memories.map (List.map Word.upper)
    outbox := s.outbox.map upperText }

theorem swept_capitals (s : Session) (line : String) :
    s.capitals.swept line = ((s.swept line).1.map Word.upper, (s.swept line).2) :=
  Scan.sweep_upper s.settings s.table [] none fun _ => Sentence.upper_of_mem_words

theorem chosen_capitals (s : Session) (line : String) :
    (s.capitals.scanned line).chosen = (s.scanned line).chosen := by
  have hfallback : s.table.upper.fallback.any Entry.hasRules = s.table.fallback.any Entry.hasRules := by
    rw [Table.upper]
    cases s.table.fallback with
    | none => rfl
    | some e => exact e.hasRules_upper
  simp only [chosen, scanned_selection, scanned_rotation, scanned_memories, scanned_table, swept_capitals]
  simp only [capitals, rested, hfallback, ne_eq, List.map_eq_nil_iff]

theorem outcome_capitals (s : Session) (line : String) (entry : EntryRef) :
    (s.capitals.scanned line).outcome entry = ((s.scanned line).outcome entry).upper := by
  simp only [outcome, scanned_settings, scanned_rotation, scanned_table, scanned_words, swept_capitals]
  rw [← evaluate_upper, ← Settings.acknowledgement_upper]
  rfl

theorem sentence?_capitals (s : Session) (line : String) (entry : EntryRef) :
    (s.capitals.scanned line).sentence? entry =
      ((s.scanned line).sentence? entry).map (List.map Word.upper) := by
  simp only [sentence?, scanned_settings, scanned_memory, scanned_table, scanned_words, swept_capitals]
  simp only [capitals, Table.get?_upper, List.getLast?_map]
  cases s.memory with
  | none => rfl
  | some m =>
    cases s.table.get? entry with
    | none => rfl
    | some e =>
      cases (s.swept line).1.getLast? with
      | none => rfl
      | some last =>
        simp only [Option.map_some, Option.bind_eq_bind, Option.bind_some, Word.hash_upper,
          MemoryRules.rule?_upper]
        cases m.rule? (last.hash 2 + 1) with
        | none => rfl
        | some r =>
          simp only [Option.map_some, Option.bind_some, FlatRule.upper, decompose_upper]
          cases Dialogue.decompose r.pattern (s.swept line).1 with
          | none => rfl
          | some groups =>
            simp only [Option.map_some, Option.bind_some, MemoryRules.upper, Entry.keyword_upper,
              Word.upper_equiv_upper_iff, Settings.upper, reassemble_upper]
            split <;> rfl

theorem memoriesAfter_capitals (s : Session) (line : String) :
    (s.capitals.scanned line).memoriesAfter =
      (s.scanned line).memoriesAfter.map (List.map Word.upper) := by
  simp only [memoriesAfter, scanned_selection, scanned_memories, swept_capitals, sentence?_capitals,
    List.map_append]
  cases (s.swept line).2 with
  | none => rfl
  | some selected =>
    simp only [Option.bind_some]
    cases (s.scanned line).sentence? selected.entry <;> rfl

theorem counsel_capitals (s : Session) (line : String) :
    s.capitals.counsel line = (upperText (s.counsel line).1, (s.counsel line).2.capitals) := by
  unfold counsel
  simp only [chosen_capitals, outcome_capitals, memoriesAfter_capitals, scanned_rotation]
  cases (s.scanned line).chosen with
  | some entry => rfl
  | none =>
    have hdue : (if s.capitals.rotation % 4 + 1 = 4 then s.capitals.memories else []) =
        (if s.rotation % 4 + 1 = 4 then s.memories else []).map (List.map Word.upper) := by
      rw [apply_ite (List.map (List.map Word.upper))]
      rfl
    dsimp only
    rw [hdue]
    cases if s.rotation % 4 + 1 = 4 then s.memories else [] with
    | nil => exact Prod.ext (s.settings.acknowledgement_upper _) rfl
    | cons memory rest => exact Prod.ext (Word.phrase_upper memory) rfl

/-- A session in capitals says the same in capitals, and is left in capitals. -/
theorem verdict_capitals (s : Session) (line : String) :
    s.capitals.verdict line = (upperText (s.verdict line).1, (s.verdict line).2.capitals) := by
  unfold verdict
  by_cases hb : isBlankText line
  · rw [if_pos hb, if_pos hb]
    rfl
  · rw [if_neg hb, if_neg hb]
    have hc : s.capitals.settings.startsCommand (Sentence.words line) =
        s.settings.startsCommand (Sentence.words line) := rfl
    rw [hc]
    split
    · rfl
    · exact s.counsel_capitals line

/-- A line in capitals is answered as the line is. -/
theorem verdict_upperText (s : Session) (line : String) :
    s.verdict (upperText line) = s.verdict line :=
  verdict_congr (isBlankText_upperText line) (Sentence.words_upperText line) s

/-! ### Sessions that are the same in capitals -/

/-- Two sessions that are the same in capitals, on lines that are the same in capitals, say the same
in capitals and are the same in capitals again. -/
theorem respond_of_capitals (h : s.capitals = t.capitals) (hl : upperText line = upperText line') :
    (s.respond line).1.map upperText = (t.respond line').1.map upperText ∧
      (s.respond line).2.capitals = (t.respond line').2.capitals := by
  have hf : s.finished = t.finished := (congrArg Session.finished h :)
  have ho : s.outbox.map upperText = t.outbox.map upperText := (congrArg Session.outbox h :)
  cases hs : s.finished with
  | true =>
    rw [respond_of_finished hs, respond_of_finished (hf ▸ hs)]
    exact ⟨rfl, h⟩
  | false =>
    obtain ⟨hr, hn⟩ := (comes hs line).eq_verdict
    obtain ⟨hr', hn'⟩ := (comes (hf ▸ hs) line').eq_verdict
    -- both verdicts are that of one session in capitals on one line in capitals
    have hv : (upperText (s.verdict line).1, (s.verdict line).2.capitals) =
        (upperText (t.verdict line').1, (t.verdict line').2.capitals) := by
      rw [← verdict_capitals, ← verdict_capitals, h, ← verdict_upperText _ line, hl, verdict_upperText]
    obtain ⟨hreply, hnext⟩ := Prod.mk.inj hv
    constructor
    · rw [hr, hr', List.map_append, List.map_append, ho, List.map_singleton, List.map_singleton, hreply]
    · rw [← hn, ← hn'] at hnext
      exact hnext

theorem replies_of_capitals {lines lines' : List String} (h : s.capitals = t.capitals)
    (hl : List.Forall₂ (fun a b => upperText a = upperText b) lines lines') :
    List.Forall₂ (fun r r' => r.map upperText = r'.map upperText) (s.replies lines) (t.replies lines') ∧
      (s.converse lines).capitals = (t.converse lines').capitals := by
  refine replies_related (R := fun s t => s.capitals = t.capitals) ?_ h hl
  exact fun h hl => respond_of_capitals h hl

end Session

/-! ### Scripts that are the same in capitals -/

namespace Script

theorem capitals_start {a b : Script} (h : a.upper = b.upper) (settings : Settings) :
    (Session.start a settings).capitals = (Session.start b settings).capitals := by
  have htable : a.table.upper = b.table.upper := congrArg Script.table h
  have hmemory : a.memory.map MemoryRules.upper = b.memory.map MemoryRules.upper :=
    congrArg Script.memory h
  simp only [Session.capitals, Session.rested, Session.start, htable, hmemory]

/-- Case is ignored everywhere. -/
theorem case_is_ignored {source source' : String} {lists lists' : List (List Datum)}
    (hread : (Source.Reader.ofSource source).bind Source.Reader.all = .ok lists)
    (hread' : (Source.Reader.ofSource source').bind Source.Reader.all = .ok lists')
    (hsame : List.Forall₂ (fun a b => Datum.sameAll a b) lists lists') :
    (load source).isOk = (load source').isOk ∧
      ∀ script script', load source = .ok script → load source' = .ok script' →
        ∀ settings lines lines', List.Forall₂ (fun a b => upperText a = upperText b) lines lines' →
          let s := Session.start script settings
          let s' := Session.start script' settings
          List.Forall₂ (fun r r' => r.map upperText = r'.map upperText) (s.replies lines)
            (s'.replies lines') ∧
          (s.converse lines).rotation = (s'.converse lines').rotation ∧
          (s.converse lines).memories.length = (s'.converse lines').memories.length := by
  have hload := follows_ofLists lists
  have hload' := follows_ofLists lists'
  rw [← load_of_readAll hread] at hload
  rw [← load_of_readAll hread', ← Datum.map_upper_of_same hsame] at hload'
  obtain ⟨hok, heq⟩ := hload.alike hload'
  refine ⟨hok, fun script script' hs hs' settings lines lines' hl => ?_⟩
  have hcapitals := capitals_start (heq script script' hs hs') settings
  obtain ⟨hreplies, hafter⟩ := Session.replies_of_capitals hcapitals hl
  have hrotation := congrArg Session.rotation hafter
  have hmemories := congrArg (List.length ∘ Session.memories) hafter
  refine ⟨hreplies, hrotation, ?_⟩
  simpa [Session.capitals] using hmemories

/-- A sharp s in the script and in the line, and its two capitals in the other script and the other
line. -/
theorem case_is_ignored_sharp_s :
    ∃ script script', load "(hi)(straße ((0) (wo 1 ?)))()" = .ok script ∧
      load "(HI)(STRASSE ((0) (WO 1 ?)))()" = .ok script' ∧
      (Session.start script {}).replies ["Die Straße!"] = [["wo DIE STRASSE ?"]] ∧
      List.Forall₂ (fun r r' => r.map upperText = r'.map upperText)
        ((Session.start script {}).replies ["Die Straße!"])
        ((Session.start script' {}).replies ["die STRAssE!"]) := by
  have hread : (Source.Reader.ofSource "(hi)(straße ((0) (wo 1 ?)))()").bind Source.Reader.all =
      .ok [[.word ⟨"hi"⟩],
        [.word ⟨"straße"⟩, .list [.list [.number 0], .list [.word ⟨"wo"⟩, .number 1, .word ⟨"?"⟩]]],
        []] := by
    with_unfolding_all rfl
  have hread' : (Source.Reader.ofSource "(HI)(STRASSE ((0) (WO 1 ?)))()").bind Source.Reader.all =
      .ok [[.word ⟨"HI"⟩],
        [.word ⟨"STRASSE"⟩, .list [.list [.number 0], .list [.word ⟨"WO"⟩, .number 1, .word ⟨"?"⟩]]],
        []] := by
    with_unfolding_all rfl
  obtain ⟨hload, hcase⟩ := case_is_ignored hread hread' (by decide +kernel)
  have hreplies : (load "(hi)(straße ((0) (wo 1 ?)))()").toOption.map
      (fun script => (Session.start script {}).replies ["Die Straße!"]) =
        some [["wo DIE STRASSE ?"]] := by
    decide +kernel
  cases hs : load "(hi)(straße ((0) (wo 1 ?)))()" with
  | error => rw [hs] at hreplies; cases hreplies
  | ok script =>
    cases hs' : load "(HI)(STRASSE ((0) (WO 1 ?)))()" with
    | error => rw [hs, hs'] at hload; cases hload
    | ok script' =>
      rw [hs] at hreplies
      exact ⟨script, script', rfl, rfl, Option.some.inj hreplies,
        (hcase script script' hs hs' {} _ _ (by decide +kernel)).1⟩

end Script

end Dialogue
