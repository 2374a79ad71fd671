import Dialogue.Proofs.Evaluator

/-!
# Scratch state

The input, the selection, the count of links and the line that has not been looked at belong to one
turn: a turn sets each of them before it reads it. `Session.rested` is a session without them, and
without the greeting, which no turn reads. `Session.verdict` is what a turn says and the session that
it leaves behind, at rest; it is the same for two sessions that are the same at rest
(`verdict_rested`), and a session responds with it (`Comes.eq_verdict`). A command leaves a session
at rest as it was.
-/

namespace Dialogue

/-- Words that start with a command marker. -/
def Settings.startsCommand (settings : Settings) (words : List Word) : Bool :=
  words.head?.any fun w => settings.isCommandMarker w.text

/-- A line that is not blank and starts with a command marker. -/
def Settings.isCommandLine (settings : Settings) (line : String) : Bool :=
  !Text.isBlankText line && settings.startsCommand (Sentence.words line)

namespace Session

variable {s t : Session} {line : String}

/-- The session with nothing left of its last turn. -/
def rested (s : Session) : Session :=
  { s with
    greeting := []
    input := Cells.ofWords "INPUT" []
    pending := none
    selection := none
    redirects := 0 }

/-- What a turn comes to that has been counted and scanned. -/
def counsel (s : Session) (line : String) : String × Session :=
  let t := s.scanned line
  let rest := { s.rested with rotation := t.rotation, outbox := [] }
  match t.chosen with
  | some entry =>
    ((t.outcome entry).reply,
      { rest with memories := t.memoriesAfter, table := (t.outcome entry).table })
  | none =>
    match if t.rotation = 4 then s.memories else [] with
    | memory :: memories => (Word.phrase memory, { rest with memories := memories })
    | [] => (s.settings.acknowledgement t.rotation, rest)

/-- What a turn on a line says, and the session that it leaves behind, at rest. -/
def verdict (s : Session) (line : String) : String × Session :=
  if Text.isBlankText line then
    (s.settings.closing, { s.rested with finished := true, outbox := [] })
  else if s.settings.startsCommand (Sentence.words line) then
    (s.settings.unsupportedReply, { s.rested with outbox := [] })
  else s.counsel line

/-- The replies to lines, one after the other. -/
def replies (s : Session) : List String → List (List String)
  | [] => []
  | line :: lines => (s.respond line).1 :: replies (s.respond line).2 lines

theorem isCommand_heard (s : Session) (line : String) :
    (s.heard line).isCommand = s.settings.startsCommand (Sentence.words line) := by
  unfold isCommand heard Cells.ofWords Settings.startsCommand
  cases Sentence.words line <;> rfl

theorem verdict_of_command (hb : Text.isBlankText line = false)
    (hc : s.settings.startsCommand (Sentence.words line)) :
    s.verdict line = (s.settings.unsupportedReply, { s.rested with outbox := [] }) := by
  rw [verdict, if_neg (by simp [hb]), if_pos hc]

theorem verdict_of_ordinary (ho : s.Ordinary line) : s.verdict line = s.counsel line := by
  have hc := ho.notCommand
  rw [isCommand_heard] at hc
  rw [verdict, if_neg (by simp [ho.notBlank]), if_neg (by simp [hc])]

/-- What a turn comes to is its verdict. -/
theorem Comes.eq_verdict {r : List String × Session} (h : s.Comes line r) :
    r.1 = s.outbox ++ [(s.verdict line).1] ∧ r.2.rested = (s.verdict line).2 := by
  cases h with
  | closed hb => rw [verdict, if_pos hb]; exact ⟨rfl, rfl⟩
  | refused hb hc =>
    rw [isCommand_heard] at hc
    rw [verdict_of_command hb hc]
    exact ⟨rfl, rfl⟩
  | @recalled memory rest ho hs hr hm =>
    have hc : (s.scanned line).chosen = none := chosen_eq_none hs (.inl ⟨hr, by simp [hm]⟩)
    have hm : (if (s.scanned line).rotation = 4 then s.memories else []) = memory :: rest := by
      rw [if_pos hr, hm]
    simp only [verdict_of_ordinary ho, counsel, hc, hm]
    simp [rested]
  | evaluated ho hc hd =>
    simp only [verdict_of_ordinary ho, counsel, hc]
    simp [rested]
  | acknowledged ho hs hr hf =>
    have hc : (s.scanned line).chosen = none := chosen_eq_none hs (.inr (by rwa [scanned_table]))
    have hm : (if (s.scanned line).rotation = 4 then s.memories else []) = [] := by
      split
      · exact not_not.1 fun hne => hr ⟨by assumption, hne⟩
      · rfl
    simp only [verdict_of_ordinary ho, counsel, hc, hm]
    simp [rested]

theorem chosen_scanned_rested (s : Session) (line : String) :
    (s.rested.scanned line).chosen = (s.scanned line).chosen := by
  simp only [chosen, scanned_selection, scanned_rotation, scanned_memories, scanned_table]
  rfl

theorem outcome_scanned_rested (s : Session) (line : String) (entry : EntryRef) :
    (s.rested.scanned line).outcome entry = (s.scanned line).outcome entry := by
  simp only [outcome, scanned_settings, scanned_rotation, scanned_table, scanned_words]
  rfl

theorem memoriesAfter_scanned_rested (s : Session) (line : String) :
    (s.rested.scanned line).memoriesAfter = (s.scanned line).memoriesAfter := by
  simp only [memoriesAfter, sentence?, scanned_selection, scanned_memories, scanned_memory,
    scanned_table, scanned_words, scanned_settings]
  rfl

theorem verdict_rested (s : Session) (line : String) : s.rested.verdict line = s.verdict line := by
  simp only [verdict, counsel, chosen_scanned_rested, outcome_scanned_rested,
    memoriesAfter_scanned_rested, scanned_rotation]
  rfl

/-! ### Sessions that are the same at rest -/

theorem verdict_of_rested (h : s.rested = t.rested) (line : String) : s.verdict line = t.verdict line := by
  rw [← verdict_rested s, ← verdict_rested t, h]

/-- A turn sees of a line whether it is blank and which words it has. -/
theorem verdict_congr {line' : String} (hb : Text.isBlankText line = Text.isBlankText line')
    (hw : Sentence.words line = Sentence.words line') (s : Session) :
    s.verdict line = s.verdict line' := by
  have hheard : s.heard line = s.heard line' := by rw [heard, heard, hw]
  have hscanned : s.scanned line = s.scanned line' := by
    rw [scanned, scanned, counted, counted, hheard]
  simp only [verdict, counsel, hscanned, hb, hw]

/-- Two sessions that are the same at rest, on lines with the same verdict, say the same and are the
same at rest again. -/
theorem respond_of_verdict (h : s.rested = t.rested) {line' : String}
    (hv : s.verdict line = t.verdict line') :
    (s.respond line).1 = (t.respond line').1 ∧
      (s.respond line).2.rested = (t.respond line').2.rested := by
  have hf : s.finished = t.finished := (congrArg Session.finished h :)
  have ho : s.outbox = t.outbox := (congrArg Session.outbox h :)
  cases hs : s.finished with
  | true =>
    rw [respond_of_finished hs, respond_of_finished (hf ▸ hs)]
    exact ⟨rfl, h⟩
  | false =>
    obtain ⟨hr, hn⟩ := (comes hs line).eq_verdict
    obtain ⟨hr', hn'⟩ := (comes (hf ▸ hs) line').eq_verdict
    exact ⟨by rw [hr, hr', ho, hv], by rw [hn, hn', hv]⟩

theorem respond_of_rested (h : s.rested = t.rested) (line : String) :
    (s.respond line).1 = (t.respond line).1 ∧ (s.respond line).2.rested = (t.respond line).2.rested :=
  respond_of_verdict h (verdict_of_rested h line)

/-- Sessions that stay related from one line to the next give related replies. -/
theorem replies_related {R : Session → Session → Prop} {L : String → String → Prop}
    {Q : List String → List String → Prop}
    (hstep : ∀ {s t : Session} {line line' : String}, R s t → L line line' →
      Q (s.respond line).1 (t.respond line').1 ∧ R (s.respond line).2 (t.respond line').2)
    (h : R s t) {lines lines' : List String} (hl : List.Forall₂ L lines lines') :
    List.Forall₂ Q (s.replies lines) (t.replies lines') ∧ R (s.converse lines) (t.converse lines') := by
  induction hl generalizing s t with
  | nil => exact ⟨.nil, h⟩
  | cons hline _ ih =>
    obtain ⟨hr, hn⟩ := hstep h hline
    obtain ⟨hrs, hns⟩ := ih hn
    exact ⟨.cons hr hrs, hns⟩

theorem replies_of_rested (h : s.rested = t.rested) (lines : List String) :
    s.replies lines = t.replies lines := by
  have hstep {s t : Session} {line line' : String} (h : s.rested = t.rested) (hl : line = line') :
      (s.respond line).1 = (t.respond line').1 ∧ (s.respond line).2.rested = (t.respond line').2.rested :=
    hl ▸ respond_of_rested h line
  have hl : List.Forall₂ (· = ·) lines lines := List.forall₂_refl lines
  have hr := (replies_related hstep h hl).1
  rwa [List.forall₂_eq_eq_eq] at hr

theorem rested_respond_of_command (ho : s.outbox = []) (hc : s.settings.isCommandLine line) :
    (s.respond line).2.rested = s.rested := by
  cases hf : s.finished with
  | true => rw [respond_of_finished hf]
  | false =>
    simp only [Settings.isCommandLine, Bool.and_eq_true, Bool.not_eq_true'] at hc
    rw [(comes hf line).eq_verdict.2, verdict_of_command hc.1 hc.2, ← ho]
    rfl

/-- The lines that are not marked. -/
def spared (lines : List (String × Bool)) : List String := (lines.filter fun x => !x.2).map Prod.fst

/-- The replies to the lines that are not marked. -/
def sparedReplies (s : Session) (lines : List (String × Bool)) : List (List String) :=
  ((lines.zip (s.replies (lines.map Prod.fst))).filter fun x => !x.1.2).map Prod.snd

/-- Without the marked lines, all of them commands, a session comes to the same. -/
theorem converse_spared (h : s.rested = t.rested) (ho : s.outbox = []) (lines : List (String × Bool))
    (hc : ∀ x ∈ lines, x.2 → s.settings.isCommandLine x.1) :
    s.sparedReplies lines = t.replies (spared lines) ∧
      (s.converse (lines.map Prod.fst)).rested = (t.converse (spared lines)).rested := by
  induction lines generalizing s t with
  | nil => exact ⟨rfl, h⟩
  | cons x lines ih =>
    obtain ⟨line, marked⟩ := x
    have hkept := s.respond_kept line
    have hrest : ∀ x ∈ lines, x.2 → (s.respond line).2.settings.isCommandLine x.1 := by
      rw [hkept.1]
      exact fun x hx => hc x (List.mem_cons_of_mem _ hx)
    cases marked with
    | true =>
      have hline : s.settings.isCommandLine line := hc _ List.mem_cons_self rfl
      have hn : (s.respond line).2.rested = t.rested := (rested_respond_of_command ho hline).trans h
      exact ih hn (hkept.2.2 ho) hrest
    | false =>
      obtain ⟨hr, hn⟩ := respond_of_rested h line
      obtain ⟨hrs, hns⟩ := ih hn (hkept.2.2 ho) hrest
      refine ⟨?_, hns⟩
      show (s.respond line).1 :: (s.respond line).2.sparedReplies lines =
        (t.respond line).1 :: (t.respond line).2.replies (spared lines)
      rw [hr, hrs]

/-- No turn sees what another has left behind: commands can be left out of a conversation without a
trace, and sessions that agree on all but their scratch state say the same. -/
theorem scratch_is_forgotten :
    (∀ (script : Script) (settings : Settings) (lines : List (String × Bool)),
      (∀ x ∈ lines, x.2 → settings.isCommandLine x.1) →
      let s := start script settings
      s.sparedReplies lines = s.replies (spared lines) ∧
      (s.converse (lines.map Prod.fst)).rotation = (s.converse (spared lines)).rotation ∧
      (s.converse (lines.map Prod.fst)).memories = (s.converse (spared lines)).memories ∧
      (s.converse (lines.map Prod.fst)).table = (s.converse (spared lines)).table) ∧
    ∀ s t : Session, s.finished = false → t.finished = false → s.settings = t.settings →
      s.table = t.table → s.memory = t.memory → s.memories = t.memories → s.rotation = t.rotation →
      s.outbox = t.outbox → ∀ lines, s.replies lines = t.replies lines := by
  constructor
  · intro script settings lines hc s
    obtain ⟨hr, hn⟩ := converse_spared (s := s) rfl rfl lines hc
    exact ⟨hr, (congrArg Session.rotation hn :), (congrArg Session.memories hn :),
      (congrArg Session.table hn :)⟩
  · intro s t hs ht hset htab hmem hmems hrot hout lines
    refine replies_of_rested ?_ lines
    rw [rested, rested, hs, ht, hset, htab, hmem, hmems, hrot, hout]

/-- A session that has lost count of its links and selected an entry that is not there. -/
def muddled : Session :=
  { start rebuilding {} with redirects := 99, selection := some ⟨⟨40, 7⟩, 5⟩, pending := some "A" }

theorem scratch_is_forgotten_rebuilding :
    (start rebuilding {}).sparedReplies [("A C", false), ("+ B", true), ("A D", false)] =
      (start rebuilding {}).replies ["A C", "A D"] ∧
    (start rebuilding {}).replies ["A C", "+ B", "A D"] =
      [["SO I C"], ["THAT COMMAND IS NOT SUPPORTED"], [""]] ∧
    muddled.replies ["A C"] = (start rebuilding {}).replies ["A C"] := by
  obtain ⟨hcommands, hagree⟩ := scratch_is_forgotten
  refine ⟨(hcommands rebuilding {} _ ?_).1, by decide +kernel,
    hagree muddled (start rebuilding {}) rfl rfl rfl rfl rfl rfl rfl rfl _⟩
  intro x hx hm
  simp only [List.mem_cons, List.not_mem_nil, or_false] at hx
  rcases hx with rfl | rfl | rfl
  · cases hm
  · decide +kernel
  · cases hm

end Session

end Dialogue
