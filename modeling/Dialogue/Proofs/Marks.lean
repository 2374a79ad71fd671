import Dialogue.Proofs.Capitals
import Dialogue.Proofs.Replies

/-!
# Delimiters and command markers

The words of a line are in capitals when they are looked at. A marker is compared as it is spelt, so that
it has to be in capitals itself (`Settings.isCommandMarker_iff`); a delimiter is compared up to the case of
ASCII letters, so that its other characters have to stand for themselves (`Settings.isDelimiter_iff`). A
delimiter parts a line in two, and a scan comes to what stands before it or to what stands behind it
(`Session.scanOf_parted`).
-/

namespace Dialogue

namespace Text

variable {c d : Char} {cs ds : List Char}

theorem case_ascii : ∀ n < 0x80,
    (Char.ofNat n).toLower.toNat < 0x80 ∧
      (Char.ofNat n).toLower.toUpper = (Char.ofNat n).toUpper ∧
      (Char.ofNat n).toUpper.toLower = (Char.ofNat n).toLower := by
  decide +kernel

theorem case_of_ascii (h : c.toNat < 0x80) :
    c.toLower.toNat < 0x80 ∧ c.toLower.toUpper = c.toUpper ∧ c.toUpper.toLower = c.toLower := by
  have := case_ascii c.toNat h
  rwa [Char.ofNat_toNat] at this

theorem toLower_of_not_ascii (h : ¬ c.toNat < 0x80) : c.toLower = c := by
  have hz : ¬ c.val ≤ 'Z'.val := fun hz => by
    have : c.toNat ≤ 90 := hz
    omega
  rw [Char.toLower, dif_neg fun hc => hz hc.2]

theorem upper_of_ascii (h : c.toNat < 0x80) : upper c = [c.toUpper] := if_pos h

/-- To be equal up to the case of ASCII letters to a character that stands for itself. -/
theorem toLower_eq_iff (hd : upper d = [d]) :
    c.toLower = d.toLower ↔ (c.toNat < 0x80 ∨ upper c = [c]) ∧ upper c = [d] := by
  constructor
  · intro h
    by_cases hc : c.toNat < 0x80
    · obtain ⟨hlow, hup, -⟩ := case_of_ascii hc
      have hdc : d.toNat < 0x80 := by
        by_contra hdc
        rw [h, toLower_of_not_ascii hdc] at hlow
        exact hdc hlow
      refine ⟨.inl hc, ?_⟩
      rw [upper_of_ascii hc, ← hup, h, (case_of_ascii hdc).2.1, ← upper_of_ascii hdc, hd]
    · rw [toLower_of_not_ascii hc] at h
      have hdc : ¬ d.toNat < 0x80 := fun hdc => hc (h ▸ (case_of_ascii hdc).1)
      rw [toLower_of_not_ascii hdc] at h
      rw [h]
      exact ⟨.inr hd, hd⟩
  · rintro ⟨hc | hc, h⟩
    · rw [upper_of_ascii hc] at h
      obtain rfl := List.singleton_inj.1 h
      exact (case_of_ascii hc).2.2.symm
    · rw [hc] at h
      rw [List.singleton_inj.1 h]

theorem map_toLower_eq_iff (h : ∀ d ∈ ds, upper d = [d]) :
    cs.map Char.toLower = ds.map Char.toLower ↔
      (∀ c ∈ cs, c.toNat < 0x80 ∨ upper c = [c]) ∧ upperAll cs = ds := by
  induction cs generalizing ds with
  | nil => simp [eq_comm]
  | cons c cs ih =>
    cases ds with
    | nil => exact iff_of_false nofun fun hall => nomatch upperAll_eq_nil_iff.1 hall.2
    | cons d ds =>
      obtain ⟨hd, hds⟩ := List.forall_mem_cons.1 h
      rw [List.map_cons, List.map_cons, List.cons.injEq, toLower_eq_iff hd, ih hds, List.forall_mem_cons]
      constructor
      · rintro ⟨⟨hc, hupper⟩, hcs, hrest⟩
        exact ⟨⟨hc, hcs⟩, by rw [upperAll_cons, hupper, hrest]; rfl⟩
      · rintro ⟨⟨hc, hcs⟩, hall⟩
        obtain ⟨e, he⟩ : ∃ e, upper c = [e] := by
          rcases hc with hc | hc
          · exact ⟨_, upper_of_ascii hc⟩
          · exact ⟨c, hc⟩
        rw [upperAll_cons, he] at hall
        obtain ⟨rfl, hrest⟩ := List.cons.inj hall
        exact ⟨⟨hc, he⟩, hcs, hrest⟩

end Text

/-! ### What is recognised -/

namespace Settings

variable {settings : Settings} {line : String} {w : Word}

/-- The word is one of the markers, and that is in capitals. -/
def MarksCommand (settings : Settings) (w : Word) : Prop :=
  ∃ m ∈ [settings.editMarker, settings.insertMarker], Text.upperText m = m ∧ w ≈ ⟨m⟩

/-- The word is one of the delimiters, and what is not ASCII in that is in capitals. -/
def PartsClauses (settings : Settings) (w : Word) : Prop :=
  ∃ d ∈ settings.delimiters, (∀ c ∈ d.toList, c.toNat < 0x80 ∨ Text.upper c = [c]) ∧ w ≈ ⟨d⟩

theorem text_eq_iff (hw : w ∈ Sentence.words line) (m : String) :
    w.text = m ↔ Text.upperText m = m ∧ w ≈ ⟨m⟩ := by
  have hupper : Text.upperText w.text = w.text := congrArg Word.text (Sentence.upper_of_mem_words hw)
  constructor
  · rintro rfl
    exact ⟨hupper, rfl⟩
  · rintro ⟨hm, h⟩
    rw [← hupper, ← hm]
    exact Text.upperText_eq_iff.2 h

theorem isCommandMarker_iff (hw : w ∈ Sentence.words line) :
    settings.isCommandMarker w.text ↔ settings.MarksCommand w := by
  simp only [isCommandMarker, MarksCommand, Bool.or_eq_true, beq_iff_eq, text_eq_iff hw, List.mem_cons,
    List.not_mem_nil, or_false, exists_eq_or_imp, exists_eq_left]

theorem sameAscii_iff (hw : w ∈ Sentence.words line) (d : String) :
    sameAscii d w.text ↔ (∀ c ∈ d.toList, c.toNat < 0x80 ∨ Text.upper c = [c]) ∧ w ≈ ⟨d⟩ := by
  have hfolded : w.folded = w.text.toList := by
    rw [← Word.toList_upper, Sentence.upper_of_mem_words hw]
  rw [sameAscii, beq_iff_eq, Text.map_toLower_eq_iff (Sentence.upper_of_mem_word hw), Word.equiv_iff,
    hfolded]
  exact and_congr_right fun _ => eq_comm

theorem isDelimiter_iff (hw : w ∈ Sentence.words line) :
    settings.isDelimiter w.text ↔ settings.PartsClauses w := by
  simp only [isDelimiter, PartsClauses, List.any_eq_true, sameAscii_iff hw]

theorem startsCommand_iff (settings : Settings) (line : String) :
    settings.startsCommand (Sentence.words line) ↔
      ∃ w ∈ (Sentence.words line).head?, settings.MarksCommand w := by
  rw [startsCommand, Option.any_eq_true]
  refine exists_congr fun w => and_congr_right fun hw => ?_
  exact isCommandMarker_iff (List.mem_of_mem_head? hw)

end Settings

/-! ### What a delimiter does -/

theorem Scan.sweep_parted {settings : Settings} {w : Word} (hd : settings.isDelimiter w.text) (table : Table)
    (kept : List Word) (selected : Option Selection) (before after : List Word) :
    sweep settings table kept selected (before ++ w :: after) =
      if (sweep settings table kept selected before).2.isSome then sweep settings table kept selected before
      else sweep settings table [] none after := by
  induction before generalizing kept selected with
  | nil =>
    rw [List.nil_append, sweep, sweep, if_pos hd]
    cases selected <;> rfl
  | cons v before ih =>
    rw [List.cons_append, sweep, sweep]
    by_cases hv : settings.isDelimiter v.text
    · rw [if_pos hv, if_pos hv]
      cases selected with
      | none => exact ih [] none
      | some s => rfl
    · rw [if_neg hv, if_neg hv]
      cases entryOf table v with
      | none => exact ih _ _
      | some x => exact ih _ _

namespace Session

variable {s : Session} {line : String} {w : Word}

/-- The scan of the session over other words. -/
def scanOf (s : Session) (words : List Word) : Stage × Session :=
  { s with input := Cells.ofWords "INPUT" words, selection := none }.scan

theorem exists_scanOf (s : Session) (words : List Word) :
    ∃ input : Cells, input.data = (Scan.sweep s.settings s.table [] none words).1.map .word ∧
      s.scanOf words =
        (if (Scan.sweep s.settings s.table [] none words).2.isSome then .dispatch else .fallBack,
          { s with input := input, selection := (Scan.sweep s.settings s.table [] none words).2 }) := by
  obtain ⟨input, -, hdata, hscan⟩ :=
    exists_scan (s := { s with input := Cells.ofWords "INPUT" words, selection := none }) rfl
  exact ⟨input, hdata, hscan⟩

/-- A scan comes to what stands before a delimiter if there is something to select, and else to what
stands behind it. -/
theorem scanOf_parted (hd : s.settings.isDelimiter w.text) (before after : List Word) :
    let r := if (s.scanOf before).2.selection.isSome then s.scanOf before else s.scanOf after
    ∃ input, s.scanOf (before ++ w :: after) = (r.1, { r.2 with input := input }) ∧
      input.data = r.2.input.data := by
  intro r
  obtain ⟨input, hdata, hscan⟩ := s.exists_scanOf (before ++ w :: after)
  obtain ⟨first, hfirst, hbefore⟩ := s.exists_scanOf before
  obtain ⟨second, hsecond, hafter⟩ := s.exists_scanOf after
  rw [Scan.sweep_parted hd] at hdata hscan
  refine ⟨input, ?_⟩
  by_cases hs : (Scan.sweep s.settings s.table [] none before).2.isSome
  · have hr : r = s.scanOf before := if_pos (by rwa [hbefore])
    rw [if_pos hs] at hdata hscan
    rw [hr, hbefore, hscan, hdata]
    exact ⟨rfl, hfirst.symm⟩
  · have hr : r = s.scanOf after := if_neg (by rwa [hbefore])
    rw [if_neg hs] at hdata hscan
    rw [hr, hafter, hscan, hdata]
    exact ⟨rfl, hsecond.symm⟩

theorem respond_of_command (hf : s.finished = false) (hb : Text.isBlankText line = false)
    (hc : s.settings.startsCommand (Sentence.words line)) :
    (s.respond line).1 = s.outbox ++ [s.settings.unsupportedReply] ∧
      (s.respond line).2.rotation = s.rotation := by
  obtain ⟨hreply, hrested⟩ := (comes hf line).eq_verdict
  rw [verdict_of_command hb hc] at hreply hrested
  exact ⟨hreply, (congrArg Session.rotation hrested :)⟩

/-- Markers in capitals and delimiters that are in capitals but for ASCII letters are recognised in any
spelling, and no other words are. A line that starts with such a marker is refused and not counted; in a
line that does not, such a delimiter parts what stands before it from what stands behind it. -/
theorem marks_are_recognised (script : Script) (settings : Settings) (lines : List String) (line : String)
    (hf : ((start script settings).converse lines).finished = false)
    (hb : Text.isBlankText line = false) :
    let s := (start script settings).converse lines
    let words := Sentence.words line
    (∀ w ∈ words, (settings.isCommandMarker w.text ↔ settings.MarksCommand w) ∧
      (settings.isDelimiter w.text ↔ settings.PartsClauses w)) ∧
    ((∃ w ∈ words.head?, settings.MarksCommand w) →
      (s.respond line).1 = [settings.unsupportedReply] ∧ (s.respond line).2.rotation = s.rotation) ∧
    ((¬ ∃ w ∈ words.head?, settings.MarksCommand w) →
      (s.respond line).2.rotation = s.rotation % 4 + 1 ∧
      ∃ t, s.turn line 2 = (.scan, t) ∧
        ∀ before w after, words = before ++ w :: after → settings.PartsClauses w →
          let r := if (t.scanOf before).2.selection.isSome then t.scanOf before else t.scanOf after
          ∃ input, s.turn line 3 = (r.1, { r.2 with input := input }) ∧
            input.data = r.2.input.data) := by
  intro s words
  obtain ⟨hset, -, hout⟩ := converse_kept script settings lines
  refine ⟨fun w hw => ⟨Settings.isCommandMarker_iff hw, Settings.isDelimiter_iff hw⟩, fun hm => ?_,
    fun hm => ?_⟩
  · have hc : s.settings.startsCommand (Sentence.words line) := by
      rw [hset]
      exact (settings.startsCommand_iff line).2 hm
    have h := respond_of_command hf hb hc
    rwa [hset, hout] at h
  · have ho : s.Ordinary line := by
      refine ⟨hb, ?_⟩
      rw [isCommand_heard, hset, Bool.eq_false_iff, ne_eq, settings.startsCommand_iff line]
      exact hm
    refine ⟨rotation_respond hf ho, s.counted line, turn_two ho, fun before w after hsplit hw => ?_⟩
    have hd : s.settings.isDelimiter w.text := by
      rw [hset]
      have hmem : w ∈ Sentence.words line := by
        rw [show Sentence.words line = _ from hsplit]
        simp
      exact (Settings.isDelimiter_iff hmem).2 hw
    have hscan : s.turn line 3 = (s.counted line).scanOf (before ++ w :: after) := by
      rw [turn_three ho, ← hsplit]
      rfl
    rw [hscan]
    exact scanOf_parted (s := s.counted line) hd before after

/-- Two keywords, the second of which ranks above the first. -/
def ranked : Script where
  greeting := []
  table :=
    ((Table.empty.insert
      { keyword := ⟨"A"⟩
        items := [.rule { pattern := [.gap 0], replies := [.say [.word ⟨"FIRST"⟩]] }] }).2.insert
      { keyword := ⟨"B"⟩, precedence := some 5
        items := [.rule { pattern := [.gap 0], replies := [.say [.word ⟨"SECOND"⟩]] }] }).2

/-- A marker and a delimiter that are typed in small letters, and a delimiter that is configured so. -/
theorem marks_are_recognised_typed :
    let settings : Settings := { editMarker := "CMD", delimiters := ["but"] }
    let s := start ranked settings
    ((s.respond "cmd help").1 = [settings.unsupportedReply] ∧
      (s.respond "cmd help").2.rotation = s.rotation) ∧
    (s.respond "a But b").2.rotation = s.rotation % 4 + 1 ∧
    ∃ t, s.turn "a But b" 2 = (.scan, t) ∧
      let first := t.scanOf [⟨"A"⟩]
      let r := if first.2.selection.isSome then first else t.scanOf [⟨"B"⟩]
      ∃ input, s.turn "a But b" 3 = (r.1, { r.2 with input := input }) ∧ input.data = r.2.input.data := by
  intro settings s
  have hhelp : Sentence.words "cmd help" = [⟨"CMD"⟩, ⟨"HELP"⟩] := by decide +kernel
  have hwords : Sentence.words "a But b" = [⟨"A"⟩, ⟨"BUT"⟩, ⟨"B"⟩] := by decide +kernel
  obtain ⟨-, hcommand, -⟩ :=
    marks_are_recognised ranked settings [] "cmd help" rfl (by decide +kernel)
  obtain ⟨-, -, hother⟩ :=
    marks_are_recognised ranked settings [] "a But b" rfl (by decide +kernel)
  have hcmd : settings.MarksCommand ⟨"CMD"⟩ := ⟨"CMD", by decide, by decide +kernel, rfl⟩
  have hascii : ∀ c ∈ "but".toList, c.toNat < 0x80 := by simp
  have hbut : settings.PartsClauses ⟨"BUT"⟩ :=
    ⟨"but", by decide, fun c hc => .inl (hascii c hc), by decide +kernel⟩
  have hnone : ¬ ∃ w ∈ (Sentence.words "a But b").head?, settings.MarksCommand w := by
    rw [← settings.startsCommand_iff]
    decide +kernel
  obtain ⟨hreply, hrotation⟩ := hcommand ⟨⟨"CMD"⟩, by rw [hhelp]; rfl, hcmd⟩
  obtain ⟨hcount, t, ht, hscan⟩ := hother hnone
  exact ⟨⟨hreply, hrotation⟩, hcount, t, ht, hscan [⟨"A"⟩] ⟨"BUT"⟩ [⟨"B"⟩] hwords hbut⟩

/-- A marker and a delimiter that are configured in small letters: the words that are equal to them mark
no command, and part nothing. -/
theorem marks_in_small_letters :
    let settings : Settings := { editMarker := "cmd", delimiters := ["é"] }
    let s := start ranked settings
    settings.check = .ok () ∧
    (Sentence.words "cmd" = [⟨"CMD"⟩] ∧ (⟨"CMD"⟩ : Word) ≈ ⟨"cmd"⟩ ∧
      (s.respond "cmd help").1 = ["HMMM"] ∧ (s.respond "cmd help").2.rotation = 2) ∧
    Sentence.words "é" = [⟨"É"⟩] ∧ (⟨"É"⟩ : Word) ≈ ⟨"é"⟩ ∧
      (s.turn "a é b" 2).1 = .scan ∧
      ((s.turn "a é b" 2).2.scanOf [⟨"A"⟩]).2.selection.isSome ∧
      ((s.turn "a é b" 2).2.scanOf [⟨"A"⟩]).2.selection ≠ (s.turn "a é b" 3).2.selection := by
  decide +kernel

end Session

end Dialogue
