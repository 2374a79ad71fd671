import Dialogue.Proofs.Exchanges
import Dialogue.Proofs.Separators
import Dialogue.Text.Lines

/-!
# Line ends

A text can be read as a stream of bytes, where a line loses all line feeds and carriage returns at its
end, or it is cut into lines beforehand, where a line feed takes one carriage return with it and the last
line stays as it stands. The two find the same lines but for carriage returns at their ends
(`streamed_text`), and a turn is blind to these: they are white space, so that a line is no less blank with
them and has the same words (`verdict_trimReturns`).
-/

namespace Dialogue

/-- A line without the carriage returns at its end. -/
def trimReturns (line : String) : String :=
  String.ofList (line.toList.reverse.dropWhile (· == '\r')).reverse

/-- The lines read. -/
def Transcript.inputs (t : Transcript) : List String :=
  (t.lines.filter (·.direction == .input)).map TranscriptLine.text

/-! ### Bytes of a text -/

/-- The bytes that stand for characters. -/
def utf8 (cs : List Char) : List UInt8 := cs.flatMap String.utf8EncodeChar

theorem utf8_append (cs ds : List Char) : utf8 (cs ++ ds) = utf8 cs ++ utf8 ds := List.flatMap_append

theorem utf8_eq_nil_iff {cs : List Char} : utf8 cs = [] ↔ cs = [] := by
  cases cs <;> simp [utf8]

theorem utf8_toList (text : String) : utf8 text.toList = text.toUTF8.data.toList := by
  rw [String.toUTF8_eq_toByteArray, ← String.utf8Encode_toList, List.utf8Encode,
    List.toList_data_toByteArray]
  rfl

theorem decodeUtf8?_utf8 (cs : List Char) : decodeUtf8? (utf8 cs) = some (String.ofList cs) := by
  have hbytes : utf8 cs = (String.ofList cs).toByteArray.data.toList := by
    rw [← String.toUTF8_eq_toByteArray, ← utf8_toList, String.toList_ofList]
  rw [decodeUtf8?, hbytes, Array.toArray_toList, String.fromUTF8?, dif_pos (String.isValidUTF8 _)]
  rfl

/-- No character but the line feed has the byte of the line feed. -/
theorem feed_mem_utf8EncodeChar {c : Char} (h : 10 ∈ String.utf8EncodeChar c) : c = '\n' := by
  have hbyte {n : Nat} (h : 10 = UInt8.ofNat n) : n % 256 = 10 := (congrArg UInt8.toNat h).symm
  simp only [String.utf8EncodeChar] at h
  split at h
  · have hn := hbyte (List.mem_singleton.1 h)
    have : c.val.toNat = 10 := by omega
    exact Char.ext (UInt32.toNat_inj.1 this)
  · -- every byte of a longer code is at least 128
    split at h
    · simp only [List.mem_cons, List.not_mem_nil, or_false] at h
      rcases h with h | h <;> have hn := hbyte h <;> omega
    · split at h
      · simp only [List.mem_cons, List.not_mem_nil, or_false] at h
        rcases h with h | h | h <;> have hn := hbyte h <;> omega
      · simp only [List.mem_cons, List.not_mem_nil, or_false] at h
        rcases h with h | h | h | h <;> have hn := hbyte h <;> omega

theorem feed_not_mem_utf8 {cs : List Char} (h : '\n' ∉ cs) : ∀ b ∈ utf8 cs, (b != 10) = true := by
  intro b hb
  obtain ⟨c, hc, hbc⟩ := List.mem_flatMap.1 hb
  rw [bne_iff_ne]
  rintro rfl
  rw [feed_mem_utf8EncodeChar hbc] at hc
  exact h hc

/-! ### Lines of a stream -/

section
variable {bytes : List UInt8} (h : ∀ b ∈ bytes, (b != 10) = true)
include h

theorem splitLine_feed (rest : List UInt8) :
    splitLine (bytes ++ 10 :: rest) = (bytes ++ [10], rest) := by
  rw [splitLine, List.dropWhile_append_of_pos h, List.takeWhile_append_of_pos h]
  simp

theorem splitLine_last : splitLine bytes = (bytes, []) := by
  rw [splitLine, List.dropWhile_eq_nil_iff.2 h]

end

theorem streamed_nil : streamed [] = [] := by rw [streamed]

theorem streamed_of_split {bytes rest : List UInt8} {line : List Char} (hne : bytes ≠ [])
    (h : splitLine bytes = (utf8 line, rest)) :
    streamed bytes = .ok (trimLineEnd (String.ofList line)) :: streamed rest := by
  obtain ⟨b, bs, rfl⟩ := List.exists_cons_of_ne_nil hne
  rw [streamed, h, decodeUtf8?_utf8]

/-- What stays of a line when its end is taken away, last character first. -/
theorem trimReturns_reverse (line : List Char) :
    trimReturns (String.ofList line.reverse) = String.ofList (line.dropWhile (· == '\r')).reverse := by
  rw [trimReturns, String.toList_ofList, List.reverse_reverse]

theorem trimLineEnd_reverse {line : List Char} (h : '\n' ∉ line) :
    trimLineEnd (String.ofList line.reverse) = trimReturns (String.ofList line.reverse) := by
  have hdrop : line.dropWhile (fun c => c == '\n' || c == '\r') = line.dropWhile (· == '\r') := by
    induction line with
    | nil => rfl
    | cons c line ih =>
      obtain ⟨hc, hline⟩ := List.ne_and_not_mem_of_not_mem_cons h
      have hfeed : (c == '\n') = false := beq_eq_false_iff_ne.2 hc.symm
      simp only [List.dropWhile_cons, hfeed, Bool.false_or, ih hline]
  rw [trimReturns_reverse, trimLineEnd, String.toList_ofList, List.reverse_reverse, hdrop]

theorem trimLineEnd_feed (line : List Char) :
    trimLineEnd (String.ofList (line.reverse ++ ['\n'])) = trimLineEnd (String.ofList line.reverse) := by
  simp [trimLineEnd]

theorem dropWhile_dropReturn (line : List Char) :
    (if line.head? == some '\r' then line.tail else line).dropWhile (· == '\r') =
      line.dropWhile (· == '\r') := by
  split
  · next hr =>
    obtain ⟨rest, rfl⟩ := List.head?_eq_some_iff.1 (eq_of_beq hr)
    rfl
  · rfl

/-- The line feed of a line takes one carriage return with it; the others are at the end of the line. -/
theorem streamed_linesFrom {line : List Char} (h : '\n' ∉ line) (cs : List Char) :
    streamed (utf8 (line.reverse ++ cs)) =
      (Text.linesFrom line cs).map fun l => .ok (trimReturns (String.ofList l)) := by
  have hbytes : ∀ b ∈ utf8 line.reverse, (b != 10) = true :=
    feed_not_mem_utf8 (by rwa [List.mem_reverse])
  induction cs generalizing line with
  | nil =>
    cases line with
    | nil => exact streamed_nil
    | cons c line =>
      have hne : utf8 (c :: line).reverse ≠ [] := by simp [utf8_eq_nil_iff]
      rw [List.append_nil, streamed_of_split hne (splitLine_last hbytes), streamed_nil,
        trimLineEnd_reverse h]
      rfl
  | cons c cs ih =>
    by_cases hc : c = '\n'
    · subst hc
      have hsplit : splitLine (utf8 (line.reverse ++ '\n' :: cs)) =
          (utf8 (line.reverse ++ ['\n']), utf8 cs) := by
        rw [utf8_append, utf8_append]
        exact splitLine_feed hbytes (utf8 cs)
      have hne : utf8 (line.reverse ++ '\n' :: cs) ≠ [] := by simp [utf8_eq_nil_iff]
      have hrest : streamed (utf8 cs) = _ := ih List.not_mem_nil (fun _ => nofun)
      rw [streamed_of_split hne hsplit, trimLineEnd_feed, trimLineEnd_reverse h, hrest]
      show _ = Except.ok (trimReturns (String.ofList
        (if line.head? == some '\r' then line.tail else line).reverse)) :: _
      rw [trimReturns_reverse, trimReturns_reverse, dropWhile_dropReturn]
    · have hnext : Text.linesFrom line (c :: cs) = Text.linesFrom (c :: line) cs := by
        rw [Text.linesFrom]
        exact hc
      have hline : '\n' ∉ c :: line := by
        rw [List.mem_cons, not_or]
        exact ⟨Ne.symm hc, h⟩
      rw [hnext, ← ih hline (feed_not_mem_utf8 (by rwa [List.mem_reverse])), List.reverse_cons,
        List.append_assoc, List.singleton_append]

theorem streamed_text (text : String) :
    streamed text.toUTF8.data.toList = ((Text.lines text).map trimReturns).map .ok := by
  rw [← utf8_toList, Text.lines, List.map_map, List.map_map]
  exact streamed_linesFrom List.not_mem_nil text.toList

/-! ### Turns -/

theorem trimReturns_append (line : String) :
    ∃ returns, (∀ c ∈ returns, c = '\r') ∧ line.toList = (trimReturns line).toList ++ returns := by
  refine ⟨(line.toList.reverse.takeWhile (· == '\r')).reverse, fun c hc => ?_, ?_⟩
  · rw [List.mem_reverse] at hc
    exact eq_of_beq (List.mem_takeWhile_imp (p := (· == '\r')) hc)
  · rw [trimReturns, String.toList_ofList, ← List.reverse_append, List.takeWhile_append_dropWhile,
      List.reverse_reverse]

theorem isBlankText_trimReturns (line : String) :
    Text.isBlankText (trimReturns line) = Text.isBlankText line := by
  obtain ⟨returns, hreturns, hline⟩ := trimReturns_append line
  have hblank : returns.all Text.isBlank := List.all_eq_true.2 fun c hc => by
    rw [hreturns c hc]
    decide
  rw [Text.isBlankText, Text.isBlankText, hline, List.all_append, hblank, Bool.and_true]

namespace Sentence

/-- What is dropped at the end of a line is in none of its pieces. -/
theorem pieces_append_dropped {ds : List Char} (hd : ∀ d ∈ ds, isDropped d) (cs : List Char) :
    pieces (cs ++ ds) = pieces cs := by
  have hhead : ∀ d ∈ ds.head?, isLetter d = false := fun d hd' => by
    simp [isLetter, hd d (List.mem_of_mem_head? hd')]
  rw [pieces_append hhead, Session.pieces_of_dropped hd, List.append_nil]

theorem words_trimReturns (line : String) : words (trimReturns line) = words line := by
  obtain ⟨returns, hreturns, hline⟩ := trimReturns_append line
  have hdropped : ∀ c ∈ returns, isDropped c := fun c hc => by
    rw [hreturns c hc]
    decide
  rw [words, words, hline, pieces_append_dropped hdropped]

end Sentence

namespace Session

theorem verdict_trimReturns (s : Session) (line : String) :
    s.verdict (trimReturns line) = s.verdict line :=
  verdict_congr (isBlankText_trimReturns line) (Sentence.words_trimReturns line) s

theorem replies_trimReturns (s : Session) (lines : List String) :
    s.replies (lines.map trimReturns) = s.replies lines ∧
      (s.converse (lines.map trimReturns)).rested = (s.converse lines).rested := by
  have hstep {s t : Session} {line line' : String} (h : s.rested = t.rested)
      (hl : line = trimReturns line') :
      (s.respond line).1 = (t.respond line').1 ∧
        (s.respond line).2.rested = (t.respond line').2.rested := by
    rw [hl]
    exact respond_of_verdict h ((s.verdict_trimReturns line').trans (verdict_of_rested h line'))
  have hl : List.Forall₂ (fun line line' => line = trimReturns line') (lines.map trimReturns) lines := by
    rw [List.forall₂_map_left_iff]
    exact List.forall₂_same.2 fun _ _ => rfl
  obtain ⟨hr, hn⟩ := replies_related hstep (rfl : s.rested = s.rested) hl
  rw [List.forall₂_eq_eq_eq] at hr
  exact ⟨hr, hn⟩

end Session

/-! ### Conversations -/

theorem taken_trimReturns (lines : List String) :
    taken (lines.map trimReturns) = (taken lines).map trimReturns := by
  induction lines with
  | nil => rfl
  | cons line lines ih =>
    rw [List.map_cons, taken, taken, isBlankText_trimReturns, ih]
    split <;> rfl

theorem outputs_exchanges (s : Session) (lines : List String) :
    Transcript.outputs ⟨s.exchanges lines⟩ = (s.replies lines).flatten := by
  show held false (s.exchanges lines) = _
  induction lines generalizing s with
  | nil => rfl
  | cons line lines ih => rw [held_exchanges_cons, ih]; rfl

theorem inputs_outputs (lines : List String) (more : List TranscriptLine) :
    Transcript.inputs ⟨lines.map (⟨.output, ·⟩) ++ more⟩ = Transcript.inputs ⟨more⟩ := by
  induction lines with
  | nil => rfl
  | cons line lines ih => exact ih

theorem inputs_exchanges (s : Session) (lines : List String) :
    Transcript.inputs ⟨s.exchanges lines⟩ = lines := by
  induction lines generalizing s with
  | nil => rfl
  | cons line lines ih =>
    have hrest := inputs_outputs (s.respond line).1 ((s.respond line).2.exchanges lines)
    rw [ih] at hrest
    exact congrArg (line :: ·) hrest

theorem Console.upcoming_of_end {c : Console} (h : c.readLine.1 = .ok none) : c.upcoming = [] := by
  cases hc : c.upcoming with
  | nil => rfl
  | cons read rest =>
    have hread := (readLine_of_cons hc).1
    rw [h] at hread
    cases read <;> cases hread

namespace Conversation

/-- A text read as a stream and a text that is queued line by line come to the same conversation, but
for carriage returns at the ends of the lines recorded. -/
theorem hold_text (script : Script) (settings : Settings) (text output : String) (echo : Bool)
    {fallback : Console} (hend : fallback.readLine.1 = .ok none) :
    let s := Session.start script settings
    ∃ streamed relayed, hold s (.stream text.toUTF8.data.toList output) = (none, streamed) ∧
      hold s (.relay (Text.lines text) echo fallback) = (none, relayed) ∧
      streamed.transcript.outputs = relayed.transcript.outputs ∧
      streamed.session.rotation = relayed.session.rotation ∧
      streamed.session.memories = relayed.session.memories ∧
      streamed.transcript.inputs = relayed.transcript.inputs.map trimReturns := by
  intro s
  have hstream : (Console.stream text.toUTF8.data.toList output).upcoming = _ := streamed_text text
  have hrelay : (Console.relay (Text.lines text) echo fallback).upcoming = (Text.lines text).map .ok := by
    rw [Console.upcoming, Console.upcoming_of_end hend, List.append_nil]
  have hstreamed := hold_of_upcoming (s := s) rfl hstream
  have hrelayed := hold_of_upcoming (s := s) rfl hrelay
  rw [taken_trimReturns] at hstreamed
  obtain ⟨hreplies, hrested⟩ := s.replies_trimReturns (taken (Text.lines text))
  refine ⟨_, _, hstreamed, hrelayed, ?_, (congrArg Session.rotation hrested :),
    (congrArg Session.memories hrested :), ?_⟩
  · have houtputs (lines : List String) : Transcript.outputs ⟨⟨.output, s.opening⟩ :: s.exchanges lines⟩ =
        s.opening :: (s.replies lines).flatten :=
      congrArg (s.opening :: ·) (outputs_exchanges s lines)
    rw [houtputs, houtputs, hreplies]
  · have hinputs (lines : List String) :
        Transcript.inputs ⟨⟨.output, s.opening⟩ :: s.exchanges lines⟩ = lines := inputs_exchanges s lines
    rw [hinputs, hinputs]

theorem hold_text_rebuilding :
    let s := Session.start Session.rebuilding {}
    let text := "A C\r\r\nA D\r\n\rA E\n+\r"
    ∃ streamed relayed, hold s (.stream text.toUTF8.data.toList "") = (none, streamed) ∧
      hold s (.relay ["A C\r", "A D", "\rA E", "+\r"] true (.stream [] "")) = (none, relayed) ∧
      streamed.transcript.outputs = relayed.transcript.outputs ∧
      streamed.session.rotation = relayed.session.rotation ∧
      streamed.session.memories = relayed.session.memories ∧
      streamed.transcript.inputs = relayed.transcript.inputs.map trimReturns := by
  intro s text
  have hlines : Text.lines text = ["A C\r", "A D", "\rA E", "+\r"] := by decide +kernel
  rw [← hlines]
  exact hold_text Session.rebuilding {} text "" true rfl

end Conversation

end Dialogue
