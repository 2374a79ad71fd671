import Dialogue.Conversation
import Dialogue.Proofs.Replies

/-!
# Exchanges at a console

A console has lines to give (`Console.upcoming`), and what is written to it does not change them. A
conversation takes these lines up to the first blank one (`taken`); without a blank one it takes them all,
and then an empty line that stands for the end of the input. What it comes to follows from these lines
alone (`finish_of_upcoming`): the session is the one that has responded to them, and the transcript shows
them one by one with the replies (`Session.exchanges`).
-/

namespace Dialogue

/-! ### What is left to be read -/

/-- The lines of the bytes, each with its line feed and carriage returns taken away. -/
def streamed : List UInt8 → List (Except ReadFault String)
  | [] => []
  | b :: bs =>
    (match decodeUtf8? (splitLine (b :: bs)).1 with
      | some line => .ok (trimLineEnd line)
      | none => .error .notUtf8) :: streamed (splitLine (b :: bs)).2
termination_by bytes => bytes.length
decreasing_by exact length_splitLine_lt (List.cons_ne_nil b bs)

namespace Console

/-- What a console has still to give, line by line. -/
def upcoming : Console → List (Except ReadFault String)
  | .stream input _ => streamed input
  | .tape queued _ _ => queued.map .ok
  | .relay queued _ next => queued.map .ok ++ next.upcoming

/-- Writes lines, one after the other. -/
def writeLines (c : Console) (lines : List String) : Console :=
  lines.foldl (fun c line => c.writeLine line) c

theorem upcoming_writeLine (c : Console) (line : String) : (c.writeLine line).upcoming = c.upcoming := by
  induction c with
  | stream | tape => rfl
  | relay queued echo next ih => rw [writeLine, upcoming, upcoming, ih]

theorem upcoming_writeLines (c : Console) (lines : List String) :
    (c.writeLines lines).upcoming = c.upcoming := by
  induction lines generalizing c with
  | nil => rfl
  | cons line lines ih => exact (ih (c.writeLine line)).trans (c.upcoming_writeLine line)

theorem readLine_of_nil {c : Console} (h : c.upcoming = []) : c.readLine = (.ok none, c) := by
  induction c with
  | stream input output =>
    cases input with
    | nil => rfl
    | cons => rw [upcoming, streamed] at h; cases h
  | tape queued echo written =>
    rw [upcoming, List.map_eq_nil_iff] at h
    rw [h]
    rfl
  | relay queued echo next ih =>
    rw [upcoming, List.append_eq_nil_iff, List.map_eq_nil_iff] at h
    rw [h.1, readLine, ih h.2]

theorem readLine_of_cons {c : Console} {read : Except ReadFault String}
    {rest : List (Except ReadFault String)} (h : c.upcoming = read :: rest) :
    c.readLine.1 = read.map some ∧ c.readLine.2.upcoming = rest := by
  induction c with
  | stream input output =>
    cases input with
    | nil => rw [upcoming, streamed] at h; cases h
    | cons b bs =>
      rw [upcoming, streamed] at h
      obtain ⟨rfl, rfl⟩ := List.cons.inj h
      simp only [readLine]
      cases decodeUtf8? (splitLine (b :: bs)).1 <;> exact ⟨rfl, rfl⟩
  | tape queued echo written =>
    cases queued with
    | nil => cases h
    | cons line queued =>
      obtain ⟨rfl, rfl⟩ := List.cons.inj h
      exact ⟨rfl, rfl⟩
  | relay queued echo next ih =>
    cases queued with
    | nil => exact ih h
    | cons line queued =>
      obtain ⟨rfl, rfl⟩ := List.cons.inj h
      refine ⟨rfl, ?_⟩
      show queued.map .ok ++ (if echo then next.writeLine line else next).upcoming =
        queued.map .ok ++ next.upcoming
      split
      · rw [upcoming_writeLine]
      · rfl

end Console

/-! ### What is taken -/

open Text (isBlankText)

/-- The lines that a conversation takes when these are left to be read. -/
def taken : List String → List String
  | [] => [""]
  | line :: lines => if isBlankText line then [line] else line :: taken lines

namespace Session

/-- What a transcript shows of lines and the replies to them. -/
def exchanges (s : Session) : List String → List TranscriptLine
  | [] => []
  | line :: lines =>
    ⟨.input, line⟩ :: (s.respond line).1.map (⟨.output, ·⟩) ++ exchanges (s.respond line).2 lines

theorem exchanges_append (s : Session) (lines more : List String) :
    s.exchanges (lines ++ more) = s.exchanges lines ++ (s.converse lines).exchanges more := by
  induction lines generalizing s with
  | nil => rfl
  | cons line lines ih =>
    rw [List.cons_append, exchanges, exchanges, ih, List.append_assoc]
    rfl

end Session

namespace Console

/-- The console after a session has read these lines and its replies have been written. -/
def served (c : Console) (s : Session) : List String → Console
  | [] => c
  | line :: lines => served (c.readLine.2.writeLines (s.respond line).1) (s.respond line).2 lines

end Console

namespace Conversation

variable {c : Conversation} {line : String} {lines : List String}

theorem foldl_write (c : Conversation) (lines : List String) :
    lines.foldl write c =
      { c with
        console := c.console.writeLines lines
        transcript := ⟨c.transcript.lines ++ lines.map (⟨.output, ·⟩)⟩ } := by
  induction lines generalizing c with
  | nil => rw [List.map_nil, List.append_nil]; rfl
  | cons line lines ih =>
    rw [List.foldl_cons, ih]
    simp [write, Transcript.record, Console.writeLines]

theorem answer_eq (c : Conversation) (line : String) :
    c.answer line =
      { session := (c.session.respond line).2
        console := c.console.writeLines (c.session.respond line).1
        transcript := ⟨c.transcript.lines ++ c.session.exchanges [line]⟩ } := by
  show (c.session.respond line).1.foldl write
      { c with
        session := (c.session.respond line).2
        transcript := c.transcript.record .input line } = _
  rw [foldl_write]
  simp [Transcript.record, Session.exchanges]

theorem finish_of_over {last : Conversation} (h : c.exchange = (.over, last)) :
    c.finish = (none, last) := by
  rw [finish]
  split <;> rename_i h' <;> cases h.symm.trans h'
  rfl

theorem finish_of_goingOn {next : Conversation} (h : c.exchange = (.goingOn, next)) :
    c.finish = next.finish := by
  rw [finish]
  split <;> rename_i h' <;> cases h.symm.trans h'
  rfl

theorem exchange_of_finished (h : c.session.finished) : c.exchange = (.over, c) := if_pos h

theorem exchange_of_end (hf : c.session.finished = false) (h : c.console.upcoming = []) :
    c.exchange = (.over, c.answer "") := by
  rw [exchange, if_neg (by simp [hf]), Console.readLine_of_nil h]

theorem exchange_of_line {rest : List (Except ReadFault String)} (hf : c.session.finished = false)
    (h : c.console.upcoming = .ok line :: rest) :
    c.exchange = (.goingOn, answer { c with console := c.console.readLine.2 } line) := by
  have hread : c.console.readLine = (.ok (some line), c.console.readLine.2) :=
    Prod.ext (Console.readLine_of_cons h).1 rfl
  rw [exchange, if_neg (by simp [hf]), hread]

/-- A conversation takes the lines that its console has to give, and comes to an end. -/
theorem finish_of_upcoming (hf : c.session.finished = false)
    (h : c.console.upcoming = lines.map .ok) :
    c.finish =
      (none,
        { session := c.session.converse (taken lines)
          console := c.console.served c.session (taken lines)
          transcript := ⟨c.transcript.lines ++ c.session.exchanges (taken lines)⟩ }) := by
  induction lines generalizing c with
  | nil =>
    rw [finish_of_over (exchange_of_end hf h), answer_eq]
    simp only [taken, Console.served, Console.readLine_of_nil h]
    rfl
  | cons line lines ih =>
    have hfin : (c.session.respond line).2.finished = isBlankText line := Session.finished_respond hf line
    have hleft : c.console.readLine.2.upcoming = lines.map .ok := (Console.readLine_of_cons h).2
    rw [finish_of_goingOn (exchange_of_line hf h), answer_eq]
    cases hb : isBlankText line with
    | true =>
      rw [finish_of_over (exchange_of_finished (hfin.trans hb)), taken, if_pos hb]
      rfl
    | false =>
      have hnext := (Console.upcoming_writeLines _ (c.session.respond line).1).trans hleft
      rw [ih (hfin.trans hb) hnext, taken, if_neg (by simp [hb])]
      have happend := c.session.exchanges_append [line] (taken lines)
      rw [List.singleton_append] at happend
      rw [happend, ← List.append_assoc]
      rfl

end Conversation

/-! ### Tapes -/

/-- The lines that a tape holds when these have passed it by. -/
def held (echo : Bool) (lines : List TranscriptLine) : List String :=
  if echo then lines.map TranscriptLine.text else Transcript.outputs ⟨lines⟩

theorem held_append (echo : Bool) (lines more : List TranscriptLine) :
    held echo (lines ++ more) = held echo lines ++ held echo more := by
  cases echo <;> simp [held, Transcript.outputs]

theorem held_cons_output (echo : Bool) (line : String) (lines : List TranscriptLine) :
    held echo (⟨.output, line⟩ :: lines) = line :: held echo lines := by
  cases echo <;> rfl

theorem held_outputs (echo : Bool) (lines : List String) :
    held echo (lines.map (⟨.output, ·⟩)) = lines := by
  induction lines with
  | nil => cases echo <;> rfl
  | cons line lines ih => rw [List.map_cons, held_cons_output, ih]

theorem held_exchanges_cons (echo : Bool) (s : Session) (line : String) (lines : List String) :
    held echo (s.exchanges (line :: lines)) =
      held echo [⟨.input, line⟩] ++
        ((s.respond line).1 ++ held echo ((s.respond line).2.exchanges lines)) := by
  rw [Session.exchanges, List.cons_append, ← List.singleton_append, held_append, held_append,
    held_outputs]

namespace Console

end Console

namespace Conversation

theorem hold_of_upcoming {s : Session} (hf : s.finished = false) {console : Console}
    (h : console.upcoming = lines.map .ok) :
    hold s console =
      (none,
        { session := s.converse (taken lines)
          console := (console.writeLine s.opening).served s (taken lines)
          transcript := ⟨⟨.output, s.opening⟩ :: s.exchanges (taken lines)⟩ }) :=
  finish_of_upcoming hf ((console.upcoming_writeLine _).trans h)

end Conversation

end Dialogue
