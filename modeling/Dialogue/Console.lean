/-! # Consoles

Where lines are read from and written to. A stream reads the bytes of a text and gathers what is
written; a tape reads lines prepared for it and keeps the lines written; a relay reads prepared
lines first and leaves everything else to another console. Tapes and relays can echo: a prepared
line is then also written when it is read. -/

namespace Dialogue

inductive Console where
  | stream (input : List UInt8) (output : String)
  | tape (queued : List String) (echo : Bool) (written : List String)
  | relay (queued : List String) (echo : Bool) (next : Console)
  deriving Inhabited

/-- Why a line cannot be read. -/
inductive ReadFault where
  | notUtf8
  deriving DecidableEq

def ReadFault.message : ReadFault → String
  | .notUtf8 => "stream did not contain valid UTF-8"

/-- The text that bytes encode. -/
def decodeUtf8? (bytes : List UInt8) : Option String := String.fromUTF8? ⟨bytes.toArray⟩

/-- The first line of some bytes with its line feed, and what follows. -/
def splitLine (bytes : List UInt8) : List UInt8 × List UInt8 :=
  match bytes.dropWhile (· != 10) with
  | [] => (bytes, [])
  | feed :: rest => (bytes.takeWhile (· != 10) ++ [feed], rest)

/-- A line without the line feeds and carriage returns at its end. -/
def trimLineEnd (line : String) : String :=
  String.ofList (line.toList.reverse.dropWhile fun c => c == '\n' || c == '\r').reverse

theorem length_splitLine_lt {bytes : List UInt8} (h : bytes ≠ []) :
    (splitLine bytes).2.length < bytes.length := by
  unfold splitLine
  have hs := (List.dropWhile_suffix (· != 10) (l := bytes)).length_le
  have := List.length_pos_iff.2 h
  split
  · simpa using this
  · rename_i heq
    rw [heq, List.length_cons] at hs
    exact hs

namespace Console

def writeLine (line : String) : Console → Console
  | .stream input output => .stream input (output ++ line ++ "\n")
  | .tape queued echo written => .tape queued echo (written ++ [line])
  | .relay queued echo next => .relay queued echo (next.writeLine line)

/-- Reads the next line, without its line end; there is none at the end of the input. A line of a
stream that cannot be decoded is passed over. -/
def readLine : Console → Except ReadFault (Option String) × Console
  | .stream [] output => (.ok none, .stream [] output)
  | .stream (b :: bs) output =>
    let (line, rest) := splitLine (b :: bs)
    match decodeUtf8? line with
    | some line => (.ok (some (trimLineEnd line)), .stream rest output)
    | none => (.error .notUtf8, .stream rest output)
  | .tape [] echo written => (.ok none, .tape [] echo written)
  | .tape (line :: queued) echo written =>
    (.ok (some line), .tape queued echo (if echo then written ++ [line] else written))
  | .relay [] echo next =>
    let (read, next) := next.readLine
    (read, .relay [] echo next)
  | .relay (line :: queued) echo next =>
    (.ok (some line), .relay queued echo (if echo then next.writeLine line else next))

/-- All that has been written to a stream or a tape, or to the console behind a relay. -/
def output : Console → String
  | .stream _ output => output
  | .tape _ _ written => String.join (written.map (· ++ "\n"))
  | .relay _ _ next => next.output

/-- Adds bytes to the input of the stream that a console ends in. -/
def feed (bytes : List UInt8) : Console → Console
  | .stream input output => .stream (input ++ bytes) output
  | .tape queued echo written => .tape queued echo written
  | .relay queued echo next => .relay queued echo (next.feed bytes)

/-- A console with all that has been written taken away. -/
def emptied : Console → Console
  | .stream input _ => .stream input ""
  | .tape queued echo _ => .tape queued echo []
  | .relay queued echo next => .relay queued echo next.emptied

/-- Bounds the number of lines that can still be read. -/
def size : Console → Nat
  | .stream input _ => input.length
  | .tape queued _ _ => queued.length
  | .relay queued _ next => queued.length + next.size

@[simp] theorem size_writeLine (line : String) (c : Console) :
    (c.writeLine line).size = c.size := by
  induction c with
  | stream => rfl
  | tape => rfl
  | relay queued echo next ih => simp [writeLine, size, ih]

theorem size_readLine_lt {c c' : Console} {line : String} (h : c.readLine = (.ok (some line), c')) :
    c'.size < c.size := by
  induction c generalizing c' with
  | stream input output =>
    cases input with
    | nil => simp [readLine] at h
    | cons b bs =>
      have := length_splitLine_lt (List.cons_ne_nil b bs)
      simp only [readLine] at h
      split at h
      · simp only [Prod.mk.injEq] at h
        rw [← h.2]
        exact this
      · simp at h
  | tape queued echo written =>
    cases queued with
    | nil => simp [readLine] at h
    | cons l ls =>
      simp only [readLine, Prod.mk.injEq] at h
      simp [← h.2, size]
  | relay queued echo next ih =>
    cases queued with
    | nil =>
      simp only [readLine, Prod.mk.injEq] at h
      have := ih (Prod.ext h.1 rfl)
      simpa [← h.2, size] using this
    | cons l ls =>
      simp only [readLine, Prod.mk.injEq] at h
      rw [← h.2]
      split <;> simp [size]

end Console

end Dialogue
