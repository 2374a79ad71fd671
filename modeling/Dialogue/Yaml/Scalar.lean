import Dialogue.Yaml.Place

/-! # Scalars on the lines of a text

Plain and quoted scalars, which may run over several lines. White space within them is kept as long
as it stands on one line. Otherwise its blanks are dropped and its line ends are folded: a single
line feed becomes a space, and of several the first is dropped. The separators U+2028 and U+2029 are
always kept. -/

namespace Dialogue.Yaml

/-- What the line ends between two parts of a scalar become. -/
def folded : List Char → List Char
  | ['\n'] => [' ']
  | '\n' :: more => more
  | breaks => breaks

/-- What the white space between two parts of a scalar becomes. -/
def spacing (white : List Char) : List Char :=
  let breaks := white.filter isBreak
  if breaks.isEmpty then white else folded breaks

/-! ## Plain scalars -/

/-- Whether a plain scalar can start here. -/
def startsPlain (flow : Bool) : List Char → Bool
  | [] => false
  | c :: cs =>
    if c == '-' then !atGap cs
    else if c == '?' || c == ':' then !flow && !atGap cs
    else !isWhite c && !isFlowMark c &&
      !(['#', '&', '*', '!', '|', '>', '\x27', '\x22', '%', '@', '\x60'].contains c)

/-- The characters of a plain scalar up to white space or a mark that ends it. Between brackets a
colon may not be followed by a mark. -/
def plainRun? (flow : Bool) : List Char → Option (List Char)
  | [] => some []
  | c :: cs =>
    if isWhite c || (c == ':' && atGap cs) || (flow && isFlowMark c) then some []
    else if flow && c == ':' && cs.head?.any (fun d => isFlowMark d || d == '?') then none
    else (c :: ·) <$> plainRun? flow cs

/-- Whether white space from a column on has a tab where the indentation of a new line should be. -/
def tabIndents (indent : Nat) (newLine : Bool) (column : Nat) : List Char → Bool
  | [] => false
  | c :: cs =>
    if isBreak c then tabIndents indent true 0 cs
    else
      (newLine && c == '\t' && decide (column < indent)) ||
        tabIndents indent newLine (column + 1) cs

/-- A plain scalar. -/
structure Plain where
  chars : List Char
  /-- There is a line end in the white space behind it. -/
  ended : Bool
  /-- The place behind it and behind the white space that follows. -/
  after : Place

/-- The parts of a plain scalar from `p` on; `ended` says that there is a line end before `p`. Lines
that continue it are indented by `indent` columns at least, except between brackets. -/
def plainFrom? (flow : Bool) (indent : Nat) (ended : Bool) (p : Place) : Option Plain :=
  if p.atMarker || p.rest.head? == some '#' then some ⟨[], ended, p⟩
  else
    match _h : plainRun? flow p.rest with
    | none => none
    | some [] => some ⟨[], ended, p⟩
    | some (c :: cs) =>
      let run := c :: cs
      let stop := p.skip run.length
      let white := stop.rest.takeWhile isWhite
      let next := stop.skip white.length
      let ended := white.any isBreak
      if tabIndents indent false stop.column white then none
      else if !flow && next.column < indent then some ⟨run, ended, next⟩
      else do
        let more ← plainFrom? flow indent ended next
        let between := if more.chars.isEmpty then [] else spacing white
        return { more with chars := run ++ between ++ more.chars }
termination_by p.rest.length
decreasing_by
  have hne : p.rest ≠ [] := fun h => by simp [h, plainRun?] at _h
  have := Place.length_skip_le (p.skip (c :: cs).length)
    ((p.skip (c :: cs).length).rest.takeWhile isWhite).length
  have hstop : (p.skip (c :: cs).length).rest.length = p.rest.length - (c :: cs).length := by
    rw [Place.rest_skip, List.length_drop]
  have := List.length_pos_iff.2 hne
  simp only [List.length_cons] at *
  omega

def plain? (flow : Bool) (indent : Nat) (p : Place) : Option Plain :=
  plainFrom? flow indent false p

/-! ## Quoted scalars -/

/-- What stands between the quotes. -/
inductive Mark where
  | char (c : Char)
  | white (c : Char)
  /-- A line end that joins its two lines. -/
  | join

/-- The character an escape of one letter stands for. -/
def escape? (c : Char) : Option Char :=
  [('0', '\x00'), ('a', '\x07'), ('b', '\x08'), ('t', '\t'), ('\t', '\t'), ('n', '\n'),
    ('v', '\x0b'), ('f', '\x0c'), ('r', '\r'), ('e', '\x1b'), (' ', ' '), ('\x22', '\x22'),
    ('/', '/'), ('\\', '\\'), ('N', '\u0085'), ('_', '\u00A0'), ('L', '\u2028'),
    ('P', '\u2029')].lookup c

def hexDigit? (c : Char) : Option Nat :=
  if '0' ≤ c ∧ c ≤ '9' then some (c.toNat - '0'.toNat)
  else if 'a' ≤ c ∧ c ≤ 'f' then some (c.toNat - 'a'.toNat + 10)
  else if 'A' ≤ c ∧ c ≤ 'F' then some (c.toNat - 'A'.toNat + 10)
  else none

/-- The character with a code point written in hexadecimal. -/
def hexChar? (digits : List Char) : Option Char := do
  let n := (← digits.mapM hexDigit?).foldl (fun n d => 16 * n + d) 0
  if n.isValidChar then some (Char.ofNat n) else none

def Mark.ofChar (c : Char) : Mark := if isWhite c then .white c else .char c

/-- What is read from a quoted scalar. -/
structure Quotation where
  marks : List Mark
  /-- The number of characters up to the closing quote and with it. -/
  length : Nat

/-- Puts a mark that takes `n` characters in front, if there is one. -/
def Quotation.cons (m : Option Mark) (n : Nat) (more : Option Quotation) : Option Quotation := do
  let more ← more
  return ⟨(← m) :: more.marks, n + more.length⟩

/-- The marks up to the closing quote. No line in between may look like the start or end of a
document. -/
def singleQuoted : List Char → Option Quotation
  | [] => none
  | '\x27' :: '\x27' :: cs => Quotation.cons (some (.char '\x27')) 2 (singleQuoted cs)
  | '\x27' :: _ => some ⟨[], 1⟩
  | c :: cs =>
    if isBreak c && startsMarker cs then none
    else Quotation.cons (some (.ofChar c)) 1 (singleQuoted cs)

/-- The marks up to the closing quote, where a backslash starts an escape or joins two lines. -/
def doubleQuoted : List Char → Option Quotation
  | [] => none
  | '\x22' :: _ => some ⟨[], 1⟩
  | '\\' :: 'x' :: a :: b :: cs => Quotation.cons (.char <$> hexChar? [a, b]) 4 (doubleQuoted cs)
  | '\\' :: 'u' :: a :: b :: c :: d :: cs =>
    Quotation.cons (.char <$> hexChar? [a, b, c, d]) 6 (doubleQuoted cs)
  | '\\' :: 'U' :: a :: b :: c :: d :: e :: f :: g :: h :: cs =>
    Quotation.cons (.char <$> hexChar? [a, b, c, d, e, f, g, h]) 10 (doubleQuoted cs)
  | '\\' :: c :: cs =>
    if !isBreak c then Quotation.cons (.char <$> escape? c) 2 (doubleQuoted cs)
    else if startsMarker cs then none
    else Quotation.cons (some .join) 2 (doubleQuoted cs)
  | c :: cs =>
    if isBreak c && startsMarker cs then none
    else Quotation.cons (some (.ofChar c)) 1 (doubleQuoted cs)

/-- The text that marks stand for. The white space before them, newest first, has been read but not
written; behind the end of a joined line only its line ends count. -/
def foldMarks (joined : Bool) (white : List Char) : List Mark → List Char
  | [] => before
  | .char c :: marks => before ++ c :: foldMarks false [] marks
  | .join :: marks => before ++ foldMarks true [] marks
  | .white c :: marks => foldMarks joined (c :: white) marks
where
  before := if joined then white.reverse.filter isBreak else spacing white.reverse

/-- The text of the quoted scalar at a place, and the place behind it. -/
def quoted? (p : Place) : Option (String × Place) :=
  match p.rest with
  | [] => none
  | quote :: cs => do
    let found ← if quote == '\x27' then singleQuoted cs else doubleQuoted cs
    return (String.ofList (foldMarks false [] found.marks), p.skip (1 + found.length))

end Dialogue.Yaml
