/-! # Places in a YAML text

A place is what is left of the text together with its distance from the start, its line and its
column. Lines end with a line feed, which stands for all the usual line ends, or with one of the two
separators U+2028 and U+2029. -/

namespace Dialogue.Yaml

/-! ## Characters -/

/-- Separates tokens on a line. -/
def isBlank (c : Char) : Bool := c == ' ' || c == '\t'

/-- Ends a line. -/
def isBreak (c : Char) : Bool := c == '\n' || c == '\u2028' || c == '\u2029'

def isWhite (c : Char) : Bool := isBlank c || isBreak c

/-- Characters of the names of anchors, tags and directives. -/
def isNameChar (c : Char) : Bool := c.isAlphanum || c == '_' || c == '-'

/-- The two brackets, the two braces and the comma part collections that are written on one line. -/
def isFlowMark (c : Char) : Bool := c == ',' || c == '[' || c == ']' || c == '\x7b' || c == '\x7d'

/-- Characters a text may hold. -/
def isAllowed (c : Char) : Bool :=
  let n := c.toNat
  n == 0x9 || n == 0xA || n == 0xD || (0x20 ≤ n && n ≤ 0x7E) || n == 0x85 ||
    (0xA0 ≤ n && n ≤ 0xFFFD) || 0x10000 ≤ n

/-- Writes a carriage return with or without a line feed, and U+0085, as a line feed. -/
def lineFeeds : List Char → List Char
  | [] => []
  | '\r' :: '\n' :: cs => '\n' :: lineFeeds cs
  | c :: cs => (if c == '\r' || c == '\u0085' then '\n' else c) :: lineFeeds cs

/-- White space or the end of the text. -/
def atGap : List Char → Bool
  | [] => true
  | c :: _ => isWhite c

/-- The beginning of a line that starts or ends a document. -/
def startsMarker (cs : List Char) : Bool :=
  (cs.take 3 == ['-', '-', '-'] || cs.take 3 == ['.', '.', '.']) && atGap (cs.drop 3)

/-! ## Places -/

structure Place where
  /-- The text from here on. -/
  rest : List Char
  /-- The number of characters before. -/
  index : Nat := 0
  line : Nat := 0
  column : Nat := 0

namespace Place

/-- The place behind the next character. -/
def next (p : Place) : Place :=
  match p.rest with
  | [] => p
  | c :: cs =>
    if isBreak c then ⟨cs, p.index + 1, p.line + 1, 0⟩
    else ⟨cs, p.index + 1, p.line, p.column + 1⟩

/-- The place behind the next `n` characters. -/
def skip (p : Place) : Nat → Place
  | 0 => p
  | n + 1 => p.next.skip n

/-- The place behind the characters that come first and satisfy a condition. -/
def skipWhile (p : Place) (f : Char → Bool) : Place := p.skip (p.rest.takeWhile f).length

/-- Whether a line that starts or ends a document begins here. -/
def atMarker (p : Place) : Bool := p.column == 0 && startsMarker p.rest

theorem rest_next (p : Place) : p.next.rest = p.rest.tail := by
  unfold next; split
  · simp_all
  · split <;> simp_all

theorem rest_skip (p : Place) (n : Nat) : (p.skip n).rest = p.rest.drop n := by
  induction n generalizing p with
  | zero => rfl
  | succ n ih => simp [skip, ih, rest_next]

theorem length_next_lt {p : Place} (h : p.rest ≠ []) : p.next.rest.length < p.rest.length := by
  have := List.length_pos_iff.2 h
  rw [rest_next, List.length_tail]
  omega

theorem length_skip_le (p : Place) (n : Nat) : (p.skip n).rest.length ≤ p.rest.length := by
  rw [rest_skip, List.length_drop]
  omega

/-- Passes over blanks, comments and line ends, up to a token. A byte order mark can start a line.
In a block a key can stand on a new line, and no tab can stand before it. The answer says whether a
key can stand at the place. -/
def skipGap (flow keyAllowed : Bool) (p : Place) : Bool × Place :=
  match _h : p.rest with
  | [] => (keyAllowed, p)
  | c :: _ =>
    if isBreak c then p.next.skipGap flow (keyAllowed || !flow)
    else if c == '#' then (p.next.skipWhile (!isBreak ·)).skipGap flow keyAllowed
    else if c == ' ' || (c == '\t' && (flow || !keyAllowed)) || (c == '\ufeff' && p.column == 0)
    then p.next.skipGap flow keyAllowed
    else (keyAllowed, p)
termination_by p.rest.length
decreasing_by
  · exact length_next_lt (by simp [_h])
  · exact Nat.lt_of_le_of_lt (length_skip_le ..) (length_next_lt (by simp [_h]))
  · exact length_next_lt (by simp [_h])

/-- Passes over blanks and a comment to the end of the line and to the next line, if nothing else
follows on this line. -/
def lineEnd? (p : Place) : Option Place :=
  let p := p.skipWhile isBlank
  let p := if p.rest.head? == some '#' then p.skipWhile (!isBreak ·) else p
  match p.rest with
  | [] => some p
  | c :: _ => if isBreak c then some p.next else none

end Place

end Dialogue.Yaml
