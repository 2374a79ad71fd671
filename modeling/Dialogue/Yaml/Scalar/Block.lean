import Dialogue.Yaml.Place

/-! # Block scalars

Scalars that are written on indented lines of their own below a mark: a bar keeps the line ends, and
a greater-than sign folds those between lines that are not indented further. -/

namespace Dialogue.Yaml

/-- What happens to the line ends behind the last line. -/
inductive Chomping where
  | strip
  | clip
  | keep
  deriving DecidableEq

def chomping? (c : Char) : Option Chomping :=
  if c == '-' then some .strip else if c == '+' then some .keep else none

/-- The digit that gives the indentation of a block scalar; it is not 0. -/
def indentation? (c : Char) : Option Nat :=
  if '1' ≤ c ∧ c ≤ '9' then some (c.toNat - '0'.toNat) else none

/-- What is written behind the mark of a block scalar, in either order, and how many characters that
takes. -/
def blockHeader (cs : List Char) : Chomping × Option Nat × Nat :=
  match cs.head?.bind chomping?, cs.head?.bind indentation? with
  | some chomping, _ =>
    match cs.tail.head?.bind indentation? with
    | none => (chomping, none, 1)
    | some n => (chomping, some n, 2)
  | none, some n =>
    match cs.tail.head?.bind chomping? with
    | none => (.clip, some n, 1)
    | some chomping => (chomping, some n, 2)
  | none, none => (.clip, none, 0)

/-- Empty lines before a line of a block scalar. -/
structure EmptyLines where
  breaks : List Char
  /-- The greatest column to which one of them, or the line behind them, is indented. -/
  widest : Nat
  after : Place

/-- Passes over empty lines and the indentation of the line behind them. Where the indentation is
not yet known, all spaces count. A tab cannot stand in it. -/
def emptyLines? (indent : Option Nat) : Nat → Place → Option EmptyLines
  | 0, _ => none
  | fuel + 1, p =>
    let inside := indent.all (p.column < ·)
    match p.rest with
    | [] => some ⟨[], p.column, p⟩
    | c :: _ =>
      if c == ' ' && inside then emptyLines? indent fuel p.next
      else if c == '\t' && inside then none
      else if isBreak c then do
        let more ← emptyLines? indent fuel p.next
        return ⟨c :: more.breaks, max p.column more.widest, more.after⟩
      else some ⟨[], p.column, p⟩

/-- The lines of a block scalar. -/
structure BlockLines where
  chars : List Char
  /-- The line end of the last line, if it has one. -/
  lastBreak : List Char
  /-- The line ends of the empty lines behind it. -/
  trailing : List Char
  after : Place

/-- What the end of a line becomes; `more` are the ends of the empty lines behind it, and `kept`
says that it is not folded. -/
def lineJoint (kept : Bool) (lastBreak more : List Char) : List Char :=
  if !kept && lastBreak == ['\n'] then (if more.isEmpty then [' '] else more)
  else lastBreak ++ more

/-- The lines from one on that has the indentation of the scalar. `kept` says that the line before
it starts with a blank or that all line ends are kept, `lastBreak` is the end of that line and
`more` are those of the empty lines between. -/
def blockLines? (literal : Bool) (indent : Nat) :
    Nat → Bool → List Char → List Char → Place → Option BlockLines
  | 0, _, _, _, _ => none
  | fuel + 1, kept, lastBreak, more, p =>
    if p.column != indent || p.rest.isEmpty then some ⟨[], lastBreak, more, p⟩
    else do
      let blank := literal || p.rest.head?.any isBlank
      let line := p.rest.takeWhile (!isBreak ·)
      let stop := p.skip line.length
      let empty ← emptyLines? (some indent) (fuel + 1) stop.next
      let lineEnd := stop.rest.take 1
      let found ← blockLines? literal indent fuel blank lineEnd empty.breaks empty.after
      let joint := lineJoint (kept || blank) lastBreak more
      return { found with chars := joint ++ line ++ found.chars }

/-- The text of the block scalar at a place, and the place behind it. Without a digit, the first
line that is not empty gives the indentation, which is `floor` at least. -/
def blockScalar? (floor : Nat) (p : Place) : Option (String × Place) := do
  let literal := p.rest.head? == some '|'
  let (chomping, digit, length) := blockHeader p.rest.tail
  let start ← (p.skip (1 + length)).lineEnd?
  let fuel := start.rest.length + 1
  let given := digit.map fun n => floor - 1 + n
  let empty ← emptyLines? given fuel start
  let indent := given.getD (max empty.widest (max floor 1))
  let found ← blockLines? literal indent fuel literal [] empty.breaks empty.after
  let ends := match chomping with
    | .strip => []
    | .clip => found.lastBreak
    | .keep => found.lastBreak ++ found.trailing
  return (String.ofList (found.chars ++ ends), found.after)

end Dialogue.Yaml
