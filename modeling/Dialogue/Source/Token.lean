import Dialogue.Source.Fault
import Dialogue.Text.Blank

/-! # Tokens

A source is a text of words, numbers and parentheses. Parentheses and `=` are tokens wherever they
stand; any other run of characters is one token, a number if it consists of digits and a word
otherwise. Spaces, tabs, line feeds, carriage returns and form feeds only separate tokens; white
space of any other kind is a fault. -/

namespace Dialogue.Source

inductive Token where
  | opening
  | closing
  | equals
  /-- A number, if it is small enough to be stored. -/
  | number (value : Option UInt32)
  | word (text : String)
  /-- The end of the source. -/
  | finish
  deriving DecidableEq

/-- A token and the bytes it was read from. -/
structure Lexeme where
  token : Token
  place : Span
  deriving DecidableEq

/-- Separates tokens. -/
def isGap (c : Char) : Bool :=
  c == ' ' || c == '\t' || c == '\r' || c == '\n' || c == '\x0c'

/-- Can be part of a word or a number. -/
def isRunChar (c : Char) : Bool :=
  !Text.isBlank c && c != '(' && c != ')' && c != '='

namespace Token

/-- The tokens that are a single character wherever it stands. -/
def ofMark? : Char → Option Token
  | '(' => some .opening
  | ')' => some .closing
  | '=' => some .equals
  | _ => none

/-- The token that a run of characters stands for. -/
def ofRun (run : List Char) : Token :=
  if run.all Char.isDigit then
    let value := Nat.ofDigitChars 10 run 0
    .number (if value < UInt32.size then some value.toUInt32 else none)
  else .word (String.ofList run)

end Token

/-- The tokens of a text that starts at the byte `start` of its source. -/
def lexemes (start : Nat) : List Char → Except Fault (List Lexeme)
  | [] => .ok [⟨.finish, ⟨start, start⟩⟩]
  | c :: cs =>
    let stop := start + c.utf8Size
    if isGap c then lexemes stop cs
    else match Token.ofMark? c with
      | some token => return ⟨token, ⟨start, stop⟩⟩ :: (← lexemes stop cs)
      | none =>
        if Text.isBlank c then .error (.strayBlank ⟨start, stop⟩ c)
        else
          let run := c :: cs.takeWhile isRunChar
          let stop := start + byteLength run
          return ⟨.ofRun run, ⟨start, stop⟩⟩ :: (← lexemes stop (cs.dropWhile isRunChar))
termination_by cs => cs.length
decreasing_by
  all_goals simp only [List.length_cons]
  · omega
  · omega
  · have := (List.dropWhile_suffix isRunChar (l := cs)).length_le
    omega

def tokenize (source : String) : Except Fault (List Lexeme) := lexemes 0 source.toList

end Dialogue.Source
