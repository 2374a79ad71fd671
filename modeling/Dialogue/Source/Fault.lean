import Dialogue.Text.Span

/-! # Faults in a source

Why a source cannot be read, and where. A fault is found either while the source is cut into tokens
or while the tokens are read as lists; its message names the phase and the place. -/

namespace Dialogue.Source

inductive Phase where
  | lexer
  | parser

/-- The message of a complaint about a place in the source. -/
def Phase.complaint (phase : Phase) (place : Span) (detail : String) : String :=
  let name := match phase with
    | .lexer => "Lexer"
    | .parser => "Parser"
  s!"{name} error at {place.describe}: {detail}"

inductive Fault where
  /-- White space that does not separate tokens. -/
  | strayBlank (place : Span) (c : Char)
  /-- Something other than a list at top level. -/
  | notAList (place : Span)
  /-- A number too large to be stored. -/
  | hugeNumber (place : Span)
  /-- The source ends inside the list opened at `opening`. -/
  | unclosed (opening : Span)
  /-- A source that should hold one list holds none. -/
  | noList
  /-- A source that should hold one list goes on after it. -/
  | trailing (place : Span)
  deriving DecidableEq

namespace Fault

def phase : Fault → Phase
  | .strayBlank .. => .lexer
  | _ => .parser

/-- The bytes a fault points at. -/
def place : Fault → Span
  | .strayBlank place _ | .notAList place | .hugeNumber place | .unclosed place
  | .trailing place => place
  | .noList => .nowhere

def detail : Fault → String
  | .strayBlank _ c => "Invalid token: " ++ String.singleton c
  | .notAList _ => "Expected '(' to start a list"
  | .hugeNumber _ => "Invalid number"
  | .unclosed _ => "Missing ')' for this list"
  | .noList => "Expected a list"
  | .trailing _ => "Unexpected input after list"

def message (f : Fault) : String := f.phase.complaint f.place f.detail

end Fault

end Dialogue.Source
