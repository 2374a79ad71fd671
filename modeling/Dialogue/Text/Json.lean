/-! # JSON output

A small value type for what is written as JSON, and the two things its writer decides: strings
escape quotes, backslashes and control characters and nothing else, and every item of an array or
object that is not empty stands on a line of its own. -/

namespace Dialogue.Text

inductive Json where
  | null
  | number (n : Nat)
  | string (s : String)
  | array (items : List Json)
  | object (fields : List (String × Json))

namespace Json

/-- The written form of one character of a string. -/
def escape (c : Char) : List Char :=
  if c == '\x22' then ['\\', '\x22']
  else if c == '\\' then ['\\', '\\']
  else if c == '\x08' then ['\\', 'b']
  else if c == '\x0c' then ['\\', 'f']
  else if c == '\n' then ['\\', 'n']
  else if c == '\r' then ['\\', 'r']
  else if c == '\t' then ['\\', 't']
  else if c.toNat < 0x20 then
    let digits := Nat.toDigits 16 c.toNat
    ['\\', 'u'] ++ List.replicate (4 - digits.length) '0' ++ digits
  else [c]

def quote (s : String) : String :=
  String.ofList ('\x22' :: s.toList.flatMap escape ++ ['\x22'])

/-- Starts a line that is indented by `depth` steps of two spaces. -/
def newline (depth : Nat) : String := String.ofList ('\n' :: List.replicate (2 * depth) ' ')

/-- Items between brackets, one to a line and indented one step more than the brackets. -/
def block (depth : Nat) (left right : String) (items : List String) : String :=
  if items.isEmpty then left ++ right
  else
    left ++ newline (depth + 1) ++ ("," ++ newline (depth + 1)).intercalate items ++ newline depth
      ++ right

mutual

/-- The text of a value whose first line is indented by `depth` steps. -/
def pretty (depth : Nat) : Json → String
  | .null => "null"
  | .number n => toString n
  | .string s => quote s
  | .array items => block depth "[" "]" (prettyAll (depth + 1) items)
  | .object fields => block depth "\x7b" "\x7d" (prettyFields (depth + 1) fields)

def prettyAll (depth : Nat) : List Json → List String
  | [] => []
  | j :: js => pretty depth j :: prettyAll depth js

def prettyFields (depth : Nat) : List (String × Json) → List String
  | [] => []
  | (name, j) :: js => (quote name ++ ": " ++ pretty depth j) :: prettyFields depth js

end

end Json

end Dialogue.Text
