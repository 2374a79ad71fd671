/-! # Lines of a text

A line feed ends a line, together with one carriage return before it if there is one. Text after the
last line feed is a line of its own, as it stands. -/

namespace Dialogue.Text

/-- Cuts a text into lines; `line` is what has been read of the line at hand, last character
first. -/
def linesFrom (line : List Char) : List Char → List (List Char)
  | [] => if line.isEmpty then [] else [line.reverse]
  | '\n' :: cs =>
    let line := if line.head? == some '\r' then line.tail else line
    line.reverse :: linesFrom [] cs
  | c :: cs => linesFrom (c :: line) cs

/-- The lines of a text, without their line ends. -/
def lines (s : String) : List String := (linesFrom [] s.toList).map String.ofList

end Dialogue.Text
