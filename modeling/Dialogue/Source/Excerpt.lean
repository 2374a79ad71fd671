import Dialogue.Source.Fault

/-! # Excerpts

A complaint about a source is shown with the line it is about and a row of carets under the place.
Lines and columns count from one, and columns count bytes. -/

namespace Dialogue.Source

/-- Cuts a text in two at a byte; a character that reaches over it goes to the first part. -/
def splitAtByte (n : Nat) : List Char → List Char × List Char
  | [] => ([], [])
  | c :: cs =>
    if n = 0 then ([], c :: cs)
    else
      let (before, after) := splitAtByte (n - c.utf8Size) cs
      (c :: before, after)

/-- The part of a text after its last line feed; the whole of it if it has none. -/
def lastLine (cs : List Char) : List Char :=
  (cs.reverse.takeWhile (· != '\n')).reverse

/-- A place in a source as a reader looks for it. -/
structure Location where
  line : Nat
  column : Nat
  /-- The line, without its line feed. -/
  text : List Char

/-- Where the byte `n` lies; a place beyond the end counts as the end. -/
def Location.ofByte (source : String) (n : Nat) : Location :=
  let (before, after) := splitAtByte n source.toList
  { line := before.count '\n' + 1
    column := byteLength (lastLine before) + 1
    text := lastLine before ++ after.takeWhile (· != '\n') }

/-- A complaint with the line it is about: carets mark the place, at least one and none beyond the
end of the line unless the place is there. A complaint about no place stands alone. -/
def excerpt (source : String) (place : Option Span) (message : String) : String :=
  match place with
  | none => message ++ "\n"
  | some span =>
    let loc := Location.ofByte source span.start
    let width := byteLength loc.text
    let indent := min (loc.column - 1) width
    let carets := max 1 (min span.length (width - indent))
    s!"Error at line {loc.line}, column {loc.column}:\n  {message}\n\n  "
      ++ String.ofList loc.text ++ "\n  "
      ++ String.ofList (List.replicate indent ' ' ++ List.replicate carets '^') ++ "\n"

def Fault.excerpt (source : String) (f : Fault) : String :=
  Source.excerpt source (some f.place) f.message

end Dialogue.Source
