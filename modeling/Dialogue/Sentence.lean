import Dialogue.Text.Blank
import Dialogue.Word

/-! # Sentences

How a line typed by the user falls into words. White space and the marks `? ! ; : "` only separate;
a full stop and a comma are words of their own, so that they can end a clause; every other run of
characters is a word. Words are read in capitals. -/

namespace Dialogue.Sentence

/-- Separates words and is dropped. -/
def isDropped (c : Char) : Bool :=
  Text.isBlank c || c == '?' || c == '!' || c == ';' || c == ':' || c == '"'

/-- A word by itself. -/
def isStop (c : Char) : Bool := c == '.' || c == ','

/-- Part of a longer word. -/
def isLetter (c : Char) : Bool := !isDropped c && !isStop c

/-- The pieces of a line as they were typed. -/
def pieces : List Char → List (List Char)
  | [] => []
  | c :: cs =>
    if isDropped c then pieces cs
    else if isStop c then [c] :: pieces cs
    else (c :: cs.takeWhile isLetter) :: pieces (cs.dropWhile isLetter)
termination_by cs => cs.length
decreasing_by
  all_goals simp only [List.length_cons]
  · omega
  · omega
  · have := (List.dropWhile_suffix isLetter (l := cs)).length_le
    omega

-- The equations of the cases, made from the general one: those that Lean derives unfold `isBlank`.
@[simp] theorem pieces_nil : pieces [] = [] := by rw [pieces.eq_def]

theorem pieces_cons (c : Char) (cs : List Char) :
    pieces (c :: cs) =
      if isDropped c then pieces cs
      else if isStop c then [c] :: pieces cs
      else (c :: cs.takeWhile isLetter) :: pieces (cs.dropWhile isLetter) := by
  rw [pieces.eq_def]

/-- The words of a line. -/
def words (line : String) : List Word :=
  (pieces line.toList).map fun piece => ⟨String.ofList (Text.upperAll piece)⟩

end Dialogue.Sentence
