import Dialogue.Text.UpperTable

/-! # Upper-casing

`upper` spells one character in capitals; a text is upper-cased character by character, so
upper-casing distributes over concatenation. A spelling in capitals can be longer than the letter:
a sharp s becomes two letters. -/

namespace Dialogue.Text

/-- The capitals a character is written with; a character that has none stands for itself. -/
def upper (c : Char) : List Char :=
  if c.toNat < 0x80 then [c.toUpper]
  else match expansions.lookup c.toNat with
    | some spelling => spelling.map Char.ofNat
    | none =>
      match capitalRuns.find? (·.covers c.toNat) with
      | some run => [Char.ofNat (run.image c.toNat)]
      | none => [c]

def upperAll (cs : List Char) : List Char := cs.flatMap upper

@[simp] theorem upperAll_nil : upperAll [] = [] := rfl

@[simp] theorem upperAll_cons (c : Char) (cs : List Char) :
    upperAll (c :: cs) = upper c ++ upperAll cs := rfl

@[simp] theorem upperAll_append (a b : List Char) :
    upperAll (a ++ b) = upperAll a ++ upperAll b :=
  List.flatMap_append

def upperText (s : String) : String := String.ofList (upperAll s.toList)

@[simp] theorem toList_upperText (s : String) : (upperText s).toList = upperAll s.toList := by
  simp [upperText]

end Dialogue.Text
