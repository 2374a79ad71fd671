import Dialogue.Text.Upper

/-! # Words

A word keeps the spelling it was written with. Two words are the same word, `a ≈ b`, when their
spellings in capitals agree letter by letter; `a = b` says that they are also spelt alike. -/

namespace Dialogue

structure Word where
  text : String
  deriving DecidableEq, Inhabited, Repr

namespace Word

/-- The spelling in capitals, by which words are compared. -/
def folded (w : Word) : List Char := Text.upperAll w.text.toList

instance : Setoid Word where
  r a b := a.folded = b.folded
  iseqv := ⟨fun _ => rfl, Eq.symm, Eq.trans⟩

theorem equiv_iff {a b : Word} : a ≈ b ↔ a.folded = b.folded := Iff.rfl

instance (a b : Word) : Decidable (a ≈ b) :=
  inferInstanceAs (Decidable (a.folded = b.folded))

/-- The word written in capitals. -/
def upper (w : Word) : Word := ⟨Text.upperText w.text⟩

@[simp] theorem toList_upper (w : Word) : w.upper.text.toList = w.folded :=
  Text.toList_upperText w.text

def isEmpty (w : Word) : Bool := w.text.isEmpty

/-- The words of a phrase, separated by single spaces. -/
def phrase (ws : List Word) : String := " ".intercalate (ws.map text)

/-- One of the words of the list is the same word as `w`. -/
def among (w : Word) (ws : List Word) : Bool := ws.any fun v => v ≈ w

end Word

end Dialogue
