import Dialogue.Word

/-! # Data

What a cell of a list holds: a word, a number or another list. `text` is the written form of a datum
and `same` its equality up to the case of its words. -/

namespace Dialogue

inductive Datum where
  | word (w : Word)
  | number (n : UInt32)
  | list (cells : List Datum)
  deriving Inhabited

namespace Datum

/-- The word spelt `s`. -/
def ofText (s : String) : Datum := .word ⟨s⟩

def word? : Datum → Option Word
  | .word w => some w
  | _ => none

def isList : Datum → Bool
  | .list _ => true
  | _ => false

/-- Whether a datum is the word `s`, in whatever case either is written. -/
def isWord (d : Datum) (s : String) : Bool :=
  match d with
  | .word w => w ≈ ⟨s⟩
  | _ => false

mutual

/-- The written form: words as spelt, numbers in decimal, lists between parentheses. -/
def text : Datum → String
  | .word w => w.text
  | .number n => toString n.toNat
  | .list cells => "(" ++ " ".intercalate (texts cells) ++ ")"

def texts : List Datum → List String
  | [] => []
  | d :: ds => d.text :: texts ds

end

/-- The cells of a list, separated by spaces and without the parentheses around them. -/
def line (cells : List Datum) : String := " ".intercalate (texts cells)

theorem texts_eq_map (ds : List Datum) : texts ds = ds.map text := by
  induction ds with
  | nil => rfl
  | cons d ds ih => simp [texts, ih]

mutual

/-- Equality up to the case of words. -/
def same : Datum → Datum → Bool
  | .word a, .word b => a ≈ b
  | .number a, .number b => a == b
  | .list a, .list b => sameAll a b
  | _, _ => false

def sameAll : List Datum → List Datum → Bool
  | [], [] => true
  | a :: as, b :: bs => a.same b && sameAll as bs
  | _, _ => false

end

/-- The words among the cells of a list, not those of lists inside it. -/
def words (cells : List Datum) : List Word := cells.filterMap word?

end Datum

end Dialogue
