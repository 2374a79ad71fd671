import Dialogue.Word

/-! # Decomposition patterns

A pattern cuts the words of an input into one group per part of the pattern, or does not apply to it
at all. There is no search: each part takes its words from the left, and a gap of any size reaches
as far as the first word that the next anchor after it admits. -/

namespace Dialogue

inductive Part where
  /-- Exactly this word. -/
  | word (w : Word)
  /-- As many words as it says, and any number of words if it says zero. -/
  | gap (size : UInt32)
  /-- One word out of several. -/
  | oneOf (ws : List Word)
  /-- A word with a tag. No word has tags, so this matches nothing. -/
  | tagged (ws : List Word)
  deriving DecidableEq

namespace Part

/-- Can end a gap before it. -/
def isAnchor : Part → Bool
  | .word _ | .oneOf _ => true
  | _ => false

/-- Whether a word satisfies the part as an anchor. -/
def admits : Part → Word → Bool
  | .word v, w => v ≈ w
  | .oneOf vs, w => w.among vs
  | _, _ => false

/-- The number of words a gap of any size takes: those before the next anchor's word, or all. -/
def reach (later : List Part) (words : List Word) : Nat :=
  match later.find? isAnchor with
  | some anchor => (words.takeWhile fun w => !anchor.admits w).length
  | none => words.length

/-- The number of words a part takes when `later` are the parts after it; none if it cannot fit. -/
def share (p : Part) (later : List Part) (words : List Word) : Option Nat :=
  match p with
  | .word _ | .oneOf _ =>
    match words with
    | w :: _ => if p.admits w then some 1 else none
    | [] => none
  | .tagged _ => none
  | .gap size =>
    if size = 0 then some (reach later words)
    else if words.length < size.toNat then none
    else some size.toNat

/-- How a part is written in a script. -/
def text : Part → String
  | .word w => w.text
  | .gap size => toString size.toNat
  | .oneOf ws => "(* " ++ Word.phrase ws ++ ")"
  | .tagged ws => "(" ++ Word.phrase ws ++ ")"

end Part

/-- The groups of words that the parts of a pattern take; together they are the whole input. -/
def decompose : List Part → List Word → Option (List (List Word))
  | [], [] => some []
  | [], _ :: _ => none
  | p :: later, words => do
    let n ← p.share later words
    return words.take n :: (← decompose later (words.drop n))

end Dialogue
