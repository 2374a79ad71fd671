import Dialogue.Word

/-! # Reassembly templates

A template is filled with the groups of a decomposed input. -/

namespace Dialogue

inductive Filler where
  | word (w : Word)
  /-- The group with this number; the first group has the number 1. -/
  | group (number : Nat)
  deriving DecidableEq

/-- The words a filler stands for. A number without a group is filled with the placeholder. -/
def Filler.expand (groups : List (List Word)) (placeholder : String) : Filler → List Word
  | .word w => [w]
  | .group 0 => [⟨placeholder⟩]
  | .group (n + 1) => groups[n]?.getD [⟨placeholder⟩]

def reassemble (template : List Filler) (groups : List (List Word)) (placeholder : String) :
    List Word :=
  template.flatMap (Filler.expand groups placeholder)

end Dialogue
