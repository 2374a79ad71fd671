import Dialogue.Pattern
import Dialogue.Template

/-! # Rules

What a script says about a keyword. An entry has items, tried in order; an item is a rule, which
decomposes the input and replies, or a link to the entry of another keyword. The replies of a rule
are used in rotation. -/

namespace Dialogue

/-- What to do with an input that a rule has decomposed. -/
inductive Reply where
  | say (template : List Filler)
  /-- Go on with the entry of another keyword. -/
  | follow (keyword : Word)
  /-- Replace the input, then go on with the entry of another keyword. -/
  | rebuild (template : List Filler) (keyword : Word)
  deriving DecidableEq

structure Rule where
  pattern : List Part
  replies : List Reply
  /-- The position of the reply to use next. -/
  next : Nat := 0
  deriving DecidableEq

/-- The reply whose turn it is, and the rule with the turn passed on; after the last reply comes the
first. -/
def Rule.rotate (r : Rule) : Option Reply × Rule :=
  if r.replies.isEmpty then (none, r)
  else
    let n := r.next % r.replies.length
    (r.replies[n]?, { r with next := (n + 1) % r.replies.length })

inductive Item where
  | rule (r : Rule)
  | link (keyword : Word)
  deriving DecidableEq

structure Entry where
  keyword : Word
  /-- The word that the keyword is replaced by in the input. -/
  substitute : Option Word := none
  precedence : Option UInt32 := none
  items : List Item := []
  deriving DecidableEq

/-- What a word of the input is to an entry. -/
inductive Recognition where
  | miss
  | hit
  /-- The keyword, to be replaced in the input. -/
  | substitute (replacement : Word)
  deriving DecidableEq

namespace Entry

/-- An entry without items only substitutes its keyword. -/
def hasRules (e : Entry) : Bool := !e.items.isEmpty

/-- The precedence; an entry that declares none has rank zero. -/
def rank (e : Entry) : UInt32 := e.precedence.getD 0

def recognize (e : Entry) (w : Word) : Recognition :=
  if e.keyword ≈ w then
    match e.substitute with
    | some replacement => .substitute replacement
    | none => .hit
  else .miss

end Entry

/-- A rule with one template. -/
structure FlatRule where
  pattern : List Part
  template : List Filler
  deriving DecidableEq

def FlatRule.toRule (r : FlatRule) : Rule := { pattern := r.pattern, replies := [.say r.template] }

/-- What to remember of an input in which the keyword is found: one of four rules shapes it. -/
structure MemoryRules where
  keyword : Word
  rules : List FlatRule
  length_rules : rules.length = 4

/-- The rule with this number; the first rule has the number 1. -/
def MemoryRules.rule? (m : MemoryRules) (number : Nat) : Option FlatRule :=
  if number = 0 then none else m.rules[number - 1]?

end Dialogue
