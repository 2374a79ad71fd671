import Dialogue.Datum
import Dialogue.Rule

/-! # Reading rules

An entry is written `(KEYWORD [= REPLACEMENT] [DLIST (…)] [PRECEDENCE] ITEM…)`. An item is a link
`(= KEYWORD)`, a rule `((pattern) (reply) …)`, or a rule with one template in the flat notation
`(pattern = template)`, which has no list inside. Whatever is written differently is refused with
its reason. -/

namespace Dialogue

/-- What is wrong with an entry. -/
inductive Problem where
  | noKeyword
  | emptyEntry
  | noReplacement
  | secondPrecedence
  | strayWord (w : Word)
  | notAnItem (d : Datum)
  | noPattern (item : List Datum)
  | emptyPattern
  | unknownGroup (group : List Datum)
  | notAReply (d : Datum)
  | noReply (item : List Datum)
  | rebuildShape (reply : List Datum)
  | rebuildLink
  | listInTemplate (cells : List Datum)
  | noMemoryKeyword
  | notAMemoryRule (d : Datum)
  | memoryRuleCount (found : Nat)

def Problem.message : Problem → String
  | .noKeyword => "entry must start with a keyword"
  | .emptyEntry => "empty entry"
  | .noReplacement => "'=' must be followed by a replacement word"
  | .secondPrecedence => "precedence given twice"
  | .strayWord w => s!"unexpected word {w.text} before the rules"
  | .notAnItem d => s!"expected a rule list, found {d.text}"
  | .noPattern item => s!"rule {(Datum.list item).text} must start with a pattern list"
  | .emptyPattern => "empty decomposition pattern"
  | .unknownGroup group => s!"unrecognised pattern group {(Datum.list group).text}"
  | .notAReply d => s!"expected a reassembly list, found {d.text}"
  | .noReply item => s!"rule {(Datum.list item).text} has no reassembly"
  | .rebuildShape reply => s!"expected (PRE (template) (=KEYWORD)), found {(Datum.list reply).text}"
  | .rebuildLink => "PRE must end with a (=KEYWORD) link"
  | .listInTemplate cells => s!"nested list {(Datum.list cells).text} inside a template"
  | .noMemoryKeyword => "missing memory keyword"
  | .notAMemoryRule d => s!"expected (pattern = template), found {d.text}"
  | .memoryRuleCount found => s!"expected 4 rules, found {found}"

/-- An entry that cannot be read: whose it is, and what is wrong with it. -/
structure Malformed where
  keyword : String
  problem : Problem

def Malformed.message (m : Malformed) : String :=
  s!"Malformed entry for {m.keyword}: {m.problem.message}"

namespace Part

/-- The part a cell stands for that is not a list. -/
def ofAtom? : Datum → Option Part
  | .word w => some (.word w)
  | .number n => some (.gap n)
  | .list _ => none

/-- A list in a pattern: alternatives behind an asterisk, or a tag, which starts with a slash. -/
def ofGroup (group : List Datum) : Except Problem Part :=
  let words := Datum.words group
  match words with
  | [] => .error (.unknownGroup group)
  | first :: others =>
    if first.text = "*" ∧ others ≠ [] ∧ words.length = group.length then .ok (.oneOf others)
    else if first.text.toList.head? = some '/' then .ok (.tagged words)
    else .error (.unknownGroup group)

def ofDatum (d : Datum) : Except Problem Part :=
  match d with
  | .word w => .ok (.word w)
  | .number n => .ok (.gap n)
  | .list group => ofGroup group

end Part

/-- Reads the cells of a pattern, of which there is at least one. -/
def readPattern (cells : List Datum) : Except Problem (List Part) :=
  if cells.isEmpty then .error .emptyPattern else cells.mapM Part.ofDatum

namespace Filler

/-- The filler a cell stands for that is not a list. -/
def ofAtom? : Datum → Option Filler
  | .word w => some (.word w)
  | .number n => some (.group n.toNat)
  | .list _ => none

def ofDatum (d : Datum) : Except Problem Filler :=
  match d with
  | .word w => .ok (.word w)
  | .number n => .ok (.group n.toNat)
  | .list cells => .error (.listInTemplate cells)

end Filler

def readTemplate (cells : List Datum) : Except Problem (List Filler) := cells.mapM Filler.ofDatum

/-- The keyword of a link `(= KEYWORD)`. -/
def linkTarget? : List Datum → Option Word
  | [eq, .word target] => if eq.isWord "=" then some target else none
  | _ => none

/-- The rule that a list in the flat notation stands for: the pattern before the first `=`, which is
not empty, and the template after it. -/
def FlatRule.ofCells? (cells : List Datum) : Option FlatRule :=
  match cells.takeWhile (!·.isWord "="), cells.dropWhile (!·.isWord "=") with
  | before@(_ :: _), _ :: after => do
    return ⟨← before.mapM Part.ofAtom?, ← after.mapM Filler.ofAtom?⟩
  | _, _ => none

/-- Reads a reply: a link, a rebuilding `(PRE (template) (= KEYWORD))`, or a template. -/
def Reply.ofCells (cells : List Datum) : Except Problem Reply :=
  match linkTarget? cells with
  | some target => .ok (.follow target)
  | none =>
    if cells.head?.any (·.isWord "PRE") then
      match cells with
      | [_, .list template, .list link] =>
        match linkTarget? link with
        | some target => return .rebuild (← readTemplate template) target
        | none => .error .rebuildLink
      | _ => .error (.rebuildShape cells)
    else return .say (← readTemplate cells)

def Reply.ofDatum : Datum → Except Problem Reply
  | .list cells => Reply.ofCells cells
  | d => .error (.notAReply d)

/-- Reads a rule that starts with its pattern. -/
def Rule.ofCells : List Datum → Except Problem Rule
  | .list pattern :: replies => do
    let rule : Rule := { pattern := ← readPattern pattern, replies := ← replies.mapM Reply.ofDatum }
    if rule.replies.isEmpty then .error (.noReply (.list pattern :: replies)) else .ok rule
  | item => .error (.noPattern item)

def Item.ofCells (cells : List Datum) : Except Problem Item :=
  match linkTarget? cells with
  | some target => .ok (.link target)
  | none =>
    match FlatRule.ofCells? cells with
    | some flat => .ok (.rule flat.toRule)
    | none => (Rule.ofCells cells).map .rule

def Item.ofDatum : Datum → Except Problem Item
  | .list cells => Item.ofCells cells
  | d => .error (.notAnItem d)

namespace Entry

/-- Reads the cells between the keyword and the items into the entry; the items are left. The cell
after `DLIST` is passed over. -/
def readHead (e : Entry) : List Datum → Except Problem (Entry × List Datum)
  | [] => .ok (e, [])
  | .list cells :: rest => .ok (e, .list cells :: rest)
  | .number n :: rest =>
    if e.precedence.isSome then .error .secondPrecedence
    else readHead { e with precedence := some n } rest
  | .word w :: rest =>
    if w ≈ ⟨"="⟩ then
      match rest with
      | .word replacement :: rest => readHead { e with substitute := some replacement } rest
      | _ => .error .noReplacement
    else if w ≈ ⟨"DLIST"⟩ then
      match rest with
      | [] => .ok (e, [])
      | _ :: rest => readHead e rest
    else .error (.strayWord w)

theorem readHead_word (e : Entry) (w : Word) (rest : List Datum) :
    readHead e (.word w :: rest) =
      if w ≈ ⟨"="⟩ then
        match rest with
        | .word replacement :: rest => readHead { e with substitute := some replacement } rest
        | _ => .error .noReplacement
      else if w ≈ ⟨"DLIST"⟩ then
        match rest with
        | [] => .ok (e, [])
        | _ :: rest => readHead e rest
      else .error (.strayWord w) :=
  readHead.eq_def e (.word w :: rest)

def readBody (keyword : Word) (cells : List Datum) : Except Problem Entry := do
  let (head, items) ← readHead { keyword := keyword } cells
  return { head with items := ← items.mapM Item.ofDatum }

/-- Reads an entry from its list. -/
def ofCells : List Datum → Except Malformed Entry
  | [] => .error ⟨"()", .emptyEntry⟩
  | .word keyword :: cells => (readBody keyword cells).mapError (Malformed.mk keyword.text)
  | d :: _ => .error ⟨d.text, .noKeyword⟩

end Entry

namespace MemoryRules

def readRule : Datum → Except Problem FlatRule
  | .list cells =>
    match FlatRule.ofCells? cells with
    | some flat => .ok flat
    | none => .error (.notAMemoryRule (.list cells))
  | d => .error (.notAMemoryRule d)

def readBody (cells : List Datum) : Except Problem MemoryRules :=
  match cells with
  | .word keyword :: cells => do
    let rules ← cells.mapM readRule
    if h : rules.length = 4 then .ok ⟨keyword, rules, h⟩
    else .error (.memoryRuleCount rules.length)
  | _ => .error .noMemoryKeyword

/-- Reads `(MEMORY KEYWORD (pattern = template) …)`, whose first cell is not looked at. -/
def ofCells (cells : List Datum) : Except Malformed MemoryRules :=
  (readBody cells.tail).mapError (Malformed.mk "MEMORY")

end MemoryRules

end Dialogue
