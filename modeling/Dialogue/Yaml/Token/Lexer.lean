import Dialogue.Yaml.Token
import Dialogue.Yaml.Scalar.Block

/-! # Reading tokens

Block collections have no marks of their own where they begin and end: their tokens follow from the
columns of keys and items. A key is told only by the colon behind it, so every token that could be
one is remembered, and the colon puts the token of a key in front of it. Every step takes at least
one character, so the length of the text bounds their number. -/

namespace Dialogue.Yaml

/-- A token that could be a key. -/
structure Candidate where
  /-- The number of tokens before it. -/
  position : Nat
  index : Nat
  line : Nat
  column : Nat
  /-- It stands in the column of a block collection, where nothing but a key can stand. -/
  required : Bool

/-- A key stands on one line with its colon, which is at most 1024 characters behind its start. -/
def Candidate.reaches (c : Candidate) (p : Place) : Bool :=
  p.line ≤ c.line && p.index ≤ c.index + 1024

structure Lexer where
  place : Place
  tokens : Array Token := #[]
  /-- The columns of the block collections that are open, the innermost first. -/
  indents : List Nat := []
  /-- What could be a key between the innermost brackets. -/
  candidate : Option Candidate := none
  /-- What could be keys outside of them, with one place for each pair of brackets. -/
  outer : List (Option Candidate) := []
  keyAllowed : Bool := true

namespace Lexer

/-- The place is between brackets. -/
def flow (l : Lexer) : Bool := !l.outer.isEmpty

/-- The least column of what belongs to the innermost block collection and is not itself a key or
item of it. -/
def floor (l : Lexer) : Nat :=
  match l.indents with
  | [] => 0
  | column :: _ => column + 1

/-- Adds a token, with the place behind it. -/
def emit (l : Lexer) (t : Token) (after : Place) : Lexer :=
  { l with tokens := l.tokens.push t, place := after }

/-- Adds the token of `n` characters. -/
def mark (l : Lexer) (t : Token) (n : Nat) : Lexer := l.emit t (l.place.skip n)

/-! ## Candidates -/

/-- Gives up what can no longer be a key. -/
def dropStale? (l : Lexer) : Option Lexer :=
  let stale (c : Option Candidate) := c.any fun c => c.required && !c.reaches l.place
  let fresh (c : Option Candidate) := c.filter (·.reaches l.place)
  if stale l.candidate || l.outer.any stale then none
  else some { l with candidate := fresh l.candidate, outer := l.outer.map fresh }

/-- Gives up the innermost candidate. -/
def dropCandidate? (l : Lexer) : Option Lexer :=
  if l.candidate.any (·.required) then none else some { l with candidate := none }

/-- Remembers that the next token could be a key, if one can stand here. -/
def remember? (l : Lexer) : Option Lexer :=
  if !l.keyAllowed then some l
  else do
    let l ← l.dropCandidate?
    let p := l.place
    let required := !l.flow && l.indents.head? == some p.column
    return { l with candidate := some ⟨l.tokens.size, p.index, p.line, p.column, required⟩ }

/-! ## Block collections -/

/-- Closes the block collections to the right of a column. Brackets have to be closed before. -/
def closeBlocks (l : Lexer) (column : Nat) : Lexer :=
  if l.flow then l
  else
    let left := l.indents.dropWhile (column < ·)
    let closed := Array.replicate (l.indents.length - left.length) Token.blockEnd
    { l with indents := left, tokens := l.tokens ++ closed }

/-- Closes all block collections. -/
def closeAll (l : Lexer) : Lexer :=
  if l.flow then l
  else
    let closed := Array.replicate l.indents.length Token.blockEnd
    { l with indents := [], tokens := l.tokens ++ closed }

/-- Opens a block collection in a column, unless one is open there; its token takes some position
among the tokens. -/
def openBlock (l : Lexer) (t : Token) (column position : Nat) : Lexer :=
  if l.flow || column < l.floor then l
  else
    { l with indents := column :: l.indents, tokens := l.tokens.insertIdxIfInBounds position t }

/-- Opens the block collection to which the dash, question mark or colon at the place belongs. -/
def openHere? (l : Lexer) (t : Token) : Option Lexer :=
  if l.flow then some l
  else if !l.keyAllowed then none
  else some (l.openBlock t l.place.column l.tokens.size)

/-! ## Tokens -/

/-- Adds a token that ends a document or stands between two. -/
def between? (l : Lexer) (t : Token) (after : Place) : Option Lexer := do
  let l ← l.closeAll.dropCandidate?
  return { l with keyAllowed := false }.emit t after

def opening? (l : Lexer) (b : Bracket) : Option Lexer := do
  let l ← l.remember?
  let l := { l with candidate := none, outer := l.candidate :: l.outer, keyAllowed := true }
  return l.mark (.opening b) 1

def closing? (l : Lexer) (b : Bracket) : Option Lexer := do
  let l ← l.dropCandidate?
  let l := match l.outer with
    | [] => l
    | candidate :: outer => { l with candidate, outer }
  return { l with keyAllowed := false }.mark (.closing b) 1

def comma? (l : Lexer) : Option Lexer := do
  return { (← l.dropCandidate?) with keyAllowed := true }.mark .comma 1

def entry? (l : Lexer) : Option Lexer := do
  let l ← (← l.openHere? .blockSequence).dropCandidate?
  return { l with keyAllowed := true }.mark .entry 1

/-- Adds the token of a question mark, which comes before a key of any form. -/
def key? (l : Lexer) : Option Lexer := do
  let l ← (← l.openHere? .blockMapping).dropCandidate?
  return { l with keyAllowed := !l.flow }.mark .key 1

/-- Adds the token of a colon. If there is a candidate, this makes it a key. -/
def value? (l : Lexer) : Option Lexer :=
  match l.candidate with
  | some c =>
    let l := { l with tokens := l.tokens.insertIdxIfInBounds c.position .key }
    let l := l.openBlock .blockMapping c.column c.position
    some ({ l with candidate := none, keyAllowed := false }.mark .value 1)
  | none => do
    let l ← l.openHere? .blockMapping
    return { l with keyAllowed := !l.flow }.mark .value 1

/-- Adds the token for a text that was found, which could be a key. -/
def content? (l : Lexer) (t : String → Token) (found : Option (String × Place)) :
    Option Lexer := do
  let (text, after) ← found
  return { (← l.remember?) with keyAllowed := false }.emit (t text) after

/-- Adds the token of a plain scalar. A key can stand on the lines below it. -/
def plain? (l : Lexer) : Option Lexer := do
  let found ← Yaml.plain? l.flow l.floor l.place
  let l ← l.content? (.scalar true) (some (String.ofList found.chars, found.after))
  return { l with keyAllowed := found.ended }

/-- Adds the token of a block scalar. A key can stand on the lines below it. -/
def block? (l : Lexer) : Option Lexer := do
  let l ← l.dropCandidate?
  let (text, after) ← blockScalar? l.floor l.place
  return { l with keyAllowed := true }.emit (.scalar false text) after

/-- Adds the token at the place. -/
def token? (l : Lexer) : Option Lexer :=
  let p := l.place
  match p.rest with
  | [] => none
  | c :: cs =>
    if p.column == 0 && c == '%' then do
      let (d, after) ← directive? p
      l.between? (.directive d) after
    else if p.atMarker then
      l.between? (if c == '-' then .documentStart else .documentEnd) (p.skip 3)
    else if c == '[' then l.opening? .square
    else if c == '\x7b' then l.opening? .curly
    else if c == ']' then l.closing? .square
    else if c == '\x7d' then l.closing? .curly
    else if c == ',' then l.comma?
    else if c == '-' && atGap cs then l.entry?
    else if c == '?' && (l.flow || atGap cs) then l.key?
    else if c == ':' && (l.flow || atGap cs) then l.value?
    else if c == '*' then l.content? .alias (anchorName? p)
    else if c == '&' then l.content? .anchor (anchorName? p)
    else if c == '!' then l.content? .tag (tag? l.flow p)
    else if (c == '|' || c == '>') && !l.flow then l.block?
    else if c == '\x27' || c == '\x22' then l.content? (.scalar false) (quoted? p)
    else if startsPlain l.flow p.rest then l.plain?
    else none

/-- The tokens up to the end of the text. -/
def run? : Nat → Lexer → Option (Array Token)
  | 0, _ => none
  | fuel + 1, l => do
    let (keyAllowed, place) := l.place.skipGap l.flow l.keyAllowed
    let l ← { l with keyAllowed, place }.dropStale?
    if place.rest.isEmpty then return (← l.closeAll.dropCandidate?).tokens
    else run? fuel (← (l.closeBlocks place.column).token?)

end Lexer

/-- The tokens of a text, if it can be cut into tokens. -/
def tokens? (text : String) : Option (Array Token) :=
  let chars := text.toList
  if !chars.all isAllowed then none
  else Lexer.run? (chars.length + 1) { place := { rest := lineFeeds chars } }

end Dialogue.Yaml
