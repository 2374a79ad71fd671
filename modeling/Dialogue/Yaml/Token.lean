import Dialogue.Yaml.Scalar

/-! # Tokens of a YAML text

The tokens that tell the structure of a text, and the names that are scanned for some of them:
those of anchors, tags and directives. -/

namespace Dialogue.Yaml

inductive Bracket where
  | square
  | curly
  deriving DecidableEq

/-- What a line with a percent sign says about the document below it. -/
inductive Directive where
  | version
  /-- Introduces a handle for tags. -/
  | handle (name : String)
  deriving DecidableEq

inductive Token where
  | directive (d : Directive)
  | documentStart
  | documentEnd
  /-- A sequence that is indented begins. -/
  | blockSequence
  /-- A mapping that is indented begins. -/
  | blockMapping
  /-- An indented collection ends. -/
  | blockEnd
  | opening (b : Bracket)
  | closing (b : Bracket)
  | comma
  /-- The dash of an item. -/
  | entry
  | key
  | value
  | anchor (name : String)
  | alias (name : String)
  /-- A tag, of which only the handle matters. -/
  | tag (handle : String)
  /-- A scalar; `plain` says that it is neither quoted nor in a block. -/
  | scalar (plain : Bool) (text : String)
  deriving DecidableEq

/-! ## Anchors -/

/-- The name behind the mark of an anchor or alias at a place. -/
def anchorName? (p : Place) : Option (String × Place) :=
  let name := p.rest.tail.takeWhile isNameChar
  let after := p.skip (1 + name.length)
  let ends := atGap after.rest ||
    after.rest.head?.any (['?', ':', ',', ']', '\x7d', '%', '@', '\x60'].contains ·)
  if !name.isEmpty && ends then some (String.ofList name, after) else none

/-! ## Tags -/

/-- Characters that can stand in a tag as they are; a tag between angles can hold commas and square
brackets too. -/
def isTagChar (angled : Bool) (c : Char) : Bool :=
  isNameChar c || ";/?:@&=+$.!~*\x27()".toList.contains c || (angled && [',', '[', ']'].contains c)

/-- The number of octets behind an octet of an encoded character, `expected` of which are still to
come before it. -/
def octetsAfter? (expected octet : Nat) : Option Nat :=
  if expected != 0 then (if 0x80 ≤ octet && octet < 0xC0 then some (expected - 1) else none)
  else if octet < 0x80 then some 0
  else if octet < 0xC0 then none
  else if octet < 0xE0 then some 1
  else if octet < 0xF0 then some 2
  else if octet < 0xF8 then some 3
  else none

/-- The length of the part of a tag that starts here. Any character can be written as the octets of
its encoding, each in hexadecimal behind a percent sign; `expected` is the number of those still to
come. -/
def tagLength? (angled : Bool) (expected : Nat) : List Char → Option Nat
  | [] => if expected == 0 then some 0 else none
  | '%' :: a :: b :: cs => do
    let expected ← octetsAfter? expected (16 * (← hexDigit? a) + (← hexDigit? b))
    return 3 + (← tagLength? angled expected cs)
  | c :: cs =>
    if c == '%' || expected != 0 then none
    else if isTagChar angled c then (1 + ·) <$> tagLength? angled 0 cs
    else some 0

/-- The place behind the part of a tag that starts here, which cannot be empty. -/
def tagEnd? (angled : Bool) (p : Place) : Option Place := do
  let length ← tagLength? angled 0 p.rest
  if length == 0 then none else return p.skip length

/-- The exclamation mark and the name at a place, with a second mark behind it if there is one. -/
def handle (p : Place) : List Char :=
  let name := '!' :: p.rest.tail.takeWhile isNameChar
  if (p.rest.drop name.length).head? == some '!' then name ++ ['!'] else name

/-- The handle of the tag at a place. A tag between angles and the exclamation mark alone have the
empty handle. -/
def tag? (flow : Bool) (p : Place) : Option (String × Place) := do
  let (handle, after) ←
    if p.rest.tail.head? == some '<' then do
      let stop ← tagEnd? true (p.skip 2)
      if stop.rest.head? == some '>' then some ("", stop.next) else none
    else
      let name := handle p
      if 1 < name.length && name.getLast? == some '!' then
        pure (String.ofList name, ← tagEnd? false (p.skip name.length))
      else do
        let length ← tagLength? false 0 (p.rest.drop name.length)
        pure (if name.length + length == 1 then "" else "!", p.skip (name.length + length))
  let ends := atGap after.rest || (flow && after.rest.head? == some ',')
  if ends then return (handle, after) else none

/-! ## Directives -/

/-- The number of at most nine digits at a place. -/
def versionNumber? (p : Place) : Option (Nat × Place) :=
  let digits := p.rest.takeWhile Char.isDigit
  let value := digits.foldl (fun n d => 10 * n + (d.toNat - '0'.toNat)) 0
  if digits.isEmpty || 9 < digits.length then none else some (value, p.skip digits.length)

/-- Passes over a version number, which has to be 1.1 or 1.2. -/
def version? (p : Place) : Option Place := do
  let (major, dot) ← versionNumber? p
  if dot.rest.head? != some '.' then none
  else do
    let (minor, after) ← versionNumber? dot.next
    if major == 1 && (minor == 1 || minor == 2) then return after else none

/-- The handle that a directive introduces, with the tag it stands for behind it. -/
def newHandle? (p : Place) : Option (String × Place) := do
  let name := handle p
  let gap := p.skip name.length
  if p.rest.head? != some '!' || (1 < name.length && name.getLast? != some '!') then none
  else if !gap.rest.head?.any isBlank then none
  else do
    let after ← tagEnd? true (gap.skipWhile isBlank)
    if atGap after.rest then return (String.ofList name, after) else none

/-- The directive at a place, which takes the whole line. -/
def directive? (p : Place) : Option (Directive × Place) := do
  let name := p.rest.tail.takeWhile isNameChar
  let gap := p.skip (1 + name.length)
  if !atGap gap.rest then none
  else
    let operand := gap.skipWhile isBlank
    if name == ['Y', 'A', 'M', 'L'] then return (.version, ← (← version? operand).lineEnd?)
    else if name == ['T', 'A', 'G'] then do
      let (handle, after) ← newHandle? operand
      return (.handle handle, ← after.lineEnd?)
    else none

end Dialogue.Yaml
