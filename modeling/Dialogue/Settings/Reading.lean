import Dialogue.Settings
import Dialogue.Yaml

/-! # Reading settings

Settings are written as a YAML mapping from the names of the settings to their values; those that
are left out keep their defaults. -/

namespace Dialogue

/-- Why a text gives no settings. -/
inductive SettingsFault where
  /-- The text is not well formed, or a name or value in it is not one of a setting. -/
  | illFormed
  | unfit (u : UnfitSettings)
  deriving DecidableEq

namespace Yaml.Node

/-- The text of a scalar, however it is written. -/
def text? : Node → Option String
  | .scalar _ text => some text
  | _ => none

/-- The scalars of a sequence; a missing node is a sequence without items, but a quoted text without
characters is not. -/
def texts? : Node → Option (List String)
  | .sequence items => items.mapM text?
  | .scalar true "" => some []
  | _ => none

/-- The value of digits in a base, which fits into 64 bits. -/
def digits? (base : Nat) (cs : List Char) : Option Nat := do
  let ds ← cs.mapM hexDigit?
  let n := ds.foldl (fun n d => base * n + d) 0
  if !ds.isEmpty && ds.all (· < base) && n < UInt64.size then some n else none

/-- The value of an unsigned integer: decimal without leading zeros, or hexadecimal, octal or binary
behind `0x`, `0o` or `0b`. -/
def integer? (cs : List Char) : Option Nat :=
  match if cs.head? == some '+' then cs.tail else cs with
  | '0' :: 'x' :: ds => digits? 16 ds
  | '0' :: 'o' :: ds => digits? 8 ds
  | '0' :: 'b' :: ds => digits? 2 ds
  | '0' :: _ :: _ => none
  | ds => digits? 10 ds

/-- The value of a plain scalar that is an unsigned integer. -/
def number? : Node → Option Nat
  | .scalar true text => integer? text.toList
  | _ => none

end Yaml.Node

namespace Settings

/-- Gives the setting with a name the value of a node. -/
def set? (s : Settings) (name : String) (node : Yaml.Node) : Option Settings :=
  match name with
  | "delimiters" => return { s with delimiters := ← node.texts? }
  | "edit_marker" => return { s with editMarker := ← node.text? }
  | "insert_marker" => return { s with insertMarker := ← node.text? }
  | "unsupported_reply" => return { s with unsupportedReply := ← node.text? }
  | "acknowledgements" => return { s with acknowledgements := ← node.texts? }
  | "closing" => return { s with closing := ← node.text? }
  | "placeholder" => return { s with placeholder := ← node.text? }
  | "max_redirects" => return { s with maxRedirects := ← node.number? }
  | _ => none

/-- Gives settings their values one after the other, each at most once. -/
def setAll? (s : Settings) (given : List String) : List (Yaml.Node × Yaml.Node) → Option Settings
  | [] => some s
  | (key, value) :: fields => do
    let name ← key.text?
    if given.contains name then none else setAll? (← s.set? name value) (name :: given) fields

/-- The settings that a document gives. -/
def ofNode? : Yaml.Node → Option Settings
  | .mapping fields => setAll? {} [] fields
  | .scalar true "" => some {}
  | _ => none

/-- Reads settings and checks them. -/
def ofYaml (text : String) : Except SettingsFault Settings :=
  match (Yaml.read text).bind ofNode? with
  | none => .error .illFormed
  | some s => do
    s.check.mapError .unfit
    return s

end Settings

end Dialogue
