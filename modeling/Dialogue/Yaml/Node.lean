import Dialogue.Yaml.Token

/-! # Nodes of a YAML document

The value that the tokens of a text stand for, by descent over the tokens. Where a key, a value or
an item is left out there is an empty plain scalar. An alias is replaced by the node it names, which
has to be complete: a collection does not contain itself. -/

namespace Dialogue.Yaml

inductive Node where
  /-- A scalar; `plain` says that it is neither quoted nor in a block. -/
  | scalar (plain : Bool) (text : String)
  | sequence (items : List Node)
  | mapping (fields : List (Node × Node))
  deriving Inhabited

/-- What stands where a node is left out. -/
def Node.missing : Node := .scalar true ""

/-- What is left to read of a document. -/
structure Remaining where
  tokens : List Token
  /-- The handles that tags can have. -/
  handles : List String
  /-- What aliases can name, the newest first; there is no node as long as it is being read. -/
  anchored : List (String × Option Node) := []

/-- Reads a part of a document; there is no answer if it is ill-formed. -/
abbrev Descent := StateT Remaining Option

namespace Descent

def refuse {α : Type} : Descent α := fun _ => none

/-- The next token. -/
def peek : Descent (Option Token) := return (← get).tokens.head?

def drop : Descent Unit := modify fun r => { r with tokens := r.tokens.tail }

/-- Drops the next token if it is a given one, and says whether it is. -/
def take (t : Token) : Descent Bool := do
  if (← peek) == some t then
    drop
    return true
  else return false

/-! ## Anchors and tags -/

def anchor : Descent (Option String) := do
  match ← peek with
  | some (.anchor name) =>
    drop
    return some name
  | _ => return none

/-- Whether there is a tag. -/
def tag : Descent Bool := do
  match ← peek with
  | some (.tag handle) => if (← get).handles.contains handle then take (.tag handle) else refuse
  | _ => return false

/-- The anchor in front of a node, and whether there is an anchor or a tag, in either order. -/
def properties : Descent (Option String × Bool) := do
  match ← anchor with
  | some name =>
    let _ ← tag
    return (some name, true)
  | none => if ← tag then return (← anchor, true) else return (none, false)

/-- Lets aliases name a node from here on. -/
def bindAnchor (name : Option String) (node : Option Node) : Descent Unit :=
  modify fun r => match name with
    | none => r
    | some a => { r with anchored := (a, node) :: r.anchored }

/-- The node that an alias names. -/
def resolve (name : String) : Descent Node := do
  match (← get).anchored.lookup name with
  | some (some node) => return node
  | _ => refuse

/-! ## Collections -/

/-- What `read` finds, unless one of the tokens `ends` comes next. -/
def unlessAt (ends : List Token) (read : Descent Node) : Descent Node := do
  if (← peek).any ends.contains then return .missing else read

/-- The key and the value of a field, whose parts `read` finds. -/
def field (ends : List Token) (read : Descent Node) : Descent (Node × Node) := do
  let key ← unlessAt ends read
  if ← take .value then return (key, ← unlessAt ends read) else return (key, .missing)

mutual

/-- A node. In a block it can be a block collection, and beside a key it can be a sequence whose
items stand in the column of the key. -/
def node (block besideKey : Bool) : Nat → Descent Node
  | 0 => refuse
  | fuel + 1 => do
    match ← peek with
    | some (.alias name) =>
      drop
      resolve name
    | _ =>
      let (anchor, optional) ← properties
      bindAnchor anchor none
      let found ← content block besideKey optional fuel
      bindAnchor anchor (some found)
      return found

/-- A node without its anchor and tag; it is `optional` behind one of these. -/
def content (block besideKey optional : Bool) : Nat → Descent Node
  | 0 => refuse
  | fuel + 1 => do
    let next ← peek
    match next, block with
    | some (.scalar plain text), _ =>
      drop
      return .scalar plain text
    | some (.opening .square), _ =>
      drop
      return .sequence (← flowItems true fuel)
    | some (.opening .curly), _ =>
      drop
      return .mapping (← flowFields true fuel)
    | some .blockSequence, true =>
      drop
      return .sequence (← blockItems fuel)
    | some .blockMapping, true =>
      drop
      return .mapping (← blockFields fuel)
    | _, _ =>
      if besideKey && next == some .entry then return .sequence (← itemsBesideKey fuel)
      else if optional then return .missing
      else refuse

/-- The items up to the end of the block. -/
def blockItems : Nat → Descent (List Node)
  | 0 => refuse
  | fuel + 1 => do
    if ← take .entry then
      let item ← unlessAt [.entry, .blockEnd] (node true false fuel)
      return item :: (← blockItems fuel)
    else if ← take .blockEnd then return []
    else refuse

/-- The items in the column of a key, up to the next key. -/
def itemsBesideKey : Nat → Descent (List Node)
  | 0 => refuse
  | fuel + 1 => do
    if ← take .entry then
      let item ← unlessAt [.entry, .key, .value, .blockEnd] (node true false fuel)
      return item :: (← itemsBesideKey fuel)
    else return []

/-- The fields up to the end of the block. -/
def blockFields : Nat → Descent (List (Node × Node))
  | 0 => refuse
  | fuel + 1 => do
    if ← take .key then
      let found ← field [.key, .value, .blockEnd] (node true true fuel)
      return found :: (← blockFields fuel)
    else if ← take .blockEnd then return []
    else refuse

/-- The items up to the closing bracket, parted by commas; the last can have a comma behind it. A
key among them begins a mapping of one field. -/
def flowItems (first : Bool) : Nat → Descent (List Node)
  | 0 => refuse
  | fuel + 1 => do
    if ← take (.closing .square) then return []
    let parted ← if first then pure true else take .comma
    if !parted then refuse
    else if ← take (.closing .square) then return []
    else
      let item ←
        if ← take .key then
          let found ← field [.value, .comma, .closing .square] (node false false fuel)
          pure (Node.mapping [found])
        else node false false fuel
      return item :: (← flowItems false fuel)

/-- The fields up to the closing brace, parted by commas; the last can have a comma behind it. A key
can do without a colon and a value. -/
def flowFields (first : Bool) : Nat → Descent (List (Node × Node))
  | 0 => refuse
  | fuel + 1 => do
    if ← take (.closing .curly) then return []
    let parted ← if first then pure true else take .comma
    if !parted then refuse
    else if ← take (.closing .curly) then return []
    else
      let found ←
        if ← take .key then field [.value, .comma, .closing .curly] (node false false fuel)
        else pure (← node false false fuel, Node.missing)
      return found :: (← flowFields false fuel)

end

end Descent

/-! ## Documents -/

/-- The handles that directives add to those known already, and the tokens behind the directives. No
handle is introduced twice, and no more than one version is given. -/
def directives? (version : Bool) (known : List String) :
    List Token → Option (List String × List Token)
  | .directive .version :: ts => if version then none else directives? true known ts
  | .directive (.handle name) :: ts =>
    if known.contains name then none else directives? version (name :: known) ts
  | ts => some (known, ts)

/-- The node of the only document that tokens stand for. Without a document it is missing, and
behind a line that starts a document it can be missing. -/
def Node.ofTokens? (tokens : List Token) : Option Node := do
  if tokens.isEmpty then return .missing
  let (handles, rest) ← directives? false [] tokens
  let started := rest.head? == some .documentStart
  if rest.length < tokens.length && !started then none
  else
    let tokens := if started then rest.tail else rest
    let body : Remaining := { tokens, handles := handles ++ ["", "!", "!!"] }
    let (node, after) ←
      if started && tokens.head?.all (· == .documentEnd) then some (.missing, body)
      else (Descent.node true false (3 * tokens.length + 3)).run body
    if after.tokens.all (· == .documentEnd) then return node else none

end Dialogue.Yaml
