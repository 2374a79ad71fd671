import Dialogue.Sentence
import Dialogue.Session.Scan

/-! # Stages of a turn

`Session.transition` takes a session from one stage to the next. A turn starts and ends waiting for
a line; a blank line leads to the goodbye, and after that nothing happens any more. -/

namespace Dialogue

/-- What the items of an entry lead to. -/
inductive Move where
  | follow (keyword : Word)
  | reply (item : Nat) (groups : List (List Word))

/-- The first item that is a link or a rule that matches the words. The items are numbered from
`n` on. -/
def firstMove (words : List Word) (n : Nat) : List Item → Option Move
  | [] => none
  | .link keyword :: _ => some (.follow keyword)
  | .rule r :: items =>
    match decompose r.pattern words with
    | some groups => some (.reply n groups)
    | none => firstMove words (n + 1) items

namespace Session

/-- Takes the pending line up, if there is one. A line without words is a turn like any other, save
if it is blank. -/
def takeLine (s : Session) : Stage × Session :=
  match s.pending with
  | none => (.await, s)
  | some line =>
    let s := { s with pending := none }
    if Text.isBlankText line then (.close, s)
    else
      (.vet,
        { s with
          input := Cells.ofWords "INPUT" (Sentence.words line)
          selection := none
          redirects := 0 })

/-- The line starts with a command marker. -/
def isCommand (s : Session) : Bool :=
  match s.input.data.head? with
  | some (.word w) => s.settings.isCommandMarker w.text
  | _ => false

/-- Refuses commands and counts all other turns. -/
def vet (s : Session) : Stage × Session :=
  if s.isCommand then (.await, s.emit s.settings.unsupportedReply)
  else (.scan, { s with rotation := s.rotation % 4 + 1 })

/-- Scans the input for keywords. -/
def scan (s : Session) : Stage × Session :=
  let (input, selection) := Scan.walk s.settings s.table (.onHeader s.input) s.input s.selection
  (if selection.isSome then .dispatch else .fallBack, { s with input := input, selection := selection })

/-- Every fourth turn brings back a memory, if there is one; other turns use the fallback entry. -/
def fallBack (s : Session) : Stage × Session :=
  match s.rotation == 4, s.memories with
  | true, memory :: rest => (.await, { s.emit (Word.phrase memory) with memories := rest })
  | _, _ =>
    if s.table.fallback.any Entry.hasRules then (.decompose .fallback 0, s) else (.acknowledge, s)

/-- The sentence to remember of the input: the memory rule that the last word picks shapes it. -/
def memoryOf (s : Session) (m : MemoryRules) : Option (List Word) := do
  let last := match s.input.data.getLast? with
    | some (.word w) => w
    | _ => ⟨""⟩
  let rule ← m.rule? (last.hash 2 + 1)
  let groups ← decompose rule.pattern s.input.words
  return Dialogue.reassemble rule.template groups s.settings.placeholder

/-- Remembers the input if the entry is that of the memory keyword. -/
def remember (s : Session) (entry : EntryRef) : Session :=
  match s.memory, s.table.get? entry with
  | some m, some e =>
    if m.keyword ≈ e.keyword then { s with memories := s.memories ++ (s.memoryOf m).toList } else s
  | _, _ => s

/-- Starts on the selected entry. -/
def dispatch (s : Session) : Stage × Session :=
  match s.selection with
  | none => (.fallBack, s)
  | some selected => (.decompose selected.entry 0, s.remember selected.entry)

/-- Goes on with the entry of a keyword, unless there is none or the turn has followed as many links
as it may. -/
def redirect (s : Session) (keyword : Word) : Stage × Session :=
  let s := { s with redirects := s.redirects + 1 }
  if s.settings.maxRedirects < s.redirects then (.acknowledge, s)
  else
    match s.table.locate keyword with
    | some entry => (.decompose entry 0, s)
    | none => (.acknowledge, s)

/-- Looks for an item of an entry that applies. -/
def decompose (s : Session) (entry : EntryRef) (item : Nat) : Stage × Session :=
  match s.table.get? entry with
  | none => (.acknowledge, s)
  | some e =>
    match firstMove s.input.words item (e.items.drop item) with
    | none => (.acknowledge, s)
    | some (.follow keyword) => s.redirect keyword
    | some (.reply item groups) => (.reassemble entry item groups, s)

/-- The rule that is an item of an entry. -/
def rule? (s : Session) (entry : EntryRef) (item : Nat) : Option Rule := do
  match (← s.table.get? entry).items[item]? with
  | some (.rule r) => some r
  | _ => none

/-- Puts a rule in the place of an item of an entry. -/
def setRule (s : Session) (entry : EntryRef) (item : Nat) (r : Rule) : Session :=
  { s with table := s.table.modify entry fun e => { e with items := e.items.set item (.rule r) } }

/-- Does what a reply says with an input that has been cut into groups. -/
def use (s : Session) (groups : List (List Word)) : Option Reply → Stage × Session
  | none => (.acknowledge, s)
  | some (.say template) =>
    (.await, s.emit (Word.phrase (Dialogue.reassemble template groups s.settings.placeholder)))
  | some (.follow keyword) => s.redirect keyword
  | some (.rebuild template keyword) =>
    let words := Dialogue.reassemble template groups s.settings.placeholder
    redirect { s with input := s.input.assign (words.map .word) } keyword

/-- Uses the reply of a rule whose turn it is. -/
def reassemble (s : Session) (entry : EntryRef) (item : Nat) (groups : List (List Word)) :
    Stage × Session :=
  match s.rule? entry item with
  | none => (.acknowledge, s)
  | some rule => (s.setRule entry item rule.rotate.2).use groups rule.rotate.1

/-- Takes a session from one stage of a turn to the next. -/
def transition (s : Session) : Stage → Stage × Session
  | .await => s.takeLine
  | .vet => s.vet
  | .scan => s.scan
  | .fallBack => s.fallBack
  | .dispatch => s.dispatch
  | .decompose entry item => s.decompose entry item
  | .reassemble entry item groups => s.reassemble entry item groups
  | .acknowledge => (.await, s.emit (s.settings.acknowledgement s.rotation))
  | .close => (.halted, { s.emit s.settings.closing with finished := true })
  | .halted => (.halted, s)

end Session

end Dialogue
