import Dialogue.Text.Blank

/-! # Settings

The constants of a conversation: which words part clauses, which words mark a command, and the
phrases that do not come from the script. -/

namespace Dialogue

structure Settings where
  /-- Words that part the clauses of an input. -/
  delimiters : List String := [".", ",", "BUT"]
  editMarker : String := "+"
  insertMarker : String := "*"
  /-- The reply to a line that starts with a marker. -/
  unsupportedReply : String := "THAT COMMAND IS NOT SUPPORTED"
  /-- What to say when no rule applies, one phrase for each value of the rotation counter. -/
  acknowledgements : List String := ["PLEASE CONTINUE", "HMMM", "GO ON , PLEASE", "I SEE"]
  closing : String := "ELIZA ENDS..."
  /-- Stands in for a group that a template asks for and the pattern does not have. -/
  placeholder : String := "?????"
  /-- The number of links that can be followed within one turn. -/
  maxRedirects : Nat := 16
  deriving DecidableEq, Inhabited

/-- Why settings cannot be used. -/
inductive UnfitSettings where
  | acknowledgementCount (found : Nat)
  | blankMarker
  deriving DecidableEq

/-- The setting that is at fault. -/
def UnfitSettings.field : UnfitSettings → String
  | .acknowledgementCount _ => "acknowledgements"
  | .blankMarker => "edit_marker"

def UnfitSettings.detail : UnfitSettings → String
  | .acknowledgementCount found => s!"expected exactly 4 phrases, found {found}"
  | .blankMarker => "markers must not be blank"

def UnfitSettings.message (u : UnfitSettings) : String :=
  s!"Invalid value for {u.field}: {u.detail}"

namespace Settings

/-- Settings that can be used have four acknowledgements and no blank marker. -/
def check (s : Settings) : Except UnfitSettings Unit :=
  if s.acknowledgements.length ≠ 4 then
    .error (.acknowledgementCount s.acknowledgements.length)
  else if Text.isBlankText s.editMarker || Text.isBlankText s.insertMarker then
    .error .blankMarker
  else .ok ()

/-- Equality up to the case of ASCII letters. -/
def sameAscii (a b : String) : Bool := a.toList.map Char.toLower == b.toList.map Char.toLower

/-- Whether a word parts clauses, whatever the case of its ASCII letters. -/
def isDelimiter (s : Settings) (word : String) : Bool := s.delimiters.any fun d => sameAscii d word

/-- Whether a word marks a command; it has to be spelt like the marker. -/
def isCommandMarker (s : Settings) (word : String) : Bool :=
  word == s.editMarker || word == s.insertMarker

/-- The phrase for a value of the rotation counter. The counter goes from 1 to 4, and other values
count as the nearest of these. -/
def acknowledgement (s : Settings) (rotation : Nat) : String :=
  s.acknowledgements[max 1 (min rotation 4) - 1]?.getD s.placeholder

end Settings

end Dialogue
