/-! # Transcripts

Every line that a conversation has read or written, in order. -/

namespace Dialogue

inductive Direction where
  | input
  | output
  deriving DecidableEq

structure TranscriptLine where
  direction : Direction
  text : String
  deriving DecidableEq

structure Transcript where
  lines : List TranscriptLine := []
  deriving DecidableEq

namespace Transcript

def record (t : Transcript) (direction : Direction) (text : String) : Transcript :=
  ⟨t.lines ++ [⟨direction, text⟩]⟩

/-- The lines written. -/
def outputs (t : Transcript) : List String :=
  (t.lines.filter (·.direction == .output)).map TranscriptLine.text

/-- The lines with the direction of each marked in front. -/
def text (t : Transcript) : String :=
  let mark : Direction → String
    | .input => "< "
    | .output => "> "
  String.join (t.lines.map fun l => mark l.direction ++ l.text ++ "\n")

end Transcript

end Dialogue
