import Dialogue.Script
import Dialogue.Script.Doctor

/-! # The catalogue

The scripts that are always at hand, by name. -/

namespace Dialogue.Script

/-- Names in ascending order, each with the source of its script. -/
def catalogue : List (String × String) := [("doctor", doctorScript)]

/-- The script to use when none is asked for. -/
def standardName : String := "doctor"

/-- The source of a script of the catalogue. -/
def builtin? (name : String) : Option String := catalogue.lookup name

/-- One line for each script of the catalogue: its name, filled up to twelve characters, and the
line that it opens a conversation with. -/
def listing : String :=
  let line (entry : String × String) :=
    let opening := match load entry.2 with
      | .ok s => s.opening
      | .error _ => ""
    String.ofList (entry.1.toList.rightpad 12 ' ') ++ " " ++ opening ++ "\n"
  String.join (catalogue.map line)

end Dialogue.Script
