import Dialogue.Script
import Dialogue.Text.Json

/-! # The summary of a script

What a script consists of: its greeting, the keywords of each bucket of its table, the number of
items to fall back on and the keyword of its memory rules. -/

namespace Dialogue

structure BucketSummary where
  index : Nat
  keywords : List String

structure Summary where
  greeting : String
  buckets : List BucketSummary
  fallback : Option Nat
  memory : Option String

def Script.summary (s : Script) : Summary where
  greeting := s.opening
  buckets := (s.table.allOccupied.filter fun b => b.1 != EntryRef.fallback.bucket).map fun (n, es) =>
    ⟨n, es.map fun e => e.keyword.text⟩
  fallback := s.table.fallback.map fun e => e.items.length
  memory := s.memory.map fun m => m.keyword.text

namespace Summary

/-- The lines of the summary, each ended by a line feed. -/
def text (s : Summary) : String :=
  let buckets := s.buckets.map fun b => s!"KEY({b.index}) " ++ " ".intercalate b.keywords
  let fallback := match s.fallback with
    | some n => s!"NONE [{n} rules]"
    | none => "-"
  let lines := ["GREETING " ++ s.greeting] ++ buckets ++
    [s!"KEY({EntryRef.fallback.bucket}) {fallback}", "MEMORY " ++ s.memory.getD "-"]
  String.join (lines.map (· ++ "\n"))

def json (s : Summary) : Text.Json :=
  let bucket (b : BucketSummary) : Text.Json :=
    .object [("index", .number b.index), ("keywords", .array (b.keywords.map .string))]
  .object
    [("greeting", .string s.greeting),
     ("buckets", .array (s.buckets.map bucket)),
     ("fallback", (s.fallback.map .number).getD .null),
     ("memory", (s.memory.map .string).getD .null)]

end Summary

end Dialogue
