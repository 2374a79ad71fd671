import Dialogue.Proofs.CapitalTable
import Dialogue.Proofs.Evaluator

/-!
# Turns in capitals

What a turn looks at is words, and with all of them in capitals it comes to the same in capitals: the
scan of a line, whose words are in capitals anyway (`Scan.sweep_upper`), an entry that is asked
(`consult_upper`), and a chain of links (`evaluate_upper`).
-/

namespace Dialogue

open Text

/-- The settings with the phrases in capitals. The words that part clauses and mark commands are
compared with words of a line only, and stay. -/
def Settings.upper (settings : Settings) : Settings :=
  { settings with
    unsupportedReply := upperText settings.unsupportedReply
    acknowledgements := settings.acknowledgements.map upperText
    closing := upperText settings.closing
    placeholder := upperText settings.placeholder }

theorem Settings.acknowledgement_upper (settings : Settings) (rotation : Nat) :
    settings.upper.acknowledgement rotation = upperText (settings.acknowledgement rotation) := by
  simp only [acknowledgement, upper, List.getElem?_map]
  cases settings.acknowledgements[max 1 (min rotation 4) - 1]? <;> rfl

/-! ### Scans -/

namespace Scan

theorem entryOf_upper (t : Table) (w : Word) :
    entryOf t.upper w.upper = (entryOf t w).map (Prod.map id Entry.upper) := by
  unfold entryOf
  rw [Table.locate_upper]
  cases t.locate w with
  | none => rfl
  | some r =>
    simp only [Option.bind_eq_bind, Option.bind_some, Table.get?_upper]
    cases t.get? r <;> rfl

theorem choose_upper (selected : Option Selection) (r : EntryRef) (e : Entry) :
    Selection.choose selected r e.upper = Selection.choose selected r e := by
  unfold Selection.choose
  rw [Entry.hasRules_upper]
  rfl

/-- The words of a line stay as they are, in capitals; what is put in their place need not be. -/
theorem sweep_upper (settings : Settings) (t : Table) (kept : List Word) (selected : Option Selection)
    {words : List Word} (hw : ∀ w ∈ words, w.upper = w) :
    sweep settings.upper t.upper (kept.map Word.upper) selected words =
      ((sweep settings t kept selected words).1.map Word.upper,
        (sweep settings t kept selected words).2) := by
  induction words generalizing kept selected with
  | nil => rfl
  | cons w rest ih =>
    have hrest : ∀ v ∈ rest, v.upper = v := fun v hv => hw v (List.mem_cons_of_mem _ hv)
    have hself : w.upper = w := hw w List.mem_cons_self
    have hentry := entryOf_upper t w
    rw [hself] at hentry
    have hd : settings.upper.isDelimiter w.text = settings.isDelimiter w.text := rfl
    rw [sweep, sweep, hd, hentry]
    by_cases hdel : settings.isDelimiter w.text
    · rw [if_pos hdel, if_pos hdel]
      by_cases hs : selected.isNone
      · rw [if_pos hs, if_pos hs]
        exact ih [] none hrest
      · rw [if_neg hs, if_neg hs]
    · rw [if_neg hdel, if_neg hdel]
      cases entryOf t w with
      | none =>
        have := ih (kept ++ [w]) selected hrest
        rwa [List.map_append, List.map_singleton, hself] at this
      | some p =>
        obtain ⟨r, e⟩ := p
        -- without a substitute the word itself is kept, and it is in capitals already
        have hword : e.upper.substitute.getD w = (e.substitute.getD w).upper := by
          rw [Entry.upper]
          cases e.substitute with
          | none => exact hself.symm
          | some v => rfl
        have := ih (kept ++ [e.substitute.getD w]) (Selection.choose selected r e) hrest
        rw [List.map_append, List.map_singleton, ← hword] at this
        simpa only [Option.map_some, Prod.map, id_eq, choose_upper] using this

end Scan

/-! ### Evaluations -/

theorem Rule.due_upper (r : Rule) : r.upper.due = r.due.map Reply.upper := by
  simp [due, upper, List.getElem?_map]

theorem Rule.passOn_upper (r : Rule) : r.upper.passOn = r.passOn.upper := by
  simp [passOn, upper]

def Application.upper : Application → Application
  | .link keyword => .link keyword.upper
  | .rule n r groups => .rule n r.upper (groups.map (List.map Word.upper))

theorem Item.application?_upper (words : List Word) (item : Item) (n : Nat) :
    application? (words.map Word.upper) (item.upper, n) =
      (application? words (item, n)).map Application.upper := by
  cases item with
  | link keyword => rfl
  | rule r =>
    simp only [upper, application?, Rule.upper, decompose_upper]
    cases decompose r.pattern words <;> rfl

theorem Entry.application?_upper (e : Entry) (words : List Word) :
    e.upper.application? (words.map Word.upper) = (e.application? words).map Application.upper := by
  unfold application?
  rw [Entry.upper, List.zipIdx_map, List.findSome?_map, List.map_findSome?]
  exact congrArg (List.findSome? · e.items.zipIdx)
    (funext fun p => p.1.application?_upper words p.2)

theorem Table.passOn_upper (t : Table) (entry : EntryRef) (n : Nat) (r : Rule) :
    t.upper.passOn entry n r.upper = (t.passOn entry n r).upper := by
  refine (Table.upper_modify (fun e => ?_) t entry).symm
  simp only [Entry.upper, List.map_set, Item.upper, Rule.passOn_upper]

def Answer.upper : Answer → Answer
  | .say words => .say (words.map Word.upper)
  | .follow keyword => .follow keyword.upper
  | .nothing => .nothing

def Consultation.upper (c : Consultation) : Consultation :=
  ⟨c.answer.upper, c.input.map Word.upper, c.table.upper⟩

theorem consult_upper (settings : Settings) (t : Table) (entry : EntryRef) (words : List Word) :
    consult settings.upper t.upper entry (words.map Word.upper) =
      (consult settings t entry words).upper := by
  have happ : (t.upper.get? entry).bind (·.application? (words.map Word.upper)) =
      ((t.get? entry).bind (·.application? words)).map Application.upper := by
    rw [Table.get?_upper]
    cases t.get? entry with
    | none => rfl
    | some e => exact e.application?_upper words
  unfold consult
  rw [happ]
  cases (t.get? entry).bind (·.application? words) with
  | none => rfl
  | some a =>
    cases a with
    | link keyword => rfl
    | rule n r groups =>
      simp only [Option.map_some, Application.upper, Rule.due_upper]
      cases r.due with
      | none => rfl
      | some reply =>
        cases reply <;>
          simp only [Option.map_some, Reply.upper, Table.passOn_upper, Consultation.upper, Answer.upper,
            Settings.upper, reassemble_upper]

def Evaluation.upper (v : Evaluation) : Evaluation :=
  ⟨upperText v.reply, v.input.map Word.upper, v.table.upper⟩

theorem evaluate_upper (settings : Settings) (acknowledgement : String) (hops : Nat) (t : Table)
    (entry : EntryRef) (words : List Word) :
    evaluate settings.upper (upperText acknowledgement) hops t.upper entry (words.map Word.upper) =
      (evaluate settings acknowledgement hops t entry words).upper := by
  induction hops generalizing t entry words with
  | zero =>
    rw [evaluate, evaluate, consult_upper]
    dsimp only [Consultation.upper]
    cases (consult settings t entry words).answer with
    | say line => simp only [Answer.upper, Evaluation.upper, Word.phrase_upper]
    | follow keyword | nothing => rfl
  | succ hops ih =>
    rw [evaluate, evaluate, consult_upper]
    dsimp only [Consultation.upper]
    cases (consult settings t entry words).answer with
    | say line => simp only [Answer.upper, Evaluation.upper, Word.phrase_upper]
    | nothing => rfl
    | follow keyword =>
      simp only [Answer.upper, Table.locate_upper]
      cases (consult settings t entry words).table.locate keyword with
      | none => rfl
      | some target => exact ih _ target _

end Dialogue
