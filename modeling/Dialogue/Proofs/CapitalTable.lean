import Dialogue.Proofs.Capitals
import Dialogue.Proofs.Insertions

/-!
# Tables in capitals

The parts of a script with all their words in capitals, and what is done with them. Words are compared
without regard to case, so a pattern in capitals cuts an input in capitals as the pattern cuts the
input (`decompose_upper`), and an entry lies in a table in capitals where it lies in the table
(`Table.locate_upper`, `Table.get?_upper`).
-/

namespace Dialogue

open Text

/-! ### Words -/

namespace Word

variable {a b w : Word} {ws : List Word}

@[simp] theorem folded_upper (w : Word) : w.upper.folded = w.folded := by
  rw [folded, toList_upper, folded, upperAll_upperAll]

theorem upper_equiv (w : Word) : w.upper ≈ w := folded_upper w

theorem upper_eq_iff : a.upper = b.upper ↔ a ≈ b := by
  rw [upper, upper, mk.injEq, upperText_eq_iff]; rfl

@[simp] theorem upper_equiv_upper_iff : a.upper ≈ b.upper ↔ a ≈ b := by
  rw [equiv_iff, folded_upper, folded_upper, equiv_iff]

theorem hash_upper (w : Word) (bits : Nat) : w.upper.hash bits = w.hash bits :=
  hash_eq_of_equiv (upper_equiv w) bits

theorem among_upper (w : Word) (ws : List Word) : w.upper.among (ws.map upper) = w.among ws := by
  simp [among, List.any_map, Function.comp_def]

theorem phrase_upper (ws : List Word) : phrase (ws.map upper) = upperText (phrase ws) := by
  have hspace : upperText " " = " " := by decide +kernel
  unfold phrase
  induction ws with
  | nil => rfl
  | cons w ws ih =>
    cases ws with
    | nil => rfl
    | cons v ws =>
      simp only [List.map_cons, String.intercalate_cons_cons] at ih ⊢
      rw [ih, upperText_append, upperText_append, hspace]
      rfl

end Word

/-! ### Patterns and templates -/

def Part.upper : Part → Part
  | .word w => .word w.upper
  | .gap size => .gap size
  | .oneOf ws => .oneOf (ws.map Word.upper)
  | .tagged ws => .tagged (ws.map Word.upper)

namespace Part

theorem isAnchor_upper (p : Part) : p.upper.isAnchor = p.isAnchor := by cases p <;> rfl

theorem admits_upper (p : Part) (w : Word) : p.upper.admits w.upper = p.admits w := by
  cases p with
  | word v => simp [upper, admits]
  | oneOf vs => exact w.among_upper vs
  | gap | tagged => rfl

theorem reach_upper (later : List Part) (words : List Word) :
    reach (later.map upper) (words.map Word.upper) = reach later words := by
  have hp : isAnchor ∘ upper = isAnchor := funext isAnchor_upper
  unfold reach
  rw [List.find?_map, hp]
  cases later.find? isAnchor with
  | none => exact List.length_map _
  | some anchor =>
    have hw : (fun w => !anchor.upper.admits w) ∘ Word.upper = fun w => !anchor.admits w :=
      funext fun w => congrArg (!·) (admits_upper anchor w)
    simp only [Option.map_some, List.takeWhile_map, hw, List.length_map]

theorem share_upper (p : Part) (later : List Part) (words : List Word) :
    p.upper.share (later.map upper) (words.map Word.upper) = p.share later words := by
  cases p with
  | word v | oneOf vs =>
    cases words with
    | nil => rfl
    | cons w words =>
      simp only [share, upper, List.map_cons]
      rw [← admits_upper _ w]
      rfl
  | tagged => rfl
  | gap size => simp only [share, upper, reach_upper, List.length_map]

end Part

theorem decompose_upper (ps : List Part) (words : List Word) :
    decompose (ps.map Part.upper) (words.map Word.upper) =
      (decompose ps words).map (List.map (List.map Word.upper)) := by
  induction ps generalizing words with
  | nil => cases words <;> rfl
  | cons p later ih =>
    rw [List.map_cons, decompose, decompose, Part.share_upper]
    cases p.share later words with
    | none => rfl
    | some n =>
      simp only [Option.bind_eq_bind, Option.bind_some, ← List.map_drop, ← List.map_take, ih]
      cases decompose later (words.drop n) <;> rfl

def Filler.upper : Filler → Filler
  | .word w => .word w.upper
  | .group n => .group n

theorem Filler.expand_upper (f : Filler) (groups : List (List Word)) (placeholder : String) :
    f.upper.expand (groups.map (List.map Word.upper)) (upperText placeholder) =
      (f.expand groups placeholder).map Word.upper := by
  cases f with
  | word w => rfl
  | group n =>
    cases n with
    | zero => rfl
    | succ n =>
      simp only [upper, expand, List.getElem?_map]
      cases groups[n]? <;> rfl

theorem reassemble_upper (template : List Filler) (groups : List (List Word)) (placeholder : String) :
    reassemble (template.map Filler.upper) (groups.map (List.map Word.upper)) (upperText placeholder) =
      (reassemble template groups placeholder).map Word.upper := by
  simp only [reassemble, List.flatMap_map, List.map_flatMap, Filler.expand_upper]

/-! ### Rules and entries -/

def Reply.upper : Reply → Reply
  | .say template => .say (template.map Filler.upper)
  | .follow keyword => .follow keyword.upper
  | .rebuild template keyword => .rebuild (template.map Filler.upper) keyword.upper

def Rule.upper (r : Rule) : Rule :=
  { r with pattern := r.pattern.map Part.upper, replies := r.replies.map Reply.upper }

def Item.upper : Item → Item
  | .rule r => .rule r.upper
  | .link keyword => .link keyword.upper

def Entry.upper (e : Entry) : Entry where
  keyword := e.keyword.upper
  substitute := e.substitute.map Word.upper
  precedence := e.precedence
  items := e.items.map Item.upper

@[simp] theorem Entry.keyword_upper (e : Entry) : e.upper.keyword = e.keyword.upper := rfl

theorem Entry.hasRules_upper (e : Entry) : e.upper.hasRules = e.hasRules := by
  simp [hasRules, upper]

def FlatRule.upper (r : FlatRule) : FlatRule :=
  ⟨r.pattern.map Part.upper, r.template.map Filler.upper⟩

def MemoryRules.upper (m : MemoryRules) : MemoryRules :=
  ⟨m.keyword.upper, m.rules.map FlatRule.upper, by rw [List.length_map, m.length_rules]⟩

theorem MemoryRules.rule?_upper (m : MemoryRules) (n : Nat) :
    m.upper.rule? n = (m.rule? n).map FlatRule.upper := by
  unfold rule?
  split
  · rfl
  · exact List.getElem?_map

/-! ### Tables -/

namespace Table

def upper (t : Table) : Table where
  buckets := t.buckets.map (List.map Entry.upper)
  fallback := t.fallback.map Entry.upper
  length_buckets := by rw [List.length_map, t.length_buckets]

variable {t : Table} {f g : Entry → Entry}

theorem bucket_upper (t : Table) (n : Nat) : t.upper.bucket n = (t.bucket n).map Entry.upper :=
  bucket_map Entry.upper t n

theorem bucketOf_upper (w : Word) : bucketOf w.upper = bucketOf w := w.hash_upper 5

theorem locate_upper (t : Table) (w : Word) : t.upper.locate w.upper = t.locate w := by
  simp only [locate, bucketOf_upper, bucket_upper, List.findIdx?_map, Function.comp_def,
    Entry.keyword_upper, Word.upper_equiv_upper_iff]

theorem get?_upper (t : Table) (r : EntryRef) : t.upper.get? r = (t.get? r).map Entry.upper :=
  get?_map Entry.upper t r

theorem upper_insert (t : Table) (e : Entry) :
    (t.insert e).1 = (t.upper.insert e.upper).1 ∧ (t.insert e).2.upper = (t.upper.insert e.upper).2 := by
  have href : (t.insert e).1 = (t.upper.insert e.upper).1 := by
    simp only [insert, Entry.keyword_upper, bucketOf_upper, bucket_upper, List.length_map]
  refine ⟨href, ext_get? fun r => ?_⟩
  rw [get?_upper, get?_insert, get?_insert, ← href, get?_upper]
  split <;> rfl

theorem upper_modify (h : ∀ e, (f e).upper = g e.upper) (t : Table) (r : EntryRef) :
    (t.modify r f).upper = t.upper.modify r g := by
  refine ext_get? fun q => ?_
  rw [get?_upper, get?_modify, get?_modify, get?_upper]
  split
  · rw [Option.map_map, Option.map_map]
    exact congrArg (Option.map · (t.get? q)) (funext h)
  · rfl

end Table

end Dialogue
