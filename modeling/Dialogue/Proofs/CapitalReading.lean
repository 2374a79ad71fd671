import Dialogue.Proofs.CapitalTable
import Dialogue.Script

/-!
# Reading in capitals

A script in capitals is read as the script is: where one cannot be loaded the other cannot, and
otherwise what comes out is the same in capitals (`Script.follows_ofLists`). `Follows` says this of any
two readings, whatever the reasons are that they give for a failure.
-/

namespace Dialogue

open Text

/-- The second reading fails where the first does, and otherwise gives what `f` makes of its result. -/
inductive Follows {ε δ α β : Type} (f : α → β) : Except ε α → Except δ β → Prop
  | ok (a : α) : Follows f (.ok a) (.ok (f a))
  | error (e : ε) (e' : δ) : Follows f (.error e) (.error e')

namespace Follows

variable {ε δ ζ α β γ κ : Type} {f : α → β} {g : γ → κ} {x : Except ε α} {y : Except δ β}

theorem bind {k : α → Except ε γ} {k' : β → Except δ κ} (h : Follows f x y)
    (hk : ∀ a, Follows g (k a) (k' (f a))) : Follows g (x >>= k) (y >>= k') := by
  cases h with
  | ok a => exact hk a
  | error e e' => exact .error e e'

theorem of_eq {b : β} {a : α} (h : b = f a) : Follows f (.ok a : Except ε α) (.ok b : Except δ β) :=
  h ▸ .ok a

theorem map {k : α → γ} {k' : β → κ} (h : Follows f x y) (hk : ∀ a, k' (f a) = g (k a)) :
    Follows g (x.map k) (y.map k') := by
  cases h with
  | ok a => exact of_eq (hk a)
  | error e e' => exact .error e e'

theorem mapError {η θ : Type} {k : ε → η} {k' : δ → θ} (h : Follows f x y) :
    Follows f (x.mapError k) (y.mapError k') := by
  cases h with
  | ok a => exact .ok a
  | error e e' => exact .error (k e) (k' e')

theorem mapM {k : α → Except ε γ} {k' : β → Except δ κ} (hk : ∀ a, Follows g (k a) (k' (f a)))
    (l : List α) : Follows (List.map g) (l.mapM k) ((l.map f).mapM k') := by
  induction l with
  | nil => exact .ok []
  | cons a l ih =>
    rw [List.map_cons, List.mapM_cons, List.mapM_cons]
    exact (hk a).bind fun b => ih.bind fun bs => .ok (b :: bs)

/-- Two readings with the same result in capitals succeed alike. -/
theorem alike {x x' : Except ε α} (h : Follows f x y) (h' : Follows f x' y) :
    x.isOk = x'.isOk ∧ ∀ a a', x = .ok a → x' = .ok a' → f a = f a' := by
  cases h with
  | ok a =>
    generalize hb : f a = b at h'
    cases h' with
    | ok a' =>
      refine ⟨rfl, ?_⟩
      rintro _ _ ⟨⟩ ⟨⟩
      exact hb
  | error e e' =>
    cases h' with
    | error => exact ⟨rfl, nofun⟩

end Follows

theorem mapM_map_comm {α β γ κ : Type} {f : α → β} {g : γ → κ} {k : α → Option γ} {k' : β → Option κ}
    (hk : ∀ a, k' (f a) = (k a).map g) (l : List α) :
    (l.map f).mapM k' = (l.mapM k).map (List.map g) := by
  induction l with
  | nil => rfl
  | cons a l ih =>
    rw [List.map_cons, List.mapM_cons, List.mapM_cons, hk, ih]
    cases k a with
    | none => rfl
    | some b => cases l.mapM k <;> rfl

/-! ### Data -/

namespace Datum

mutual

/-- The datum with its words in capitals. -/
def upper : Datum → Datum
  | .word w => .word w.upper
  | .number n => .number n
  | .list cells => .list (uppers cells)

def uppers : List Datum → List Datum
  | [] => []
  | d :: ds => d.upper :: uppers ds

end

theorem uppers_eq_map (ds : List Datum) : uppers ds = ds.map upper := by
  induction ds with
  | nil => rfl
  | cons d ds ih => rw [uppers, ih]; rfl

mutual

/-- Data are equal up to case when they are the same in capitals. -/
theorem same_iff (a b : Datum) : a.same b ↔ a.upper = b.upper := by
  cases a with
  | word v =>
    cases b with
    | word w => simp [same, upper, Word.upper_eq_iff]
    | number | list => simp [same, upper]
  | number m => cases b <;> simp [same, upper]
  | list as =>
    cases b with
    | list bs => simp [same, upper, sameAll_iff as bs]
    | word | number => simp [same, upper]

theorem sameAll_iff (as bs : List Datum) : sameAll as bs ↔ uppers as = uppers bs := by
  cases as with
  | nil => cases bs <;> simp [sameAll, uppers]
  | cons a as =>
    cases bs with
    | nil => simp [sameAll, uppers]
    | cons b bs => simp [sameAll, uppers, same_iff a b, sameAll_iff as bs]

end

theorem map_upper_of_same {lists lists' : List (List Datum)}
    (h : List.Forall₂ (fun a b => sameAll a b) lists lists') :
    lists.map (List.map upper) = lists'.map (List.map upper) := by
  induction h with
  | nil => rfl
  | cons hd _ ih =>
    rw [sameAll_iff, uppers_eq_map, uppers_eq_map] at hd
    rw [List.map_cons, List.map_cons, hd, ih]

theorem isWord_upper (d : Datum) (s : String) : d.upper.isWord s = d.isWord s := by
  cases d with
  | word w => simp [upper, isWord]
  | number | list => rfl

theorem head?_isWord_upper (ds : List Datum) (s : String) :
    (ds.map upper).head?.any (·.isWord s) = ds.head?.any (·.isWord s) := by
  cases ds with
  | nil => rfl
  | cons d ds => exact d.isWord_upper s

theorem words_upper (ds : List Datum) : words (ds.map upper) = (words ds).map Word.upper := by
  unfold words
  rw [List.filterMap_map, List.map_filterMap]
  exact List.filterMap_congr fun d _ => by cases d <;> rfl

end Datum

/-! ### Patterns and templates -/

theorem Word.upper_text_eq_star {w : Word} : w.upper.text = "*" ↔ w.text = "*" := by
  rw [← String.toList_inj, ← String.toList_inj, toList_upper]
  exact upperAll_eq_singleton_iff w.text.toList (by decide) fun h => h.ne_star rfl

theorem Word.upper_head_eq_slash {w : Word} :
    w.upper.text.toList.head? = some '/' ↔ w.text.toList.head? = some '/' := by
  rw [toList_upper]
  exact head?_upperAll_iff w.text.toList (by decide) fun h => h.ne_slash rfl

namespace Part

theorem follows_ofGroup (group : List Datum) :
    Follows upper (ofGroup group) (ofGroup (group.map Datum.upper)) := by
  unfold ofGroup
  rw [Datum.words_upper]
  cases Datum.words group with
  | nil => exact .error _ _
  | cons first others =>
    simp only [List.map_cons, Word.upper_text_eq_star, Word.upper_head_eq_slash, ne_eq,
      List.map_eq_nil_iff, List.length_cons, List.length_map]
    split
    · exact .ok (Part.oneOf others)
    · split
      · exact .ok (Part.tagged (first :: others))
      · exact .error _ _

theorem follows_ofDatum (d : Datum) : Follows upper (ofDatum d) (ofDatum d.upper) := by
  cases d with
  | word w => exact .ok (Part.word w)
  | number n => exact .ok (Part.gap n)
  | list group =>
    rw [Datum.upper, Datum.uppers_eq_map]
    exact follows_ofGroup group

theorem ofAtom?_upper (d : Datum) : ofAtom? d.upper = (ofAtom? d).map upper := by cases d <;> rfl

end Part

theorem follows_readPattern (cells : List Datum) :
    Follows (List.map Part.upper) (readPattern cells) (readPattern (cells.map Datum.upper)) := by
  unfold readPattern
  rw [List.isEmpty_map]
  split
  · exact .error _ _
  · exact Follows.mapM Part.follows_ofDatum cells

namespace Filler

theorem follows_ofDatum (d : Datum) : Follows upper (ofDatum d) (ofDatum d.upper) := by
  cases d with
  | word w => exact .ok (Filler.word w)
  | number n => exact .ok (Filler.group n.toNat)
  | list cells => exact .error _ _

theorem ofAtom?_upper (d : Datum) : ofAtom? d.upper = (ofAtom? d).map upper := by cases d <;> rfl

end Filler

theorem follows_readTemplate (cells : List Datum) :
    Follows (List.map Filler.upper) (readTemplate cells) (readTemplate (cells.map Datum.upper)) :=
  Follows.mapM Filler.follows_ofDatum cells

/-! ### Rules -/

theorem linkTarget?_upper (cells : List Datum) :
    linkTarget? (cells.map Datum.upper) = (linkTarget? cells).map Word.upper := by
  rcases cells with _ | ⟨eq, _ | ⟨d, _ | ⟨d', cells⟩⟩⟩
  · rfl
  · rfl
  · cases d with
    | word target =>
      simp only [List.map_cons, List.map_nil, Datum.upper, linkTarget?, Datum.isWord_upper]
      split <;> rfl
    | number | list => rfl
  · cases d <;> rfl

theorem FlatRule.ofCells?_upper (cells : List Datum) :
    ofCells? (cells.map Datum.upper) = (ofCells? cells).map upper := by
  have hp : (fun d : Datum => !d.isWord "=") ∘ Datum.upper = fun d => !d.isWord "=" :=
    funext fun d => congrArg (!·) (d.isWord_upper "=")
  unfold ofCells?
  rw [List.takeWhile_map, List.dropWhile_map, hp]
  cases cells.takeWhile (!·.isWord "=") with
  | nil => rfl
  | cons d before =>
    cases cells.dropWhile (!·.isWord "=") with
    | nil => rfl
    | cons eq after =>
      simp only [List.map_cons]
      rw [← List.map_cons, mapM_map_comm Part.ofAtom?_upper, mapM_map_comm Filler.ofAtom?_upper]
      cases (d :: before).mapM Part.ofAtom? with
      | none => rfl
      | some pattern => cases after.mapM Filler.ofAtom? <;> rfl

namespace Reply

theorem follows_ofCells (cells : List Datum) :
    Follows upper (ofCells cells) (ofCells (cells.map Datum.upper)) := by
  unfold ofCells
  rw [linkTarget?_upper]
  cases linkTarget? cells with
  | some target => exact .ok (Reply.follow target)
  | none =>
    simp only [Option.map_none, Datum.head?_isWord_upper]
    split
    · -- only three cells, the last two of them lists, can be a rebuilding
      rcases cells with _ | ⟨d, _ | ⟨d₁, _ | ⟨d₂, _ | ⟨d₃, cells⟩⟩⟩⟩
      · exact .error _ _
      · exact .error _ _
      · cases d₁ <;> exact .error _ _
      · cases d₁ with
        | word | number => exact .error _ _
        | list template =>
          cases d₂ with
          | word | number => exact .error _ _
          | list link =>
            simp only [List.map_cons, List.map_nil, Datum.upper, Datum.uppers_eq_map, linkTarget?_upper]
            cases linkTarget? link with
            | none => exact .error _ _
            | some target =>
              exact (follows_readTemplate template).bind fun fillers => .ok (Reply.rebuild fillers target)
      · cases d₁ <;> cases d₂ <;> exact .error _ _
    · exact (follows_readTemplate cells).bind fun fillers => .ok (Reply.say fillers)

theorem follows_ofDatum (d : Datum) : Follows upper (ofDatum d) (ofDatum d.upper) := by
  cases d with
  | word | number => exact .error _ _
  | list cells =>
    rw [Datum.upper, Datum.uppers_eq_map]
    exact follows_ofCells cells

end Reply

theorem Rule.follows_ofCells (cells : List Datum) :
    Follows upper (ofCells cells) (ofCells (cells.map Datum.upper)) := by
  rcases cells with _ | ⟨d, replies⟩
  · exact .error _ _
  · cases d with
    | word | number => exact .error _ _
    | list pattern =>
      rw [List.map_cons, Datum.upper, Datum.uppers_eq_map]
      refine (follows_readPattern pattern).bind fun parts => ?_
      refine (Follows.mapM Reply.follows_ofDatum replies).bind fun rs => ?_
      dsimp only
      rw [List.isEmpty_map]
      split
      · exact .error _ _
      · exact .of_eq rfl

namespace Item

theorem follows_ofCells (cells : List Datum) :
    Follows upper (ofCells cells) (ofCells (cells.map Datum.upper)) := by
  unfold ofCells
  rw [linkTarget?_upper, FlatRule.ofCells?_upper]
  cases linkTarget? cells with
  | some target => exact .ok (Item.link target)
  | none =>
    cases FlatRule.ofCells? cells with
    | some flat => exact .ok (Item.rule flat.toRule)
    | none => exact (Rule.follows_ofCells cells).map fun r => rfl

theorem follows_ofDatum (d : Datum) : Follows upper (ofDatum d) (ofDatum d.upper) := by
  cases d with
  | word | number => exact .error _ _
  | list cells =>
    rw [Datum.upper, Datum.uppers_eq_map]
    exact follows_ofCells cells

end Item

/-! ### Entries -/

namespace Entry

theorem follows_readHead (e : Entry) (cells : List Datum) :
    Follows (Prod.map upper (List.map Datum.upper)) (readHead e cells)
      (readHead e.upper (cells.map Datum.upper)) := by
  have hword {w : Word} (name : String) : w.upper ≈ ⟨name⟩ ↔ w ≈ ⟨name⟩ := by
    rw [Word.equiv_iff, Word.folded_upper, Word.equiv_iff]
  induction e, cells using readHead.induct with
  | case1 e => exact .of_eq rfl
  | case2 e cells rest => exact .of_eq rfl
  | case3 e n rest hp =>
    have hp' : e.upper.precedence.isSome := hp
    rw [List.map_cons, Datum.upper, readHead, readHead, if_pos hp, if_pos hp']
    exact .error _ _
  | case4 e n rest hp ih =>
    have hp' : ¬ e.upper.precedence.isSome := hp
    rw [List.map_cons, Datum.upper, readHead, readHead, if_neg hp, if_neg hp']
    exact ih
  | case5 e w heq replacement rest ih =>
    rw [List.map_cons, List.map_cons, Datum.upper, Datum.upper, readHead_word, readHead_word, if_pos heq,
      if_pos ((hword "=").2 heq)]
    exact ih
  | case6 e w rest heq hrest =>
    rw [List.map_cons, Datum.upper, readHead_word, readHead_word, if_pos heq, if_pos ((hword "=").2 heq)]
    rcases rest with _ | ⟨d, rest⟩
    · exact .error _ _
    · cases d with
      | word replacement => exact (hrest replacement rest rfl).elim
      | number | list => exact .error _ _
  | case7 e w heq hdlist =>
    rw [List.map_cons, Datum.upper, readHead_word, readHead_word, if_neg heq,
      if_neg (mt (hword "=").1 heq), if_pos hdlist, if_pos ((hword "DLIST").2 hdlist)]
    exact .of_eq rfl
  | case8 e w heq hdlist d rest ih =>
    rw [List.map_cons, Datum.upper, readHead_word, readHead_word, if_neg heq,
      if_neg (mt (hword "=").1 heq), if_pos hdlist, if_pos ((hword "DLIST").2 hdlist)]
    exact ih
  | case9 e w rest heq hdlist =>
    rw [List.map_cons, Datum.upper, readHead_word, readHead_word, if_neg heq,
      if_neg (mt (hword "=").1 heq), if_neg hdlist, if_neg (mt (hword "DLIST").1 hdlist)]
    exact .error _ _

theorem follows_readBody (keyword : Word) (cells : List Datum) :
    Follows upper (readBody keyword cells) (readBody keyword.upper (cells.map Datum.upper)) := by
  refine (follows_readHead { keyword := keyword } cells).bind fun head => ?_
  exact (Follows.mapM Item.follows_ofDatum head.2).bind fun items => .of_eq rfl

theorem follows_ofCells (cells : List Datum) :
    Follows upper (ofCells cells) (ofCells (cells.map Datum.upper)) := by
  rcases cells with _ | ⟨d, cells⟩
  · exact .error _ _
  · cases d with
    | number | list => exact .error _ _
    | word keyword => exact (follows_readBody keyword cells).mapError

end Entry

namespace MemoryRules

theorem follows_readRule (d : Datum) : Follows FlatRule.upper (readRule d) (readRule d.upper) := by
  cases d with
  | word | number => exact .error _ _
  | list cells =>
    rw [Datum.upper, Datum.uppers_eq_map, readRule, readRule, FlatRule.ofCells?_upper]
    cases FlatRule.ofCells? cells with
    | none => exact .error _ _
    | some flat => exact .ok flat

theorem follows_readBody (cells : List Datum) :
    Follows upper (readBody cells) (readBody (cells.map Datum.upper)) := by
  rcases cells with _ | ⟨d, cells⟩
  · exact .error _ _
  · cases d with
    | number | list => exact .error _ _
    | word keyword =>
      refine (Follows.mapM follows_readRule cells).bind fun rules => ?_
      by_cases h : rules.length = 4
      · simp only [List.length_map, h, dif_pos]
        exact .of_eq rfl
      · simp only [List.length_map, h, dif_neg, not_false_iff]
        exact .error _ _

theorem follows_ofCells (cells : List Datum) :
    Follows upper (ofCells cells) (ofCells (cells.map Datum.upper)) := by
  unfold ofCells
  rw [← List.map_tail]
  exact (follows_readBody cells.tail).mapError

end MemoryRules

/-! ### Scripts -/

namespace Script

def upper (s : Script) : Script where
  greeting := s.greeting.map Datum.upper
  table := s.table.upper
  memory := s.memory.map MemoryRules.upper

theorem follows_add (s : Script) (cells : List Datum) :
    Follows upper (s.add cells) (s.upper.add (cells.map Datum.upper)) := by
  unfold add
  rw [Datum.head?_isWord_upper, Datum.head?_isWord_upper]
  split
  · exact (Entry.follows_ofCells cells).bind fun e => .of_eq rfl
  · split
    · exact (MemoryRules.follows_ofCells cells).bind fun m => .of_eq rfl
    · refine (Entry.follows_ofCells cells).bind fun e => .of_eq ?_
      simp only [upper, (s.table.upper_insert e).2]

theorem follows_addAll (s : Script) (lists : List (List Datum)) :
    Follows upper (addAll none s lists) (addAll none s.upper (lists.map (List.map Datum.upper))) := by
  induction lists generalizing s with
  | nil => exact .error _ _
  | cons cells rest ih =>
    cases cells with
    | nil => exact .ok s
    | cons d cells => exact (follows_add s (d :: cells)).mapError.bind fun next => ih next

theorem follows_ofLists (lists : List (List Datum)) :
    Follows upper (ofLists lists none) (ofLists (lists.map (List.map Datum.upper)) none) := by
  rcases lists with _ | ⟨_ | ⟨d, greeting⟩, rest⟩
  · exact .error _ _
  · exact .error _ _
  · exact follows_addAll { greeting := d :: greeting } rest

end Script

end Dialogue
