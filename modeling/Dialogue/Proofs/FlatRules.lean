import Dialogue.Proofs.Writing

/-!
# Rules in the flat notation

A list of words and numbers with an equals sign among them says the same as a rule that has the cells
before the sign as its pattern and those after it as its only template. The two are read by different
readers, which come to one rule (`Item.ofDatum_flat`, `Item.ofDatum_nested`), so that either can stand in
for the other wherever an entry has an item. A list in which there is another list is no flat rule, and
with an equals sign in it no other item either (`Item.not_ok_of_sign`).
-/

namespace Dialogue

/-- A cell that is not a list. -/
inductive Atom where
  | word (w : Word)
  | number (n : UInt32)

namespace Atom

def cell : Atom → Datum
  | .word w => .word w
  | .number n => .number n

/-- The atom in a pattern. -/
def part : Atom → Part
  | .word w => .word w
  | .number n => .gap n

/-- The atom in a template. -/
def filler : Atom → Filler
  | .word w => .word w
  | .number n => .group n.toNat

/-- The atom is an equals sign. -/
def IsSign (a : Atom) : Prop := ∃ w, a = .word w ∧ w ≈ ⟨"="⟩

end Atom

namespace FlatRule

/-- The rule that `p` before a sign and `t` after it stand for. -/
def ofAtoms (p t : List Atom) : FlatRule := ⟨p.map Atom.part, t.map Atom.filler⟩

/-- The rule without a list inside. -/
def flatCells (p : List Atom) (sign : Word) (t : List Atom) : List Datum :=
  p.map Atom.cell ++ .word sign :: t.map Atom.cell

/-- The rule as a list for its pattern and one for its template. -/
def nestedCells (p t : List Atom) : List Datum := [.list (p.map Atom.cell), .list (t.map Atom.cell)]

end FlatRule

/-! ### Lists that are read cell by cell -/

section
variable {ε α β : Type} {f : α → Except ε β} {a b : α}

theorem mapM_middle (h : f a = f b) (l r : List α) : (l ++ a :: r).mapM f = (l ++ b :: r).mapM f := by
  simp only [List.mapM_append, List.mapM_cons, h]

theorem mapM_middle_eq_ok {l r : List α} {bs : List β} :
    (l ++ a :: r).mapM f = .ok bs ↔
      ∃ ls b rs, l.mapM f = .ok ls ∧ f a = .ok b ∧ r.mapM f = .ok rs ∧ bs = ls ++ b :: rs := by
  rw [List.mapM_append, List.mapM_cons]
  constructor
  · intro h
    obtain ⟨ls, hls, h⟩ := bind_eq_ok.1 h
    obtain ⟨more, hmore, h⟩ := bind_eq_ok.1 h
    obtain ⟨b, hb, hmore⟩ := bind_eq_ok.1 hmore
    obtain ⟨rs, hrs, hmore⟩ := bind_eq_ok.1 hmore
    cases hmore
    cases h
    exact ⟨ls, b, rs, hls, hb, hrs, rfl⟩
  · rintro ⟨ls, b, rs, hls, hb, hrs, rfl⟩
    refine bind_eq_ok.2 ⟨ls, hls, bind_eq_ok.2 ⟨b :: rs, ?_, rfl⟩⟩
    exact bind_eq_ok.2 ⟨b, hb, bind_eq_ok.2 ⟨rs, hrs, rfl⟩⟩

/-- The cell in the middle is read to `b`, whatever the others are read to. -/
theorem mapM_middle_eq_ok_iff {b : β} (h : f a = .ok b) {l r : List α} {bs : List β} :
    (l ++ a :: r).mapM f = .ok bs ↔
      ∃ ls rs, l.mapM f = .ok ls ∧ r.mapM f = .ok rs ∧ bs = ls ++ b :: rs := by
  rw [mapM_middle_eq_ok]
  constructor
  · rintro ⟨ls, b', rs, hls, hb, hrs, rfl⟩
    cases h.symm.trans hb
    exact ⟨ls, rs, hls, hrs, rfl⟩
  · rintro ⟨ls, rs, hls, hrs, rfl⟩
    exact ⟨ls, b, rs, hls, h, hrs, rfl⟩

theorem mapM_ne_ok_of_mem {l : List α} (ha : a ∈ l) (hf : ¬ ∃ b, f a = .ok b) (bs : List β) :
    l.mapM f ≠ .ok bs := by
  obtain ⟨before, after, rfl⟩ := List.append_of_mem ha
  intro h
  obtain ⟨_, b, _, _, hb, _⟩ := mapM_middle_eq_ok.1 h
  exact hf ⟨b, hb⟩

theorem mapM_map_eq_some {γ : Type} {f : α → β} {g : β → Option γ} {h : α → γ}
    (hg : ∀ a, g (f a) = some (h a)) (l : List α) : (l.map f).mapM g = some (l.map h) := by
  induction l with
  | nil => rfl
  | cons a l ih => rw [List.map_cons, List.mapM_cons, hg, ih]; rfl

end

/-! ### One item -/

section
variable {p t : List Atom} {sign : Word}

theorem FlatRule.ofCells?_flat (hp : p ≠ []) (hsign : ∀ a ∈ p, ¬ a.IsSign) (hs : sign ≈ ⟨"="⟩) :
    ofCells? (flatCells p sign t) = some (ofAtoms p t) := by
  have hpass : ∀ d ∈ p.map Atom.cell, (!d.isWord "=") = true := by
    intro d hd
    obtain ⟨a, ha, rfl⟩ := List.mem_map.1 hd
    cases a with
    | number n => rfl
    | word w =>
      have hw : ¬ w ≈ ⟨"="⟩ := fun h => hsign _ ha ⟨w, rfl, h⟩
      simpa [Atom.cell, Datum.isWord] using hw
  have hstop : (Datum.word sign).isWord "=" := by simpa [Datum.isWord] using hs
  have hbefore : (flatCells p sign t).takeWhile (!·.isWord "=") = p.map Atom.cell := by
    rw [flatCells, List.takeWhile_append_of_pos hpass]
    simp [hstop]
  have hafter : (flatCells p sign t).dropWhile (!·.isWord "=") = .word sign :: t.map Atom.cell := by
    rw [flatCells, List.dropWhile_append_of_pos hpass]
    simp [hstop]
  have hpattern := mapM_map_eq_some (f := Atom.cell) (g := Part.ofAtom?) (h := Atom.part)
    (fun a => by cases a <;> rfl) p
  have htemplate := mapM_map_eq_some (f := Atom.cell) (g := Filler.ofAtom?) (h := Atom.filler)
    (fun a => by cases a <;> rfl) t
  obtain ⟨a, p, rfl⟩ := List.exists_cons_of_ne_nil hp
  rw [List.map_cons] at hbefore hpattern
  rw [ofCells?, hbefore, hafter]
  dsimp only
  rw [hpattern, htemplate]
  rfl

/-- A link has its sign in front. -/
theorem linkTarget?_flat (hp : p ≠ []) (hsign : ∀ a ∈ p, ¬ a.IsSign) :
    linkTarget? (FlatRule.flatCells p sign t) = none := by
  obtain ⟨a, p, rfl⟩ := List.exists_cons_of_ne_nil hp
  have ha := hsign a List.mem_cons_self
  cases hl : linkTarget? (FlatRule.flatCells (a :: p) sign t) with
  | none => rfl
  | some target =>
    unfold linkTarget? at hl
    split at hl
    · rename_i eq _ hcells
      have heq : a.cell = eq := (List.cons.inj hcells).1
      split at hl
      · rename_i hw
        cases a with
        | word w =>
          rw [← heq] at hw
          exact (ha ⟨w, rfl, of_decide_eq_true hw⟩).elim
        | number n =>
          rw [← heq] at hw
          cases hw
      · cases hl
    · cases hl

theorem Item.ofDatum_flat (hp : p ≠ []) (hsign : ∀ a ∈ p, ¬ a.IsSign) (hs : sign ≈ ⟨"="⟩) :
    Item.ofDatum (.list (FlatRule.flatCells p sign t)) = .ok (.rule (FlatRule.ofAtoms p t).toRule) := by
  show Item.ofCells _ = _
  rw [Item.ofCells, linkTarget?_flat hp hsign, FlatRule.ofCells?_flat hp hsign hs]

theorem FlatRule.writable_ofAtoms (hp : p ≠ []) (hlink : ¬ LooksLinked (t.map Atom.filler))
    (hpre : ¬ LooksRebuilt (t.map Atom.filler)) : (ofAtoms p t).toRule.Writable where
  pattern_ne_nil := by simpa [toRule, ofAtoms] using hp
  parts := by
    intro x hx
    obtain ⟨a, -, rfl⟩ := List.mem_map.1 hx
    cases a <;> trivial
  replies_ne_nil := List.cons_ne_nil _ _
  replies := by
    intro reply hr
    obtain rfl := List.mem_singleton.1 hr
    refine ⟨fun f hf => ?_, hlink, hpre⟩
    obtain ⟨a, -, rfl⟩ := List.mem_map.1 hf
    cases a with
    | word => trivial
    | number n => exact n.toNat_lt
  next_eq_zero := rfl

theorem Item.ofDatum_nested (hp : p ≠ []) (hlink : ¬ LooksLinked (t.map Atom.filler))
    (hpre : ¬ LooksRebuilt (t.map Atom.filler)) :
    Item.ofDatum (.list (FlatRule.nestedCells p t)) = .ok (.rule (FlatRule.ofAtoms p t).toRule) := by
  have hcells : Item.cells (.rule (FlatRule.ofAtoms p t).toRule) = FlatRule.nestedCells p t := by
    have hpart : (p.map Atom.part).map Part.cell = p.map Atom.cell := by
      rw [List.map_map]
      exact List.map_congr_left fun a _ => by cases a <;> rfl
    have hfiller : (t.map Atom.filler).map Filler.cell = t.map Atom.cell := by
      rw [List.map_map]
      refine List.map_congr_left fun a _ => ?_
      cases a with
      | word => rfl
      | number n => simp [Atom.filler, Atom.cell, Filler.cell]
    show [Datum.list _, Datum.list _] = _
    rw [FlatRule.nestedCells, ← hpart, ← hfiller]
    rfl
  rw [← hcells, Item.ofDatum_cells]
  exact FlatRule.writable_ofAtoms hp hlink hpre

end

section
variable {cells : List Datum}

theorem linkTarget?_of_list (hlist : ∃ d ∈ cells, d.isList) : linkTarget? cells = none := by
  cases hl : linkTarget? cells with
  | none => rfl
  | some target =>
    unfold linkTarget? at hl
    split at hl
    · rename_i eq _
      obtain ⟨d, hd, hdl⟩ := hlist
      rcases List.mem_cons.1 hd with rfl | hd
      · cases d with
        | list => cases hl
        | word | number => cases hdl
      · obtain rfl := List.mem_singleton.1 hd
        cases hdl
    · cases hl

theorem mapM_ofAtom?_of_list {α : Type} {f : Datum → Option α} (hf : ∀ ds, f (.list ds) = none)
    {l : List Datum} (hlist : ∃ d ∈ l, d.isList) : l.mapM f = none := by
  obtain ⟨d, hd, hdl⟩ := hlist
  induction l with
  | nil => cases hd
  | cons x l ih =>
    rw [List.mapM_cons]
    rcases List.mem_cons.1 hd with rfl | hd
    · cases d with
      | list ds => rw [hf]; rfl
      | word | number => cases hdl
    · rw [ih hd]
      cases f x <;> rfl

/-- A list inside is in the pattern or in the template, and in neither can it be. -/
theorem FlatRule.ofCells?_of_list (hlist : ∃ d ∈ cells, d.isList) : ofCells? cells = none := by
  have hsplit := List.takeWhile_append_dropWhile (p := fun d : Datum => !d.isWord "=") (l := cells)
  obtain ⟨d, hd, hdl⟩ := hlist
  rw [← hsplit] at hd
  unfold ofCells?
  split
  · rename_i first before sign after hbefore hafter
    rw [hbefore, hafter] at hd
    rcases List.mem_append.1 hd with hd | hd
    · have hnone := mapM_ofAtom?_of_list (f := Part.ofAtom?) (fun _ => rfl) ⟨d, hd, hdl⟩
      rw [hnone]
      rfl
    · rcases List.mem_cons.1 hd with rfl | hd
      · -- the cell at the split is a word
        have hsign := List.head_dropWhile_not (fun d : Datum => !d.isWord "=") (l := cells) (by simp [hafter])
        simp only [hafter, List.head_cons, Bool.not_eq_false'] at hsign
        cases d with
        | list => cases hsign
        | word | number => cases hdl
      · have hnone := mapM_ofAtom?_of_list (f := Filler.ofAtom?) (fun _ => rfl) ⟨d, hd, hdl⟩
        rw [hnone]
        cases (first :: before).mapM Part.ofAtom? <;> rfl
  · rfl

theorem Rule.not_ok_of_sign (hsign : ∃ d ∈ cells, d.isWord "=") : ¬ ∃ r, Rule.ofCells cells = .ok r := by
  rintro ⟨r, h⟩
  obtain ⟨d, hd, hw⟩ := hsign
  unfold Rule.ofCells at h
  split at h
  · rename_i pattern replies
    obtain ⟨read, -, h⟩ := bind_eq_ok.1 h
    obtain ⟨replies', hreplies, -⟩ := bind_eq_ok.1 h
    rcases List.mem_cons.1 hd with rfl | hd
    · cases hw
    · refine mapM_ne_ok_of_mem hd ?_ replies' hreplies
      rintro ⟨reply, hr⟩
      cases d with
      | list => cases hw
      | word | number => cases hr
  · cases h

/-- With an equals sign and a list among its cells an item is neither of the forms. -/
theorem Item.not_ok_of_sign (hsign : ∃ d ∈ cells, d.isWord "=") (hlist : ∃ d ∈ cells, d.isList) :
    ¬ ∃ item, Item.ofDatum (.list cells) = .ok item := by
  rintro ⟨item, h⟩
  have hcells : Item.ofDatum (.list cells) = (Rule.ofCells cells).map .rule := by
    show Item.ofCells cells = _
    rw [Item.ofCells, linkTarget?_of_list hlist, FlatRule.ofCells?_of_list hlist]
  rw [hcells] at h
  obtain ⟨r, hr, -⟩ := map_eq_ok.1 h
  exact Rule.not_ok_of_sign hsign ⟨r, hr⟩

end

/-! ### Among the items of an entry -/

namespace Entry

/-- What the cells behind a keyword add to the entry that has been read so far. -/
def readOn (e : Entry) (cells : List Datum) : Except Problem Entry := do
  let (head, items) ← readHead e cells
  return { head with items := ← items.mapM Item.ofDatum }

theorem readOn_list (e : Entry) (cells rest : List Datum) :
    readOn e (.list cells :: rest) =
      (.list cells :: rest).mapM Item.ofDatum >>= fun items => .ok { e with items := items } := rfl

/-- A list is an item, or it is what stands behind a sign of the head. -/
theorem readOn_congr {x y : List Datum} (h : Item.ofDatum (.list x) = Item.ofDatum (.list y)) (e : Entry)
    (before after : List Datum) :
    readOn e (before ++ .list x :: after) = readOn e (before ++ .list y :: after) := by
  induction e, before using readHead.induct with
  | case1 e =>
    rw [List.nil_append, List.nil_append, readOn_list, readOn_list, List.mapM_cons, List.mapM_cons, h]
  | case2 e cells rest =>
    rw [List.cons_append, List.cons_append, readOn_list, readOn_list, ← List.cons_append,
      ← List.cons_append, mapM_middle h]
  | case3 e n rest hsome =>
    simp only [readOn, List.cons_append, readHead, if_pos hsome]
  | case4 e n rest hnone ih =>
    simp only [readOn, List.cons_append, readHead, if_neg hnone]
    exact ih
  | case5 e sign heq w rest ih =>
    simp only [readOn, List.cons_append, readHead_word, if_pos heq]
    exact ih
  | case6 e sign rest heq hrest =>
    simp only [readOn, List.cons_append, readHead_word, if_pos heq]
    rcases rest with _ | ⟨d, rest⟩
    · rfl
    · cases d with
      | word w => exact (hrest w rest rfl).elim
      | number | list => rfl
  | case7 e sign heq hdlist =>
    simp only [readOn, List.cons_append, List.nil_append, readHead_word, if_neg heq, if_pos hdlist]
  | case8 e sign heq hdlist d rest ih =>
    simp only [readOn, List.cons_append, readHead_word, if_neg heq, if_pos hdlist]
    exact ih
  | case9 e sign rest heq hdlist =>
    simp only [readOn, List.cons_append, readHead_word, if_neg heq, if_neg hdlist]

theorem ofCells_congr {x y : List Datum} (h : Item.ofDatum (.list x) = Item.ofDatum (.list y))
    (first : Datum) (before after : List Datum) :
    ofCells (first :: (before ++ .list x :: after)) = ofCells (first :: (before ++ .list y :: after)) := by
  cases first with
  | word keyword =>
    show (readBody keyword _).mapError _ = (readBody keyword _).mapError _
    exact congrArg _ (readOn_congr h { keyword := keyword } before after)
  | number | list => rfl

theorem Head.of_list (cells rest : List Datum) : Head (.list cells :: rest) [] (.list cells :: rest) :=
  .items fun d hd => by cases hd; rfl

/-- A list can be taken for a head and items in one way only. -/
theorem Head.unique {cells items items' : List Datum} {parts parts' : List HeadPart}
    (h : Head cells parts items) (h' : Head cells parts' items') : parts = parts' ∧ items = items' := by
  induction h generalizing parts' with
  | items h =>
    cases h' with
    | items => exact ⟨rfl, rfl⟩
    | replacement | dlist | bare | precedence => cases h _ rfl
  | replacement hs _ ih =>
    cases h' with
    | items h' => cases h' _ rfl
    | replacement _ hrest =>
      obtain ⟨rfl, rfl⟩ := ih hrest
      exact ⟨rfl, rfl⟩
    | dlist hs' => exact (not_equals_of_dlist hs' hs).elim
  | dlist hs _ ih =>
    cases h' with
    | items h' => cases h' _ rfl
    | replacement hs' => exact (not_equals_of_dlist hs hs').elim
    | dlist _ hrest =>
      obtain ⟨rfl, rfl⟩ := ih hrest
      exact ⟨rfl, rfl⟩
  | bare =>
    cases h' with
    | items h' => cases h' _ rfl
    | bare => exact ⟨rfl, rfl⟩
  | precedence _ ih =>
    cases h' with
    | items h' => cases h' _ rfl
    | precedence hrest =>
      obtain ⟨rfl, rfl⟩ := ih hrest
      exact ⟨rfl, rfl⟩

theorem ofCells_eq_ok_iff_of_head {e : Entry} {rest items : List Datum} {parts : List HeadPart}
    (hhead : Head rest parts items) :
    ofCells (.word e.keyword :: rest) = .ok e ↔
      (precedences parts).length ≤ 1 ∧ e.substitute = (replacements parts).getLast? ∧
        e.precedence = (precedences parts).head? ∧ items.mapM Item.ofDatum = .ok e.items := by
  rw [ofCells_eq_ok_iff]
  constructor
  · rintro ⟨rest', parts', items', hcells, hhead', hread⟩
    cases hcells
    obtain ⟨rfl, rfl⟩ := hhead.unique hhead'
    exact hread
  · exact fun hread => ⟨rest, parts, items, rfl, hhead, hread⟩

/-- An item that cannot be read makes its entry one that cannot be read. -/
theorem exists_problem_of_item {keyword : Word} {rest items : List Datum} {parts : List HeadPart}
    {d : Datum} (hhead : Head rest parts items) (hd : d ∈ items) (hitem : ¬ ∃ item, Item.ofDatum d = .ok item) :
    ∃ problem, ofCells (.word keyword :: rest) = .error ⟨keyword.text, problem⟩ := by
  refine exists_problem ?_
  rintro ⟨e, h⟩
  obtain ⟨_, _, _, hcells, -⟩ := ofCells_eq_ok_iff.1 h
  cases hcells
  exact mapM_ne_ok_of_mem hd hitem _ ((ofCells_eq_ok_iff_of_head hhead).1 h).2.2.2

end Entry

/-! ### Among the rules of a memory entry -/

namespace MemoryRules

theorem ofCells_eq_ok_iff {m : MemoryRules} {first : Datum} {keyword : Word} {cells : List Datum} :
    ofCells (first :: .word keyword :: cells) = .ok m ↔
      m.keyword = keyword ∧ cells.mapM readRule = .ok m.rules := by
  have hbody : ofCells (first :: .word keyword :: cells) = .ok m ↔
      ∃ rules, cells.mapM readRule = .ok rules ∧
        (if h : rules.length = 4 then .ok ⟨keyword, rules, h⟩
          else .error (Problem.memoryRuleCount rules.length)) = Except.ok m :=
    mapError_eq_ok.trans bind_eq_ok
  rw [hbody]
  constructor
  · rintro ⟨rules, hrules, h⟩
    split at h
    · cases h
      exact ⟨rfl, hrules⟩
    · cases h
  · obtain ⟨_, rules, hlen⟩ := m
    rintro ⟨rfl, hrules⟩
    exact ⟨rules, hrules, dif_pos hlen⟩

theorem exists_problem (h : ¬ ∃ m, ofCells cells = .ok m) :
    ∃ problem, ofCells cells = .error ⟨"MEMORY", problem⟩ := by
  cases hread : readBody cells.tail with
  | error problem => exact ⟨problem, by rw [ofCells, hread]; rfl⟩
  | ok m => exact (h ⟨m, by rw [ofCells, hread]; rfl⟩).elim

theorem readRule_flat {p t : List Atom} {sign : Word} (hp : p ≠ []) (hsign : ∀ a ∈ p, ¬ a.IsSign)
    (hs : sign ≈ ⟨"="⟩) : readRule (.list (FlatRule.flatCells p sign t)) = .ok (.ofAtoms p t) := by
  rw [readRule, FlatRule.ofCells?_flat hp hsign hs]

theorem not_ok_of_list {cells : List Datum} (hlist : ∃ d ∈ cells, d.isList) :
    ¬ ∃ r, readRule (.list cells) = .ok r := by
  rintro ⟨r, h⟩
  rw [readRule, FlatRule.ofCells?_of_list hlist] at h
  cases h

end MemoryRules

/-! ### The two notations -/

namespace FlatRule

open Entry (Head precedences replacements)

/-- A rule without a list inside is read as the rule that has a list for its pattern and one for its
template, in whatever place an entry has it, and the memory entry reads the same rule. What has a list
beside its equals sign is refused by both. -/
theorem flat_reads_as_nested :
    (∀ p t sign, p ≠ [] → (∀ a ∈ p, ¬ a.IsSign) → sign ≈ ⟨"="⟩ →
      ¬ LooksLinked (t.map Atom.filler) → ¬ LooksRebuilt (t.map Atom.filler) →
      let flat : Datum := .list (flatCells p sign t)
      let nested : Datum := .list (nestedCells p t)
      let r := ofAtoms p t
      (∀ first before after, Entry.ofCells (first :: (before ++ flat :: after)) =
        Entry.ofCells (first :: (before ++ nested :: after))) ∧
      (∀ (e : Entry) rest parts before after, Head rest parts (before ++ flat :: after) →
        (Entry.ofCells (.word e.keyword :: rest) = .ok e ↔
          (precedences parts).length ≤ 1 ∧ e.substitute = (replacements parts).getLast? ∧
          e.precedence = (precedences parts).head? ∧
          ∃ items items', before.mapM Item.ofDatum = .ok items ∧ after.mapM Item.ofDatum = .ok items' ∧
            e.items = items ++ .rule r.toRule :: items')) ∧
      ∀ (m : MemoryRules) first before after,
        MemoryRules.ofCells (first :: .word m.keyword :: (before ++ flat :: after)) = .ok m ↔
          ∃ rules rules', before.mapM MemoryRules.readRule = .ok rules ∧
            after.mapM MemoryRules.readRule = .ok rules' ∧ m.rules = rules ++ r :: rules') ∧
    ∀ p t sign, sign ≈ ⟨"="⟩ → (∃ d ∈ p ++ t, d.isList) →
      let mixed : Datum := .list (p ++ .word sign :: t)
      (∀ keyword rest parts items, Head rest parts items → mixed ∈ items →
        ∃ problem, Entry.ofCells (.word keyword :: rest) = .error ⟨keyword.text, problem⟩) ∧
      ∀ first keyword cells, mixed ∈ cells →
        ∃ problem, MemoryRules.ofCells (first :: .word keyword :: cells) = .error ⟨"MEMORY", problem⟩ := by
  refine ⟨fun p t sign hp hsign hs hlink hpre => ?_, fun p t sign hs hlist => ?_⟩
  · intro flat nested r
    have hflat : Item.ofDatum flat = .ok (.rule r.toRule) := Item.ofDatum_flat hp hsign hs
    have hnested : Item.ofDatum nested = .ok (.rule r.toRule) := Item.ofDatum_nested hp hlink hpre
    refine ⟨Entry.ofCells_congr (hflat.trans hnested.symm), ?_, fun m first before after => ?_⟩
    · intro e rest parts before after hhead
      rw [Entry.ofCells_eq_ok_iff_of_head hhead, mapM_middle_eq_ok_iff hflat]
    · have hrule : MemoryRules.readRule flat = .ok r := MemoryRules.readRule_flat hp hsign hs
      rw [MemoryRules.ofCells_eq_ok_iff, and_iff_right rfl, mapM_middle_eq_ok_iff hrule]
  · intro mixed
    have hmem : ∃ d ∈ p ++ .word sign :: t, d.isList := by
      obtain ⟨d, hd, hdl⟩ := hlist
      refine ⟨d, ?_, hdl⟩
      rcases List.mem_append.1 hd with hd | hd
      · exact List.mem_append_left _ hd
      · exact List.mem_append_right _ (List.mem_cons_of_mem _ hd)
    have hsign : ∃ d ∈ p ++ .word sign :: t, d.isWord "=" :=
      ⟨.word sign, List.mem_append_right _ List.mem_cons_self, decide_eq_true hs⟩
    refine ⟨fun keyword rest parts items hhead hmixed => ?_, fun first keyword cells hmixed => ?_⟩
    · exact Entry.exists_problem_of_item hhead hmixed (Item.not_ok_of_sign hsign hmem)
    · refine MemoryRules.exists_problem ?_
      rintro ⟨m, h⟩
      have hread := (MemoryRules.ofCells_eq_ok_iff.1 h).2
      exact mapM_ne_ok_of_mem hmixed (MemoryRules.not_ok_of_list hmem) _ hread

/-- Further equals signs in the template, behind a link, and in a memory entry; and a choice of words in
what would be a flat rule. -/
theorem flat_reads_as_nested_you :
    let p : List Atom := [.number 0, .word ⟨"YOU"⟩, .number 0]
    let t : List Atom := [.word ⟨"="⟩, .word ⟨"WHY"⟩, .word ⟨"="⟩, .number 3]
    let flat : Datum := .list (flatCells p ⟨"="⟩ t)
    let nested : Datum := .list (nestedCells p t)
    let link : Datum := .list [.ofText "=", .ofText "I"]
    let mixed : Datum := .list [.number 0, .list [.ofText "*", .ofText "A"], .ofText "=", .ofText "HI"]
    let e : Entry := ⟨⟨"YOU"⟩, none, some 2, [.link ⟨"I"⟩, .rule (ofAtoms p t).toRule]⟩
    let m : MemoryRules := ⟨⟨"YOU"⟩, List.replicate 4 (ofAtoms p t), rfl⟩
    Entry.ofCells [.ofText "YOU", .number 2, link, flat] = .ok e ∧
    Entry.ofCells [.ofText "YOU", .number 2, link, nested] = .ok e ∧
    MemoryRules.ofCells [.ofText "MEMORY", .ofText "YOU", flat, flat, flat, flat] = .ok m ∧
    (∃ problem, Entry.ofCells [.ofText "YOU", link, mixed] = .error ⟨"YOU", problem⟩) ∧
    ∃ problem, MemoryRules.ofCells [.ofText "MEMORY", .ofText "YOU", mixed] = .error ⟨"MEMORY", problem⟩ := by
  intro p t flat nested link mixed e m
  obtain ⟨hflat, hmixed⟩ := flat_reads_as_nested
  have hsign : ∀ a ∈ p, ¬ a.IsSign := by
    intro a ha
    rintro ⟨w, rfl, hw⟩
    have hyou : w = ⟨"YOU"⟩ := by simpa [p] using ha
    rw [hyou] at hw
    exact absurd hw (by decide)
  have hlink : ¬ LooksLinked (t.map Atom.filler) := by
    rintro ⟨sign, keyword, h, -⟩
    cases h
  have hpre : ¬ LooksRebuilt (t.map Atom.filler) := by
    rintro ⟨w, h, hw⟩
    cases h
    exact absurd hw (by decide)
  obtain ⟨hsame, hentry, hmemory⟩ := hflat p t ⟨"="⟩ (List.cons_ne_nil _ _) hsign (Setoid.refl _) hlink hpre
  have hread : Entry.ofCells [.ofText "YOU", .number 2, link, flat] = .ok e :=
    (hentry e _ _ [link] [] (.precedence (.of_list _ _))).2
      ⟨by decide, rfl, rfl, [.link ⟨"I"⟩], [], rfl, rfl, rfl⟩
  obtain ⟨hentry', hmemory'⟩ := hmixed [.number 0, .list [.ofText "*", .ofText "A"]] [.ofText "HI"] ⟨"="⟩
    (Setoid.refl _) ⟨_, List.mem_cons_of_mem _ List.mem_cons_self, rfl⟩
  refine ⟨hread, ?_, ?_, ?_, ?_⟩
  · rw [← hread]
    exact (hsame (.ofText "YOU") [.number 2, link] []).symm
  · exact (hmemory m (.ofText "MEMORY") [] [flat, flat, flat]).2 ⟨[], _, rfl, rfl, rfl⟩
  · exact hentry' ⟨"YOU"⟩ [link, mixed] [] [link, mixed] (.of_list _ _)
      (List.mem_cons_of_mem _ List.mem_cons_self)
  · exact hmemory' (.ofText "MEMORY") ⟨"YOU"⟩ [mixed] List.mem_cons_self

end FlatRule

end Dialogue
