import Dialogue.Proofs.Loading

/-!
# The head of an entry

`Entry.Head` is the grammar of what may stand between the keyword of an entry and its items. Its parts
come in any order, and an entry is read if they have this form and at most one precedence is among them
(`Entry.ofCells_eq_ok_iff`). That is more than is documented: of several replacements the last one
counts, and what stands behind an annotation is passed over even where it is no list. Nothing is lost
from a head in the documented form.
-/

namespace Dialogue

namespace Entry

inductive HeadPart where
  | replacement (w : Word)
  /-- An annotation, with the cell behind it. -/
  | dlist (operand : Option Datum)
  | precedence (n : UInt32)

namespace HeadPart

def replacement? : HeadPart → Option Word
  | .replacement w => some w
  | _ => none

def dlist? : HeadPart → Option (Option Datum)
  | .dlist operand => some operand
  | _ => none

def precedence? : HeadPart → Option UInt32
  | .precedence n => some n
  | _ => none

theorem replacement?_eq_some_iff {p : HeadPart} {w : Word} :
    p.replacement? = some w ↔ p = .replacement w := by
  cases p <;> simp [replacement?]

theorem precedence?_eq_some_iff {p : HeadPart} {n : UInt32} :
    p.precedence? = some n ↔ p = .precedence n := by
  cases p <;> simp [precedence?]

end HeadPart

def replacements (parts : List HeadPart) : List Word := parts.filterMap HeadPart.replacement?

def dlists (parts : List HeadPart) : List (Option Datum) := parts.filterMap HeadPart.dlist?

def precedences (parts : List HeadPart) : List UInt32 := parts.filterMap HeadPart.precedence?

theorem mem_replacements {parts : List HeadPart} {w : Word} :
    w ∈ replacements parts ↔ .replacement w ∈ parts := by
  simp only [replacements, List.mem_filterMap, HeadPart.replacement?_eq_some_iff, exists_eq_right]

theorem mem_precedences {parts : List HeadPart} {n : UInt32} :
    n ∈ precedences parts ↔ .precedence n ∈ parts := by
  simp only [precedences, List.mem_filterMap, HeadPart.precedence?_eq_some_iff, exists_eq_right]

/-- `Head cells parts items`: the cells are those of the parts in a row and then the items, the first of
which is a list. -/
inductive Head : List Datum → List HeadPart → List Datum → Prop
  | items {items : List Datum} (h : ∀ d ∈ items.head?, d.isList) : Head items [] items
  | replacement {sign w : Word} {rest items : List Datum} {parts : List HeadPart} (hs : sign ≈ ⟨"="⟩)
      (h : Head rest parts items) :
      Head (.word sign :: .word w :: rest) (.replacement w :: parts) items
  | dlist {sign : Word} {d : Datum} {rest items : List Datum} {parts : List HeadPart}
      (hs : sign ≈ ⟨"DLIST"⟩) (h : Head rest parts items) :
      Head (.word sign :: d :: rest) (.dlist (some d) :: parts) items
  /-- The last cell of all may be an annotation with nothing behind it. -/
  | bare {sign : Word} (hs : sign ≈ ⟨"DLIST"⟩) : Head [.word sign] [.dlist none] []
  | precedence {n : UInt32} {rest items : List Datum} {parts : List HeadPart}
      (h : Head rest parts items) : Head (.number n :: rest) (.precedence n :: parts) items

/-- The documented form: an annotation has a list behind it, and no part is there twice. -/
structure Documented (parts : List HeadPart) : Prop where
  tagged : ∀ operand ∈ dlists parts, ∃ tags, operand = some (.list tags)
  replacement_once : (replacements parts).length ≤ 1
  dlist_once : (dlists parts).length ≤ 1
  precedence_once : (precedences parts).length ≤ 1

variable {e head : Entry} {cells rest items : List Datum} {parts : List HeadPart}

theorem not_equals_of_dlist {sign : Word} (h : sign ≈ ⟨"DLIST"⟩) : ¬ sign ≈ ⟨"="⟩ := by
  intro heq
  have hne : ¬ (⟨"DLIST"⟩ : Word) ≈ ⟨"="⟩ := by decide
  exact hne (Setoid.trans (Setoid.symm h) heq)

/-! ### Reading a head -/

/-- The last replacement counts, and the entry has no precedence before one is written. -/
theorem readHead_of_head (h : Head cells parts items)
    (hp : (e.precedence.toList ++ precedences parts).length ≤ 1) :
    readHead e cells = .ok ({ e with
      substitute := (replacements parts).getLast?.or e.substitute
      precedence := (e.precedence.toList ++ precedences parts).head? }, items) := by
  induction h generalizing e with
  | @items items h =>
    have hread : readHead e items = .ok (e, items) := by
      rcases items with _ | ⟨d, items⟩
      · rfl
      · cases d with
        | list cells => rfl
        | word | number => cases h _ rfl
    simpa [replacements, precedences] using hread
  | @replacement sign w rest items parts hs h ih =>
    rw [readHead_word, if_pos hs]
    refine (ih (e := { e with substitute := some w }) hp).trans ?_
    have hlast : (replacements (.replacement w :: parts)).getLast?.or e.substitute =
        (replacements parts).getLast?.or (some w) := by
      show (w :: replacements parts).getLast?.or e.substitute = _
      rw [List.getLast?_cons]
      cases (replacements parts).getLast? <;> rfl
    rw [hlast]
    rfl
  | dlist hs h ih =>
    rw [readHead_word, if_neg (not_equals_of_dlist hs), if_pos hs]
    exact ih hp
  | @bare sign hs =>
    rw [readHead_word, if_neg (not_equals_of_dlist hs), if_pos hs]
    simp [replacements, precedences, HeadPart.replacement?, HeadPart.precedence?]
  | @precedence n rest items parts h ih =>
    have hlen : (e.precedence.toList ++ n :: precedences parts).length ≤ 1 := hp
    have hnone : e.precedence = none := by
      cases he : e.precedence with
      | none => rfl
      | some m =>
        rw [he] at hlen
        simp at hlen
    rw [hnone] at hlen
    rw [readHead, if_neg (by simp [hnone])]
    refine (ih (e := { e with precedence := some n }) hlen).trans ?_
    rw [hnone]
    rfl

theorem exists_head_of_readHead (h : readHead e cells = .ok (head, items)) :
    ∃ parts, Head cells parts items ∧ (e.precedence.toList ++ precedences parts).length ≤ 1 := by
  have hstart : (e.precedence.toList ++ precedences []).length ≤ 1 := by
    cases e.precedence <;> simp [precedences]
  induction e, cells using readHead.induct with
  | case1 e =>
    cases h
    exact ⟨[], .items nofun, hstart⟩
  | case2 e cells rest =>
    cases h
    exact ⟨[], .items (by simp [Datum.isList]), hstart⟩
  | case3 e n rest hsome =>
    rw [readHead, if_pos hsome] at h
    cases h
  | case4 e n rest hnone ih =>
    rw [readHead, if_neg hnone] at h
    obtain ⟨parts, hhead, hlen⟩ := ih h (by simp [precedences])
    refine ⟨.precedence n :: parts, .precedence hhead, ?_⟩
    rw [Option.not_isSome_iff_eq_none.1 hnone]
    exact hlen
  | case5 e sign heq w rest ih =>
    rw [readHead_word, if_pos heq] at h
    obtain ⟨parts, hhead, hlen⟩ := ih h hstart
    exact ⟨.replacement w :: parts, .replacement heq hhead, hlen⟩
  | case6 e sign rest heq hrest =>
    rw [readHead_word, if_pos heq] at h
    rcases rest with _ | ⟨d, rest⟩
    · cases h
    · cases d with
      | word w => exact (hrest w rest rfl).elim
      | number | list => cases h
  | case7 e sign heq hdlist =>
    rw [readHead_word, if_neg heq, if_pos hdlist] at h
    cases h
    exact ⟨[.dlist none], .bare hdlist, hstart⟩
  | case8 e sign heq hdlist d rest ih =>
    rw [readHead_word, if_neg heq, if_pos hdlist] at h
    obtain ⟨parts, hhead, hlen⟩ := ih h hstart
    exact ⟨.dlist (some d) :: parts, .dlist hdlist hhead, hlen⟩
  | case9 e sign rest heq hdlist =>
    rw [readHead_word, if_neg heq, if_neg hdlist] at h
    cases h

/-! ### Reading an entry -/

theorem ofCells_of_head {keyword : Word} (h : ofCells (.word keyword :: rest) = .ok e)
    (hparts : Head rest parts items) (hlen : (precedences parts).length ≤ 1) :
    e.keyword = keyword ∧ e.substitute = (replacements parts).getLast? ∧
      e.precedence = (precedences parts).head? ∧ items.mapM Item.ofDatum = .ok e.items := by
  have hbody : readBody keyword rest = .ok e := mapError_eq_ok.1 h
  obtain ⟨⟨head, items'⟩, hhead, hitems⟩ := bind_eq_ok.1 hbody
  obtain ⟨read, hread, hitems⟩ := bind_eq_ok.1 hitems
  cases hitems
  rw [readHead_of_head (e := { keyword := keyword }) hparts hlen] at hhead
  cases hhead
  exact ⟨rfl, Option.or_none, rfl, hread⟩

theorem ofCells_eq_ok_iff : ofCells cells = .ok e ↔ ∃ rest parts items,
    cells = .word e.keyword :: rest ∧ Head rest parts items ∧ (precedences parts).length ≤ 1 ∧
      e.substitute = (replacements parts).getLast? ∧ e.precedence = (precedences parts).head? ∧
      items.mapM Item.ofDatum = .ok e.items := by
  constructor
  · intro h
    rcases cells with _ | ⟨d, rest⟩
    · cases h
    · cases d with
      | number | list => cases h
      | word keyword =>
        have hbody : readBody keyword rest = .ok e := mapError_eq_ok.1 h
        obtain ⟨⟨head, items⟩, hhead, -⟩ := bind_eq_ok.1 hbody
        obtain ⟨parts, hparts, hlen⟩ := exists_head_of_readHead hhead
        obtain ⟨rfl, hsub, hprec, hread⟩ := ofCells_of_head h hparts hlen
        exact ⟨rest, parts, items, rfl, hparts, hlen, hsub, hprec, hread⟩
  · obtain ⟨keyword, substitute, precedence, read⟩ := e
    rintro ⟨rest, parts, items, rfl, hparts, hlen, rfl, rfl, hread⟩
    have hhead := readHead_of_head (e := { keyword := keyword }) hparts hlen
    rw [Option.or_none] at hhead
    have hbody : readBody keyword rest = .ok ⟨keyword, _, _, read⟩ :=
      bind_eq_ok.2 ⟨_, hhead, bind_eq_ok.2 ⟨read, hread, rfl⟩⟩
    exact mapError_eq_ok.2 hbody

/-- A list that is refused is refused in the name of its first cell. -/
theorem exists_problem (h : ¬ ∃ e, ofCells cells = .ok e) :
    ∃ problem, ofCells cells = .error ⟨(cells.head?.map Datum.text).getD "()", problem⟩ := by
  rcases cells with _ | ⟨d, rest⟩
  · exact ⟨_, rfl⟩
  · cases d with
    | number | list => exact ⟨_, rfl⟩
    | word keyword =>
      have hbody : ofCells (.word keyword :: rest) =
          (readBody keyword rest).mapError (Malformed.mk keyword.text) := rfl
      cases hread : readBody keyword rest with
      | error problem => exact ⟨problem, by rw [hbody, hread]; rfl⟩
      | ok e => exact (h ⟨e, by rw [hbody, hread]; rfl⟩).elim

/-- What is there once is the last and the first. -/
theorem getLast?_of_length_le_one {α : Type} {l : List α} (h : l.length ≤ 1) (a : α) :
    (l.getLast? = some a ↔ a ∈ l) ∧ (l.head? = some a ↔ a ∈ l) := by
  rcases l with _ | ⟨b, _ | ⟨c, l⟩⟩
  · simp
  · simp [eq_comm]
  · simp only [List.length_cons] at h
    omega

/-- An entry is read if its head is made of replacements, annotations and one precedence at most, and
otherwise it is refused. What a head in the documented form says is in the entry. But of several
replacements the entry has the last one only, and nothing of what stands behind an annotation. -/
theorem head_is_read (cells : List Datum) :
    (∀ e, ofCells cells = .ok e ↔ ∃ rest parts items,
      cells = .word e.keyword :: rest ∧ Head rest parts items ∧ (precedences parts).length ≤ 1 ∧
        e.substitute = (replacements parts).getLast? ∧ e.precedence = (precedences parts).head? ∧
        items.mapM Item.ofDatum = .ok e.items) ∧
    (∀ e rest parts items, ofCells cells = .ok e → cells = .word e.keyword :: rest →
      Head rest parts items → Documented parts →
      (∀ w, e.substitute = some w ↔ .replacement w ∈ parts) ∧
        ∀ n, e.precedence = some n ↔ .precedence n ∈ parts) ∧
    ((¬ ∃ e, ofCells cells = .ok e) →
      ∃ problem, ofCells cells = .error ⟨(cells.head?.map Datum.text).getD "()", problem⟩) := by
  refine ⟨fun e => ofCells_eq_ok_iff, ?_, exists_problem⟩
  intro e rest parts items h hcells hparts hdoc
  rw [hcells] at h
  obtain ⟨-, hsub, hprec, -⟩ := ofCells_of_head h hparts hdoc.precedence_once
  rw [hsub, hprec]
  constructor
  · intro w
    rw [← mem_replacements]
    exact (getLast?_of_length_le_one hdoc.replacement_once w).1
  · intro n
    rw [← mem_precedences]
    exact (getLast?_of_length_le_one hdoc.precedence_once n).2

/-- A documented head, in another order than the documented one and with a small annotation. -/
theorem head_is_read_feel :
    let cells := [.ofText "FEEL", .number 2, .ofText "dlist", .list [.ofText "/BELIEF"], .ofText "=",
      .ofText "=", .list [.ofText "=", .ofText "THINK"]]
    let e : Entry := ⟨⟨"FEEL"⟩, some ⟨"="⟩, some 2, [.link ⟨"THINK"⟩]⟩
    let parts := [.precedence 2, .dlist (some (.list [.ofText "/BELIEF"])), .replacement ⟨"="⟩]
    let items := [.list [.ofText "=", .ofText "THINK"]]
    Head cells.tail parts items ∧ Documented parts ∧ ofCells cells = .ok e ∧
      (∀ w, e.substitute = some w ↔ .replacement w ∈ parts) ∧
      (∀ n, e.precedence = some n ↔ .precedence n ∈ parts) ∧
      (¬ ∃ e, ofCells (.ofText "FEEL" :: .number 1 :: cells.tail) = .ok e) ∧
      ∃ problem, ofCells (.ofText "FEEL" :: .number 1 :: cells.tail) = .error ⟨"FEEL", problem⟩ := by
  intro cells e parts items
  have hhead : Head cells.tail parts items :=
    .precedence (.dlist (by decide) (.replacement (by decide)
      (.items (by simp [Datum.isList]))))
  have hdoc : Documented parts := ⟨by simp [dlists, HeadPart.dlist?, parts], by decide, by decide, by decide⟩
  obtain ⟨hiff, hkeeps, -⟩ := head_is_read cells
  have hread : ofCells cells = .ok e :=
    (hiff e).2 ⟨cells.tail, parts, items, rfl, hhead, by decide, rfl, rfl, rfl⟩
  obtain ⟨hsub, hprec⟩ := hkeeps e cells.tail parts items hread rfl hhead hdoc
  have hrefused : ¬ ∃ e, ofCells (.ofText "FEEL" :: .number 1 :: cells.tail) = .ok e := by
    rintro ⟨e, he⟩
    cases he
  exact ⟨hhead, hdoc, hread, hsub, hprec, hrefused, (head_is_read _).2.2 hrefused⟩

/-- A precedence that is passed over as an annotation, and a replacement that does not count. -/
theorem head_is_lost :
    (∃ e, ofCells [.ofText "X", .ofText "DLIST", .number 5] = .ok e ∧ e.precedence = none ∧
      ∀ parts items, Head [.ofText "DLIST", .number 5] parts items → ¬ Documented parts) ∧
    ∃ e, ofCells [.ofText "X", .ofText "=", .ofText "A", .ofText "=", .ofText "B"] = .ok e ∧
      e.substitute = some ⟨"B"⟩ ∧
      ∀ parts items, Head [.ofText "=", .ofText "A", .ofText "=", .ofText "B"] parts items →
        ¬ Documented parts := by
  have hsign : ¬ (⟨"="⟩ : Word) ≈ ⟨"DLIST"⟩ := by decide
  refine ⟨⟨⟨⟨"X"⟩, none, none, []⟩, rfl, rfl, ?_⟩, ⟨⟨⟨"X"⟩, some ⟨"B"⟩, none, []⟩, rfl, rfl, ?_⟩⟩
  · intro parts items h hd
    cases h with
    | items h => cases h _ rfl
    | dlist hs h =>
      obtain ⟨tags, htags⟩ := hd.tagged (some (.number 5)) List.mem_cons_self
      cases htags
  · intro parts items h hd
    cases h with
    | items h => cases h _ rfl
    | dlist hs h => exact hsign hs
    | replacement hs h =>
      cases h with
      | items h => cases h _ rfl
      | dlist hs h => exact hsign hs
      | replacement hs h =>
        have := hd.replacement_once
        simp [replacements, HeadPart.replacement?] at this

end Entry

end Dialogue
