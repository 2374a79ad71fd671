import Mathlib.Data.List.Basic

/-!
# Cutting a text by a lexicon

A lexicon sorts lexemes into classes. The longest lexeme that a text starts with is taken off it, and of
the classes that have it the one of the highest rank counts (`Lexicon.Takes`); this goes on to the end of
the text, or to a place where no lexeme starts (`Lexicon.Cuts`). A text is cut in one way only. If the
runs of some characters are lexemes, and other characters never stand beside them in a lexeme, then every
lexeme of such characters is a run as long as it can be in its text (`Lexicon.Cuts.isRun`).
-/

namespace Dialogue

/-- What `p` holds of, between two texts that do not go on with it on either side. -/
structure IsRun (p : Char → Bool) (before run after : List Char) : Prop where
  ne_nil : run ≠ []
  all : ∀ c ∈ run, p c
  before : ∀ c ∈ before.getLast?, p c = false
  after : ∀ c ∈ after.head?, p c = false

structure Lexicon (κ : Type) where
  /-- The class has the lexeme. -/
  Has : κ → List Char → Prop
  /-- Which class counts where several have a lexeme. -/
  rank : κ → Nat
  ne_nil : ∀ k l, Has k l → l ≠ []

namespace Lexicon

variable {κ : Type} {lex : Lexicon κ} {text l l' rest rest' left left' : List Char} {k k' : κ}
  {ls ls' a b : List (κ × List Char)} {p : Char → Bool} {c : Char}

/-- The lexeme `l`, which counts as one of the class `k`, is taken off the text. -/
structure Takes (lex : Lexicon κ) (text : List Char) (k : κ) (l rest : List Char) : Prop where
  split : text = l ++ rest
  has : lex.Has k l
  longest : ∀ k' l' rest', text = l' ++ rest' → lex.Has k' l' → l'.length ≤ l.length
  first : ∀ k', lex.Has k' l → k' = k ∨ lex.rank k' < lex.rank k

/-- The text is cut into lexemes up to the place where no lexeme starts: `left` is left of it. -/
inductive Cuts (lex : Lexicon κ) : List Char → List (κ × List Char) → List Char → Prop
  | stuck {text : List Char} (h : ∀ k l rest, text = l ++ rest → ¬ lex.Has k l) : Cuts lex text [] text
  | take {text : List Char} {k : κ} {l rest : List Char} {ls : List (κ × List Char)} {left : List Char}
      (h : lex.Takes text k l rest) (hrest : Cuts lex rest ls left) : Cuts lex text ((k, l) :: ls) left

/-- The characters of lexemes in a row. -/
def chars (ls : List (κ × List Char)) : List Char := ls.flatMap Prod.snd

@[simp] theorem chars_nil : chars ([] : List (κ × List Char)) = [] := rfl

@[simp] theorem chars_cons (x : κ × List Char) (ls : List (κ × List Char)) :
    chars (x :: ls) = x.2 ++ chars ls := rfl

@[simp] theorem chars_append (a b : List (κ × List Char)) : chars (a ++ b) = chars a ++ chars b :=
  List.flatMap_append

/-- A character of a text in lexemes is in one of them. -/
theorem exists_lexeme {before after : List Char} (h : chars ls = before ++ c :: after) :
    ∃ a k l₁ l₂ b, ls = a ++ (k, l₁ ++ c :: l₂) :: b ∧ before = chars a ++ l₁ := by
  induction ls generalizing before with
  | nil => simp at h
  | cons x ls ih =>
    obtain ⟨k, l⟩ := x
    rw [chars_cons] at h
    rcases List.append_eq_append_iff.1 h with ⟨l₁, rfl, hrest⟩ | ⟨l₂, rfl, hl⟩
    · obtain ⟨a, k', l₁', l₂, b, rfl, rfl⟩ := ih hrest
      exact ⟨(k, l) :: a, k', l₁', l₂, b, rfl, by simp⟩
    · cases l₂ with
      | nil =>
        have hnext : chars ls = [] ++ c :: after := by simpa using hl.symm
        obtain ⟨a, k', l₁', l₂, b, rfl, hb⟩ := ih hnext
        exact ⟨(k, before) :: a, k', l₁', l₂, b, by simp, by simp [← hb]⟩
      | cons d l₂ =>
        obtain ⟨rfl, -⟩ := List.cons.inj hl
        exact ⟨[], k, before, l₂, ls, rfl, rfl⟩

theorem Takes.length_lt (h : lex.Takes text k l rest) : rest.length < text.length := by
  have hne := List.length_pos_iff.2 (lex.ne_nil k l h.has)
  rw [h.split, List.length_append]
  omega

/-! ### One way only -/

theorem Takes.unique (h : lex.Takes text k l rest) (h' : lex.Takes text k' l' rest') :
    k = k' ∧ l = l' ∧ rest = rest' := by
  have hlen : l.length = l'.length :=
    Nat.le_antisymm (h'.longest k l rest h.split h.has) (h.longest k' l' rest' h'.split h'.has)
  obtain ⟨rfl, rfl⟩ := List.append_inj (h.split.symm.trans h'.split) hlen
  refine ⟨?_, rfl, rfl⟩
  rcases h.first k' h'.has with heq | hlt
  · exact heq.symm
  · rcases h'.first k h.has with heq | hlt'
    · exact heq
    · exact absurd hlt (Nat.lt_asymm hlt')

theorem Cuts.unique (h : lex.Cuts text ls left) (h' : lex.Cuts text ls' left') : ls = ls' ∧ left = left' := by
  induction h generalizing ls' with
  | stuck hno =>
    cases h' with
    | stuck => exact ⟨rfl, rfl⟩
    | take htakes => exact (hno _ _ _ htakes.split htakes.has).elim
  | take htakes _ ih =>
    cases h' with
    | stuck hno => exact (hno _ _ _ htakes.split htakes.has).elim
    | take htakes' hrest' =>
      obtain ⟨rfl, rfl, rfl⟩ := htakes.unique htakes'
      obtain ⟨rfl, rfl⟩ := ih hrest'
      exact ⟨rfl, rfl⟩

/-! ### What has been cut -/

namespace Cuts

theorem eq_append (h : lex.Cuts text ls left) : text = chars ls ++ left := by
  induction h with
  | stuck => rfl
  | take htakes _ ih => rw [htakes.split, ih, chars_cons, List.append_assoc]

theorem has (h : lex.Cuts text ls left) : ∀ x ∈ ls, lex.Has x.1 x.2 := by
  induction h with
  | stuck => exact nofun
  | take htakes _ ih =>
    intro x hx
    rcases List.mem_cons.1 hx with rfl | hx
    · exact htakes.has
    · exact ih x hx

/-- Each lexeme is taken off what is left of the text in front of it. -/
theorem takes (h : lex.Cuts text (a ++ (k, l) :: b) left) :
    lex.Takes (l ++ (chars b ++ left)) k l (chars b ++ left) := by
  induction a generalizing text with
  | nil =>
    cases h with
    | take htakes hrest =>
      have htext := htakes.split
      rw [hrest.eq_append] at htakes htext
      rwa [htext] at htakes
  | cons x a ih =>
    cases h with
    | take _ hrest => exact ih hrest

end Cuts

/-- A lexeme has `p` of all its characters or of none. -/
def Parts (lex : Lexicon κ) (p : Char → Bool) : Prop :=
  ∀ k l, lex.Has k l → (∀ c ∈ l, p c) ∨ ∀ c ∈ l, p c = false

/-- A lexeme of such characters does not end before one of them if their runs are lexemes. -/
theorem Takes.not_head (hparts : lex.Parts p) (hruns : ∀ l, l ≠ [] → (∀ c ∈ l, p c) → ∃ k, lex.Has k l)
    (h : lex.Takes text k l rest) {d : Char} (hd : d ∈ l) (hpd : p d) : ∀ c ∈ rest.head?, p c = false := by
  intro c hc
  obtain ⟨rest, rfl⟩ := List.head?_eq_some_iff.1 hc
  rw [Bool.eq_false_iff]
  intro hpc
  have hl : ∀ c ∈ l, p c := by
    rcases hparts k l h.has with hl | hl
    · exact hl
    · rw [hl d hd] at hpd
      cases hpd
  obtain ⟨k', hk'⟩ := hruns (l ++ [c]) (by simp) fun e he => by
    rcases List.mem_append.1 he with he | he
    · exact hl e he
    · rwa [List.mem_singleton.1 he]
  have := h.longest k' (l ++ [c]) rest (by rw [h.split]; simp) hk'
  rw [List.length_append, List.length_singleton] at this
  omega

theorem Cuts.isRun (hparts : lex.Parts p) (hruns : ∀ l, l ≠ [] → (∀ c ∈ l, p c) → ∃ k, lex.Has k l)
    (h : lex.Cuts text (a ++ (k, l) :: b) left) (hl : ∀ c ∈ l, p c) :
    IsRun p (chars a) l (chars b ++ left) := by
  have hne : l ≠ [] := lex.ne_nil k l h.takes.has
  obtain ⟨d, l', rfl⟩ := List.exists_cons_of_ne_nil hne
  refine ⟨hne, hl, fun c hc => ?_, h.takes.not_head hparts hruns List.mem_cons_self (hl d List.mem_cons_self)⟩
  -- the lexeme before this one would have gone on into it
  rcases List.eq_nil_or_concat a with rfl | ⟨a, ⟨k', m⟩, rfl⟩
  · cases hc
  · rw [List.concat_eq_append] at h hc
    have htakes : lex.Takes (m ++ (chars ((k, d :: l') :: b) ++ left)) k' m _ :=
      Cuts.takes (a := a) (by simpa using h)
    have hm : m ≠ [] := lex.ne_nil k' m htakes.has
    have hcm : c ∈ m := by
      rw [chars_append, chars_cons, chars_nil, List.append_nil, List.getLast?_append_of_ne_nil _ hm] at hc
      exact List.mem_of_getLast? hc
    rw [Bool.eq_false_iff]
    intro hpc
    have := htakes.not_head hparts hruns hcm hpc d rfl
    rw [hl d List.mem_cons_self] at this
    cases this

/-! ### Cutting -/

/-- The run that a text starts with is taken off it if it is a lexeme. -/
theorem takes_takeWhile {cs : List Char} (hparts : lex.Parts p) (hc : p c)
    (hk : lex.Has k (c :: cs.takeWhile p))
    (hfirst : ∀ k', lex.Has k' (c :: cs.takeWhile p) → k' = k ∨ lex.rank k' < lex.rank k) :
    lex.Takes (c :: cs) k (c :: cs.takeWhile p) (cs.dropWhile p) := by
  have hsplit : c :: cs = c :: cs.takeWhile p ++ cs.dropWhile p := by
    rw [List.cons_append, List.takeWhile_append_dropWhile]
  refine ⟨hsplit, hk, fun k' l' rest' h hk' => ?_, hfirst⟩
  rcases List.append_eq_append_iff.1 (hsplit.symm.trans h) with ⟨m, rfl, hm⟩ | ⟨m, hl, -⟩
  · -- a longer lexeme would have what the run ends before
    have hall : ∀ d ∈ c :: cs.takeWhile p ++ m, p d := by
      rcases hparts k' _ hk' with hall | hnone
      · exact hall
      · rw [hnone c List.mem_cons_self] at hc
        cases hc
    cases m with
    | nil => simp
    | cons d m =>
      have hd : p d = false := by
        have hhead := List.head?_dropWhile_not p cs
        rw [hm] at hhead
        exact hhead
      rw [hall d (by simp)] at hd
      cases hd
  · rw [hl]
    simp

/-- A character is taken off by itself if no longer lexeme starts with it. -/
theorem takes_of_mark (hk : lex.Has k [c]) (honly : ∀ k' l, lex.Has k' (c :: l) → l = [])
    (hfirst : ∀ k', lex.Has k' [c] → k' = k ∨ lex.rank k' < lex.rank k) :
    lex.Takes (c :: rest) k [c] rest := by
  refine ⟨rfl, hk, fun k' l rest' h hk' => ?_, hfirst⟩
  obtain ⟨d, l, rfl⟩ := List.exists_cons_of_ne_nil (lex.ne_nil k' l hk')
  obtain ⟨rfl, -⟩ := List.cons.inj h
  obtain rfl := honly k' l hk'
  exact Nat.le_refl 1

theorem cuts_nil : lex.Cuts [] [] [] :=
  .stuck fun k l _ h hk => lex.ne_nil k l hk (List.append_eq_nil_iff.1 h.symm).1

end Lexicon

end Dialogue
