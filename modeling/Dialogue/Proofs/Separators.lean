import Dialogue.Proofs.Capitals
import Dialogue.Proofs.Lexicon
import Dialogue.Proofs.Tokens

/-!
# What separates words

A line is cut by its lexicon, of which the longest lexeme is taken each time, into gaps, stops and runs of
letters. Nothing is left of it, and the lexemes that are no gap are its pieces (`Sentence.exists_cuts`). So
a line keeps all characters but those of its gaps (`Sentence.flatten_kept`), and each of its words is a stop
or a run as long as it can be (`Sentence.isRun_of_mem_kept`).
-/

namespace Dialogue.Sentence

open Text

/-! ### The lexicon of a line -/

inductive Kind where
  | gap
  | period
  | comma
  | run
  deriving DecidableEq

def Kind.Has : Kind → List Char → Prop
  | .gap, l => l ≠ [] ∧ ∀ c ∈ l, isDropped c
  | .period, l => l = ['.']
  | .comma, l => l = [',']
  | .run, l => l ≠ [] ∧ ∀ c ∈ l, isLetter c

/-- No lexeme is in two of the classes, so that none of them comes first. -/
def lexicon : Lexicon Kind where
  Has := Kind.Has
  rank _ := 0
  ne_nil
    | .gap, _, h => h.1
    | .period, _, h => by rw [h]; nofun
    | .comma, _, h => by rw [h]; nofun
    | .run, _, h => h.1

/-- The lexemes that make words. -/
def kept (ls : List (Kind × List Char)) : List (List Char) :=
  (ls.filter (·.1 ≠ .gap)).map Prod.snd

variable {c : Char} {cs ds l : List Char} {ls : List (Kind × List Char)} {k k' : Kind}

theorem isLetter_of_isDropped (h : isDropped c) : isLetter c = false := by simp [isLetter, h]

theorem isLetter_of_isStop (h : isStop c) : isLetter c = false := by simp [isLetter, h]

theorem not_isDropped_of_isLetter (h : isLetter c) : isDropped c = false := by
  simpa using (Bool.and_eq_true_iff.1 h).1

theorem isStop_iff : isStop c ↔ c = '.' ∨ c = ',' := by simp [isStop]

/-- A lexeme is all letters or has none. -/
theorem parts_isLetter : lexicon.Parts isLetter := fun k l h => by
  cases k with
  | gap => exact .inr fun c hc => isLetter_of_isDropped (h.2 c hc)
  | period =>
    obtain rfl : l = ['.'] := h
    exact .inr (List.forall_mem_singleton.2 rfl)
  | comma =>
    obtain rfl : l = [','] := h
    exact .inr (List.forall_mem_singleton.2 rfl)
  | run => exact .inl h.2

theorem parts_isDropped : lexicon.Parts isDropped := fun k l h => by
  cases k with
  | gap => exact .inl h.2
  | period =>
    obtain rfl : l = ['.'] := h
    exact .inr (List.forall_mem_singleton.2 rfl)
  | comma =>
    obtain rfl : l = [','] := h
    exact .inr (List.forall_mem_singleton.2 rfl)
  | run => exact .inr fun c hc => not_isDropped_of_isLetter (h.2 c hc)

/-- What a lexeme starts with tells its class. -/
theorem Kind.eq_of_has (h : k.Has (c :: l)) :
    k = if isDropped c then .gap else if c = '.' then .period else if c = ',' then .comma else .run := by
  cases k with
  | gap => rw [if_pos (h.2 c List.mem_cons_self)]
  | period => obtain ⟨rfl, -⟩ := List.cons.inj h; rfl
  | comma => obtain ⟨rfl, -⟩ := List.cons.inj h; rfl
  | run =>
    have hc := h.2 c List.mem_cons_self
    have hs : ¬ isStop c := fun hs => by rw [isLetter_of_isStop hs] at hc; cases hc
    rw [isStop_iff, not_or] at hs
    rw [if_neg (by simp [not_isDropped_of_isLetter hc]), if_neg hs.1, if_neg hs.2]

theorem Kind.unique (h : k.Has l) (h' : k'.Has l) : k' = k := by
  obtain ⟨c, l, rfl⟩ := List.exists_cons_of_ne_nil (lexicon.ne_nil k l h)
  rw [eq_of_has h, eq_of_has h']

theorem pieces_dropWhile (cs : List Char) : pieces (cs.dropWhile isDropped) = pieces cs := by
  induction cs with
  | nil => rfl
  | cons c cs ih =>
    by_cases hc : isDropped c
    · rw [List.dropWhile_cons_of_pos hc, ih, pieces_cons, if_pos hc]
    · rw [List.dropWhile_cons_of_neg hc]

/-- A stop is a lexeme by itself. -/
theorem Kind.eq_nil_of_isStop (hs : isStop c) (h : k.Has (c :: l)) : l = [] := by
  cases k with
  | gap =>
    have hd := h.2 c List.mem_cons_self
    rcases isStop_iff.1 hs with rfl | rfl <;> cases hd
  | period => exact (List.cons.inj h).2
  | comma => exact (List.cons.inj h).2
  | run =>
    have hc := h.2 c List.mem_cons_self
    rw [isLetter_of_isStop hs] at hc
    cases hc

/-- A lexeme is taken off the front of any text, and a piece with it unless it is a gap. -/
theorem exists_takes (c : Char) (cs : List Char) :
    ∃ k l rest, lexicon.Takes (c :: cs) k l rest ∧ pieces (c :: cs) = kept [(k, l)] ++ pieces rest := by
  by_cases hd : isDropped c
  · have hk : Kind.gap.Has (c :: cs.takeWhile isDropped) :=
      ⟨List.cons_ne_nil _ _, Source.forall_takeWhile hd⟩
    have htakes : lexicon.Takes (c :: cs) .gap _ _ :=
      Lexicon.takes_takeWhile parts_isDropped hd hk fun k' h => .inl (Kind.unique hk h)
    refine ⟨.gap, _, _, htakes, ?_⟩
    rw [pieces_cons, if_pos hd, pieces_dropWhile]
    rfl
  · by_cases hs : isStop c
    · obtain ⟨k, hk, hne⟩ : ∃ k : Kind, k.Has [c] ∧ k ≠ .gap := by
        rcases isStop_iff.1 hs with rfl | rfl
        · exact ⟨.period, rfl, by decide⟩
        · exact ⟨.comma, rfl, by decide⟩
      refine ⟨k, [c], cs, Lexicon.takes_of_mark hk (fun k' l => Kind.eq_nil_of_isStop hs)
        fun k' h => .inl (Kind.unique hk h), ?_⟩
      rw [pieces_cons, if_neg hd, if_pos hs]
      simp [kept, hne]
    · have hc : isLetter c := by simp [isLetter, hd, hs]
      have hk : Kind.run.Has (c :: cs.takeWhile isLetter) :=
        ⟨List.cons_ne_nil _ _, Source.forall_takeWhile hc⟩
      have htakes : lexicon.Takes (c :: cs) .run _ _ :=
        Lexicon.takes_takeWhile parts_isLetter hc hk fun k' h => .inl (Kind.unique hk h)
      refine ⟨.run, _, _, htakes, ?_⟩
      rw [pieces_cons, if_neg hd, if_neg hs]
      rfl

theorem kept_append (a b : List (Kind × List Char)) : kept (a ++ b) = kept a ++ kept b := by
  rw [kept, List.filter_append, List.map_append]
  rfl

/-- A lexeme starts at any place of a line, and those that are no gap are the pieces of the line. -/
theorem exists_cuts (cs : List Char) : ∃ ls, lexicon.Cuts cs ls [] ∧ pieces cs = kept ls := by
  induction hn : cs.length using Nat.strongRecOn generalizing cs with
  | ind n ih =>
    cases cs with
    | nil => exact ⟨[], Lexicon.cuts_nil, pieces_nil⟩
    | cons c cs =>
      obtain ⟨k, l, rest, htakes, hpieces⟩ := exists_takes c cs
      obtain ⟨ls, hcuts, hrest⟩ := ih rest.length (by rw [← hn]; exact htakes.length_lt) rest rfl
      exact ⟨(k, l) :: ls, .take htakes hcuts, by rw [hpieces, hrest, ← kept_append]; rfl⟩

/-! ### What becomes of the lexemes -/

theorem mem_kept {piece : List Char} : piece ∈ kept ls ↔ ∃ k, (k, piece) ∈ ls ∧ k ≠ .gap := by
  simp [kept]

theorem flatten_kept (h : ∀ x ∈ ls, x.1.Has x.2) :
    (kept ls).flatten = (Lexicon.chars ls).filter fun c => !isDropped c := by
  induction ls with
  | nil => rfl
  | cons x ls ih =>
    obtain ⟨hx, hls⟩ := List.forall_mem_cons.1 h
    rw [Lexicon.chars_cons, List.filter_append, ← ih hls, ← List.singleton_append, kept_append,
      List.flatten_append]
    congr 1
    by_cases hk : x.1 = .gap
    · rw [hk] at hx
      rw [List.filter_eq_nil_iff.2 fun c hc => by simp [hx.2 c hc]]
      simp [kept, hk]
    · have hnone : ∀ c ∈ x.2, isDropped c = false := by
        rcases parts_isDropped x.1 x.2 hx with hall | hnone
        · have hgap : Kind.gap.Has x.2 := ⟨lexicon.ne_nil _ _ hx, hall⟩
          exact absurd (Kind.unique hx hgap).symm hk
        · exact hnone
      rw [List.filter_eq_self.2 fun c hc => by simp [hnone c hc]]
      simp [kept, hk]

theorem upperAll_flatten (ps : List (List Char)) : upperAll ps.flatten = (ps.map upperAll).flatten := by
  induction ps with
  | nil => rfl
  | cons piece ps ih => rw [List.flatten_cons, upperAll_append, ih]; rfl

/-- A piece is a stop, or a run of letters as long as it can be in the line. -/
theorem isRun_of_mem_kept {left piece : List Char} (h : lexicon.Cuts cs ls left) (hp : piece ∈ kept ls) :
    piece = ['.'] ∨ piece = [','] ∨
      ∃ before after, cs = before ++ piece ++ after ∧ IsRun isLetter before piece after := by
  obtain ⟨k, hmem, hk⟩ := mem_kept.1 hp
  cases k with
  | gap => exact absurd rfl hk
  | period => exact .inl (h.has _ hmem)
  | comma => exact .inr (.inl (h.has _ hmem))
  | run =>
    obtain ⟨a, b, rfl⟩ := List.append_of_mem hmem
    refine .inr (.inr ⟨Lexicon.chars a, Lexicon.chars b ++ left, ?_, ?_⟩)
    · rw [h.eq_append]
      simp
    · exact h.isRun parts_isLetter (fun l hne hl => ⟨.run, hne, hl⟩) (h.has _ hmem).2

/-! ### Lines joined -/

theorem pieces_append (h : ∀ d ∈ ds.head?, isLetter d = false) (cs : List Char) :
    pieces (cs ++ ds) = pieces cs ++ pieces ds := by
  induction cs using pieces.induct with
  | case1 => rw [pieces_nil]; rfl
  | case2 c cs hd ih => rw [List.cons_append, pieces_cons, if_pos hd, ih, pieces_cons, if_pos hd]
  | case3 c cs hd hs ih =>
    rw [List.cons_append, pieces_cons, if_neg hd, if_pos hs, ih, pieces_cons, if_neg hd, if_pos hs]
    rfl
  | case4 c cs hd hs ih =>
    obtain ⟨htake, hdrop⟩ := Source.takeWhile_append_of_head h cs
    rw [List.cons_append, pieces_cons, if_neg hd, if_neg hs, htake, hdrop, ih, pieces_cons, if_neg hd,
      if_neg hs]
    rfl

theorem pieces_append_gap (hc : isDropped c) (cs ds : List Char) :
    pieces (cs ++ c :: ds) = pieces cs ++ pieces ds := by
  rw [pieces_append (by rintro d ⟨⟩; exact isLetter_of_isDropped hc), pieces_cons, if_pos hc]

/-- A piece is one piece by itself. -/
theorem pieces_of_mem {piece : List Char} (h : piece ∈ pieces cs) : pieces piece = [piece] := by
  obtain ⟨ls, hcuts, hpieces⟩ := exists_cuts cs
  rw [hpieces] at h
  rcases isRun_of_mem_kept hcuts h with rfl | rfl | ⟨before, after, -, hrun⟩
  · simp [pieces_cons, isDropped, isBlank, isStop]
  · simp [pieces_cons, isDropped, isBlank, isStop]
  · obtain ⟨c, l, rfl⟩ := List.exists_cons_of_ne_nil hrun.ne_nil
    obtain ⟨hc, hl⟩ := List.forall_mem_cons.1 hrun.all
    have hs : ¬ isStop c := fun hs => by rw [isLetter_of_isStop hs] at hc; cases hc
    rw [pieces_cons, if_neg (by simp [not_isDropped_of_isLetter hc]), if_neg hs,
      List.takeWhile_eq_self_iff.2 hl, List.dropWhile_eq_nil_iff.2 hl, pieces_nil]

theorem pieces_intercalate {ps : List (List Char)} (h : ∀ piece ∈ ps, pieces piece = [piece]) :
    pieces ([' '].intercalate ps) = ps := by
  induction ps with
  | nil => exact pieces_nil
  | cons piece ps ih =>
    obtain ⟨hpiece, hps⟩ := List.forall_mem_cons.1 h
    cases ps with
    | nil => rw [List.intercalate_singleton, hpiece]
    | cons next ps =>
      rw [List.intercalate_cons_cons, List.append_assoc, List.singleton_append,
        pieces_append_gap (by decide), hpiece, ih hps]
      rfl

/-- The words of a line, joined by spaces, are the words again. -/
theorem words_phrase (line : String) : words (Word.phrase (words line)) = words line := by
  have htext : (Word.phrase (words line)).toList =
      [' '].intercalate ((pieces line.toList).map upperAll) := by
    simp [Word.phrase, words, Function.comp_def]
  have hpieces : ∀ piece ∈ (pieces line.toList).map upperAll, pieces piece = [piece] := by
    rw [List.forall_mem_map]
    intro piece hp
    rw [pieces_upperAll, pieces_of_mem hp]
    rfl
  rw [words, htext, pieces_intercalate hpieces, words, List.map_map]
  exact List.map_congr_left fun piece _ => by simp

theorem words_append_space (line other : String) :
    words (line ++ " " ++ other) = words line ++ words other := by
  have htext : (line ++ " " ++ other).toList = line.toList ++ ' ' :: other.toList := by simp
  rw [words, htext, pieces_append_gap (by decide), List.map_append]
  rfl

/-! ### The words of a line -/

/-- A line is cut into lexemes to its end, in one way only, and keeps all but its gaps: its words make
up the line in capitals without what is dropped, and each of them is a stop or a run of letters as long
as it can be. They are the words of the line in capitals and of the words joined by spaces; and lines
joined by a space have the words of the one and then of the other. -/
theorem words_keep_all_but_gaps (line : String) :
    (∃ ls, (∀ ls' left, lexicon.Cuts line.toList ls' left ↔ ls' = ls ∧ left = []) ∧
        words line = (kept ls).map fun piece => ⟨upperText (String.ofList piece)⟩) ∧
      String.join ((words line).map Word.text) =
        upperText (String.ofList (line.toList.filter fun c => !isDropped c)) ∧
      (∀ w ∈ words line, w.text = "." ∨ w.text = "," ∨
        (∀ c ∈ w.text.toList, isLetter c) ∧
          ∃ before run after, line.toList = before ++ run ++ after ∧ IsRun isLetter before run after ∧
            w.text = upperText (String.ofList run)) ∧
      words (Word.phrase (words line)) = words line ∧
      words (upperText line) = words line ∧
      ∀ other, words (line ++ " " ++ other) = words line ++ words other := by
  obtain ⟨ls, hcuts, hpieces⟩ := exists_cuts line.toList
  have hwords : words line = (kept ls).map fun piece => ⟨upperText (String.ofList piece)⟩ := by
    rw [words, hpieces]
    simp [upperText]
  refine ⟨⟨ls, fun ls' left => ⟨fun h => ?_, ?_⟩, hwords⟩, ?_, ?_, words_phrase line,
    words_upperText line, words_append_space line⟩
  · exact h.unique hcuts
  · rintro ⟨rfl, rfl⟩
    exact hcuts
  · have hchars : Lexicon.chars ls = line.toList := by rw [hcuts.eq_append, List.append_nil]
    rw [← String.toList_inj, toList_upperText, String.toList_ofList, ← hchars, ← flatten_kept hcuts.has,
      upperAll_flatten, String.toList_join, hwords]
    simp [List.flatMap_def, Function.comp_def]
  · rw [hwords, List.forall_mem_map]
    intro piece hp
    rcases isRun_of_mem_kept hcuts hp with rfl | rfl | ⟨before, after, hline, hrun⟩
    · exact .inl (by decide)
    · exact .inr (.inl (by decide))
    · refine .inr (.inr ⟨fun c hc => ?_, before, piece, after, hline, hrun, rfl⟩)
      rw [toList_upperText, String.toList_ofList] at hc
      obtain ⟨d, hd, hcd⟩ := List.mem_flatMap.1 hc
      exact isLetter_of_mem_upper (hrun.all d hd) hcd

end Dialogue.Sentence
