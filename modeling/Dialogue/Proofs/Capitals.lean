import Dialogue.Proofs.Letters

/-!
# Texts in capitals

A text in capitals stays as it is when it is put in capitals once more. The marks that part words are
neither made nor lost, so a line in capitals falls into the pieces of the line, each in capitals
(`Sentence.pieces_upperAll`), and has the same words.
-/

namespace Dialogue

namespace Text

variable {c m : Char} {cs : List Char}

theorem upperAll_of_isCapital (h : ∀ c ∈ cs, IsCapital c) : upperAll cs = cs := by
  induction cs with
  | nil => rfl
  | cons c cs ih =>
    rw [upperAll_cons, (h c List.mem_cons_self).upper, ih fun d hd => h d (List.mem_cons_of_mem _ hd)]
    rfl

/-- A text in capitals stays as it is. -/
@[simp] theorem upperAll_upperAll (cs : List Char) : upperAll (upperAll cs) = upperAll cs := by
  induction cs with
  | nil => rfl
  | cons c cs ih =>
    rw [upperAll_cons, upperAll_append, ih]
    congr 1
    rcases upper_eq_or c with hc | ⟨-, hc⟩
    · rw [hc, upperAll_cons, hc]; rfl
    · exact upperAll_of_isCapital hc

theorem upper_of_mem_upperAll {d : Char} (h : d ∈ upperAll cs) : upper d = [d] := by
  obtain ⟨c, -, hd⟩ := List.mem_flatMap.1 h
  rcases upper_eq_or c with hc | ⟨-, hc⟩
  · rw [hc, List.mem_singleton] at hd
    rwa [hd]
  · exact (hc d hd).upper

theorem upperText_append (s t : String) : upperText (s ++ t) = upperText s ++ upperText t := by
  simp [upperText]

theorem upperText_eq_iff {s t : String} :
    upperText s = upperText t ↔ upperAll s.toList = upperAll t.toList := by
  rw [← String.toList_inj, toList_upperText, toList_upperText]

theorem upperAll_eq_nil_iff : upperAll cs = [] ↔ cs = [] := by
  cases cs with
  | nil => simp
  | cons c cs => simp [upper_ne_nil c]

theorem head?_upperAll_iff (cs : List Char) (hm : upper m = [m]) (hc : ¬ IsCapital m) :
    (upperAll cs).head? = some m ↔ cs.head? = some m := by
  cases cs with
  | nil => rfl
  | cons c cs =>
    rw [upperAll_cons, List.head?_append_of_ne_nil _ (upper_ne_nil c), List.head?_cons, Option.some_inj]
    rcases upper_eq_or c with h | ⟨-, h⟩
    · rw [h, List.head?_cons, Option.some_inj]
    · constructor
      · intro hhead
        exact absurd (h m (List.mem_of_head? hhead)) hc
      · rintro rfl
        rw [hm]; rfl

theorem upperAll_eq_singleton_iff (cs : List Char) (hm : upper m = [m]) (hc : ¬ IsCapital m) :
    upperAll cs = [m] ↔ cs = [m] := by
  constructor
  · intro h
    have hhead : cs.head? = some m := (head?_upperAll_iff cs hm hc).1 (by rw [h]; rfl)
    obtain ⟨rest, rfl⟩ := List.head?_eq_some_iff.1 hhead
    rw [upperAll_cons, hm] at h
    rw [upperAll_eq_nil_iff.1 (List.cons.inj h).2]
  · rintro rfl
    rw [upperAll_cons, hm]; rfl

/-- Upper-casing keeps what is no part of a word. -/
theorem all_upper (p : Char → Bool) (hp : ∀ c, p c → Sentence.isLetter c = false) (c : Char) :
    (upper c).all p = p c := by
  cases hl : Sentence.isLetter c with
  | false => simp [upper_of_not_isLetter hl]
  | true =>
    have hnot {d : Char} (hd : Sentence.isLetter d) : p d = false := by
      rw [Bool.eq_false_iff]
      intro h
      rw [hp d h] at hd
      cases hd
    rw [hnot hl, List.all_eq_false]
    obtain ⟨d, hd⟩ := List.exists_mem_of_ne_nil _ (upper_ne_nil c)
    exact ⟨d, hd, by rw [hnot (isLetter_of_mem_upper hl hd)]; nofun⟩

theorem not_isLetter_of_isBlank (h : isBlank c) : Sentence.isLetter c = false := by
  simp [Sentence.isLetter, Sentence.isDropped, h]

theorem isBlankText_upperText (s : String) : isBlankText (upperText s) = isBlankText s := by
  rw [isBlankText, isBlankText, toList_upperText]
  induction s.toList with
  | nil => rfl
  | cons c cs ih =>
    rw [upperAll_cons, List.all_append, List.all_cons, ih,
      all_upper isBlank fun _ => not_isLetter_of_isBlank]

end Text

namespace Sentence

open Text

theorem takeWhile_upperAll (cs : List Char) :
    (upperAll cs).takeWhile isLetter = upperAll (cs.takeWhile isLetter) := by
  induction cs with
  | nil => rfl
  | cons c cs ih =>
    rw [upperAll_cons, List.takeWhile_cons]
    cases hc : isLetter c with
    | true =>
      rw [List.takeWhile_append_of_pos fun d hd => isLetter_of_mem_upper hc hd, ih]
      rfl
    | false =>
      rw [upper_of_not_isLetter hc, List.singleton_append, List.takeWhile_cons, hc]
      rfl

theorem dropWhile_upperAll (cs : List Char) :
    (upperAll cs).dropWhile isLetter = upperAll (cs.dropWhile isLetter) := by
  induction cs with
  | nil => rfl
  | cons c cs ih =>
    rw [upperAll_cons, List.dropWhile_cons]
    cases hc : isLetter c with
    | true =>
      rw [List.dropWhile_append_of_pos fun d hd => isLetter_of_mem_upper hc hd, ih]
      rfl
    | false =>
      rw [upper_of_not_isLetter hc, List.singleton_append, List.dropWhile_cons, hc]
      simp [upper_of_not_isLetter hc]

/-- A line in capitals falls into the pieces of the line in capitals. -/
theorem pieces_upperAll (cs : List Char) : pieces (upperAll cs) = (pieces cs).map upperAll := by
  induction cs using pieces.induct with
  | case1 => rw [upperAll_nil, pieces_nil]; rfl
  | case2 c cs hd ih =>
    rw [upperAll_cons, upper_of_not_isLetter (by simp [isLetter, hd]), List.singleton_append,
      pieces_cons, if_pos hd, ih, pieces_cons, if_pos hd]
  | case3 c cs hd hs ih =>
    have hu : upper c = [c] := upper_of_not_isLetter (by simp [isLetter, hs])
    rw [upperAll_cons, hu, List.singleton_append, pieces_cons, if_neg hd, if_pos hs, ih, pieces_cons,
      if_neg hd, if_pos hs]
    simp [hu]
  | case4 c cs hd hs ih =>
    have hc : isLetter c := by simp [isLetter, hd, hs]
    obtain ⟨d, ds, hu⟩ := List.exists_cons_of_ne_nil (upper_ne_nil c)
    have hletters : ∀ x ∈ d :: ds, isLetter x := fun x hx => isLetter_of_mem_upper hc (hu ▸ hx)
    have htail : ∀ x ∈ ds, isLetter x := fun x hx => hletters x (List.mem_cons_of_mem _ hx)
    obtain ⟨hd', hs'⟩ : isDropped d = false ∧ isStop d = false := by
      simpa [isLetter] using hletters d List.mem_cons_self
    rw [upperAll_cons, hu, List.cons_append, pieces_cons, if_neg (by simp [hd']), if_neg (by simp [hs']),
      List.takeWhile_append_of_pos htail, List.dropWhile_append_of_pos htail, takeWhile_upperAll,
      dropWhile_upperAll, ih, pieces_cons, if_neg hd, if_neg hs]
    simp [hu]

theorem words_upperText (line : String) : words (upperText line) = words line := by
  rw [words, words, toList_upperText, pieces_upperAll, List.map_map]
  exact List.map_congr_left fun piece _ => by simp

theorem upper_of_mem_words {line : String} {w : Word} (h : w ∈ words line) : w.upper = w := by
  obtain ⟨piece, -, rfl⟩ := List.mem_map.1 h
  simp [Word.upper, upperText]

/-- Words are spelt with characters that stand for themselves. -/
theorem upper_of_mem_word {line : String} {w : Word} (h : w ∈ words line) :
    ∀ c ∈ w.text.toList, upper c = [c] := by
  obtain ⟨piece, -, rfl⟩ := List.mem_map.1 h
  rw [String.toList_ofList]
  exact fun c => upper_of_mem_upperAll

end Sentence

end Dialogue
