import Dialogue.Proofs.Grammar

/-!
# Printed lists

The printed form of a datum is cut into the tokens that the datum is written as (`spells_text`), wherever
it stands and whatever follows, as long as that does not go on with its last word (`Spells`). This takes
words that are read as they are spelt (`Datum.Legible`), and those are the words that a reader gives: so
printing and reading undo each other.
-/

namespace Dialogue

open Source

/-- A word that is read as it is spelt. -/
def Word.Legible (w : Word) : Prop := w.text = "=" ∨ Plain w.text

/-- All words of the datum are read as they are spelt. -/
inductive Datum.Legible : Datum → Prop where
  | word {w : Word} : w.Legible → Legible (.word w)
  | number (n : UInt32) : Legible (.number n)
  | list {cells : List Datum} : (∀ d ∈ cells, Legible d) → Legible (.list cells)

namespace Source

open Datum (tokensAll)

/-- The text is cut into the tokens, if what follows does not go on with its last word. -/
def Spells (text : List Char) (tokens : List Token) : Prop :=
  ∀ start rest, (∀ c ∈ rest.head?, isRunChar c = false) →
    ∃ used stop, used.map Lexeme.token = tokens ∧
      lexemes start (text ++ rest) = (lexemes stop rest).map (used ++ ·)

namespace Spells

variable {text text' : List Char} {tokens tokens' : List Token} {c : Char} {token : Token}

theorem nil : Spells [] [] := fun start rest _ =>
  ⟨[], start, rfl, by rw [List.nil_append]; cases lexemes start rest <;> rfl⟩

theorem gap (hg : isGap c) (h : Spells text tokens) : Spells (c :: text) tokens := by
  intro start rest hrest
  obtain ⟨used, stop, hused, heq⟩ := h (start + c.utf8Size) rest hrest
  exact ⟨used, stop, hused, by rw [List.cons_append, lexemes_gap hg, heq]⟩

theorem mark (hm : Token.ofMark? c = some token) (h : Spells text tokens) :
    Spells (c :: text) (token :: tokens) := by
  intro start rest hrest
  obtain ⟨used, stop, rfl, heq⟩ := h (start + c.utf8Size) rest hrest
  refine ⟨⟨token, ⟨start, start + c.utf8Size⟩⟩ :: used, stop, rfl, ?_⟩
  rw [List.cons_append, lexemes_mark hm, heq]
  cases lexemes stop rest <;> rfl

theorem run (h : ∀ c ∈ text, isRunChar c) (hne : text ≠ []) : Spells text [.ofRun text] := by
  intro start rest hrest
  cases text with
  | nil => exact absurd rfl hne
  | cons c cs =>
    obtain ⟨hc, hcs⟩ := List.forall_mem_cons.1 h
    obtain ⟨htake, hdrop⟩ := takeWhile_eq_nil hrest
    refine ⟨[⟨.ofRun (c :: cs), ⟨start, start + byteLength (c :: cs)⟩⟩],
      start + byteLength (c :: cs), rfl, ?_⟩
    rw [List.cons_append, lexemes_run hc, List.takeWhile_append_of_pos hcs,
      List.dropWhile_append_of_pos hcs, htake, hdrop, List.append_nil]
    rfl

/-- What is written behind a text must not go on with its last word. -/
theorem append (h : Spells text tokens) (h' : Spells text' tokens')
    (hb : ∀ c ∈ text'.head?, isRunChar c = false) : Spells (text ++ text') (tokens ++ tokens') := by
  intro start rest hrest
  have hb : ∀ c ∈ (text' ++ rest).head?, isRunChar c = false := by
    cases text' with
    | nil => exact hrest
    | cons d ds => exact hb
  obtain ⟨used, stop, rfl, heq⟩ := h start (text' ++ rest) hb
  obtain ⟨used', stop', rfl, heq'⟩ := h' stop rest hrest
  refine ⟨used ++ used', stop', List.map_append, ?_⟩
  rw [List.append_assoc, heq, heq']
  cases lexemes stop' rest with
  | error => rfl
  | ok ts => exact congrArg Except.ok (List.append_assoc used used' ts).symm

theorem ofSource_eq {source : String} (h : Spells source.toList tokens) :
    ∃ ts place, ts.map Lexeme.token = tokens ∧
      Reader.ofSource source = .ok ⟨ts ++ [⟨.finish, place⟩]⟩ := by
  obtain ⟨ts, stop, htokens, heq⟩ := h 0 [] nofun
  rw [List.append_nil, lexemes_nil] at heq
  refine ⟨ts, ⟨stop, stop⟩, htokens, ?_⟩
  rw [Reader.ofSource, tokenize, heq]
  rfl

end Spells

theorem Plain.spells {s : String} (h : Plain s) : Spells s.toList [.word s] := by
  have hrun : ∀ c ∈ s.toList, isRunChar c := fun c hc => by
    simpa [isRunChar, h.notBlank c hc, and_assoc] using h.notMark c hc
  obtain ⟨d, hd, hdigit⟩ := h.notNumber
  have hword : Token.ofRun s.toList = .word s := by
    unfold Token.ofRun
    rw [if_neg (fun hall => by simp [List.all_eq_true.1 hall d hd] at hdigit), String.ofList_toList]
  rw [← hword]
  exact Spells.run hrun (List.ne_nil_of_mem hd)

theorem spells_number (n : UInt32) : Spells (toString n.toNat).toList [.number (some n)] := by
  have hdigits : ∀ c ∈ Nat.toDigits 10 n.toNat, c.isDigit := fun c hc =>
    Nat.isDigit_of_mem_toDigits (by decide) (by decide) hc
  have hnumber : Token.ofRun (Nat.toDigits 10 n.toNat) = .number (some n) := by
    unfold Token.ofRun
    rw [if_pos (List.all_eq_true.2 hdigits), Nat.ofDigitChars_ten_toDigits]
    simp [n.toNat_lt_size]
  rw [Nat.toString_eq_repr, Nat.toList_repr, ← hnumber]
  exact Spells.run (fun c hc => isRunChar_of_isDigit (hdigits c hc)) Nat.toDigits_ne_nil

theorem spells_word {w : Word} (h : w.Legible) : Spells w.text.toList [w.token] := by
  unfold Word.token
  rcases h with h | h
  · rw [if_pos h, h]
    exact Spells.mark rfl Spells.nil
  · rw [if_neg h.ne_equals]
    exact h.spells

/-- Data are parted by a gap. -/
theorem spells_join {sep : Char} (hs : isGap sep) {ds : List Datum}
    (h : ∀ d ∈ ds, Spells d.text.toList d.tokens) :
    Spells ([sep].intercalate (ds.map fun d => d.text.toList)) (tokensAll ds) := by
  induction ds with
  | nil => exact Spells.nil
  | cons d ds ih =>
    obtain ⟨hd, hds⟩ := List.forall_mem_cons.1 h
    cases ds with
    | nil =>
      rw [List.map_singleton, List.intercalate_singleton, tokensAll, tokensAll, List.append_nil]
      exact hd
    | cons e ds =>
      rw [List.map_cons, List.map_cons, List.intercalate_cons_cons, List.append_assoc]
      refine hd.append ((ih hds).gap hs) ?_
      rintro c ⟨⟩
      exact isRunChar_of_isGap hs

theorem spells_list {cells : List Datum} (h : ∀ d ∈ cells, Spells d.text.toList d.tokens) :
    Spells (Datum.list cells).text.toList (Datum.list cells).tokens := by
  have htext : (Datum.list cells).text.toList =
      '(' :: ([' '].intercalate (cells.map fun d => d.text.toList) ++ [')']) := by
    simp [Datum.text, Datum.texts_eq_map, Function.comp_def]
  rw [htext, Datum.tokens]
  refine Spells.mark rfl ((spells_join rfl h).append (Spells.mark rfl Spells.nil) ?_)
  rintro c ⟨⟩
  rfl

theorem spells_text {d : Datum} (h : d.Legible) : Spells d.text.toList d.tokens := by
  induction h with
  | word hw => exact spells_word hw
  | number n => exact spells_number n
  | list _ ih => exact spells_list ih

/-- Lists on lines of their own. -/
def page (lists : List (List Datum)) : String :=
  "\n".intercalate (lists.map fun cells => (Datum.list cells).text)

theorem spells_page {lists : List (List Datum)} (h : ∀ cells ∈ lists, (Datum.list cells).Legible) :
    Spells (page lists).toList (written lists) := by
  have hpage : (page lists).toList =
      ['\n'].intercalate ((lists.map Datum.list).map fun d => d.text.toList) := by
    simp [page, Function.comp_def]
  rw [hpage]
  refine spells_join rfl ?_
  rw [List.forall_mem_map]
  exact fun cells hc => spells_text (h cells hc)

/-! ### What a reader gives -/

mutual

theorem legible_of_tokens (d : Datum) (h : ∀ s, .word s ∈ d.tokens → Plain s) : d.Legible := by
  cases d with
  | number n => exact .number n
  | word w =>
    by_cases hw : w.text = "="
    · exact .word (.inl hw)
    · refine .word (.inr (h w.text ?_))
      rw [Datum.tokens, Word.token, if_neg hw]
      exact List.mem_singleton_self _
  | list cells =>
    refine .list (forall_legible_of_tokens cells fun s hs => h s ?_)
    rw [Datum.tokens, List.mem_cons, List.mem_append]
    exact .inr (.inl hs)

theorem forall_legible_of_tokens (ds : List Datum) (h : ∀ s, .word s ∈ tokensAll ds → Plain s) :
    ∀ d ∈ ds, d.Legible := by
  cases ds with
  | nil => nofun
  | cons d ds =>
    simp only [tokensAll, List.mem_append] at h
    rw [List.forall_mem_cons]
    exact ⟨legible_of_tokens d fun s hs => h s (.inl hs),
      forall_legible_of_tokens ds fun s hs => h s (.inr hs)⟩

end

variable {ts used rest : List Lexeme} {r : Reader} {cells : List Datum} {lists : List (List Datum)}

namespace Ended

theorem plain (h : Ended ts) {s : String} (hs : .word s ∈ ts.map Lexeme.token) : Plain s := by
  obtain ⟨body, place, rfl, hbody⟩ := h
  obtain ⟨x, hx, hword⟩ := List.mem_map.1 hs
  rcases List.mem_append.1 hx with hx | hx
  · have hinner := hbody x hx
    rwa [hword] at hinner
  · rw [List.mem_singleton.1 hx] at hword
    cases hword

/-- What is left of a text ends like the text, if anything is left. -/
theorem of_append (h : Ended (used ++ rest)) : rest = [] ∨ Ended rest := by
  induction used with
  | nil => exact .inr h
  | cons x used ih =>
    by_cases hx : x.token = .finish
    · exact .inl (List.append_eq_nil_iff.1 (h.eq_nil hx)).2
    · exact ih (h.tail hx).2

end Ended

theorem fill_suffix (outer : List OpenList) (inner : OpenList) (ts : List Lexeme) :
    (fill outer inner ts).2 <:+ ts := by
  fun_induction fill outer inner ts with
  | case1 => exact List.suffix_refl _
  | case2 | case4 | case5 | case6 | case7 =>
    rename_i ih
    exact ih.trans (List.suffix_cons _ _)
  | case3 | case8 | case9 => exact List.suffix_cons _ _

namespace Reader

/-- The reader after it has been called some times, whatever it gave. -/
def called (r : Reader) : Nat → Reader
  | 0 => r
  | n + 1 => (r.called n).next.2

theorem next_suffix (r : Reader) : r.next.2.rest <:+ r.rest := by
  obtain ⟨_ | ⟨⟨token, place⟩, ts⟩⟩ := r
  · exact List.suffix_refl _
  · cases token with
    | opening => exact (fill_suffix [] ⟨place, []⟩ ts).trans (List.suffix_cons _ _)
    | _ => exact List.suffix_refl _

theorem called_suffix (r : Reader) (n : Nat) : (r.called n).rest <:+ r.rest := by
  induction n with
  | zero => exact List.suffix_refl _
  | succ n ih => exact (next_suffix _).trans ih

theorem legible_of_next (he : Ended r.rest) (h : r.next.1 = .ok (some cells)) :
    (Datum.list cells).Legible := by
  obtain ⟨used, hrest, -, htokens⟩ := tokens_of_next he (Prod.ext h rfl)
  refine legible_of_tokens _ fun s hs => he.plain ?_
  rw [hrest, List.map_append, htokens]
  exact List.mem_append_left _ hs

theorem legible_of_called (he : Ended r.rest) {n : Nat} (h : (r.called n).next.1 = .ok (some cells)) :
    (Datum.list cells).Legible := by
  obtain ⟨used, hused⟩ := r.called_suffix n
  rcases (hused ▸ he).of_append with hnil | hended
  · -- nothing is left to read
    rw [show r.called n = ⟨[]⟩ from congrArg Reader.mk hnil] at h
    cases h
  · exact legible_of_next hended h

theorem legible_of_all (he : Ended r.rest) (h : r.all = .ok lists) :
    ∀ cells ∈ lists, (Datum.list cells).Legible := by
  obtain ⟨ts, place, hrest, htokens⟩ := tokens_of_all he h
  rw [← List.forall_mem_map]
  refine forall_legible_of_tokens _ fun s hs => he.plain ?_
  rw [hrest, List.map_append, htokens]
  exact List.mem_append_left _ hs

end Reader

theorem readOne_text (h : (Datum.list cells).Legible) : readOne (Datum.list cells).text = .ok cells := by
  obtain ⟨ts, place, htokens, hsource⟩ := (spells_text h).ofSource_eq
  simp only [readOne, hsource, Reader.next_tokens htokens, bind, Except.bind]
  rfl

theorem all_page (h : ∀ cells ∈ lists, (Datum.list cells).Legible) :
    ∃ r, Reader.ofSource (page lists) = .ok r ∧ r.all = .ok lists := by
  obtain ⟨ts, place, htokens, hsource⟩ := (spells_page h).ofSource_eq
  exact ⟨_, hsource, Reader.all_of_tokens htokens place⟩

/-- What is printed is read back if its words are read as they are spelt, and what a reader gives has
such words only, however often it has been called and whatever it gave: so what has been read can be
printed and read again. -/
theorem printing_is_undone :
    (∀ cells, (∀ d ∈ cells, d.Legible) → readOne (Datum.list cells).text = .ok cells) ∧
    ∀ source r, Reader.ofSource source = .ok r →
      (∀ n cells, (r.called n).next.1 = .ok (some cells) → ∀ d ∈ cells, d.Legible) ∧
      ∀ lists, r.all = .ok lists →
        ∃ r', Reader.ofSource (page lists) = .ok r' ∧ r'.all = .ok lists := by
  refine ⟨fun cells h => readOne_text (.list h), fun source r hr => ?_⟩
  have he := Reader.ended_of_ofSource hr
  constructor
  · intro n cells h
    cases Reader.legible_of_called he h with
    | list hcells => exact hcells
  · intro lists h
    exact all_page (Reader.legible_of_all he h)

/-- A list with words that start like a number or stand for a mark; and a source that is spaced in its own
way, after whose first fault a list inside is read. -/
theorem printing_is_undone_nested :
    readOne "(= 2ND 7 (()))" = .ok [.ofText "=", .ofText "2ND", .number 7, .list [.list []]] ∧
    (∃ r, Reader.ofSource "(4294967296 (B))" = .ok r ∧ (r.called 1).next.1 = .ok (some [.ofText "B"]) ∧
      (Datum.ofText "B").Legible) ∧
    ∃ r, Reader.ofSource "(A (= 2ND) 7)\n()" = .ok r ∧
      r.all = .ok [[.ofText "A", .list [.ofText "=", .ofText "2ND"], .number 7], []] := by
  obtain ⟨hprinted, hread⟩ := printing_is_undone
  refine ⟨?_, ?_, ?_⟩
  · have hchars : "2ND".toList = ['2', 'N', 'D'] := by decide
    have hplain : Plain "2ND" := by
      constructor <;> rw [hchars]
      · simp only [List.forall_mem_cons]
        exact ⟨by decide, by decide, by decide, nofun⟩
      · simp only [List.forall_mem_cons]
        exact ⟨by decide, by decide, by decide, nofun⟩
      · exact ⟨'N', by decide, by decide⟩
    have htext : (Datum.list [.ofText "=", .ofText "2ND", .number 7, .list [.list []]]).text =
        "(= 2ND 7 (()))" := by decide +kernel
    rw [← htext]
    refine hprinted _ ?_
    simp only [List.forall_mem_cons]
    exact ⟨.word (.inl rfl), .word (.inr hplain), .number 7, .list (by simpa using .list nofun), nofun⟩
  · have hfirst : (Reader.ofSource "(4294967296 (B))").map (fun r => (r.called 1).next.1) =
        .ok (.ok (some [.ofText "B"])) := by with_unfolding_all rfl
    obtain ⟨r, hr, hfirst⟩ := map_eq_ok.1 hfirst
    exact ⟨r, hr, hfirst, (hread _ r hr).1 1 _ hfirst _ (List.mem_singleton_self _)⟩
  · have hall : (Reader.ofSource "(A\t(=2ND)007 ) ()").map Reader.all =
        .ok (.ok [[.ofText "A", .list [.ofText "=", .ofText "2ND"], .number 7], []]) := by
      with_unfolding_all rfl
    have hpage : page [[.ofText "A", .list [.ofText "=", .ofText "2ND"], .number 7], []] =
        "(A (= 2ND) 7)\n()" := by decide +kernel
    obtain ⟨r, hr, hall⟩ := map_eq_ok.1 hall
    have hagain := (hread _ r hr).2 _ hall
    rwa [hpage] at hagain

end Source

end Dialogue
