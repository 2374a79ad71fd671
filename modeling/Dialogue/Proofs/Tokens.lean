import Mathlib.Data.List.TakeWhile
import Dialogue.Source.Reader

/-!
# Tokens, one after the other

A text is cut into tokens from the front, and white space that is no gap is all that can go wrong
(`isOk_lexemes_iff`). A parenthesis ends whatever stands before it, so the tokens up to a closing one
are the same whatever is written behind the text (`lexemes_append`).
-/

namespace Dialogue

theorem map_eq_ok {ε α β : Type} {x : Except ε α} {f : α → β} {b : β} :
    x.map f = .ok b ↔ ∃ a, x = .ok a ∧ f a = b := by
  cases x <;> simp [Except.map]

namespace Source

variable {start : Nat} {c : Char} {cs : List Char} {token : Token}

/-! ### What a text starts with -/

theorem isGap_iff : isGap c ↔ c = ' ' ∨ c = '\t' ∨ c = '\r' ∨ c = '\n' ∨ c = '\x0c' := by
  simp only [isGap, Bool.or_eq_true, beq_iff_eq, or_assoc]

theorem isBlank_of_isGap (h : isGap c) : Text.isBlank c := by
  rcases isGap_iff.1 h with rfl | rfl | rfl | rfl | rfl <;> decide

theorem Token.ofMark?_eq_some_iff :
    Token.ofMark? c = some token ↔
      (c = '(' ∧ token = .opening) ∨ (c = ')' ∧ token = .closing) ∨ (c = '=' ∧ token = .equals) := by
  unfold Token.ofMark?
  split <;> simp_all [eq_comm]

theorem isRunChar_iff : isRunChar c ↔ Text.isBlank c = false ∧ Token.ofMark? c = none := by
  unfold isRunChar Token.ofMark?
  split <;> simp_all

theorem not_isBlank_of_ofMark? (h : Token.ofMark? c = some token) : Text.isBlank c = false := by
  rcases Token.ofMark?_eq_some_iff.1 h with ⟨rfl, -⟩ | ⟨rfl, -⟩ | ⟨rfl, -⟩ <;> decide

theorem not_isGap_of_ofMark? (h : Token.ofMark? c = some token) : isGap c = false := by
  rcases Token.ofMark?_eq_some_iff.1 h with ⟨rfl, -⟩ | ⟨rfl, -⟩ | ⟨rfl, -⟩ <;> rfl

theorem not_isRunChar_of_ofMark? (h : Token.ofMark? c = some token) : isRunChar c = false := by
  rcases Token.ofMark?_eq_some_iff.1 h with ⟨rfl, -⟩ | ⟨rfl, -⟩ | ⟨rfl, -⟩ <;> decide

theorem isRunChar_of_isGap (h : isGap c) : isRunChar c = false := by
  rcases isGap_iff.1 h with rfl | rfl | rfl | rfl | rfl <;> decide

theorem isRunChar_of_isDigit (h : c.isDigit) : isRunChar c := by
  obtain ⟨hlow, hhigh⟩ := Char.isDigit_iff_toNat.1 h
  have hne : ∀ d : Char, d.toNat < 48 ∨ 57 < d.toNat → c ≠ d := by
    rintro d hd rfl
    simp only [Char.reduceToNat] at hlow hhigh
    omega
  have hblank : Text.isBlank c = false := by
    simp only [Char.reduceToNat] at hlow hhigh
    simp only [Text.isBlank, Bool.or_eq_false_iff, Bool.and_eq_false_iff, decide_eq_false_iff_not,
      beq_eq_false_iff_ne]
    omega
  simp [isRunChar, hblank, hne '(' (by decide), hne ')' (by decide), hne '=' (by decide)]

theorem forall_takeWhile {p : Char → Bool} (h : p c) : ∀ d ∈ c :: cs.takeWhile p, p d := by
  intro d hd
  rcases List.mem_cons.1 hd with rfl | hd
  · exact h
  · exact List.mem_takeWhile_imp hd

theorem Token.ofRun_ne_closing (run : List Char) : Token.ofRun run ≠ .closing := by
  unfold Token.ofRun
  split <;> nofun

-- The equations of the cases, made from the general one, as those that Lean derives unfold `isBlank`.
theorem lexemes_nil : lexemes start [] = .ok [⟨.finish, ⟨start, start⟩⟩] := by
  rw [lexemes.eq_def]

theorem lexemes_gap (h : isGap c) : lexemes start (c :: cs) = lexemes (start + c.utf8Size) cs := by
  rw [lexemes.eq_def]
  exact if_pos h

theorem lexemes_mark (h : Token.ofMark? c = some token) :
    lexemes start (c :: cs) =
      (lexemes (start + c.utf8Size) cs).map (⟨token, ⟨start, start + c.utf8Size⟩⟩ :: ·) := by
  rw [lexemes.eq_def]
  simp only [not_isGap_of_ofMark? h, Bool.false_eq_true, if_false, h]
  cases lexemes (start + c.utf8Size) cs <;> rfl

theorem lexemes_blank (hb : Text.isBlank c) (hg : ¬ isGap c) :
    lexemes start (c :: cs) = .error (.strayBlank ⟨start, start + c.utf8Size⟩ c) := by
  have hmark : Token.ofMark? c = none := by
    cases hm : Token.ofMark? c with
    | none => rfl
    | some token => rw [not_isBlank_of_ofMark? hm] at hb; cases hb
  rw [lexemes.eq_def]
  simp only [if_neg hg, hmark, if_pos hb]

theorem lexemes_run (h : isRunChar c) :
    lexemes start (c :: cs) =
      (lexemes (start + byteLength (c :: cs.takeWhile isRunChar)) (cs.dropWhile isRunChar)).map
        (⟨.ofRun (c :: cs.takeWhile isRunChar),
          ⟨start, start + byteLength (c :: cs.takeWhile isRunChar)⟩⟩ :: ·) := by
  obtain ⟨hb, hmark⟩ := isRunChar_iff.1 h
  have hgap : ¬ isGap c := fun hg => by
    rw [isBlank_of_isGap hg] at hb
    cases hb
  rw [lexemes.eq_def]
  simp only [if_neg hgap, hmark, hb, Bool.false_eq_true, if_false]
  cases lexemes (start + byteLength (c :: cs.takeWhile isRunChar)) (cs.dropWhile isRunChar) <;> rfl

/-- What a character can be to a text that it stands at the start of. -/
theorem starts_with (c : Char) :
    isGap c ∨ (∃ token, Token.ofMark? c = some token) ∨ (Text.isBlank c ∧ ¬ isGap c) ∨ isRunChar c := by
  by_cases hg : isGap c
  · exact .inl hg
  · cases hm : Token.ofMark? c with
    | some token => exact .inr (.inl ⟨token, rfl⟩)
    | none =>
      cases hb : Text.isBlank c with
      | true => exact .inr (.inr (.inl ⟨rfl, hg⟩))
      | false => exact .inr (.inr (.inr (isRunChar_iff.2 ⟨hb, hm⟩)))

/-- Tokens are cut from the front: a gap, a mark, a run, or a fault. -/
theorem lexemes_induction {P : Nat → List Char → Prop} (hnil : ∀ start, P start [])
    (hgap : ∀ start c cs, isGap c → P (start + c.utf8Size) cs → P start (c :: cs))
    (hmark : ∀ start c cs token, Token.ofMark? c = some token → P (start + c.utf8Size) cs →
      P start (c :: cs))
    (hblank : ∀ start c cs, Text.isBlank c → ¬ isGap c → P start (c :: cs))
    (hrun : ∀ start c cs, isRunChar c →
      P (start + byteLength (c :: cs.takeWhile isRunChar)) (cs.dropWhile isRunChar) →
      P start (c :: cs))
    (start : Nat) (cs : List Char) : P start cs := by
  induction hn : cs.length using Nat.strongRecOn generalizing start cs with
  | ind n ih =>
    cases cs with
    | nil => exact hnil start
    | cons c cs =>
      subst hn
      rcases starts_with c with hg | ⟨token, hm⟩ | ⟨hb, hg⟩ | hr
      · exact hgap start c cs hg (ih _ (by simp) _ _ rfl)
      · exact hmark start c cs token hm (ih _ (by simp) _ _ rfl)
      · exact hblank start c cs hb hg
      · have hlt : (cs.dropWhile isRunChar).length < (c :: cs).length :=
          Nat.lt_succ_of_le (List.dropWhile_suffix isRunChar).length_le
        exact hrun start c cs hr (ih _ hlt _ _ rfl)

/-! ### What can go wrong -/

theorem isOk_map {ε α β : Type} (x : Except ε α) (f : α → β) : (x.map f).isOk = x.isOk := by
  cases x <;> rfl

/-- A text can be cut into tokens if all white space in it separates tokens. -/
theorem isOk_lexemes_iff (start : Nat) (cs : List Char) :
    (lexemes start cs).isOk ↔ ∀ c ∈ cs, Text.isBlank c → isGap c := by
  induction start, cs using lexemes_induction with
  | hnil start => simp [lexemes_nil, Except.isOk, Except.toBool]
  | hgap start c cs hg ih =>
    rw [lexemes_gap hg, ih, List.forall_mem_cons]
    exact (and_iff_right fun _ => hg).symm
  | hmark start c cs token hm ih =>
    rw [lexemes_mark hm, isOk_map, ih, List.forall_mem_cons]
    refine (and_iff_right fun hb => ?_).symm
    rw [not_isBlank_of_ofMark? hm] at hb
    cases hb
  | hblank start c cs hb hg =>
    rw [lexemes_blank hb hg]
    exact ⟨nofun, fun h => (hg (h c List.mem_cons_self hb)).elim⟩
  | hrun start c cs hr ih =>
    have hrunChars : ∀ d ∈ c :: cs.takeWhile isRunChar, Text.isBlank d → isGap d := by
      intro d hd hb
      rw [(isRunChar_iff.1 (forall_takeWhile hr d hd)).1] at hb
      cases hb
    have hsplit : c :: cs = (c :: cs.takeWhile isRunChar) ++ cs.dropWhile isRunChar := by
      rw [List.cons_append, List.takeWhile_append_dropWhile]
    rw [lexemes_run hr, isOk_map, ih, hsplit, List.forall_mem_append]
    exact (and_iff_right hrunChars).symm

/-! ### What is written behind a text -/

theorem map_eq_ok_cons {ε α : Type} {x : Except ε (List α)} {a b : α} {bs : List α}
    (h : x.map (a :: ·) = .ok (b :: bs)) : a = b ∧ x = .ok bs := by
  cases x with
  | error => cases h
  | ok as => cases h; exact ⟨rfl, rfl⟩

theorem takeWhile_eq_nil {α : Type} {p : α → Bool} {bs : List α} (h : ∀ b ∈ bs.head?, p b = false) :
    bs.takeWhile p = [] ∧ bs.dropWhile p = bs := by
  cases bs with
  | nil => exact ⟨rfl, rfl⟩
  | cons b bs =>
    have hb : ¬ p b := by simp [h b rfl]
    exact ⟨List.takeWhile_cons_of_neg hb, List.dropWhile_cons_of_neg hb⟩

/-- A run goes on into what is written behind the text only if nothing else stands behind it. -/
theorem takeWhile_append_of_dropWhile {α : Type} {p : α → Bool} {as : List α}
    (h : as.dropWhile p ≠ []) (bs : List α) :
    (as ++ bs).takeWhile p = as.takeWhile p ∧ (as ++ bs).dropWhile p = as.dropWhile p ++ bs := by
  induction as with
  | nil => exact (h rfl).elim
  | cons a as ih =>
    by_cases ha : p a
    · rw [List.dropWhile_cons_of_pos ha] at h
      obtain ⟨htake, hdrop⟩ := ih h
      rw [List.cons_append, List.takeWhile_cons_of_pos ha, List.takeWhile_cons_of_pos ha,
        List.dropWhile_cons_of_pos ha, List.dropWhile_cons_of_pos ha, htake]
      exact ⟨rfl, hdrop⟩
    · rw [List.cons_append, List.takeWhile_cons_of_neg ha, List.takeWhile_cons_of_neg ha,
        List.dropWhile_cons_of_neg ha, List.dropWhile_cons_of_neg ha]
      exact ⟨rfl, rfl⟩

/-- A run does not go on into what is written behind the text if something else stands there first. -/
theorem takeWhile_append_of_head {α : Type} {p : α → Bool} {bs : List α}
    (h : ∀ b ∈ bs.head?, p b = false) (as : List α) :
    (as ++ bs).takeWhile p = as.takeWhile p ∧ (as ++ bs).dropWhile p = as.dropWhile p ++ bs := by
  by_cases hall : as.dropWhile p = []
  · have hp := List.dropWhile_eq_nil_iff.1 hall
    obtain ⟨htake, hdrop⟩ := takeWhile_eq_nil h
    rw [List.takeWhile_append_of_pos hp, List.dropWhile_append_of_pos hp, htake, hdrop, hall,
      List.takeWhile_eq_self_iff.2 hp, List.append_nil]
    exact ⟨rfl, rfl⟩
  · exact takeWhile_append_of_dropWhile hall bs

/-- The tokens of a text up to a closing parenthesis do not depend on what is written behind the
text. -/
theorem lexemes_append (start : Nat) (cs : List Char) {used after : List Lexeme} {place : Span}
    (h : lexemes start cs = .ok (used ++ ⟨.closing, place⟩ :: after)) :
    ∃ stop rest, ∀ t,
      lexemes start (cs ++ t) =
        (lexemes stop (rest ++ t)).map fun ts => used ++ ⟨.closing, place⟩ :: ts := by
  induction start, cs using lexemes_induction generalizing used with
  | hnil start =>
    rw [lexemes_nil] at h
    rcases used with _ | ⟨x, _ | ⟨y, used⟩⟩ <;> cases h
  | hgap start c cs hg ih =>
    rw [lexemes_gap hg] at h
    obtain ⟨stop, rest, hrest⟩ := ih h
    refine ⟨stop, rest, fun t => ?_⟩
    rw [List.cons_append, lexemes_gap hg, hrest]
  | hmark start c cs token hm ih =>
    rw [lexemes_mark hm] at h
    cases used with
    | nil =>
      -- the mark itself is the parenthesis
      obtain ⟨hx, -⟩ := map_eq_ok_cons h
      refine ⟨start + c.utf8Size, cs, fun t => ?_⟩
      rw [List.cons_append, lexemes_mark hm, hx]
      rfl
    | cons x used =>
      obtain ⟨rfl, htail⟩ := map_eq_ok_cons h
      obtain ⟨stop, rest, hrest⟩ := ih htail
      refine ⟨stop, rest, fun t => ?_⟩
      rw [List.cons_append, lexemes_mark hm, hrest]
      cases lexemes stop (rest ++ t) <;> rfl
  | hblank start c cs hb hg =>
    rw [lexemes_blank hb hg] at h
    cases h
  | hrun start c cs hr ih =>
    rw [lexemes_run hr] at h
    cases used with
    | nil =>
      obtain ⟨hx, -⟩ := map_eq_ok_cons h
      exact (Token.ofRun_ne_closing _ (congrArg Lexeme.token hx)).elim
    | cons x used =>
      obtain ⟨rfl, htail⟩ := map_eq_ok_cons h
      -- the parenthesis stands behind the run, so the run cannot go on into `t`
      have hne : cs.dropWhile isRunChar ≠ [] := by
        intro hnil
        rw [hnil, lexemes_nil] at htail
        rcases used with _ | ⟨y, _ | ⟨z, used⟩⟩ <;> cases htail
      obtain ⟨stop, rest, hrest⟩ := ih htail
      refine ⟨stop, rest, fun t => ?_⟩
      obtain ⟨htake, hdrop⟩ := takeWhile_append_of_dropWhile hne t
      rw [List.cons_append, lexemes_run hr, htake, hdrop, hrest]
      cases lexemes stop (rest ++ t) <;> rfl

end Source

end Dialogue
