import Dialogue.Proofs.Lexicon
import Dialogue.Proofs.Tokens

/-!
# Where tokens stand

A source is cut by its lexicon, of which the longest lexeme is taken each time, a number before a word if
they are equally long, up to the first white space that is no gap (`Source.exists_cuts`). The lexemes that
are no gap are its tokens, each with the bytes that it was read from (`Source.Stands`).
-/

namespace Dialogue.Source

open Lexicon (chars)

/-! ### The lexicon of a source -/

inductive Kind where
  | gap
  | mark
  | number
  | word

variable {start : Nat} {c : Char} {cs l rest left before after text : List Char} {k k' : Kind}
  {ls a b : List (Kind × List Char)} {x y : Lexeme}

namespace Kind

def Has : Kind → List Char → Prop
  | .gap, l => l ≠ [] ∧ ∀ c ∈ l, isGap c
  | .mark, l => ∃ c token, l = [c] ∧ Token.ofMark? c = some token
  | .number, l => l ≠ [] ∧ ∀ c ∈ l, c.isDigit
  | .word, l => l ≠ [] ∧ ∀ c ∈ l, isRunChar c

theorem ofMark?_of_has (h : Kind.mark.Has l) (hc : c ∈ l) : ∃ token, Token.ofMark? c = some token := by
  obtain ⟨d, token, rfl, hm⟩ := h
  rw [List.mem_singleton.1 hc]
  exact ⟨token, hm⟩

theorem gap_iff (h : k.Has l) (hc : c ∈ l) : k = .gap ↔ isGap c := by
  have hrun (hr : isRunChar c) : ¬ isGap c := fun hg => by
    rw [isRunChar_of_isGap hg] at hr
    cases hr
  cases k with
  | gap => exact iff_of_true rfl (h.2 c hc)
  | mark =>
    obtain ⟨token, hm⟩ := ofMark?_of_has h hc
    exact iff_of_false nofun (by simp [not_isGap_of_ofMark? hm])
  | number => exact iff_of_false nofun (hrun (isRunChar_of_isDigit (h.2 c hc)))
  | word => exact iff_of_false nofun (hrun (h.2 c hc))

theorem run_iff (h : k.Has l) (hc : c ∈ l) : k = .number ∨ k = .word ↔ isRunChar c := by
  cases k with
  | gap => simp [isRunChar_of_isGap (h.2 c hc)]
  | mark =>
    obtain ⟨token, hm⟩ := ofMark?_of_has h hc
    simp [not_isRunChar_of_ofMark? hm]
  | number => simp [isRunChar_of_isDigit (h.2 c hc)]
  | word => simp [h.2 c hc]

theorem eq_mark {token : Token} (h : k.Has l) (hc : c ∈ l) (hm : Token.ofMark? c = some token) :
    k = .mark := by
  have hgap := gap_iff h hc
  have hrun := run_iff h hc
  rw [not_isGap_of_ofMark? hm] at hgap
  rw [not_isRunChar_of_ofMark? hm] at hrun
  cases k <;> simp_all

/-- The token that a lexeme stands for; a gap stands for none. -/
def token? : Kind → List Char → Option Token
  | .gap, _ => none
  | .mark, l => l.head?.bind Token.ofMark?
  | .number, l =>
    let value := Nat.ofDigitChars 10 l 0
    some (.number (if value < UInt32.size then some value.toUInt32 else none))
  | .word, l => some (.word (String.ofList l))

end Kind

/-- A run of digits is a number and a word, and the number comes first. -/
def lexicon : Lexicon Kind where
  Has := Kind.Has
  rank
    | .number => 1
    | _ => 0
  ne_nil
    | .gap, _, h => h.1
    | .mark, _, ⟨_, _, hl, _⟩ => by rw [hl]; nofun
    | .number, _, h => h.1
    | .word, _, h => h.1

theorem parts_isGap : lexicon.Parts isGap := fun k l h => by
  by_cases hk : k = .gap
  · exact .inl fun c hc => (Kind.gap_iff h hc).1 hk
  · exact .inr fun c hc => by rw [Bool.eq_false_iff, ne_eq, ← Kind.gap_iff h hc]; exact hk

theorem parts_isRunChar : lexicon.Parts isRunChar := fun k l h => by
  by_cases hk : k = .number ∨ k = .word
  · exact .inl fun c hc => (Kind.run_iff h hc).1 hk
  · exact .inr fun c hc => by rw [Bool.eq_false_iff, ne_eq, ← Kind.run_iff h hc]; exact hk

/-- White space in a lexeme is a gap. -/
theorem isGap_of_has (h : k.Has l) (hc : c ∈ l) (hb : Text.isBlank c) : isGap c := by
  have hrun : ¬ isRunChar c := fun hr => by rw [(isRunChar_iff.1 hr).1] at hb; cases hb
  rw [← Kind.run_iff h hc] at hrun
  cases k with
  | gap => exact h.2 c hc
  | mark =>
    obtain ⟨token, hm⟩ := Kind.ofMark?_of_has h hc
    rw [not_isBlank_of_ofMark? hm] at hb
    cases hb
  | number => exact absurd (.inl rfl) hrun
  | word => exact absurd (.inr rfl) hrun

/-! ### Tokens of lexemes -/

/-- The tokens of the lexemes of a text that starts at the byte `start` of its source. -/
def placed : Nat → List (Kind × List Char) → List Lexeme
  | _, [] => []
  | start, (k, l) :: ls =>
    let stop := start + byteLength l
    ((k.token? l).map fun token => ⟨token, ⟨start, stop⟩⟩).toList ++ placed stop ls

/-- What comes of a text with these lexemes: its tokens, or the fault in front of what is left. -/
def outcome (start : Nat) (ls : List (Kind × List Char)) (left : List Char) :
    Except Fault (List Lexeme) :=
  let stop := start + byteLength (chars ls)
  match left with
  | [] => .ok (placed start ls ++ [⟨.finish, ⟨stop, stop⟩⟩])
  | c :: _ => .error (.strayBlank ⟨stop, stop + c.utf8Size⟩ c)

theorem outcome_cons (start : Nat) (k : Kind) (l : List Char) (ls : List (Kind × List Char))
    (left : List Char) :
    outcome start ((k, l) :: ls) left =
      (outcome (start + byteLength l) ls left).map (placed start [(k, l)] ++ ·) := by
  cases left <;> simp [outcome, placed, Except.map, Nat.add_assoc]

theorem token?_number (h : ∀ c ∈ l, c.isDigit) : Kind.token? .number l = some (Token.ofRun l) := by
  rw [Token.ofRun, if_pos (List.all_eq_true.2 h)]
  rfl

theorem token?_word (h : ¬ ∀ c ∈ l, c.isDigit) : Kind.token? .word l = some (Token.ofRun l) := by
  rw [Token.ofRun, if_neg (by rwa [List.all_eq_true])]
  rfl

theorem lexemes_gaps (start : Nat) (cs : List Char) :
    lexemes start cs = lexemes (start + byteLength (cs.takeWhile isGap)) (cs.dropWhile isGap) := by
  induction cs generalizing start with
  | nil => rfl
  | cons c cs ih =>
    by_cases hg : isGap c
    · rw [lexemes_gap hg, ih, List.takeWhile_cons_of_pos hg, List.dropWhile_cons_of_pos hg,
        byteLength_cons, Nat.add_assoc]
    · rw [List.takeWhile_cons_of_neg hg, List.dropWhile_cons_of_neg hg]
      rfl

theorem exists_takes_run (hr : isRunChar c) (cs : List Char) :
    let run := c :: cs.takeWhile isRunChar
    ∃ k, lexicon.Takes (c :: cs) k run (cs.dropWhile isRunChar) ∧ k.token? run = some (.ofRun run) := by
  intro run
  have hkind (k : Kind) (h : k.Has run) : k = .number ∨ k = .word :=
    (Kind.run_iff h List.mem_cons_self).2 hr
  by_cases hd : ∀ d ∈ run, d.isDigit
  · have hk : Kind.number.Has run := ⟨List.cons_ne_nil _ _, hd⟩
    refine ⟨.number, Lexicon.takes_takeWhile parts_isRunChar hr hk fun k h => ?_, token?_number hd⟩
    rcases hkind k h with rfl | rfl
    · exact .inl rfl
    · exact .inr Nat.zero_lt_one
  · have hk : Kind.word.Has run := ⟨List.cons_ne_nil _ _, forall_takeWhile hr⟩
    refine ⟨.word, Lexicon.takes_takeWhile parts_isRunChar hr hk fun k h => ?_, token?_word hd⟩
    rcases hkind k h with rfl | rfl
    · exact absurd h.2 hd
    · exact .inl rfl

/-- Where no lexeme starts there is white space that is no gap; a lexeme that starts is taken off with
its token. -/
theorem stray_or_takes (c : Char) (cs : List Char) :
    (Text.isBlank c ∧ ¬ isGap c) ∨ ∃ k l rest, lexicon.Takes (c :: cs) k l rest ∧
      ∀ start, lexemes start (c :: cs) =
        (lexemes (start + byteLength l) rest).map (placed start [(k, l)] ++ ·) := by
  rcases starts_with c with hg | ⟨token, hm⟩ | hstray | hr
  · have hk : Kind.gap.Has (c :: cs.takeWhile isGap) := ⟨List.cons_ne_nil _ _, forall_takeWhile hg⟩
    refine .inr ⟨.gap, _, _, Lexicon.takes_takeWhile parts_isGap hg hk fun k' h =>
      .inl ((Kind.gap_iff h List.mem_cons_self).2 hg), fun start => ?_⟩
    rw [lexemes_gap hg, lexemes_gaps, byteLength_cons, Nat.add_assoc]
    cases lexemes (start + (c.utf8Size + byteLength (cs.takeWhile isGap))) (cs.dropWhile isGap) <;> rfl
  · have hk : Kind.mark.Has [c] := ⟨c, token, rfl, hm⟩
    have honly (k' : Kind) (l : List Char) (h : k'.Has (c :: l)) : l = [] := by
      obtain rfl := Kind.eq_mark h List.mem_cons_self hm
      obtain ⟨d, _, hl, -⟩ := h
      exact (List.cons.inj hl).2
    refine .inr ⟨.mark, [c], cs, Lexicon.takes_of_mark hk honly fun k' h =>
      .inl (Kind.eq_mark h List.mem_cons_self hm), fun start => ?_⟩
    rw [lexemes_mark hm]
    simp [placed, Kind.token?, hm]
  · exact .inl hstray
  · obtain ⟨k, htakes, htoken⟩ := exists_takes_run hr cs
    refine .inr ⟨k, _, _, htakes, fun start => ?_⟩
    rw [lexemes_run hr, placed, htoken]
    rfl

/-- A source is cut into lexemes up to the first white space that is no gap. -/
theorem exists_cuts (cs : List Char) :
    ∃ ls left, lexicon.Cuts cs ls left ∧ (∀ c ∈ left.head?, Text.isBlank c ∧ ¬ isGap c) ∧
      ∀ start, lexemes start cs = outcome start ls left := by
  induction hn : cs.length using Nat.strongRecOn generalizing cs with
  | ind n ih =>
    cases cs with
    | nil =>
      exact ⟨[], [], Lexicon.cuts_nil, nofun, fun start => lexemes_nil⟩
    | cons c cs =>
      rcases stray_or_takes c cs with hstray | ⟨k, l, rest, htakes, hlexemes⟩
      · refine ⟨[], c :: cs, .stuck fun k l rest hsplit hk => ?_, ?_, fun start => ?_⟩
        · obtain ⟨d, l, rfl⟩ := List.exists_cons_of_ne_nil (lexicon.ne_nil k l hk)
          obtain ⟨rfl, -⟩ := List.cons.inj hsplit
          exact hstray.2 (isGap_of_has hk List.mem_cons_self hstray.1)
        · rintro d ⟨⟩
          exact hstray
        · exact lexemes_blank hstray.1 hstray.2
      · obtain ⟨ls, left, hcuts, hleft, hrest⟩ :=
          ih rest.length (by rw [← hn]; exact htakes.length_lt) rest rfl
        refine ⟨(k, l) :: ls, left, .take htakes hcuts, hleft, fun start => ?_⟩
        rw [hlexemes, hrest, outcome_cons]

/-! ### What stands where -/

/-- The token is written in the text where its place says, and could not be longer. -/
inductive Stands (cs : List Char) : Lexeme → Prop
  | mark {before after : List Char} {c : Char} {token : Token} (h : cs = before ++ c :: after)
      (hm : Token.ofMark? c = some token) :
      Stands cs ⟨token, ⟨byteLength before, byteLength before + c.utf8Size⟩⟩
  | number {before run after : List Char} {value : Option UInt32} (h : cs = before ++ (run ++ after))
      (hrun : IsRun isRunChar before run after) (hd : ∀ c ∈ run, c.isDigit)
      (hv : ∀ n : UInt32, value = some n ↔ n.toNat = Nat.ofDigitChars 10 run 0) :
      Stands cs ⟨.number value, ⟨byteLength before, byteLength before + byteLength run⟩⟩
  | word {before run after : List Char} (h : cs = before ++ (run ++ after))
      (hrun : IsRun isRunChar before run after) (hd : ¬ ∀ c ∈ run, c.isDigit) :
      Stands cs ⟨.word (String.ofList run), ⟨byteLength before, byteLength before + byteLength run⟩⟩

theorem mem_placed :
    x ∈ placed start ls ↔ ∃ a k l b, ls = a ++ (k, l) :: b ∧ k.token? l = some x.token ∧
      x.place = ⟨start + byteLength (chars a), start + byteLength (chars a) + byteLength l⟩ := by
  induction ls generalizing start with
  | nil => simp [placed]
  | cons y ls ih =>
    obtain ⟨k, l⟩ := y
    rw [placed, List.mem_append, ih]
    constructor
    · rintro (hx | ⟨a, k', l', b, rfl, htoken, hplace⟩)
      · obtain ⟨token, htoken, rfl⟩ : ∃ token, k.token? l = some token ∧ _ = x := by simpa using hx
        exact ⟨[], k, l, ls, rfl, htoken, rfl⟩
      · exact ⟨(k, l) :: a, k', l', b, rfl, htoken, by simpa [Nat.add_assoc] using hplace⟩
    · rintro ⟨a, k', l', b, hls, htoken, hplace⟩
      cases a with
      | nil =>
        obtain ⟨⟨rfl, rfl⟩, rfl⟩ : (k = k' ∧ l = l') ∧ ls = b := by simpa using hls
        obtain ⟨token, place⟩ := x
        obtain rfl : place = _ := hplace
        left
        simp [show k.token? l = some token from htoken]
      | cons y a =>
        obtain ⟨rfl, rfl⟩ := List.cons.inj hls
        exact .inr ⟨a, k', l', b, rfl, htoken, by simpa [Nat.add_assoc] using hplace⟩

theorem value_eq_some_iff (value : Nat) (n : UInt32) :
    (if value < UInt32.size then some value.toUInt32 else none) = some n ↔ n.toNat = value := by
  split
  · next h =>
    rw [Option.some_inj, ← UInt32.toNat_inj, UInt32.toNat_ofNat_of_lt' h]
    exact eq_comm
  · next h =>
    refine iff_of_false nofun ?_
    rintro rfl
    exact h n.toNat_lt_size

theorem stands_of_cuts (h : lexicon.Cuts cs ls left) (hx : x ∈ placed 0 ls) : Stands cs x := by
  obtain ⟨token, place⟩ := x
  obtain ⟨a, k, l, b, rfl, htoken, hplace⟩ := mem_placed.1 hx
  obtain rfl : place = _ := hplace
  have hcs : cs = chars a ++ (l ++ (chars b ++ left)) := by
    rw [h.eq_append]
    simp
  have hk : k.Has l := h.takes.has
  have hrun (hl : ∀ c ∈ l, isRunChar c) : IsRun isRunChar (chars a) l (chars b ++ left) :=
    h.isRun parts_isRunChar (fun l hne hl => ⟨.word, hne, hl⟩) hl
  rw [Nat.zero_add]
  cases k with
  | gap => cases htoken
  | mark =>
    obtain ⟨c, token', rfl, hm⟩ := hk
    obtain rfl : token' = token := by simpa [Kind.token?, hm] using htoken
    exact .mark hcs hm
  | number =>
    obtain rfl := Option.some.inj htoken
    exact .number hcs (hrun fun c hc => isRunChar_of_isDigit (hk.2 c hc)) hk.2 (value_eq_some_iff _)
  | word =>
    obtain rfl := Option.some.inj htoken
    refine .word hcs (hrun hk.2) fun hd => ?_
    -- such a run would count as a number
    rcases h.takes.first .number ⟨hk.1, hd⟩ with hnumber | hlt
    · cases hnumber
    · cases hlt

theorem byteLength_eq_zero_iff : byteLength cs = 0 ↔ cs = [] := by
  cases cs with
  | nil => simp
  | cons c cs => simp [Nat.ne_of_gt c.utf8Size_pos]

theorem Stands.start_lt (h : Stands cs x) : x.place.start < x.place.stop := by
  have hpos {l : List Char} (hl : l ≠ []) : 0 < byteLength l :=
    Nat.pos_of_ne_zero fun h => hl (byteLength_eq_zero_iff.1 h)
  cases h with
  | mark h hm => exact Nat.lt_add_of_pos_right (Char.utf8Size_pos _)
  | number h hrun => exact Nat.lt_add_of_pos_right (hpos hrun.ne_nil)
  | word h hrun => exact Nat.lt_add_of_pos_right (hpos hrun.ne_nil)

theorem pairwise_placed (start : Nat) (ls : List (Kind × List Char)) :
    (placed start ls).Pairwise fun x y => x.place.stop ≤ y.place.start := by
  induction ls generalizing start with
  | nil => exact .nil
  | cons y ls ih =>
    obtain ⟨k, l⟩ := y
    refine List.pairwise_append.2 ⟨?_, ih _, fun x hx y hy => ?_⟩
    · cases k.token? l <;> simp
    · obtain ⟨token, -, rfl⟩ : ∃ token, k.token? l = some token ∧ _ = x := by simpa using hx
      obtain ⟨a, _, _, _, -, -, hplace⟩ := mem_placed.1 hy
      rw [hplace]
      exact Nat.le_add_right _ _

/-- A character is in a part of a text if its first byte is among the bytes of the part. -/
theorem mem_of_byte (h : before ++ c :: after = l ++ (text ++ rest))
    (hle : byteLength l ≤ byteLength before)
    (hlt : byteLength before < byteLength l + byteLength text) : c ∈ text := by
  rcases List.append_eq_append_iff.1 h with ⟨m, rfl, hm⟩ | ⟨m, rfl, hm⟩
  · obtain rfl : m = [] := byteLength_eq_zero_iff.1 (by rw [byteLength_append] at hle; omega)
    cases text with
    | nil => simp at hlt
    | cons d text =>
      obtain ⟨rfl, -⟩ := List.cons.inj hm
      exact List.mem_cons_self
  · rw [byteLength_append, Nat.add_lt_add_iff_left] at hlt
    rcases List.append_eq_append_iff.1 hm with ⟨m', rfl, -⟩ | ⟨m', rfl, hm'⟩
    · rw [byteLength_append] at hlt
      omega
    · cases m' with
      | nil => simp at hlt
      | cons d m' =>
        obtain ⟨rfl, -⟩ := List.cons.inj hm'
        simp

theorem Stands.not_isGap (hx : Stands cs x) (h : cs = before ++ c :: after)
    (hle : x.place.start ≤ byteLength before) (hlt : byteLength before < x.place.stop) : ¬ isGap c := by
  have hrun (hr : isRunChar c) : ¬ isGap c := fun hg => by rw [isRunChar_of_isGap hg] at hr; cases hr
  cases hx with
  | @mark before' after' d token h' hm =>
    have hc : c ∈ [d] := mem_of_byte (h.symm.trans h') hle hlt
    rw [List.mem_singleton.1 hc, not_isGap_of_ofMark? hm]
    nofun
  | number h' hr => exact hrun (hr.all c (mem_of_byte (h.symm.trans h') hle hlt))
  | word h' hr => exact hrun (hr.all c (mem_of_byte (h.symm.trans h') hle hlt))

/-- The tokens cover all but the gaps. -/
theorem covered_iff (h : lexicon.Cuts cs ls []) (hsplit : cs = before ++ c :: after) :
    (∃ x ∈ placed 0 ls, x.place.start ≤ byteLength before ∧ byteLength before < x.place.stop) ↔
      ¬ isGap c := by
  constructor
  · rintro ⟨x, hx, hle, hlt⟩
    exact (stands_of_cuts h hx).not_isGap hsplit hle hlt
  · intro hc
    have hchars : chars ls = before ++ c :: after := by rw [← hsplit, h.eq_append, List.append_nil]
    obtain ⟨a, k, l₁, l₂, b, rfl, rfl⟩ := Lexicon.exists_lexeme hchars
    have hk : k.Has (l₁ ++ c :: l₂) := h.takes.has
    have hcl : c ∈ l₁ ++ c :: l₂ := by simp
    obtain ⟨token, htoken⟩ : ∃ token, k.token? (l₁ ++ c :: l₂) = some token := by
      cases k with
      | gap => exact absurd (hk.2 c hcl) hc
      | mark =>
        obtain ⟨d, token, hl, hm⟩ := hk
        exact ⟨token, by rw [hl]; exact hm⟩
      | number => exact ⟨_, rfl⟩
      | word => exact ⟨_, rfl⟩
    refine ⟨⟨token, ⟨_, _⟩⟩, mem_placed.2 ⟨a, k, _, b, rfl, htoken, rfl⟩, ?_, ?_⟩
    · simp
    · have := c.utf8Size_pos
      simp only [byteLength_append, byteLength_cons]
      omega

/-- A source cannot be cut into tokens if there is white space in it that is no gap, and the first such
character is at fault. Otherwise its tokens stand where their places say, one behind the other, they
cover all but the gaps, and the end of the source comes last. -/
theorem tokenize_maximal (source : String) :
    (∃ before c after, source.toList = before ++ c :: after ∧
      (∀ d ∈ before, Text.isBlank d → isGap d) ∧ Text.isBlank c ∧ ¬ isGap c ∧
        tokenize source = .error (.strayBlank ⟨byteLength before, byteLength before + c.utf8Size⟩ c)) ∨
    (∀ d ∈ source.toList, Text.isBlank d → isGap d) ∧
      ∃ tokens, tokenize source =
          .ok (tokens ++ [⟨.finish, ⟨byteLength source.toList, byteLength source.toList⟩⟩]) ∧
        (∀ x ∈ tokens, Stands source.toList x ∧ x.place.start < x.place.stop) ∧
        tokens.Pairwise (fun x y => x.place.stop ≤ y.place.start) ∧
        ∀ before c after, source.toList = before ++ c :: after →
          ((∃ x ∈ tokens, x.place.start ≤ byteLength before ∧ byteLength before < x.place.stop) ↔
            ¬ isGap c) := by
  obtain ⟨ls, left, hcuts, hleft, hlexemes⟩ := exists_cuts source.toList
  have hgaps : ∀ d ∈ chars ls, Text.isBlank d → isGap d := fun d hd => by
    obtain ⟨⟨k, l⟩, hmem, hdl⟩ := List.mem_flatMap.1 hd
    exact isGap_of_has (hcuts.has _ hmem) hdl
  have htokenize : tokenize source = outcome 0 ls left := hlexemes 0
  cases left with
  | nil =>
    have hchars : chars ls = source.toList := by rw [hcuts.eq_append, List.append_nil]
    rw [hchars] at hgaps
    refine .inr ⟨hgaps, placed 0 ls, ?_, fun x hx => ?_, pairwise_placed 0 ls,
      fun before c after hsplit => covered_iff hcuts hsplit⟩
    · rw [htokenize, outcome, hchars, Nat.zero_add]
    · exact ⟨stands_of_cuts hcuts hx, (stands_of_cuts hcuts hx).start_lt⟩
  | cons c after =>
    obtain ⟨hb, hg⟩ := hleft c rfl
    refine .inl ⟨chars ls, c, after, hcuts.eq_append, hgaps, hb, hg, ?_⟩
    rw [htokenize, outcome, Nat.zero_add]

end Dialogue.Source
