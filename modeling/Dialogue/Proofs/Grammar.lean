import Dialogue.Proofs.Lists
import Dialogue.Proofs.Tokens

/-!
# What can be read

A datum is written as tokens (`Datum.tokens`), a list as its cells between parentheses. Reading undoes
this and nothing else: what is written is read back (`fill_tokens`), and what has been read was written
like that (`tokens_of_fill`); on the way, `begun` is what has been read of the lists that are still
open. Where reading fails it does so at the first token that cannot stand in its place
(`firstOffence?`), which takes no more to see than which parentheses are open there.
-/

namespace Dialogue

open Source (Token Lexeme Fault)

/-- The token that a word is written as. -/
def Word.token (w : Word) : Token := if w.text = "=" then .equals else .word w.text

namespace Datum

mutual

/-- The tokens that a datum is written as. -/
def tokens : Datum → List Token
  | .word w => [w.token]
  | .number n => [.number (some n)]
  | .list cells => .opening :: (tokensAll cells ++ [.closing])

def tokensAll : List Datum → List Token
  | [] => []
  | d :: ds => d.tokens ++ tokensAll ds

end

theorem tokensAll_append (as bs : List Datum) :
    tokensAll (as ++ bs) = tokensAll as ++ tokensAll bs := by
  induction as with
  | nil => rfl
  | cons a as ih => simp [tokensAll, ih]

end Datum

namespace Source

open Datum (tokensAll)

/-- The tokens of lists that are written one after the other. -/
def written (lists : List (List Datum)) : List Token := tokensAll (lists.map .list)

variable {outer : List OpenList} {inner : OpenList} {ts body after : List Lexeme} {cells : List Datum}
  {fault : Fault} {place : Span} {opened : List Span}

/-! ### The tokens of a text -/

/-- A spelling that is read as one word: of characters that neither separate tokens nor are tokens of
their own, and not of digits only. -/
structure Plain (s : String) : Prop where
  notBlank : ∀ c ∈ s.toList, Text.isBlank c = false
  notMark : ∀ c ∈ s.toList, c ≠ '(' ∧ c ≠ ')' ∧ c ≠ '='
  notNumber : ∃ c ∈ s.toList, c.isDigit = false

theorem Plain.ne_equals {s : String} (h : Plain s) : s ≠ "=" := by
  rintro rfl
  exact (h.notMark '=' (by decide)).2.2 rfl

theorem plain_ofList {run : List Char} (h : ∀ c ∈ run, isRunChar c) (hd : run.all Char.isDigit = false) :
    Plain (String.ofList run) := by
  have hrun : ∀ c ∈ run, Text.isBlank c = false ∧ c ≠ '(' ∧ c ≠ ')' ∧ c ≠ '=' := fun c hc => by
    simpa [isRunChar, and_assoc] using h c hc
  refine ⟨?_, ?_, ?_⟩ <;> rw [String.toList_ofList]
  · exact fun c hc => (hrun c hc).1
  · exact fun c hc => (hrun c hc).2
  · simpa using hd

/-- A token that stands before the end of a text. -/
def Token.Inner : Token → Prop
  | .finish => False
  | .word s => Plain s
  | _ => True

theorem Token.Inner.ne_finish {t : Token} (h : t.Inner) : t ≠ .finish := by
  rintro rfl
  exact h

theorem Token.inner_ofMark? {c : Char} {t : Token} (h : Token.ofMark? c = some t) : t.Inner := by
  rcases Token.ofMark?_eq_some_iff.1 h with ⟨-, rfl⟩ | ⟨-, rfl⟩ | ⟨-, rfl⟩ <;> trivial

theorem Token.inner_ofRun {run : List Char} (h : ∀ c ∈ run, isRunChar c) : (Token.ofRun run).Inner := by
  unfold Token.ofRun
  split
  · trivial
  · rename_i hd
    exact plain_ofList h (by simpa using hd)

/-- Inner tokens, and the end behind them. -/
def Ended (ts : List Lexeme) : Prop :=
  ∃ body place, ts = body ++ [⟨.finish, place⟩] ∧ ∀ x ∈ body, x.token.Inner

namespace Ended

theorem cons {x : Lexeme} (hx : x.token.Inner) (h : Ended ts) : Ended (x :: ts) := by
  obtain ⟨body, place, rfl, hbody⟩ := h
  exact ⟨x :: body, place, rfl, List.forall_mem_cons.2 ⟨hx, hbody⟩⟩

theorem eq_nil {x : Lexeme} (h : Ended (x :: ts)) (hx : x.token = .finish) : ts = [] := by
  obtain ⟨body, place, hts, hbody⟩ := h
  cases body with
  | nil => exact (List.cons.inj hts).2
  | cons y body =>
    obtain ⟨rfl, -⟩ := List.cons.inj hts
    exact absurd hx (hbody _ List.mem_cons_self).ne_finish

theorem tail {x : Lexeme} (h : Ended (x :: ts)) (hx : x.token ≠ .finish) :
    x.token.Inner ∧ Ended ts := by
  obtain ⟨body, place, hts, hbody⟩ := h
  cases body with
  | nil =>
    obtain ⟨rfl, -⟩ := List.cons.inj hts
    exact absurd rfl hx
  | cons y body =>
    obtain ⟨rfl, rfl⟩ := List.cons.inj hts
    obtain ⟨hy, hbody⟩ := List.forall_mem_cons.1 hbody
    exact ⟨hy, body, place, rfl, hbody⟩

end Ended

/-- A text that can be cut into tokens has inner tokens and an end. -/
theorem ended_of_lexemes {start : Nat} {cs : List Char} (h : lexemes start cs = .ok ts) : Ended ts := by
  induction start, cs using lexemes_induction generalizing ts with
  | hnil start =>
    rw [lexemes_nil] at h
    cases h
    exact ⟨[], _, rfl, nofun⟩
  | hgap start c cs hg ih =>
    rw [lexemes_gap hg] at h
    exact ih h
  | hmark start c cs token hm ih =>
    rw [lexemes_mark hm] at h
    obtain ⟨rest, hrest, rfl⟩ := map_eq_ok.1 h
    exact (ih hrest).cons (Token.inner_ofMark? hm)
  | hblank start c cs hb hg =>
    rw [lexemes_blank hb hg] at h
    cases h
  | hrun start c cs hr ih =>
    rw [lexemes_run hr] at h
    obtain ⟨rest, hrest, rfl⟩ := map_eq_ok.1 h
    exact (ih hrest).cons (Token.inner_ofRun (forall_takeWhile hr))

/-! ### What is written is read -/

namespace OpenList

theorem close_push (l : OpenList) (d : Datum) : (l.push d).close = l.close ++ [d] := List.reverse_cons

theorem close_foldl_push (l : OpenList) (ds : List Datum) :
    (ds.foldl push l).close = l.close ++ ds := by
  induction ds generalizing l with
  | nil => rw [List.foldl_nil, List.append_nil]
  | cons d ds ih => rw [List.foldl_cons, ih, close_push, List.append_assoc]; rfl

end OpenList

theorem exists_of_tokens_list (h : ts.map Lexeme.token = (Datum.list cells).tokens) :
    ∃ place used place', ts = ⟨.opening, place⟩ :: (used ++ [⟨.closing, place'⟩]) ∧
      used.map Lexeme.token = tokensAll cells := by
  obtain ⟨⟨token, place⟩, ts, rfl, rfl, hcells⟩ := List.map_eq_cons_iff.1 h
  obtain ⟨used, last, rfl, hused, hlast⟩ := List.map_eq_append_iff.1 hcells
  obtain ⟨⟨token, place'⟩, rfl, rfl⟩ := List.map_eq_singleton_iff.1 hlast
  exact ⟨place, used, place', rfl, hused⟩

mutual

/-- A datum that is written in an open list becomes its next cell. -/
theorem fill_tokens (d : Datum) {ts : List Lexeme} (h : ts.map Lexeme.token = d.tokens)
    (outer : List OpenList) (inner : OpenList) (rest : List Lexeme) :
    fill outer inner (ts ++ rest) = fill outer (inner.push d) rest := by
  cases d with
  | word w =>
    obtain ⟨⟨token, place⟩, rfl, htoken⟩ := List.map_eq_singleton_iff.1 h
    subst htoken
    by_cases hw : w.text = "="
    · rw [Word.token, if_pos hw, show w = ⟨"="⟩ from congrArg Word.mk hw]
      rfl
    · rw [Word.token, if_neg hw]
      rfl
  | number n =>
    obtain ⟨⟨token, place⟩, rfl, rfl⟩ := List.map_eq_singleton_iff.1 h
    rfl
  | list cells =>
    obtain ⟨place, used, place', rfl, hused⟩ := exists_of_tokens_list h
    have hfill := fill_tokensAll cells hused (inner :: outer) ⟨place, []⟩ (⟨.closing, place'⟩ :: rest)
    have hclose : (cells.foldl OpenList.push ⟨place, []⟩).close = cells :=
      OpenList.close_foldl_push ⟨place, []⟩ cells
    rw [List.cons_append, List.append_assoc]
    show fill (inner :: outer) ⟨place, []⟩ (used ++ ⟨.closing, place'⟩ :: rest) = _
    rw [hfill]
    show fill outer (inner.push (.list (cells.foldl OpenList.push ⟨place, []⟩).close)) rest = _
    rw [hclose]

theorem fill_tokensAll (ds : List Datum) {ts : List Lexeme} (h : ts.map Lexeme.token = tokensAll ds)
    (outer : List OpenList) (inner : OpenList) (rest : List Lexeme) :
    fill outer inner (ts ++ rest) = fill outer (ds.foldl OpenList.push inner) rest := by
  cases ds with
  | nil => rw [List.map_eq_nil_iff.1 h]; rfl
  | cons d ds =>
    obtain ⟨us, vs, rfl, hus, hvs⟩ := List.map_eq_append_iff.1 h
    rw [List.append_assoc, fill_tokens d hus, fill_tokensAll ds hvs]
    rfl

end

/-! ### What is read has been written -/

/-- What has been read of some open lists, innermost first. -/
def begun : List OpenList → List Token
  | [] => []
  | l :: outer => begun outer ++ .opening :: tokensAll l.close

theorem begun_push (l : OpenList) (d : Datum) (outer : List OpenList) :
    begun (l.push d :: outer) = begun (l :: outer) ++ d.tokens := by
  simp [begun, OpenList.close_push, Datum.tokensAll_append, tokensAll]

theorem tokens_of_fill (he : Ended ts) (h : fill outer inner ts = (.ok cells, after)) :
    ∃ used, ts = used ++ after ∧ Ended after ∧
      begun (inner :: outer) ++ used.map Lexeme.token = (Datum.list cells).tokens := by
  induction ts generalizing outer inner with
  | nil => cases h
  | cons x ts ih =>
    obtain ⟨token, place⟩ := x
    by_cases hx : token = .finish
    · subst hx
      cases h
    obtain ⟨hinner, htail⟩ := he.tail hx
    -- a token that does not close the outermost list is one more that has been read of the open lists
    have hpass : ∀ {outer' inner'},
        fill outer inner (⟨token, place⟩ :: ts) = fill outer' inner' ts →
        begun (inner' :: outer') = begun (inner :: outer) ++ [token] →
        ∃ used, ⟨token, place⟩ :: ts = used ++ after ∧ Ended after ∧
          begun (inner :: outer) ++ used.map Lexeme.token = (Datum.list cells).tokens := by
      intro outer' inner' hnext hbegun
      rw [hnext] at h
      obtain ⟨used, rfl, hafter, htokens⟩ := ih htail h
      refine ⟨⟨token, place⟩ :: used, rfl, hafter, ?_⟩
      rw [hbegun, List.append_assoc] at htokens
      exact htokens
    cases token with
    | finish => exact absurd rfl hx
    | opening => exact hpass rfl rfl
    | equals => exact hpass rfl (begun_push inner (.ofText "=") outer)
    | word text =>
      refine hpass rfl ((begun_push inner (.ofText text) outer).trans ?_)
      rw [Datum.ofText, Datum.tokens, Word.token, if_neg hinner.ne_equals]
    | number value =>
      cases value with
      | some n => exact hpass rfl (begun_push inner (.number n) outer)
      | none => cases h
    | closing =>
      cases outer with
      | cons next outer =>
        refine hpass rfl ((begun_push next (.list inner.close) outer).trans ?_)
        simp [begun, Datum.tokens]
      | nil =>
        cases h
        exact ⟨[⟨.closing, place⟩], rfl, htail, rfl⟩

/-! ### What cannot be read -/

/-- The parentheses that are open behind a token, innermost first. -/
def Lexeme.nest (opened : List Span) (x : Lexeme) : List Span :=
  match x.token with
  | .opening => x.place :: opened
  | .closing => opened.tail
  | _ => opened

/-- The fault of a token that cannot stand where these parentheses are open. -/
def Lexeme.offence? (opened : List Span) (x : Lexeme) : Option Fault :=
  match opened, x.token with
  | [], .opening => none
  | [], .finish => none
  | [], _ => some (.notAList x.place)
  | _ :: _, .number none => some (.hugeNumber x.place)
  | innermost :: _, .finish => some (.unclosed innermost)
  | _ :: _, _ => none

/-- The fault of the first token that cannot stand where it does. -/
def firstOffence? (opened : List Span) : List Lexeme → Option Fault
  | [] => none
  | x :: ts => (x.offence? opened).or (firstOffence? (x.nest opened) ts)

theorem firstOffence?_fill (he : Ended ts) :
    firstOffence? ((inner :: outer).map OpenList.place) ts =
      match fill outer inner ts with
      | (.ok _, after) => firstOffence? [] after
      | (.error fault, _) => some fault := by
  induction ts generalizing outer inner with
  | nil =>
    obtain ⟨body, place, hts, -⟩ := he
    simp at hts
  | cons x ts ih =>
    obtain ⟨token, place⟩ := x
    by_cases hx : token = .finish
    · subst hx
      rfl
    obtain ⟨-, htail⟩ := he.tail hx
    have hpass : ∀ {outer' inner'},
        fill outer inner (⟨token, place⟩ :: ts) = fill outer' inner' ts →
        firstOffence? ((inner :: outer).map OpenList.place) (⟨token, place⟩ :: ts) =
          firstOffence? ((inner' :: outer').map OpenList.place) ts →
        firstOffence? ((inner :: outer).map OpenList.place) (⟨token, place⟩ :: ts) =
          match fill outer inner (⟨token, place⟩ :: ts) with
          | (.ok _, after) => firstOffence? [] after
          | (.error fault, _) => some fault := by
      intro outer' inner' hnext hfirst
      rw [hnext, hfirst]
      exact ih htail
    cases token with
    | finish => exact absurd rfl hx
    | opening | equals | word => exact hpass rfl rfl
    | number value =>
      cases value with
      | some n => exact hpass rfl rfl
      | none => rfl
    | closing =>
      cases outer with
      | nil => rfl
      | cons next outer => exact hpass rfl rfl

/-- A fault is found at the first token that cannot stand where it does. -/
theorem firstOffence?_eq_some_iff :
    firstOffence? opened ts = some fault ↔
      ∃ before x after, ts = before ++ x :: after ∧
        x.offence? (before.foldl Lexeme.nest opened) = some fault ∧
        ∀ b y a, before = b ++ y :: a → y.offence? (b.foldl Lexeme.nest opened) = none := by
  induction ts generalizing opened with
  | nil =>
    refine ⟨nofun, ?_⟩
    rintro ⟨before, x, after, hts, -⟩
    simp at hts
  | cons x ts ih =>
    rw [firstOffence?, Option.or_eq_some_iff, ih]
    constructor
    · rintro (hx | ⟨hx, before, y, after, rfl, hy, hbefore⟩)
      · exact ⟨[], x, ts, rfl, hx, by simp⟩
      · refine ⟨x :: before, y, after, rfl, hy, fun b z a hz => ?_⟩
        cases b with
        | nil =>
          obtain ⟨rfl, -⟩ := List.cons.inj hz
          exact hx
        | cons w b =>
          obtain ⟨rfl, rfl⟩ := List.cons.inj hz
          exact hbefore b z a rfl
    · rintro ⟨before, y, after, hts, hy, hbefore⟩
      cases before with
      | nil =>
        obtain ⟨rfl, rfl⟩ := List.cons.inj hts
        exact .inl hy
      | cons w before =>
        obtain ⟨rfl, rfl⟩ := List.cons.inj hts
        refine .inr ⟨hbefore [] _ _ rfl, before, y, after, rfl, hy, fun b z a hz => ?_⟩
        exact hbefore (_ :: b) z a (congrArg _ hz)

variable {r r' : Reader} {lists : List (List Datum)}

namespace Reader

theorem tokens_of_next (he : Ended r.rest) (h : r.next = (.ok (some cells), r')) :
    ∃ used, r.rest = used ++ r'.rest ∧ Ended r'.rest ∧
      used.map Lexeme.token = (Datum.list cells).tokens := by
  obtain ⟨_ | ⟨⟨token, place⟩, ts⟩⟩ := r
  · cases h
  · cases token with
    | opening =>
      obtain ⟨-, htail⟩ := he.tail nofun
      cases hf : fill [] ⟨place, []⟩ ts with
      | mk result rest =>
        simp only [next, hf] at h
        obtain ⟨hcells, rfl⟩ := Prod.mk.inj h
        cases result with
        | error => cases hcells
        | ok filled =>
          cases hcells
          obtain ⟨used, rfl, hafter, htokens⟩ := tokens_of_fill htail hf
          exact ⟨⟨.opening, place⟩ :: used, rfl, hafter, htokens⟩
    | _ => cases h

theorem Reads.tokens (h : Reads r lists r') (he : Ended r.rest) :
    ∃ used, r.rest = used ++ r'.rest ∧ Ended r'.rest ∧
      used.map Lexeme.token = written lists := by
  induction h with
  | nothing => exact ⟨[], rfl, he, rfl⟩
  | list hnext _ ih =>
    obtain ⟨used, hrest, he, htokens⟩ := tokens_of_next he hnext
    obtain ⟨used', hrest', he', htokens'⟩ := ih he
    refine ⟨used ++ used', ?_, he', ?_⟩
    · rw [hrest, hrest', List.append_assoc]
    · rw [List.map_append, htokens, htokens']
      rfl

theorem next_tokens (h : ts.map Lexeme.token = (Datum.list cells).tokens) (rest : List Lexeme) :
    next ⟨ts ++ rest⟩ = (.ok (some cells), ⟨rest⟩) := by
  obtain ⟨place, used, place', rfl, hused⟩ := exists_of_tokens_list h
  have hfill : fill [] ⟨place, []⟩ (used ++ ⟨.closing, place'⟩ :: rest) =
      (.ok (cells.foldl OpenList.push ⟨place, []⟩).close, rest) :=
    fill_tokensAll cells hused [] ⟨place, []⟩ (⟨.closing, place'⟩ :: rest)
  have hclose : (cells.foldl OpenList.push ⟨place, []⟩).close = cells :=
    OpenList.close_foldl_push ⟨place, []⟩ cells
  rw [List.cons_append, List.append_assoc]
  simp only [next, List.singleton_append, hfill, hclose]
  rfl

theorem reads_tokens (h : ts.map Lexeme.token = written lists) (rest : List Lexeme) :
    Reads ⟨ts ++ rest⟩ lists ⟨rest⟩ := by
  induction lists generalizing ts with
  | nil => rw [List.map_eq_nil_iff.1 h]; exact .nothing _
  | cons cells lists ih =>
    obtain ⟨us, vs, rfl, hus, hvs⟩ := List.map_eq_append_iff.1 h
    rw [List.append_assoc]
    exact .list (next_tokens hus _) (ih hvs)

theorem all_eq_ok_iff : r.all = .ok lists ↔ r.lists = (lists, none) := by
  unfold all
  rcases r.lists with ⟨ls, _ | f⟩ <;> simp

theorem all_eq_error_iff : r.all = .error fault ↔ r.lists.2 = some fault := by
  unfold all
  rcases r.lists with ⟨ls, _ | f⟩ <;> simp

theorem all_of_tokens (h : ts.map Lexeme.token = written lists) (place : Span) :
    all ⟨ts ++ [⟨.finish, place⟩]⟩ = .ok lists := by
  rw [all_eq_ok_iff, (reads_tokens h _).lists_eq, lists_of_next_none rfl, List.append_nil]

theorem tokens_of_all (he : Ended r.rest) (h : r.all = .ok lists) :
    ∃ ts place, r.rest = ts ++ [⟨.finish, place⟩] ∧
      ts.map Lexeme.token = written lists := by
  obtain ⟨r', hreads, hend⟩ := r.reads_lists
  rw [all_eq_ok_iff.1 h] at hreads hend
  obtain ⟨ts, hrest, he', htokens⟩ := hreads.tokens he
  -- no list is left, so what is left is the end
  obtain ⟨_ | ⟨⟨token, place⟩, rest⟩⟩ := r'
  · obtain ⟨body, place, hnil, -⟩ := he'
    simp at hnil
  · cases token with
    | finish =>
      obtain rfl : rest = [] := he'.eq_nil rfl
      exact ⟨ts, place, hrest, htokens⟩
    | opening =>
      simp only [next] at hend
      cases hf : (fill [] ⟨place, []⟩ rest).1 <;> rw [hf] at hend <;> cases hend
    | _ => cases hend

theorem lists_snd (he : Ended r.rest) : r.lists.2 = firstOffence? [] r.rest := by
  induction hn : r.rest.length using Nat.strongRecOn generalizing r with
  | ind n ih =>
    subst hn
    obtain ⟨_ | ⟨⟨token, place⟩, ts⟩⟩ := r
    · rw [lists_of_next_none rfl]
      rfl
    · cases token with
      | finish =>
        obtain rfl : ts = [] := he.eq_nil rfl
        rw [lists_of_next_none rfl]
        rfl
      | opening =>
        obtain ⟨-, htail⟩ := he.tail nofun
        have hoffence := @firstOffence?_fill [] ⟨place, []⟩ ts htail
        have hnext : next ⟨⟨.opening, place⟩ :: ts⟩ =
            ((fill [] ⟨place, []⟩ ts).1.map some, ⟨(fill [] ⟨place, []⟩ ts).2⟩) := rfl
        have hfirst : firstOffence? [] (⟨.opening, place⟩ :: ts) = firstOffence? [place] ts := rfl
        rw [hfirst]
        cases hf : fill [] ⟨place, []⟩ ts with
        | mk result after =>
          rw [hf] at hnext hoffence
          cases result with
          | error fault =>
            rw [lists_of_next_error (congrArg Prod.fst hnext)]
            exact hoffence.symm
          | ok cells =>
            obtain ⟨used, rfl, hafter, -⟩ := tokens_of_fill htail hf
            rw [lists_of_next_some hnext]
            have hlen : after.length < (⟨.opening, place⟩ :: (used ++ after)).length := by
              simp only [List.length_cons, List.length_append]
              omega
            exact (ih _ hlen (r := ⟨after⟩) hafter rfl).trans hoffence.symm
      | _ =>
        rw [lists_of_next_error rfl]
        rfl

end Reader

/-- The parentheses that are open behind some tokens, innermost first. -/
def openBehind (ts : List Lexeme) : List Span := ts.foldl Lexeme.nest []

/-- The fault of the first of the tokens that cannot stand where it does. -/
def FirstOffence (ts : List Lexeme) (fault : Fault) : Prop :=
  ∃ before x after, ts = before ++ x :: after ∧ x.offence? (openBehind before) = some fault ∧
    ∀ b y a, before = b ++ y :: a → y.offence? (openBehind b) = none

theorem firstOffence_iff : FirstOffence ts fault ↔ firstOffence? [] ts = some fault :=
  firstOffence?_eq_some_iff.symm

instance : Decidable (FirstOffence ts fault) := decidable_of_iff _ firstOffence_iff.symm

theorem FirstOffence.phase (h : FirstOffence ts fault) : fault.phase = .parser := by
  obtain ⟨before, x, -, -, hx, -⟩ := h
  unfold Lexeme.offence? at hx
  split at hx <;> cases hx <;> rfl

theorem Reader.ended_of_ofSource {source : String} (h : ofSource source = .ok r) : Ended r.rest := by
  cases ht : tokenize source with
  | error fault => rw [ofSource, ht] at h; cases h
  | ok ts =>
    rw [ofSource, ht] at h
    cases h
    exact ended_of_lexemes ht

/-- A source can be read if its tokens are those of lists, and these lists are what is read. If not,
the fault is that of the first token that cannot stand where it does. -/
theorem reads_what_is_written {source : String} (h : Reader.ofSource source = .ok r) :
    ∃ ts place, r.rest = ts ++ [⟨.finish, place⟩] ∧
      (∀ lists, r.all = .ok lists ↔ ts.map Lexeme.token = written lists) ∧
      (∀ lists lists', ts.map Lexeme.token = written lists → ts.map Lexeme.token = written lists' →
        lists = lists') ∧
      ((∀ lists, ts.map Lexeme.token ≠ written lists) →
        ∃ fault, r.all = .error fault ∧ fault.phase = .parser) ∧
      ∀ fault, r.all = .error fault ↔ FirstOffence r.rest fault := by
  have he := Reader.ended_of_ofSource h
  have hfault : ∀ fault, r.all = .error fault ↔ FirstOffence r.rest fault := by
    intro fault
    rw [Reader.all_eq_error_iff, Reader.lists_snd he, firstOffence_iff]
  obtain ⟨ts, place, hrest, -⟩ := id he
  have hall : ∀ lists, r.all = .ok lists ↔ ts.map Lexeme.token = written lists := by
    intro lists
    constructor
    · intro hr
      obtain ⟨ts', place', hrest', htokens⟩ := Reader.tokens_of_all he hr
      rwa [(List.append_inj' (hrest.symm.trans hrest') rfl).1]
    · intro htokens
      rw [← Reader.all_of_tokens htokens place, ← hrest]
  refine ⟨ts, place, hrest, hall, fun lists lists' hl hl' => ?_, fun hnone => ?_, hfault⟩
  · exact Except.ok.inj (((hall lists).2 hl).symm.trans ((hall lists').2 hl'))
  · cases hr : r.all with
    | ok lists => exact absurd ((hall lists).1 hr) (hnone lists)
    | error fault => exact ⟨fault, rfl, ((hfault fault).1 hr).phase⟩

/-- A word that starts with a digit, a number with a leading zero; a number that cannot be stored, in a
list that is not closed either. -/
theorem reads_what_is_written_nested :
    (∃ r, Reader.ofSource "(A (=2ND) 07)" = .ok r ∧
      r.all = .ok [[.ofText "A", .list [.ofText "=", .ofText "2ND"], .number 7]]) ∧
    ∃ r, Reader.ofSource "(A (B) (C 4294967296" = .ok r ∧ r.all = .error (.hugeNumber ⟨10, 20⟩) := by
  constructor
  · have htokens : (Reader.ofSource "(A (=2ND) 07)").map (fun r => r.rest.map Lexeme.token) =
        .ok (written [[.ofText "A", .list [.ofText "=", .ofText "2ND"], .number 7]] ++ [.finish]) := by
      decide +kernel
    obtain ⟨r, hr, htokens⟩ := map_eq_ok.1 htokens
    obtain ⟨ts, place, hrest, hall, -⟩ := reads_what_is_written hr
    rw [hrest, List.map_append] at htokens
    exact ⟨r, hr, (hall _).2 (List.append_cancel_right htokens)⟩
  · have hfault : (Reader.ofSource "(A (B) (C 4294967296").map
        (fun r => decide (FirstOffence r.rest (.hugeNumber ⟨10, 20⟩))) = .ok true := by
      decide +kernel
    obtain ⟨r, hr, hfault⟩ := map_eq_ok.1 hfault
    obtain ⟨ts, place, -, -, -, -, hall⟩ := reads_what_is_written hr
    exact ⟨r, hr, (hall _).2 (of_decide_eq_true hfault)⟩

end Source

end Dialogue
