import Dialogue.Proofs.Alike
import Dialogue.Proofs.Contents

/-!
# The order of a script

What a script says (`Script.Says`) depends on the order of those lists only that start with the same
word. Scripts whose lists come in another order otherwise say the same, and their tables are alike.
-/

namespace Dialogue

namespace Script

open Source (Reader)

variable {greeting : List Datum} {body body' : List (List Datum)} {script script' : Script}

/-- The two sequences hold the same lists, and those that start with the same word in the same order. -/
structure SameButOrder (body body' : List (List Datum)) : Prop where
  perm : body.Perm body'
  filter : ∀ w, body.filter (headedBy w) = body'.filter (headedBy w)

namespace SameButOrder

/-- Neighbours that start with different words can change places. -/
theorem swap {a b : List Datum} (hne : ∀ w, headedBy w a → ¬ headedBy w b) (l : List (List Datum)) :
    SameButOrder (a :: b :: l) (b :: a :: l) := by
  refine ⟨.swap b a l, fun w => ?_⟩
  by_cases ha : headedBy w a
  · have hb := hne w ha
    rw [List.filter_cons_of_pos ha, List.filter_cons_of_neg hb, List.filter_cons_of_neg hb,
      List.filter_cons_of_pos ha]
  · rw [List.filter_cons_of_neg ha, List.filter_cons, List.filter_cons, List.filter_cons_of_neg ha]

theorem find?_reverse (h : SameButOrder body body') (w : Word) :
    body.reverse.find? (headedBy w) = body'.reverse.find? (headedBy w) := by
  rw [← List.head?_filter, ← List.head?_filter, List.filter_reverse, List.filter_reverse, h.filter]

theorem find?_entry (h : SameButOrder body body') (w : Word) :
    body.find? (isEntryOf w) = body'.find? (isEntryOf w) := by
  have hentry : ∀ l : List (List Datum), l.find? (isEntryOf w) =
      (l.filter (headedBy w)).find? fun cells =>
        !headedBy ⟨"NONE"⟩ cells && !headedBy ⟨"MEMORY"⟩ cells := by
    intro l
    rw [List.find?_filter]
    refine congrArg (l.find? ·) (funext fun cells => ?_)
    rw [isEntryOf, Bool.and_assoc]
    simp
  rw [hentry, hentry, h.filter]

/-- Whether all lists can be read does not depend on their order. -/
theorem isOk_foldlM_add (h : SameButOrder body body') (s : Script) :
    (body.foldlM add s).isOk = (body'.foldlM add s).isOk := by
  rw [Bool.eq_iff_iff, Script.isOk_foldlM_add, Script.isOk_foldlM_add]
  exact forall_congr' fun cells => imp_congr_left h.perm.mem_iff

end SameButOrder

theorem map_ok_inj {ε α : Type} {a b : Option α}
    (h : a.map (Except.ok : α → Except ε α) = b.map .ok) : a = b :=
  Option.map_injective (fun _ _ => Except.ok.inj) h

/-- Sessions of scripts that say the same are alike. -/
theorem Says.alike (h : Says greeting body script) (h' : Says greeting body' script')
    (hb : SameButOrder body body') (settings : Settings) :
    Session.Alike (Session.start script settings) (Session.start script' settings) := by
  have hlookup (w : Word) : script.table.lookup w = script'.table.lookup w :=
    map_ok_inj (by rw [h.lookup, h'.lookup, hb.find?_entry])
  have hfallback : script.table.fallback = script'.table.fallback :=
    map_ok_inj (by rw [h.fallback, h'.fallback, hb.find?_reverse])
  have hmemory : script.memory = script'.memory :=
    map_ok_inj (by rw [h.memory, h'.memory, hb.find?_reverse])
  exact ⟨⟨hlookup, hfallback⟩, rfl, hmemory, rfl, rfl, rfl, rfl⟩

/-- The order of lists that start with different words does not matter. -/
theorem order_is_ignored {source source' : String} {after after' : List (List Datum)}
    (hread : (Reader.ofSource source).bind Reader.all = .ok (greeting :: body ++ [] :: after))
    (hread' : (Reader.ofSource source').bind Reader.all = .ok (greeting :: body' ++ [] :: after'))
    (hb : [] ∉ body) (hsame : SameButOrder body body') :
    (load source).isOk = (load source').isOk ∧
      ∀ script script', load source = .ok script → load source' = .ok script' →
        ∀ settings lines,
          let s := Session.start script settings
          let s' := Session.start script' settings
          s.replies lines = s'.replies lines ∧
          (s.converse lines).rotation = (s'.converse lines).rotation ∧
          (s.converse lines).memories = (s'.converse lines).memories := by
  rw [load_of_readAll hread, load_of_readAll hread']
  by_cases hg : greeting = []
  · subst hg
    exact ⟨rfl, nofun⟩
  · have hb' : [] ∉ body' := mt hsame.perm.mem_iff.2 hb
    have hisOk {ε : Type} (x : Except Malformed Script) (f : Malformed → ε) :
        (x.mapError f).isOk = x.isOk := by cases x <;> rfl
    rw [ofLists_terminated none hg hb, ofLists_terminated none hg hb']
    refine ⟨by rw [hisOk, hisOk, hsame.isOk_foldlM_add], ?_⟩
    intro script script' hs hs' settings lines
    have hcontents := says_of_foldlM (mapError_eq_ok.1 hs)
    have hcontents' := says_of_foldlM (mapError_eq_ok.1 hs')
    obtain ⟨hreplies, hafter⟩ := (hcontents.alike hcontents' hsame settings).converse lines
    exact ⟨hreplies, hafter.rotation, hafter.memories⟩

/-- An entry with one rule: a reply and a link, in turn. -/
def linked (keyword reply target : String) : List Datum :=
  [.word ⟨keyword⟩, .list [.list [.number 0], .list [.word ⟨reply⟩], .list [.word ⟨"="⟩, .word ⟨target⟩]]]

/-- Two keywords that share a bucket and link to one another, in either order. -/
theorem order_is_ignored_swapped :
    ∃ script script',
      load "(HI)(MY ((0) (M) (=AM)))(AM ((0) (A) (=MY)))()" = .ok script ∧
      load "(HI)(AM ((0) (A) (=MY)))(MY ((0) (M) (=AM)))()" = .ok script' ∧
      script.table.locate ⟨"MY"⟩ ≠ script'.table.locate ⟨"MY"⟩ ∧
      (Session.start script {}).replies ["MY", "MY"] = [["M"], ["A"]] ∧
      (Session.start script {}).replies ["MY", "MY"] = (Session.start script' {}).replies ["MY", "MY"] := by
  have hread : (Reader.ofSource "(HI)(MY ((0) (M) (=AM)))(AM ((0) (A) (=MY)))()").bind Reader.all =
      .ok ([.word ⟨"HI"⟩] :: [linked "MY" "M" "AM", linked "AM" "A" "MY"] ++ [] :: []) := by
    with_unfolding_all rfl
  have hread' : (Reader.ofSource "(HI)(AM ((0) (A) (=MY)))(MY ((0) (M) (=AM)))()").bind Reader.all =
      .ok ([.word ⟨"HI"⟩] :: [linked "AM" "A" "MY", linked "MY" "M" "AM"] ++ [] :: []) := by
    with_unfolding_all rfl
  have hne : ∀ w, headedBy w (linked "MY" "M" "AM") → ¬ headedBy w (linked "AM" "A" "MY") := by
    intro w hmy ham
    have hsame : (⟨"MY"⟩ : Word) ≈ ⟨"AM"⟩ :=
      Setoid.trans (of_decide_eq_true hmy) (Setoid.symm (of_decide_eq_true ham))
    revert hsame
    decide +kernel
  obtain ⟨-, hcontents⟩ := order_is_ignored hread hread' (by simp [linked]) (.swap hne [])
  have hrun : (load "(HI)(MY ((0) (M) (=AM)))(AM ((0) (A) (=MY)))()").toOption.map (fun script =>
      (script.table.locate ⟨"MY"⟩, (Session.start script {}).replies ["MY", "MY"])) =
        some (some ⟨12, 0⟩, [["M"], ["A"]]) := by
    decide +kernel
  have hrun' : (load "(HI)(AM ((0) (A) (=MY)))(MY ((0) (M) (=AM)))()").toOption.map (fun script =>
      script.table.locate ⟨"MY"⟩) = some (some ⟨12, 1⟩) := by
    decide +kernel
  cases hs : load "(HI)(MY ((0) (M) (=AM)))(AM ((0) (A) (=MY)))()" with
  | error => rw [hs] at hrun; cases hrun
  | ok script =>
    cases hs' : load "(HI)(AM ((0) (A) (=MY)))(MY ((0) (M) (=AM)))()" with
    | error => rw [hs'] at hrun'; cases hrun'
    | ok script' =>
      rw [hs] at hrun
      rw [hs'] at hrun'
      obtain ⟨hlocate, hreplies⟩ := Prod.mk.inj (Option.some.inj hrun)
      have hlocate' : script'.table.locate ⟨"MY"⟩ = some ⟨12, 1⟩ := Option.some.inj hrun'
      refine ⟨script, script', rfl, rfl, ?_, hreplies, (hcontents script script' hs hs' {} _).1⟩
      rw [hlocate, hlocate']
      decide

end Script

end Dialogue
