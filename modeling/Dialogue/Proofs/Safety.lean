import Dialogue.Proofs.Evaluator
import Dialogue.Proofs.Loading

/-!
# What a session relies on

Many a branch of a transition is for a case that does not occur: a reference that names no entry, a
number that names no rule, a rule without a reply, a cell that is no word, a cursor over a list that
has changed under it. `Session.Sound` is what a session relies on at a stage. It holds of a session
that starts on a script that has been loaded, transitions keep it (`Sound.of_goes`), and no such
branch is taken where it holds (`Sound.safe`). So a turn is acknowledged for the reasons of
`Session.Unanswered` only.
-/

namespace Dialogue

theorem getElem?_of_firstMove {words : List Word} {items : List Item} {k n : Nat}
    {groups : List (List Word)} (h : firstMove words k (items.drop k) = some (.reply n groups)) :
    ∃ r, items[n]? = some (.rule r) ∧ decompose r.pattern words = some groups := by
  rw [firstMove_eq] at h
  obtain ⟨application, ha, h⟩ := Option.map_eq_some_iff.1 h
  cases application with
  | link => cases h
  | rule i r groups =>
    cases h
    obtain ⟨⟨hk, hr⟩, hg⟩ := getElem?_of_findSome? ha
    rw [List.getElem?_drop, Nat.add_sub_of_le hk] at hr
    exact ⟨r, hr, hg⟩

theorem not_applies_of_firstMove {words : List Word} {n : Nat} {items : List Item}
    (h : firstMove words n items = none) :
    ∀ item ∈ items, ∃ r, item = .rule r ∧ decompose r.pattern words = none := by
  rw [firstMove_eq, Option.map_eq_none_iff, List.findSome?_eq_none_iff] at h
  intro item hitem
  obtain ⟨i, hi⟩ := List.getElem?_of_mem hitem
  have := h (item, n + i) (List.mk_add_mem_zipIdx_iff_getElem?.2 hi)
  cases item with
  | link => cases this
  | rule r => exact ⟨r, rfl, Option.map_eq_none_iff.1 this⟩

namespace Session

variable {s t : Session} {stage : Stage} {line : String}

/-- What a stage relies on besides. -/
def Ready (s : Session) : Stage → Prop
  | .vet | .scan => s.selection = none
  | .dispatch => s.selection.isSome ∧ s.input.data ≠ []
  | .decompose entry _ => ∃ e, s.table.get? entry = some e
  | .reassemble entry item _ => ∃ r, s.rule? entry item = some r ∧ r.replies ≠ []
  | _ => True

/-- What a session relies on at a stage. -/
structure Sound (stage : Stage) (s : Session) : Prop where
  table : s.table.Sound
  words : ∃ words : List Word, s.input.data = words.map .word
  selection : ∀ selected, s.selection = some selected → ∃ e, s.table.get? selected.entry = some e
  ready : s.Ready stage

namespace Sound

theorem start {script : Script} (h : script.table.Sound) (settings : Settings) :
    Sound .await (start script settings) :=
  ⟨h, ⟨[], rfl⟩, nofun, trivial⟩

theorem redirect (h : Sound stage s) (keyword : Word) :
    Sound (s.redirect keyword).1 (s.redirect keyword).2 := by
  rw [redirect_eq]
  refine ⟨h.table, h.words, h.selection, ?_⟩
  dsimp only
  split
  · unfold Table.linkTarget
    cases hl : s.table.locate keyword with
    | none => trivial
    | some entry =>
      obtain ⟨e, he, -⟩ := Table.exists_get?_of_locate hl
      exact ⟨e, he⟩
  · trivial

theorem passOn {entry : EntryRef} {item : Nat} {groups : List (List Word)} {r : Rule}
    (h : Sound (.reassemble entry item groups) s) (hr : s.rule? entry item = some r) :
    Sound .await (s.setRule entry item r.passOn) := by
  obtain ⟨r', hr', hne⟩ := h.ready
  cases hr.symm.trans hr'
  refine ⟨h.table.modify fun e _ he => ?_, h.words, fun selected hs => ?_, trivial⟩
  · intro x hx
    rcases List.mem_or_eq_of_mem_set hx with hx | rfl
    · exact he x hx
    · exact hne
  · obtain ⟨e, he⟩ := h.selection selected hs
    show ∃ e, (s.table.modify entry _).get? selected.entry = some e
    rw [Table.get?_modify, he]
    split
    · exact ⟨_, rfl⟩
    · exact ⟨e, rfl⟩

theorem rebuilt (h : Sound .await s) (template : List Filler) (groups : List (List Word)) :
    Sound .await (s.rebuilt template groups) :=
  ⟨h.table, ⟨_, rfl⟩, h.selection, trivial⟩

theorem scanned {input : Cells} {selection : Option Selection} (h : Sound .scan s)
    (hw : Scan.walk s.settings s.table (.onHeader s.input) s.input s.selection =
      (input, selection)) :
    Sound (if selection.isSome then .dispatch else .fallBack)
      { s with input := input, selection := selection } := by
  obtain ⟨words, hwords⟩ := h.words
  have hnone : s.selection = none := h.ready
  obtain ⟨input', hw', hd, -⟩ := exists_scan hwords
  cases hw'.walk_eq.symm.trans hw
  rw [hnone] at hd ⊢
  refine ⟨h.table, ⟨_, hd⟩, fun selected hsel => ?_, ?_⟩
  · rcases Scan.sweep_selected _ _ hsel with hc | ⟨e, he, -⟩
    · cases hc
    · exact ⟨e, he⟩
  · split
    · rename_i hsome
      have hne : (Scan.sweep s.settings s.table [] none words).1 ≠ [] :=
        Scan.sweep_ne_nil s.settings s.table (fun hs => by cases hs) hsome
      refine ⟨hsome, ?_⟩
      rw [hd]
      simpa using hne
    · trivial

theorem dispatching (h : Sound .dispatch s) :
    ∃ selected words, s.selection = some selected ∧ s.input.data = words.map .word ∧ words ≠ [] := by
  obtain ⟨hs, hne⟩ := h.ready
  obtain ⟨selected, hs⟩ := Option.isSome_iff_exists.1 hs
  obtain ⟨words, hwords⟩ := h.words
  refine ⟨selected, words, hs, hwords, ?_⟩
  rintro rfl
  exact hne hwords

theorem of_goes {r : Stage × Session} (h : Sound stage s) (hg : s.Goes stage r) : Sound r.1 r.2 := by
  cases hg with
  | waits => exact h
  | hears => exact ⟨h.table, ⟨_, rfl⟩, (fun _ hs => by cases hs), rfl⟩
  | counts => exact ⟨h.table, h.words, h.selection, h.ready⟩
  | scans hw => exact h.scanned hw
  | fallsBack _ hf =>
    obtain ⟨e, he⟩ := Option.isSome_iff_exists.1 (Option.isSome_of_any hf)
    exact ⟨h.table, h.words, h.selection, e, (s.table.get?_fallback).trans he⟩
  | dispatches hs =>
    obtain ⟨_, words, -, hwords, hne⟩ := h.dispatching
    rw [remember_eq hwords hne]
    exact ⟨h.table, h.words, h.selection, h.selection _ hs⟩
  | links => exact h.redirect _
  | picks he hm =>
    obtain ⟨r, hr, -⟩ := getElem?_of_firstMove hm
    refine ⟨h.table, h.words, h.selection, r, rule?_eq_some_iff.2 ⟨_, he, hr⟩, ?_⟩
    exact h.table _ _ he _ (List.mem_of_getElem? hr)
  | replies hr =>
    have hset := h.passOn hr
    exact ⟨hset.table, hset.words, hset.selection, trivial⟩
  | follows hr => exact (h.passOn hr).redirect _
  | rebuilds hr => exact ((h.passOn hr).rebuilt _ _).redirect _
  | _ => exact ⟨h.table, h.words, h.selection, trivial⟩

/-- A turn starts with a session that waits and has been given a line. -/
theorem turn (h : Sound .await s) (line : String) (n : Nat) :
    Sound (s.turn line n).1 (s.turn line n).2 :=
  turn_invariant (P := Sound) ⟨h.table, h.words, h.selection, trivial⟩
    (fun _ _ h => h.of_goes (goes _ _)) n

theorem respond (h : Sound .await s) (line : String) : Sound .await (s.respond line).2 := by
  cases hf : s.finished with
  | true => rw [respond_of_finished hf]; exact h
  | false =>
    obtain ⟨n, -, hn⟩ := exists_endsAfter hf line
    have hturn := h.turn line n
    rw [hn.respond_eq]
    exact ⟨hturn.table, hturn.words, hturn.selection, trivial⟩

theorem converse (h : Sound .await s) (lines : List String) : Sound .await (s.converse lines) :=
  converse_invariant (P := Sound .await) h (fun _ line h => h.respond line) lines

end Sound

/-! ### Branches that are not taken -/

/-- Why a turn at a stage is acknowledged next. -/
inductive Unanswered (s : Session) : Stage → Prop
  /-- No item of an entry applies. -/
  | exhausted {entry : EntryRef} {item : Nat} {e : Entry} (he : s.table.get? entry = some e)
      (hi : ∀ x ∈ e.items.drop item,
        ∃ r, x = .rule r ∧ Dialogue.decompose r.pattern s.input.words = none) :
      Unanswered s (.decompose entry item)
  | unknown {stage : Stage} {keyword : Word} (hl : s.linkAt stage = some keyword)
      (ht : s.table.locate keyword = none) : Unanswered s stage
  | limit {stage : Stage} {keyword : Word} (hl : s.linkAt stage = some keyword)
      (hr : s.settings.maxRedirects < s.redirects + 1) : Unanswered s stage
  | noFallback (hf : ¬ s.table.fallback.any Entry.hasRules) : Unanswered s .fallBack

/-- No branch is taken at a stage that is there for want of a better answer only. -/
structure Safe (stage : Stage) (s : Session) : Prop where
  words : ∃ words : List Word, s.input.data = words.map .word
  selection : ∀ selected, s.selection = some selected → ∃ e, s.table.get? selected.entry = some e
  decompose : ∀ entry item, stage = .decompose entry item → ∃ e, s.table.get? entry = some e
  reassemble : ∀ entry item groups, stage = .reassemble entry item groups →
    ∃ e r, s.table.get? entry = some e ∧ e.items[item]? = some (.rule r) ∧ r.replies ≠ []
  recognized : ∀ w entry, s.table.locate w = some entry →
    ∃ e, s.table.get? entry = some e ∧ e.recognize w ≠ .miss
  /-- The scan goes by the rules, which have none for a cursor that does not fit. -/
  scan : stage = .scan → ∃ input selected,
    Scan.Walks s.settings s.table (.onHeader s.input) s.input s.selection input selected ∧
      s.transition stage =
        (if selected.isSome then .dispatch else .fallBack,
          { s with input := input, selection := selected })
  dispatch : stage = .dispatch → ∃ selected last,
    s.selection = some selected ∧ s.input.data.getLast? = some (.word last) ∧
      ∀ m, s.memory = some m → ∃ rule template,
        m.rule? (last.hash 2 + 1) = some rule ∧ rule.toRule.replies.head? = some (.say template)
  acknowledge : (s.transition stage).1 = .acknowledge → s.Unanswered stage

theorem exists_rule? (m : MemoryRules) (w : Word) : ∃ rule, m.rule? (w.hash 2 + 1) = some rule := by
  have hlt : w.hash 2 < m.rules.length := by
    rw [m.length_rules]
    exact w.hash_lt 2
  exact ⟨m.rules[w.hash 2], by simp [MemoryRules.rule?, hlt]⟩

theorem unanswered_of_link {keyword : Word} {r : Stage × Session} (hg : s.Goes stage r)
    (hl : s.linkAt stage = some keyword) (h : r.1 = .acknowledge) : s.Unanswered stage := by
  rw [(goes_of_link hg hl).1] at h
  split at h
  · unfold Table.linkTarget at h
    split at h
    · cases h
    · exact .unknown hl (by assumption)
  · exact .limit hl (by omega)

theorem Sound.unanswered {r : Stage × Session} (h : Sound stage s) (hg : s.Goes stage r)
    (hr : r.1 = .acknowledge) : s.Unanswered stage := by
  -- a link accounts for itself; what is left is one reason for each stage
  cases hl : s.linkAt stage with
  | some keyword => exact unanswered_of_link hg hl hr
  | none =>
    cases hg with
    | scans => dsimp only at hr; split at hr <;> cases hr
    | shrugs _ hf => exact .noFallback hf
    | loses he =>
      obtain ⟨e, he'⟩ := h.ready
      cases he.symm.trans he'
    | exhausts he hm => exact .exhausted he (not_applies_of_firstMove hm)
    | links he hm => simp [linkAt, he, hm] at hl
    | misses hrule =>
      obtain ⟨r, hrule', -⟩ := h.ready
      cases hrule.symm.trans hrule'
    | falters hrule hd =>
      obtain ⟨r, hrule', hne⟩ := h.ready
      cases hrule.symm.trans hrule'
      obtain ⟨reply, hreply⟩ := Rule.exists_due hne
      cases hd.symm.trans hreply
    | follows hrule hd | rebuilds hrule hd => simp [linkAt, hrule, hd, Reply.link?] at hl
    | _ => cases hr

theorem Sound.safe (h : Sound stage s) : Safe stage s where
  words := h.words
  selection := h.selection
  decompose := by rintro entry item rfl; exact h.ready
  reassemble := by
    rintro entry item groups rfl
    obtain ⟨r, hr, hne⟩ := h.ready
    obtain ⟨e, he, hi⟩ := rule?_eq_some_iff.1 hr
    exact ⟨e, r, he, hi, hne⟩
  recognized := by
    intro w entry hl
    obtain ⟨e, he, hk⟩ := Table.exists_get?_of_locate hl
    refine ⟨e, he, ?_⟩
    rw [Entry.recognize, if_pos hk]
    intro hmiss
    split at hmiss <;> cases hmiss
  scan := by
    rintro rfl
    obtain ⟨words, hwords⟩ := h.words
    obtain ⟨input, hw, -, hs⟩ := exists_scan hwords
    exact ⟨input, _, hw, hs⟩
  dispatch := by
    rintro rfl
    obtain ⟨selected, words, hs, hwords, hne⟩ := h.dispatching
    refine ⟨selected, words.getLast hne, hs, ?_, fun m _ => ?_⟩
    · rw [hwords, List.getLast?_map, List.getLast?_eq_some_getLast hne]
      rfl
    · obtain ⟨rule, hr⟩ := exists_rule? m (words.getLast hne)
      exact ⟨rule, rule.template, hr, rfl⟩
  acknowledge := h.unanswered (s.goes stage)

/-- Whatever is said to a session on a script that has been loaded, no turn comes to a branch that is
there for want of a better answer only. -/
theorem turn_safe {source : String} {script : Script} (h : Script.load source = .ok script)
    (settings : Settings) (lines : List String) (line : String) (k : Nat) :
    Safe (((start script settings).converse lines).turn line k).1
      (((start script settings).converse lines).turn line k).2 :=
  (((Sound.start (Script.sound_of_load h) settings).converse lines).turn line k).safe

theorem turn_safe_yes : ∃ script, Script.load "(HI)(A ((0) (YES)))()" = .ok script ∧
    ((start script {}).turn "A" 4).1 = .decompose ⟨Table.bucketOf ⟨"A"⟩, 0⟩ 0 ∧
    Safe ((start script {}).turn "A" 4).1 ((start script {}).turn "A" 4).2 := by
  cases h : Script.load "(HI)(A ((0) (YES)))()" with
  | error fault =>
    have hok : (Script.load "(HI)(A ((0) (YES)))()").isOk = true := by decide +kernel
    rw [h] at hok
    cases hok
  | ok script =>
    have hs : (Script.load "(HI)(A ((0) (YES)))()").toOption.map
        (fun script => ((start script {}).turn "A" 4).1) =
          some (.decompose ⟨Table.bucketOf ⟨"A"⟩, 0⟩ 0) := by
      decide +kernel
    rw [h] at hs
    exact ⟨script, rfl, Option.some.inj hs, turn_safe h {} [] "A" 4⟩

end Session

end Dialogue
