import Dialogue.Proofs.Scan
import Dialogue.Session.Turn

/-!
# What a transition can do

`Session.Goes` lists what a transition can do, with the condition for each, and `Session.goes` says
that there is nothing else. What is shown about transitions is shown by going through that list.
-/

namespace Dialogue

/-! ### Rotation -/

namespace Rule

/-- The reply at the position of the rule. -/
def due (r : Rule) : Option Reply := r.replies[r.next % r.replies.length]?

/-- The rule with its turn passed on. -/
def passOn (r : Rule) : Rule := { r with next := (r.next % r.replies.length + 1) % r.replies.length }

variable {r : Rule} {reply : Reply}

theorem rotate_of_due (h : r.due = some reply) : r.rotate = (some reply, r.passOn) := by
  have hne : r.replies.isEmpty = false := by
    cases hr : r.replies with
    | nil => simp [due, hr] at h
    | cons => rfl
  rw [rotate, if_neg (by simp [hne])]
  exact Prod.ext h rfl

theorem exists_due (h : r.replies ≠ []) : ∃ reply, r.due = some reply := by
  have hlt := Nat.mod_lt r.next (List.length_pos_iff.2 h)
  exact ⟨_, List.getElem?_eq_getElem hlt⟩

theorem rotate_of_due_eq_none (h : r.due = none) : r.rotate = (none, r) := by
  have hnil : r.replies = [] := by
    by_contra hne
    obtain ⟨reply, hr⟩ := exists_due hne
    rw [h] at hr
    cases hr
  rw [rotate, if_pos (by simp [hnil])]

end Rule

/-- Where a link leads if it is followed. -/
def Table.linkTarget (t : Table) (keyword : Word) : Stage :=
  match t.locate keyword with
  | some entry => .decompose entry 0
  | none => .acknowledge

namespace Session

variable {s : Session} {stage : Stage} {entry : EntryRef} {item : Nat} {r : Rule}

theorem rule?_eq_some_iff :
    s.rule? entry item = some r ↔
      ∃ e, s.table.get? entry = some e ∧ e.items[item]? = some (.rule r) := by
  unfold rule?
  cases he : s.table.get? entry with
  | none => simp
  | some e =>
    simp only [Option.bind_eq_bind, Option.bind_some, Option.some.injEq, exists_eq_left']
    split <;> simp_all

theorem setRule_self (h : s.rule? entry item = some r) : s.setRule entry item r = s := by
  have : s.table.modify entry (fun e => { e with items := e.items.set item (.rule r) }) = s.table := by
    refine Table.modify_eq_self fun e he => ?_
    obtain ⟨e', he', hr⟩ := rule?_eq_some_iff.1 h
    cases he.symm.trans he'
    obtain ⟨hn, hr⟩ := List.getElem?_eq_some_iff.1 hr
    rw [← hr, List.set_getElem_self]
  rw [setRule, this]

theorem locate_setRule (s : Session) (entry : EntryRef) (item : Nat) (r : Rule) (w : Word) :
    (s.setRule entry item r).table.locate w = s.table.locate w := by
  unfold setRule
  exact Table.locate_modify _ _ (by intro; rfl) w

theorem remember_frame (s : Session) (entry : EntryRef) :
    ∃ memories, s.remember entry = { s with memories := memories } := by
  unfold remember
  split
  · split <;> exact ⟨_, rfl⟩
  · exact ⟨_, rfl⟩

theorem redirect_eq (s : Session) (keyword : Word) :
    s.redirect keyword =
      (if s.redirects < s.settings.maxRedirects then s.table.linkTarget keyword else .acknowledge,
        { s with redirects := s.redirects + 1 }) := by
  unfold redirect Table.linkTarget
  dsimp only
  by_cases h : s.settings.maxRedirects < s.redirects + 1
  · rw [if_pos h, if_neg (by omega)]
  · rw [if_neg h, if_pos (by omega)]
    cases s.table.locate keyword <;> rfl

/-- The session that has taken up a line that is not blank. -/
def heard (s : Session) (line : String) : Session :=
  { s with
    pending := none
    input := Cells.ofWords "INPUT" (Sentence.words line)
    selection := none
    redirects := 0 }

/-- The session with the input that a reply rebuilds. -/
def rebuilt (s : Session) (template : List Filler) (groups : List (List Word)) : Session :=
  { s with
    input := s.input.assign
      ((Dialogue.reassemble template groups s.settings.placeholder).map .word) }

/-- What a transition from a stage can do. -/
inductive Goes (s : Session) : Stage → Stage × Session → Prop
  | waits (hp : s.pending = none) : Goes s .await (.await, s)
  | ends {line : String} (hp : s.pending = some line) (hb : Text.isBlankText line) :
      Goes s .await (.close, { s with pending := none })
  | hears {line : String} (hp : s.pending = some line) (hb : Text.isBlankText line = false) :
      Goes s .await (.vet, s.heard line)
  | refuses (hc : s.isCommand) : Goes s .vet (.await, s.emit s.settings.unsupportedReply)
  | counts (hc : s.isCommand = false) :
      Goes s .vet (.scan, { s with rotation := s.rotation % 4 + 1 })
  | scans {input : Cells} {selection : Option Selection}
      (hw : Scan.walk s.settings s.table (.onHeader s.input) s.input s.selection =
        (input, selection)) :
      Goes s .scan
        (if selection.isSome then .dispatch else .fallBack,
          { s with input := input, selection := selection })
  | recalls {memory : List Word} {rest : List (List Word)} (hr : s.rotation = 4)
      (hm : s.memories = memory :: rest) :
      Goes s .fallBack (.await, { s.emit (Word.phrase memory) with memories := rest })
  | fallsBack (hr : ¬ (s.rotation = 4 ∧ s.memories ≠ []))
      (hf : s.table.fallback.any Entry.hasRules) : Goes s .fallBack (.decompose .fallback 0, s)
  | shrugs (hr : ¬ (s.rotation = 4 ∧ s.memories ≠ []))
      (hf : ¬ s.table.fallback.any Entry.hasRules) : Goes s .fallBack (.acknowledge, s)
  | dispatches {selected : Selection} (hs : s.selection = some selected) :
      Goes s .dispatch (.decompose selected.entry 0, s.remember selected.entry)
  | backsOff (hs : s.selection = none) : Goes s .dispatch (.fallBack, s)
  | loses {entry : EntryRef} {item : Nat} (he : s.table.get? entry = none) :
      Goes s (.decompose entry item) (.acknowledge, s)
  | exhausts {entry : EntryRef} {item : Nat} {e : Entry} (he : s.table.get? entry = some e)
      (hm : firstMove s.input.words item (e.items.drop item) = none) :
      Goes s (.decompose entry item) (.acknowledge, s)
  | links {entry : EntryRef} {item : Nat} {e : Entry} {keyword : Word}
      (he : s.table.get? entry = some e)
      (hm : firstMove s.input.words item (e.items.drop item) = some (.follow keyword)) :
      Goes s (.decompose entry item) (s.redirect keyword)
  | picks {entry : EntryRef} {item n : Nat} {e : Entry} {groups : List (List Word)}
      (he : s.table.get? entry = some e)
      (hm : firstMove s.input.words item (e.items.drop item) = some (.reply n groups)) :
      Goes s (.decompose entry item) (.reassemble entry n groups, s)
  | misses {entry : EntryRef} {item : Nat} {groups : List (List Word)}
      (hr : s.rule? entry item = none) : Goes s (.reassemble entry item groups) (.acknowledge, s)
  | falters {entry : EntryRef} {item : Nat} {groups : List (List Word)} {r : Rule}
      (hr : s.rule? entry item = some r) (hd : r.due = none) :
      Goes s (.reassemble entry item groups) (.acknowledge, s)
  | replies {entry : EntryRef} {item : Nat} {groups : List (List Word)} {r : Rule}
      {template : List Filler} (hr : s.rule? entry item = some r)
      (hd : r.due = some (.say template)) :
      Goes s (.reassemble entry item groups)
        (.await, (s.setRule entry item r.passOn).emit
          (Word.phrase (Dialogue.reassemble template groups s.settings.placeholder)))
  | follows {entry : EntryRef} {item : Nat} {groups : List (List Word)} {r : Rule} {keyword : Word}
      (hr : s.rule? entry item = some r) (hd : r.due = some (.follow keyword)) :
      Goes s (.reassemble entry item groups) ((s.setRule entry item r.passOn).redirect keyword)
  | rebuilds {entry : EntryRef} {item : Nat} {groups : List (List Word)} {r : Rule}
      {template : List Filler} {keyword : Word} (hr : s.rule? entry item = some r)
      (hd : r.due = some (.rebuild template keyword)) :
      Goes s (.reassemble entry item groups)
        (((s.setRule entry item r.passOn).rebuilt template groups).redirect keyword)
  | acknowledges :
      Goes s .acknowledge (.await, s.emit (s.settings.acknowledgement s.rotation))
  | closes : Goes s .close (.halted, { s.emit s.settings.closing with finished := true })
  | stays : Goes s .halted (.halted, s)

theorem goes_await (s : Session) : s.Goes .await s.takeLine := by
  unfold takeLine
  split
  · exact .waits (by assumption)
  · rename_i line hp
    by_cases hb : Text.isBlankText line
    · rw [if_pos hb]; exact .ends hp hb
    · rw [if_neg hb]; exact .hears hp (by simpa using hb)

theorem goes_fallBack (s : Session) : s.Goes .fallBack s.fallBack := by
  unfold fallBack
  split
  · rename_i memory rest hr hm
    exact .recalls (by simpa using hr) hm
  · rename_i h
    have hr : ¬ (s.rotation = 4 ∧ s.memories ≠ []) := by
      rintro ⟨hr, hne⟩
      obtain ⟨memory, rest, hm⟩ := List.exists_cons_of_ne_nil hne
      exact h memory rest (by simpa using hr) hm
    split
    · exact .fallsBack hr (by assumption)
    · exact .shrugs hr (by assumption)

theorem goes_decompose (s : Session) (entry : EntryRef) (item : Nat) :
    s.Goes (.decompose entry item) (s.decompose entry item) := by
  unfold decompose
  split
  · exact .loses (by assumption)
  · split
    · exact .exhausts (by assumption) (by assumption)
    · exact .links (by assumption) (by assumption)
    · exact .picks (by assumption) (by assumption)

theorem goes_reassemble (s : Session) (entry : EntryRef) (item : Nat) (groups : List (List Word)) :
    s.Goes (.reassemble entry item groups) (s.reassemble entry item groups) := by
  unfold reassemble
  cases hr : s.rule? entry item with
  | none => exact .misses hr
  | some r =>
    cases hd : r.due with
    | none =>
      simp only [Rule.rotate_of_due_eq_none hd, setRule_self hr]
      exact .falters hr hd
    | some reply =>
      simp only [Rule.rotate_of_due hd]
      cases reply with
      | say template => exact .replies hr hd
      | follow keyword => exact .follows hr hd
      | rebuild template keyword => exact .rebuilds hr hd

/-- A transition does something of what it can do. -/
theorem goes (s : Session) (stage : Stage) : s.Goes stage (s.transition stage) := by
  cases stage with
  | await => exact s.goes_await
  | vet =>
    simp only [transition, vet]
    by_cases hc : s.isCommand
    · rw [if_pos hc]; exact .refuses hc
    · rw [if_neg hc]; exact .counts (by simpa using hc)
  | scan => exact .scans rfl
  | fallBack => exact s.goes_fallBack
  | dispatch =>
    simp only [transition, dispatch]
    split
    · exact .backsOff (by assumption)
    · exact .dispatches (by assumption)
  | decompose entry item => exact s.goes_decompose entry item
  | reassemble entry item groups => exact s.goes_reassemble entry item groups
  | acknowledge => exact .acknowledges
  | close => exact .closes
  | halted => exact .stays

end Session

end Dialogue
