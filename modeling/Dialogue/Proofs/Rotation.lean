import Dialogue.Proofs.Loading
import Dialogue.Proofs.Memories

/-!
# Replies in rotation

Of all that a script says, a session changes one thing: which reply of a rule is next. `Turning` is
what stays as it was loaded, with the positions wound back. A position moves on when its rule is
replied with and at no other time (`rule?_transition`). The replies that a rule gives are numbered, as
they come, in a history of the whole conversation (`used`), and the history is
`0, 1, …, n - 1, 0, 1, …` whichever way the rule was reached each time.
-/

namespace Dialogue

/-! ### Positions wound back -/

/-- The rule with its first reply next. -/
def Rule.rewound (r : Rule) : Rule := { r with next := 0 }

def Item.rewound : Item → Item
  | .rule r => .rule r.rewound
  | .link keyword => .link keyword

def Entry.rewound (e : Entry) : Entry := { e with items := e.items.map Item.rewound }

def Table.rewound (t : Table) : Table := t.map Entry.rewound

theorem Item.rewound_of_fresh {item : Item} (h : item.Fresh) : item.rewound = item := by
  cases item with
  | link => rfl
  | rule r =>
    have hr : r.next = 0 := h
    rw [rewound, Rule.rewound, ← hr]

theorem Table.rewound_of_fresh {t : Table} (h : t.Forall fun e => ∀ item ∈ e.items, item.Fresh) :
    t.rewound = t := by
  refine ext_get? fun r => ?_
  rw [rewound, get?_map]
  cases he : t.get? r with
  | none => rfl
  | some e =>
    have hitems : e.items.map Item.rewound = e.items := by
      rw [List.map_congr_left fun item hitem => Item.rewound_of_fresh (h r e he item hitem)]
      exact List.map_id _
    rw [Option.map_some, Entry.rewound, hitems]

/-- The entry and the number of the rule that the next transition replies with. -/
def Stage.place? : Stage → Option (EntryRef × Nat)
  | .reassemble entry item _ => some (entry, item)
  | _ => none

namespace Session

variable {s t : Session} {stage : Stage} {line : String} {entry q : EntryRef} {item n : Nat} {r : Rule}

theorem rule?_setRule (hr : s.rule? entry item = some r) (r' : Rule) (q : EntryRef) (n : Nat) :
    (s.setRule entry item r').rule? q n = if entry = q ∧ item = n then some r' else s.rule? q n := by
  obtain ⟨e, he, hi⟩ := rule?_eq_some_iff.1 hr
  have hlt : item < e.items.length := (List.getElem?_eq_some_iff.1 hi).1
  by_cases hq : entry = q
  · subst hq
    by_cases hn : item = n
    · subst hn
      rw [if_pos ⟨rfl, rfl⟩, rule?_eq_some_iff]
      refine ⟨{ e with items := e.items.set item (.rule r') }, ?_, List.getElem?_set_self hlt⟩
      rw [setRule, Table.get?_modify, if_pos rfl, he]
      rfl
    · have hother : (e.items.set item (.rule r'))[n]? = e.items[n]? := List.getElem?_set_ne hn
      rw [if_neg (fun h => hn h.2)]
      simp only [rule?, setRule, Table.get?_modify, if_true, he, Option.map_some, Option.bind_eq_bind,
        Option.bind_some, hother]
  · rw [if_neg (fun h => hq h.1)]
    simp only [rule?, setRule, Table.get?_modify, if_neg (Ne.symm hq)]

theorem rewound_setRule (hr : s.rule? entry item = some r) :
    (s.setRule entry item r.passOn).table.rewound = s.table.rewound := by
  obtain ⟨e, he, hi⟩ := rule?_eq_some_iff.1 hr
  refine Table.ext_get? fun q => ?_
  rw [Table.rewound, Table.rewound, Table.get?_map, Table.get?_map, setRule, Table.get?_modify]
  by_cases hq : q = entry
  · subst hq
    obtain ⟨hlt, hi⟩ := List.getElem?_eq_some_iff.1 hi
    have hitem : Item.rewound (.rule r.passOn) = e.items[item].rewound := by rw [hi]; rfl
    have hset : (e.items.set item (.rule r.passOn)).map Item.rewound = e.items.map Item.rewound := by
      rw [List.map_set, hitem, ← List.map_set, List.set_getElem_self]
    rw [if_pos rfl, he]
    simp only [Option.map_some, Entry.rewound, hset]
  · rw [if_neg hq]

/-! ### One transition -/

/-- The two sessions agree on what they have of their script, positions included. -/
structure SameScript (s t : Session) : Prop where
  settings : t.settings = s.settings
  greeting : t.greeting = s.greeting
  memory : t.memory = s.memory
  table : t.table = s.table

theorem SameScript.redirect (s : Session) (keyword : Word) : SameScript s (s.redirect keyword).2 := by
  rw [redirect_eq]
  exact ⟨rfl, rfl, rfl, rfl⟩

theorem SameScript.use (s : Session) (groups : List (List Word)) (reply : Option Reply) :
    SameScript s (s.use groups reply).2 := by
  rcases reply with _ | reply
  · exact ⟨rfl, rfl, rfl, rfl⟩
  · cases reply with
    | say => exact ⟨rfl, rfl, rfl, rfl⟩
    | follow keyword => exact .redirect s keyword
    | rebuild template keyword =>
      have h := SameScript.redirect (s.rebuilt template groups) keyword
      exact ⟨h.settings, h.greeting, h.memory, h.table⟩

/-- Only a reply that is taken from a rule can change anything of the script. -/
theorem SameScript.of_goes {next : Stage × Session} (hg : s.Goes stage next)
    (hp : stage.place? = none) : SameScript s next.2 := by
  cases hg with
  | @dispatches selected =>
    obtain ⟨memories, hm⟩ := s.remember_frame selected.entry
    rw [hm]
    exact ⟨rfl, rfl, rfl, rfl⟩
  | links => exact .redirect _ _
  | misses | falters | replies | follows | rebuilds => cases hp
  | _ => exact ⟨rfl, rfl, rfl, rfl⟩

theorem SameScript.rule?_eq (h : SameScript s t) (entry : EntryRef) (item : Nat) :
    t.rule? entry item = s.rule? entry item := by
  rw [rule?, rule?, h.table]

/-- What a session has of its script: everything as it was loaded, save for the positions of the
rules. -/
structure Turning (script : Script) (settings : Settings) (s : Session) : Prop where
  settings : s.settings = settings
  greeting : s.greeting = script.greeting
  memory : s.memory = script.memory
  table : s.table.rewound = script.table
  next_lt : ∀ entry item r, s.rule? entry item = some r → r.next < r.replies.length

namespace Turning

variable {script : Script} {settings : Settings}

theorem start {source : String} (h : Script.load source = .ok script) (settings : Settings) :
    Turning script settings (start script settings) := by
  refine ⟨rfl, rfl, rfl, Table.rewound_of_fresh (Script.fresh_of_load h), fun entry item r hr => ?_⟩
  obtain ⟨e, he, hi⟩ := rule?_eq_some_iff.1 hr
  have hmem : .rule r ∈ e.items := List.mem_of_getElem? hi
  have hfresh : r.next = 0 := Script.fresh_of_load h entry e he _ hmem
  have hsound : r.replies ≠ [] := Script.sound_of_load h entry e he _ hmem
  rw [hfresh]
  exact List.length_pos_iff.2 hsound

theorem of_same (h : Turning script settings s) (hst : SameScript s t) : Turning script settings t where
  settings := hst.settings.trans h.settings
  greeting := hst.greeting.trans h.greeting
  memory := hst.memory.trans h.memory
  table := by rw [hst.table, h.table]
  next_lt entry item r hr := h.next_lt entry item r (by rwa [hst.rule?_eq] at hr)

theorem replies_ne_nil (h : Turning script settings s) (hr : s.rule? entry item = some r) :
    r.replies ≠ [] := by
  have hlt := h.next_lt entry item r hr
  rintro hnil
  rw [hnil] at hlt
  cases hlt

theorem passOn (h : Turning script settings s) (hr : s.rule? entry item = some r) :
    Turning script settings (s.setRule entry item r.passOn) := by
  refine ⟨h.settings, h.greeting, h.memory, (rewound_setRule hr).trans h.table, fun q n r' hr' => ?_⟩
  rw [rule?_setRule hr] at hr'
  split at hr'
  · cases hr'
    exact Nat.mod_lt _ (List.length_pos_iff.2 (h.replies_ne_nil hr))
  · exact h.next_lt q n r' hr'

/-- The rule that is replied with gives the reply at its position and moves on by one. -/
theorem reassemble_eq (h : Turning script settings s) (hr : s.rule? entry item = some r)
    (groups : List (List Word)) :
    s.reassemble entry item groups = (s.setRule entry item r.passOn).use groups r.due := by
  obtain ⟨reply, hd⟩ := Rule.exists_due (h.replies_ne_nil hr)
  rw [reassemble, hr]
  dsimp only
  rw [Rule.rotate_of_due hd, hd]

theorem transition (h : Turning script settings s) (stage : Stage) :
    Turning script settings (s.transition stage).2 := by
  have hg := s.goes stage
  cases hp : stage.place? with
  | none => exact h.of_same (.of_goes hg hp)
  | some place =>
    cases stage with
    | reassemble entry item groups =>
      cases hr : s.rule? entry item with
      | none =>
        have hmiss : s.reassemble entry item groups = (.acknowledge, s) := by rw [reassemble, hr]
        rw [Session.transition, hmiss]
        exact h
      | some r =>
        rw [Session.transition, h.reassemble_eq hr]
        exact (h.passOn hr).of_same (.use _ _ _)
    | _ => cases hp

/-- A rule moves on when it is replied with and at no other time. -/
theorem rule?_transition (h : Turning script settings s) (hr : s.rule? entry item = some r)
    (stage : Stage) :
    (s.transition stage).2.rule? entry item =
      some (if stage.place? = some (entry, item) then r.passOn else r) := by
  cases hp : stage.place? with
  | none =>
    rw [(SameScript.of_goes (s.goes stage) hp).rule?_eq, hr, if_neg nofun]
  | some place =>
    cases stage with
    | reassemble q n groups =>
      cases hp
      cases hr' : s.rule? q n with
      | none =>
        have hmiss : s.reassemble q n groups = (.acknowledge, s) := by rw [reassemble, hr']
        have hne : (q, n) ≠ (entry, item) := by
          rintro ⟨⟩
          cases hr'.symm.trans hr
        rw [Session.transition, hmiss, hr, if_neg (by simpa using hne)]
      | some r' =>
        rw [Session.transition, h.reassemble_eq hr', (SameScript.use _ _ _).rule?_eq, rule?_setRule hr']
        by_cases hplace : q = entry ∧ n = item
        · obtain ⟨rfl, rfl⟩ := hplace
          cases hr'.symm.trans hr
          rw [if_pos ⟨rfl, rfl⟩, if_pos rfl]
        · rw [if_neg hplace, if_neg (by simpa using hplace), hr]
    | _ => cases hp

end Turning

/-! ### Histories -/

section
variable {α : Type} (f : Stage → Session → List α)

/-- What there is to observe, by `f`, of the transitions of the turn on a line. -/
def observedIn (s : Session) (line : String) : List α :=
  if s.finished then []
  else (List.range s.horizon).flatMap fun k => f (s.turn line k).1 (s.turn line k).2

/-- What there is to observe of the turns on lines. -/
def observed (s : Session) : List String → List α
  | [] => []
  | line :: lines => s.observedIn f line ++ observed (s.respond line).2 lines

variable {f} {P : List α → Session → Prop}
  (hline : ∀ past s line, P past s → P past { s with pending := some line })
  (hstep : ∀ past stage s, P past s → P (past ++ f stage s) (s.transition stage).2)
  (hcollect : ∀ past s, P past s → P past { s with outbox := [] })

include hline hstep in
theorem turn_history {past : List α} (h : P past s) (line : String) (n : Nat) :
    P (past ++ (List.range n).flatMap fun k => f (s.turn line k).1 (s.turn line k).2)
      (s.turn line n).2 := by
  induction n with
  | zero =>
    rw [List.range_zero, List.flatMap_nil, List.append_nil]
    exact hline past s line h
  | succ n ih =>
    rw [List.range_succ, List.flatMap_append, List.flatMap_singleton, ← List.append_assoc, turn_succ]
    exact hstep _ _ _ ih

include hline hstep hcollect

theorem respond_history {past : List α} (h : P past s) (line : String) :
    P (past ++ s.observedIn f line) (s.respond line).2 := by
  unfold observedIn
  cases hf : s.finished with
  | true =>
    rw [respond_of_finished hf, if_pos rfl, List.append_nil]
    exact h
  | false =>
    rw [respond_eq_collect hf]
    exact hcollect _ _ (turn_history hline hstep h line s.horizon)

/-- What holds of a history and a session, and is kept by every transition when what is observed of it
is added to the history, holds after a conversation. -/
theorem converse_history (past : List α) (h : P past s) (lines : List String) :
    P (past ++ s.observed f lines) (s.converse lines) := by
  induction lines generalizing past s with
  | nil =>
    rw [observed, List.append_nil]
    exact h
  | cons line lines ih =>
    rw [observed, converse_cons, ← List.append_assoc]
    exact ih _ (respond_history hline hstep hcollect h line)

end

/-! ### The replies that a rule gives -/

/-- The number of the reply that the rule at a place gives at a stage, if it is replied with. -/
def takes (entry : EntryRef) (item : Nat) (stage : Stage) (s : Session) : List Nat :=
  if stage.place? = some (entry, item) then
    ((s.rule? entry item).map fun r => r.next % r.replies.length).toList
  else []

/-- The numbers of the replies that the rule at a place gives over lines, in their order. -/
def used (s : Session) (entry : EntryRef) (item : Nat) (lines : List String) : List Nat :=
  s.observed (takes entry item) lines

/-- The history of a rule that was `r` when it was loaded: the session is where the history has led. -/
structure Rotates (script : Script) (settings : Settings) (entry : EntryRef) (item : Nat) (r : Rule)
    (past : List Nat) (s : Session) : Prop where
  turning : Turning script settings s
  rule : s.rule? entry item = some { r with next := past.length % r.replies.length }
  past : past = (List.range past.length).map (· % r.replies.length)

namespace Rotates

variable {script : Script} {settings : Settings} {past : List Nat}

theorem of_same (h : Rotates script settings entry item r past s) (hst : SameScript s t) :
    Rotates script settings entry item r past t :=
  ⟨h.turning.of_same hst, (hst.rule?_eq entry item).trans h.rule, h.past⟩

theorem transition (h : Rotates script settings entry item r past s) (stage : Stage) :
    Rotates script settings entry item r (past ++ takes entry item stage s)
      (s.transition stage).2 := by
  have hturning := h.turning.transition stage
  have hrule := h.turning.rule?_transition h.rule stage
  by_cases hp : stage.place? = some (entry, item)
  · have htakes : takes entry item stage s = [past.length % r.replies.length] := by
      rw [takes, if_pos hp, h.rule, Option.map_some, Option.toList_some, Nat.mod_mod]
    rw [if_pos hp] at hrule
    rw [htakes]
    refine ⟨hturning, hrule.trans ?_, ?_⟩
    · simp only [Rule.passOn, Nat.mod_mod, Nat.mod_add_mod, List.length_append, List.length_singleton]
    · rw [List.length_append, List.length_singleton, List.range_succ, List.map_append,
        List.map_singleton, ← h.past]
  · have htakes : takes entry item stage s = [] := if_neg hp
    rw [if_neg hp] at hrule
    rw [htakes, List.append_nil]
    exact ⟨hturning, hrule, h.past⟩

theorem converse (h : Rotates script settings entry item r [] s) (lines : List String) :
    Rotates script settings entry item r (s.used entry item lines) (s.converse lines) :=
  converse_history (f := takes entry item) (P := Rotates script settings entry item r)
    (fun _ _ _ h => h.of_same ⟨rfl, rfl, rfl, rfl⟩) (fun _ stage _ h => h.transition stage)
    (fun _ _ h => h.of_same ⟨rfl, rfl, rfl, rfl⟩) [] h lines

end Rotates

/-- Of numbers that count round in a circle, as many as go round once are all of them. -/
theorem perm_range_of_window {m i n : Nat} (h : i + n ≤ m) :
    ((((List.range m).map (· % n)).drop i).take n).Perm (List.range n) := by
  have hwindow : ((List.range m).drop i).take n = List.range' i n := by
    refine List.ext_getElem (by simp; omega) fun j _ _ => by simp
  have hIco : Multiset.Ico i (i + n) = ↑(List.range' i n) := by
    show (↑(List.range' i (i + n - i)) : Multiset Nat) = _
    rw [Nat.add_sub_cancel_left]
  have hmod := Nat.multiset_Ico_map_mod i n
  rw [hIco] at hmod
  rw [← List.map_drop, ← List.map_take, hwindow]
  exact Multiset.coe_eq_coe.1 hmod

theorem turning_converse {source : String} {script : Script} (h : Script.load source = .ok script)
    (settings : Settings) (lines : List String) :
    Turning script settings ((start script settings).converse lines) :=
  converse_history (f := fun _ _ => ([] : List Unit)) (P := fun _ => Turning script settings)
    (fun _ _ _ h => h.of_same ⟨rfl, rfl, rfl, rfl⟩) (fun _ stage _ h => h.transition stage)
    (fun _ _ h => h.of_same ⟨rfl, rfl, rfl, rfl⟩) [] (.start h settings) lines

/-- A conversation changes nothing of its script but the positions of the rules. The position of a rule
goes on by one when the rule is replied with, and the replies of a rule are given in rotation, over all
turns and however the rule is reached. -/
theorem replies_take_turns {source : String} {script : Script} (h : Script.load source = .ok script)
    (settings : Settings) (lines : List String) :
    let s := (start script settings).converse lines
    (∀ line k, Turning script settings (s.turn line k).2) ∧
    (∀ line k entry item r, (s.turn line k).2.rule? entry item = some r →
      (s.turn line (k + 1)).2.rule? entry item = some { r with
        next :=
          if (s.turn line k).1.place? = some (entry, item) then (r.next + 1) % r.replies.length
          else r.next }) ∧
    (∀ line k entry item groups r, (s.turn line k).1 = .reassemble entry item groups →
      (s.turn line k).2.rule? entry item = some r →
      ∃ reply, r.replies[r.next]? = some reply ∧
        s.turn line (k + 1) =
          ((s.turn line k).2.setRule entry item r.passOn).use groups (some reply)) ∧
    ∀ entry item r, (start script settings).rule? entry item = some r →
      let used := (start script settings).used entry item lines
      let n := r.replies.length
      s.rule? entry item = some { r with next := used.length % n } ∧
      used = (List.range used.length).map (· % n) ∧
      ∀ i, i + n ≤ used.length → ((used.drop i).take n).Perm (List.range n) := by
  intro s
  have hstart := Turning.start h settings
  have hs : Turning script settings s := turning_converse h settings lines
  have hturn : ∀ line k, Turning script settings (s.turn line k).2 := fun line k =>
    turn_invariant (P := fun _ t => Turning script settings t) (hs.of_same ⟨rfl, rfl, rfl, rfl⟩)
      (fun stage _ ht => ht.transition stage) k
  refine ⟨hturn, fun line k entry item r hr => ?_, fun line k entry item groups r hstage hr => ?_,
    fun entry item r hr => ?_⟩
  · have hmod := Nat.mod_eq_of_lt ((hturn line k).next_lt entry item r hr)
    rw [turn_succ, step, (hturn line k).rule?_transition hr]
    split
    · rw [Rule.passOn, hmod]
    · rfl
  · have hlt := (hturn line k).next_lt entry item r hr
    have hdue : r.due = some r.replies[r.next] := by
      rw [Rule.due, Nat.mod_eq_of_lt hlt, List.getElem?_eq_getElem hlt]
    refine ⟨r.replies[r.next], List.getElem?_eq_getElem hlt, ?_⟩
    rw [turn_succ, step, hstage, transition, (hturn line k).reassemble_eq hr, hdue]
  · obtain ⟨e, he, hi⟩ := rule?_eq_some_iff.1 hr
    have hfresh : r.next = 0 := Script.fresh_of_load h entry e he _ (List.mem_of_getElem? hi)
    have hrule : some r = some { r with next := ([] : List Nat).length % r.replies.length } := by
      rw [List.length_nil, Nat.zero_mod, ← hfresh]
    have hrot : Rotates script settings entry item r [] (start script settings) :=
      ⟨hstart, hr.trans hrule, rfl⟩
    have hend := hrot.converse lines
    refine ⟨hend.rule, hend.past, fun i hle => ?_⟩
    rw [hend.past]
    exact perm_range_of_window (by simpa using hle)

/-- A reply and a link to no entry, in turn: what comes of the link does not matter to the rotation. -/
theorem replies_take_turns_nowhere :
    ∃ script, Script.load "(HI)(A ((0) (ONE) (=NOWHERE)))()" = .ok script ∧
      let used := (start script {}).used ⟨Table.bucketOf ⟨"A"⟩, 0⟩ 0 ["A", "A", "A"]
      used = [0, 1, 0] ∧ ((used.drop 1).take 2).Perm (List.range 2) := by
  have hrun : (Script.load "(HI)(A ((0) (ONE) (=NOWHERE)))()").toOption.map (fun script =>
      (((start script {}).rule? ⟨Table.bucketOf ⟨"A"⟩, 0⟩ 0).map Rule.replies,
        (start script {}).used ⟨Table.bucketOf ⟨"A"⟩, 0⟩ 0 ["A", "A", "A"])) =
      some (some [.say [.word ⟨"ONE"⟩], .follow ⟨"NOWHERE"⟩], [0, 1, 0]) := by
    decide +kernel
  cases h : Script.load "(HI)(A ((0) (ONE) (=NOWHERE)))()" with
  | error => rw [h] at hrun; cases hrun
  | ok script =>
    rw [h] at hrun
    obtain ⟨hrule, hused⟩ := Prod.mk.inj (Option.some.inj hrun)
    obtain ⟨r, hr, hr'⟩ := Option.map_eq_some_iff.1 hrule
    obtain ⟨-, -, -, hturns⟩ := replies_take_turns h {} ["A", "A", "A"]
    obtain ⟨-, -, hwindow⟩ := hturns _ _ r hr
    refine ⟨script, rfl, hused, ?_⟩
    have hperm := hwindow 1 (by rw [hused, hr']; decide)
    rwa [hr'] at hperm

end Session

end Dialogue
