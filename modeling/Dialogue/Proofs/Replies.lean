import Dialogue.Proofs.Memories
import Dialogue.Proofs.Safety
import Dialogue.Proofs.Scratch

/-!
# One reply to a line

`Session.speech?` is what a transition says, if it says something. A turn is over when something has
been said and not before (`settled_of_goes`), so that of its transitions the last one speaks and no
other (`EndsAfter.isSome_speechAt_iff`), whatever links it has followed. Where the speech comes from is
kept apart from its text: a phrase of the settings may well read like a template of the script.
-/

namespace Dialogue

/-- Something that is said, by where it comes from. -/
inductive Speech where
  /-- Commands are not supported. -/
  | refusal
  /-- A sentence that has been remembered. -/
  | memory (sentence : List Word)
  /-- A template, filled with the groups of an input. -/
  | expansion (template : List Filler) (groups : List (List Word))
  /-- The phrase for a value of the rotation counter. -/
  | acknowledgement (rotation : Nat)
  | closing

def Speech.text (settings : Settings) : Speech → String
  | .refusal => settings.unsupportedReply
  | .memory sentence => Word.phrase sentence
  | .expansion template groups => Word.phrase (reassemble template groups settings.placeholder)
  | .acknowledgement rotation => settings.acknowledgement rotation
  | .closing => settings.closing

/-- A rule of the table has this pattern, and this template among its replies. -/
def Table.Offers (t : Table) (pattern : List Part) (template : List Filler) : Prop :=
  ∃ entry e r, t.get? entry = some e ∧ .rule r ∈ e.items ∧ r.pattern = pattern ∧
    .say template ∈ r.replies

namespace Session

variable {s t : Session} {stage : Stage} {line : String} {r : Stage × Session}

/-- What the transition from a stage says. -/
def speech? (s : Session) : Stage → Option Speech
  | .vet => if s.isCommand then some .refusal else none
  | .fallBack => if s.rotation = 4 then s.memories.head?.map .memory else none
  | .reassemble entry item groups =>
    match (s.rule? entry item).bind Rule.due with
    | some (.say template) => some (.expansion template groups)
    | _ => none
  | .acknowledge => some (.acknowledgement s.rotation)
  | .close => some .closing
  | _ => none

/-- What the transition `k` of the turn on a line says. -/
def speechAt (s : Session) (line : String) (k : Nat) : Option Speech :=
  (s.turn line k).2.speech? (s.turn line k).1

/-! ### One transition -/

theorem speech?_fallBack_of_not (h : ¬ (s.rotation = 4 ∧ s.memories ≠ [])) :
    s.speech? .fallBack = none := by
  show (if s.rotation = 4 then s.memories.head?.map Speech.memory else none) = none
  by_cases hr : s.rotation = 4
  · have hm : s.memories = [] := not_not.1 fun hne => h ⟨hr, hne⟩
    rw [if_pos hr, hm]; rfl
  · exact if_neg hr

theorem outbox_of_goes (hg : s.Goes stage r) :
    r.2.outbox = s.outbox ++ ((s.speech? stage).map (Speech.text s.settings)).toList := by
  cases hg with
  | refuses hc | counts hc => simp [speech?, hc, emit, Speech.text]
  | recalls hr hm => simp [speech?, hr, hm, emit, Speech.text]
  | fallsBack hr | shrugs hr => simp [speech?_fallBack_of_not hr]
  | @dispatches selected =>
    obtain ⟨memories, h⟩ := s.remember_frame selected.entry
    simp [speech?, h]
  | misses hr => simp [speech?, hr]
  | falters hr hd => simp [speech?, hr, hd]
  | replies hr hd => simp [speech?, hr, hd, emit, Speech.text, setRule]
  | follows hr hd | rebuilds hr hd => rw [redirect_eq]; simp [speech?, hr, hd, setRule, rebuilt]
  | links => rw [redirect_eq]; simp [speech?]
  | _ => simp [speech?, emit, Speech.text, heard]

theorem settled_redirect (s : Session) (keyword : Word) :
    (s.redirect keyword).2.settled (s.redirect keyword).1 = false := by
  rw [redirect_eq]
  dsimp only
  split
  · unfold Table.linkTarget
    cases s.table.locate keyword <;> rfl
  · rfl

/-- A turn is over as soon as something has been said. -/
theorem settled_of_goes (hg : s.Goes stage r) (hs : s.settled stage = false)
    (hp : stage ≠ .await → s.pending = none) : r.2.settled r.1 = (s.speech? stage).isSome := by
  cases hg with
  | waits hp' => simp [settled, hp'] at hs
  | stays => cases hs
  | refuses hc => simp [settled, emit, speech?, hc, hp (by simp)]
  | counts hc => simp [settled, speech?, hc]
  | scans => split <;> rfl
  | recalls hr hm => simp [settled, emit, speech?, hr, hm, hp (by simp)]
  | fallsBack hr | shrugs hr => rw [speech?_fallBack_of_not hr]; rfl
  | misses hr => simp [settled, speech?, hr]
  | falters hr hd => simp [settled, speech?, hr, hd]
  | replies hr hd => simp [settled, emit, setRule, speech?, hr, hd, hp (by simp)]
  | links => exact settled_redirect _ _
  | follows hr hd | rebuilds hr hd => rw [settled_redirect]; simp [speech?, hr, hd]
  | acknowledges => simp [settled, emit, speech?, hp (by simp)]
  | _ => rfl

theorem speech?_of_settled (h : s.settled stage) : s.speech? stage = none := by
  cases stage with
  | await | halted => rfl
  | _ => cases h

/-- A transition keeps the settings, and finds no new line to take up. -/
theorem kept_of_goes (hg : s.Goes stage r) (hp : s.pending = none) :
    r.2.settings = s.settings ∧ r.2.pending = none := by
  cases hl : s.linkAt stage with
  | none =>
    have same := (goes_of_no_link hg hl hp).1
    exact ⟨same.settings, same.pending.trans hp⟩
  | some keyword =>
    obtain ⟨-, -, hset, hpen⟩ := goes_of_link hg hl
    exact ⟨hset, hpen.trans hp⟩

/-! ### One turn -/

theorem kept_turn_succ (s : Session) (line : String) (k : Nat) :
    (s.turn line (k + 1)).2.settings = s.settings ∧ (s.turn line (k + 1)).2.pending = none := by
  induction k with
  | zero =>
    by_cases hb : Text.isBlankText line
    · rw [turn_one_of_blank hb]; exact ⟨rfl, rfl⟩
    · rw [turn_one (by simpa using hb)]; exact ⟨rfl, rfl⟩
  | succ k ih =>
    obtain ⟨hset, hpen⟩ := kept_of_goes (goes _ _) ih.2
    rw [turn_succ _ _ (k + 1)]
    exact ⟨hset.trans ih.1, hpen⟩

theorem settings_turn (s : Session) (line : String) (k : Nat) :
    (s.turn line k).2.settings = s.settings := by
  cases k with
  | zero => rfl
  | succ k => exact (s.kept_turn_succ line k).1

theorem outbox_turn_succ (s : Session) (line : String) (k : Nat) :
    (s.turn line (k + 1)).2.outbox =
      (s.turn line k).2.outbox ++ ((s.speechAt line k).map (Speech.text s.settings)).toList := by
  rw [turn_succ, step, outbox_of_goes (goes _ _), settings_turn]; rfl

namespace EndsAfter

variable {n : Nat}

/-- Of the transitions of a turn the last one speaks. -/
theorem isSome_speechAt_iff (h : s.EndsAfter line n) (k : Nat) :
    (s.speechAt line k).isSome ↔ k + 1 = n := by
  by_cases hk : k < n
  · have hs := settled_of_goes (goes _ _) (h.running k hk) fun hne => by
      cases k with
      | zero => exact (hne rfl).elim
      | succ k => exact (s.kept_turn_succ line k).2
    rw [speechAt, ← hs]
    show (step (s.turn line k)).2.settled (step (s.turn line k)).1 = true ↔ k + 1 = n
    rw [← turn_succ]
    constructor
    · intro hset
      by_contra hne
      have := h.running (k + 1) (by omega)
      rw [hset] at this; cases this
    · rintro rfl
      exact h.settled
  · have hn : s.turn line k = s.turn line n := h.turn_eq (by omega)
    rw [speechAt, hn, speech?_of_settled h.settled]
    exact ⟨nofun, fun hk' => absurd hk' (by omega)⟩

theorem outbox_turn (h : s.EndsAfter line n) {k : Nat} (hk : k < n) :
    (s.turn line k).2.outbox = s.outbox := by
  induction k with
  | zero => rfl
  | succ k ih =>
    have hnone : s.speechAt line k = none := by
      rw [← Option.not_isSome_iff_eq_none, h.isSome_speechAt_iff]
      omega
    rw [outbox_turn_succ, ih (by omega), hnone]
    exact List.append_nil _

end EndsAfter

/-- A turn says one thing, with its last transition, and that is the reply. -/
theorem exists_speech (hf : s.finished = false) (line : String) :
    ∃ k speech, s.EndsAfter line (k + 1) ∧ s.speechAt line k = some speech ∧
      (∀ j ≠ k, s.speechAt line j = none) ∧
      (s.respond line).1 = s.outbox ++ [speech.text s.settings] := by
  obtain ⟨n, -, h⟩ := exists_endsAfter hf line
  cases n with
  | zero => have := h.settled; rw [not_settled_turn_zero] at this; cases this
  | succ k =>
    obtain ⟨speech, hk⟩ := Option.isSome_iff_exists.1 ((h.isSome_speechAt_iff k).2 rfl)
    refine ⟨k, speech, h, hk, fun j hj => ?_, ?_⟩
    · rw [← Option.not_isSome_iff_eq_none, h.isSome_speechAt_iff]
      omega
    · rw [h.respond_eq, collect, outbox_turn_succ, h.outbox_turn (Nat.lt_succ_self k), hk]
      rfl

/-! ### Where expansions come from -/

theorem offers_of_setRule {entry : EntryRef} {item : Nat} {r : Rule} {pattern : List Part}
    {template : List Filler} (hr : s.rule? entry item = some r)
    (h : (s.setRule entry item r.passOn).table.Offers pattern template) :
    s.table.Offers pattern template := by
  obtain ⟨q, e, x, he, hx, hp, ht⟩ := h
  simp only [setRule, Table.get?_modify] at he
  by_cases hq : q = entry
  · rw [if_pos hq, Option.map_eq_some_iff] at he
    obtain ⟨d, hd, rfl⟩ := he
    obtain ⟨d', hd', hi⟩ := rule?_eq_some_iff.1 hr
    rw [hq] at hd
    cases hd.symm.trans hd'
    rcases List.mem_or_eq_of_mem_set hx with hx | hx
    · exact ⟨entry, d, x, hd, hx, hp, ht⟩
    · -- the rule itself, one turn ago
      cases hx
      exact ⟨entry, d, r, hd, List.mem_of_getElem? hi, hp, ht⟩
  · rw [if_neg hq] at he
    exact ⟨q, e, x, he, hx, hp, ht⟩

/-- The table has no templates but those of the table `t`, and a rule that replies has cut an input
into its groups. -/
structure Derived (t : Table) (stage : Stage) (s : Session) : Prop where
  offers : ∀ pattern template, s.table.Offers pattern template → t.Offers pattern template
  groups : ∀ entry item groups, stage = .reassemble entry item groups →
    ∀ r, s.rule? entry item = some r → ∃ words, Dialogue.decompose r.pattern words = some groups

namespace Derived

variable {t : Table}

theorem redirect (h : ∀ pattern template, s.table.Offers pattern template → t.Offers pattern template)
    (keyword : Word) : Derived t (s.redirect keyword).1 (s.redirect keyword).2 := by
  refine ⟨by rw [redirect_eq]; exact h, fun entry item groups hs => ?_⟩
  rw [redirect_eq] at hs
  dsimp only at hs
  split at hs
  · unfold Table.linkTarget at hs
    split at hs <;> cases hs
  · cases hs

theorem of_goes (h : Derived t stage s) (hg : s.Goes stage r) : Derived t r.1 r.2 := by
  cases hg with
  | stays | waits => exact h
  | scans => exact ⟨h.offers, fun _ _ _ hs => by split at hs <;> cases hs⟩
  | @dispatches selected =>
    obtain ⟨memories, hr⟩ := s.remember_frame selected.entry
    exact ⟨by rw [hr]; exact h.offers, nofun⟩
  | links => exact redirect h.offers _
  | picks he hm =>
    obtain ⟨r, hr, hg⟩ := getElem?_of_firstMove hm
    refine ⟨h.offers, ?_⟩
    rintro entry item groups ⟨⟩ r' hr'
    cases (rule?_eq_some_iff.2 ⟨_, he, hr⟩).symm.trans hr'
    exact ⟨_, hg⟩
  | replies hr => exact ⟨fun p q ho => h.offers p q (offers_of_setRule hr ho), nofun⟩
  | follows hr | rebuilds hr =>
    refine redirect ?_ _
    exact fun p q ho => h.offers p q (offers_of_setRule hr ho)
  | _ => exact ⟨h.offers, nofun⟩

theorem turn (h : Derived t .await s) (line : String) (n : Nat) :
    Derived t (s.turn line n).1 (s.turn line n).2 :=
  turn_invariant (P := Derived t) ⟨h.offers, nofun⟩ (fun _ _ h => h.of_goes (goes _ _)) n

theorem respond (h : Derived t .await s) (line : String) : Derived t .await (s.respond line).2 := by
  cases hf : s.finished with
  | true => rw [respond_of_finished hf]; exact h
  | false =>
    obtain ⟨n, -, hn⟩ := exists_endsAfter hf line
    rw [hn.respond_eq]
    exact ⟨(h.turn line n).offers, nofun⟩

theorem converse (script : Script) (settings : Settings) (lines : List String) :
    Derived script.table .await ((start script settings).converse lines) :=
  converse_invariant (P := Derived script.table .await) ⟨fun _ _ => id, nofun⟩
    (fun _ line h => h.respond line) lines

end Derived

/-! ### Where replies come from -/

/-- What a speech in reply to a line has to do with the line, with the session before it and after it,
and with the table of the script. -/
def Befits (s : Session) (t : Table) (line : String) (after : Session) : Speech → Prop
  | .closing => Text.isBlankText line
  | .refusal => s.settings.isCommandLine line
  | .memory sentence => s.Ordinary line ∧ s.memories = sentence :: after.memories
  | .expansion template groups =>
    s.Ordinary line ∧ ∃ pattern words, t.Offers pattern template ∧
      Dialogue.decompose pattern words = some groups
  | .acknowledgement rotation => s.Ordinary line ∧ rotation = after.rotation

theorem isCommandLine_iff :
    s.settings.isCommandLine line ↔ Text.isBlankText line = false ∧ (s.heard line).isCommand := by
  simp [Settings.isCommandLine, isCommand_heard]

theorem finished_respond (hf : s.finished = false) (line : String) :
    (s.respond line).2.finished = Text.isBlankText line := by
  have h := comes hf line
  generalize s.respond line = r at h
  cases h with
  | closed hb => exact hb.symm
  | refused hb => exact hf.trans hb.symm
  | recalled ho | evaluated ho | acknowledged ho => simp [hf, ho.notBlank]

theorem rotation_respond (hf : s.finished = false) (ho : s.Ordinary line) :
    (s.respond line).2.rotation = s.rotation % 4 + 1 := by
  have h := comes hf line
  generalize s.respond line = r at h
  cases h with
  | closed hb => simp [ho.notBlank] at hb
  | refused _ hc => simp [ho.notCommand] at hc
  | recalled | evaluated | acknowledged => exact s.scanned_rotation line

theorem befits_of_ordinary {u : Table} {k : Nat} {speech : Speech} (hd : Derived u .await s)
    (hf : s.finished = false) (ho : s.Ordinary line) (h : s.EndsAfter line (k + 1))
    (hk : s.speechAt line k = some speech) : s.Befits u line (s.respond line).2 speech := by
  obtain ⟨stage, t, ht⟩ : ∃ stage t, s.turn line k = (stage, t) := ⟨_, _, rfl⟩
  have hafter : (s.respond line).2 = { (t.transition stage).2 with outbox := [] } := by
    rw [h.respond_eq, turn_succ, ht]; rfl
  have hderived := hd.turn line k
  rw [speechAt, ht] at hk
  rw [ht] at hderived
  cases stage with
  | vet =>
    -- the line would have to be a command
    rcases early_turn (by rw [ht]; rfl) with rfl | ⟨-, rfl | rfl⟩
    · rw [turn_one ho.notBlank] at ht
      cases ht
      simp [speech?, ho.notCommand] at hk
    · rw [turn_two ho] at ht; cases ht
    · rw [turn_three_eq ho] at ht
      have := congrArg Prod.fst ht
      dsimp only at this
      split at this <;> cases this
  | fallBack =>
    obtain ⟨-, -, rfl, -⟩ := turn_of_choice ht (.inr rfl)
    simp only [speech?, Option.ite_none_right_eq_some, Option.map_eq_some_iff] at hk
    obtain ⟨hr, sentence, hm, rfl⟩ := hk
    obtain ⟨rest, hm⟩ := List.head?_eq_some_iff.1 hm
    refine ⟨ho, ?_⟩
    rw [hafter, transition, fallBack_of_memory hr hm, ← scanned_memories s line, hm]
  | reassemble entry item groups =>
    simp only [speech?] at hk
    split at hk
    · rename_i template hdue
      cases hk
      obtain ⟨r, hr, hdue⟩ := Option.bind_eq_some_iff.1 hdue
      obtain ⟨e, he, hi⟩ := rule?_eq_some_iff.1 hr
      obtain ⟨words, hg⟩ := hderived.groups entry item groups rfl r hr
      refine ⟨ho, r.pattern, words, hderived.offers _ _ ?_, hg⟩
      exact ⟨entry, e, r, he, List.mem_of_getElem? hi, rfl, List.mem_of_getElem? hdue⟩
    · cases hk
  | acknowledge =>
    cases hk
    exact ⟨ho, by rw [hafter]; rfl⟩
  | close =>
    -- an ordinary line does not finish the session
    have hfin : (s.respond line).2.finished = true := by rw [hafter]; rfl
    rw [finished_respond hf, ho.notBlank] at hfin
    cases hfin
  | await | scan | dispatch | decompose | halted => cases hk

/-- Whatever is said in reply to a line befits it. -/
theorem befits {u : Table} {k : Nat} {speech : Speech} (hd : Derived u .await s)
    (hf : s.finished = false) (h : s.EndsAfter line (k + 1))
    (hk : s.speechAt line k = some speech) : s.Befits u line (s.respond line).2 speech := by
  have hone (hsome : (s.speechAt line 1).isSome) : k = 1 := by
    have := (h.isSome_speechAt_iff 1).1 hsome
    omega
  cases hb : Text.isBlankText line with
  | true =>
    have h1 : s.speechAt line 1 = some .closing := by
      rw [speechAt, turn_one_of_blank hb]; rfl
    obtain rfl := hone (by rw [h1]; rfl)
    cases h1.symm.trans hk
    exact hb
  | false =>
    cases hc : (s.heard line).isCommand with
    | true =>
      have h1 : s.speechAt line 1 = some .refusal := by
        rw [speechAt, turn_one hb]
        simp [speech?, hc]
      obtain rfl := hone (by rw [h1]; rfl)
      cases h1.symm.trans hk
      exact isCommandLine_iff.2 ⟨hb, hc⟩
    | false => exact befits_of_ordinary hd hf ⟨hb, hc⟩ h hk

/-! ### Conversations -/

/-- A conversation is over as soon as a line is blank. -/
theorem finished_converse (hf : s.finished = false) (lines : List String) :
    (s.converse lines).finished = lines.any Text.isBlankText := by
  induction lines generalizing s with
  | nil => exact hf
  | cons line lines ih =>
    rw [converse_cons, List.any_cons]
    cases hb : Text.isBlankText line with
    | true =>
      have hfin : (s.respond line).2.finished := (finished_respond hf line).trans hb
      rw [Bool.true_or]
      exact converse_invariant (P := fun s => s.finished = true) hfin
        (fun t line ht => by rw [respond_of_finished ht]; exact ht) lines
    | false => exact ih ((finished_respond hf line).trans hb)

theorem pending_respond (hf : s.finished = false) (line : String) :
    (s.respond line).2.pending = none := by
  obtain ⟨k, _, h, -⟩ := exists_speech hf line
  rw [h.respond_eq]
  exact (s.kept_turn_succ line k).2

theorem pieces_of_dropped {cs : List Char} (hd : ∀ c ∈ cs, Sentence.isDropped c) :
    Sentence.pieces cs = [] := by
  induction cs with
  | nil => exact Sentence.pieces_nil
  | cons c cs ih =>
    rw [Sentence.pieces_cons, if_pos (hd c List.mem_cons_self)]
    exact ih fun d hd' => hd d (List.mem_cons_of_mem _ hd')

/-- A line of marks that are dropped is not blank, and no command. -/
theorem ordinary_of_dropped (s : Session) (hb : Text.isBlankText line = false)
    (hd : ∀ c ∈ line.toList, Sentence.isDropped c) : s.Ordinary line := by
  refine ⟨hb, ?_⟩
  rw [isCommand_heard, Sentence.words, pieces_of_dropped hd]
  rfl

/-- Up to the first blank line there is one reply to a line, said once in the turn and for one reason;
the blank line is the goodbye, and after that nothing is said and nothing changes. -/
theorem one_reply (script : Script) (settings : Settings) (lines : List String) (line : String) :
    let s := (start script settings).converse lines
    let r := s.respond line
    (lines.any Text.isBlankText = false →
      (∃ k speech, s.speechAt line k = some speech ∧ (∀ j ≠ k, s.speechAt line j = none) ∧
        r.1 = [speech.text settings] ∧ s.Befits script.table line r.2 speech) ∧
      r.2.outbox = [] ∧ r.2.pending = none ∧ r.2.finished = Text.isBlankText line ∧
      (Text.isBlankText line → r.1 = [settings.closing]) ∧
      (Text.isBlankText line = false → (∀ c ∈ line.toList, Sentence.isDropped c) →
        s.Ordinary line ∧ r.2.rotation = s.rotation % 4 + 1)) ∧
    (lines.any Text.isBlankText → r = ([], s)) := by
  intro s r
  obtain ⟨hset, -, hout⟩ := converse_kept script settings lines
  have hset : s.settings = settings := hset
  have hfin : s.finished = lines.any Text.isBlankText := finished_converse rfl lines
  constructor
  · intro hno
    have hf : s.finished = false := hfin.trans hno
    obtain ⟨k, speech, h, hk, hother, hr⟩ := exists_speech hf line
    have hr : r.1 = [speech.text settings] := by
      rw [hset, hout] at hr
      exact hr
    have hbefits : s.Befits script.table line r.2 speech :=
      befits (Derived.converse script settings lines) hf h hk
    refine ⟨⟨k, speech, hk, hother, hr, hbefits⟩, (s.respond_kept line).2.2 hout,
      pending_respond hf line, finished_respond hf line, fun hb => ?_, fun hb hd => ?_⟩
    · have hcomes := (comes hf line).eq_verdict.1
      rw [verdict, if_pos hb, hset, hout] at hcomes
      exact hcomes
    · have ho := s.ordinary_of_dropped hb hd
      exact ⟨ho, rotation_respond hf ho⟩
  · intro hsome
    exact respond_of_finished (hfin.trans hsome) line

/-- Marks alone are a turn, white space alone is the goodbye, and then there is silence. -/
theorem one_reply_rebuilding :
    ((start rebuilding {}).converse ["A C"]).Ordinary "?!" ∧
      (((start rebuilding {}).converse ["A C"]).respond "?!").1 = ["GO ON , PLEASE"] ∧
      (((start rebuilding {}).converse ["A C"]).respond " ").1 = ["ELIZA ENDS..."] ∧
      ((start rebuilding {}).converse ["A C", " "]).respond "A C" =
        ([], (start rebuilding {}).converse ["A C", " "]) := by
  have hmarks := (one_reply rebuilding {} ["A C"] "?!").1 (by decide +kernel)
  have hblank := (one_reply rebuilding {} ["A C"] " ").1 (by decide +kernel)
  have hafter := (one_reply rebuilding {} ["A C", " "] "A C").2 (by decide +kernel)
  obtain ⟨-, -, -, -, -, hordinary⟩ := hmarks
  obtain ⟨-, -, -, -, hclosing, -⟩ := hblank
  have hdropped : ∀ c ∈ "?!".toList, Sentence.isDropped c := List.all_eq_true.1 (by decide +kernel)
  exact ⟨(hordinary (by decide +kernel) hdropped).1, by decide +kernel,
    hclosing (by decide +kernel), hafter⟩

end Session

end Dialogue
