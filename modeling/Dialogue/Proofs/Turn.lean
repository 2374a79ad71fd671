import Dialogue.Proofs.Step

/-!
# Turns, one transition after the other

`Session.turn` follows a turn from the line it is given through every transition, and
`Session.converse` a session from line to line. The first three transitions of an ordinary turn take
the line up, count the turn and scan the words (`turn_three`); none of the stages they pass comes
back later in the turn (`Answering`). What holds at the start and is kept by transitions holds all
along (`turn_invariant`, `settle_invariant`, `converse_invariant`).
-/

namespace Dialogue

/-- A stage of a turn that is not on the way to its scan and not at the choice that follows it. -/
def Stage.isLate : Stage → Bool
  | .vet | .scan | .fallBack | .dispatch => false
  | _ => true

namespace Session

/-- One transition. -/
def step (p : Stage × Session) : Stage × Session := p.2.transition p.1

/-- The stage and the session after `n` transitions of the turn on a line. -/
def turn (s : Session) (line : String) (n : Nat) : Stage × Session :=
  step^[n] (.await, { s with pending := some line })

/-- The session after it has responded to lines. -/
def converse (s : Session) (lines : List String) : Session :=
  lines.foldl (fun s line => (s.respond line).2) s

variable {s t : Session} {stage : Stage} {line : String}

theorem turn_zero (s : Session) (line : String) :
    s.turn line 0 = (.await, { s with pending := some line }) := rfl

theorem turn_succ (s : Session) (line : String) (n : Nat) :
    s.turn line (n + 1) = step (s.turn line n) := Function.iterate_succ_apply' ..

theorem converse_cons (s : Session) (line : String) (lines : List String) :
    s.converse (line :: lines) = (s.respond line).2.converse lines := rfl

theorem turn_invariant {P : Stage → Session → Prop} (h₀ : P .await { s with pending := some line })
    (hstep : ∀ stage t, P stage t → P (t.transition stage).1 (t.transition stage).2) (n : Nat) :
    P (s.turn line n).1 (s.turn line n).2 := by
  induction n with
  | zero => exact h₀
  | succ n ih => rw [turn_succ]; exact hstep _ _ ih

theorem converse_invariant {P : Session → Prop} (h₀ : P s)
    (hstep : ∀ t line, P t → P (t.respond line).2) (lines : List String) : P (s.converse lines) := by
  induction lines generalizing s with
  | nil => exact h₀
  | cons line lines ih => exact ih (hstep s line h₀)

/-! ### Settling -/

theorem settle_of_settled (h : s.settled stage) : s.settle stage = s := by
  rw [settle, dif_pos h]

theorem settle_of_running (h : s.settled stage = false) :
    s.settle stage = (s.transition stage).2.settle (s.transition stage).1 := by
  rw [settle, dif_neg (by simp [h])]

/-- A turn settles within as many transitions as its measure says. -/
theorem exists_settled (s : Session) (stage : Stage) :
    ∃ n ≤ s.measure stage,
      (step^[n] (stage, s)).2.settled (step^[n] (stage, s)).1 ∧
      (∀ k < n, (step^[k] (stage, s)).2.settled (step^[k] (stage, s)).1 = false) ∧
      s.settle stage = (step^[n] (stage, s)).2 := by
  induction s, stage using settle.induct with
  | case1 s stage h => exact ⟨0, Nat.zero_le _, h, nofun, settle_of_settled h⟩
  | case2 s stage h next ih =>
    have h : s.settled stage = false := by simpa using h
    obtain ⟨n, hn, hend, hrun, heq⟩ := ih
    have hlt := measure_transition_lt s stage h
    refine ⟨n + 1, Nat.lt_of_le_of_lt hn hlt, hend, fun k hk => ?_, ?_⟩
    · cases k with
      | zero => exact h
      | succ k => exact hrun k (by omega)
    · rw [settle_of_running h]; exact heq

theorem settle_invariant {P : Stage → Session → Prop}
    (hstep : ∀ stage t, P stage t → P (t.transition stage).1 (t.transition stage).2)
    (h : P stage s) : ∃ last, P last (s.settle stage) ∧ (s.settle stage).settled last := by
  induction s, stage using settle.induct with
  | case1 s stage hs => rw [settle_of_settled hs]; exact ⟨stage, h, hs⟩
  | case2 s stage hs next ih =>
    rw [settle_of_running (by simpa using hs)]
    exact ih (hstep _ _ h)

/-- What a settled turn leaves behind: its replies are handed over. -/
def collect (s : Session) : List String × Session := (s.outbox, { s with outbox := [] })

theorem respond_of_finished (h : s.finished) (line : String) : s.respond line = ([], s) := by
  rw [respond, if_pos h]

theorem respond_of_unfinished (h : s.finished = false) (line : String) :
    s.respond line = collect (settle { s with pending := some line } .await) := by
  rw [respond, if_neg (by simp [h])]
  rfl

/-- The turn on a line is over after `n` transitions, and not before. -/
structure EndsAfter (s : Session) (line : String) (n : Nat) : Prop where
  settled : (s.turn line n).2.settled (s.turn line n).1
  running : ∀ k < n, (s.turn line k).2.settled (s.turn line k).1 = false
  respond_eq : s.respond line = collect (s.turn line n).2

theorem exists_endsAfter (h : s.finished = false) (line : String) :
    ∃ n ≤ 2 * s.settings.maxRedirects + 7, s.EndsAfter line n := by
  obtain ⟨n, hn, hend, hrun, heq⟩ := exists_settled { s with pending := some line } .await
  refine ⟨n, hn, hend, hrun, ?_⟩
  rw [respond_of_unfinished h, heq]
  rfl

/-! ### The start of a turn -/

/-- The session that has counted the turn. -/
def counted (s : Session) (line : String) : Session :=
  { s.heard line with rotation := s.rotation % 4 + 1 }

/-- The session as the scan of the line leaves it. -/
def scanned (s : Session) (line : String) : Session := (s.counted line).scan.2

/-- The line is neither blank nor a command. -/
structure Ordinary (s : Session) (line : String) : Prop where
  notBlank : Text.isBlankText line = false
  notCommand : (s.heard line).isCommand = false

theorem turn_one_of_blank (h : Text.isBlankText line) :
    s.turn line 1 = (.close, { s with pending := none }) := by
  simp [turn_succ, turn_zero, step, transition, takeLine, h]

theorem turn_one (h : Text.isBlankText line = false) : s.turn line 1 = (.vet, s.heard line) := by
  simp [turn_succ, turn_zero, step, transition, takeLine, h, heard]

theorem turn_two_of_command (h : Text.isBlankText line = false) (hc : (s.heard line).isCommand) :
    s.turn line 2 = (.await, (s.heard line).emit s.settings.unsupportedReply) := by
  simp only [turn_succ s line 1, turn_one h, step, transition, vet, hc, if_true]
  rfl

theorem turn_two (h : s.Ordinary line) : s.turn line 2 = (.scan, s.counted line) := by
  simp only [turn_succ s line 1, turn_one h.notBlank, step, transition, vet, h.notCommand]
  rfl

theorem turn_three (h : s.Ordinary line) : s.turn line 3 = (s.counted line).scan := by
  rw [turn_succ, turn_two h]; rfl

theorem scan_frame (s : Session) :
    ∃ input selection, s.scan.2 = { s with input := input, selection := selection } := ⟨_, _, rfl⟩

section
variable (s : Session) (line : String)

theorem scanned_frame :
    ∃ input selection, s.scanned line = { s.counted line with input := input, selection := selection } :=
  scan_frame _

@[simp] theorem scanned_settings : (s.scanned line).settings = s.settings := by
  obtain ⟨_, _, h⟩ := s.scanned_frame line; rw [h]; rfl

@[simp] theorem scanned_table : (s.scanned line).table = s.table := by
  obtain ⟨_, _, h⟩ := s.scanned_frame line; rw [h]; rfl

@[simp] theorem scanned_memory : (s.scanned line).memory = s.memory := by
  obtain ⟨_, _, h⟩ := s.scanned_frame line; rw [h]; rfl

@[simp] theorem scanned_memories : (s.scanned line).memories = s.memories := by
  obtain ⟨_, _, h⟩ := s.scanned_frame line; rw [h]; rfl

@[simp] theorem scanned_rotation : (s.scanned line).rotation = s.rotation % 4 + 1 := by
  obtain ⟨_, _, h⟩ := s.scanned_frame line; rw [h]; rfl

@[simp] theorem scanned_pending : (s.scanned line).pending = none := by
  obtain ⟨_, _, h⟩ := s.scanned_frame line; rw [h]; rfl

@[simp] theorem scanned_redirects : (s.scanned line).redirects = 0 := by
  obtain ⟨_, _, h⟩ := s.scanned_frame line; rw [h]; rfl

@[simp] theorem scanned_outbox : (s.scanned line).outbox = s.outbox := by
  obtain ⟨_, _, h⟩ := s.scanned_frame line; rw [h]; rfl

@[simp] theorem scanned_finished : (s.scanned line).finished = s.finished := by
  obtain ⟨_, _, h⟩ := s.scanned_frame line; rw [h]; rfl

end

/-- Over words, the scan walks by the rules to its end. -/
theorem exists_scan {words : List Word} (h : s.input.data = words.map .word) :
    ∃ input, Scan.Walks s.settings s.table (.onHeader s.input) s.input s.selection input
        (Scan.sweep s.settings s.table [] s.selection words).2 ∧
      input.data = (Scan.sweep s.settings s.table [] s.selection words).1.map .word ∧
      s.scan =
        (if (Scan.sweep s.settings s.table [] s.selection words).2.isSome then .dispatch else .fallBack,
          { s with
            input := input
            selection := (Scan.sweep s.settings s.table [] s.selection words).2 }) := by
  obtain ⟨input, hw, hd⟩ := @Scan.walks_of_words s.settings s.table [] words s.selection s.input
    (by simpa using h)
  have hw : Scan.Walks s.settings s.table (.onHeader s.input) s.input s.selection input _ := hw
  exact ⟨input, hw, hd, by rw [scan, hw.walk_eq]⟩

/-- The words that the scan of a line keeps, and what it selects. -/
def swept (s : Session) (line : String) : List Word × Option Selection :=
  Scan.sweep s.settings s.table [] none (Sentence.words line)

section
variable (s : Session) (line : String)

theorem scan_counted :
    (s.counted line).scan =
        (if (s.swept line).2.isSome then .dispatch else .fallBack, s.scanned line) ∧
      (s.scanned line).selection = (s.swept line).2 ∧
      (s.scanned line).input.data = (s.swept line).1.map .word := by
  have hwords : (s.counted line).input.data = (Sentence.words line).map .word := rfl
  obtain ⟨input, _, hd, h⟩ := exists_scan hwords
  rw [scanned, h]
  exact ⟨rfl, rfl, hd⟩

theorem scanned_selection : (s.scanned line).selection = (s.swept line).2 := (s.scan_counted line).2.1

theorem scanned_data : (s.scanned line).input.data = (s.swept line).1.map .word :=
  (s.scan_counted line).2.2

theorem scan_counted_eq :
    (s.counted line).scan =
      (if (s.scanned line).selection.isSome then .dispatch else .fallBack, s.scanned line) := by
  rw [scanned_selection]; exact (s.scan_counted line).1

end

theorem words_of_data {l : Cells} {words : List Word} (h : l.data = words.map .word) :
    l.words = words := by
  rw [Cells.words, Datum.words, h, List.filterMap_map]
  exact List.filterMap_some

/-- The scan leaves words, and at least one if it selects an entry. -/
theorem scanned_words (s : Session) (line : String) : (s.scanned line).input.words = (s.swept line).1 :=
  words_of_data (s.scanned_data line)

theorem swept_ne_nil (h : (s.scanned line).selection.isSome) : (s.swept line).1 ≠ [] := by
  rw [scanned_selection] at h
  exact Scan.sweep_ne_nil s.settings s.table nofun h

/-! ### The rest of a turn -/

/-- The turn is beyond its scan, on the way to its reply, or is none any more. -/
structure Answering (stage : Stage) (s : Session) : Prop where
  pending : s.pending = none
  late : stage.isLate

namespace Answering

theorem redirect (h : s.pending = none) (keyword : Word) :
    Answering (s.redirect keyword).1 (s.redirect keyword).2 := by
  rw [redirect_eq]
  refine ⟨h, ?_⟩
  dsimp only
  split
  · unfold Table.linkTarget
    cases s.table.locate keyword <;> rfl
  · rfl

theorem of_goes {r : Stage × Session} (h : Answering stage s) (hg : s.Goes stage r) :
    Answering r.1 r.2 := by
  obtain ⟨hp, hl⟩ := h
  cases hg with
  | waits => exact ⟨hp, rfl⟩
  | ends hp' | hears hp' => rw [hp] at hp'; cases hp'
  | refuses | counts | scans | recalls | fallsBack | shrugs | dispatches | backsOff =>
    cases hl
  | links => exact redirect hp _
  | follows => exact redirect (by exact hp) _
  | rebuilds => exact redirect (by exact hp) _
  | _ => exact ⟨hp, rfl⟩

theorem fallBack (hp : s.pending = none) : Answering s.fallBack.1 s.fallBack.2 := by
  have hg := s.goes_fallBack
  generalize s.fallBack = r at hg
  cases hg <;> exact ⟨hp, rfl⟩

theorem turn {n k : Nat} (h : Answering (s.turn line n).1 (s.turn line n).2) (hk : n ≤ k) :
    Answering (s.turn line k).1 (s.turn line k).2 := by
  induction hk with
  | refl => exact h
  | step _ ih => rw [turn_succ]; exact ih.of_goes (goes _ _)

end Answering

theorem answering_of_not_ordinary (h : ¬ s.Ordinary line) :
    Answering (s.turn line 2).1 (s.turn line 2).2 := by
  by_cases hb : Text.isBlankText line
  · refine Answering.turn (n := 1) ?_ (by decide)
    rw [turn_one_of_blank hb]; exact ⟨rfl, rfl⟩
  · have hb : Text.isBlankText line = false := by simpa using hb
    have hc : (s.heard line).isCommand := by
      by_contra hc
      exact h ⟨hb, by simpa using hc⟩
    rw [turn_two_of_command hb hc]; exact ⟨rfl, rfl⟩

/-- After four transitions every turn is beyond its scan. -/
theorem answering_turn_four (s : Session) (line : String) :
    Answering (s.turn line 4).1 (s.turn line 4).2 := by
  by_cases ho : s.Ordinary line
  · rw [turn_succ, turn_three ho, step, scan_counted_eq]
    cases hs : (s.scanned line).selection with
    | none => exact Answering.fallBack (s.scanned_pending line)
    | some selected =>
      have hd : (s.scanned line).dispatch =
          (.decompose selected.entry 0, (s.scanned line).remember selected.entry) := by
        simp only [dispatch, hs]
      show Answering (s.scanned line).dispatch.1 (s.scanned line).dispatch.2
      rw [hd]
      exact ⟨(SameBounds.remember _ _).pending.trans (s.scanned_pending line), rfl⟩
  · exact (answering_of_not_ordinary ho).turn (by decide)

/-- The stages up to the one after the scan are passed at the start of a turn only. -/
theorem early_turn {k : Nat} (h : (s.turn line k).1.isLate = false) :
    k = 1 ∨ s.Ordinary line ∧ (k = 2 ∨ k = 3) := by
  have hlt : ∀ n, Answering (s.turn line n).1 (s.turn line n).2 → k < n := fun n hn =>
    Nat.lt_of_not_le fun hk => by
      have := (hn.turn hk).late
      rw [h] at this; cases this
  have h4 := hlt 4 (answering_turn_four s line)
  have h0 : k ≠ 0 := by rintro rfl; cases h
  by_cases ho : s.Ordinary line
  · by_cases h1 : k = 1
    · exact .inl h1
    · exact .inr ⟨ho, by omega⟩
  · have := hlt 2 (answering_of_not_ordinary ho)
    exact .inl (by omega)

/-- The stages that follow the scan are entered by the scan alone. -/
theorem turn_of_choice {k : Nat} (hk : s.turn line k = (stage, t))
    (hs : stage = .dispatch ∨ stage = .fallBack) :
    s.Ordinary line ∧ k = 3 ∧ s.scanned line = t ∧
      stage = if t.selection.isSome then .dispatch else .fallBack := by
  have hl : (s.turn line k).1.isLate = false := by
    rw [hk]; rcases hs with rfl | rfl <;> rfl
  rcases early_turn hl with rfl | ⟨ho, rfl | rfl⟩
  · by_cases hb : Text.isBlankText line
    · rw [turn_one_of_blank hb] at hk
      cases hk; simp at hs
    · rw [turn_one (by simpa using hb)] at hk
      cases hk; simp at hs
  · rw [turn_two ho] at hk
    cases hk; simp at hs
  · rw [turn_three ho, scan_counted_eq] at hk
    cases hk
    exact ⟨ho, rfl, rfl, rfl⟩

theorem turn_three_eq (h : s.Ordinary line) :
    s.turn line 3 =
      (if (s.scanned line).selection.isSome then .dispatch else .fallBack, s.scanned line) := by
  rw [turn_three h, scan_counted_eq]

theorem exists_turn_fallBack_iff :
    (∃ k, s.turn line k = (.fallBack, t)) ↔
      s.Ordinary line ∧ s.scanned line = t ∧ t.selection = none := by
  constructor
  · rintro ⟨k, hk⟩
    obtain ⟨ho, -, ht, hs⟩ := turn_of_choice hk (.inr rfl)
    refine ⟨ho, ht, ?_⟩
    by_contra hn
    rw [if_pos (Option.isSome_iff_ne_none.2 hn)] at hs; cases hs
  · rintro ⟨ho, rfl, hs⟩
    exact ⟨3, by rw [turn_three_eq ho, hs]; rfl⟩

end Session

end Dialogue
