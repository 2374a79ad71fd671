import Dialogue.Proofs.Replies

/-!
# The counter of turns

The rotation counter goes one step on in a turn that is neither the goodbye nor a command, and nothing
else moves it, so that it says how many such turns there have been, up to fours (`rotation_converse`).
Whatever is done to a session it stays between 1 and 4, since of all transitions one moves it
(`rotation_of_goes`). So settings that have passed their check have a phrase for each of its values, and
the placeholder that stands in for a missing one is never said in acknowledgement.
-/

namespace Dialogue

namespace Settings

/-- The lines that are counted: those before the first blank line that are no commands. -/
def turnLines (settings : Settings) (lines : List String) : List String :=
  (lines.takeWhile fun line => !Text.isBlankText line).filter fun line => !settings.isCommandLine line

variable {settings : Settings} {line : String} {lines : List String}

theorem turnLines_cons_of_blank (h : Text.isBlankText line) :
    settings.turnLines (line :: lines) = [] := by
  rw [turnLines, List.takeWhile_cons_of_neg (by simp [h]), List.filter_nil]

theorem turnLines_cons_of_command (h : settings.isCommandLine line) :
    settings.turnLines (line :: lines) = settings.turnLines lines := by
  have hb : Text.isBlankText line = false := by
    simp only [isCommandLine, Bool.and_eq_true, Bool.not_eq_true'] at h
    exact h.1
  rw [turnLines, List.takeWhile_cons_of_pos (by simp [hb]), List.filter_cons_of_neg (by simp [h]),
    turnLines]

theorem turnLines_cons (hb : Text.isBlankText line = false) (hc : settings.isCommandLine line = false) :
    settings.turnLines (line :: lines) = line :: settings.turnLines lines := by
  rw [turnLines, List.takeWhile_cons_of_pos (by simp [hb]), List.filter_cons_of_pos (by simp [hc]),
    turnLines]

theorem length_acknowledgements (h : settings.check = .ok ()) :
    settings.acknowledgements.length = 4 := by
  unfold check at h
  split at h
  · cases h
  · exact not_not.1 ‹_›

/-- There is a phrase for each value of the counter. -/
theorem acknowledgement_eq (h : settings.check = .ok ()) {n : Nat} (hn : n < 4) :
    settings.acknowledgements[n]? = some (settings.acknowledgement (n + 1)) := by
  have hlt : n < settings.acknowledgements.length := by rwa [length_acknowledgements h]
  have hindex : max 1 (min (n + 1) 4) - 1 = n := by omega
  rw [acknowledgement, hindex, List.getElem?_eq_getElem hlt, Option.getD_some]

end Settings

namespace Session

/-- What can be done to a session: it is given a line, or taken from a stage to the next, whether or not
it has come to that stage. -/
inductive Call where
  | respond (line : String)
  | transition (stage : Stage)

def call (s : Session) : Call → Session
  | .respond line => (s.respond line).2
  | .transition stage => (s.transition stage).2

/-- The session after it has been called. -/
def called (s : Session) (calls : List Call) : Session := calls.foldl call s

variable {s : Session} {stage : Stage} {line : String}

/-! ### The range of the counter -/

/-- The counter is one of its four values. -/
def InRange (s : Session) : Prop := 1 ≤ s.rotation ∧ s.rotation ≤ 4

theorem rotation_of_goes {r : Stage × Session} (hg : s.Goes stage r) :
    r.2.rotation = s.rotation ∨ stage = .vet ∧ r.2.rotation = s.rotation % 4 + 1 := by
  cases hg with
  | counts => exact .inr ⟨rfl, rfl⟩
  | @dispatches selected =>
    obtain ⟨memories, hr⟩ := s.remember_frame selected.entry
    exact .inl (by rw [hr])
  | links | follows | rebuilds => rw [redirect_eq]; exact .inl rfl
  | _ => exact .inl rfl

theorem InRange.transition (h : s.InRange) (stage : Stage) : (s.transition stage).2.InRange := by
  unfold InRange at *
  rcases rotation_of_goes (s.goes stage) with hr | ⟨-, hr⟩
  · rwa [hr]
  · rw [hr]
    omega

theorem InRange.respond (h : s.InRange) (line : String) : (s.respond line).2.InRange := by
  cases hf : s.finished with
  | true => rwa [respond_of_finished hf]
  | false =>
    have hstart : InRange { s with pending := some line } := h
    have hstep (stage : Stage) (t : Session) (ht : t.InRange) := ht.transition stage
    obtain ⟨-, hsettled, -⟩ := settle_invariant (P := fun _ => InRange) hstep hstart
    rw [respond_of_unfinished hf]
    exact hsettled

theorem InRange.called (h : s.InRange) (calls : List Call) : (s.called calls).InRange := by
  induction calls generalizing s with
  | nil => exact h
  | cons c calls ih =>
    cases c with
    | respond line => exact ih (h.respond line)
    | transition stage => exact ih (h.transition stage)

/-! ### What is counted -/

theorem ordinary_iff :
    s.Ordinary line ↔ Text.isBlankText line = false ∧ s.settings.isCommandLine line = false := by
  constructor
  · rintro ⟨hb, hc⟩
    rw [isCommand_heard] at hc
    exact ⟨hb, by simp [Settings.isCommandLine, hb, hc]⟩
  · rintro ⟨hb, hc⟩
    refine ⟨hb, ?_⟩
    simpa [Settings.isCommandLine, hb, isCommand_heard] using hc

theorem rotation_respond_of_not_ordinary (h : ¬ s.Ordinary line) :
    (s.respond line).2.rotation = s.rotation := by
  cases hf : s.finished with
  | true => rw [respond_of_finished hf]
  | false =>
    have hcomes := comes hf line
    generalize s.respond line = r at hcomes
    cases hcomes with
    | closed | refused => rfl
    | recalled ho | evaluated ho | acknowledged ho => exact absurd ho h

theorem converse_of_finished (hf : s.finished) (lines : List String) : s.converse lines = s :=
  converse_invariant (P := fun t => t = s) rfl
    (fun t line ht => by rw [ht, respond_of_finished hf]) lines

/-- The counter goes on by one for each line that is counted. -/
theorem rotation_converse (hf : s.finished = false) {m : Nat} (hr : s.rotation = 1 + m % 4)
    (lines : List String) :
    (s.converse lines).rotation = 1 + (m + (s.settings.turnLines lines).length) % 4 := by
  induction lines generalizing s m with
  | nil => simpa [converse, Settings.turnLines] using hr
  | cons line lines ih =>
    rw [converse_cons]
    have hfin := finished_respond hf line
    have hset := (s.respond_kept line).1
    cases hb : Text.isBlankText line with
    | true =>
      have hno : ¬ s.Ordinary line := fun ho => by
        rw [ho.notBlank] at hb
        cases hb
      rw [Settings.turnLines_cons_of_blank hb, converse_of_finished (hfin.trans hb),
        rotation_respond_of_not_ordinary hno]
      exact hr
    | false =>
      cases hc : s.settings.isCommandLine line with
      | true =>
        have hno : ¬ s.Ordinary line := fun ho => by
          rw [(ordinary_iff.1 ho).2] at hc
          cases hc
        have hsame := (rotation_respond_of_not_ordinary hno).trans hr
        rw [ih (hfin.trans hb) hsame, hset, Settings.turnLines_cons_of_command hc]
      | false =>
        have hnext : (s.respond line).2.rotation = 1 + (m + 1) % 4 := by
          rw [rotation_respond hf (ordinary_iff.2 ⟨hb, hc⟩), hr]
          omega
        rw [ih (hfin.trans hb) hnext, hset, Settings.turnLines_cons hb hc, List.length_cons]
        congr 2
        omega

/-! ### What is said in acknowledgement -/

/-- A turn that comes to be acknowledged says the phrase for the counter as the turn leaves it. -/
theorem respond_of_acknowledge {t : Table} (hd : Derived t .await s) (hf : s.finished = false) {k : Nat}
    (hk : (s.turn line k).1 = .acknowledge) :
    (s.respond line).1 = s.outbox ++ [s.settings.acknowledgement (s.respond line).2.rotation] := by
  obtain ⟨last, speech, hend, hspeech, hother, hsaid⟩ := exists_speech hf line
  have hk' : s.speechAt line k = some (.acknowledgement (s.turn line k).2.rotation) := by
    rw [speechAt, hk]
    rfl
  have hlast : k = last := by
    by_contra hne
    rw [hother k hne] at hk'
    cases hk'
  rw [hlast] at hk'
  cases hk'.symm.trans hspeech
  obtain ⟨-, hrotation⟩ := befits hd hf hend hspeech
  rw [hsaid, Speech.text, hrotation]

/-- The counter counts the turns that are neither goodbye nor command, and no call takes it out of its
range. With settings that have passed their check, a turn that is acknowledged says the phrase that has
the number of the counter. -/
theorem counter_counts_turns (script : Script) (settings : Settings) (lines : List String) :
    let s := (start script settings).converse lines
    s.rotation = 1 + (settings.turnLines lines).length % 4 ∧
    (∀ line, Text.isBlankText line = false → (∀ c ∈ line.toList, Sentence.isDropped c) →
      settings.turnLines [line] = [line]) ∧
    (∀ calls, 1 ≤ ((start script settings).called calls).rotation ∧
      ((start script settings).called calls).rotation ≤ 4) ∧
    (settings.check = .ok () → settings.acknowledgements.length = 4 ∧
      ∀ line k, s.finished = false → (s.turn line k).1 = .acknowledge →
        ∃ n phrase, (s.respond line).2.rotation = n + 1 ∧
          settings.acknowledgements[n]? = some phrase ∧ (s.respond line).1 = [phrase]) := by
  intro s
  obtain ⟨hset, -, hout⟩ := converse_kept script settings lines
  have hrange : (start script settings).InRange := ⟨Nat.le_refl 1, show 1 ≤ 4 by decide⟩
  refine ⟨?_, fun line hb hd => ?_, fun calls => hrange.called calls, fun hcheck => ?_⟩
  · have h := rotation_converse (s := start script settings) (m := 0) rfl rfl lines
    rwa [Nat.zero_add] at h
  · have ho := (start script settings).ordinary_of_dropped hb hd
    exact Settings.turnLines_cons hb (ordinary_iff.1 ho).2
  · refine ⟨Settings.length_acknowledgements hcheck, fun line k hf hk => ?_⟩
    have hs : s.InRange := converse_invariant (P := InRange) hrange (fun t line ht => ht.respond line) lines
    obtain ⟨hlow, hhigh⟩ := hs.respond line
    obtain ⟨n, hn⟩ := Nat.exists_eq_add_of_le' hlow
    refine ⟨n, _, hn, Settings.acknowledgement_eq hcheck (by omega), ?_⟩
    have hsaid := respond_of_acknowledge (Derived.converse script settings lines) hf hk
    rw [hset, hout, hn] at hsaid
    exact hsaid

/-- A command is not counted, marks alone are. -/
theorem counter_counts_turns_marks :
    let s := (start rebuilding {}).converse ["A C", "+ B"]
    s.rotation = 1 + 1 % 4 ∧ Settings.turnLines {} ["?!"] = ["?!"] ∧
    Settings.check {} = .ok () ∧ (s.turn "?!" 4).1 = .acknowledge ∧
    ∃ n phrase, (s.respond "?!").2.rotation = n + 1 ∧
      ({} : Settings).acknowledgements[n]? = some phrase ∧ (s.respond "?!").1 = [phrase] := by
  intro s
  obtain ⟨hcount, hmarks, -, hphrases⟩ := counter_counts_turns rebuilding {} ["A C", "+ B"]
  have hlines : (Settings.turnLines {} ["A C", "+ B"]).length = 1 := by decide +kernel
  have hdropped : ∀ c ∈ "?!".toList, Sentence.isDropped c := List.all_eq_true.1 (by decide +kernel)
  have hk : (s.turn "?!" 4).1 = .acknowledge := by decide +kernel
  exact ⟨by rw [hcount, hlines], hmarks "?!" (by decide +kernel) hdropped, rfl, hk,
    (hphrases rfl).2 "?!" 4 (by decide +kernel) hk⟩

end Session

end Dialogue
