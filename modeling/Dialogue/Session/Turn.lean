import Dialogue.Session.Transition

/-! # Turns

`Session.respond` gives a session a line and runs the stages of the turn to its end. The turn ends
because every transition lowers a measure (`measure_transition_lt`): the stages are passed in one
direction, except that a link leads back to the items of an entry, and the links are counted. -/

namespace Dialogue.Session

/-- The turn is over: the session waits for a line, or has ended. -/
def settled (s : Session) (stage : Stage) : Bool :=
  (stage == .await && s.pending.isNone) || stage == .halted

/-- The links that can still be followed in this turn. -/
def linksLeft (s : Session) : Nat := s.settings.maxRedirects - s.redirects

/-- Bounds the number of transitions from a stage to the next time of waiting. -/
def stageMeasure (s : Session) : Stage → Nat
  | .await | .halted => 0
  | .acknowledge | .close => 1
  | .reassemble .. => 2 * s.linksLeft + 2
  | .decompose .. => 2 * s.linksLeft + 3
  | .fallBack => 2 * s.linksLeft + 4
  | .dispatch => 2 * s.linksLeft + if s.selection.isSome then 4 else 5
  | .scan => 2 * s.linksLeft + 5
  | .vet => 2 * s.linksLeft + 6

/-- A line that has not been looked at can take a whole turn. -/
def pendingMeasure (s : Session) : Nat :=
  if s.pending.isSome then 2 * s.settings.maxRedirects + 7 else 0

/-- Bounds the number of transitions until a session at a stage is settled. -/
def measure (s : Session) (stage : Stage) : Nat := s.pendingMeasure + s.stageMeasure stage

/-- The two sessions agree on all that the measure looks at. -/
structure SameBounds (s t : Session) : Prop where
  settings : t.settings = s.settings
  pending : t.pending = s.pending
  redirects : t.redirects = s.redirects

namespace SameBounds

variable {s t : Session}

theorem pendingMeasure_eq (h : SameBounds s t) : t.pendingMeasure = s.pendingMeasure := by
  simp only [pendingMeasure, h.settings, h.pending]

theorem linksLeft_eq (h : SameBounds s t) : t.linksLeft = s.linksLeft := by
  simp only [linksLeft, h.settings, h.redirects]

theorem measure_lt_add (h : SameBounds s t) {stage : Stage} {n : Nat} (hd : stage ≠ .dispatch)
    (hn : s.stageMeasure stage < n) :
    t.measure stage < s.pendingMeasure + n := by
  have : t.stageMeasure stage = s.stageMeasure stage := by
    cases stage <;> simp_all only [stageMeasure, h.linksLeft_eq, ne_eq, not_true_eq_false]
  simp only [measure, h.pendingMeasure_eq, this]
  omega

/-- A step that keeps the bounds and goes to a lower stage lowers the measure. Dispatching is left
out, as its place depends on what is selected. -/
theorem measure_lt (h : SameBounds s t) {before after : Stage} (hd : after ≠ .dispatch)
    (hs : s.stageMeasure after < s.stageMeasure before) : t.measure after < s.measure before :=
  h.measure_lt_add hd hs

theorem emit (s : Session) (line : String) : SameBounds s (s.emit line) := ⟨rfl, rfl, rfl⟩

theorem remember (s : Session) (entry : EntryRef) : SameBounds s (s.remember entry) := by
  unfold Session.remember
  split
  · split <;> exact ⟨rfl, rfl, rfl⟩
  · exact ⟨rfl, rfl, rfl⟩

theorem setRule (s : Session) (entry : EntryRef) (item : Nat) (r : Rule) :
    SameBounds s (s.setRule entry item r) := ⟨rfl, rfl, rfl⟩

end SameBounds

theorem measure_redirect_lt (s : Session) (keyword : Word) :
    (s.redirect keyword).2.measure (s.redirect keyword).1 <
      s.pendingMeasure + (2 * s.linksLeft + 2) := by
  unfold redirect
  simp only
  split
  · simp only [measure, pendingMeasure, stageMeasure]
    omega
  · split <;> simp only [measure, pendingMeasure, stageMeasure, linksLeft] <;> omega

theorem measure_use_lt (s : Session) (groups : List (List Word)) (reply : Option Reply) :
    (s.use groups reply).2.measure (s.use groups reply).1 <
      s.pendingMeasure + (2 * s.linksLeft + 2) := by
  unfold use
  split
  · exact SameBounds.measure_lt_add ⟨rfl, rfl, rfl⟩ nofun (by simp [stageMeasure])
  · exact SameBounds.measure_lt_add ⟨rfl, rfl, rfl⟩ nofun (by simp [stageMeasure])
  · exact measure_redirect_lt s _
  · exact measure_redirect_lt _ _

theorem measure_takeLine_lt {s : Session} (h : s.pending.isSome) :
    s.takeLine.2.measure s.takeLine.1 < s.measure .await := by
  obtain ⟨line, hline⟩ := Option.isSome_iff_exists.1 h
  unfold takeLine
  simp only [hline]
  split <;> simp [measure, pendingMeasure, stageMeasure, linksLeft, hline]

theorem measure_reassemble_lt (s : Session) (entry : EntryRef) (item : Nat)
    (groups : List (List Word)) :
    (s.reassemble entry item groups).2.measure (s.reassemble entry item groups).1 <
      s.measure (.reassemble entry item groups) := by
  unfold reassemble
  split
  · exact SameBounds.measure_lt (by constructor <;> rfl) nofun (by simp [stageMeasure])
  · rename_i rule _
    have kept := SameBounds.setRule s entry item rule.rotate.2
    have := measure_use_lt (s.setRule entry item rule.rotate.2) groups rule.rotate.1
    rwa [kept.pendingMeasure_eq, kept.linksLeft_eq] at this

theorem measure_transition_lt (s : Session) (stage : Stage) (h : s.settled stage = false) :
    (s.transition stage).2.measure (s.transition stage).1 < s.measure stage := by
  have kept : ∀ {t : Session} {after : Stage}, after ≠ .dispatch →
      s.stageMeasure after < s.stageMeasure stage → SameBounds s t →
      t.measure after < s.measure stage := fun hd hs h => h.measure_lt hd hs
  cases stage with
  | halted => simp [settled] at h
  | await => exact measure_takeLine_lt (by simpa [settled, ← Option.not_isSome] using h)
  | vet =>
    simp only [transition, vet]
    split <;> exact kept nofun (by simp [stageMeasure]) (by constructor <;> rfl)
  | scan =>
    simp only [transition, scan]
    generalize Scan.walk s.settings s.table (.onHeader s.input) s.input s.selection = scanned
    by_cases hs : scanned.2.isSome
    · simp [hs, measure, pendingMeasure, stageMeasure, linksLeft]
    · rw [if_neg hs]
      exact kept nofun (by simp [stageMeasure]) (by constructor <;> rfl)
  | fallBack =>
    simp only [transition, fallBack]
    split
    · exact kept nofun (by simp [stageMeasure]) (by constructor <;> rfl)
    · split <;> exact kept nofun (by simp [stageMeasure]) (by constructor <;> rfl)
  | dispatch =>
    simp only [transition, dispatch]
    split <;> rename_i hs
    · exact kept nofun (by simp [stageMeasure, hs]) (by constructor <;> rfl)
    · exact kept nofun (by simp [stageMeasure, hs]) (SameBounds.remember s _)
  | decompose entry item =>
    simp only [transition, decompose]
    split
    · exact kept nofun (by simp [stageMeasure]) (by constructor <;> rfl)
    · split
      · exact kept nofun (by simp [stageMeasure]) (by constructor <;> rfl)
      · exact Nat.lt_trans (measure_redirect_lt s _) (by simp [measure, stageMeasure])
      · exact kept nofun (by simp [stageMeasure]) (by constructor <;> rfl)
  | reassemble entry item groups => exact measure_reassemble_lt s entry item groups
  | acknowledge =>
    simp only [transition]
    exact kept nofun (by simp [stageMeasure]) (SameBounds.emit s _)
  | close =>
    simp only [transition]
    exact kept nofun (by simp [stageMeasure]) (by constructor <;> rfl)

/-- Runs a turn from a stage to its end. -/
def settle (s : Session) (stage : Stage) : Session :=
  if _h : s.settled stage then s
  else
    let next := s.transition stage
    next.2.settle next.1
termination_by s.measure stage
decreasing_by exact measure_transition_lt s stage (by simpa using _h)

/-- Runs one turn on a line and gives what has been said. A session that has ended says nothing. -/
def respond (s : Session) (line : String) : List String × Session :=
  if s.finished then ([], s)
  else
    let s := settle { s with pending := some line } .await
    (s.outbox, { s with outbox := [] })

end Dialogue.Session
