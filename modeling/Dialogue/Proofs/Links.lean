import Dialogue.Proofs.Turn

/-!
# Links within a turn

A turn can be led from entry to entry in a circle: by items, by replies and by replies that rebuild
the input. `Session.linkAt` says which link a transition asks to follow. The counter of redirects is
the number of links that the turn has asked for (`Tally`), so no turn follows more links than the
settings allow, and with the measure of `Session.measure_transition_lt` every turn ends within a
number of transitions that only the settings determine.
-/

namespace Dialogue

/-- A stage from which a turn can still come to a link. -/
def Stage.mayLink : Stage → Bool
  | .await | .acknowledge | .close | .halted => false
  | _ => true

/-- The keyword of the entry to go on with after a reply. -/
def Reply.link? : Reply → Option Word
  | .say _ => none
  | .follow keyword | .rebuild _ keyword => some keyword

namespace Session

/-- The keyword of the link that the next transition asks to follow. -/
def linkAt (s : Session) : Stage → Option Word
  | .decompose entry item =>
    match s.table.get? entry with
    | none => none
    | some e =>
      match firstMove s.input.words item (e.items.drop item) with
      | some (.follow keyword) => some keyword
      | _ => none
  | .reassemble entry item _ => (s.rule? entry item).bind fun r => r.due.bind Reply.link?
  | _ => none

/-- The number of links that the first `n` transitions of the turn on a line ask to follow. -/
def linksIn (s : Session) (line : String) (n : Nat) : Nat :=
  (List.range n).countP fun k => ((s.turn line k).2.linkAt (s.turn line k).1).isSome

variable {s t : Session} {stage : Stage} {line : String} {keyword : Word} {m c : Nat}

theorem linksIn_succ (s : Session) (line : String) (n : Nat) :
    s.linksIn line (n + 1) =
      s.linksIn line n + if ((s.turn line n).2.linkAt (s.turn line n).1).isSome then 1 else 0 := by
  simp [linksIn, List.range_succ, List.countP_append, List.countP_singleton]

theorem linkTarget_setRule (s : Session) (entry : EntryRef) (item : Nat) (r : Rule) (w : Word) :
    (s.setRule entry item r).table.linkTarget w = s.table.linkTarget w := by
  rw [Table.linkTarget, locate_setRule]
  rfl

/-- A link is followed if fewer have been followed than may be, and is counted in any case. -/
theorem goes_of_link {r : Stage × Session} (hg : s.Goes stage r) (h : s.linkAt stage = some keyword) :
    r.1 = (if s.redirects < s.settings.maxRedirects then s.table.linkTarget keyword
        else .acknowledge) ∧
      r.2.redirects = s.redirects + 1 ∧ r.2.settings = s.settings ∧ r.2.pending = s.pending := by
  cases hg with
  | links he hm =>
    simp only [linkAt, he, hm, Option.some.injEq] at h
    subst h
    rw [redirect_eq]
    exact ⟨rfl, rfl, rfl, rfl⟩
  | follows hr hd =>
    simp only [linkAt, hr, hd, Option.bind_some, Reply.link?, Option.some.injEq] at h
    subst h
    rw [redirect_eq, linkTarget_setRule]
    exact ⟨rfl, rfl, rfl, rfl⟩
  | rebuilds hr hd =>
    simp only [linkAt, hr, hd, Option.bind_some, Reply.link?, Option.some.injEq] at h
    subst h
    rw [redirect_eq, rebuilt, linkTarget_setRule]
    exact ⟨rfl, rfl, rfl, rfl⟩
  | loses he => simp [linkAt, he] at h
  | exhausts he hm | picks he hm => simp [linkAt, he, hm] at h
  | misses hr => simp [linkAt, hr] at h
  | falters hr hd => simp [linkAt, hr, hd] at h
  | replies hr hd => simp [linkAt, hr, hd, Reply.link?] at h
  | _ => cases h

/-- A transition that follows no link leaves the counter alone, and a turn that cannot come to a
link any more goes on so. -/
theorem goes_of_no_link {r : Stage × Session} (hg : s.Goes stage r) (h : s.linkAt stage = none)
    (hp : s.pending = none) : SameBounds s r.2 ∧ (r.1.mayLink → stage.mayLink) := by
  cases hg with
  | waits => exact ⟨⟨rfl, rfl, rfl⟩, id⟩
  | ends hp' | hears hp' => rw [hp] at hp'; cases hp'
  | dispatches => exact ⟨SameBounds.remember _ _, fun _ => rfl⟩
  | links he hm => simp [linkAt, he, hm] at h
  | follows hr hd | rebuilds hr hd => simp [linkAt, hr, hd, Reply.link?] at h
  | acknowledges | closes | stays => exact ⟨⟨rfl, rfl, rfl⟩, fun h => by cases h⟩
  | _ => exact ⟨⟨rfl, rfl, rfl⟩, fun _ => rfl⟩

theorem mayLink_of_link (h : s.linkAt stage = some keyword) : stage.mayLink := by
  cases stage with
  | decompose | reassemble => rfl
  | _ => cases h

/-- The session `t` at a stage of a turn that has asked for `c` links, of which `m` may be followed.
After the goodbye the counter is not looked at. -/
structure Tally (m c : Nat) (stage : Stage) (t : Session) : Prop where
  maxRedirects : t.settings.maxRedirects = m
  pending : t.pending = none
  counted : stage ≠ .close → stage ≠ .halted → t.redirects = c
  redirects_le : t.redirects ≤ m + 1
  le_of_mayLink : stage.mayLink → c ≤ m

namespace Tally

theorem of_link (h : Tally m c stage t) (hl : t.linkAt stage = some keyword) :
    t.redirects = c ∧ c ≤ m := by
  have hm := mayLink_of_link hl
  exact ⟨h.counted (by rintro rfl; cases hm) (by rintro rfl; cases hm), h.le_of_mayLink hm⟩

theorem transition (h : Tally m c stage t) :
    Tally m (c + if (t.linkAt stage).isSome then 1 else 0) (t.transition stage).1
      (t.transition stage).2 := by
  cases hl : t.linkAt stage with
  | none =>
    obtain ⟨same, hmay⟩ := goes_of_no_link (t.goes stage) hl h.pending
    refine ⟨?_, ?_, fun hc hh => ?_, ?_, fun hs => h.le_of_mayLink (hmay hs)⟩
    · rw [same.settings]; exact h.maxRedirects
    · rw [same.pending]; exact h.pending
    · rw [same.redirects]
      exact h.counted (by rintro rfl; exact hh rfl) (by rintro rfl; exact hh rfl)
    · rw [same.redirects]; exact h.redirects_le
  | some keyword =>
    obtain ⟨hr, hc⟩ := h.of_link hl
    obtain ⟨hs, hred, hset, hp⟩ := goes_of_link (t.goes stage) hl
    refine ⟨?_, ?_, fun _ _ => ?_, ?_, fun hm => ?_⟩
    · rw [hset]; exact h.maxRedirects
    · rw [hp]; exact h.pending
    · rw [hred, hr]; rfl
    · rw [hred]; omega
    · rw [hs, h.maxRedirects, hr] at hm
      split at hm
      · show c + 1 ≤ m; omega
      · cases hm

theorem turn (hr : s.redirects ≤ s.settings.maxRedirects + 1) (line : String) (n : Nat) :
    Tally s.settings.maxRedirects (s.linksIn line (n + 1)) (s.turn line (n + 1)).1
      (s.turn line (n + 1)).2 := by
  induction n with
  | zero =>
    by_cases hb : Text.isBlankText line
    · rw [turn_one_of_blank hb]
      exact ⟨rfl, rfl, fun h => absurd rfl h, hr, nofun⟩
    · rw [turn_one (by simpa using hb)]
      exact ⟨rfl, rfl, fun _ _ => rfl, Nat.zero_le _, fun _ => Nat.zero_le _⟩
  | succ n ih => rw [linksIn_succ, turn_succ _ _ (n + 1)]; exact ih.transition

end Tally

theorem not_settled_turn_zero (s : Session) (line : String) :
    (s.turn line 0).2.settled (s.turn line 0).1 = false := rfl

/-- Between turns, the counter shows at most one link more than may be followed. -/
theorem redirects_le_converse (hr : s.redirects ≤ s.settings.maxRedirects + 1)
    (hm : s.settings.maxRedirects = m) (lines : List String) :
    (s.converse lines).settings.maxRedirects = m ∧ (s.converse lines).redirects ≤ m + 1 := by
  refine converse_invariant (P := fun s => s.settings.maxRedirects = m ∧ s.redirects ≤ m + 1)
    ⟨hm, hm ▸ hr⟩ (fun s line ⟨hm, hr⟩ => ?_) lines
  cases hf : s.finished with
  | true => rw [respond_of_finished hf]; exact ⟨hm, hr⟩
  | false =>
    obtain ⟨n, -, hn⟩ := exists_endsAfter hf line
    cases n with
    | zero => have := hn.settled; rw [not_settled_turn_zero] at this; cases this
    | succ n =>
      rw [hn.respond_eq]
      have := Tally.turn (hm ▸ hr) line n
      exact ⟨this.maxRedirects.trans hm, hm ▸ this.redirects_le⟩

/-- Every turn ends, however the links of the script lead in circles. It passes at most twice as many
stages as links may be followed, and seven more. The counter of links does not run over; the links up
to the limit lead on, and one more leads to an acknowledgement. -/
theorem turn_bounded (script : Script) (settings : Settings) (lines : List String) (line : String)
    (hm : settings.maxRedirects < 2 ^ 64 - 1)
    (ho : ((start script settings).converse lines).finished = false) :
    let s := (start script settings).converse lines
    (∃ n ≤ 2 * settings.maxRedirects + 7, s.EndsAfter line n) ∧
    ∀ k, (s.turn line k).2.redirects ≤ settings.maxRedirects + 1 ∧
      (s.turn line k).2.redirects < 2 ^ 64 ∧
      ∀ keyword, (s.turn line k).2.linkAt (s.turn line k).1 = some keyword →
        s.linksIn line k ≤ settings.maxRedirects ∧
        (s.turn line (k + 1)).2.redirects = s.linksIn line k + 1 ∧
        (s.turn line (k + 1)).1 =
          if s.linksIn line k < settings.maxRedirects then (s.turn line k).2.table.linkTarget keyword
          else .acknowledge := by
  intro s
  obtain ⟨hset, hr⟩ := redirects_le_converse (s := start script settings) (Nat.zero_le _) rfl lines
  have hset : s.settings.maxRedirects = settings.maxRedirects := hset
  have hr : s.redirects ≤ s.settings.maxRedirects + 1 := hset ▸ hr
  refine ⟨hset ▸ exists_endsAfter ho line, fun k => ?_⟩
  -- before the line is taken up the counter is that of the turn before
  cases k with
  | zero =>
    have hr : s.redirects ≤ settings.maxRedirects + 1 := hset ▸ hr
    exact ⟨hr, by show s.redirects < 2 ^ 64; omega, nofun⟩
  | succ k =>
    have htally := hset ▸ Tally.turn hr line k
    refine ⟨htally.redirects_le, by have := htally.redirects_le; omega, fun keyword hl => ?_⟩
    obtain ⟨hc, hle⟩ := htally.of_link hl
    obtain ⟨hs, hred, -, -⟩ := goes_of_link (goes _ _) hl
    rw [turn_succ _ _ (k + 1)]
    refine ⟨hle, by rw [← hc]; exact hred, ?_⟩
    rw [hc, htally.maxRedirects] at hs
    exact hs

/-- A script whose only rule leads back to its own entry. -/
def circle : Script where
  greeting := []
  table := (Table.empty.insert
    { keyword := ⟨"A"⟩, items := [.rule { pattern := [.gap 0], replies := [.follow ⟨"A"⟩] }] }).2

/-- With one link allowed, the second time round the circle ends in an acknowledgement. -/
theorem turn_bounded_circle :
    1 < 2 ^ 64 - 1 ∧ (start circle { maxRedirects := 1 }).finished = false ∧
      (∃ n ≤ 9, (start circle { maxRedirects := 1 }).EndsAfter "A" n) ∧
      ((start circle { maxRedirects := 1 }).turn "A" 8).1 = .acknowledge := by
  have h := turn_bounded circle { maxRedirects := 1 } [] "A" (by decide) rfl
  have hl : ((start circle { maxRedirects := 1 }).turn "A" 7).2.linkAt
      ((start circle { maxRedirects := 1 }).turn "A" 7).1 = some ⟨"A"⟩ := by decide +kernel
  have hn : ¬ (start circle { maxRedirects := 1 }).linksIn "A" 7 < 1 := by decide +kernel
  exact ⟨by decide, rfl, h.1, ((h.2 7).2.2 _ hl).2.2.trans (if_neg hn)⟩

end Session

end Dialogue
