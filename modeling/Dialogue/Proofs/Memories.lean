import Dialogue.Proofs.Evaluator

/-!
# Memories, first in and first out

A turn is watched transition by transition for what it puts behind the memories (`queuedAt`) and what
it takes away in front of them (`replayedAt`). One transition does at most one of the two, so that
over turns and over conversations what has been queued is what has been replayed and what is still
there (`memories_append_queued`). In a turn only the transition after the scan can do either.
-/

namespace Dialogue.Session

variable {s t : Session} {stage : Stage} {line : String} {m : List Word}

/-! ### One transition -/

theorem memories_remember (s : Session) (entry : EntryRef) :
    (s.remember entry).memories = s.memories ∨ ∃ m, (s.remember entry).memories = s.memories ++ [m] := by
  unfold remember
  split
  · rename_i memory e _ _
    split
    · cases s.memoryOf memory with
      | none => exact .inl (List.append_nil _)
      | some sentence => exact .inr ⟨sentence, rfl⟩
    · exact .inl rfl
  · exact .inl rfl

/-- Of all stages, one queues and one replays. -/
theorem memories_of_goes {r : Stage × Session} (hg : s.Goes stage r) :
    r.2.memories = s.memories ∨
      (stage = .dispatch ∧ ∃ m, r.2.memories = s.memories ++ [m]) ∨
      (stage = .fallBack ∧ ∃ m, s.memories = m :: r.2.memories) := by
  cases hg with
  | recalls _ hm => exact .inr (.inr ⟨rfl, _, hm⟩)
  | dispatches =>
    rcases s.memories_remember _ with h | h
    · exact .inl h
    · exact .inr (.inl ⟨rfl, h⟩)
  | links | follows | rebuilds => rw [redirect_eq]; exact .inl rfl
  | _ => exact .inl rfl

/-- What the transition `k` of the turn on a line puts behind the memories. -/
def queuedAt (s : Session) (line : String) (k : Nat) : List (List Word) :=
  (s.turn line (k + 1)).2.memories.drop (s.turn line k).2.memories.length

/-- What the transition `k` of the turn on a line takes away in front of the memories. -/
def replayedAt (s : Session) (line : String) (k : Nat) : List (List Word) :=
  (s.turn line k).2.memories.take
    ((s.turn line k).2.memories.length - (s.turn line (k + 1)).2.memories.length)

theorem memories_append_queuedAt (s : Session) (line : String) (k : Nat) :
    (s.turn line k).2.memories ++ s.queuedAt line k =
      s.replayedAt line k ++ (s.turn line (k + 1)).2.memories := by
  unfold queuedAt replayedAt
  rw [turn_succ, step]
  obtain h | ⟨-, m, h⟩ | ⟨-, m, h⟩ := memories_of_goes ((s.turn line k).2.goes (s.turn line k).1)
  · simp [h]
  · simp [h]
  · rw [h]; simp

theorem queuedAt_of_ne_dispatch {k : Nat} (h : (s.turn line k).1 ≠ .dispatch) :
    s.queuedAt line k = [] := by
  unfold queuedAt
  rw [turn_succ, step, List.drop_eq_nil_iff]
  obtain h' | ⟨hd, -⟩ | ⟨-, m, h'⟩ := memories_of_goes ((s.turn line k).2.goes (s.turn line k).1)
  · simp [h']
  · exact absurd hd h
  · rw [h']; simp

theorem replayedAt_of_ne_fallBack {k : Nat} (h : (s.turn line k).1 ≠ .fallBack) :
    s.replayedAt line k = [] := by
  unfold replayedAt
  rw [turn_succ, step]
  obtain h' | ⟨-, m, h'⟩ | ⟨hf, -⟩ := memories_of_goes ((s.turn line k).2.goes (s.turn line k).1)
  · simp [h']
  · simp [h']
  · exact absurd hf h

/-! ### One turn -/

/-- The most transitions that a turn can take. -/
def horizon (s : Session) : Nat := 2 * s.settings.maxRedirects + 7

/-- The sentences that the turn on a line queues. -/
def queuedIn (s : Session) (line : String) : List (List Word) :=
  if s.finished then [] else (List.range s.horizon).flatMap (s.queuedAt line)

/-- The memories that the turn on a line replays. -/
def replayedIn (s : Session) (line : String) : List (List Word) :=
  if s.finished then [] else (List.range s.horizon).flatMap (s.replayedAt line)

theorem step_of_settled (h : s.settled stage) : step (stage, s) = (stage, s) := by
  cases stage with
  | await =>
    have hp : s.pending = none := by simpa [settled] using h
    simp only [step, transition, takeLine, hp]
  | halted => rfl
  | _ => cases h

theorem EndsAfter.turn_eq {n k : Nat} (h : s.EndsAfter line n) (hk : n ≤ k) :
    s.turn line k = s.turn line n := by
  induction hk with
  | refl => rfl
  | step _ ih => rw [turn_succ, ih]; exact step_of_settled h.settled

theorem respond_eq_collect (hf : s.finished = false) (line : String) :
    s.respond line = collect (s.turn line s.horizon).2 := by
  obtain ⟨n, hn, h⟩ := exists_endsAfter hf line
  rw [h.respond_eq, h.turn_eq (show n ≤ s.horizon from hn)]

theorem memories_respond (hf : s.finished = false) (line : String) :
    (s.respond line).2.memories = (s.turn line s.horizon).2.memories := by
  rw [respond_eq_collect hf]
  rfl

theorem memories_append_range (s : Session) (line : String) (n : Nat) :
    s.memories ++ (List.range n).flatMap (s.queuedAt line) =
      (List.range n).flatMap (s.replayedAt line) ++ (s.turn line n).2.memories := by
  induction n with
  | zero => simp [turn_zero]
  | succ n ih =>
    simp only [List.range_succ, List.flatMap_append, List.flatMap_singleton]
    rw [← List.append_assoc, ih, List.append_assoc, memories_append_queuedAt, List.append_assoc]

theorem memories_append_queuedIn (s : Session) (line : String) :
    s.memories ++ s.queuedIn line = s.replayedIn line ++ (s.respond line).2.memories := by
  unfold queuedIn replayedIn
  cases hf : s.finished with
  | true => simp [respond_of_finished hf]
  | false =>
    rw [memories_respond hf]
    exact s.memories_append_range line _

theorem flatMap_range_of_single {α : Type} {f : Nat → List α} {n i : Nat} (hi : i < n)
    (hf : ∀ k ≠ i, f k = []) : (List.range n).flatMap f = f i := by
  induction n with
  | zero => cases hi
  | succ n ih =>
    rw [List.range_succ, List.flatMap_append, List.flatMap_singleton]
    by_cases hn : n = i
    · subst hn
      have hnil : (List.range n).flatMap f = [] :=
        List.flatMap_eq_nil_iff.2 fun k hk => hf k (Nat.ne_of_lt (List.mem_range.1 hk))
      rw [hnil, List.nil_append]
    · rw [ih (by omega), hf n hn, List.append_nil]

/-- The session, dispatching, shapes the sentence `m` of its input: the entry that it has selected is
that of the memory keyword, and the memory rule picked by the last word applies. -/
def Shapes (s : Session) (m : List Word) : Prop :=
  ∃ selected e memory last rule groups,
    s.selection = some selected ∧ s.table.get? selected.entry = some e ∧
    s.memory = some memory ∧ memory.keyword ≈ e.keyword ∧
    s.input.words.getLast? = some last ∧ memory.rule? (last.hash 2 + 1) = some rule ∧
    Dialogue.decompose rule.pattern s.input.words = some groups ∧
    m = Dialogue.reassemble rule.template groups s.settings.placeholder

theorem shapes_iff :
    s.Shapes m ↔ (s.selection.bind fun selected => s.sentence? selected.entry) = some m := by
  unfold Shapes sentence?
  simp only [Option.bind_eq_bind, Option.bind_eq_some_iff, Option.ite_none_right_eq_some,
    Option.some.injEq]
  constructor
  · rintro ⟨selected, e, memory, last, rule, groups, hs, he, hm, hk, hl, hr, hg, rfl⟩
    exact ⟨selected, hs, memory, hm, e, he, last, hl, rule, hr, groups, hg, hk, rfl⟩
  · rintro ⟨selected, hs, memory, hm, e, he, last, hl, rule, hr, groups, hg, hk, rfl⟩
    exact ⟨selected, e, memory, last, rule, groups, hs, he, hm, hk, hl, hr, hg, rfl⟩

theorem queuedAt_of_dispatch {k : Nat} (hk : s.turn line k = (.dispatch, t)) :
    k = 3 ∧ s.queuedAt line k =
      (t.selection.bind fun selected => t.sentence? selected.entry).toList := by
  obtain ⟨ho, rfl, rfl, hsel⟩ := turn_of_choice hk (.inl rfl)
  refine ⟨rfl, ?_⟩
  unfold queuedAt
  rw [turn_succ s line 3, hk, step, transition]
  cases hs : (s.scanned line).selection with
  | none => rw [hs] at hsel; cases hsel
  | some selected =>
    have hne : (s.swept line).1 ≠ [] := swept_ne_nil (by simp [hs])
    rw [dispatch_eq hs (s.scanned_data line) hne]
    simp only [memoriesAfter, hs, List.drop_left]

theorem replayedAt_of_fallBack {k : Nat} (hk : s.turn line k = (.fallBack, t)) :
    k = 3 ∧ s.replayedAt line k = if t.rotation = 4 then t.memories.head?.toList else [] := by
  obtain ⟨ho, rfl, rfl, hsel⟩ := turn_of_choice hk (.inr rfl)
  refine ⟨rfl, ?_⟩
  unfold replayedAt
  rw [turn_succ s line 3, hk, step, transition]
  have hg := (s.scanned line).goes_fallBack
  generalize (s.scanned line).fallBack = r at hg
  cases hg with
  | recalls hr hm =>
    rw [if_pos hr, hm]
    simp
  | fallsBack hr | shrugs hr =>
    rw [Nat.sub_self, List.take_zero]
    split
    · rename_i h4
      rw [not_and_not_right] at hr
      rw [hr h4]
      rfl
    · rfl

theorem queuedIn_eq (hf : s.finished = false) (line : String) :
    s.queuedIn line = s.queuedAt line 3 := by
  rw [queuedIn, if_neg (by simp [hf])]
  refine flatMap_range_of_single (by unfold horizon; omega) fun k hk => ?_
  refine queuedAt_of_ne_dispatch fun hd => hk ?_
  exact (queuedAt_of_dispatch (t := (s.turn line k).2) (Prod.ext hd rfl)).1

theorem replayedIn_eq (hf : s.finished = false) (line : String) :
    s.replayedIn line = s.replayedAt line 3 := by
  rw [replayedIn, if_neg (by simp [hf])]
  refine flatMap_range_of_single (by unfold horizon; omega) fun k hk => ?_
  refine replayedAt_of_ne_fallBack fun hd => hk ?_
  exact (replayedAt_of_fallBack (t := (s.turn line k).2) (Prod.ext hd rfl)).1

theorem mem_queuedIn_iff :
    m ∈ s.queuedIn line ↔
      s.finished = false ∧ ∃ k t, s.turn line k = (.dispatch, t) ∧ t.Shapes m := by
  cases hf : s.finished with
  | true => simp [queuedIn, hf]
  | false =>
    rw [queuedIn_eq hf]
    constructor
    · intro hm
      have hd : (s.turn line 3).1 = .dispatch := by
        by_contra hd
        rw [queuedAt_of_ne_dispatch hd] at hm
        cases hm
      have hk : s.turn line 3 = (.dispatch, (s.turn line 3).2) := Prod.ext hd rfl
      rw [(queuedAt_of_dispatch hk).2, Option.mem_toList] at hm
      exact ⟨rfl, 3, _, hk, shapes_iff.2 hm⟩
    · rintro ⟨-, k, t, hk, hm⟩
      obtain ⟨rfl, hq⟩ := queuedAt_of_dispatch hk
      rw [hq, Option.mem_toList]
      exact shapes_iff.1 hm

theorem mem_replayedIn_iff :
    m ∈ s.replayedIn line ↔
      s.finished = false ∧ ∃ k t, s.turn line k = (.fallBack, t) ∧ t.selection = none ∧
        t.rotation = 4 ∧ t.memories.head? = some m := by
  cases hf : s.finished with
  | true => simp [replayedIn, hf]
  | false =>
    rw [replayedIn_eq hf]
    constructor
    · intro hm
      have hd : (s.turn line 3).1 = .fallBack := by
        by_contra hd
        rw [replayedAt_of_ne_fallBack hd] at hm
        cases hm
      have hk : s.turn line 3 = (.fallBack, (s.turn line 3).2) := Prod.ext hd rfl
      rw [(replayedAt_of_fallBack hk).2] at hm
      split at hm
      · rename_i hr
        rw [Option.mem_toList] at hm
        obtain ⟨-, -, ht⟩ := exists_turn_fallBack_iff.1 ⟨3, hk⟩
        exact ⟨rfl, 3, _, hk, ht, hr, hm⟩
      · cases hm
    · rintro ⟨-, k, t, hk, -, hr, hm⟩
      obtain ⟨rfl, hq⟩ := replayedAt_of_fallBack hk
      rw [hq, if_pos hr, Option.mem_toList]
      exact hm

/-- A turn queues at most one sentence or replays at most one memory, and not both. -/
theorem length_queuedIn_replayedIn_le (s : Session) (line : String) :
    (s.queuedIn line).length + (s.replayedIn line).length ≤ 1 := by
  cases hf : s.finished with
  | true => simp [queuedIn, replayedIn, hf]
  | false =>
    rw [queuedIn_eq hf, replayedIn_eq hf]
    by_cases hd : (s.turn line 3).1 = .dispatch
    · have hk : s.turn line 3 = (.dispatch, (s.turn line 3).2) := Prod.ext hd rfl
      rw [(queuedAt_of_dispatch hk).2, replayedAt_of_ne_fallBack (by rw [hd]; nofun)]
      exact Option.length_toList_le
    · rw [queuedAt_of_ne_dispatch hd]
      by_cases hb : (s.turn line 3).1 = .fallBack
      · have hk : s.turn line 3 = (.fallBack, (s.turn line 3).2) := Prod.ext hb rfl
        rw [(replayedAt_of_fallBack hk).2, List.length_nil, Nat.zero_add]
        split
        · exact Option.length_toList_le
        · exact Nat.zero_le _
      · simp [replayedAt_of_ne_fallBack hb]

theorem fallBack_of_memory {rest : List (List Word)} (hr : s.rotation = 4)
    (hm : s.memories = m :: rest) :
    s.fallBack = (.await, { s.emit (Word.phrase m) with memories := rest }) := by
  simp only [fallBack, hr, hm, beq_self_eq_true]

/-- A memory is replayed as its words. -/
theorem respond_of_replayed (h : m ∈ s.replayedIn line) :
    (s.respond line).1 = s.outbox ++ [Word.phrase m] := by
  obtain ⟨hf, k, t, hk, hs, hr, hm⟩ := mem_replayedIn_iff.1 h
  obtain ⟨ho, -, rfl, -⟩ := turn_of_choice hk (.inr rfl)
  obtain ⟨rest, hm⟩ := List.head?_eq_some_iff.1 hm
  rw [respond_of_unfinished hf, settle_line_fallBack ho hs, fallBack_of_memory hr hm,
    settle_await (by exact s.scanned_pending line)]
  simp [collect, emit]

/-! ### Conversations -/

/-- The sentences that a session queues over lines. -/
def queued (s : Session) : List String → List (List Word)
  | [] => []
  | line :: lines => s.queuedIn line ++ queued (s.respond line).2 lines

/-- The memories that a session replays over lines. -/
def replayed (s : Session) : List String → List (List Word)
  | [] => []
  | line :: lines => s.replayedIn line ++ replayed (s.respond line).2 lines

theorem memories_append_queued (s : Session) (lines : List String) :
    s.memories ++ s.queued lines = s.replayed lines ++ (s.converse lines).memories := by
  induction lines generalizing s with
  | nil => simp [queued, replayed, converse]
  | cons line lines ih =>
    rw [queued, replayed, converse_cons, ← List.append_assoc, memories_append_queuedIn,
      List.append_assoc, ih, List.append_assoc]

/-- Memories are first in and first out. A turn queues a sentence if it is dispatched to the entry of
the memory keyword and the memory rule of its last word applies; it replays one if it is the fourth
and there is no keyword and a memory is there; otherwise it leaves them alone. -/
theorem memories_in_order (script : Script) (settings : Settings) (lines : List String)
    (line : String) :
    let s := (start script settings).converse lines
    (start script settings).queued lines = (start script settings).replayed lines ++ s.memories ∧
    s.memories ++ s.queuedIn line = s.replayedIn line ++ (s.respond line).2.memories ∧
    (s.queuedIn line).length + (s.replayedIn line).length ≤ 1 ∧
    (∀ m, m ∈ s.queuedIn line ↔
      s.finished = false ∧ ∃ k t, s.turn line k = (.dispatch, t) ∧ t.Shapes m) ∧
    (∀ m, m ∈ s.replayedIn line ↔
      s.finished = false ∧ ∃ k t, s.turn line k = (.fallBack, t) ∧ t.selection = none ∧
        t.rotation = 4 ∧ t.memories.head? = some m) ∧
    ∀ m ∈ s.replayedIn line, (s.respond line).1 = [Word.phrase m] := by
  intro s
  have hout : s.outbox = [] := (converse_kept script settings lines).2.2
  -- a session starts without memories, so that they do not show on the left of the first equation
  refine ⟨memories_append_queued (start script settings) lines, s.memories_append_queuedIn line,
    s.length_queuedIn_replayedIn_le line, fun m => mem_queuedIn_iff, fun m => mem_replayedIn_iff,
    fun m hm => ?_⟩
  rw [respond_of_replayed hm, hout, List.nil_append]

end Dialogue.Session
