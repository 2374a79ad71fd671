import Dialogue.Proofs.Insertions
import Dialogue.Proofs.Scratch

/-!
# Tables that differ in their layout

Two tables are alike when each keyword leads to the same entry in both, wherever the entry lies
(`Table.Alike`). `Table.SamePlace` says that a place of one table is to it what a place of the other
table is to that. Looking up, selecting, following links and passing on the turn of a rule all keep to
such pairs of places, so sessions over tables that are alike say the same (`Session.Alike.respond`).
-/

namespace Dialogue

namespace Table

variable {t u : Table} {r q : EntryRef} {v w : Word} {f : Entry → Entry}

/-- A keyword leads to the same entry in both tables. -/
structure Alike (t u : Table) : Prop where
  lookup : ∀ w, t.lookup w = u.lookup w
  fallback : t.fallback = u.fallback

/-- Places that both tables are asked for by one keyword, or for want of one. -/
inductive SamePlace (t u : Table) : EntryRef → EntryRef → Prop where
  | fallback : SamePlace t u .fallback .fallback
  | located {w : Word} {r q : EntryRef} : t.locate w = some r → u.locate w = some q → SamePlace t u r q

theorem lookup_of_locate (h : t.locate w = some r) : t.lookup w = t.get? r := by
  rw [lookup, h, Option.bind_some]

theorem lookup_eq_none_iff : t.lookup w = none ↔ t.locate w = none := by
  cases h : t.locate w with
  | none => simp [lookup, h]
  | some r =>
    obtain ⟨e, he, -⟩ := exists_get?_of_locate h
    simp [lookup_of_locate h, he]

/-- A place is where a keyword is found if its entry has the keyword, and nowhere else. -/
theorem locate_eq_iff_equiv (h : t.locate v = some r) : t.locate w = some r ↔ v ≈ w := by
  constructor
  · intro h'
    obtain ⟨e, he, hv⟩ := exists_get?_of_locate h
    obtain ⟨d, hd, hw⟩ := exists_get?_of_locate h'
    cases he.symm.trans hd
    exact Setoid.trans (Setoid.symm hv) hw
  · intro hvw
    have hiff : ∀ e : Entry, e.keyword ≈ w ↔ e.keyword ≈ v := fun e =>
      ⟨fun he => Setoid.trans he (Setoid.symm hvw), fun he => Setoid.trans he hvw⟩
    rw [← h, locate, locate, bucketOf_eq_of_equiv hvw]
    simp only [hiff]

theorem SamePlace.eq_iff {r' q' : EntryRef} (hp : SamePlace t u r q) (hp' : SamePlace t u r' q') :
    r' = r ↔ q' = q := by
  have hne : ∀ {t : Table} {w : Word} {r : EntryRef}, t.locate w = some r → r ≠ .fallback := by
    rintro t w r h rfl
    exact bucket_ne_of_locate h rfl
  cases hp with
  | fallback =>
    cases hp' with
    | fallback => exact iff_of_true rfl rfl
    | located ht hu => exact iff_of_false (hne ht) (hne hu)
  | located ht hu =>
    cases hp' with
    | fallback => exact iff_of_false (Ne.symm (hne ht)) (Ne.symm (hne hu))
    | @located w _ _ ht' hu' =>
      have hr := locate_eq_iff_equiv (w := w) ht
      have hq := locate_eq_iff_equiv (w := w) hu
      rw [ht', Option.some_inj] at hr
      rw [hu', Option.some_inj] at hq
      rw [hr, hq]

namespace Alike

theorem locate (h : Alike t u) (w : Word) : Option.Rel (SamePlace t u) (t.locate w) (u.locate w) := by
  have hnone : t.locate w = none ↔ u.locate w = none := by
    rw [← lookup_eq_none_iff, ← lookup_eq_none_iff, h.lookup]
  cases ht : t.locate w with
  | none => rw [hnone.1 ht]; exact .none
  | some r =>
    cases hu : u.locate w with
    | none => rw [hnone.2 hu] at ht; cases ht
    | some q => exact .some (.located ht hu)

theorem get?_eq (h : Alike t u) (hp : SamePlace t u r q) : t.get? r = u.get? q := by
  cases hp with
  | fallback => rw [get?_fallback, get?_fallback, h.fallback]
  | located ht hu => rw [← lookup_of_locate ht, ← lookup_of_locate hu, h.lookup]

/-- Tables stay alike if the same is changed at the same place. -/
theorem modify (h : Alike t u) (hp : SamePlace t u r q) (hf : ∀ e, (f e).keyword = e.keyword) :
    Alike (t.modify r f) (u.modify q f) := by
  have hget : ∀ {r' q'}, SamePlace t u r' q' →
      (t.modify r f).get? r' = (u.modify q f).get? q' := by
    intro r' q' hp'
    rw [get?_modify, get?_modify, h.get?_eq hp']
    simp only [hp.eq_iff hp']
  constructor
  · intro w
    have hlocate := h.locate w
    rw [Table.lookup, Table.lookup, locate_modify t r hf, locate_modify u q hf]
    generalize t.locate w = x at hlocate ⊢
    generalize u.locate w = y at hlocate ⊢
    cases hlocate with
    | none => rfl
    | some hp' => exact hget hp'
  · have hfallback := hget .fallback
    rwa [get?_fallback, get?_fallback] at hfallback

end Alike

end Table

/-! ### Scans -/

namespace Scan

open Table

variable {settings : Settings} {t u : Table} {a b : Option Selection} {r q : EntryRef}

/-- The same has been selected, for the same precedence. -/
def SameSelection (t u : Table) : Option Selection → Option Selection → Prop :=
  Option.Rel fun a b => SamePlace t u a.entry b.entry ∧ a.precedence = b.precedence

theorem SameSelection.choose (hs : SameSelection t u a b) (hp : SamePlace t u r q) (e : Entry) :
    SameSelection t u (Selection.choose a r e) (Selection.choose b q e) := by
  unfold Selection.choose
  split
  · exact hs
  · cases hs with
    | none => exact .some ⟨hp, rfl⟩
    | @some a b hab =>
      dsimp only
      rw [hab.2]
      split
      · exact .some ⟨hp, rfl⟩
      · exact .some hab

theorem entryOf_alike (h : Table.Alike t u) (w : Word) :
    Option.Rel (fun a b => SamePlace t u a.1 b.1 ∧ a.2 = b.2) (entryOf t w) (entryOf u w) := by
  have hlocate := h.locate w
  unfold entryOf
  generalize t.locate w = x at hlocate ⊢
  generalize u.locate w = y at hlocate ⊢
  cases hlocate with
  | none => exact .none
  | @some r q hp =>
    rw [Option.bind_eq_bind, Option.bind_eq_bind, Option.bind_some, Option.bind_some, h.get?_eq hp]
    cases u.get? q with
    | none => exact .none
    | some e => exact .some ⟨hp, rfl⟩

theorem sweep_alike (h : Table.Alike t u) (hs : SameSelection t u a b) (kept words : List Word) :
    (sweep settings t kept a words).1 = (sweep settings u kept b words).1 ∧
      SameSelection t u (sweep settings t kept a words).2 (sweep settings u kept b words).2 := by
  induction words generalizing kept a b with
  | nil => exact ⟨rfl, hs⟩
  | cons w words ih =>
    rw [sweep, sweep]
    split
    · cases hs with
      | none => exact ih .none []
      | some hab => exact ⟨rfl, .some hab⟩
    · have hentry := entryOf_alike h w
      generalize entryOf t w = x at hentry ⊢
      generalize entryOf u w = y at hentry ⊢
      cases hentry with
      | none => exact ih hs _
      | @some x y hxy =>
        obtain ⟨r, e⟩ := x
        obtain ⟨q, d⟩ := y
        obtain ⟨hp, rfl⟩ := hxy
        exact ih (hs.choose hp e) _

end Scan

/-! ### Evaluation -/

open Table (SamePlace)

section
variable {t u : Table} {r q : EntryRef}

structure Consultation.Alike (c d : Consultation) : Prop where
  answer : c.answer = d.answer
  input : c.input = d.input
  table : c.table.Alike d.table

structure Evaluation.Alike (a b : Evaluation) : Prop where
  reply : a.reply = b.reply
  table : a.table.Alike b.table

theorem consult_alike (settings : Settings) (h : t.Alike u) (hp : SamePlace t u r q)
    (words : List Word) : (consult settings t r words).Alike (consult settings u q words) := by
  have hpass (n : Nat) (rule : Rule) : (t.passOn r n rule).Alike (u.passOn q n rule) :=
    h.modify hp fun _ => rfl
  unfold consult
  rw [h.get?_eq hp]
  cases (u.get? q).bind (·.application? words) with
  | none => exact ⟨rfl, rfl, h⟩
  | some application =>
    cases application with
    | link keyword => exact ⟨rfl, rfl, h⟩
    | rule n rule groups =>
      dsimp only
      cases rule.due with
      | none => exact ⟨rfl, rfl, h⟩
      | some reply => cases reply <;> exact ⟨rfl, rfl, hpass n rule⟩

theorem evaluate_alike (settings : Settings) (acknowledgement : String) (hops : Nat) (h : t.Alike u)
    (hp : SamePlace t u r q) (words : List Word) :
    (evaluate settings acknowledgement hops t r words).Alike
      (evaluate settings acknowledgement hops u q words) := by
  induction hops generalizing t u r q words with
  | zero =>
    obtain ⟨hanswer, hinput, htable⟩ := consult_alike settings h hp words
    rw [evaluate, evaluate, hanswer]
    cases (consult settings u q words).answer with
    | say line => exact ⟨rfl, htable⟩
    | nothing => exact ⟨rfl, htable⟩
    | follow keyword => exact ⟨rfl, htable⟩
  | succ hops ih =>
    obtain ⟨hanswer, hinput, htable⟩ := consult_alike settings h hp words
    rw [evaluate, evaluate, hanswer, hinput]
    cases (consult settings u q words).answer with
    | say line => exact ⟨rfl, htable⟩
    | nothing => exact ⟨rfl, htable⟩
    | follow keyword =>
      have hlocate := htable.locate keyword
      dsimp only
      generalize (consult settings t r words).table.locate keyword = x at hlocate ⊢
      generalize (consult settings u q words).table.locate keyword = y at hlocate ⊢
      cases hlocate with
      | none => exact ⟨rfl, htable⟩
      | some hp' => exact ih htable hp' _

end

/-! ### Sessions -/

namespace Session

variable {s t : Session} {line : String} {r q : EntryRef}

/-- Sessions that differ in the layout of their tables, and in their scratch state. -/
structure Alike (s t : Session) : Prop where
  table : s.table.Alike t.table
  settings : s.settings = t.settings
  memory : s.memory = t.memory
  memories : s.memories = t.memories
  rotation : s.rotation = t.rotation
  outbox : s.outbox = t.outbox
  finished : s.finished = t.finished

namespace Alike

theorem swept (h : Alike s t) (line : String) :
    (s.swept line).1 = (t.swept line).1 ∧
      Scan.SameSelection s.table t.table (s.swept line).2 (t.swept line).2 := by
  rw [Session.swept, Session.swept, h.settings]
  exact Scan.sweep_alike h.table .none _ _

theorem chosen (h : Alike s t) (line : String) :
    Option.Rel (SamePlace s.table t.table) (s.scanned line).chosen (t.scanned line).chosen := by
  obtain ⟨-, hselection⟩ := h.swept line
  simp only [Session.chosen, scanned_selection, scanned_rotation, scanned_memories, scanned_table,
    h.rotation, h.memories, h.table.fallback]
  generalize (s.swept line).2 = x at hselection ⊢
  generalize (t.swept line).2 = y at hselection ⊢
  cases hselection with
  | some hab => exact .some hab.1
  | none =>
    dsimp only
    split
    · exact .none
    · split
      · exact .some .fallback
      · exact .none

theorem outcome (h : Alike s t) (line : String) (hp : SamePlace s.table t.table r q) :
    ((s.scanned line).outcome r).Alike ((t.scanned line).outcome q) := by
  obtain ⟨hwords, -⟩ := h.swept line
  simp only [Session.outcome, scanned_settings, scanned_rotation, scanned_table, scanned_words,
    h.settings, h.rotation, hwords]
  exact evaluate_alike _ _ _ h.table hp _

theorem sentence? (h : Alike s t) (line : String) (hp : SamePlace s.table t.table r q) :
    (s.scanned line).sentence? r = (t.scanned line).sentence? q := by
  obtain ⟨hwords, -⟩ := h.swept line
  simp only [Session.sentence?, scanned_settings, scanned_memory, scanned_table, scanned_words,
    h.settings, h.memory, hwords, h.table.get?_eq hp]

theorem memoriesAfter (h : Alike s t) (line : String) :
    (s.scanned line).memoriesAfter = (t.scanned line).memoriesAfter := by
  obtain ⟨-, hselection⟩ := h.swept line
  rw [Session.memoriesAfter, Session.memoriesAfter, scanned_memories, scanned_memories, h.memories,
    scanned_selection, scanned_selection]
  generalize (s.swept line).2 = x at hselection ⊢
  generalize (t.swept line).2 = y at hselection ⊢
  cases hselection with
  | none => rfl
  | some hab => rw [Option.bind_some, Option.bind_some, h.sentence? line hab.1]

theorem counsel (h : Alike s t) (line : String) :
    (s.counsel line).1 = (t.counsel line).1 ∧ Alike (s.counsel line).2 (t.counsel line).2 := by
  have hchosen := h.chosen line
  have hrotation : (s.scanned line).rotation = (t.scanned line).rotation := by
    rw [scanned_rotation, scanned_rotation, h.rotation]
  unfold Session.counsel
  dsimp only
  generalize (s.scanned line).chosen = x at hchosen ⊢
  generalize (t.scanned line).chosen = y at hchosen ⊢
  cases hchosen with
  | some hp =>
    obtain ⟨hreply, htable⟩ := h.outcome line hp
    exact ⟨hreply, htable, h.settings, h.memory, h.memoriesAfter line, hrotation, rfl, h.finished⟩
  | none =>
    dsimp only
    rw [hrotation, h.memories, h.settings]
    cases if (t.scanned line).rotation = 4 then t.memories else [] with
    | nil => exact ⟨rfl, h.table, h.settings, h.memory, h.memories, rfl, rfl, h.finished⟩
    | cons memory rest => exact ⟨rfl, h.table, h.settings, h.memory, rfl, rfl, rfl, h.finished⟩

theorem verdict (h : Alike s t) (line : String) :
    (s.verdict line).1 = (t.verdict line).1 ∧ Alike (s.verdict line).2 (t.verdict line).2 := by
  unfold Session.verdict
  rw [h.settings]
  split
  · exact ⟨rfl, h.table, h.settings, h.memory, h.memories, h.rotation, rfl, rfl⟩
  · split
    · exact ⟨rfl, h.table, h.settings, h.memory, h.memories, h.rotation, rfl, h.finished⟩
    · exact h.counsel line

/-- Sessions that are alike say the same and are alike again. -/
theorem respond (h : Alike s t) (line : String) :
    (s.respond line).1 = (t.respond line).1 ∧ Alike (s.respond line).2 (t.respond line).2 := by
  cases hs : s.finished with
  | true =>
    rw [respond_of_finished hs, respond_of_finished (h.finished ▸ hs)]
    exact ⟨rfl, h⟩
  | false =>
    obtain ⟨hr, hn⟩ := (comes hs line).eq_verdict
    obtain ⟨hr', hn'⟩ := (comes (h.finished ▸ hs) line).eq_verdict
    obtain ⟨hreply, hnext⟩ := h.verdict line
    rw [← hn, ← hn'] at hnext
    refine ⟨by rw [hr, hr', h.outbox, hreply], ?_⟩
    exact ⟨hnext.table, hnext.settings, hnext.memory, hnext.memories, hnext.rotation, hnext.outbox,
      hnext.finished⟩

theorem converse (h : Alike s t) (lines : List String) :
    s.replies lines = t.replies lines ∧ Alike (s.converse lines) (t.converse lines) := by
  have hstep {s t : Session} {line line' : String} (h : Alike s t) (hl : line = line') :
      (s.respond line).1 = (t.respond line').1 ∧ Alike (s.respond line).2 (t.respond line').2 :=
    hl ▸ h.respond line
  obtain ⟨hreplies, hafter⟩ := replies_related hstep h (List.forall₂_refl lines)
  rw [List.forall₂_eq_eq_eq] at hreplies
  exact ⟨hreplies, hafter⟩

end Alike

end Session

end Dialogue
