import Dialogue.Proofs.Table
import Dialogue.Proofs.Tokens
import Dialogue.Script

/-!
# Tables that have been loaded

What holds of every entry that can be read holds of every entry of a table that has been loaded,
wherever it lies (`Script.forall_of_load`). So no rule of such a table is without a reply
(`Script.sound_of_load`), and every rule has its first reply next (`Script.fresh_of_load`).
-/

namespace Dialogue

/-! ### Reading -/

section
variable {ε α β : Type}

theorem bind_eq_ok {x : Except ε α} {f : α → Except ε β} {b : β} :
    x >>= f = .ok b ↔ ∃ a, x = .ok a ∧ f a = .ok b := by
  cases x <;> simp [bind, Except.bind]

theorem mapError_eq_ok {ε' : Type} {x : Except ε α} {f : ε → ε'} {a : α} :
    x.mapError f = .ok a ↔ x = .ok a := by
  cases x <;> simp [Except.mapError]

theorem exists_of_isOk {x : Except ε α} (h : x.isOk) : ∃ a, x = .ok a := by
  cases x with
  | error => cases h
  | ok a => exact ⟨a, rfl⟩

/-- What holds of everything that is read holds of every member of a list that is read. -/
theorem forall_of_mapM {f : α → Except ε β} {P : β → Prop} (h : ∀ a b, f a = .ok b → P b) {l : List α}
    {l' : List β} (hl : l.mapM f = .ok l') : ∀ b ∈ l', P b := by
  induction l generalizing l' with
  | nil => cases hl; nofun
  | cons a l ih =>
    rw [List.mapM_cons] at hl
    obtain ⟨b, hb, hl⟩ := bind_eq_ok.1 hl
    obtain ⟨bs, hbs, hl⟩ := bind_eq_ok.1 hl
    cases hl
    intro c hc
    rcases List.mem_cons.1 hc with rfl | hc
    · exact h a c hb
    · exact ih hbs c hc

end

/-! ### Items and entries -/

/-- A rule has a reply. -/
def Item.Sound : Item → Prop
  | .rule r => r.replies ≠ []
  | .link _ => True

def Entry.Sound (e : Entry) : Prop := ∀ item ∈ e.items, item.Sound

/-- The entries of a table are sound, the one to fall back on included. -/
def Table.Sound (t : Table) : Prop := ∀ r e, t.get? r = some e → e.Sound

theorem Rule.replies_ne_nil_of_ofCells {cells : List Datum} {r : Rule}
    (h : Rule.ofCells cells = .ok r) : r.replies ≠ [] := by
  unfold Rule.ofCells at h
  split at h
  · obtain ⟨pattern, -, h⟩ := bind_eq_ok.1 h
    obtain ⟨replies, -, h⟩ := bind_eq_ok.1 h
    dsimp only at h
    split at h
    · cases h
    · rename_i hne
      cases h
      simpa using hne
  · cases h

theorem Item.sound_of_ofCells {cells : List Datum} {item : Item} (h : Item.ofCells cells = .ok item) :
    item.Sound := by
  unfold Item.ofCells at h
  split at h
  · cases h; trivial
  · split at h
    · cases h; exact List.cons_ne_nil _ _
    · obtain ⟨r, hr, rfl⟩ := map_eq_ok.1 h
      exact Rule.replies_ne_nil_of_ofCells hr

theorem Item.sound_of_ofDatum (d : Datum) (item : Item) (h : Item.ofDatum d = .ok item) :
    item.Sound := by
  cases d with
  | list cells => exact Item.sound_of_ofCells h
  | word | number => cases h

/-- Every item of an entry that is read is read from a datum. -/
theorem Entry.exists_of_ofCells {cells : List Datum} {e : Entry} (h : Entry.ofCells cells = .ok e) :
    ∀ item ∈ e.items, ∃ d, Item.ofDatum d = .ok item := by
  unfold Entry.ofCells at h
  split at h
  · cases h
  · obtain ⟨⟨head, items⟩, -, h⟩ := bind_eq_ok.1 (mapError_eq_ok.1 h)
    obtain ⟨read, hread, h⟩ := bind_eq_ok.1 h
    cases h
    exact forall_of_mapM (fun d item hd => ⟨d, hd⟩) hread
  · cases h

theorem Entry.sound_of_ofCells {cells : List Datum} {e : Entry} (h : Entry.ofCells cells = .ok e) :
    e.Sound := by
  intro item hitem
  obtain ⟨d, hd⟩ := Entry.exists_of_ofCells h item hitem
  exact Item.sound_of_ofDatum d item hd

/-- A rule has its first reply next. -/
def Item.Fresh : Item → Prop
  | .rule r => r.next = 0
  | .link _ => True

theorem Rule.next_eq_zero_of_ofCells {cells : List Datum} {r : Rule} (h : Rule.ofCells cells = .ok r) :
    r.next = 0 := by
  unfold Rule.ofCells at h
  split at h
  · obtain ⟨pattern, -, h⟩ := bind_eq_ok.1 h
    obtain ⟨replies, -, h⟩ := bind_eq_ok.1 h
    dsimp only at h
    split at h <;> cases h
    rfl
  · cases h

theorem Item.fresh_of_ofCells {cells : List Datum} {item : Item} (h : Item.ofCells cells = .ok item) :
    item.Fresh := by
  unfold Item.ofCells at h
  split at h
  · cases h; trivial
  · split at h
    · cases h; exact rfl
    · obtain ⟨r, hr, rfl⟩ := map_eq_ok.1 h
      exact Rule.next_eq_zero_of_ofCells hr

theorem Item.fresh_of_ofDatum {d : Datum} {item : Item} (h : Item.ofDatum d = .ok item) :
    item.Fresh := by
  cases d with
  | list cells => exact Item.fresh_of_ofCells h
  | word | number => cases h

/-! ### Tables -/

namespace Table

variable {t : Table} {e : Entry}

/-- All entries of a table, the one to fall back on included. -/
def Forall (P : Entry → Prop) (t : Table) : Prop := ∀ r e, t.get? r = some e → P e

variable {P : Entry → Prop}

theorem forall_empty : Table.empty.Forall P := by
  intro r e h
  rw [get?_empty] at h; cases h

theorem Forall.setFallback (h : t.Forall P) (he : P e) : (t.setFallback e).Forall P := by
  intro r e' hr
  rw [get?_setFallback] at hr
  split at hr
  · cases hr; exact he
  · exact h r e' hr

theorem Forall.insert (h : t.Forall P) (he : P e) : (t.insert e).2.Forall P := by
  intro r e' hr
  rw [get?_insert] at hr
  split at hr
  · cases hr; exact he
  · exact h r e' hr

theorem Sound.modify (h : t.Sound) {r : EntryRef} {f : Entry → Entry}
    (hf : ∀ e, t.get? r = some e → e.Sound → (f e).Sound) : (t.modify r f).Sound := by
  intro q e hq
  rw [get?_modify] at hq
  split at hq
  · subst_vars
    obtain ⟨e', he', rfl⟩ := Option.map_eq_some_iff.1 hq
    exact hf e' he' (h _ e' he')
  · exact h q e hq

end Table

/-! ### Scripts -/

namespace Script

variable {s s' : Script}

section
variable {P : Entry → Prop} (hP : ∀ cells e, Entry.ofCells cells = .ok e → P e)
include hP

theorem forall_of_add {cells : List Datum} (hs : s.table.Forall P) (h : s.add cells = .ok s') :
    s'.table.Forall P := by
  unfold add at h
  split at h
  · obtain ⟨e, he, h⟩ := bind_eq_ok.1 h
    cases h
    exact hs.setFallback (hP _ _ he)
  · split at h
    · obtain ⟨m, -, h⟩ := bind_eq_ok.1 h
      cases h
      exact hs
    · obtain ⟨e, he, h⟩ := bind_eq_ok.1 h
      cases h
      exact hs.insert (hP _ _ he)

theorem forall_of_addAll {fault : Option Source.Fault} {lists : List (List Datum)}
    (hs : s.table.Forall P) (h : addAll fault s lists = .ok s') : s'.table.Forall P := by
  induction lists generalizing s with
  | nil => unfold addAll at h; split at h <;> cases h
  | cons cells rest ih =>
    cases cells with
    | nil => cases h; exact hs
    | cons d cells =>
      obtain ⟨next, hnext, h⟩ := bind_eq_ok.1 h
      exact ih (forall_of_add hP hs (mapError_eq_ok.1 hnext)) h

/-- The entries of a table that has been loaded have all been read. -/
theorem forall_of_load {source : String} (h : load source = .ok s) : s.table.Forall P := by
  obtain ⟨reader, -, h⟩ := bind_eq_ok.1 h
  dsimp only at h
  unfold ofLists at h
  split at h
  · split at h <;> cases h
  · cases h
  · exact forall_of_addAll hP Table.forall_empty h

end

/-- Where all lists of a source can be read, loading is making a script of them. -/
theorem load_of_readAll {source : String} {lists : List (List Datum)}
    (h : (Source.Reader.ofSource source).bind Source.Reader.all = .ok lists) :
    load source = ofLists lists none := by
  unfold load
  cases hr : Source.Reader.ofSource source with
  | error fault => rw [hr] at h; cases h
  | ok reader =>
    rw [hr] at h
    have hall : reader.all = .ok lists := h
    have hlists : reader.lists = (lists, none) := by
      unfold Source.Reader.all at hall
      split at hall
      · rename_i hl
        cases hall
        exact hl
      · cases hall
    show ofLists reader.lists.1 reader.lists.2 = ofLists lists none
    rw [hlists]

/-- The table of a script that has been loaded is sound. -/
theorem sound_of_load {source : String} (h : load source = .ok s) : s.table.Sound :=
  forall_of_load (fun _ _ => Entry.sound_of_ofCells) h

theorem fresh_of_load {source : String} (h : load source = .ok s) :
    s.table.Forall fun e => ∀ item ∈ e.items, item.Fresh := by
  refine forall_of_load (fun cells e he item hitem => ?_) h
  obtain ⟨d, hd⟩ := Entry.exists_of_ofCells he item hitem
  exact Item.fresh_of_ofDatum hd

end Script

end Dialogue
