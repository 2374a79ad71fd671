import Dialogue.Proofs.Heads

/-!
# Entries written as lists

`Entry.cells` writes an entry as the list of a script. The forms share their cells: a rule starts with a
list where a link has a word, a choice starts with an asterisk where a tag has a slash, and a template is
told from a link or a rebuilding by nothing but its first words. So an entry can be read back if its
templates do not look like one of those and whatever it has can be written at all (`Entry.Writable`), and
only then.
-/

namespace Dialogue

/-! ### Writing -/

def Part.cell : Part → Datum
  | .word w => .word w
  | .gap size => .number size
  | .oneOf ws => .list (.ofText "*" :: ws.map .word)
  | .tagged ws => .list (ws.map .word)

/-- A number that does not fit into a cell is cut. -/
def Filler.cell : Filler → Datum
  | .word w => .word w
  | .group n => .number (UInt32.ofNat n)

def linkCells (keyword : Word) : List Datum := [.ofText "=", .word keyword]

def Reply.cells : Reply → List Datum
  | .say template => template.map Filler.cell
  | .follow keyword => linkCells keyword
  | .rebuild template keyword =>
    [.ofText "PRE", .list (template.map Filler.cell), .list (linkCells keyword)]

def Rule.cells (r : Rule) : List Datum :=
  .list (r.pattern.map Part.cell) :: r.replies.map fun reply => .list reply.cells

def Item.cells : Item → List Datum
  | .rule r => r.cells
  | .link keyword => linkCells keyword

namespace Entry

def headParts (e : Entry) : List HeadPart :=
  e.substitute.toList.map .replacement ++ e.precedence.toList.map .precedence

def headCells (e : Entry) : List Datum :=
  e.substitute.toList.flatMap (fun w => [.ofText "=", .word w]) ++ e.precedence.toList.map .number

def cells (e : Entry) : List Datum :=
  .word e.keyword :: (e.headCells ++ e.items.map fun item => .list item.cells)

end Entry

/-! ### What can be written -/

/-- A choice has an alternative, and a tag starts with a slash. -/
def Part.Writable : Part → Prop
  | .word _ | .gap _ => True
  | .oneOf ws => ws ≠ []
  | .tagged ws => ∃ tag others, ws = tag :: others ∧ tag.text.toList.head? = some '/'

/-- A number fits into a cell. -/
def Filler.Writable : Filler → Prop
  | .word _ => True
  | .group n => n < 2 ^ 32

/-- The template is an equals sign and one word. -/
def LooksLinked (template : List Filler) : Prop :=
  ∃ sign keyword, template = [.word sign, .word keyword] ∧ sign ≈ ⟨"="⟩

/-- The template starts with the word of a rebuilding. -/
def LooksRebuilt (template : List Filler) : Prop := ∃ w, template.head? = some (.word w) ∧ w ≈ ⟨"PRE"⟩

def Reply.Writable : Reply → Prop
  | .say template => (∀ f ∈ template, f.Writable) ∧ ¬ LooksLinked template ∧ ¬ LooksRebuilt template
  | .follow _ => True
  | .rebuild template _ => ∀ f ∈ template, f.Writable

structure Rule.Writable (r : Rule) : Prop where
  pattern_ne_nil : r.pattern ≠ []
  parts : ∀ p ∈ r.pattern, p.Writable
  replies_ne_nil : r.replies ≠ []
  replies : ∀ reply ∈ r.replies, reply.Writable
  /-- The position in the rotation is not written. -/
  next_eq_zero : r.next = 0

def Item.Writable : Item → Prop
  | .rule r => r.Writable
  | .link _ => True

def Entry.Writable (e : Entry) : Prop := ∀ item ∈ e.items, item.Writable

/-! ### Reading back -/

section
variable {ε α β : Type} {write : α → β} {read : β → Except ε α} {l : List α}

/-- A list is read back if and only if its members are. -/
theorem mapM_write_eq_ok_iff : (l.map write).mapM read = .ok l ↔ ∀ a ∈ l, read (write a) = .ok a := by
  induction l with
  | nil => exact ⟨fun _ => nofun, fun _ => rfl⟩
  | cons a l ih =>
    rw [List.map_cons, List.mapM_cons, List.forall_mem_cons, ← ih]
    constructor
    · intro h
      obtain ⟨b, hb, h⟩ := bind_eq_ok.1 h
      obtain ⟨bs, hbs, h⟩ := bind_eq_ok.1 h
      cases h
      exact ⟨hb, hbs⟩
    · rintro ⟨ha, hl⟩
      exact bind_eq_ok.2 ⟨a, ha, bind_eq_ok.2 ⟨l, hl, rfl⟩⟩

end

theorem Datum.words_map_word (ws : List Word) : Datum.words (ws.map .word) = ws := by
  rw [words, List.filterMap_map]
  exact List.filterMap_some

namespace Part

theorem ofGroup_oneOf (ws : List Word) :
    ofGroup (.ofText "*" :: ws.map .word) = .ok (.oneOf ws) ↔ ws ≠ [] := by
  have hwords : Datum.words (.ofText "*" :: ws.map .word) = ⟨"*"⟩ :: ws :=
    congrArg (_ :: ·) (Datum.words_map_word ws)
  rw [ofGroup, hwords]
  dsimp only
  constructor
  · rintro h rfl
    rw [if_neg (by simp), if_neg (by decide)] at h
    cases h
  · intro hne
    rw [if_pos ⟨rfl, hne, by simp⟩]

theorem ofGroup_tagged (ws : List Word) : ofGroup (ws.map .word) = .ok (.tagged ws) ↔
    ∃ tag others, ws = tag :: others ∧ tag.text.toList.head? = some '/' := by
  rw [ofGroup, Datum.words_map_word]
  cases ws with
  | nil => exact ⟨nofun, nofun⟩
  | cons tag others =>
    dsimp only
    constructor
    · intro h
      split at h
      · cases h
      · split at h
        · exact ⟨tag, others, rfl, ‹_›⟩
        · cases h
    · rintro ⟨_, _, heq, hslash⟩
      cases heq
      have hstar : tag.text ≠ "*" := by
        intro h
        rw [h] at hslash
        cases hslash
      rw [if_neg (fun h => hstar h.1), if_pos hslash]

theorem ofDatum_cell {p : Part} : ofDatum p.cell = .ok p ↔ p.Writable := by
  cases p with
  | word | gap => exact iff_of_true rfl trivial
  | oneOf ws => exact ofGroup_oneOf ws
  | tagged ws => exact ofGroup_tagged ws

end Part

theorem readPattern_cells {pattern : List Part} :
    readPattern (pattern.map Part.cell) = .ok pattern ↔ pattern ≠ [] ∧ ∀ p ∈ pattern, p.Writable := by
  rw [readPattern, List.isEmpty_map]
  cases pattern with
  | nil => exact ⟨nofun, fun h => absurd rfl h.1⟩
  | cons p pattern =>
    rw [if_neg (by simp), mapM_write_eq_ok_iff]
    simp only [Part.ofDatum_cell, ne_eq, reduceCtorEq, not_false_eq_true, true_and]

theorem Filler.ofDatum_cell {f : Filler} : ofDatum f.cell = .ok f ↔ f.Writable := by
  cases f with
  | word => exact iff_of_true rfl trivial
  | group n =>
    have hread : ofDatum (group n).cell = .ok (.group (UInt32.ofNat n).toNat) := rfl
    rw [hread, Except.ok.injEq, group.injEq, UInt32.toNat_ofNat']
    show n % 2 ^ 32 = n ↔ n < 2 ^ 32
    omega

theorem readTemplate_cells {template : List Filler} :
    readTemplate (template.map Filler.cell) = .ok template ↔ ∀ f ∈ template, f.Writable := by
  rw [readTemplate, mapM_write_eq_ok_iff]
  simp only [Filler.ofDatum_cell]

/-! ### Links, rebuildings and templates -/

theorem linkTarget?_template {template : List Filler} :
    (∃ keyword, linkTarget? (template.map Filler.cell) = some keyword) ↔ LooksLinked template := by
  constructor
  · rintro ⟨keyword, h⟩
    rcases template with _ | ⟨f, _ | ⟨g, _ | ⟨k, others⟩⟩⟩
    · cases h
    · cases h
    · rcases f with sign | n <;> rcases g with w | m
      · by_cases hs : (Datum.word sign).isWord "="
        · exact ⟨sign, w, rfl, of_decide_eq_true hs⟩
        · have hnone : linkTarget? [.word sign, .word w] = none := if_neg hs
          cases hnone.symm.trans h
      · cases h
      · cases h
      · cases h
    · rcases g with w | m <;> cases h
  · rintro ⟨sign, keyword, rfl, hs⟩
    have hword : (Datum.word sign).isWord "=" := decide_eq_true hs
    exact ⟨keyword, if_pos hword⟩

theorem head?_isWord_template {template : List Filler} :
    (template.map Filler.cell).head?.any (·.isWord "PRE") ↔ LooksRebuilt template := by
  rw [LooksRebuilt, List.head?_map]
  rcases template with _ | ⟨w | n, others⟩
  · simp
  · simp [Filler.cell, Datum.isWord]
  · simp [Filler.cell, Datum.isWord]

namespace Reply

theorem ofCells_say {template : List Filler} :
    ofCells (template.map Filler.cell) = .ok (.say template) ↔
      (∀ f ∈ template, f.Writable) ∧ ¬ LooksLinked template ∧ ¬ LooksRebuilt template := by
  rw [← readTemplate_cells, ← linkTarget?_template, ← head?_isWord_template]
  cases hlink : linkTarget? (template.map Filler.cell) with
  | some keyword =>
    refine iff_of_false (fun h => ?_) fun h => h.2.1 ⟨keyword, rfl⟩
    unfold ofCells at h
    rw [hlink] at h
    cases h
  | none =>
    unfold ofCells
    rw [hlink]
    dsimp only
    by_cases hpre : (template.map Filler.cell).head?.any (·.isWord "PRE")
    · refine iff_of_false (fun h => ?_) fun h => h.2.2 hpre
      rw [if_pos hpre] at h
      split at h
      · split at h
        · obtain ⟨read, -, h⟩ := bind_eq_ok.1 h
          cases h
        · cases h
      · cases h
    · rw [if_neg hpre]
      constructor
      · intro h
        obtain ⟨read, hread, h⟩ := bind_eq_ok.1 h
        cases h
        exact ⟨hread, nofun, hpre⟩
      · rintro ⟨hread, -, -⟩
        exact bind_eq_ok.2 ⟨template, hread, rfl⟩

theorem ofCells_rebuild {template : List Filler} {keyword : Word} :
    ofCells (rebuild template keyword).cells = .ok (.rebuild template keyword) ↔
      ∀ f ∈ template, f.Writable := by
  have hcells : ofCells (rebuild template keyword).cells =
      readTemplate (template.map Filler.cell) >>= fun read => .ok (.rebuild read keyword) := rfl
  rw [hcells, bind_eq_ok, ← readTemplate_cells]
  constructor
  · rintro ⟨read, hread, h⟩
    cases h
    exact hread
  · intro hread
    exact ⟨template, hread, rfl⟩

theorem ofDatum_cells {r : Reply} : ofDatum (.list r.cells) = .ok r ↔ r.Writable := by
  cases r with
  | say template => exact ofCells_say
  | follow keyword => exact iff_of_true rfl trivial
  | rebuild template keyword => exact ofCells_rebuild

end Reply

theorem Rule.ofCells_cells {r : Rule} : ofCells r.cells = .ok r ↔ r.Writable := by
  constructor
  · intro h
    obtain ⟨pattern, hpattern, h⟩ := bind_eq_ok.1 h
    obtain ⟨replies, hreplies, h⟩ := bind_eq_ok.1 h
    dsimp only at h
    split at h
    · cases h
    · rename_i hne
      cases h
      obtain ⟨hnil, hparts⟩ := readPattern_cells.1 hpattern
      rw [mapM_write_eq_ok_iff] at hreplies
      refine ⟨hnil, hparts, by simpa using hne, fun reply hr => ?_, rfl⟩
      exact Reply.ofDatum_cells.1 (hreplies reply hr)
  · obtain ⟨pattern, replies, next⟩ := r
    rintro ⟨hnil, hparts, hne, hreplies, rfl⟩
    have hpattern := readPattern_cells.2 ⟨hnil, hparts⟩
    have hread : (replies.map fun reply => Datum.list reply.cells).mapM Reply.ofDatum = .ok replies :=
      mapM_write_eq_ok_iff.2 fun reply hr => Reply.ofDatum_cells.2 (hreplies reply hr)
    refine bind_eq_ok.2 ⟨pattern, hpattern, bind_eq_ok.2 ⟨replies, hread, ?_⟩⟩
    exact if_neg (by simpa using hne)

namespace Item

/-- A list with nothing but lists in it is neither a link nor a rule in the flat form. -/
theorem ofCells_of_isList {cells : List Datum} (h : ∀ d ∈ cells, d.isList) :
    ofCells cells = (Rule.ofCells cells).map .rule := by
  have hword (d : Datum) (hd : d ∈ cells) (s : String) : d.isWord s = false := by
    cases d with
    | list => rfl
    | word | number => cases h _ hd
  have hlink : linkTarget? cells = none := by
    cases hl : linkTarget? cells with
    | none => rfl
    | some target =>
      unfold linkTarget? at hl
      split at hl
      · cases h _ (List.mem_cons_of_mem _ List.mem_cons_self)
      · cases hl
  have hflat : FlatRule.ofCells? cells = none := by
    have hdrop : cells.dropWhile (!·.isWord "=") = [] :=
      List.dropWhile_eq_nil_iff.2 fun d hd => by simp [hword d hd "="]
    rw [FlatRule.ofCells?, hdrop]
    split
    · rename_i h
      cases h
    · rfl
  rw [ofCells, hlink, hflat]

theorem ofDatum_cells {item : Item} : ofDatum (.list item.cells) = .ok item ↔ item.Writable := by
  cases item with
  | link keyword => exact iff_of_true rfl trivial
  | rule r =>
    have hlists : ∀ d ∈ r.cells, d.isList := by
      intro d hd
      rcases List.mem_cons.1 hd with rfl | hd
      · rfl
      · obtain ⟨reply, -, rfl⟩ := List.mem_map.1 hd
        rfl
    have hread : ofDatum (.list (rule r).cells) = (Rule.ofCells r.cells).map .rule :=
      ofCells_of_isList hlists
    rw [hread, map_eq_ok]
    constructor
    · rintro ⟨r', hr, h⟩
      cases h
      exact Rule.ofCells_cells.1 hr
    · intro hr
      exact ⟨r, Rule.ofCells_cells.2 hr, rfl⟩

end Item

namespace Entry

variable {e : Entry}

theorem head_headCells (e : Entry) {items : List Datum} (h : ∀ d ∈ items.head?, d.isList) :
    Head (e.headCells ++ items) e.headParts items := by
  have hsign : (⟨"="⟩ : Word) ≈ ⟨"="⟩ := Setoid.refl _
  obtain ⟨keyword, _ | w, _ | n, read⟩ := e
  · exact .items h
  · exact .precedence (.items h)
  · exact .replacement hsign (.items h)
  · exact .replacement hsign (.precedence (.items h))

theorem replacements_headParts (e : Entry) : replacements e.headParts = e.substitute.toList := by
  obtain ⟨keyword, _ | w, _ | n, read⟩ := e <;> rfl

theorem precedences_headParts (e : Entry) : precedences e.headParts = e.precedence.toList := by
  obtain ⟨keyword, _ | w, _ | n, read⟩ := e <;> rfl

/-- What is read of the written entry is the entry again, if and only if it could be written. -/
theorem reads_what_it_writes (e : Entry) : ofCells e.cells = .ok e ↔ e.Writable := by
  have hitems : ∀ d ∈ (e.items.map fun item => Datum.list item.cells).head?, d.isList := by
    intro d hd
    obtain ⟨item, -, rfl⟩ := List.mem_map.1 (List.mem_of_head? hd)
    rfl
  have hread : (e.items.map fun item => Datum.list item.cells).mapM Item.ofDatum = .ok e.items ↔
      e.Writable := by
    rw [mapM_write_eq_ok_iff]
    simp only [Item.ofDatum_cells, Entry.Writable]
  have hhead := e.head_headCells hitems
  have hlen : (precedences e.headParts).length ≤ 1 := by
    rw [precedences_headParts]
    cases e.precedence <;> simp
  constructor
  · intro h
    obtain ⟨-, -, -, hmap⟩ := ofCells_of_head h hhead hlen
    exact hread.1 hmap
  · intro h
    refine ofCells_eq_ok_iff.2 ⟨_, _, _, rfl, hhead, hlen, ?_, ?_, hread.2 h⟩
    · rw [replacements_headParts]
      cases e.substitute <;> rfl
    · rw [precedences_headParts]
      cases e.precedence <;> rfl

example : Datum.line (cells ⟨⟨"YOU'RE"⟩, some ⟨"I'M"⟩, some 2,
    [.rule ⟨[.gap 0, .oneOf [⟨"WANT"⟩, ⟨"NEED"⟩]], [.rebuild [.word ⟨"I"⟩, .group 2] ⟨"YOU"⟩, .say []], 0⟩,
      .link ⟨"NO"⟩]⟩) =
    "YOU'RE = I'M 2 ((0 (* WANT NEED)) (PRE (I 2) (= YOU)) ()) (= NO)" := by
  decide +kernel

end Entry

end Dialogue
