import Dialogue.Pattern
import Mathlib.Data.List.TakeWhile

/-!
# What a pattern matches

`Cut` says when groups are a cut of an input by a pattern: part by part, what the part demands of its
group (`Part.Takes`), without a word on how the groups are found. A pattern without search finds the
cut if there is one (`decompose_eq_some_iff`): the demands leave a part no choice of how many words it
takes (`Part.share_of_takes`), and a gap that has taken everything for want of a word that ends it
leaves nothing for the anchor after it (`Cut.ne_nil_of_anchor`).
-/

namespace Dialogue

namespace Part

/-- What a part demands of its group, where `later` are the parts after it and `following` their
groups. -/
def Takes (later : List Part) (group : List Word) (following : List (List Word)) : Part → Prop
  | .word v => ∃ w, group = [w] ∧ v ≈ w
  | .oneOf vs => ∃ w, group = [w] ∧ ∃ v ∈ vs, v ≈ w
  | .tagged _ => True
  | .gap size =>
    if size = 0 then
      match later.find? isAnchor with
      | some anchor =>
        (∀ w ∈ group, ¬ anchor.admits w) ∧ ∃ w, following.flatten.head? = some w ∧ anchor.admits w
      | none => ∀ g ∈ following, g = []
    else group.length = size.toNat

/-- A part with a tag. -/
def IsTagged (p : Part) : Prop := ∃ ws, p = .tagged ws

variable {p anchor : Part} {later : List Part} {group words rest : List Word}
  {following : List (List Word)} {size : UInt32}

theorem takes_iff_of_isAnchor (h : p.isAnchor) :
    p.Takes later group following ↔ ∃ w, group = [w] ∧ p.admits w := by
  cases p with
  | word v => simp [Takes, admits]
  | oneOf vs => simp [Takes, admits, Word.among]
  | gap | tagged => cases h

theorem share_of_isAnchor (h : p.isAnchor) {n : Nat} :
    p.share later words = some n ↔ ∃ w tail, words = w :: tail ∧ p.admits w ∧ n = 1 := by
  cases words with
  | nil =>
    have hnone : p.share later [] = none := by
      cases p with
      | word | oneOf => rfl
      | gap | tagged => cases h
    simp [hnone]
  | cons w tail =>
    have hone : p.share later (w :: tail) = if p.admits w then some 1 else none := by
      cases p with
      | word | oneOf => rfl
      | gap | tagged => cases h
    rw [hone, Option.ite_none_right_eq_some, Option.some.injEq]
    constructor
    · rintro ⟨ha, rfl⟩
      exact ⟨w, tail, rfl, ha, rfl⟩
    · rintro ⟨v, rest, hw, ha, rfl⟩
      cases hw
      exact ⟨ha, rfl⟩

theorem not_isTagged_of_isAnchor (h : p.isAnchor) : ¬ p.IsTagged := by
  rintro ⟨ws, rfl⟩
  cases h

theorem reach_of_stop (ha : later.find? isAnchor = some anchor) {w : Word}
    (hg : ∀ v ∈ group, ¬ anchor.admits v) (hr : rest.head? = some w) (hw : anchor.admits w) :
    reach later (group ++ rest) = group.length := by
  obtain ⟨tail, rfl⟩ := List.head?_eq_some_iff.1 hr
  have hall : ∀ v ∈ group, (!anchor.admits v) = true := by simpa using hg
  have hstop : (w :: tail).takeWhile (fun v => !anchor.admits v) = [] :=
    List.takeWhile_cons_of_neg (by simp [hw])
  rw [reach, ha]
  dsimp only
  rw [List.takeWhile_append_of_pos hall, hstop, List.append_nil]

/-- A gap of any size takes the words that do not end it. -/
theorem take_reach (ha : later.find? isAnchor = some anchor) (words : List Word) :
    words.take (reach later words) = words.takeWhile (fun w => !anchor.admits w) ∧
      words.drop (reach later words) = words.dropWhile (fun w => !anchor.admits w) := by
  have htake : words.take (reach later words) = words.takeWhile (fun w => !anchor.admits w) := by
    rw [reach, ha]
    exact (List.prefix_iff_eq_take.1 (List.takeWhile_prefix _)).symm
  refine ⟨htake, ?_⟩
  refine List.append_cancel_left (?_ : words.take (reach later words) ++ _ = _ ++ _)
  rw [List.take_append_drop, htake, List.takeWhile_append_dropWhile]

/-- A part takes as many words as its demands say. -/
theorem share_of_takes (ht : ¬ p.IsTagged) (h : p.Takes later group following)
    (hf : following.flatten = rest) : p.share later (group ++ rest) = some group.length := by
  cases p with
  | word | oneOf =>
    obtain ⟨w, rfl, ha⟩ := (takes_iff_of_isAnchor rfl).1 h
    exact (share_of_isAnchor rfl).2 ⟨w, rest, rfl, ha, rfl⟩
  | tagged ws => exact absurd ⟨ws, rfl⟩ ht
  | gap size =>
    by_cases hs : size = 0
    · rw [share, if_pos hs]
      rw [Takes, if_pos hs] at h
      cases ha : later.find? isAnchor with
      | some anchor =>
        rw [ha] at h
        obtain ⟨hg, w, hw, hadmits⟩ := h
        rw [reach_of_stop ha hg (hf ▸ hw) hadmits]
      | none =>
        rw [ha] at h
        have hnil : rest = [] := by rw [← hf]; exact List.flatten_eq_nil_iff.2 h
        simp only [reach, ha, hnil, List.append_nil]
    · have hlen : group.length = size.toNat := by rwa [Takes, if_neg hs] at h
      rw [share, if_neg hs, if_neg (by simp [← hlen]), hlen]

end Part

/-- The groups cut the input as the pattern demands. -/
structure Cut (pattern : List Part) (input : List Word) (groups : List (List Word)) : Prop where
  length_eq : groups.length = pattern.length
  flatten_eq : groups.flatten = input
  /-- No word has tags. -/
  untagged : ∀ p ∈ pattern, ¬ p.IsTagged
  takes : ∀ (i : Nat) (p : Part) (group : List Word), pattern[i]? = some p → groups[i]? = some group →
    p.Takes (pattern.drop (i + 1)) group (groups.drop (i + 1))

namespace Cut

variable {p anchor : Part} {pattern later : List Part} {input group words rest : List Word}
  {groups following : List (List Word)}

theorem nil : Cut [] [] [] := ⟨rfl, rfl, nofun, nofun⟩

theorem cons (ht : ¬ p.IsTagged) (h : p.Takes later group following) (hrest : Cut later rest following) :
    Cut (p :: later) (group ++ rest) (group :: following) where
  length_eq := by simp [hrest.length_eq]
  flatten_eq := by simp [hrest.flatten_eq]
  untagged := List.forall_mem_cons.2 ⟨ht, hrest.untagged⟩
  takes := by
    intro i q g hq hg
    cases i with
    | zero =>
      cases hq
      cases hg
      exact h
    | succ i => exact hrest.takes i q g hq hg

theorem of_nil (h : Cut [] input groups) : input = [] ∧ groups = [] := by
  have hnil : groups = [] := List.length_eq_zero_iff.1 h.length_eq
  exact ⟨by rw [← h.flatten_eq, hnil, List.flatten_nil], hnil⟩

theorem of_cons (h : Cut (p :: later) input groups) :
    ∃ group following rest, groups = group :: following ∧ input = group ++ rest ∧ ¬ p.IsTagged ∧
      p.Takes later group following ∧ Cut later rest following := by
  obtain ⟨group, following, rfl⟩ := List.exists_cons_of_length_eq_add_one h.length_eq
  have hlen : following.length = later.length := by simpa using h.length_eq
  refine ⟨group, following, following.flatten, rfl, by rw [← h.flatten_eq, List.flatten_cons],
    h.untagged p List.mem_cons_self, h.takes 0 p group rfl rfl, hlen, rfl, ?_, ?_⟩
  · exact fun q hq => h.untagged q (List.mem_cons_of_mem _ hq)
  · exact fun i q g hq hg => h.takes (i + 1) q g hq hg

/-- An anchor needs a word. -/
theorem ne_nil_of_anchor (h : Cut pattern input groups) (ha : pattern.find? Part.isAnchor = some anchor) :
    input ≠ [] := by
  obtain ⟨i, hi⟩ := List.getElem?_of_mem (List.mem_of_find?_eq_some ha)
  have hlt : i < groups.length := by
    rw [h.length_eq]
    exact (List.getElem?_eq_some_iff.1 hi).1
  have htakes := h.takes i anchor groups[i] hi (List.getElem?_eq_getElem hlt)
  obtain ⟨w, hw, -⟩ := (Part.takes_iff_of_isAnchor (List.find?_some ha)).1 htakes
  have hmem : w ∈ groups.flatten :=
    List.mem_flatten.2 ⟨groups[i], List.getElem_mem hlt, by rw [hw]; exact List.mem_singleton_self w⟩
  rw [h.flatten_eq] at hmem
  exact List.ne_nil_of_mem hmem

/-- What a part takes meets its demands, if the parts after it cut what it leaves. -/
theorem takes_of_share {n : Nat} (hn : p.share later words = some n)
    (h : Cut later (words.drop n) following) :
    ¬ p.IsTagged ∧ p.Takes later (words.take n) following := by
  cases p with
  | word | oneOf =>
    obtain ⟨w, tail, rfl, ha, rfl⟩ := (Part.share_of_isAnchor rfl).1 hn
    exact ⟨Part.not_isTagged_of_isAnchor rfl, (Part.takes_iff_of_isAnchor rfl).2 ⟨w, rfl, ha⟩⟩
  | tagged => cases hn
  | gap size =>
    refine ⟨nofun, ?_⟩
    rw [Part.Takes]
    by_cases hs : size = 0
    · rw [Part.share, if_pos hs, Option.some.injEq] at hn
      rw [if_pos hs]
      subst hn
      cases ha : later.find? Part.isAnchor with
      | some anchor =>
        obtain ⟨htake, hdrop⟩ := Part.take_reach ha words
        have hne := h.ne_nil_of_anchor ha
        rw [hdrop] at h hne
        dsimp only
        rw [htake, h.flatten_eq]
        -- the gap has ended before a word, since the anchor has one
        have hstop := List.head_dropWhile_not (fun w => !anchor.admits w) hne
        exact ⟨fun w hw => by simpa using List.mem_takeWhile_imp hw,
          _, List.head?_eq_some_head hne, by simpa using hstop⟩
      | none =>
        have hnil : words.drop (Part.reach later words) = [] := by simp [Part.reach, ha]
        exact List.flatten_eq_nil_iff.1 (h.flatten_eq.trans hnil)
    · rw [Part.share, if_neg hs] at hn
      rw [if_neg hs]
      split at hn
      · cases hn
      · cases hn
        rw [List.length_take]
        omega

end Cut

variable {pattern : List Part} {input : List Word} {groups : List (List Word)}

theorem decompose_cons (p : Part) (later : List Part) (words : List Word) :
    decompose (p :: later) words = some groups ↔
      ∃ n following, p.share later words = some n ∧
        decompose later (words.drop n) = some following ∧ groups = words.take n :: following := by
  simp only [decompose, Option.bind_eq_bind, Option.bind_eq_some_iff, Option.pure_def,
    Option.some.injEq]
  grind

theorem decompose_eq_some_iff : decompose pattern input = some groups ↔ Cut pattern input groups := by
  induction pattern generalizing input groups with
  | nil =>
    cases input with
    | nil =>
      constructor
      · intro h
        cases h
        exact .nil
      · intro h
        rw [h.of_nil.2, decompose]
    | cons w rest =>
      constructor
      · intro h
        cases h
      · intro h
        cases h.of_nil.1
  | cons p later ih =>
    rw [decompose_cons]
    constructor
    · rintro ⟨n, following, hn, hlater, rfl⟩
      have hcut := ih.1 hlater
      obtain ⟨ht, htakes⟩ := hcut.takes_of_share hn
      have := hcut.cons ht htakes
      rwa [List.take_append_drop] at this
    · intro h
      obtain ⟨group, following, rest, rfl, rfl, ht, htakes, hcut⟩ := h.of_cons
      refine ⟨group.length, following, Part.share_of_takes ht htakes hcut.flatten_eq, ?_, ?_⟩
      · rw [List.drop_left]
        exact ih.2 hcut
      · rw [List.take_left]

/-- A pattern matches the inputs that can be cut as it demands, and there is one way to cut them. -/
theorem decompose_finds_cut (pattern : List Part) (input : List Word) :
    (∀ groups, decompose pattern input = some groups ↔ Cut pattern input groups) ∧
      (decompose pattern input = none ↔ ¬ ∃ groups, Cut pattern input groups) ∧
      ∀ groups groups', Cut pattern input groups → Cut pattern input groups' → groups = groups' := by
  refine ⟨fun groups => decompose_eq_some_iff, ?_, fun groups groups' h h' => ?_⟩
  · simp only [← decompose_eq_some_iff, ← Option.ne_none_iff_exists', not_not]
  · have := (decompose_eq_some_iff.2 h).symm.trans (decompose_eq_some_iff.2 h')
    exact Option.some.inj this

/-- A gap ends before the first word that its anchor admits, and the anchor may go on to another. -/
theorem decompose_finds_cut_twice :
    let pattern := [.gap 0, .gap 1, .word ⟨"MY"⟩, .gap 0, .oneOf [⟨"MOM"⟩, ⟨"DAD"⟩]]
    let input : List Word := [⟨"SEE"⟩, ⟨"my"⟩, ⟨"My"⟩, ⟨"dad"⟩]
    let groups : List (List Word) := [[⟨"SEE"⟩], [⟨"my"⟩], [⟨"My"⟩], [], [⟨"dad"⟩]]
    Cut pattern input groups ∧ ∀ groups', Cut pattern input groups' → groups' = groups := by
  intro pattern input groups
  obtain ⟨hsome, -, hunique⟩ := decompose_finds_cut pattern input
  have hcut : Cut pattern input groups := (hsome groups).1 (by decide +kernel)
  exact ⟨hcut, fun groups' h => hunique groups' groups h hcut⟩

end Dialogue
