import Dialogue.Proofs.Decomposition
import Mathlib.Data.List.Forall2

/-!
# Greed on alternating patterns

Anchors with gaps of any size around them ask for words in a certain order and for nothing else. A gap
commits itself to the first word that its anchor admits (`cut_alternating_cons`). Nothing is lost by
that: another choice of words has its first word there or later, and the others behind it
(`Placed.uncons`), so that they are still to be found in the words which the gap has left.
-/

namespace Dialogue

/-- Anchors with gaps of any size before, between and after them. -/
def alternating (anchors : List Part) : List Part :=
  .gap 0 :: anchors.flatMap fun anchor => [anchor, .gap 0]

/-- The positions, in ascending order, of words that satisfy the anchors one by one. -/
structure Placed (anchors : List Part) (input : List Word) (positions : List Nat) : Prop where
  ascending : positions.Pairwise (· < ·)
  admitted : List.Forall₂ (fun anchor i => ∃ w, input[i]? = some w ∧ anchor.admits w) anchors positions

/-- The position in the input where a group begins, which is behind the groups before it. -/
def groupStart (groups : List (List Word)) (k : Nat) : Nat := (groups.take k).flatten.length

/-- The positions where the anchors of an alternating pattern are captured. -/
def anchorStarts (groups : List (List Word)) (anchors : List Part) : List Nat :=
  (List.range anchors.length).map fun j => groupStart groups (2 * j + 1)

variable {anchor : Part} {anchors pattern : List Part} {input before after : List Word} {w : Word}
  {groups following : List (List Word)} {positions : List Nat}

theorem alternating_cons (anchor : Part) (anchors : List Part) :
    alternating (anchor :: anchors) = .gap 0 :: anchor :: alternating anchors := rfl

theorem getElem?_alternating (anchors : List Part) (j : Nat) :
    (alternating anchors)[2 * j + 1]? = anchors[j]? := by
  induction anchors generalizing j with
  | nil => simp [alternating]
  | cons anchor anchors ih =>
    rw [alternating_cons]
    cases j with
    | zero => rfl
    | succ j =>
      rw [show 2 * (j + 1) + 1 = 2 * j + 1 + 1 + 1 by omega, List.getElem?_cons_succ,
        List.getElem?_cons_succ, List.getElem?_cons_succ, ih]

/-! ### Where the groups are -/

theorem anchorStarts_cons (before : List Word) (w : Word) (following : List (List Word)) (anchor : Part)
    (anchors : List Part) :
    anchorStarts (before :: [w] :: following) (anchor :: anchors) =
      before.length :: (anchorStarts following anchors).map (· + (before.length + 1)) := by
  have hstart (j : Nat) : groupStart (before :: [w] :: following) (2 * (j + 1) + 1) =
      groupStart following (2 * j + 1) + (before.length + 1) := by
    rw [show 2 * (j + 1) + 1 = 2 * j + 1 + 1 + 1 by omega]
    simp only [groupStart, List.take_succ_cons, List.flatten_cons, List.length_append, List.length_cons,
      List.length_nil]
    omega
  rw [anchorStarts, List.length_cons, List.range_succ_eq_map, List.map_cons, List.map_map]
  simp only [anchorStarts, List.map_map]
  refine congrArg₂ _ ?_ (List.map_congr_left fun j _ => hstart j)
  simp [groupStart]

/-- An anchor captures the word where its group begins. -/
theorem Cut.captures (h : Cut pattern input groups) {k : Nat} (hk : pattern[k]? = some anchor)
    (ha : anchor.isAnchor) :
    ∃ w, groups[k]? = some [w] ∧ input[groupStart groups k]? = some w ∧ anchor.admits w := by
  have hlt : k < groups.length := by
    rw [h.length_eq]
    exact (List.getElem?_eq_some_iff.1 hk).1
  have hgroup := List.getElem?_eq_getElem hlt
  obtain ⟨w, hw, hadmits⟩ := (Part.takes_iff_of_isAnchor ha).1 (h.takes k anchor _ hk hgroup)
  rw [hw] at hgroup
  refine ⟨w, hgroup, ?_, hadmits⟩
  have hsplit : groups = groups.take k ++ [w] :: groups.drop (k + 1) := by
    rw [← hw, List.getElem_cons_drop, List.take_append_drop]
  have hinput : input = (groups.take k).flatten ++ w :: (groups.drop (k + 1)).flatten := by
    rw [← h.flatten_eq]
    conv_lhs => rw [hsplit]
    simp
  rw [hinput, groupStart, List.getElem?_append_right (Nat.le_refl _), Nat.sub_self]
  rfl

/-! ### Where the pattern matches -/

theorem not_isTagged_gap (size : UInt32) : ¬ (Part.gap size).IsTagged := by
  rintro ⟨ws, h⟩
  cases h

theorem cut_alternating_nil : Cut (alternating []) input groups ↔ groups = [input] := by
  constructor
  · intro h
    obtain ⟨group, following, rest, rfl, rfl, -, -, hrest⟩ := h.of_cons
    obtain ⟨rfl, rfl⟩ := hrest.of_nil
    rw [List.append_nil]
  · rintro rfl
    have htakes : (Part.gap 0).Takes [] input [] := by simp [Part.Takes]
    have hcut := Cut.nil.cons (not_isTagged_gap 0) htakes
    rwa [List.append_nil] at hcut

/-- The first gap ends before the first word that the first anchor admits. -/
theorem cut_alternating_cons (ha : anchor.isAnchor) :
    Cut (alternating (anchor :: anchors)) input groups ↔
      ∃ before w after following, input = before ++ w :: after ∧ groups = before :: [w] :: following ∧
        (∀ v ∈ before, ¬ anchor.admits v) ∧ anchor.admits w ∧
        Cut (alternating anchors) after following := by
  rw [alternating_cons]
  have hfind : (anchor :: alternating anchors).find? Part.isAnchor = some anchor :=
    List.find?_cons_of_pos ha
  constructor
  · intro h
    obtain ⟨before, following', rest, rfl, rfl, -, hgap, hrest⟩ := h.of_cons
    obtain ⟨group, following, after, rfl, rfl, -, hanchor, hafter⟩ := hrest.of_cons
    obtain ⟨w, rfl, hw⟩ := (Part.takes_iff_of_isAnchor ha).1 hanchor
    rw [Part.Takes, if_pos rfl, hfind] at hgap
    exact ⟨before, w, after, following, rfl, rfl, hgap.1, hw, hafter⟩
  · rintro ⟨before, w, after, following, rfl, rfl, hbefore, hw, hafter⟩
    have hanchor : anchor.Takes (alternating anchors) [w] following :=
      (Part.takes_iff_of_isAnchor ha).2 ⟨w, rfl, hw⟩
    have hrest := hafter.cons (Part.not_isTagged_of_isAnchor ha) hanchor
    have hgap : (Part.gap 0).Takes (anchor :: alternating anchors) before ([w] :: following) := by
      rw [Part.Takes, if_pos rfl, hfind]
      exact ⟨hbefore, w, rfl, hw⟩
    exact hrest.cons (not_isTagged_gap 0) hgap

theorem getElem?_behind (before : List Word) (w : Word) (after : List Word) (j : Nat) :
    (before ++ w :: after)[j + (before.length + 1)]? = after[j]? := by
  have hj : j + (before.length + 1) - before.length = j + 1 := by omega
  rw [List.getElem?_append_right (by omega), hj, List.getElem?_cons_succ]

namespace Placed

theorem nil (input : List Word) : Placed [] input [] := ⟨.nil, .nil⟩

theorem cons (hw : anchor.admits w) (h : Placed anchors after positions) :
    Placed (anchor :: anchors) (before ++ w :: after)
      (before.length :: positions.map (· + (before.length + 1))) := by
  refine ⟨List.pairwise_cons.2 ⟨?_, ?_⟩, .cons ⟨w, by simp, hw⟩ ?_⟩
  · intro i hi
    obtain ⟨j, -, rfl⟩ := List.mem_map.1 hi
    omega
  · rw [List.pairwise_map]
    exact h.ascending.imp fun hlt => by omega
  · rw [List.forall₂_map_right_iff]
    refine h.admitted.imp fun a j hj => ?_
    rwa [getElem?_behind]

theorem exists_first (h : Placed (anchor :: anchors) input positions) :
    ∃ before w after, input = before ++ w :: after ∧ (∀ v ∈ before, ¬ anchor.admits v) ∧
      anchor.admits w := by
  rcases h.admitted with _ | ⟨⟨v, hv, hadmits⟩, -⟩
  have hsome : (input.find? fun w => anchor.admits w).isSome :=
    List.find?_isSome.2 ⟨v, List.mem_of_getElem? hv, hadmits⟩
  obtain ⟨w, hw⟩ := Option.isSome_iff_exists.1 hsome
  obtain ⟨hadmits, before, after, rfl, hbefore⟩ := List.find?_eq_some_iff_append.1 hw
  exact ⟨before, w, after, rfl, fun u hu => by simpa using hbefore u hu, hadmits⟩

/-- No choice of words has its first word before the first that its anchor admits, and all others are
behind that. -/
theorem uncons (h : Placed (anchor :: anchors) (before ++ w :: after) positions)
    (hbefore : ∀ v ∈ before, ¬ anchor.admits v) :
    ∃ i others, positions = i :: others.map (· + (before.length + 1)) ∧ before.length ≤ i ∧
      Placed anchors after others := by
  obtain ⟨hasc, hadm⟩ := h
  rcases hadm with _ | @⟨_, i, _, rest, ⟨v, hv, hadmits⟩, hrest⟩
  obtain ⟨hlater, hasc⟩ := List.pairwise_cons.1 hasc
  have hi : before.length ≤ i := by
    by_contra hlt
    rw [List.getElem?_append_left (by omega)] at hv
    exact hbefore v (List.mem_of_getElem? hv) hadmits
  obtain ⟨others, rfl⟩ : ∃ others : List Nat, rest = others.map (· + (before.length + 1)) := by
    refine ⟨rest.map (· - (before.length + 1)), ?_⟩
    rw [List.map_map]
    refine ((List.map_congr_left fun j hj => ?_).trans (List.map_id rest)).symm
    have := hlater j hj
    show j - (before.length + 1) + (before.length + 1) = j
    omega
  refine ⟨i, others, rfl, hi, ?_, ?_⟩
  · rw [List.pairwise_map] at hasc
    exact hasc.imp fun hlt => by omega
  · rw [List.forall₂_map_right_iff] at hrest
    refine hrest.imp fun a j hj => ?_
    rwa [getElem?_behind] at hj

end Placed

/-! ### All anchors -/

theorem placed_of_cut (ha : ∀ a ∈ anchors, a.isAnchor) (h : Cut (alternating anchors) input groups) :
    Placed anchors input (anchorStarts groups anchors) := by
  induction anchors generalizing input groups with
  | nil => exact .nil input
  | cons anchor anchors ih =>
    obtain ⟨hfirst, hothers⟩ := List.forall_mem_cons.1 ha
    obtain ⟨before, w, after, following, rfl, rfl, -, hw, hafter⟩ := (cut_alternating_cons hfirst).1 h
    rw [anchorStarts_cons]
    exact (ih hothers hafter).cons hw

theorem exists_cut_of_placed (ha : ∀ a ∈ anchors, a.isAnchor) (h : Placed anchors input positions) :
    ∃ groups, Cut (alternating anchors) input groups := by
  induction anchors generalizing input positions with
  | nil => exact ⟨[input], cut_alternating_nil.2 rfl⟩
  | cons anchor anchors ih =>
    obtain ⟨hfirst, hothers⟩ := List.forall_mem_cons.1 ha
    obtain ⟨before, w, after, rfl, hbefore, hw⟩ := h.exists_first
    obtain ⟨i, others, -, -, hplaced⟩ := h.uncons hbefore
    obtain ⟨following, hafter⟩ := ih hothers hplaced
    have hcut := (cut_alternating_cons hfirst).2
      ⟨before, w, after, following, rfl, rfl, hbefore, hw, hafter⟩
    exact ⟨_, hcut⟩

theorem anchorStarts_le (ha : ∀ a ∈ anchors, a.isAnchor) (h : Cut (alternating anchors) input groups)
    (hp : Placed anchors input positions) :
    List.Forall₂ (· ≤ ·) (anchorStarts groups anchors) positions := by
  induction anchors generalizing input groups positions with
  | nil =>
    obtain ⟨-, hadm⟩ := hp
    cases hadm
    exact .nil
  | cons anchor anchors ih =>
    obtain ⟨hfirst, hothers⟩ := List.forall_mem_cons.1 ha
    obtain ⟨before, w, after, following, rfl, rfl, hbefore, -, hafter⟩ := (cut_alternating_cons hfirst).1 h
    obtain ⟨i, others, rfl, hi, hplaced⟩ := hp.uncons hbefore
    rw [anchorStarts_cons]
    refine .cons hi ?_
    rw [List.forall₂_map_left_iff, List.forall₂_map_right_iff]
    exact (ih hothers hafter hplaced).imp fun j k hjk => by omega

/-- Anchors with gaps around them match where their words can be found in order, and they capture the
first words that can be chosen. -/
theorem greed_loses_nothing (anchors : List Part) (ha : ∀ a ∈ anchors, a.isAnchor) (input : List Word) :
    ((decompose (alternating anchors) input).isSome ↔ ∃ positions, Placed anchors input positions) ∧
    ∀ groups, decompose (alternating anchors) input = some groups →
      (∀ (j : Nat) (anchor : Part), anchors[j]? = some anchor → ∃ w, groups[2 * j + 1]? = some [w] ∧
        (anchorStarts groups anchors)[j]?.bind (input[·]?) = some w ∧ anchor.admits w) ∧
      Placed anchors input (anchorStarts groups anchors) ∧
      ∀ positions, Placed anchors input positions →
        List.Forall₂ (· ≤ ·) (anchorStarts groups anchors) positions := by
  refine ⟨?_, fun groups h => ?_⟩
  · rw [Option.isSome_iff_exists]
    simp only [decompose_eq_some_iff]
    constructor
    · rintro ⟨groups, h⟩
      exact ⟨_, placed_of_cut ha h⟩
    · rintro ⟨positions, hp⟩
      exact exists_cut_of_placed ha hp
  · have hcut := decompose_eq_some_iff.1 h
    refine ⟨fun j anchor hj => ?_, placed_of_cut ha hcut, fun positions hp => anchorStarts_le ha hcut hp⟩
    have hlt := (List.getElem?_eq_some_iff.1 hj).1
    have hk : (alternating anchors)[2 * j + 1]? = some anchor := by rw [getElem?_alternating, hj]
    obtain ⟨w, hgroup, hw, hadmits⟩ := hcut.captures hk (ha anchor (List.mem_of_getElem? hj))
    refine ⟨w, hgroup, ?_, hadmits⟩
    rw [anchorStarts, List.getElem?_map, List.getElem?_range hlt]
    exact hw

/-- The first two anchors both admit the second word, and the first of them has it. -/
theorem greed_loses_nothing_contended :
    let anchors := [.oneOf [⟨"MOM"⟩, ⟨"DAD"⟩], .word ⟨"DAD"⟩, .oneOf [⟨"DAD"⟩, ⟨"SON"⟩]]
    let input : List Word := [⟨"my"⟩, ⟨"Dad"⟩, ⟨"mom"⟩, ⟨"dad"⟩, ⟨"DAD"⟩, ⟨"son"⟩]
    let groups : List (List Word) := [[⟨"my"⟩], [⟨"Dad"⟩], [⟨"mom"⟩], [⟨"dad"⟩], [], [⟨"DAD"⟩], [⟨"son"⟩]]
    (∀ a ∈ anchors, a.isAnchor) ∧ Placed anchors input [2, 3, 5] ∧
      decompose (alternating anchors) input = some groups ∧ anchorStarts groups anchors = [1, 3, 4] ∧
      List.Forall₂ (· ≤ ·) [1, 3, 4] [2, 3, 5] := by
  intro anchors input groups
  have ha : ∀ a ∈ anchors, a.isAnchor := by decide
  have hplaced : Placed anchors input [2, 3, 5] := by
    refine ⟨by decide, ?_⟩
    exact .cons ⟨⟨"mom"⟩, rfl, by decide +kernel⟩ (.cons ⟨⟨"dad"⟩, rfl, by decide +kernel⟩
      (.cons ⟨⟨"son"⟩, rfl, by decide +kernel⟩ .nil))
  have hgroups : decompose (alternating anchors) input = some groups := by decide +kernel
  obtain ⟨-, hall⟩ := greed_loses_nothing anchors ha input
  obtain ⟨-, -, hleast⟩ := hall groups hgroups
  exact ⟨ha, hplaced, hgroups, rfl, hleast _ hplaced⟩

end Dialogue
