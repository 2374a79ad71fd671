import Dialogue.Proofs.Decomposition
import Dialogue.Template
import Mathlib.Data.List.Forall2

/-!
# What a template is filled with

`Filler.Expands` says which words a filler stands for. Every filler stands for some, and for one list of
words only (`Filler.expands_iff`), so a template says what its fillers say, one after the other. The
groups of an input, each once and in order, say the input again.
-/

namespace Dialogue

/-- The words that a filler stands for when a template is filled with the groups. -/
inductive Filler.Expands (groups : List (List Word)) (placeholder : String) : Filler → List Word → Prop
  | word (w : Word) : Expands groups placeholder (.word w) [w]
  /-- The first group has the number 1. -/
  | group {i : Nat} {group : List Word} (h : groups[i]? = some group) :
      Expands groups placeholder (.group (i + 1)) group
  /-- A number without a group. -/
  | missing {n : Nat} (h : n = 0 ∨ groups.length < n) :
      Expands groups placeholder (.group n) [⟨placeholder⟩]

variable {f : Filler} {template : List Filler} {pattern : List Part} {groups : List (List Word)}
  {input words : List Word} {w : Word} {placeholder : String}

namespace Filler

theorem expand_of_missing {n : Nat} (h : n = 0 ∨ groups.length < n) :
    (group n).expand groups placeholder = [⟨placeholder⟩] := by
  cases n with
  | zero => rfl
  | succ i =>
    have hi : groups.length ≤ i := by omega
    rw [expand, List.getElem?_eq_none hi, Option.getD_none]

theorem expand_of_getElem? {i : Nat} {ws : List Word} (h : groups[i]? = some ws) :
    (group (i + 1)).expand groups placeholder = ws := by
  rw [expand, h, Option.getD_some]

theorem expands_iff : f.Expands groups placeholder words ↔ f.expand groups placeholder = words := by
  constructor
  · intro h
    cases h with
    | word w => rfl
    | group h => exact expand_of_getElem? h
    | missing h => exact expand_of_missing h
  · rintro rfl
    rcases f with w | _ | i
    · exact .word w
    · exact .missing (.inl rfl)
    · cases hi : groups[i]? with
      | some ws =>
        rw [expand_of_getElem? hi]
        exact .group hi
      | none =>
        have hout : i + 1 = 0 ∨ groups.length < i + 1 := by
          have := List.getElem?_eq_none_iff.1 hi
          omega
        rw [expand_of_missing hout]
        exact .missing hout

/-- A filler that refers to no missing group does not say the placeholder. -/
theorem expand_of_inRange (hf : ∀ n, f = group n → 1 ≤ n ∧ n ≤ groups.length) :
    (∀ placeholder', f.expand groups placeholder' = f.expand groups placeholder) ∧
      ∀ w ∈ f.expand groups placeholder, f = .word w ∨ w ∈ groups.flatten := by
  have hexp := expands_iff.2 (rfl : f.expand groups placeholder = _)
  generalize f.expand groups placeholder = ws at hexp
  cases hexp with
  | word v =>
    refine ⟨fun _ => rfl, fun w hw => .inl ?_⟩
    rw [List.mem_singleton.1 hw]
  | group h =>
    refine ⟨fun _ => expand_of_getElem? h, fun w hw => .inr ?_⟩
    exact List.mem_flatten.2 ⟨ws, List.mem_of_getElem? h, hw⟩
  | missing h =>
    have := hf _ rfl
    omega

end Filler

theorem reassemble_eq_iff : reassemble template groups placeholder = words ↔
    ∃ parts, List.Forall₂ (Filler.Expands groups placeholder) template parts ∧ parts.flatten = words := by
  have hparts (parts : List (List Word)) :
      List.Forall₂ (Filler.Expands groups placeholder) template parts ↔
        template.map (Filler.expand groups placeholder) = parts := by
    have heq : Filler.Expands groups placeholder = fun f ws => f.expand groups placeholder = ws := by
      funext f ws
      exact propext Filler.expands_iff
    rw [heq, ← List.forall₂_map_left_iff (R := Eq), List.forall₂_eq_eq_eq]
  simp only [hparts, exists_eq_left', reassemble, List.flatMap_def]

theorem reassemble_append (t u : List Filler) (groups : List (List Word)) (placeholder : String) :
    reassemble (t ++ u) groups placeholder =
      reassemble t groups placeholder ++ reassemble u groups placeholder :=
  List.flatMap_append

theorem reassemble_groups (groups : List (List Word)) (placeholder : String) :
    reassemble ((List.range groups.length).map fun i => .group (i + 1)) groups placeholder =
      groups.flatten := by
  have hgroups : (List.range groups.length).map (fun i => groups[i]?.getD [⟨placeholder⟩]) = groups := by
    refine List.ext_getElem (by simp) fun i hi hi' => ?_
    simp [List.getElem?_eq_getElem hi']
  rw [reassemble, List.flatMap_map, List.flatMap_def]
  exact congrArg List.flatten hgroups

/-- A template whose numbers all have a group says no placeholder: only its own words, and those of the
groups. -/
theorem reassemble_of_inRange (ht : ∀ n, .group n ∈ template → 1 ≤ n ∧ n ≤ groups.length) :
    (∀ placeholder', reassemble template groups placeholder' = reassemble template groups placeholder) ∧
      ∀ w ∈ reassemble template groups placeholder, .word w ∈ template ∨ w ∈ groups.flatten := by
  have hfiller (f : Filler) (hf : f ∈ template) :
      (∀ placeholder', f.expand groups placeholder' = f.expand groups placeholder) ∧
        ∀ w ∈ f.expand groups placeholder, f = .word w ∨ w ∈ groups.flatten := by
    apply Filler.expand_of_inRange
    intro n hn
    exact ht n (hn ▸ hf)
  constructor
  · intro placeholder'
    exact List.flatMap_congr fun f hf => (hfiller f hf).1 placeholder'
  · intro w hw
    obtain ⟨f, hf, hw⟩ := List.mem_flatMap.1 hw
    rcases (hfiller f hf).2 w hw with rfl | hgroup
    · exact .inl hf
    · exact .inr hgroup

/-- Each filler is filled in its place. So the groups of a decomposed input are the input again, and if
all numbers of a template have a group then no placeholder is said. -/
theorem reassemble_undoes_decompose (placeholder : String) :
    (∀ pattern input groups, decompose pattern input = some groups →
      reassemble ((List.range pattern.length).map fun i => .group (i + 1)) groups placeholder = input ∧
      ∀ template, (∀ n, .group n ∈ template → 1 ≤ n ∧ n ≤ pattern.length) →
        (∀ placeholder',
          reassemble template groups placeholder' = reassemble template groups placeholder) ∧
        ∀ w ∈ reassemble template groups placeholder, .word w ∈ template ∨ w ∈ input) ∧
    (∀ template groups words, reassemble template groups placeholder = words ↔
      ∃ parts, List.Forall₂ (Filler.Expands groups placeholder) template parts ∧ parts.flatten = words) ∧
    ∀ t u groups, reassemble (t ++ u) groups placeholder =
      reassemble t groups placeholder ++ reassemble u groups placeholder := by
  refine ⟨fun pattern input groups h => ?_, fun _ _ _ => reassemble_eq_iff,
    fun t u groups => reassemble_append t u groups placeholder⟩
  have hcut := decompose_eq_some_iff.1 h
  rw [← hcut.length_eq, ← hcut.flatten_eq]
  exact ⟨reassemble_groups groups placeholder, fun template ht => reassemble_of_inRange ht⟩

/-- A group without words is no missing group. -/
theorem reassemble_undoes_decompose_you :
    let pattern := [.gap 0, .word ⟨"YOU"⟩, .gap 0]
    let input : List Word := [⟨"you"⟩, ⟨"hate"⟩, ⟨"me"⟩]
    let groups : List (List Word) := [[], [⟨"you"⟩], [⟨"hate"⟩, ⟨"me"⟩]]
    let template : List Filler := [.group 1, .word ⟨"WHY"⟩, .group 3]
    decompose pattern input = some groups ∧
      (∀ n, .group n ∈ template → 1 ≤ n ∧ n ≤ pattern.length) ∧
      reassemble [.group 1, .group 2, .group 3] groups "?????" = input ∧
      ∀ placeholder, reassemble template groups placeholder = [⟨"WHY"⟩, ⟨"hate"⟩, ⟨"me"⟩] := by
  intro pattern input groups template
  have hgroups : decompose pattern input = some groups := by decide +kernel
  have hrange : ∀ n, .group n ∈ template → 1 ≤ n ∧ n ≤ pattern.length := by
    intro n hn
    simp only [template, List.mem_cons, Filler.group.injEq, reduceCtorEq, List.not_mem_nil, or_false,
      false_or] at hn
    show 1 ≤ n ∧ n ≤ 3
    omega
  obtain ⟨hback, htemplate⟩ := (reassemble_undoes_decompose "?????").1 pattern input groups hgroups
  exact ⟨hgroups, hrange, hback, (htemplate template hrange).1⟩

end Dialogue
