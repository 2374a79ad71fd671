import Dialogue.Sentence
import Mathlib.Data.List.Basic

/-!
# Letters and their capitals

What the tables of upper-casing say of every character: it stands for itself, or it is spelt with
capitals (`Text.upper_eq_or`). A capital is a letter that stands for itself, and a character that is no
letter stands for itself too.
-/

namespace Dialogue

namespace Text

/-- A letter that stands for itself, and none of the two marks that mean something in a pattern. -/
structure IsCapital (c : Char) : Prop where
  upper : upper c = [c]
  isLetter : Sentence.isLetter c
  ne_star : c ≠ '*'
  ne_slash : c ≠ '/'

/-- Between these code points, ends included, lies nothing that a letter is spelt with in capitals. -/
def otherMarks : List (Nat × Nat) :=
  [(0, 0x2F), (0x3A, 0x3B), (0x3F, 0x3F), (0x61, 0x7A), (0x85, 0x85), (0xA0, 0xA0), (0x1680, 0x1680),
    (0x2000, 0x200A), (0x2028, 0x202F), (0x205F, 0x205F), (0x3000, 0x3000), (0xD800, 0xDFFF)]

/-- A code point that no mark and no small letter has. -/
def standsAlone (n : Nat) : Bool :=
  Nat.blt n 0x110000 && (otherMarks.all fun m => Nat.blt n m.1 || Nat.blt m.2 n) &&
    (expansions.all fun x => !Nat.beq x.1 n) && capitalRuns.all fun r => !r.covers n

namespace CapitalRun

variable {r : CapitalRun} {n first last step : Nat}

/-- No capital of the run is among the code points from `first` to `last` by `step`: they lie apart,
or they alternate. -/
def avoids (r : CapitalRun) (first last step : Nat) : Bool :=
  Nat.blt (r.image r.last) first || Nat.blt last r.capital ||
    (Nat.beq step 2 && (Nat.beq r.step 2 || Nat.beq r.first r.last) &&
      Nat.beq ((r.capital + first) % 2) 1)

theorem covers_iff : r.covers n ↔ r.first ≤ n ∧ n ≤ r.last ∧ (n - r.first) % r.step = 0 := by
  simp [covers, and_assoc]

theorem not_of_avoids (h : r.avoids first last step) (hn : r.covers n) :
    ¬ (first ≤ r.image n ∧ r.image n ≤ last ∧ (r.image n - first) % step = 0) := by
  obtain ⟨hfirst, hlast, hstep⟩ := covers_iff.1 hn
  rintro ⟨hle, hge, hmod⟩
  simp only [avoids, image, Bool.or_eq_true, Bool.and_eq_true, Nat.blt_eq, Nat.beq_eq] at h hle hge hmod
  rcases h with (h | h) | ⟨⟨rfl, hr⟩, hodd⟩
  · omega
  · omega
  · have heven : (n - r.first) % 2 = 0 := by
      rcases hr with hr | hr
      · rwa [hr] at hstep
      · rw [show n - r.first = 0 by omega]
    omega

end CapitalRun

-- The tables are checked run against run, not letter against letter, to keep the check short.

theorem avoids_capitalRuns :
    (capitalRuns.all fun r => capitalRuns.all fun q => r.avoids q.first q.last q.step) = true := by
  decide +kernel

theorem avoids_expansions :
    (capitalRuns.all fun r => expansions.all fun x => r.avoids x.1 x.1 1) = true := by
  decide +kernel

theorem avoids_otherMarks :
    (capitalRuns.all fun r =>
      Nat.blt (r.image r.last) 0x110000 && otherMarks.all fun m => r.avoids m.1 m.2 1) = true := by
  decide +kernel

theorem standsAlone_expansions :
    (expansions.all fun x => !x.2.isEmpty && x.2.all standsAlone) = true := by
  decide +kernel

theorem standsAlone_image {r : CapitalRun} {n : Nat} (hr : r ∈ capitalRuns) (hn : r.covers n) :
    standsAlone (r.image n) := by
  have hruns := List.all_eq_true.1 (List.all_eq_true.1 avoids_capitalRuns r hr)
  have hexp := List.all_eq_true.1 (List.all_eq_true.1 avoids_expansions r hr)
  have hmarks := List.all_eq_true.1 avoids_otherMarks r hr
  rw [Bool.and_eq_true, List.all_eq_true, Nat.blt_eq] at hmarks
  simp only [standsAlone, Bool.and_eq_true, List.all_eq_true, Bool.or_eq_true, Bool.not_eq_true',
    Nat.blt_eq]
  refine ⟨⟨⟨?_, fun m hm => ?_⟩, fun x hx => ?_⟩, fun q hq => ?_⟩
  · have hlast := (CapitalRun.covers_iff.1 hn).2.1
    have := hmarks.1
    simp only [CapitalRun.image] at this ⊢
    omega
  · have := CapitalRun.not_of_avoids (hmarks.2 m hm) hn
    omega
  · have := CapitalRun.not_of_avoids (hexp x hx) hn
    rw [Bool.eq_false_iff, ne_eq, Nat.beq_eq]
    omega
  · have := CapitalRun.not_of_avoids (hruns q hq) hn
    rwa [Bool.eq_false_iff, ne_eq, CapitalRun.covers_iff]

theorem toUpper_ascii : ∀ n < 0x80,
    (standsAlone n → (Char.ofNat n).toUpper = Char.ofNat n) ∧
      ((Char.ofNat n).toUpper = Char.ofNat n ∨ standsAlone (Char.ofNat n).toUpper.toNat) := by
  decide +kernel

theorem toNat_ofNat {n : Nat} (h : n.isValidChar) : (Char.ofNat n).toNat = n := by
  rw [Char.ofNat, dif_pos h]
  rfl

theorem lookup_eq_none {n : Nat} {l : List (Nat × List Nat)} (h : ∀ x ∈ l, Nat.beq x.1 n = false) :
    l.lookup n = none := by
  rw [List.lookup_eq_none_iff]
  intro x hx
  have hne : ¬ x.1 = n := fun heq => by simpa [heq] using h x hx
  simpa using Ne.symm hne

/-- What stands alone is a capital. -/
theorem isCapital_of_standsAlone {n : Nat} (h : standsAlone n) : IsCapital (Char.ofNat n) := by
  have hascii : n < 0x80 → (Char.ofNat n).toUpper = Char.ofNat n := fun hn => (toUpper_ascii n hn).1 h
  simp only [standsAlone, Bool.and_eq_true, List.all_eq_true, Bool.or_eq_true, Bool.not_eq_true',
    Nat.blt_eq] at h
  obtain ⟨⟨⟨hlt, hmarks⟩, hexp⟩, hruns⟩ := h
  simp only [otherMarks, List.mem_cons, List.not_mem_nil, or_false, forall_eq_or_imp, forall_eq]
    at hmarks
  have hn : (Char.ofNat n).toNat = n := toNat_ofNat (by unfold Nat.isValidChar; omega)
  have hne (c : Char) (hc : c.toNat ≠ n) : Char.ofNat n ≠ c := fun h => hc (h ▸ hn)
  refine ⟨?_, ?_, hne _ ?_, hne _ ?_⟩
  · rw [upper, hn]
    by_cases hsmall : n < 0x80
    · rw [if_pos hsmall, hascii hsmall]
    · rw [if_neg hsmall, lookup_eq_none hexp, List.find?_eq_none.2 fun r hr => by simp [hruns r hr]]
  · simp only [Sentence.isLetter, Sentence.isDropped, Sentence.isStop, isBlank, hn, Bool.and_eq_true,
      Bool.not_eq_true', Bool.or_eq_false_iff, Bool.and_eq_false_iff, decide_eq_false_iff_not,
      beq_eq_false_iff_ne]
    refine ⟨⟨⟨⟨⟨⟨?_, ?_⟩, ?_⟩, ?_⟩, ?_⟩, ?_⟩, ?_, ?_⟩
    · omega
    all_goals exact hne _ (by simp only [Char.reduceToNat]; omega)
  · simp only [Char.reduceToNat]; omega
  · simp only [Char.reduceToNat]; omega

/-- A character stands for itself, or it is spelt with capitals. -/
theorem upper_eq_or (c : Char) : upper c = [c] ∨ upper c ≠ [] ∧ ∀ d ∈ upper c, IsCapital d := by
  unfold upper
  split
  · rename_i hc
    rcases (toUpper_ascii _ hc).2 with h | h
    · left; rw [Char.ofNat_toNat] at h; rw [h]
    · right
      rw [Char.ofNat_toNat] at h
      refine ⟨nofun, fun d hd => ?_⟩
      obtain rfl := List.mem_singleton.1 hd
      rw [← Char.ofNat_toNat c.toUpper]
      exact isCapital_of_standsAlone h
  · split
    · rename_i spelling hs
      right
      obtain ⟨l₁, l₂, hl, -⟩ := List.lookup_eq_some_iff.1 hs
      have hx := List.all_eq_true.1 standsAlone_expansions (c.toNat, spelling) (by rw [hl]; simp)
      rw [Bool.and_eq_true, List.all_eq_true] at hx
      refine ⟨by simpa using hx.1, fun d hd => ?_⟩
      obtain ⟨n, hn, rfl⟩ := List.mem_map.1 hd
      exact isCapital_of_standsAlone (hx.2 n hn)
    · split
      · rename_i r hr
        right
        refine ⟨nofun, fun d hd => ?_⟩
        obtain rfl := List.mem_singleton.1 hd
        exact isCapital_of_standsAlone
          (standsAlone_image (List.mem_of_find?_eq_some hr) (by simpa using List.find?_some hr))
      · left; rfl

/-- The code points of the characters that are no letters. -/
def separators : List Nat :=
  [0x9, 0xA, 0xB, 0xC, 0xD, 0x20, 0x21, 0x22, 0x2C, 0x2E, 0x3A, 0x3B, 0x3F, 0x85, 0xA0, 0x1680,
    0x2000, 0x2001, 0x2002, 0x2003, 0x2004, 0x2005, 0x2006, 0x2007, 0x2008, 0x2009, 0x200A, 0x2028,
    0x2029, 0x202F, 0x205F, 0x3000]

theorem upper_separators : ∀ n ∈ separators, upper (Char.ofNat n) = [Char.ofNat n] := by
  decide +kernel

theorem toNat_mem_separators {c : Char} (h : Sentence.isLetter c = false) : c.toNat ∈ separators := by
  have hmark (d : Char) : c == d ↔ c.toNat = d.toNat := by rw [beq_iff_eq, Char.toNat_inj]
  simp only [Sentence.isLetter, Sentence.isDropped, Sentence.isStop, isBlank, Bool.and_eq_false_iff,
    Bool.not_eq_false', Bool.or_eq_true, Bool.and_eq_true, decide_eq_true_eq, hmark, Char.reduceToNat,
    beq_iff_eq] at h
  simp only [separators, List.mem_cons, List.not_mem_nil, or_false]
  omega

/-- What is no letter stands for itself. -/
theorem upper_of_not_isLetter {c : Char} (h : Sentence.isLetter c = false) : upper c = [c] := by
  have hc := upper_separators _ (toNat_mem_separators h)
  rwa [Char.ofNat_toNat] at hc

/-- A letter is spelt with letters. -/
theorem isLetter_of_mem_upper {c d : Char} (h : Sentence.isLetter c) (hd : d ∈ upper c) :
    Sentence.isLetter d := by
  rcases upper_eq_or c with hc | ⟨-, hc⟩
  · rw [hc, List.mem_singleton] at hd
    rwa [hd]
  · exact (hc d hd).isLetter

theorem upper_ne_nil (c : Char) : upper c ≠ [] := by
  rcases upper_eq_or c with hc | ⟨hc, -⟩
  · rw [hc]; nofun
  · exact hc

end Text

end Dialogue
