import Mathlib
import Dialogue.Word.Hash

/-!
# The hash as a polynomial

The arithmetic of the hash wraps around, and a step of it is `31 * acc + unit` modulo `2 ^ 32` all the same
(`hashStep_modEq`). So by induction on the code units, the hash is the number that has them as its digits
to the base 31, of which the mask keeps the lowest bits (`hash_eq_polynomial`). Nothing but these units is
looked at, which equal words share.
-/

namespace Dialogue

theorem Text.units_lt {c : Char} {u : Nat} (h : u ∈ units c) : u < 2 ^ 16 := by
  have hc : c.toNat < 0x110000 := by
    rcases c.valid with hc | ⟨-, hc⟩
    · exact Nat.lt_trans hc (by decide)
    · exact hc
  dsimp only [units] at h
  split at h
  · rw [List.mem_singleton] at h
    omega
  · rcases List.mem_cons.1 h with rfl | h
    · omega
    · rw [List.mem_singleton] at h
      omega

namespace Word

variable {a b w : Word} {bits : Nat}

/-- The UTF-16 code units of a word in capitals. -/
def units (w : Word) : List Nat := w.folded.flatMap Text.units

/-- The number that has the units as its digits to the base 31. -/
def polynomial (us : List Nat) : Nat := ∑ i : Fin us.length, us[i] * 31 ^ (us.length - 1 - i)

theorem polynomial_nil : polynomial [] = 0 := rfl

theorem polynomial_cons (u : Nat) (us : List Nat) :
    polynomial (u :: us) = u * 31 ^ us.length + polynomial us := by
  have hlast : ∀ i : Fin us.length, us.length + 1 - 1 - (i + 1) = us.length - 1 - i := fun i => by omega
  simp only [polynomial, List.length_cons, Fin.sum_univ_succ, Fin.getElem_fin, Fin.val_succ, hlast]
  rfl

/-! ### Steps -/

theorem hashStep_modEq (acc : Int32) (u : Nat) :
    (hashStep acc u).toUInt32.toNat ≡ 31 * acc.toUInt32.toNat + u [MOD 2 ^ 32] := by
  have hlt := acc.toUInt32.toNat_lt
  have hshift : (acc <<< 5).toUInt32.toNat = 32 * acc.toUInt32.toNat % 2 ^ 32 := by
    show (acc.toUInt32 <<< 5).toNat = _
    rw [UInt32.toNat_shiftLeft, Nat.shiftLeft_eq, Nat.mul_comm]
    rfl
  have hunit : (Int32.ofNat u).toUInt32.toNat = u % 2 ^ 32 := UInt32.toNat_ofNat'
  rw [hashStep, Int32.toUInt32_add, Int32.toUInt32_sub, UInt32.toNat_add, UInt32.toNat_sub, hshift, hunit,
    Nat.ModEq]
  omega

theorem foldl_hashStep_modEq (us : List Nat) (acc : Int32) :
    (us.foldl hashStep acc).toUInt32.toNat ≡
      acc.toUInt32.toNat * 31 ^ us.length + polynomial us [MOD 2 ^ 32] := by
  induction us generalizing acc with
  | nil => simp [polynomial_nil, Nat.ModEq]
  | cons u us ih =>
    have hstep := ((hashStep_modEq acc u).mul_right (31 ^ us.length)).add_right (polynomial us)
    have hdigits : (31 * acc.toUInt32.toNat + u) * 31 ^ us.length + polynomial us =
        acc.toUInt32.toNat * 31 ^ (u :: us).length + polynomial (u :: us) := by
      rw [polynomial_cons, List.length_cons]
      ring
    rw [← hdigits]
    exact (ih (hashStep acc u)).trans hstep

/-! ### The mask -/

theorem toNat_hashMask (bits : Nat) : (hashMask bits).toNat = 2 ^ min bits 32 - 1 := by
  unfold hashMask
  split
  · rename_i h
    rw [Nat.min_eq_right h]
    rfl
  · rename_i h
    have hlt : (2 : Nat) ^ bits < 2 ^ 32 := Nat.pow_lt_pow_right (by decide) (by omega)
    have hs : ((1 : UInt32) <<< bits.toUInt32).toNat = 2 ^ bits := by
      have hb : bits.toUInt32.toNat = bits := Nat.mod_eq_of_lt (by omega)
      rw [UInt32.toNat_shiftLeft, hb, Nat.mod_eq_of_lt (show bits < 32 by omega), Nat.shiftLeft_eq]
      simpa using Nat.mod_eq_of_lt hlt
    have hle : (1 : UInt32) ≤ (1 : UInt32) <<< bits.toUInt32 := by
      rw [UInt32.le_iff_toNat_le, hs]
      exact Nat.two_pow_pos bits
    rw [UInt32.toNat_sub_of_le _ _ hle, hs, Nat.min_eq_left (by omega)]
    rfl

theorem hash_eq_polynomial (w : Word) (bits : Nat) :
    w.hash bits = polynomial w.units % 2 ^ min bits 32 := by
  have hfold : (w.units.foldl hashStep 0).toUInt32.toNat ≡ polynomial w.units [MOD 2 ^ 32] := by
    have h := foldl_hashStep_modEq w.units 0
    rwa [show (0 : Int32).toUInt32.toNat = 0 from rfl, Nat.zero_mul, Nat.zero_add] at h
  show ((w.units.foldl hashStep 0).toUInt32 &&& hashMask bits).toNat = _
  rw [UInt32.toNat_and, toNat_hashMask, Nat.and_two_pow_sub_one_eq_mod]
  exact hfold.of_dvd (Nat.pow_dvd_pow 2 (Nat.min_le_right bits 32))

theorem hash_lt (w : Word) (bits : Nat) : w.hash bits < 2 ^ bits := by
  rw [hash_eq_polynomial]
  have hpos : 0 < 2 ^ min bits 32 := Nat.two_pow_pos _
  exact Nat.lt_of_lt_of_le (Nat.mod_lt _ hpos) (Nat.pow_le_pow_right (by decide) (Nat.min_le_left bits 32))

theorem hash_eq_of_equiv (h : a ≈ b) (bits : Nat) : a.hash bits = b.hash bits := by
  rw [hash, hash, equiv_iff.1 h]

/-- A hash is a polynomial in the code units, reduced to some bits, and the bits of a narrower hash are the
lowest ones of a wider hash. Equal words hash alike. -/
theorem hash_is_polynomial (w : Word) :
    (∀ bits, w.hash bits =
      (∑ i : Fin w.units.length, w.units[i] * 31 ^ (w.units.length - 1 - i)) % 2 ^ min bits 32) ∧
    (∀ u ∈ w.units, u < 2 ^ 16) ∧
    (∀ b c, b ≤ c → c ≤ 32 → w.hash b = w.hash c % 2 ^ b) ∧
    (∀ bits, w.hash bits < 2 ^ bits) ∧
    ∀ v, v ≈ w → ∀ bits, v.hash bits = w.hash bits := by
  refine ⟨w.hash_eq_polynomial, fun u hu => ?_, fun b c hbc hc => ?_, w.hash_lt,
    fun v hv => hash_eq_of_equiv hv⟩
  · obtain ⟨c, -, hu⟩ := List.mem_flatMap.1 hu
    exact Text.units_lt hu
  · have hdvd : 2 ^ b ∣ 2 ^ c := Nat.pow_dvd_pow 2 hbc
    rw [hash_eq_polynomial, hash_eq_polynomial, Nat.min_eq_left hc, Nat.min_eq_left (hbc.trans hc),
      Nat.mod_mod_of_dvd _ hdvd]

/-- A word that its capitals make longer, and one with a surrogate pair; the numbers of both are beyond
`2 ^ 32`. -/
theorem hash_is_polynomial_sharp_s :
    (⟨"straße𐐨"⟩ : Word) ≈ ⟨"STRASSE𐐀"⟩ ∧
    (⟨"straße𐐨"⟩ : Word).units = [83, 84, 82, 65, 83, 83, 69, 0xD801, 0xDC00] ∧
    2 ^ 32 ≤ polynomial (⟨"straße𐐨"⟩ : Word).units ∧
    (⟨"straße𐐨"⟩ : Word).hash 32 = 2375029364 ∧
    (⟨"straße𐐨"⟩ : Word).hash 5 = (⟨"straße𐐨"⟩ : Word).hash 32 % 2 ^ 5 ∧
    (⟨"straße𐐨"⟩ : Word).hash 5 = (⟨"STRASSE𐐀"⟩ : Word).hash 5 := by
  obtain ⟨hpolynomial, -, hnarrow, -, halike⟩ := hash_is_polynomial ⟨"straße𐐨"⟩
  have hsame : (⟨"STRASSE𐐀"⟩ : Word) ≈ ⟨"straße𐐨"⟩ := by decide +kernel
  have hunits : (⟨"straße𐐨"⟩ : Word).units = [83, 84, 82, 65, 83, 83, 69, 0xD801, 0xDC00] := by
    decide +kernel
  refine ⟨Setoid.symm hsame, hunits, ?_, ?_, hnarrow 5 32 (by decide) (by decide), (halike _ hsame 5).symm⟩
  · rw [hunits]
    decide
  · have hvalue : polynomial (⟨"straße𐐨"⟩ : Word).units % 2 ^ min 32 32 = 2375029364 := by
      rw [hunits]
      decide
    exact (hpolynomial 32).trans hvalue

end Word

end Dialogue
