import Mathlib.Data.Nat.Bitwise
import Mathlib.Data.Nat.Init

/-!
# Fields of words

A word that is masked and compared, shifted, or sign-extended by hand is read through one of its
fields: consecutive bits, as a number below a power of two.
-/

namespace Aperture.Machine

/-- Masking keeps one field of a number. -/
theorem and_field (number lo len : Nat) :
    number &&& (2 ^ len - 1) * 2 ^ lo = number / 2 ^ lo % 2 ^ len * 2 ^ lo := by
  apply Nat.eq_of_testBit_eq
  intro i
  rw [Nat.testBit_and, Nat.testBit_mul_two_pow, Nat.testBit_mul_two_pow, Nat.testBit_mod_two_pow,
    Nat.testBit_div_two_pow, Nat.testBit_two_pow_sub_one]
  by_cases low : lo ≤ i
  · rw [Nat.sub_add_cancel low]
    simp [low, Bool.and_comm]
  · simp [low]

/-- Two masked fields, the one above the other. -/
theorem and_fields (number : Nat) {lo len mask : Nat} (below : mask < 2 ^ lo) :
    number &&& ((2 ^ len - 1) * 2 ^ lo + mask) =
      number / 2 ^ lo % 2 ^ len * 2 ^ lo + (number &&& mask) := by
  have lower : number &&& mask < 2 ^ lo := Nat.lt_of_le_of_lt Nat.and_le_right below
  rw [Nat.mul_comm (2 ^ len - 1), Nat.two_pow_add_eq_or_of_lt below, Nat.and_or_distrib_left,
    Nat.mul_comm (2 ^ lo), and_field, Nat.mul_comm, Nat.two_pow_add_eq_or_of_lt lower]

section Words

variable {n : Nat}

/-- A field of a word, as a number. -/
def bits (word : BitVec n) (lo len : Nat) : Nat := word.toNat / 2 ^ lo % 2 ^ len

/-- It is the number of the extracted bits. -/
theorem toNat_field (word : BitVec n) (lo len : Nat) :
    (word.extractLsb' lo len).toNat = bits word lo len := by
  rw [BitVec.extractLsb'_toNat, Nat.shiftRight_eq_div_pow]
  rfl

/-- Comparing a masked word compares one of its fields. -/
theorem and_mask_eq_iff (word : BitVec n) {lo len value : Nat} (inside : lo + len ≤ n)
    (fits : value < 2 ^ len) :
    word &&& BitVec.ofNat n ((2 ^ len - 1) * 2 ^ lo) = BitVec.ofNat n (value * 2 ^ lo) ↔
      bits word lo len = value := by
  have positive : 0 < 2 ^ lo := Nat.two_pow_pos lo
  have small {number : Nat} (below : number < 2 ^ len) :
      number * 2 ^ lo % 2 ^ n = number * 2 ^ lo := by
    apply Nat.mod_eq_of_lt
    calc number * 2 ^ lo < 2 ^ len * 2 ^ lo := Nat.mul_lt_mul_of_pos_right below positive
      _ = 2 ^ (lo + len) := by rw [Nat.pow_add, Nat.mul_comm]
      _ ≤ 2 ^ n := Nat.pow_le_pow_right (by decide) inside
  have mask : 2 ^ len - 1 < 2 ^ len := Nat.sub_lt (Nat.two_pow_pos len) (by decide)
  rw [← BitVec.toNat_inj, BitVec.toNat_and, BitVec.toNat_ofNat, BitVec.toNat_ofNat, small mask,
    small fits, and_field, Nat.mul_left_inj (Nat.ne_of_gt positive)]
  rfl

/-- A word of two parts, as a number. -/
theorem toNat_append_add {m : Nat} (high : BitVec m) (low : BitVec n) :
    (high ++ low).toNat = high.toNat * 2 ^ n + low.toNat := by
  rw [BitVec.toNat_append, Nat.shiftLeft_eq, Nat.mul_comm,
    Nat.two_pow_add_eq_or_of_lt low.isLt]

/-- A shifted and masked word has one of its fields. -/
theorem shift_and_setWidth (word : BitVec n) (lo len m : Nat) :
    ((word >>> lo) &&& BitVec.ofNat n (2 ^ len - 1)).setWidth m =
      (word.extractLsb' lo len).setWidth m := by
  ext i inside
  simp only [BitVec.getElem_setWidth, BitVec.getLsbD_and, BitVec.getLsbD_ushiftRight,
    BitVec.getLsbD_ofNat, Nat.testBit_two_pow_sub_one, BitVec.getLsbD_extractLsb']
  by_cases within : i < n
  · simp [within, Bool.and_comm]
  · have beyond : word.getLsbD (lo + i) = false := BitVec.getLsbD_of_ge _ _ (by omega)
    simp [beyond]

/-- Two parts of a field, put together by hand. -/
theorem shiftLeft_or_setWidth {m k : Nat} (high : BitVec m) (low : BitVec k) (n : Nat) :
    (high.setWidth n <<< k) ||| low.setWidth n = (high ++ low).setWidth n := by
  apply BitVec.eq_of_getLsbD_eq
  intro i inside
  rw [BitVec.getLsbD_or, BitVec.getLsbD_shiftLeft, BitVec.getLsbD_setWidth, BitVec.getLsbD_setWidth,
    BitVec.getLsbD_setWidth, BitVec.getLsbD_append]
  by_cases below : i < k
  · simp [inside, below]
  · have beyond : low.getLsbD i = false := BitVec.getLsbD_of_ge _ _ (Nat.le_of_not_lt below)
    have upper : i - k < n := by omega
    simp [inside, below, beyond, upper]

/-- Extending the sign twice extends it once. -/
theorem signExtend_signExtend {k m : Nat} (word : BitVec n) (first : n ≤ k) (second : k ≤ m) :
    (word.signExtend k).signExtend m = word.signExtend m := by
  apply BitVec.eq_of_toInt_eq
  rw [BitVec.toInt_signExtend_of_le second, BitVec.toInt_signExtend_of_le first,
    BitVec.toInt_signExtend_of_le (Nat.le_trans first second)]

/-- Shifting a word up and back down with its sign keeps the lower field and extends its sign. -/
theorem sshiftRight_shiftLeft {k : Nat} (word : BitVec (n + k)) :
    (word <<< k).sshiftRight k = (word.setWidth n).signExtend (n + k) := by
  apply BitVec.eq_of_getLsbD_eq
  intro i inside
  rw [BitVec.getLsbD_sshiftRight, BitVec.getLsbD_signExtend, BitVec.msb_eq_getLsbD_last,
    BitVec.msb_eq_getLsbD_last, BitVec.getLsbD_shiftLeft, BitVec.getLsbD_shiftLeft,
    BitVec.getLsbD_setWidth, BitVec.getLsbD_setWidth]
  by_cases low : i < n
  · have within : k + i < n + k ∧ ¬ n + k ≤ i ∧ ¬ k + i < k := by omega
    simp [inside, low, within]
  · have without : ¬ k + i < n + k := by omega
    rw [if_neg without, if_neg low]
    by_cases empty : n = 0
    · simp [empty]
    · have last : n + k - 1 - k = n - 1 := by omega
      have bounds : n + k - 1 < n + k ∧ ¬ n + k - 1 < k ∧ n - 1 < n := by omega
      simp [inside, last, bounds]

/-- Filling the upper bits when the highest bit of a field is set extends its sign. -/
theorem or_not_mask {k m : Nat} (field : BitVec (k + 1)) (wide : k + 1 ≤ m) :
    (if field.setWidth m &&& BitVec.twoPow m k ≠ 0 then
        field.setWidth m ||| ~~~BitVec.ofNat m (2 ^ (k + 1) - 1)
      else field.setWidth m) = field.signExtend m := by
  have below : k < m := wide
  have sign : (field.setWidth m &&& BitVec.twoPow m k ≠ 0) ↔ field.getLsbD k = true := by
    have power : BitVec.twoPow m k ≠ 0 := by
      intro zero
      have bit := congrArg (BitVec.getLsbD · k) zero
      simp [below] at bit
    rw [BitVec.and_twoPow, BitVec.getLsbD_setWidth, decide_eq_true below, Bool.true_and]
    by_cases set : field.getLsbD k = true
    · rw [if_pos set]
      exact iff_of_true power set
    · rw [if_neg set]
      exact iff_of_false (not_not.mpr rfl) set
  apply BitVec.eq_of_getLsbD_eq
  intro i inside
  rw [BitVec.getLsbD_signExtend, BitVec.msb_eq_getLsbD_last, Nat.add_sub_cancel]
  by_cases set : field.getLsbD k = true
  · rw [if_pos (sign.mpr set), BitVec.getLsbD_or, BitVec.getLsbD_not, BitVec.getLsbD_ofNat,
      Nat.testBit_two_pow_sub_one, BitVec.getLsbD_setWidth, set]
    by_cases low : i < k + 1
    · simp [inside, low]
    · simp [inside, low]
  · rw [if_neg (mt sign.mp set), BitVec.getLsbD_setWidth]
    by_cases low : i < k + 1
    · simp [inside, low]
    · have beyond : field.getLsbD i = false := BitVec.getLsbD_of_ge _ _ (by omega)
      rw [if_neg low, beyond, Bool.eq_false_iff.mpr set, Bool.and_false]

end Words

end Aperture.Machine
