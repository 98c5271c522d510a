import Aperture.Machine.Word

/-!
# Signed 32-bit numbers

Values of `i32` are integers from `-2 ^ 31` to `2 ^ 31 - 1`, and a build with overflow checks stops
at a result outside. A cast to `usize` repeats the sign, so that a negative number becomes a huge
one; a cast back keeps the lower half.
-/

namespace Aperture.Machine

/-- The values of `i32`. -/
def IsI32 (value : Int) : Prop := -2 ^ 31 ≤ value ∧ value < 2 ^ 31

instance (value : Int) : Decidable (IsI32 value) := inferInstanceAs (Decidable (_ ∧ _))

/-- A result of `i32` arithmetic. -/
def checkedI32 (value : Int) : Except Panic Int :=
  if IsI32 value then .ok value else .error .overflow

/-- Checked addition. -/
def addI32 (left right : Int) : Except Panic Int := checkedI32 (left + right)

/-- Checked subtraction. -/
def subI32 (left right : Int) : Except Panic Int := checkedI32 (left - right)

/-- Checked multiplication. -/
def mulI32 (left right : Int) : Except Panic Int := checkedI32 (left * right)

/-- A checked result is the exact one. -/
theorem checkedI32_eq_ok {value result : Int} :
    checkedI32 value = .ok result ↔ IsI32 value ∧ result = value := by
  unfold checkedI32
  split
  · rename_i fits
    simp [fits, eq_comm]
  · rename_i exceeds
    simp [exceeds]

/-- A result that fits is returned. -/
theorem checkedI32_ok {value : Int} (fits : IsI32 value) : checkedI32 value = .ok value :=
  if_pos fits

/-- `value as usize`. -/
def asUsize (value : Int) : Nat := (value % 2 ^ 64).toNat

/-- `value as i32`. -/
def asI32 (value : Nat) : Int := Int.bmod value (2 ^ 32)

/-- Casting keeps a number that is not negative. -/
theorem asUsize_natCast {value : Nat} (fits : value < wordSize) : asUsize value = value := by
  unfold asUsize
  unfold wordSize at fits
  omega

/-- Casting keeps an `i32` that is not negative. -/
theorem asUsize_of_nonneg {value : Int} (nonneg : 0 ≤ value) (fits : IsI32 value) :
    asUsize value = value.toNat := by
  have small := fits.2
  unfold asUsize
  omega

/-- Casting keeps a number below `2 ^ 31`. -/
theorem asI32_of_lt {value : Nat} (small : value < 2 ^ 31) : asI32 value = value := by
  unfold asI32
  rw [Int.bmod_def]
  split_ifs <;> omega

/-- Casting does not make a number larger. -/
theorem asI32_le (value : Nat) : asI32 value ≤ value := by
  unfold asI32
  rw [Int.bmod_def]
  split_ifs <;> omega

/-- Casting returns values of `i32`. -/
theorem isI32_asI32 (value : Nat) : IsI32 (asI32 value) := by
  unfold asI32 IsI32
  rw [Int.bmod_def]
  split_ifs <;> omega

/-- Zero is a value of `i32`. -/
theorem isI32_zero : IsI32 0 := by
  decide

/-- The index of a place in a picture that is stored row by row is computed without overflow, when
the number of pixels is. -/
theorem placeIndex_ok {width height px py : Int} (fits : IsI32 (width * height)) (left : 0 ≤ px)
    (right : px < width) (upper : 0 ≤ py) (lower : py < height) :
    0 ≤ py * width + px ∧ py * width + px < width * height ∧
      mulI32 py width = .ok (py * width) ∧ addI32 (py * width) px = .ok (py * width + px) := by
  have start : 0 ≤ py * width := Int.mul_nonneg upper (by omega)
  have rows : (py + 1) * width ≤ height * width := Int.mul_le_mul_of_nonneg_right lower (by omega)
  rw [Int.add_mul, Int.one_mul, Int.mul_comm height] at rows
  have count := fits.2
  exact ⟨by omega, by omega, checkedI32_ok ⟨by omega, by omega⟩, checkedI32_ok ⟨by omega, by omega⟩⟩

end Aperture.Machine
