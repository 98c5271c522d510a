import Mathlib

/-!
# 64-bit words with overflow checks

Machine words are natural numbers below `2 ^ 64`. A build with overflow checks
stops at an addition or subtraction that leaves this range, so the checked
operations return the reason instead of a wrapped word. Masks and single-bit
updates are stated through `Nat.testBit`; nothing here enumerates words.
-/

namespace Aperture.Machine

/-- Why a checked computation stops instead of returning. -/
inductive Panic where
  /-- An arithmetic result outside the word range, or a slice of half the address space. -/
  | overflow
  /-- A slice or array index at or past the length. -/
  | outOfRange
  /-- `expect` on `None`. -/
  | missing
  /-- An access to a word or a reference at an address that is no multiple of its size. -/
  | misaligned (address : Nat)
  /-- A reference or a slice at address 0. -/
  | null
  /-- A copy between ranges that overlap. -/
  | overlap
  /-- Text that is no UTF-8 where the language takes it to be. -/
  | notText
  /-- A panic of a function that the model takes from outside. -/
  | callee
  /-- A write to an address where memory may not be written. -/
  | fault (address : Nat)
  deriving DecidableEq, Repr

/-- One past the largest word. -/
def wordSize : Nat := 2 ^ 64

/-- Checked addition. -/
def add64 (left right : Nat) : Except Panic Nat :=
  if left + right < wordSize then .ok (left + right) else .error .overflow

/-- Checked subtraction. -/
def sub64 (left right : Nat) : Except Panic Nat :=
  if right ≤ left then .ok (left - right) else .error .overflow

/-- Checked multiplication. -/
def mul64 (left right : Nat) : Except Panic Nat :=
  if left * right < wordSize then .ok (left * right) else .error .overflow

/-- Checked addition returns the exact sum, and only inside the word range. -/
@[simp]
theorem add64_eq_ok {left right sum : Nat} :
    add64 left right = .ok sum ↔ left + right < wordSize ∧ sum = left + right := by
  unfold add64
  split
  · rename_i fits
    simp [fits, eq_comm]
  · rename_i exceeds
    simp [exceeds]

/-- Checked subtraction returns the exact difference, and only without borrow. -/
@[simp]
theorem sub64_eq_ok {left right difference : Nat} :
    sub64 left right = .ok difference ↔ right ≤ left ∧ difference = left - right := by
  unfold sub64
  split
  · rename_i fits
    simp [fits, eq_comm]
  · rename_i under
    simp [under]

/-- Checked multiplication returns the exact product, and only inside the word range. -/
@[simp]
theorem mul64_eq_ok {left right product : Nat} :
    mul64 left right = .ok product ↔ left * right < wordSize ∧ product = left * right := by
  unfold mul64
  split
  · rename_i fits
    simp [fits, eq_comm]
  · rename_i exceeds
    simp [exceeds]

/-- A checked computation returns exactly when its first part and then its second part do. -/
theorem bind_eq_ok {α β : Type} {first : Except Panic α} {rest : α → Except Panic β} {result : β} :
    (first >>= rest) = .ok result ↔ ∃ value, first = .ok value ∧ rest value = .ok result := by
  cases first with
  | error reason => simp [bind, Except.bind]
  | ok value => simp [bind, Except.bind]

/-- A computation continues with the value returned before. -/
theorem ok_bind {α β : Type} (value : α) (rest : α → Except Panic β) :
    (Except.ok value >>= rest) = rest value := rfl

/-- A panic ends the computation. -/
theorem error_bind {α β : Type} (reason : Panic) (rest : α → Except Panic β) :
    (Except.error reason >>= rest) = .error reason := rfl

/-- A returned value is the given one. -/
theorem pure_eq_ok {α : Type} {value result : α} :
    (pure value : Except Panic α) = .ok result ↔ value = result := by
  simp [pure, Except.pure]

/-- A checked loop returns when each of its rounds does. -/
theorem foldlM_ok {α σ : Type} (round : σ → α → Except Panic σ) (items : List α)
    (returns : ∀ state, ∀ item ∈ items, ∃ next, round state item = .ok next) (state : σ) :
    ∃ result, items.foldlM round state = .ok result := by
  induction items generalizing state with
  | nil => exact ⟨state, rfl⟩
  | cons item items ih =>
    obtain ⟨next, returned⟩ := returns state item List.mem_cons_self
    obtain ⟨result, rest⟩ := ih (fun state later member =>
      returns state later (List.mem_cons_of_mem _ member)) next
    exact ⟨result, by rw [List.foldlM_cons, bind_eq_ok]; exact ⟨next, returned, rest⟩⟩

/-- What every round of a loop keeps, the loop keeps. -/
theorem foldl_invariant {α σ : Type} {round : σ → α → σ} {items : List α} (inv : σ → Prop)
    (kept : ∀ state, ∀ item ∈ items, inv state → inv (round state item)) {state : σ}
    (initially : inv state) : inv (items.foldl round state) := by
  induction items generalizing state with
  | nil => exact initially
  | cons item items ih =>
    exact ih (fun state later member => kept state later (List.mem_cons_of_mem _ member))
      (kept state item List.mem_cons_self initially)

/-- Bitwise complement of a word. -/
def not64 (word : Nat) : Nat := wordSize - 1 - word

/-- Complement flips every bit below the word length and has none above. -/
theorem testBit_not64 {word : Nat} (fits : word < wordSize) (i : Nat) :
    (not64 word).testBit i = (decide (i < 64) && !word.testBit i) := by
  have shape : not64 word = 2 ^ 64 - (word + 1) := by
    unfold not64 wordSize
    omega
  rw [shape]
  exact Nat.testBit_two_pow_sub_succ fits i

/-- Masking with the complement of a low mask rounds down to a multiple. -/
theorem and_not64_low {word : Nat} (shift : Nat) (small : shift ≤ 64) (fits : word < wordSize) :
    word &&& not64 (2 ^ shift - 1) = word / 2 ^ shift * 2 ^ shift := by
  have positive : 0 < 2 ^ shift := Nat.two_pow_pos shift
  have bounded : 2 ^ shift ≤ 2 ^ 64 := Nat.pow_le_pow_right (by decide) small
  apply Nat.eq_of_testBit_eq
  intro i
  rw [Nat.testBit_and, testBit_not64 (by unfold wordSize; omega), Nat.testBit_two_pow_sub_one,
    Nat.testBit_mul_two_pow, Nat.testBit_div_two_pow]
  by_cases low : i < shift
  · simp [low, Nat.not_le.mpr low]
  · rw [Nat.sub_add_cancel (Nat.not_lt.mp low)]
    by_cases inside : i < 64
    · simp [low, inside, Nat.not_lt.mp low]
    · have clear : word.testBit i = false :=
        Nat.testBit_eq_false_of_lt
          (Nat.lt_of_lt_of_le fits (Nat.pow_le_pow_right (by decide) (Nat.not_lt.mp inside)))
      simp [clear]

/-- Or with one bit below the word length stays a word. -/
theorem or_bit_lt {word bit : Nat} (fits : word < wordSize) (inside : bit < 64) :
    word ||| 2 ^ bit < wordSize :=
  Nat.or_lt_two_pow fits (Nat.pow_lt_pow_right (by decide) inside)

/-- And with any mask stays a word. -/
theorem and_lt_word {word : Nat} (mask : Nat) (fits : word < wordSize) :
    word &&& mask < wordSize :=
  Nat.lt_of_le_of_lt Nat.and_le_left fits

/-- Or with one bit sets exactly that bit. -/
theorem testBit_or_bit (word bit i : Nat) :
    (word ||| 2 ^ bit).testBit i = (word.testBit i || decide (i = bit)) := by
  rw [Nat.testBit_or, Nat.testBit_two_pow]
  simp [eq_comm]

/-- And with the complement of one bit clears exactly that bit. -/
theorem testBit_and_not_bit {word bit : Nat} (fits : word < wordSize) (inside : bit < 64)
    (i : Nat) :
    (word &&& not64 (2 ^ bit)).testBit i = (word.testBit i && !decide (i = bit)) := by
  have bitFits : 2 ^ bit < wordSize := Nat.pow_lt_pow_right (by decide) inside
  rw [Nat.testBit_and, testBit_not64 bitFits, Nat.testBit_two_pow]
  by_cases low : i < 64
  · simp [low, eq_comm]
  · have clear : word.testBit i = false :=
      Nat.testBit_eq_false_of_lt
        (Nat.lt_of_lt_of_le fits (Nat.pow_le_pow_right (by decide) (Nat.not_lt.mp low)))
    simp [clear]

/-- The number of one bits below the lowest zero bit, 64 for the full word. -/
def trailingOnes (word : Nat) : Nat :=
  ((List.range 64).find? fun bit => !word.testBit bit).getD 64

/-- A word that is not full has a clear bit at its trailing-ones count, and all
lower bits set. -/
theorem trailingOnes_spec {word : Nat} (fits : word < wordSize) (notFull : word ≠ wordSize - 1) :
    trailingOnes word < 64 ∧ word.testBit (trailingOnes word) = false ∧
      ∀ bit < trailingOnes word, word.testBit bit = true := by
  unfold trailingOnes
  cases found : (List.range 64).find? fun bit => !word.testBit bit with
  | some bit =>
    rw [List.find?_range_eq_some] at found
    obtain ⟨clear, inside, lower⟩ := found
    refine ⟨by simpa using inside, by simpa using clear, fun other below => ?_⟩
    simpa using lower other below
  | none =>
    exfalso
    apply notFull
    rw [List.find?_range_eq_none] at found
    apply Nat.eq_of_testBit_eq
    intro i
    rw [show wordSize - 1 = 2 ^ 64 - 1 from rfl, Nat.testBit_two_pow_sub_one]
    by_cases inside : i < 64
    · simpa [inside] using found i inside
    · simp only [inside, decide_false]
      exact Nat.testBit_eq_false_of_lt
        (Nat.lt_of_lt_of_le fits (Nat.pow_le_pow_right (by decide) (Nat.not_lt.mp inside)))

end Aperture.Machine
