import Aperture.Machine.Memory

/-!
# Early heap

The bump allocator behind `mm::alloc_early`. An allocation rounds the cursor up
to the alignment with an unchecked-looking but overflow-checked addition, and
fails without effect when the range does not end at or below the limit.
-/

namespace Aperture.Mm

open Machine

/-- `BumpAllocator`. -/
structure BumpAllocator where
  /-- Start of the heap. -/
  base : Nat
  /-- First address not handed out. -/
  next : Nat
  /-- One past the heap. -/
  limit : Nat
  deriving DecidableEq, Repr

namespace BumpAllocator

/-- `BumpAllocator::new`: an empty heap. -/
def new : BumpAllocator := ⟨0, 0, 0⟩

/-- `init_heap`. -/
def initHeap (start stop : Nat) : BumpAllocator := ⟨start, start, stop⟩

/-- The cursor rounded up to the alignment. -/
def aligned (heap : BumpAllocator) (align : Nat) : Nat :=
  (heap.next + (align - 1)) &&& not64 (align - 1)

/-- `BumpAllocator::allocate`. -/
def allocate (heap : BumpAllocator) (size align : Nat) :
    Except Panic (Option Nat × BumpAllocator) := do
  let mask ← sub64 align 1
  let sum ← add64 heap.next mask
  let aligned := sum &&& not64 mask
  if aligned + size < wordSize then
    if heap.limit < aligned + size then pure (none, heap)
    else pure (some aligned, { heap with next := aligned + size })
  else pure (none, heap)

/-- The request is granted: no addition overflows and the range ends inside the heap. -/
def Fits (heap : BumpAllocator) (size align : Nat) : Prop :=
  0 < align ∧ heap.next + (align - 1) < wordSize ∧ heap.aligned align + size < wordSize ∧
    heap.aligned align + size ≤ heap.limit

instance (heap : BumpAllocator) (size align : Nat) : Decidable (heap.Fits size align) :=
  inferInstanceAs (Decidable (_ ∧ _ ∧ _ ∧ _))

/-- The range a request asks for. -/
def request (heap : BumpAllocator) (size align : Nat) : Span := ⟨heap.aligned align, size⟩

/-- An allocation returns an address exactly for a fitting request, the rounded cursor, and
moves the cursor past the range. -/
theorem allocate_eq_some {heap after : BumpAllocator} {size align address : Nat} :
    heap.allocate size align = .ok (some address, after) ↔
      heap.Fits size align ∧ address = heap.aligned align ∧
        after = { heap with next := heap.aligned align + size } := by
  simp only [allocate, bind_eq_ok, sub64_eq_ok, add64_eq_ok, Fits, aligned]
  constructor
  · rintro ⟨mask, ⟨positive, rfl⟩, sum, ⟨sumFits, rfl⟩, returned⟩
    split at returned
    · rename_i endFits
      split at returned
      · simp [pure_eq_ok] at returned
      · rename_i inside
        simp only [pure_eq_ok, Prod.mk.injEq, Option.some.injEq] at returned
        exact ⟨⟨positive, sumFits, endFits, Nat.not_lt.mp inside⟩, returned.1.symm,
          returned.2.symm⟩
    · simp [pure_eq_ok] at returned
  · rintro ⟨⟨positive, sumFits, endFits, inside⟩, rfl, rfl⟩
    refine ⟨_, ⟨positive, rfl⟩, _, ⟨sumFits, rfl⟩, ?_⟩
    rw [if_pos endFits, if_neg (Nat.not_lt.mpr inside)]
    rfl

/-- A refused allocation leaves the heap as it was. -/
theorem allocate_eq_none {heap after : BumpAllocator} {size align : Nat}
    (returned : heap.allocate size align = .ok (none, after)) :
    after = heap ∧ ¬heap.Fits size align := by
  constructor
  · simp only [allocate, bind_eq_ok, sub64_eq_ok, add64_eq_ok] at returned
    obtain ⟨mask, _, sum, _, returned⟩ := returned
    split at returned
    · split at returned
      · exact (Prod.mk.inj (pure_eq_ok.mp returned)).2.symm
      · simp [pure_eq_ok] at returned
    · exact (Prod.mk.inj (pure_eq_ok.mp returned)).2.symm
  · intro fits
    have granted := allocate_eq_some.mpr ⟨fits, rfl, rfl⟩
    rw [returned] at granted
    simp at granted

/-- Without alignment the cursor is used as it is. -/
theorem aligned_one {heap : BumpAllocator} (fits : heap.next < wordSize) :
    heap.aligned 1 = heap.next := by
  have rounded := and_not64_low 0 (Nat.zero_le _) fits
  simpa only [aligned, Nat.pow_zero, Nat.sub_self, Nat.add_zero, Nat.div_one, Nat.mul_one] using
    rounded

/-- Rounding moves the cursor up. -/
theorem next_le_aligned (heap : BumpAllocator) {shift : Nat} (small : shift ≤ 64)
    (fits : heap.next + (2 ^ shift - 1) < wordSize) : heap.next ≤ heap.aligned (2 ^ shift) := by
  rw [aligned, and_not64_low shift small fits]
  have positive : 0 < 2 ^ shift := Nat.two_pow_pos shift
  have rounded := Nat.div_add_mod (heap.next + (2 ^ shift - 1)) (2 ^ shift)
  have remainder := Nat.mod_lt (heap.next + (2 ^ shift - 1)) positive
  rw [Nat.mul_comm] at rounded
  omega

/-- An aligned cursor is a multiple of the alignment. -/
theorem aligned_mod (heap : BumpAllocator) {shift : Nat} (small : shift ≤ 64)
    (fits : heap.next + (2 ^ shift - 1) < wordSize) : heap.aligned (2 ^ shift) % 2 ^ shift = 0 := by
  rw [aligned, and_not64_low shift small fits]
  exact Nat.mul_mod_left _ _

end BumpAllocator

end Aperture.Mm
