import Aperture.Machine.Word

/-!
# Ring buffers

A ring of `size` cells with a head and a tail. The items lie from the head up to the cell before the
tail, behind the last cell from the first one on, so that equal indices mean an empty ring and one
cell always stays free. Adding an item at the tail and taking the one at the head are operations of
a queue.
-/

namespace Aperture.Machine

/-- Cells with the indices of the first item and of the first free cell. -/
structure RingBuffer (α : Type*) where
  /-- The cells, of which a ring uses the first `size`. -/
  cells : Nat → α
  /-- Cell of the first item. -/
  head : Nat
  /-- Cell behind the last item. -/
  tail : Nat

namespace RingBuffer

variable {α : Type*} {ring : RingBuffer α} {size : Nat}

/-- Both indices are inside. -/
structure Inside (size : Nat) (ring : RingBuffer α) : Prop where
  /-- The head is. -/
  head_lt : ring.head < size
  /-- The tail is. -/
  tail_lt : ring.tail < size

/-- The cell some way behind another one. -/
def wrap (size first distance : Nat) : Nat :=
  if first + distance < size then first + distance else first + distance - size

/-- How many items there are. -/
def count (size : Nat) (ring : RingBuffer α) : Nat :=
  if ring.head ≤ ring.tail then ring.tail - ring.head else ring.tail + size - ring.head

/-- The items in order. -/
def contents (size : Nat) (ring : RingBuffer α) : List α :=
  (List.range (ring.count size)).map fun i => ring.cells (wrap size ring.head i)

/-- Write the first free cell. -/
def push (size : Nat) (ring : RingBuffer α) (item : α) : RingBuffer α :=
  { ring with cells := Function.update ring.cells ring.tail item, tail := (ring.tail + 1) % size }

/-- Release the first item. -/
def pop (size : Nat) (ring : RingBuffer α) : RingBuffer α := { ring with head := (ring.head + 1) % size }

/-- There are as many items as counted. -/
@[simp]
theorem length_contents (size : Nat) (ring : RingBuffer α) :
    (ring.contents size).length = ring.count size := by
  simp [contents]

/-- The next index. -/
theorem next_eq {i : Nat} (inside : i < size) :
    (i + 1) % size = if i + 1 = size then 0 else i + 1 := by
  split
  · rename_i last
    rw [last, Nat.mod_self]
  · exact Nat.mod_eq_of_lt (by omega)

/-- One cell stays free. -/
theorem Inside.count_lt (inside : ring.Inside size) : ring.count size < size := by
  have headInside := inside.head_lt
  have tailInside := inside.tail_lt
  unfold count
  split_ifs <;> omega

/-- A ring is empty when its indices are equal. -/
theorem Inside.contents_eq_nil (inside : ring.Inside size) :
    ring.contents size = [] ↔ ring.head = ring.tail := by
  have tailInside := inside.tail_lt
  have headInside := inside.head_lt
  rw [← List.length_eq_zero_iff, length_contents]
  unfold count
  split_ifs <;> omega

/-- It is full when the tail is right before the head. -/
theorem Inside.count_full (inside : ring.Inside size) :
    ring.count size + 1 = size ↔ (ring.tail + 1) % size = ring.head := by
  have tailInside := inside.tail_lt
  have headInside := inside.head_lt
  rw [next_eq tailInside]
  unfold count
  split_ifs <;> omega

/-- Adding keeps the indices inside. -/
theorem Inside.push (inside : ring.Inside size) (item : α) : (ring.push size item).Inside size where
  head_lt := inside.head_lt
  tail_lt := Nat.mod_lt _ (Nat.zero_lt_of_lt inside.tail_lt)

/-- So does taking. -/
theorem Inside.pop (inside : ring.Inside size) : (ring.pop size).Inside size where
  head_lt := Nat.mod_lt _ (Nat.zero_lt_of_lt inside.head_lt)
  tail_lt := inside.tail_lt

/-- An item added to a ring that is not full is its last one. -/
theorem Inside.contents_push (inside : ring.Inside size) (room : (ring.tail + 1) % size ≠ ring.head)
    (item : α) : (ring.push size item).contents size = ring.contents size ++ [item] := by
  have tailInside := inside.tail_lt
  have headInside := inside.head_lt
  have notFull := inside.count_full.not.mpr room
  have longer : (ring.push size item).count size = ring.count size + 1 := by
    rw [next_eq tailInside] at room
    simp only [count, RingBuffer.push, next_eq tailInside] at notFull ⊢
    split_ifs at room notFull ⊢ <;> omega
  have small := inside.count_lt
  have last : wrap size ring.head (ring.count size) = ring.tail := by
    unfold wrap count
    split_ifs <;> omega
  have before {i : Nat} (below : i < ring.count size) : wrap size ring.head i ≠ ring.tail := by
    rw [← last]
    unfold wrap
    split_ifs <;> omega
  rw [contents, longer, List.range_succ, List.map_append, List.map_singleton]
  simp only [RingBuffer.push, last, Function.update_self, contents]
  congr 1
  apply List.map_congr_left
  intro i below
  exact Function.update_of_ne (before (List.mem_range.mp below)) _ _

/-- The item at the head of a ring that is not empty is its first one. -/
theorem Inside.contents_pop (inside : ring.Inside size) (filled : ring.head ≠ ring.tail) :
    ring.contents size = ring.cells ring.head :: (ring.pop size).contents size := by
  have tailInside := inside.tail_lt
  have headInside := inside.head_lt
  have shorter : ring.count size = (ring.pop size).count size + 1 := by
    simp only [count, RingBuffer.pop, next_eq headInside]
    split_ifs <;> omega
  have first : wrap size ring.head 0 = ring.head := by
    rw [wrap, Nat.add_zero, if_pos headInside]
  have small := inside.count_lt
  have later {i : Nat} (below : i < (ring.pop size).count size) :
      wrap size ring.head (i + 1) = wrap size (ring.pop size).head i := by
    simp only [wrap, RingBuffer.pop, next_eq headInside]
    split_ifs <;> omega
  rw [contents, shorter, List.range_succ_eq_map, List.map_cons, List.map_map, first, contents]
  congr 1
  apply List.map_congr_left
  intro i below
  exact congrArg ring.cells (later (List.mem_range.mp below))

end RingBuffer

end Aperture.Machine
