import Mathlib.Data.List.Basic

/-!
# A limited supply

Items are asked for one after the other. An item that is there from the start, or was asked for
before, costs nothing; every other one takes a unit of the supply, while there is one. What is
available then depends only on the order in which new items were first asked for.
-/

namespace Aperture.Machine

variable {α : Type} [DecidableEq α] {there : α → Bool} {supply : Nat} {asked : List α}
  {item other : α}

/-- The new items asked for so far, in order, after one more request. -/
def request (there : α → Bool) (asked : List α) (item : α) : List α :=
  if there item = true ∨ item ∈ asked then asked else asked ++ [item]

/-- An item is there, or among the first that the supply was enough for. -/
def Supplied (there : α → Bool) (supply : Nat) (asked : List α) (item : α) : Prop :=
  there item = true ∨ item ∈ asked.take supply

/-- A request supplies its item, if the supply is not used up, and nothing else. -/
theorem supplied_request :
    Supplied there supply (request there asked item) other ↔
      Supplied there supply asked other ∨ other = item ∧ asked.length < supply := by
  unfold request
  split
  · rename_i known
    constructor
    · exact .inl
    · rintro (supplied | ⟨rfl, left⟩)
      · exact supplied
      · rw [Supplied, List.take_of_length_le (by omega)]
        exact known
  · have single : other ∈ [item].take (supply - asked.length) ↔
        other = item ∧ asked.length < supply := by
      by_cases left : asked.length < supply
      · rw [List.take_of_length_le (by rw [List.length_singleton]; omega), List.mem_singleton]
        simp [left]
      · rw [show supply - asked.length = 0 by omega, List.take_zero]
        simp [left]
    rw [Supplied, Supplied, List.take_append, List.mem_append, single, or_assoc]

/-- Requests keep what is supplied. -/
theorem Supplied.request (supplied : Supplied there supply asked other) (item : α) :
    Supplied there supply (request there asked item) other :=
  supplied_request.mpr (.inl supplied)

/-- A request for a supplied item costs nothing. -/
theorem request_of_supplied (supplied : Supplied there supply asked item) :
    request there asked item = asked := by
  apply if_pos
  rcases supplied with isThere | member
  · exact .inl isThere
  · exact .inr (List.mem_of_mem_take member)

/-- A request for any other item costs a unit, while there is one. -/
theorem left_request (missing : ¬Supplied there supply asked item) :
    supply - (request there asked item).length = supply - asked.length - 1 := by
  unfold request
  split
  · rename_i known
    rcases known with isThere | member
    · exact absurd (.inl isThere) missing
    · have beyond : supply < asked.length := by
        by_contra within
        rw [Supplied, List.take_of_length_le (by omega)] at missing
        exact missing (.inr member)
      omega
  · rw [List.length_append, List.length_singleton]
    omega

/-- Once asked for, an item is there or listed. -/
theorem known_of_request (there : α → Bool) (asked : List α) (item : α) :
    there item = true ∨ item ∈ request there asked item := by
  unfold request
  split
  · rename_i known
    exact known
  · exact .inr (List.mem_append_right _ List.mem_cons_self)

/-- Later requests keep the list. -/
theorem mem_request (member : other ∈ asked) (item : α) : other ∈ request there asked item := by
  unfold request
  split
  · exact member
  · exact List.mem_append_left _ member

omit [DecidableEq α] in
/-- An item that was asked for and is missing has met an empty supply. -/
theorem exhausted_of_known (known : there item = true ∨ item ∈ asked)
    (missing : ¬Supplied there supply asked item) : supply ≤ asked.length := by
  by_contra left
  rw [Supplied, List.take_of_length_le (by omega)] at missing
  exact missing known

end Aperture.Machine
