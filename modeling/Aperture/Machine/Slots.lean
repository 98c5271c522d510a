import Aperture.Machine.Word
import Mathlib.Logic.Function.Basic

/-!
# Searching fixed-size tables

A table of `bound` slots is a function on indices. `position` is the linear
search for the first index that satisfies a predicate, the way an iterator's
`position` finds it. `fillSlots` fills an array in order until an entry is missing.
-/

namespace Aperture.Machine

/-- The least index below `bound` that satisfies the predicate. -/
@[irreducible]
def position (bound : Nat) (predicate : Nat → Bool) : Option Nat :=
  (List.range bound).find? predicate

/-- A search that succeeds returns the least satisfying index. -/
theorem position_eq_some {bound index : Nat} {predicate : Nat → Bool} :
    position bound predicate = some index ↔
      index < bound ∧ predicate index = true ∧ ∀ other < index, predicate other = false := by
  unfold position
  rw [List.find?_range_eq_some]
  simp only [List.mem_range, Bool.not_eq_eq_eq_not, Bool.not_true]
  tauto

/-- A search fails exactly when no index below the bound satisfies the predicate. -/
theorem position_eq_none {bound : Nat} {predicate : Nat → Bool} :
    position bound predicate = none ↔ ∀ index < bound, predicate index = false := by
  unfold position
  rw [List.find?_range_eq_none]
  simp

/-- Two slots of a table are free. -/
def TwoFree {α : Type*} (bound : Nat) (table : Nat → Option α) : Prop :=
  ∃ slot other, slot < bound ∧ other < bound ∧ slot ≠ other ∧ table slot = none ∧
    table other = none

/-- A slot is left free after one is taken exactly when two were free. -/
theorem exists_free_update {α : Type*} {bound slot : Nat} {table : Nat → Option α}
    (small : slot < bound) (free : table slot = none) (value : α) :
    (∃ other < bound, Function.update table slot (some value) other = none) ↔
      TwoFree bound table := by
  constructor
  · rintro ⟨other, otherSmall, isFree⟩
    have isOther : other ≠ slot := by
      rintro rfl
      rw [Function.update_self] at isFree
      cases isFree
    rw [Function.update_of_ne isOther] at isFree
    exact ⟨slot, other, small, otherSmall, isOther.symm, free, isFree⟩
  · rintro ⟨first, second, firstSmall, secondSmall, differ, firstFree, secondFree⟩
    by_cases isFirst : first = slot
    · have isOther : second ≠ slot := fun same => differ (isFirst.trans same.symm)
      exact ⟨second, secondSmall, by rw [Function.update_of_ne isOther, secondFree]⟩
    · exact ⟨first, firstSmall, by rw [Function.update_of_ne isFirst, firstFree]⟩

/-- A table whose first slots hold a list, and no other slot anything. -/
def Lists {α : Type*} (table : Nat → Option α) (values : List α) : Prop :=
  ∀ slot, table slot = values[slot]?

/-- The first free slot is the one behind the list. -/
theorem Lists.position_eq {α : Type*} {table : Nat → Option α} {values : List α}
    (lists : Lists table values) (bound : Nat) :
    (position bound fun slot => (table slot).isNone) =
      if values.length < bound then some values.length else none := by
  by_cases room : values.length < bound
  · rw [if_pos room]
    apply position_eq_some.mpr
    refine ⟨room, ?_, fun other before => ?_⟩
    · rw [lists, List.getElem?_eq_none (Nat.le_refl _)]
      rfl
    · rw [lists, List.getElem?_eq_getElem before]
      rfl
  · rw [if_neg room]
    apply position_eq_none.mpr
    intro slot inside
    have before : slot < values.length := by omega
    rw [lists, List.getElem?_eq_getElem before]
    rfl

/-- A value there makes the list longer. -/
theorem Lists.push {α : Type*} {table : Nat → Option α} {values : List α}
    (lists : Lists table values) (value : α) :
    Lists (Function.update table values.length (some value)) (values ++ [value]) := by
  intro slot
  by_cases last : slot = values.length
  · subst last
    rw [Function.update_self, List.getElem?_concat_length]
  · rw [Function.update_of_ne last, lists]
    rcases Nat.lt_or_gt_of_ne last with before | behind
    · rw [List.getElem?_append_left before]
    · rw [List.getElem?_eq_none (by omega), List.getElem?_eq_none (by simp; omega)]

/-! ## Filling -/

section Filling

variable {α : Type} {entry : Nat → Except Panic (Option α)} {i count : Nat}
  {slots : List (Option α)}

/-- The slots of an array from index `i` on: the entries in order, and nothing from the first
missing one on. -/
def fillSlots (entry : Nat → Except Panic (Option α)) (i : Nat) :
    Nat → Except Panic (List (Option α))
  | 0 => return []
  | remaining + 1 => do
    match ← entry i with
    | none => return List.replicate (remaining + 1) none
    | some value => do
      let rest ← fillSlots entry (i + 1) remaining
      return some value :: rest

/-- From a missing entry on there is nothing. -/
theorem fillSlots_missing (missing : entry i = .ok none) (count : Nat) :
    fillSlots entry i count = .ok (List.replicate count none) := by
  cases count with
  | zero => rfl
  | succ remaining =>
    rw [fillSlots, missing]
    rfl

/-- Only then is there nothing from the start. -/
theorem fillSlots_nothing_iff (remaining : Nat) :
    fillSlots entry i (remaining + 1) = .ok (List.replicate (remaining + 1) none) ↔
      entry i = .ok none := by
  constructor
  · intro filled
    rw [fillSlots] at filled
    obtain ⟨found, read, filled⟩ := bind_eq_ok.mp filled
    cases found with
    | none => exact read
    | some value =>
      obtain ⟨rest, _, filled⟩ := bind_eq_ok.mp filled
      cases pure_eq_ok.mp filled
  · intro missing
    exact fillSlots_missing missing (remaining + 1)

/-- An entry that is there is followed by the others. -/
theorem fillSlots_present {value : α} (present : entry i = .ok (some value)) (remaining : Nat) :
    fillSlots entry i (remaining + 1) =
      (fillSlots entry (i + 1) remaining).map (some value :: ·) := by
  rw [fillSlots, present, ok_bind]
  cases fillSlots entry (i + 1) remaining <;> rfl

/-- Every round returns when its entry does. -/
theorem fillSlots_returns (each : ∀ k < count, ∃ found, entry (i + k) = .ok found) :
    ∃ slots, fillSlots entry i count = .ok slots := by
  induction count generalizing i with
  | zero => exact ⟨[], rfl⟩
  | succ remaining ih =>
    obtain ⟨found, read⟩ := each 0 (Nat.succ_pos _)
    rw [Nat.add_zero] at read
    cases found with
    | none => exact ⟨_, fillSlots_missing read _⟩
    | some value =>
      obtain ⟨rest, filled⟩ := @ih (i + 1) fun k below => by
        rw [Nat.add_right_comm]
        exact each (k + 1) (Nat.succ_lt_succ below)
      rw [fillSlots_present read, filled]
      exact ⟨_, rfl⟩

/-- A filled slot holds its entry. -/
theorem entry_of_fillSlots (filled : fillSlots entry i count = .ok slots) {k : Nat} {value : α}
    (there : slots[k]? = some (some value)) : entry (i + k) = .ok (some value) := by
  induction count generalizing i slots k with
  | zero =>
    cases filled
    cases there
  | succ remaining ih =>
    rw [fillSlots] at filled
    obtain ⟨found, read, filled⟩ := bind_eq_ok.mp filled
    cases found with
    | none =>
      obtain rfl := pure_eq_ok.mp filled
      have nothing := List.eq_of_mem_replicate (List.mem_of_getElem? there)
      cases nothing
    | some first =>
      obtain ⟨rest, others, filled⟩ := bind_eq_ok.mp filled
      obtain rfl := pure_eq_ok.mp filled
      cases k with
      | zero =>
        obtain rfl := Option.some.inj (Option.some.inj there)
        exact read
      | succ k =>
        rw [Nat.add_comm k, ← Nat.add_assoc]
        exact ih others there

/-- Entries that are there, and a missing one behind them, fill the array. -/
theorem fillSlots_list (values : List α)
    (present : ∀ k (inside : k < values.length), entry (i + k) = .ok (some values[k]))
    (missing : entry (i + values.length) = .ok none) (fits : values.length ≤ count) :
    fillSlots entry i count =
      .ok (values.map some ++ List.replicate (count - values.length) none) := by
  induction values generalizing i count with
  | nil => exact fillSlots_missing missing count
  | cons first rest ih =>
    obtain ⟨remaining, rfl⟩ : ∃ remaining, count = remaining + 1 :=
      ⟨count - 1, (Nat.sub_add_cancel (Nat.le_trans (Nat.succ_pos _) fits)).symm⟩
    have here := present 0 (Nat.succ_pos _)
    rw [Nat.add_zero] at here
    have others := @ih (i + 1) remaining
      (fun k inside => by
        rw [Nat.add_right_comm]
        exact present (k + 1) (Nat.succ_lt_succ inside))
      (by rwa [Nat.add_right_comm]) (Nat.le_of_succ_le_succ fits)
    rw [fillSlots_present here, others, List.length_cons, Nat.succ_sub_succ]
    rfl

end Filling

end Aperture.Machine
