import Aperture.Machine.Run
import Mathlib.Data.List.Basic

/-!
# First in, first out

A step of a queue takes its head or nothing, and then adds an item at the tail or nothing. Over a
run, what was in the queue and what was added is, in order, what was taken and what is left.
-/

namespace Aperture.Machine

variable {α Label : Type*}

/-- What a step takes from a queue and adds to it. -/
structure Exchange (α : Type*) where
  /-- The item taken. -/
  taken : Option α
  /-- The item added. -/
  added : Option α
  deriving DecidableEq, Repr

/-- Take the head, if anything is taken, and then add at the tail. -/
def Fifo (queue : List α) (exchange : Exchange α) (after : List α) : Prop :=
  ∃ rest, queue = exchange.taken.toList ++ rest ∧ after = rest ++ exchange.added.toList

/-- The items that the steps of a run take, in order. -/
def takenBy (exchanges : List (Label × Exchange α)) : List α :=
  exchanges.filterMap fun labelled => labelled.2.taken

/-- The items that the steps of a run add, in order. -/
def addedBy (exchanges : List (Label × Exchange α)) : List α :=
  exchanges.filterMap fun labelled => labelled.2.added

/-- The items of the first step come first. -/
theorem takenBy_cons (labelled : Label × Exchange α) (exchanges : List (Label × Exchange α)) :
    takenBy (labelled :: exchanges) = labelled.2.taken.toList ++ takenBy exchanges := by
  rw [takenBy, List.filterMap_cons]
  cases labelled.2.taken <;> rfl

/-- The items of the first step come first. -/
theorem addedBy_cons (labelled : Label × Exchange α) (exchanges : List (Label × Exchange α)) :
    addedBy (labelled :: exchanges) = labelled.2.added.toList ++ addedBy exchanges := by
  rw [addedBy, List.filterMap_cons]
  cases labelled.2.added <;> rfl

/-- Everything that was in the queue or was added has been taken or is left, in order. -/
theorem fifo_run {queue last : List α} {exchanges : List (Label × Exchange α)}
    (run : Run (fun before labelled after => Fifo before labelled.2 after) queue exchanges last) :
    queue ++ addedBy exchanges = takenBy exchanges ++ last := by
  induction run with
  | nil queue => exact List.append_nil queue
  | cons head _ ih =>
    obtain ⟨rest, rfl, rfl⟩ := head
    rw [List.append_assoc] at ih
    rw [addedBy_cons, takenBy_cons, List.append_assoc, List.append_assoc, ih]

/-- A list is cut at the first occurrence of an item in one way. -/
theorem cut_unique [DecidableEq α] {item : α} {front back otherFront otherBack : List α}
    (absent : item ∉ front) (otherAbsent : item ∉ otherFront)
    (same : front ++ item :: back = otherFront ++ item :: otherBack) : front = otherFront := by
  have positions := congrArg (List.idxOf item) same
  rw [List.idxOf_append_of_notMem absent, List.idxOf_append_of_notMem otherAbsent,
    List.idxOf_cons_self, List.idxOf_cons_self] at positions
  exact (List.append_inj same (by omega)).1

/-- Until an item comes to the head, exactly the items before it are taken. -/
theorem takenBy_until [DecidableEq α] {item : α} {front back rest : List α}
    {exchanges : List (Label × Exchange α)}
    (run : Run (fun before labelled after => Fifo before labelled.2 after) (front ++ item :: back)
      exchanges (item :: rest))
    (absent : item ∉ front) (untaken : item ∉ takenBy exchanges) : takenBy exchanges = front := by
  have order := fifo_run run
  rw [List.append_assoc, List.cons_append] at order
  exact (cut_unique absent untaken order).symm

end Aperture.Machine
