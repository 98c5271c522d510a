import Aperture.Machine.Slots

/-!
# A flat table as a finite map

A table of slots, each empty or holding a key and a value. Storing overwrites the slot of the key
or takes the first empty one; looking up takes the first slot with the key. While no key stands in
two slots this is a finite map with room for as many keys as there are slots.
-/

namespace Aperture.Machine

/-- Slots with a key and a value. -/
abbrev SlotMap (κ ν : Type*) := Nat → Option (κ × ν)

namespace SlotMap

variable {κ ν : Type*} [DecidableEq κ]

/-- The slot that holds a key. -/
def Occupies (table : SlotMap κ ν) (key : κ) (slot : Nat) : Bool :=
  (table slot).any fun item => item.1 = key

/-- The value in the first slot with the key. -/
def lookup (bound : Nat) (table : SlotMap κ ν) (key : κ) : Option ν :=
  (position bound (table.Occupies key)).bind fun slot => (table slot).map Prod.snd

/-- Overwrite the slot of the key, or take the first empty one; false when there is none. -/
def insert (bound : Nat) (table : SlotMap κ ν) (key : κ) (value : ν) : Bool × SlotMap κ ν :=
  match position bound (table.Occupies key) with
  | some slot => (true, Function.update table slot (some (key, value)))
  | none =>
    match position bound fun slot => (table slot).isNone with
    | some slot => (true, Function.update table slot (some (key, value)))
    | none => (false, table)

/-- No key stands in two slots. -/
def Unique (bound : Nat) (table : SlotMap κ ν) : Prop :=
  ∀ left < bound, ∀ right < bound, ∀ key, table.Occupies key left = true →
    table.Occupies key right = true → left = right

variable {bound : Nat} {table : SlotMap κ ν} {key : κ} {value : ν}

/-- A slot holds a key. -/
theorem occupies_iff {slot : Nat} :
    table.Occupies key slot = true ↔ ∃ value, table slot = some (key, value) := by
  unfold Occupies
  cases table slot with
  | none => simp
  | some item =>
    obtain ⟨held, value⟩ := item
    simp

/-- A key that stands in a slot has its value, when keys are unique. -/
theorem lookup_eq_some (unique : Unique bound table) :
    lookup bound table key = some value ↔ ∃ slot < bound, table slot = some (key, value) := by
  unfold lookup
  constructor
  · intro found
    obtain ⟨slot, first, held⟩ := Option.bind_eq_some_iff.mp found
    obtain ⟨inside, occupied, _⟩ := position_eq_some.mp first
    obtain ⟨other, here⟩ := occupies_iff.mp occupied
    rw [here, Option.map_some, Option.some.injEq] at held
    exact ⟨slot, inside, here.trans (by rw [← held])⟩
  · rintro ⟨slot, inside, here⟩
    have occupied : table.Occupies key slot = true := occupies_iff.mpr ⟨value, here⟩
    cases first : position bound (table.Occupies key) with
    | none =>
      rw [position_eq_none.mp first slot inside] at occupied
      cases occupied
    | some other =>
      obtain ⟨otherInside, otherOccupied, _⟩ := position_eq_some.mp first
      obtain rfl := unique other otherInside slot inside key otherOccupied occupied
      rw [Option.bind_some, here]
      rfl

/-- A key stands in no slot. -/
theorem lookup_eq_none :
    lookup bound table key = none ↔ ∀ slot < bound, table.Occupies key slot = false := by
  rw [← position_eq_none, lookup]
  cases first : position bound (table.Occupies key) with
  | none => simp
  | some slot =>
    obtain ⟨other, here⟩ := occupies_iff.mp (position_eq_some.mp first).2.1
    simp [here]

/-- Where an insertion puts its key: the key's own slot, or an empty one while the key is new. -/
inductive Inserted (bound : Nat) (table : SlotMap κ ν) (key : κ) (value : ν) :
    Bool × SlotMap κ ν → Prop
  /-- The slot of the key, or an empty one when it has none. -/
  | stored (slot : Nat) (inside : slot < bound)
      (suited : table.Occupies key slot = true ∨
        table slot = none ∧ ∀ other < bound, table.Occupies key other = false) :
      Inserted bound table key value (true, Function.update table slot (some (key, value)))
  /-- The key is new and every slot is taken. -/
  | full (absent : ∀ slot < bound, table.Occupies key slot = false)
      (taken : ∀ slot < bound, table slot ≠ none) : Inserted bound table key value (false, table)

/-- Insertion does one of these. -/
theorem insert_inserted (bound : Nat) (table : SlotMap κ ν) (key : κ) (value : ν) :
    Inserted bound table key value (insert bound table key value) := by
  unfold insert
  cases own : position bound (table.Occupies key) with
  | some slot =>
    obtain ⟨inside, occupied, _⟩ := position_eq_some.mp own
    exact .stored slot inside (.inl occupied)
  | none =>
    have absent := position_eq_none.mp own
    cases empty : position bound fun slot => (table slot).isNone with
    | some slot =>
      obtain ⟨inside, isNone, _⟩ := position_eq_some.mp empty
      exact .stored slot inside (.inr ⟨Option.isNone_iff_eq_none.mp isNone, absent⟩)
    | none =>
      refine .full absent fun slot inside isNone => ?_
      have isSome := position_eq_none.mp empty slot inside
      rw [isNone] at isSome
      cases isSome

/-- Another slot than the stored one holds what it held; the stored one holds its key. -/
theorem occupies_update {slot : Nat} (other : κ) (index : Nat) :
    Occupies (Function.update table slot (some (key, value))) other index =
      if index = slot then decide (key = other) else table.Occupies other index := by
  unfold Occupies
  by_cases here : index = slot
  · rw [if_pos here, here, Function.update_self]
    rfl
  · rw [if_neg here, Function.update_of_ne here]

/-- Insertion keeps keys unique. -/
theorem Unique.insert (unique : Unique bound table) (key : κ) (value : ν) :
    Unique bound (insert bound table key value).2 := by
  have inserted := insert_inserted bound table key value
  generalize SlotMap.insert bound table key value = result at inserted
  cases inserted with
  | full => exact unique
  | stored slot inside suited =>
    have alone {index : Nat} (below : index < bound) (differs : index ≠ slot) :
        table.Occupies key index = false := by
      rcases suited with occupied | ⟨_, absent⟩
      · by_contra also
        exact differs (unique index below slot inside key (Bool.eq_true_of_not_eq_false also)
          occupied)
      · exact absent index below
    intro left leftInside right rightInside other leftHolds rightHolds
    rw [occupies_update] at leftHolds rightHolds
    by_cases isLeft : left = slot
    · by_cases isRight : right = slot
      · rw [isLeft, isRight]
      · rw [if_pos isLeft, decide_eq_true_eq] at leftHolds
        rw [if_neg isRight, ← leftHolds, alone rightInside isRight] at rightHolds
        cases rightHolds
    · rw [if_neg isLeft] at leftHolds
      by_cases isRight : right = slot
      · rw [if_pos isRight, decide_eq_true_eq] at rightHolds
        rw [← rightHolds, alone leftInside isLeft] at leftHolds
        cases leftHolds
      · rw [if_neg isRight] at rightHolds
        exact unique left leftInside right rightInside other leftHolds rightHolds

/-- A stored key has the new value, every other key its old one. -/
theorem lookup_insert (unique : Unique bound table)
    (stored : (insert bound table key value).1 = true) (other : κ) :
    lookup bound (insert bound table key value).2 other =
      if other = key then some value else lookup bound table other := by
  have uniqueAfter := unique.insert key value
  have inserted := insert_inserted bound table key value
  generalize SlotMap.insert bound table key value = result at inserted stored uniqueAfter
  cases inserted with
  | full => cases stored
  | stored slot inside suited =>
    by_cases same : other = key
    · rw [if_pos same, same]
      exact (lookup_eq_some uniqueAfter).mpr ⟨slot, inside, Function.update_self _ _ _⟩
    · rw [if_neg same]
      refine Option.ext fun found => ?_
      rw [lookup_eq_some uniqueAfter, lookup_eq_some unique]
      have elsewhere {index : Nat} (here : table index = some (other, found)) : index ≠ slot := by
        rintro rfl
        rcases suited with occupied | ⟨isNone, _⟩
        · obtain ⟨held, holds⟩ := occupies_iff.mp occupied
          rw [holds, Option.some.injEq, Prod.mk.injEq] at here
          exact same here.1.symm
        · rw [isNone] at here
          cases here
      constructor
      · rintro ⟨index, below, here⟩
        by_cases isSlot : index = slot
        · dsimp only at here
          rw [isSlot, Function.update_self, Option.some.injEq, Prod.mk.injEq] at here
          exact absurd here.1.symm same
        · dsimp only at here
          rw [Function.update_of_ne isSlot] at here
          exact ⟨index, below, here⟩
      · rintro ⟨index, below, here⟩
        exact ⟨index, below, (Function.update_of_ne (elsewhere here) _ _).trans here⟩

/-- A refused insertion changes nothing. -/
theorem insert_refused (refused : (insert bound table key value).1 = false) :
    (insert bound table key value).2 = table := by
  have inserted := insert_inserted bound table key value
  generalize SlotMap.insert bound table key value = result at inserted refused
  cases inserted with
  | full => rfl
  | stored slot inside suited => cases refused

/-- The keys in the table. -/
def keys (bound : Nat) (table : SlotMap κ ν) : Finset κ :=
  ((List.range bound).filterMap fun slot => (table slot).map Prod.fst).toFinset

/-- They are the keys with a value. -/
theorem mem_keys : key ∈ keys bound table ↔ lookup bound table key ≠ none := by
  rw [keys, List.mem_toFinset, List.mem_filterMap, ne_eq, lookup_eq_none]
  push Not
  constructor
  · rintro ⟨slot, member, held⟩
    obtain ⟨item, here, rfl⟩ := Option.map_eq_some_iff.mp held
    refine ⟨slot, List.mem_range.mp member, ?_⟩
    rw [Bool.ne_false_iff]
    exact occupies_iff.mpr ⟨item.2, here⟩
  · rintro ⟨slot, inside, occupied⟩
    obtain ⟨value, here⟩ := occupies_iff.mp (Bool.ne_false_iff.mp occupied)
    exact ⟨slot, List.mem_range.mpr inside, by rw [here]; rfl⟩

/-- There are as many keys as slots exactly when no slot is empty. -/
theorem card_keys_eq_iff (unique : Unique bound table) :
    (keys bound table).card = bound ↔ ∀ slot < bound, table slot ≠ none := by
  have nodup : ((List.range bound).filterMap fun slot => (table slot).map Prod.fst).Nodup := by
    refine List.pairwise_filterMap.mpr (List.nodup_range.imp_of_mem ?_)
    intro left right leftMember rightMember differ key leftHeld other rightHeld same
    obtain ⟨leftItem, leftHere, rfl⟩ := Option.map_eq_some_iff.mp leftHeld
    obtain ⟨rightItem, rightHere, rfl⟩ := Option.map_eq_some_iff.mp rightHeld
    refine differ (unique left (List.mem_range.mp leftMember) right (List.mem_range.mp rightMember)
      leftItem.1 (occupies_iff.mpr ⟨_, leftHere⟩) (occupies_iff.mpr ⟨rightItem.2, ?_⟩))
    rw [rightHere, same]
  have length := List.filterMap_length_eq_length (l := List.range bound)
    (f := fun slot => (table slot).map Prod.fst)
  rw [List.length_range] at length
  rw [keys, List.toFinset_card_of_nodup nodup, length]
  refine forall_congr' fun slot => ?_
  rw [List.mem_range, Option.isSome_map, Option.isSome_iff_ne_none]

/-- An insertion is refused exactly when the key is new and there are as many keys as slots. -/
theorem insert_eq_false_iff (unique : Unique bound table) :
    (insert bound table key value).1 = false ↔
      lookup bound table key = none ∧ (keys bound table).card = bound := by
  rw [card_keys_eq_iff unique, lookup_eq_none]
  have inserted := insert_inserted bound table key value
  generalize SlotMap.insert bound table key value = result at inserted
  cases inserted with
  | full absent taken => exact iff_of_true rfl ⟨absent, taken⟩
  | stored slot inside suited =>
    refine iff_of_false nofun fun ⟨absent, taken⟩ => ?_
    rcases suited with occupied | ⟨isNone, _⟩
    · rw [absent slot inside] at occupied
      cases occupied
    · exact taken slot inside isNone

end SlotMap

end Aperture.Machine
