import Aperture.Machine.Run
import Aperture.Machine.Slots

/-!
# The object handle table

`allocate` stores an object in the first free slot and returns the next number of
a counter; `lookup` and `close` recompute the slot from the number alone. The two
agree exactly while every allocation finds the counter's own slot free first and
no call names a handle that shares its slot with another live one.
-/

namespace Aperture.Win32

open Machine

/-- Kinds of kernel objects that can be referenced by a handle. -/
inductive ObjectKind where
  /-- A process. -/
  | process
  /-- A thread. -/
  | thread
  /-- An open file. -/
  | file
  /-- A registry key. -/
  | registryKey
  /-- A window station. -/
  | windowStation
  /-- A desktop. -/
  | desktop
  deriving DecidableEq, Repr

/-- An object header stored in the handle table. -/
structure ObjectHeader where
  /-- Kind of the object. -/
  kind : ObjectKind
  /-- Pointer to the object. -/
  data : UInt64
  deriving DecidableEq, Repr

/-- `Handle(u32)`. -/
abbrev Handle := UInt32

/-- `MAX_HANDLES`. -/
def maxHandles : Nat := 1024

/-- `HANDLE_TABLE` and `NEXT_HANDLE`. -/
structure Objects where
  /-- Slots of the table. -/
  table : Nat → Option ObjectHeader
  /-- Number of the next handle. -/
  nextHandle : UInt32

namespace Objects

/-- The table at boot. -/
def init : Objects := ⟨fun _ => none, 1⟩

/-- Slot of a handle: `(handle.0 as usize).wrapping_sub(1) % MAX_HANDLES`. -/
def index (handle : Handle) : Nat := (handle.toNat + (wordSize - 1)) % wordSize % maxHandles

/-- Allocate a handle for an object: the first free slot and the next number. -/
def allocate (objects : Objects) (kind : ObjectKind) (data : UInt64) : Option Handle × Objects :=
  match position maxHandles fun slot => (objects.table slot).isNone with
  | none => (none, objects)
  | some slot => (some objects.nextHandle,
      ⟨Function.update objects.table slot (some ⟨kind, data⟩), objects.nextHandle + 1⟩)

/-- Look up an object by handle. -/
def lookup (objects : Objects) (handle : Handle) : Option ObjectHeader :=
  objects.table (index handle)

/-- Close a handle. -/
def close (objects : Objects) (handle : Handle) : Bool × Objects :=
  if (objects.table (index handle)).isSome then
    (true, { objects with table := Function.update objects.table (index handle) none })
  else (false, objects)

/-- What `allocate` does: nothing, or an object in a free slot. -/
theorem allocate_cases {objects after : Objects} {kind : ObjectKind} {data : UInt64}
    {result : Option Handle} (allocated : objects.allocate kind data = (result, after)) :
    (result = none ∧ after = objects ∧ ∀ slot < maxHandles, objects.table slot ≠ none) ∨
    ∃ slot, result = some objects.nextHandle ∧ slot < maxHandles ∧ objects.table slot = none ∧
      after.table = Function.update objects.table slot (some ⟨kind, data⟩) := by
  unfold allocate at allocated
  split at allocated
  · rename_i full
    obtain ⟨rfl, rfl⟩ := Prod.mk.inj allocated
    refine .inl ⟨rfl, rfl, fun slot small => ?_⟩
    exact Option.isSome_iff_ne_none.mp (by simpa using position_eq_none.mp full slot small)
  · rename_i slot found
    obtain ⟨rfl, rfl⟩ := Prod.mk.inj allocated
    obtain ⟨small, empty, _⟩ := position_eq_some.mp found
    exact .inr ⟨slot, rfl, small, by simpa using empty, rfl⟩

/-- `close` empties the slot. -/
theorem close_table (objects : Objects) (handle : Handle) :
    (objects.close handle).2.table = Function.update objects.table (index handle) none := by
  unfold close
  split
  · rfl
  · rename_i empty
    rw [Bool.not_eq_true, Option.isSome_eq_false_iff, Option.isNone_iff_eq_none] at empty
    rw [← empty, Function.update_eq_self]

/-- Every slot of the table is the slot of some handle. -/
theorem index_surjective {slot : Nat} (inside : slot < maxHandles) :
    ∃ handle, index handle = slot := by
  unfold maxHandles at inside
  refine ⟨UInt32.ofNat (slot + 1), ?_⟩
  have exact : (UInt32.ofNat (slot + 1)).toNat = slot + 1 :=
    UInt32.toNat_ofNat_of_lt' (by simp only [UInt32.size]; omega)
  simp only [index, exact, wordSize, maxHandles]
  omega

end Objects

/-- Calls on the handle table that change it. -/
inductive HandleOp where
  /-- `objects::allocate`. -/
  | allocate (kind : ObjectKind) (data : UInt64)
  /-- `objects::close`. -/
  | close (handle : Handle)
  deriving DecidableEq

/-- The table beside the map it should refine: handles returned by `allocate` that no later
`close` has closed, with their objects. -/
structure HandleMap where
  /-- The table of the source. -/
  objects : Objects
  /-- Objects of the live handles. -/
  live : Handle → Option ObjectHeader

namespace HandleMap

/-- Boot: nothing is live. -/
def init : HandleMap := ⟨.init, fun _ => none⟩

/-- One call. A returned handle becomes live, and `close` ends it when it returns true. -/
def apply (state : HandleMap) : HandleOp → HandleMap
  | .allocate kind data =>
    match state.objects.allocate kind data with
    | (some handle, objects) =>
      ⟨objects, Function.update state.live handle (some ⟨kind, data⟩)⟩
    | (none, objects) => { state with objects := objects }
  | .close handle =>
    match state.objects.close handle with
    | (true, objects) =>
      { state with objects := objects, live := Function.update state.live handle none }
    | (false, objects) => { state with objects := objects }

/-- Every call returns. -/
def Step (before : HandleMap) (op : HandleOp) (after : HandleMap) : Prop :=
  after = before.apply op

/-- The table answers for a handle as the map of live handles does. -/
structure Resolves (state : HandleMap) (handle : Handle) : Prop where
  /-- It resolves to exactly its own object. -/
  lookup_iff : ∀ object, state.objects.lookup handle = some object ↔
    state.live handle = some object
  /-- It closes something only while it is live. -/
  close_iff : (state.objects.close handle).1 = true ↔ (state.live handle).isSome = true

/-- No live handle other than this one shares its slot, unless this one is live itself. -/
def Unaliased (state : HandleMap) (handle : Handle) : Prop :=
  ∀ other, (state.live other).isSome = true → Objects.index other = Objects.index handle →
    (state.live handle).isSome = true

/-- The condition on a call: the first free slot is the slot of the next handle, or a closed
handle is live or shares its slot with no live one. -/
def InStep (state : HandleMap) : HandleOp → Prop
  | .allocate _ _ => ∀ slot,
    position maxHandles (fun slot => (state.objects.table slot).isNone) = some slot →
      slot = Objects.index state.objects.nextHandle
  | .close handle => state.Unaliased handle

/-- Table and map agree: live handles own their slots, one each, and own all that is stored. -/
structure Consistent (state : HandleMap) : Prop where
  /-- A live handle's object lies in its slot. -/
  stored : ∀ handle object, state.live handle = some object →
    state.objects.lookup handle = some object
  /-- What is stored belongs to a live handle of that slot. -/
  owned : ∀ slot < maxHandles, ∀ object, state.objects.table slot = some object →
    ∃ handle, Objects.index handle = slot ∧ state.live handle = some object
  /-- Live handles do not share slots. -/
  apart : ∀ left right, (state.live left).isSome = true → (state.live right).isSome = true →
    Objects.index left = Objects.index right → left = right

variable {before after state : HandleMap} {op : HandleOp} {ops : List HandleOp}

/-- What `allocate` does to the pair. -/
theorem apply_allocate (kind : ObjectKind) (data : UInt64) {slot : Nat}
    (free : position maxHandles (fun slot => (before.objects.table slot).isNone) = some slot) :
    before.apply (.allocate kind data) =
      ⟨⟨Function.update before.objects.table slot (some ⟨kind, data⟩),
        before.objects.nextHandle + 1⟩,
       Function.update before.live before.objects.nextHandle (some ⟨kind, data⟩)⟩ := by
  simp only [apply, Objects.allocate, free]

/-- A full table changes nothing. -/
theorem apply_allocate_full (kind : ObjectKind) (data : UInt64)
    (full : position maxHandles (fun slot => (before.objects.table slot).isNone) = none) :
    before.apply (.allocate kind data) = before := by
  simp only [apply, Objects.allocate, full]

/-- Closing a handle whose slot is taken empties the slot. -/
theorem apply_close_taken {handle : Handle}
    (taken : (before.objects.lookup handle).isSome = true) :
    before.apply (.close handle) =
      { before with
        objects := { before.objects with
          table := Function.update before.objects.table (Objects.index handle) none }
        live := Function.update before.live handle none } := by
  rw [Objects.lookup] at taken
  simp only [apply, Objects.close, taken, ↓reduceIte]

/-- Closing a handle whose slot is empty changes nothing. -/
theorem apply_close_empty {handle : Handle} (empty : before.objects.lookup handle = none) :
    before.apply (.close handle) = before := by
  rw [Objects.lookup] at empty
  simp [apply, Objects.close, empty]

/-- While table and map agree, a slot without a live handle is empty. -/
theorem Consistent.lookup_eq_none (consistent : Consistent state) {handle : Handle}
    (unowned : ∀ other, (state.live other).isSome = true →
      Objects.index other ≠ Objects.index handle) : state.objects.lookup handle = none := by
  rw [Option.eq_none_iff_forall_ne_some]
  intro object stored
  have inside : Objects.index handle < maxHandles := Nat.mod_lt _ (by decide)
  obtain ⟨owner, sameSlot, live⟩ := consistent.owned _ inside object stored
  exact unowned owner (by rw [live, Option.isSome_some]) sameSlot

/-- While table and map agree, a slot found free has no live handle. -/
theorem Consistent.not_live_of_free (consistent : Consistent state) {handle : Handle}
    (free : state.objects.lookup handle = none) : state.live handle = none := by
  rw [Option.eq_none_iff_forall_ne_some]
  intro object live
  rw [consistent.stored handle object live] at free
  cases free

/-- While table and map agree, the table answers correctly for exactly the handles that do
not share a slot with another live handle. -/
theorem Consistent.resolves_iff (consistent : Consistent state) (handle : Handle) :
    state.Resolves handle ↔ state.Unaliased handle := by
  have closes : (state.objects.close handle).1 = (state.objects.lookup handle).isSome := by
    unfold Objects.close Objects.lookup
    split
    · rename_i taken
      exact taken.symm
    · rename_i empty
      exact (Bool.not_eq_true _ ▸ empty).symm
  constructor
  · intro resolves other live sameSlot
    obtain ⟨object, live⟩ := Option.isSome_iff_exists.mp live
    have stored := consistent.stored other object live
    rw [Objects.lookup, sameSlot] at stored
    rw [(resolves.lookup_iff object).mp stored, Option.isSome_some]
  · intro unaliased
    have same : state.objects.lookup handle = state.live handle := by
      cases live : state.live handle with
      | some object => exact consistent.stored handle object live
      | none =>
        apply consistent.lookup_eq_none
        intro other otherLive sameSlot
        have isLive := unaliased other otherLive sameSlot
        rw [live] at isLive
        cases isLive
    exact ⟨fun object => by rw [same], by rw [closes, same]⟩

/-- An allocation into the next handle's own slot keeps table and map in agreement. -/
theorem Consistent.allocated (consistent : Consistent state) (kind : ObjectKind) (data : UInt64)
    (free : position maxHandles (fun slot => (state.objects.table slot).isNone) =
      some (Objects.index state.objects.nextHandle)) :
    Consistent (state.apply (.allocate kind data)) := by
  have vacant := (position_eq_some.mp free).2.1
  rw [Option.isNone_iff_eq_none] at vacant
  rw [apply_allocate kind data free]
  have alone (handle : Handle) (live : (state.live handle).isSome = true) :
      Objects.index handle ≠ Objects.index state.objects.nextHandle := by
    intro sameSlot
    obtain ⟨object, live⟩ := Option.isSome_iff_exists.mp live
    have stored := consistent.stored handle object live
    rw [Objects.lookup, sameSlot, vacant] at stored
    cases stored
  refine ⟨?_, ?_, ?_⟩
  · intro handle object live
    dsimp only at live
    by_cases new : handle = state.objects.nextHandle
    · rw [new, Function.update_self] at live
      simp only [Objects.lookup, new, Function.update_self, live]
    · rw [Function.update_of_ne new] at live
      have other := alone handle (by rw [live, Option.isSome_some])
      simp only [Objects.lookup, Function.update_of_ne other]
      exact consistent.stored handle object live
  · intro slot inside object stored
    dsimp only at stored ⊢
    by_cases same : slot = Objects.index state.objects.nextHandle
    · rw [same, Function.update_self] at stored
      exact ⟨_, same.symm, by rw [Function.update_self, stored]⟩
    · rw [Function.update_of_ne same] at stored
      obtain ⟨handle, ownSlot, live⟩ := consistent.owned slot inside object stored
      refine ⟨handle, ownSlot, ?_⟩
      rw [Function.update_of_ne, live]
      intro new
      exact same (by rw [← ownSlot, new])
  · intro left right leftLive rightLive sameSlot
    dsimp only at leftLive rightLive
    by_cases leftNew : left = state.objects.nextHandle
    · by_contra differ
      rw [Function.update_of_ne (fun new => differ (leftNew.trans new.symm))] at rightLive
      exact alone right rightLive (by rw [← sameSlot, leftNew])
    · rw [Function.update_of_ne leftNew] at leftLive
      by_cases rightNew : right = state.objects.nextHandle
      · exact absurd (by rw [sameSlot, rightNew]) (alone left leftLive)
      · rw [Function.update_of_ne rightNew] at rightLive
        exact consistent.apart left right leftLive rightLive sameSlot

/-- Closing a live handle, or one whose slot is empty, keeps table and map in agreement. -/
theorem Consistent.closed (consistent : Consistent state) {handle : Handle}
    (unaliased : state.Unaliased handle) : Consistent (state.apply (.close handle)) := by
  cases stored : state.objects.lookup handle with
  | none =>
    rw [apply_close_empty stored]
    exact consistent
  | some object =>
    have resolves := (consistent.resolves_iff handle).mpr unaliased
    have live := (resolves.lookup_iff object).mp stored
    have isLive : (state.live handle).isSome = true := by rw [live, Option.isSome_some]
    rw [apply_close_taken (by rw [stored, Option.isSome_some])]
    have otherSlot (other : Handle) (different : other ≠ handle)
        (otherLive : (state.live other).isSome = true) :
        Objects.index other ≠ Objects.index handle :=
      fun sameSlot => different (consistent.apart other handle otherLive isLive sameSlot)
    have remains (other : Handle) (otherLive : (Function.update state.live handle none other).isSome =
        true) : other ≠ handle ∧ (state.live other).isSome = true := by
      by_cases same : other = handle
      · rw [same, Function.update_self] at otherLive
        cases otherLive
      · rw [Function.update_of_ne same] at otherLive
        exact ⟨same, otherLive⟩
    refine ⟨?_, ?_, ?_⟩
    · intro other object live
      dsimp only at live
      obtain ⟨different, otherLive⟩ := remains other (by rw [live, Option.isSome_some])
      rw [Function.update_of_ne different] at live
      simp only [Objects.lookup, Function.update_of_ne (otherSlot other different otherLive)]
      exact consistent.stored other object live
    · intro slot inside object stored
      dsimp only at stored ⊢
      by_cases same : slot = Objects.index handle
      · rw [same, Function.update_self] at stored
        cases stored
      · rw [Function.update_of_ne same] at stored
        obtain ⟨owner, ownSlot, live⟩ := consistent.owned slot inside object stored
        refine ⟨owner, ownSlot, ?_⟩
        rw [Function.update_of_ne, live]
        intro closed
        exact same (by rw [← ownSlot, closed])
    · intro left right leftLive rightLive
      exact consistent.apart left right (remains left leftLive).2 (remains right rightLive).2

/-- Calls that meet the condition keep table and map in agreement. -/
theorem Consistent.step (consistent : Consistent before) (inStep : before.InStep op)
    (step : Step before op after) : Consistent after := by
  subst step
  cases op with
  | allocate kind data =>
    cases free : position maxHandles fun slot => (before.objects.table slot).isNone with
    | none =>
      rw [apply_allocate_full kind data free]
      exact consistent
    | some slot =>
      have own : slot = Objects.index before.objects.nextHandle := inStep slot free
      rw [own] at free
      exact consistent.allocated kind data free
  | close handle => exact consistent.closed inStep

/-- A call that breaks the condition leaves some handle with a wrong answer. -/
theorem Consistent.inStep_of_resolves (consistent : Consistent before)
    (step : Step before op after)
    (exact : ∀ handle, after.Resolves handle ↔ after.Unaliased handle) : before.InStep op := by
  subst step
  cases op with
  | allocate kind data =>
    intro slot free
    by_contra outOfStep
    obtain ⟨inside, vacant, _⟩ := position_eq_some.mp free
    rw [Option.isNone_iff_eq_none] at vacant
    obtain ⟨handle, ownSlot⟩ := Objects.index_surjective inside
    rw [apply_allocate kind data free] at exact
    have unowned (other : Handle) (sameSlot : Objects.index other = slot) :
        Function.update before.live before.objects.nextHandle (some ⟨kind, data⟩) other = none := by
      have notNew : other ≠ before.objects.nextHandle := by
        intro new
        exact outOfStep (by rw [← sameSlot, new])
      rw [Function.update_of_ne notNew]
      exact consistent.not_live_of_free (by rw [Objects.lookup, sameSlot, vacant])
    have resolves := (exact handle).mpr (by
      intro other live sameSlot
      dsimp only at live
      rw [unowned other (sameSlot.trans ownSlot)] at live
      cases live)
    have found := (resolves.lookup_iff ⟨kind, data⟩).mp (by
      simp only [Objects.lookup, ownSlot, Function.update_self])
    dsimp only at found
    rw [unowned handle ownSlot] at found
    cases found
  | close handle =>
    intro other live sameSlot
    by_contra dead
    obtain ⟨object, live⟩ := Option.isSome_iff_exists.mp live
    have stored := consistent.stored other object live
    rw [apply_close_taken (by
      rw [Objects.lookup, ← sameSlot, ← Objects.lookup, stored, Option.isSome_some])] at exact
    have different : other ≠ handle := by
      intro same
      rw [← same, live] at dead
      exact dead rfl
    have stillLive : Function.update before.live handle none other = some object := by
      rw [Function.update_of_ne different, live]
    have resolves := (exact other).mpr fun _ _ _ => by simp only [stillLive, Option.isSome_some]
    have found := (resolves.lookup_iff object).mpr stillLive
    simp only [Objects.lookup, sameSlot, Function.update_self] at found
    cases found

/-- Nothing is stored and nothing is live at boot. -/
theorem consistent_init : Consistent init := by
  refine ⟨?_, ?_, ?_⟩
  · intro _ _ live
    exact absurd live (by simp [init])
  · intro _ _ _ stored
    exact absurd stored (by simp [init, Objects.init])
  · intro _ _ live
    exact absurd live (by simp [init])

/-- For every run from boot, every call meets the condition if and only if in every state
reached the table answers as the map of live handles for exactly the handles that share no
slot with another live handle. -/
theorem resolves_iff_inStep :
    Run (Guarded InStep Step) init ops state ↔
      Run (Reaching (fun reached => ∀ handle, reached.Resolves handle ↔ reached.Unaliased handle)
        Step) init ops state :=
  Run.guarded_iff_reaching Consistent
    (fun _ _ _ consistent inStep step => consistent.step inStep step)
    (fun _ consistent => consistent.resolves_iff)
    (fun _ _ _ consistent step exact => consistent.inStep_of_resolves step exact) consistent_init

/-- Two allocations, a close of the first handle and a third allocation: the third handle is
live and does not resolve. -/
theorem resolves_counterexample :
    let ops : List HandleOp := [.allocate .file 0xa000, .allocate .thread 0xb000, .close 1,
      .allocate .process 0xc000]
    let state := ops.foldl apply init
    Run Step init ops state ∧ state.live 3 = some ⟨.process, 0xc000⟩ ∧
      state.objects.lookup 3 = none ∧ ¬state.Resolves 3 := by
  intro ops state
  have live : state.live 3 = some ⟨.process, 0xc000⟩ := by decide +kernel
  have lost : state.objects.lookup 3 = none := by decide +kernel
  refine ⟨?_, live, lost, fun resolves => ?_⟩
  · exact .cons rfl (.cons rfl (.cons rfl (.cons rfl (.nil _))))
  · have found := (resolves.lookup_iff _).mpr live
    rw [lost] at found
    cases found

end HandleMap

end Aperture.Win32
