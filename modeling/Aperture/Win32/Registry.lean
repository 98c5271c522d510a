import Aperture.Machine.Run
import Aperture.Machine.SlotMap
import Aperture.Machine.Text
import Aperture.Mm.Heap

/-!
# The registry

Values live in a flat table under one path, the key and the value name joined by a backslash and
cut at 256 bytes. The path of an entry is a copy on the early heap, which only grows, so the
table is a finite map from paths to values. Two names interfere exactly when their paths agree.
-/

namespace Aperture.Win32

open Machine Mm

/-- Registry value types. -/
inductive RegValueType where
  /-- A 32-bit number. -/
  | dword
  /-- A 64-bit number. -/
  | qword
  /-- A text. -/
  | string
  /-- Any bytes. -/
  | binary
  deriving DecidableEq, Repr

/-- A registry value. -/
structure RegValue where
  /-- Type of the value. -/
  ty : RegValueType
  /-- Buffer with the data at its front. -/
  data : Vector UInt8 256
  /-- Number of bytes of data. -/
  len : Nat
  deriving DecidableEq, Repr

/-- The entry that `set_value` stores: the data cut at 256 bytes, the rest of the buffer zero. -/
def RegValue.entry (ty : RegValueType) (data : List UInt8) : RegValue where
  ty := ty
  data := Vector.ofFn fun offset => data.getD offset 0
  len := min data.length 256

/-- The bytes of a value. -/
def RegValue.contents (value : RegValue) : List UInt8 := value.data.toList.take value.len

/-- The type of a stored entry. -/
@[simp]
theorem RegValue.entry_ty (ty : RegValueType) (data : List UInt8) : (entry ty data).ty = ty := rfl

/-- The bytes of a stored entry. -/
theorem RegValue.contents_entry (ty : RegValueType) (data : List UInt8) :
    (entry ty data).contents = data.take (min data.length 256) := by
  refine List.ext_getElem? fun index => ?_
  simp only [contents, entry, Vector.toList_ofFn, List.getElem?_take, List.getElem?_ofFn]
  split
  · rename_i inside
    rw [dif_pos (by omega), List.getD_eq_getElem?_getD, List.getElem?_eq_getElem (by omega),
      Option.getD_some]
  · rfl

/-- `MAX_KEYS`. -/
def maxKeys : Nat := 256

/-- The separator between a key and a value name. -/
def backslash : UInt8 := 0x5C

/-- A `&'static str`: where its bytes lie. -/
structure StaticStr where
  /-- Address of the first byte. -/
  pointer : Nat
  /-- Number of bytes. -/
  len : Nat
  deriving DecidableEq, Repr

/-- The text of a string in memory. -/
def StaticStr.text (memory : PhysMem) (str : StaticStr) : List UInt8 :=
  memory.readBytes str.pointer str.len

/-- `REGISTRY`, and the early heap its paths are copied to. -/
structure Registry where
  /-- The table. -/
  slots : Nat → Option (StaticStr × RegValue)
  /-- `BUMP_ALLOC`. -/
  heap : BumpAllocator
  /-- Physical memory. -/
  memory : PhysMem

/-- Append bytes to a buffer of 256 bytes while it has room. -/
def appendBytes (buffer : List UInt8) : List UInt8 → List UInt8
  | [] => buffer
  | byte :: rest =>
    if 256 ≤ buffer.length then buffer else appendBytes (buffer ++ [byte]) rest

/-- `format_path`: the key, a backslash and the value name in a buffer of 256 bytes; empty when
the buffer is no UTF-8. -/
def formatPath (key value : List UInt8) : List UInt8 :=
  let keyed := appendBytes [] key
  let separated := if keyed.length < 256 then keyed ++ [backslash] else keyed
  let buffer := appendBytes separated value
  if validUtf8 buffer then buffer else []

namespace Registry

/-- `leak_str`: a copy on the early heap. -/
def leakStr (registry : Registry) (text : List UInt8) : Except Panic (StaticStr × Registry) := do
  match ← registry.heap.allocate text.length 1 with
  | (some copy, heap) =>
    pure (⟨copy, text.length⟩, { registry with heap, memory := registry.memory.copyIn copy text })
  | (none, _) => throw .missing

/-- The entry in a slot has this path. -/
def PathIs (registry : Registry) (path : List UInt8) (slot : Nat) : Bool :=
  (registry.slots slot).any fun item => item.1.text registry.memory = path

/-- `set_value`. -/
def setValue (registry : Registry) (key value : List UInt8) (ty : RegValueType)
    (data : List UInt8) : Except Panic (Bool × Registry) := do
  let (leaked, registry) ← registry.leakStr (formatPath key value)
  let entry := RegValue.entry ty data
  match position maxKeys (registry.PathIs (leaked.text registry.memory)) with
  | some slot =>
    pure (true, { registry with
      slots := Function.update registry.slots slot (some (leaked, entry)) })
  | none =>
    match position maxKeys fun slot => (registry.slots slot).isNone with
    | some slot =>
      pure (true, { registry with
        slots := Function.update registry.slots slot (some (leaked, entry)) })
    | none => pure (false, registry)

/-- `get_value`. -/
def getValue (registry : Registry) (key value : List UInt8) : Option RegValue :=
  (position maxKeys (registry.PathIs (formatPath key value))).bind fun slot =>
    (registry.slots slot).map Prod.snd

end Registry

/-! ## Paths -/

/-- A key and a value name with the separator between them. -/
def joined (key value : List UInt8) : List UInt8 := key ++ backslash :: value

/-- Appending fills the buffer up to 256 bytes. -/
theorem appendBytes_eq (buffer bytes : List UInt8) (room : buffer.length ≤ 256) :
    appendBytes buffer bytes = (buffer ++ bytes).take 256 := by
  induction bytes generalizing buffer with
  | nil => rw [appendBytes, List.append_nil, List.take_of_length_le room]
  | cons byte rest ih =>
    rw [appendBytes]
    split
    · rename_i full
      rw [List.take_append_of_le_length full, List.take_of_length_le room]
    · rw [ih _ (by rw [List.length_append, List.length_singleton]; omega), List.append_assoc,
        List.singleton_append]

/-- The path of a name is its first 256 bytes, or empty when the cut splits a character. -/
theorem formatPath_eq (key value : List UInt8) :
    formatPath key value =
      if validUtf8 ((joined key value).take 256) then (joined key value).take 256 else [] := by
  have buffer : appendBytes (if (appendBytes [] key).length < 256 then
      appendBytes [] key ++ [backslash] else appendBytes [] key) value =
      (joined key value).take 256 := by
    rw [appendBytes_eq [] key (Nat.zero_le _), List.nil_append]
    by_cases room : key.length < 256
    · rw [List.take_of_length_le (Nat.le_of_lt room), if_pos room, appendBytes_eq _ _ (by
        rw [List.length_append, List.length_singleton]; omega), List.append_assoc,
        List.singleton_append, joined]
    · have full : (key.take 256).length = 256 := by
        rw [List.length_take]
        omega
      rw [if_neg (by omega), appendBytes_eq _ _ (by omega), joined,
        List.take_append_of_le_length (by omega), List.take_append_of_le_length (by omega),
        List.take_take, Nat.min_self]
  simp only [formatPath, buffer]

/-- Two names have one path exactly when they agree on the first 256 bytes or both cuts split a
character. -/
theorem formatPath_eq_iff {key value otherKey otherValue : List UInt8} :
    formatPath key value = formatPath otherKey otherValue ↔
      (joined key value).take 256 = (joined otherKey otherValue).take 256 ∨
        validUtf8 ((joined key value).take 256) = false ∧
          validUtf8 ((joined otherKey otherValue).take 256) = false := by
  have nonempty (key value : List UInt8) : (joined key value).take 256 ≠ [] := by
    rw [ne_eq, List.take_eq_nil_iff, joined]
    simp
  rw [formatPath_eq, formatPath_eq]
  by_cases valid : validUtf8 ((joined key value).take 256) = true
  · by_cases otherValid : validUtf8 ((joined otherKey otherValue).take 256) = true
    · simp only [valid, otherValid, if_true, Bool.true_eq_false, false_and, or_false]
    · have differ : (joined key value).take 256 ≠ (joined otherKey otherValue).take 256 :=
        fun same => otherValid (same ▸ valid)
      simp [valid, otherValid, differ, nonempty]
  · by_cases otherValid : validUtf8 ((joined otherKey otherValue).take 256) = true
    · have differ : (joined key value).take 256 ≠ (joined otherKey otherValue).take 256 :=
        fun same => valid (same ▸ otherValid)
      simp [valid, otherValid, differ, (nonempty otherKey otherValue).symm]
    · simp [valid, otherValid]

/-! ## The table as a finite map -/

/-- A copied text reads back. -/
theorem text_copyIn (memory : PhysMem) (copy : Nat) (text : List UInt8) :
    (StaticStr.mk copy text.length).text (memory.copyIn copy text) = text :=
  memory.readBytes_copyIn copy text

/-- A copy above a text leaves it as it is. -/
theorem text_copyIn_below (memory : PhysMem) {str : StaticStr} {copy : Nat}
    (below : str.pointer + str.len ≤ copy) (text : List UInt8) :
    str.text (memory.copyIn copy text) = str.text memory := by
  refine List.map_congr_left fun offset member => ?_
  rw [PhysMem.copyIn, PhysMem.store_byte_outside]
  rintro ⟨above, -⟩
  rw [List.mem_range] at member
  dsimp only at above
  omega

namespace Registry

variable {registry after : Registry} {key value : List UInt8} {ty : RegValueType}
  {data : List UInt8} {returned : Bool}

/-- The table with its paths read from memory. -/
def table (registry : Registry) : SlotMap (List UInt8) RegValue :=
  fun slot => (registry.slots slot).map fun item => (item.1.text registry.memory, item.2)

/-- Every path lies below the heap's cursor. -/
def PathsBelow (registry : Registry) : Prop :=
  ∀ slot item, registry.slots slot = some item →
    item.1.pointer + item.1.len ≤ registry.heap.next

/-- A search by path is a search of the map. -/
theorem pathIs_eq (registry : Registry) (path : List UInt8) :
    registry.PathIs path = registry.table.Occupies path := by
  funext slot
  simp only [PathIs, SlotMap.Occupies, table, Option.any_map]

/-- A search for an empty slot is a search of the map. -/
theorem isNone_eq (registry : Registry) :
    (fun slot => (registry.slots slot).isNone) = fun slot => (registry.table slot).isNone := by
  funext slot
  rw [table, Option.isNone_map]

/-- `get_value` looks its path up. -/
theorem getValue_eq (registry : Registry) (key value : List UInt8) :
    registry.getValue key value =
      SlotMap.lookup maxKeys registry.table (formatPath key value) := by
  simp only [getValue, SlotMap.lookup, pathIs_eq, table, Option.map_map, Function.comp_def]

/-- A leaked path is a copy at the heap's cursor that moves no other path. -/
theorem leakStr_eq_ok {text : List UInt8} {leaked : StaticStr}
    (leaks : registry.leakStr text = .ok (leaked, after)) (below : registry.PathsBelow) :
    after.slots = registry.slots ∧ leaked.text after.memory = text ∧
      leaked.pointer + leaked.len ≤ after.heap.next ∧ after.table = registry.table ∧
        after.PathsBelow := by
  simp only [leakStr, bind_eq_ok] at leaks
  obtain ⟨⟨_ | copy, heap⟩, allocated, leaks⟩ := leaks
  · cases leaks
  · obtain ⟨rfl, rfl⟩ := Prod.mk.inj (pure_eq_ok.mp leaks)
    obtain ⟨fits, rfl, rfl⟩ := BumpAllocator.allocate_eq_some.mp allocated
    have aligned : registry.heap.aligned 1 = registry.heap.next :=
      BumpAllocator.aligned_one fits.2.1
    refine ⟨rfl, text_copyIn _ _ _, Nat.le_refl _, ?_, fun slot item held => ?_⟩
    · funext slot
      simp only [table]
      cases held : registry.slots slot with
      | none => rfl
      | some item =>
        have inside := below slot item held
        rw [Option.map_some, Option.map_some, text_copyIn_below _ (by omega)]
    · have inside := below slot item held
      exact inside.trans (by dsimp only; omega)

/-- `set_value` inserts its entry under its path. -/
theorem setValue_eq_ok (sets : registry.setValue key value ty data = .ok (returned, after))
    (below : registry.PathsBelow) :
    let inserted := SlotMap.insert maxKeys registry.table (formatPath key value)
      (RegValue.entry ty data)
    returned = inserted.1 ∧ after.table = inserted.2 ∧ after.PathsBelow := by
  simp only [setValue, bind_eq_ok] at sets
  obtain ⟨⟨leaked, copied⟩, leaks, sets⟩ := sets
  obtain ⟨slotsSame, text, inside, tableSame, copiedBelow⟩ := leakStr_eq_ok leaks below
  have stored (slot : Nat) :
      let final : Registry := { copied with
        slots := Function.update copied.slots slot (some (leaked, RegValue.entry ty data)) }
      final.table = Function.update registry.table slot
        (some (formatPath key value, RegValue.entry ty data)) ∧ final.PathsBelow := by
    refine ⟨funext fun index => ?_, fun index item held => ?_⟩
    · rw [← tableSame, ← text]
      by_cases here : index = slot
      · simp only [table, here, Function.update_self, Option.map_some]
      · simp only [table, Function.update_of_ne here]
    · by_cases here : index = slot
      · rw [here] at held
        simp only [Function.update_self, Option.some.injEq] at held
        rw [← held]
        exact inside
      · simp only [Function.update_of_ne here] at held
        exact copiedBelow index item held
  simp only [pathIs_eq, isNone_eq, text, tableSame] at sets
  dsimp only [SlotMap.insert]
  cases own : position maxKeys (registry.table.Occupies (formatPath key value)) with
  | some slot =>
    simp only [own, pure_eq_ok, Prod.mk.injEq] at sets
    obtain ⟨rfl, rfl⟩ := sets
    exact ⟨rfl, (stored slot).1, (stored slot).2⟩
  | none =>
    cases empty : position maxKeys fun slot => (registry.table slot).isNone with
    | some slot =>
      simp only [own, empty, pure_eq_ok, Prod.mk.injEq] at sets
      obtain ⟨rfl, rfl⟩ := sets
      exact ⟨rfl, (stored slot).1, (stored slot).2⟩
    | none =>
      simp only [own, empty, pure_eq_ok, Prod.mk.injEq] at sets
      obtain ⟨rfl, rfl⟩ := sets
      exact ⟨rfl, tableSame, copiedBelow⟩

end Registry

/-! ## Runs -/

/-- A call of `set_value` that returned. -/
structure SetCall where
  /-- The key. -/
  key : List UInt8
  /-- The value name. -/
  value : List UInt8
  /-- Type of the value. -/
  ty : RegValueType
  /-- The bytes. -/
  data : List UInt8
  /-- What the call returned. -/
  returned : Bool
  deriving DecidableEq, Repr

/-- The path of a call. -/
def SetCall.path (call : SetCall) : List UInt8 := formatPath call.key call.value

/-- The last successful call with a path. -/
def lastStored (calls : List SetCall) (path : List UInt8) : Option SetCall :=
  (calls.filter fun call => call.returned ∧ call.path = path).getLast?

/-- The paths of the successful calls. -/
def storedPaths (calls : List SetCall) : Finset (List UInt8) :=
  ((calls.filter SetCall.returned).map SetCall.path).toFinset

/-- A path is stored exactly when some successful call has it. -/
theorem mem_storedPaths {calls : List SetCall} {path : List UInt8} :
    path ∈ storedPaths calls ↔ lastStored calls path ≠ none := by
  simp only [storedPaths, lastStored, List.mem_toFinset, List.mem_map, List.mem_filter, ne_eq,
    List.getLast?_eq_none_iff, List.filter_eq_nil_iff, Bool.decide_and, Bool.decide_eq_true,
    Bool.and_eq_true, decide_eq_true_eq, not_forall, not_not]
  tauto

/-- An earlier call is the last one only when no later one has its path. -/
theorem lastStored_cons (call : SetCall) (calls : List SetCall) (path : List UInt8) :
    lastStored (call :: calls) path = (lastStored calls path).or
      (if call.returned = true ∧ call.path = path then some call else none) := by
  unfold lastStored
  by_cases suited : call.returned = true ∧ call.path = path
  · rw [List.filter_cons_of_pos (by simpa using suited), List.getLast?_cons, if_pos suited]
    cases (calls.filter fun call => call.returned ∧ call.path = path).getLast? <;> rfl
  · rw [List.filter_cons_of_neg (by simpa using suited), if_neg suited, Option.or_none]

namespace Registry

/-- One call of `set_value`. -/
def SetStep (before : Registry) (call : SetCall) (after : Registry) : Prop :=
  before.setValue call.key call.value call.ty call.data = .ok (call.returned, after)

/-- The table is a finite map whose paths lie below the heap's cursor. -/
structure Consistent (registry : Registry) : Prop where
  /-- No path stands in two slots. -/
  unique : SlotMap.Unique maxKeys registry.table
  /-- Every path lies below the cursor. -/
  below : registry.PathsBelow

/-- An empty table is consistent. -/
theorem consistent_of_empty {registry : Registry} (empty : ∀ slot, registry.slots slot = none) :
    registry.Consistent where
  unique left _ right _ path occupied := by
    simp [SlotMap.Occupies, table, empty] at occupied
  below slot item held := by
    rw [empty] at held
    cases held

variable {before after first last : Registry} {call : SetCall} {calls : List SetCall}

/-- A call keeps the table consistent. -/
theorem SetStep.consistent (step : SetStep before call after) (consistent : before.Consistent) :
    after.Consistent := by
  obtain ⟨-, tableAfter, below⟩ := setValue_eq_ok step consistent.below
  refine ⟨?_, below⟩
  rw [tableAfter]
  exact consistent.unique.insert _ _

/-- After a call the path of a successful one has its entry, and every other path what it had. -/
theorem SetStep.lookup (step : SetStep before call after) (consistent : before.Consistent)
    (path : List UInt8) :
    SlotMap.lookup maxKeys after.table path =
      if call.returned = true ∧ call.path = path then some (RegValue.entry call.ty call.data)
      else SlotMap.lookup maxKeys before.table path := by
  obtain ⟨returned, tableAfter, -⟩ := setValue_eq_ok step consistent.below
  rw [tableAfter]
  cases outcome : call.returned with
  | false =>
    rw [if_neg (by simp), SlotMap.insert_refused (returned.symm.trans outcome)]
  | true =>
    rw [SlotMap.lookup_insert consistent.unique (returned.symm.trans outcome)]
    exact if_congr (by simp [SetCall.path, eq_comm]) rfl rfl

/-- A call is refused exactly when its path is new and there are 256 paths. -/
theorem SetStep.refused_iff (step : SetStep before call after) (consistent : before.Consistent) :
    call.returned = false ↔ SlotMap.lookup maxKeys before.table call.path = none ∧
      (SlotMap.keys maxKeys before.table).card = maxKeys := by
  obtain ⟨returned, -, -⟩ := setValue_eq_ok step consistent.below
  rw [returned, SlotMap.insert_eq_false_iff consistent.unique]
  rfl

/-- Runs keep the table consistent. -/
theorem consistent_of_run (run : Run SetStep first calls last) (consistent : first.Consistent) :
    last.Consistent :=
  run.invariant Consistent (fun _ _ _ holds step => SetStep.consistent step holds) consistent

/-- After a run every path has the entry of the last successful call, or what it had before. -/
theorem lookup_of_run (run : Run SetStep first calls last) (consistent : first.Consistent)
    (path : List UInt8) :
    SlotMap.lookup maxKeys last.table path =
      ((lastStored calls path).map fun call => RegValue.entry call.ty call.data).or
        (SlotMap.lookup maxKeys first.table path) := by
  induction run with
  | nil state => rfl
  | @cons first middle last call calls head tail ih =>
    rw [ih (SetStep.consistent head consistent), SetStep.lookup head consistent, lastStored_cons]
    cases lastStored calls path with
    | some later => rfl
    | none =>
      by_cases suited : call.returned = true ∧ call.path = path
      · rw [if_pos suited, if_pos suited]
        rfl
      · rw [if_neg suited, if_neg suited]
        rfl

/-- A run from an empty table leaves the entries of the last successful calls. -/
theorem lookup_of_run_empty (run : Run SetStep first calls last)
    (empty : ∀ slot, first.slots slot = none) (path : List UInt8) :
    SlotMap.lookup maxKeys last.table path =
      (lastStored calls path).map fun call => RegValue.entry call.ty call.data := by
  have nothing : SlotMap.lookup maxKeys first.table path = none := by
    rw [SlotMap.lookup_eq_none]
    intro slot _
    simp [SlotMap.Occupies, table, empty]
  rw [lookup_of_run run (consistent_of_empty empty), nothing, Option.or_none]

/-- A run from an empty table holds the paths of its successful calls. -/
theorem keys_of_run_empty (run : Run SetStep first calls last)
    (empty : ∀ slot, first.slots slot = none) :
    SlotMap.keys maxKeys last.table = storedPaths calls := by
  ext path
  rw [SlotMap.mem_keys, lookup_of_run_empty run empty, mem_storedPaths, ne_eq, ne_eq,
    Option.map_eq_none_iff]

/-- The registry is a finite map: no two slots hold one path, a value is that of the last
successful call with its path, and a call is refused exactly when its path is new and 256 paths
are stored, changing no value. -/
theorem registry_finite_map (empty : ∀ slot, first.slots slot = none)
    (run : Run SetStep first calls last) :
    (∀ left < maxKeys, ∀ right < maxKeys, ∀ leftItem rightItem,
      last.slots left = some leftItem → last.slots right = some rightItem →
      leftItem.1.text last.memory = rightItem.1.text last.memory → left = right) ∧
    (∀ key value, (last.getValue key value).map (fun stored => (stored.ty, stored.contents)) =
      (lastStored calls (formatPath key value)).map fun call =>
        (call.ty, call.data.take (min call.data.length 256))) ∧
    ∀ call after, SetStep last call after →
      (call.returned = false ↔ call.path ∉ storedPaths calls ∧ (storedPaths calls).card = 256) ∧
      (call.returned = false →
        ∀ key value, after.getValue key value = last.getValue key value) := by
  have consistent := consistent_of_run run (consistent_of_empty empty)
  refine ⟨?_, fun key value => ?_, fun call after step => ⟨?_, fun refused key value => ?_⟩⟩
  · intro left leftInside right rightInside leftItem rightItem leftHeld rightHeld same
    refine consistent.unique left leftInside right rightInside (leftItem.1.text last.memory)
      (SlotMap.occupies_iff.mpr ⟨leftItem.2, ?_⟩) (SlotMap.occupies_iff.mpr ⟨rightItem.2, ?_⟩)
    · rw [table, leftHeld, Option.map_some]
    · rw [table, rightHeld, Option.map_some, same]
  · have shows (call : SetCall) : ((RegValue.entry call.ty call.data).ty,
        (RegValue.entry call.ty call.data).contents) =
        (call.ty, call.data.take (min call.data.length 256)) := by
      rw [RegValue.entry_ty, RegValue.contents_entry]
    simp only [getValue_eq, lookup_of_run_empty run empty, Option.map_map, Function.comp_def,
      shows]
  · rw [SetStep.refused_iff step consistent, keys_of_run_empty run empty,
      ← keys_of_run_empty run empty, SlotMap.mem_keys, not_not, maxKeys]
  · rw [getValue_eq, getValue_eq, SetStep.lookup step consistent, if_neg (by simp [refused])]

/-! ## Names that interfere -/

/-- A path has at most 256 bytes. -/
theorem length_formatPath_le (key value : List UInt8) : (formatPath key value).length ≤ 256 := by
  rw [formatPath_eq]
  split
  · exact List.length_take_le _ _
  · exact Nat.zero_le _

/-- While the early heap has room for the path, `set_value` returns. -/
theorem setValue_returns {registry : Registry} {key value : List UInt8}
    (fits : registry.heap.Fits (formatPath key value).length 1) (ty : RegValueType)
    (data : List UInt8) :
    ∃ returned after, registry.setValue key value ty data = .ok (returned, after) := by
  have allocated := BumpAllocator.allocate_eq_some.mpr ⟨fits, rfl, rfl⟩
  simp only [setValue, leakStr, allocated, ok_bind, pure, Except.pure]
  split
  · exact ⟨_, _, rfl⟩
  · split
    · exact ⟨_, _, rfl⟩
    · exact ⟨_, _, rfl⟩

/-- An empty table takes every value. -/
theorem setValue_of_empty {registry : Registry} (empty : ∀ slot, registry.slots slot = none)
    {key value : List UInt8} (fits : registry.heap.Fits (formatPath key value).length 1)
    (ty : RegValueType) (data : List UInt8) :
    ∃ after, registry.setValue key value ty data = .ok (true, after) := by
  obtain ⟨returned, after, sets⟩ := setValue_returns fits ty data
  have keys := keys_of_run_empty (.nil registry) empty
  have step : SetStep registry ⟨key, value, ty, data, returned⟩ after := sets
  have refused := step.refused_iff (consistent_of_empty empty)
  rw [keys] at refused
  cases returned with
  | true => exact ⟨after, sets⟩
  | false => exact absurd (refused.mp rfl).2 (by decide)

/-- A registry without values over an early heap of 4 KiB. -/
def fresh : Registry where
  slots _ := none
  heap := BumpAllocator.initHeap 0x100000 0x101000
  memory := ⟨fun _ => 0, []⟩

/-- Its heap has room for any path. -/
theorem fresh_fits (key value : List UInt8) :
    fresh.heap.Fits (formatPath key value).length 1 := by
  have small := length_formatPath_le key value
  have aligned : fresh.heap.aligned 1 = 0x100000 := BumpAllocator.aligned_one (by decide)
  have limit : fresh.heap.limit = 0x101000 := rfl
  refine ⟨Nat.one_pos, by decide, ?_, ?_⟩
  · rw [aligned, wordSize]
    omega
  · rw [aligned, limit]
    omega

/-- The registry behind a call that stores. -/
def storing : Except Panic (Bool × Registry) → Option Registry
  | .ok (true, registry) => some registry
  | _ => none

/-- It is there when the call returns true. -/
theorem storing_eq_some {outcome : Except Panic (Bool × Registry)} :
    storing outcome = some after ↔ outcome = .ok (true, after) := by
  unfold storing
  split
  · simp
  · rename_i other
    simp only [reduceCtorEq, false_iff]
    exact fun same => other after same

/-- Two values under two names, the first of which is stored again. -/
def twoNames : List SetCall :=
  [⟨[0x41], [0x42], .dword, [1, 2, 3, 4], true⟩, ⟨[0x41], [0x43], .string, [5], true⟩,
    ⟨[0x41], [0x42], .binary, [6, 7], true⟩]

/-- In an empty registry the first name reads what was stored last, and the second its own. -/
theorem registry_finite_map_fresh :
    ∃ last, Run SetStep fresh twoNames last ∧
      (last.getValue [0x41] [0x42]).map (fun stored => (stored.ty, stored.contents)) =
        some (.binary, [6, 7]) ∧
      (last.getValue [0x41] [0x43]).map (fun stored => (stored.ty, stored.contents)) =
        some (.string, [5]) := by
  have stores : (((storing (fresh.setValue [0x41] [0x42] .dword [1, 2, 3, 4])).bind fun first =>
      storing (first.setValue [0x41] [0x43] .string [5])).bind fun second =>
        storing (second.setValue [0x41] [0x42] .binary [6, 7])).isSome = true := by decide +kernel
  obtain ⟨last, returned⟩ := Option.isSome_iff_exists.mp stores
  obtain ⟨second, returned, third⟩ := Option.bind_eq_some_iff.mp returned
  obtain ⟨first, one, two⟩ := Option.bind_eq_some_iff.mp returned
  have run : Run SetStep fresh twoNames last :=
    .cons (storing_eq_some.mp one) (.cons (storing_eq_some.mp two)
      (.cons (storing_eq_some.mp third) (.nil last)))
  obtain ⟨_, reads, _⟩ := registry_finite_map (fun _ => rfl) run
  refine ⟨last, run, ?_, ?_⟩
  · rw [reads]
    decide +kernel
  · rw [reads]
    decide +kernel

/-- In every registry reached from an empty one, storing a value under the first name leaves the
value under the second as it is. -/
def KeepsOther (key value otherKey otherValue : List UInt8) : Prop :=
  ∀ (first registry after : Registry) (calls : List SetCall) (ty : RegValueType)
    (data : List UInt8), (∀ slot, first.slots slot = none) → Run SetStep first calls registry →
    registry.setValue key value ty data = .ok (true, after) →
    after.getValue otherKey otherValue = registry.getValue otherKey otherValue

/-- Names with one path interfere: in an empty registry the other name reads the stored value. -/
theorem not_keepsOther {key value otherKey otherValue : List UInt8}
    (same : formatPath key value = formatPath otherKey otherValue) :
    ¬KeepsOther key value otherKey otherValue := by
  intro keeps
  obtain ⟨after, sets⟩ := setValue_of_empty (fun _ => rfl) (fresh_fits key value) .dword []
  have kept := keeps fresh fresh after [] .dword [] (fun _ => rfl) (.nil fresh) sets
  have step : SetStep fresh ⟨key, value, .dword, [], true⟩ after := sets
  have lookup := step.lookup (consistent_of_empty fun _ => rfl) (formatPath otherKey otherValue)
  rw [getValue_eq, lookup, if_pos ⟨rfl, same⟩, getValue_eq,
    lookup_of_run_empty (.nil fresh) fun _ => rfl] at kept
  cases kept

/-- Storing under one name never changes the value under another exactly when their joined names
differ in the first 256 bytes and the cut leaves one of them UTF-8. -/
theorem keepsOther_iff (key value otherKey otherValue : List UInt8) :
    KeepsOther key value otherKey otherValue ↔
      (joined key value).take 256 ≠ (joined otherKey otherValue).take 256 ∧
        (validUtf8 ((joined key value).take 256) = true ∨
          validUtf8 ((joined otherKey otherValue).take 256) = true) := by
  have paths := not_congr (@formatPath_eq_iff key value otherKey otherValue)
  rw [not_or, not_and_or, Bool.not_eq_false, Bool.not_eq_false] at paths
  rw [ne_eq, ← paths]
  constructor
  · intro keeps same
    exact not_keepsOther same keeps
  · intro differ first registry after calls ty data empty run sets
    have consistent := consistent_of_run run (consistent_of_empty empty)
    have step : SetStep registry ⟨key, value, ty, data, true⟩ after := sets
    have lookup := step.lookup consistent (formatPath otherKey otherValue)
    rw [getValue_eq, lookup, if_neg fun suited => differ suited.2, getValue_eq]

/-- Names with backslashes interfere: `A\B` with value `C`, and `A` with value `B\C`. -/
theorem keepsOther_backslash :
    validUtf8 [0x41, 0x5C, 0x42] = true ∧ validUtf8 [0x43] = true ∧ validUtf8 [0x41] = true ∧
      validUtf8 [0x42, 0x5C, 0x43] = true ∧
      ¬KeepsOther [0x41, 0x5C, 0x42] [0x43] [0x41] [0x42, 0x5C, 0x43] :=
  ⟨by decide +kernel, by decide +kernel, by decide +kernel, by decide +kernel,
    not_keepsOther (by decide +kernel)⟩

end Registry

end Aperture.Win32
