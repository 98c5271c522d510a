import Aperture.Machine.Run
import Aperture.Win32.Namespace
import Aperture.Win32.UserProcess

/-!
# File objects

A file object holds the index of an open file. The handle table and the table of open files are
reused independently, so what keeps a file object from naming a file of another is the order in
which the two are taken and freed: `create_file` stores an index that was free, and `close` frees
the index and the object that holds it together. Every other call leaves open files open.
-/

namespace Aperture.Win32

open Machine Vfs

/-- Every file object holds the index of an open file, and no two hold the same. -/
structure FileObjects (nt : Nt) : Prop where
  /-- The file is open. -/
  isOpen : ∀ slot data, nt.objects.table slot = some ⟨.file, data⟩ →
    data.toNat < maxOpenFiles ∧ (nt.files.openFiles data.toNat).isSome = true
  /-- No other object holds it. -/
  distinct : ∀ slot other data, nt.objects.table slot = some ⟨.file, data⟩ →
    nt.objects.table other = some ⟨.file, data⟩ → slot = other

namespace FileObjects

variable {before after : Nt}

/-- Without objects there are no file objects. -/
theorem of_empty (empty : ∀ slot, before.objects.table slot = none) : FileObjects before := by
  constructor
  · intro slot data stored
    rw [empty] at stored
    cases stored
  · intro slot other data stored
    rw [empty] at stored
    cases stored

/-- Calls that keep the file objects, or lose some, and leave their files open keep the property. -/
theorem mono (holds : FileObjects before)
    (objects : ∀ slot data, after.objects.table slot = some ⟨.file, data⟩ →
      before.objects.table slot = some ⟨.file, data⟩ ∧
        (after.files.openFiles data.toNat).isSome = (before.files.openFiles data.toNat).isSome) :
    FileObjects after := by
  constructor
  · intro slot data stored
    obtain ⟨was, same⟩ := objects slot data stored
    rw [same]
    exact holds.isOpen slot data was
  · intro slot other data stored otherStored
    exact holds.distinct slot other data (objects slot data stored).1
      (objects other data otherStored).1

/-- Calls that leave the objects and the set of open files keep the property. -/
theorem of_same (holds : FileObjects before) (objects : after.objects = before.objects)
    (files : ∀ file, (after.files.openFiles file).isSome = (before.files.openFiles file).isSome) :
    FileObjects after := by
  refine holds.mono fun slot data stored => ?_
  rw [objects] at stored
  exact ⟨stored, files data.toNat⟩

end FileObjects

namespace Nt

/-- `open_vfs_file` opens a file that was not open, or none. -/
theorem openVfsFile_openFiles {fs after : FileSystem} {path : List UInt8}
    {create writeAccess : Bool} {result : Except NtStatus Nat}
    (returned : openVfsFile fs path create writeAccess = .ok (result, after)) :
    ((∃ status, result = .error status) ∧ after.openFiles = fs.openFiles) ∨
    ∃ file opened, result = .ok file ∧ file < maxOpenFiles ∧ fs.openFiles file = none ∧
      after.openFiles = Function.update fs.openFiles file (some opened) := by
  obtain ⟨⟨status, refused, _⟩, rfl, _⟩ | ⟨node, resolved, opened, resolves, opening, rfl⟩ :=
    openVfsFile_cases returned
  · exact .inl ⟨⟨status, refused⟩, rfl⟩
  · have same := resolves.openFiles_eq
    obtain ⟨rfl, rfl, _⟩ | ⟨file, above, name, rfl, _, small, free, rfl⟩ :=
      FileSystem.openFile_cases opening
    · exact .inl ⟨⟨_, rfl⟩, same⟩
    · exact .inr ⟨file, ⟨node, 0, writeAccess⟩, rfl, small, same ▸ free, by simp only [same]⟩

end Nt

namespace FileObjects

variable {before after : Nt} {path : List UInt8}

/-- A file that was not open belongs to no file object. -/
theorem ne_of_closed (holds : FileObjects before) {slot file : Nat} {data : UInt64}
    (stored : before.objects.table slot = some ⟨.file, data⟩)
    (closed : before.files.openFiles file = none) : data.toNat ≠ file := by
  rintro rfl
  have isOpen := (holds.isOpen slot data stored).2
  rw [closed] at isOpen
  cases isOpen

/-- A change of a file that was not open is none of the file objects' concern. -/
theorem of_closed (holds : FileObjects before) {file : Nat} {opened : Option OpenFile}
    (closed : before.files.openFiles file = none) (objects : after.objects = before.objects)
    (files : after.files.openFiles = Function.update before.files.openFiles file opened) :
    FileObjects after := by
  refine holds.mono fun slot data stored => ?_
  rw [objects] at stored
  refine ⟨stored, ?_⟩
  rw [files, Function.update_of_ne (holds.ne_of_closed stored closed)]

/-- A new file object for a file that was not open. -/
theorem allocate (holds : FileObjects before) {file slot : Nat} {opened : OpenFile}
    (small : file < maxOpenFiles) (closed : before.files.openFiles file = none)
    (objects : after.objects.table =
      Function.update before.objects.table slot (some ⟨.file, UInt64.ofNat file⟩))
    (files : after.files.openFiles = Function.update before.files.openFiles file (some opened)) :
    FileObjects after := by
  have index : (UInt64.ofNat file).toNat = file :=
    UInt64.toNat_ofNat_of_lt' (Nat.lt_trans small (by decide))
  have isNew {other : Nat} {data : UInt64}
      (stored : after.objects.table other = some ⟨.file, data⟩) :
      (other = slot ∧ data = UInt64.ofNat file) ∨
        before.objects.table other = some ⟨.file, data⟩ := by
    rw [objects] at stored
    by_cases isSlot : other = slot
    · rw [isSlot, Function.update_self, Option.some.injEq, ObjectHeader.mk.injEq] at stored
      exact .inl ⟨isSlot, stored.2.symm⟩
    · rw [Function.update_of_ne isSlot] at stored
      exact .inr stored
  constructor
  · intro other data stored
    obtain ⟨-, rfl⟩ | was := isNew stored
    · rw [index, files, Function.update_self]
      exact ⟨small, rfl⟩
    · rw [files, Function.update_of_ne (holds.ne_of_closed was closed)]
      exact holds.isOpen other data was
  · intro other third data stored thirdStored
    obtain ⟨rfl, rfl⟩ | was := isNew stored
    · obtain ⟨rfl, -⟩ | thirdWas := isNew thirdStored
      · rfl
      · exact absurd index (holds.ne_of_closed thirdWas closed)
    · obtain ⟨-, rfl⟩ | thirdWas := isNew thirdStored
      · exact absurd index (holds.ne_of_closed was closed)
      · exact holds.distinct other third data was thirdWas

/-- `create_file`. -/
theorem createFile (holds : FileObjects before) {create writeAccess : Bool}
    {result : Except NtStatus Handle}
    (returned : before.createFile path create writeAccess = .ok (result, after)) :
    FileObjects after := by
  obtain ⟨opened, opening, outcome⟩ := Nt.createFile_cases returned
  obtain ⟨⟨status, rfl⟩, same⟩ | ⟨file, opened, rfl, small, closed, files⟩ :=
    Nt.openVfsFile_openFiles opening
  · obtain ⟨_, _, _, objects⟩ | ⟨_, _, isOpen, _⟩ := outcome
    · exact holds.of_same objects fun _ => by rw [same]
    · cases isOpen
  · obtain ⟨_, isError, _⟩ | ⟨_, allocated, isOpen, allocating, _⟩ := outcome
    · cases isError
    · obtain rfl := Except.ok.inj isOpen
      obtain ⟨-, objects, -⟩ | ⟨slot, _, _, _, objects⟩ := Objects.allocate_cases allocating
      · exact holds.of_closed closed objects files
      · exact holds.allocate small closed objects files

/-- `close`. -/
theorem close (holds : FileObjects before) {handle : Handle} {status : NtStatus}
    (returned : before.close handle = .ok (status, after)) : FileObjects after := by
  unfold Nt.close at returned
  split at returned
  · obtain ⟨-, rfl⟩ := Prod.mk.inj (Except.ok.inj returned)
    exact holds
  rename_i header found
  split at returned
  · obtain ⟨-, rfl⟩ := Prod.mk.inj (Except.ok.inj returned)
    exact holds
  rename_i isFile
  obtain ⟨kind, file⟩ := header
  obtain rfl : kind = .file := Classical.not_not.mp isFile
  obtain ⟨⟨_, files⟩, closing, returned⟩ := bind_eq_ok.mp returned
  obtain ⟨_, _, openFiles⟩ := FileSystem.close_cases closing
  have emptied := before.objects.close_table handle
  have outcome : after.files = files ∧ after.objects = (before.objects.close handle).2 := by
    cases closed : before.objects.close handle with
    | mk result objects =>
      rw [closed] at returned
      cases result
      all_goals
        obtain ⟨-, rfl⟩ := Prod.mk.inj (Except.ok.inj returned)
        exact ⟨rfl, rfl⟩
  refine holds.mono fun slot data stored => ?_
  rw [outcome.2, emptied] at stored
  have isOther : slot ≠ Objects.index handle := by
    intro isSlot
    rw [isSlot, Function.update_self] at stored
    cases stored
  rw [Function.update_of_ne isOther] at stored
  refine ⟨stored, ?_⟩
  rw [outcome.1, openFiles, Function.update_of_ne]
  intro same
  rw [UInt64.toNat_inj.mp same] at stored
  exact isOther (holds.distinct _ _ _ stored found)

/-- `read_file`. -/
theorem readFile (holds : FileObjects before) {handle : Handle} {buffer filled : List UInt8}
    {result : Except NtStatus Nat}
    (returned : before.readFile handle buffer = .ok (result, filled, after)) :
    FileObjects after := by
  unfold Nt.readFile at returned
  split at returned
  · obtain ⟨-, rest⟩ := Prod.mk.inj (Except.ok.inj returned)
    obtain ⟨-, rfl⟩ := Prod.mk.inj rest
    exact holds
  obtain ⟨⟨count, bytes, files⟩, reading, returned⟩ := bind_eq_ok.mp returned
  cases count
  all_goals
    obtain ⟨-, rest⟩ := Prod.mk.inj (Except.ok.inj returned)
    obtain ⟨-, rfl⟩ := Prod.mk.inj rest
    exact holds.of_same rfl (FileSystem.Steady.read reading).openFiles

/-- `write_file`. -/
theorem writeFile (holds : FileObjects before) {handle : Handle} {buffer : List UInt8}
    {result : Except NtStatus Nat}
    (returned : before.writeFile handle buffer = .ok (result, after)) : FileObjects after := by
  unfold Nt.writeFile at returned
  split at returned
  · obtain ⟨-, rfl⟩ := Prod.mk.inj (Except.ok.inj returned)
    exact holds
  obtain ⟨⟨count, files⟩, writing, returned⟩ := bind_eq_ok.mp returned
  cases count
  all_goals
    obtain ⟨-, rfl⟩ := Prod.mk.inj (Except.ok.inj returned)
    exact holds.of_same rfl (FileSystem.Steady.write writing).openFiles

/-- `alloc_early`. -/
theorem allocEarly {size align : Nat} {result : Option Nat}
    (returned : before.allocEarly size align = .ok (result, after)) :
    after.files = before.files ∧ after.objects = before.objects := by
  obtain ⟨⟨pointer, heap⟩, _, returned⟩ := bind_eq_ok.mp returned
  obtain ⟨-, rfl⟩ := Prod.mk.inj (Except.ok.inj returned)
  exact ⟨rfl, rfl⟩

/-- An object for a process is no file object. -/
theorem allocateProcess (holds : FileObjects before) {data : UInt64} {result : Option Handle}
    {objects : Objects}
    (allocated : before.objects.allocate .process data = (result, objects)) :
    FileObjects { before with objects } := by
  obtain ⟨-, rfl, -⟩ | ⟨slot, _, _, _, table⟩ := Objects.allocate_cases allocated
  · exact holds
  · refine holds.mono fun other file stored => ?_
    rw [table] at stored
    have isOther : other ≠ slot := by
      rintro rfl
      rw [Function.update_self] at stored
      cases stored
    rw [Function.update_of_ne isOther] at stored
    exact ⟨stored, rfl⟩

/-- `load_pe` stores a process, which is no file object. -/
theorem loadPe (holds : FileObjects before) {layout : Nat → Process → List UInt8}
    {kernelCr3 pid : Nat} {data : List UInt8} {result : Option (Handle × Bool)}
    (returned : before.loadPe layout kernelCr3 data pid = .ok (result, after)) :
    FileObjects after := by
  obtain ⟨parsed, _, returned⟩ := bind_eq_ok.mp returned
  cases parsed with
  | none =>
    obtain ⟨-, rfl⟩ := Prod.mk.inj (Except.ok.inj returned)
    exact holds
  | some image =>
    obtain ⟨⟨pointer, middle⟩, allocating, returned⟩ := bind_eq_ok.mp returned
    obtain ⟨files, objects⟩ := allocEarly allocating
    have middleHolds : FileObjects middle := holds.of_same objects fun _ => by rw [files]
    cases pointer with
    | none =>
      obtain ⟨-, rfl⟩ := Prod.mk.inj (Except.ok.inj returned)
      exact middleHolds
    | some pointer =>
      obtain ⟨_, _, returned⟩ := bind_eq_ok.mp returned
      dsimp only at returned
      split at returned
      · cases returned
      split at returned
      · obtain ⟨-, rfl⟩ := Prod.mk.inj (Except.ok.inj returned)
        exact middleHolds.of_same rfl fun _ => rfl
      rename_i process last _ _
      have loadedHolds : FileObjects
          (middle.withMemory (last.memory.copyIn pointer (layout pid process))) :=
        middleHolds.of_same rfl fun _ => rfl
      split at returned
      · rename_i allocated
        obtain ⟨-, rfl⟩ := Prod.mk.inj (Except.ok.inj returned)
        exact loadedHolds.allocateProcess allocated
      · rename_i allocated
        obtain ⟨-, rfl⟩ := Prod.mk.inj (Except.ok.inj returned)
        exact loadedHolds.allocateProcess allocated

/-- `create_user_process` opens a file and closes it again before it loads it. -/
theorem createUserProcess (holds : FileObjects before) {layout : Nat → Process → List UInt8}
    {kernelCr3 : Nat} {result : Option (Handle × Bool)}
    (returned : before.createUserProcess layout kernelCr3 path = .ok (result, after)) :
    FileObjects after := by
  obtain ⟨⟨opened, files⟩, opening, returned⟩ := bind_eq_ok.mp returned
  obtain ⟨⟨status, rfl⟩, same⟩ | ⟨file, opened, rfl, small, closed, openFiles⟩ :=
    Nt.openVfsFile_openFiles opening
  · obtain ⟨-, rfl⟩ := Prod.mk.inj (Except.ok.inj returned)
    refine holds.of_same rfl fun file => ?_
    change (files.openFiles file).isSome = _
    rw [same]
  obtain ⟨size, _, returned⟩ := bind_eq_ok.mp returned
  have openedHolds : FileObjects (before.withFiles files) := holds.of_closed closed rfl openFiles
  cases size with
  | none =>
    obtain ⟨-, rfl⟩ := Prod.mk.inj (Except.ok.inj returned)
    exact openedHolds
  | some size =>
    obtain ⟨⟨buf, middle⟩, allocating, returned⟩ := bind_eq_ok.mp returned
    obtain ⟨sameFiles, sameObjects⟩ := allocEarly allocating
    have middleHolds : FileObjects middle :=
      openedHolds.of_same sameObjects fun _ => by rw [sameFiles]
    cases buf with
    | none =>
      obtain ⟨-, rfl⟩ := Prod.mk.inj (Except.ok.inj returned)
      exact middleHolds
    | some buf =>
      obtain ⟨_, _, returned⟩ := bind_eq_ok.mp returned
      obtain ⟨⟨count, read⟩, reading, returned⟩ := bind_eq_ok.mp returned
      have readHolds : FileObjects (middle.withFiles read) :=
        middleHolds.of_same rfl (FileSystem.Steady.readInto reading).openFiles
      cases count with
      | none =>
        obtain ⟨-, rfl⟩ := Prod.mk.inj (Except.ok.inj returned)
        exact readHolds
      | some count =>
        dsimp only at returned
        split at returned
        · obtain ⟨-, rfl⟩ := Prod.mk.inj (Except.ok.inj returned)
          exact readHolds
        obtain ⟨⟨_, last⟩, closing, returned⟩ := bind_eq_ok.mp returned
        obtain ⟨_, _, lastFiles⟩ := FileSystem.close_cases closing
        refine loadPe ?_ returned
        refine holds.mono fun slot data stored => ?_
        have was : before.objects.table slot = some ⟨.file, data⟩ := by
          rw [← show middle.objects = before.objects from sameObjects]
          exact stored
        refine ⟨was, ?_⟩
        have isOther := holds.ne_of_closed was closed
        have steady := (FileSystem.Steady.readInto reading).openFiles data.toNat
        calc (last.openFiles data.toNat).isSome
            = (read.openFiles data.toNat).isSome := by
              rw [lastFiles, Function.update_of_ne isOther]
          _ = (files.openFiles data.toNat).isSome := by
              rw [steady, sameFiles]
              rfl
          _ = (before.files.openFiles data.toNat).isSome := by
              rw [openFiles, Function.update_of_ne isOther]

end FileObjects

/-- Calls on files and objects. -/
inductive FileOp where
  /-- `nt::create_file`. -/
  | createFile (call : CreateFileCall)
  /-- `nt::read_file`. -/
  | readFile (handle : Handle) (buffer : List UInt8)
  /-- `nt::write_file`. -/
  | writeFile (handle : Handle) (buffer : List UInt8)
  /-- `nt::close`. -/
  | close (handle : Handle)
  /-- `nt::create_user_process`. -/
  | createUserProcess (path : List UInt8)

section Runs

variable (layout : Nat → Process → List UInt8) (kernelCr3 : Nat)

/-- The call returns. -/
def FileOp.Step (before : Nt) (op : FileOp) (after : Nt) : Prop :=
  match op with
  | .createFile call => call.Step before after
  | .readFile handle buffer =>
    ∃ result filled, before.readFile handle buffer = .ok (result, filled, after)
  | .writeFile handle buffer => ∃ result, before.writeFile handle buffer = .ok (result, after)
  | .close handle => ∃ status, before.close handle = .ok (status, after)
  | .createUserProcess path =>
    ∃ result, before.createUserProcess layout kernelCr3 path = .ok (result, after)

variable {layout kernelCr3}

/-- Every call keeps the file objects apart. -/
theorem FileObjects.step {before after : Nt} (holds : FileObjects before) {op : FileOp}
    (step : op.Step layout kernelCr3 before after) : FileObjects after := by
  cases op with
  | createFile call =>
    obtain ⟨_, returned⟩ := step
    exact holds.createFile returned
  | readFile handle buffer =>
    obtain ⟨_, _, returned⟩ := step
    exact holds.readFile returned
  | writeFile handle buffer =>
    obtain ⟨_, returned⟩ := step
    exact holds.writeFile returned
  | close handle =>
    obtain ⟨_, returned⟩ := step
    exact holds.close returned
  | createUserProcess path =>
    obtain ⟨_, returned⟩ := step
    exact holds.createUserProcess returned

end Runs

end Aperture.Win32
