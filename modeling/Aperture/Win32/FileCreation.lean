import Aperture.Win32.Namespace

/-!
# Failed calls of `create_file`

A call may make a node, then takes a slot for an open file and last a handle. Each step can fail
after the ones before it, and nothing is taken back: the call is without effect exactly when it
fails before its first step.
-/

namespace Aperture.Win32.Nt

open Machine Vfs

variable {fs after : FileSystem} {nt next : Nt} {path : List UInt8} {create writeAccess : Bool}

/-- The node table, the open files and the handle table are as before. -/
structure SameTables (nt next : Nt) : Prop where
  /-- The nodes. -/
  nodes : next.files.nodes = nt.files.nodes
  /-- The open files. -/
  openFiles : next.files.openFiles = nt.files.openFiles
  /-- The handles. -/
  objects : next.objects = nt.objects

/-- A call resolves to a file: one that is there, or one it can create. -/
def FindsFile (fs : FileSystem) (path : List UInt8) (create : Bool) : Prop :=
  ∃ node resolved above name, Resolves fs path create node resolved ∧
    resolved.nodes node = some ⟨.file, above, name⟩

/-- Every slot of the open files is taken. -/
def OpenFull (fs : FileSystem) : Prop := ∀ slot < maxOpenFiles, fs.openFiles slot ≠ none

/-- A created node is in the table, and was not before. -/
theorem Creates.nodes_ne {above slot : Nat} (creates : Creates fs path above slot) :
    (withFile fs path above slot).nodes ≠ fs.nodes := by
  intro same
  have stored := congrFun same slot
  rw [withFile_nodes, Function.update_self, creates.slot_free] at stored
  cases stored

/-- An opened slot was empty. -/
theorem openFiles_update_ne {slot : Nat} {file : OpenFile} (empty : fs.openFiles slot = none) :
    Function.update fs.openFiles slot (some file) ≠ fs.openFiles := by
  intro same
  have stored := congrFun same slot
  rw [Function.update_self, empty] at stored
  cases stored

/-- A call that finds no file leaves the file system as it was. -/
theorem openVfsFile_notFound {result : Except NtStatus Nat} (noFile : ¬FindsFile fs path create)
    (returned : openVfsFile fs path create writeAccess = .ok (result, after)) :
    after = fs ∧ ∃ status, result = .error status := by
  obtain ⟨⟨status, rfl, _⟩, rfl, _⟩ | ⟨node, resolved, opened, resolves, opening, rfl⟩ :=
    openVfsFile_cases returned
  · exact ⟨rfl, status, rfl⟩
  · obtain ⟨rfl, rfl, _⟩ | ⟨slot, above, name, _, isFile, _⟩ := FileSystem.openFile_cases opening
    · cases resolves with
      | found => exact ⟨rfl, _, rfl⟩
      | created creates =>
        exact absurd ⟨_, _, _, _, .created creates, Function.update_self ..⟩ noFile
    · exact absurd ⟨node, resolved, above, name, resolves, isFile⟩ noFile

/-- A call that finds a file opens it, or the open files are full; a node it creates stays. -/
theorem openVfsFile_found {result : Except NtStatus Nat} (finds : FindsFile fs path create)
    (returned : openVfsFile fs path create writeAccess = .ok (result, after)) :
    (OpenFull fs ∧ after.openFiles = fs.openFiles ∧ (∃ status, result = .error status) ∧
      (create = true ↔ after.nodes ≠ fs.nodes)) ∨
    ¬OpenFull fs ∧ after.openFiles ≠ fs.openFiles := by
  obtain ⟨node, resolved, above, name, resolves, isFile⟩ := finds
  obtain ⟨_, _, refuses⟩ | ⟨found, opened, outcome, also, opening, rfl⟩ := openVfsFile_cases returned
  · exact absurd resolves (refuses node resolved)
  obtain ⟨rfl, rfl⟩ := also.unique resolves
  have tables := resolves.openFiles_eq
  obtain ⟨rfl, rfl, noFile | full⟩ | ⟨slot, _, _, _, _, small, empty, rfl⟩ :=
    FileSystem.openFile_cases opening
  · exact absurd isFile (noFile above name)
  · rw [tables] at full
    refine .inl ⟨full, tables, ⟨_, rfl⟩, ?_⟩
    cases resolves with
    | found => exact ⟨nofun, fun differs => absurd rfl differs⟩
    | created creates => exact ⟨fun _ => creates.nodes_ne, fun _ => rfl⟩
  · rw [tables] at empty
    refine .inr ⟨fun full => full slot small empty, ?_⟩
    dsimp only
    rw [tables]
    exact openFiles_update_ne empty

/-- For every state, path and arguments: a `create_file` that fails leaves the node table, the open
files and the handle table as they were exactly when it finds no file to open, or it creates none
and the open files are full. -/
theorem createFile_failed_iff {status : NtStatus}
    (returned : nt.createFile path create writeAccess = .ok (.error status, next)) :
    SameTables nt next ↔ (FindsFile nt.files path create → create = false ∧ OpenFull nt.files) := by
  obtain ⟨opened, opening, failure⟩ := createFile_cases returned
  by_cases finds : FindsFile nt.files path create
  · obtain ⟨full, openFiles, ⟨refusal, rfl⟩, made⟩ | ⟨notFull, openFiles⟩ :=
      openVfsFile_found finds opening
    · obtain ⟨_, _, _, objects⟩ | ⟨_, _, isOk, _⟩ := failure
      · constructor
        · intro same _
          refine ⟨?_, full⟩
          rw [← Bool.not_eq_true, made]
          exact fun differs => differs same.nodes
        · intro allowed
          have created := made.not.mp (by rw [(allowed finds).1]; exact Bool.false_ne_true)
          exact ⟨not_not.mp created, openFiles, objects⟩
      · cases isOk
    · exact ⟨fun same => absurd same.openFiles openFiles,
        fun allowed => absurd (allowed finds).2 notFull⟩
  · obtain ⟨files, refusal, rfl⟩ := openVfsFile_notFound finds opening
    obtain ⟨_, _, _, objects⟩ | ⟨_, _, isOk, _⟩ := failure
    · exact ⟨fun _ found => absurd found finds, fun _ => ⟨by rw [files], by rw [files], objects⟩⟩
    · cases isOk

/-- Opening a path that is missing fails without effect. -/
theorem createFile_failed_iff_missing : ∃ next,
    booted.createFile [0x66] false false = .ok (.error .objectNameNotFound, next) ∧
      SameTables booted next := by
  have missing : booted.files.lookup [0x66] = none := by decide +kernel
  have opening : openVfsFile booted.files [0x66] false false =
      .ok (.error .objectNameNotFound, booted.files) := by
    unfold openVfsFile
    rw [missing]
    rfl
  have returned : booted.createFile [0x66] false false =
      .ok (.error .objectNameNotFound, { booted with files := booted.files }) := by
    unfold createFile
    rw [opening]
    rfl
  refine ⟨_, returned, (createFile_failed_iff returned).mpr ?_⟩
  rintro ⟨_, _, _, _, found, _⟩
  cases found with
  | found isFound =>
    rw [missing] at isFound
    cases isFound

/-- A kernel with one file, open through every slot. -/
def crowded : Nt :=
  booted.withFiles { booted.files with
    nodes := Function.update booted.files.nodes 1 (some ⟨.file, some 0, [0x66]⟩)
    openFiles := fun slot => if slot < maxOpenFiles then some ⟨1, 0, false⟩ else none }

/-- Creating a second file there makes its node, finds no slot to open it with and fails; the node
stays. -/
theorem createFile_failed_counterexample : ∃ next,
    crowded.createFile [0x67] true true = .ok (.error .invalidParameter, next) ∧
      ¬SameTables crowded next := by
  have creates : Creates crowded.files [0x67] 0 2 :=
    ⟨by decide +kernel, by decide +kernel, by decide, by decide +kernel⟩
  have full : (withFile crowded.files [0x67] 0 2).openFile 2 true =
      .ok (none, withFile crowded.files [0x67] 0 2) := by
    have noSlot : (position maxOpenFiles fun slot =>
        ((withFile crowded.files [0x67] 0 2).openFiles slot).isNone) = none := by decide +kernel
    rw [FileSystem.openFile, if_neg (by decide), withFile_nodes, Function.update_self, noSlot]
  have opening : openVfsFile crowded.files [0x67] true true =
      .ok (.error .invalidParameter, withFile crowded.files [0x67] 0 2) := by
    unfold openVfsFile
    simp only [creates.missing, creates.within, creates.create_eq, Bool.not_true,
      Bool.false_eq_true, if_false, full]
    rfl
  have returned : crowded.createFile [0x67] true true =
      .ok (.error .invalidParameter, { crowded with files := withFile crowded.files [0x67] 0 2 }) := by
    unfold createFile
    rw [opening]
    rfl
  exact ⟨_, returned, fun same => creates.nodes_ne same.nodes⟩

end Aperture.Win32.Nt
