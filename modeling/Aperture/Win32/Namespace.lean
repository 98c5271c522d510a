import Aperture.Machine.Run
import Aperture.Vfs.Tree
import Aperture.Win32.Nt

/-!
# Names through `create_file`

`open_vfs_file` looks a path up by splitting it, and creates a file by cutting the path at its last
slash. Both agree on the components of the path, so a file it creates is found again under every
path with these components, and the nodes stay a tree. The node it creates a file in is whatever
the lookup finds: only directories have children exactly while every creating call finds one.
-/

namespace Aperture.Win32

open Machine Vfs

variable {path : List UInt8}

/-! ## Cutting a path -/

/-- `parent` and `file_name` share the components of a path between them. -/
theorem components_parent_append (path : List UInt8) :
    components slash path =
      components slash (parent path) ++ components slash (fileName path) := by
  unfold parent fileName
  cases found : rfind slash path with
  | none => simp
  | some index =>
    have cut := (rfind_eq_some found).1
    have split := components_append_separator slash (path.take index) (path.drop (index + 1))
    rw [← cut] at split
    cases index with
    | zero => simpa using split
    | succ index => exact split

/-- A file name has no slash. -/
theorem slash_not_mem_fileName (path : List UInt8) : slash ∉ fileName path := by
  unfold fileName
  cases found : rfind slash path with
  | none => exact rfind_eq_none found
  | some index => exact (rfind_eq_some found).2

/-- The file name is the last component, unless it is empty. -/
theorem components_eq_parent (path : List UInt8) :
    components slash path =
      components slash (parent path) ++ if fileName path = [] then [] else [fileName path] := by
  rw [components_parent_append, components_of_not_mem (slash_not_mem_fileName path)]

/-- The file name of a UTF-8 path is UTF-8. -/
theorem validUtf8_fileName (valid : validUtf8 path = true) : validUtf8 (fileName path) = true := by
  unfold fileName
  cases found : rfind slash path with
  | none => exact valid
  | some index =>
    rw [(rfind_eq_some found).1, validUtf8_append_separator (by decide)] at valid
    exact valid.2

namespace Nt

variable {fs after : FileSystem} {create writeAccess : Bool} {above slot : Nat}

/-! ## What a call opens -/

/-- `open_vfs_file` creates a node: the path is missing, its parent is there, the name fits and a
slot is free. -/
structure Creates (fs : FileSystem) (path : List UInt8) (above slot : Nat) : Prop where
  /-- The path is missing. -/
  missing : fs.lookup path = none
  /-- The node it is created in. -/
  within : fs.lookup (parent path) = some above
  /-- The name fits its buffer. -/
  short : (fileName path).length ≤ maxNameLen
  /-- The first free slot. -/
  free : (position maxNodes fun i => (fs.nodes i).isNone) = some slot

/-- The file system with the node that `open_vfs_file` creates. -/
def withFile (fs : FileSystem) (path : List UInt8) (above slot : Nat) : FileSystem :=
  { fs with nodes := Function.update fs.nodes slot (some ⟨.file, some above, fileName path⟩) }

/-- The created node is a file in its slot. -/
@[simp]
theorem withFile_nodes (fs : FileSystem) (path : List UInt8) (above slot : Nat) :
    (withFile fs path above slot).nodes =
      Function.update fs.nodes slot (some ⟨.file, some above, fileName path⟩) := rfl

/-- The node that `open_vfs_file` opens, and the file system it opens it in. -/
inductive Resolves (fs : FileSystem) (path : List UInt8) : Bool → Nat → FileSystem → Prop
  /-- Without `create`, the node of the path. -/
  | found {node : Nat} (isFound : fs.lookup path = some node) : Resolves fs path false node fs
  /-- With `create`, a new file. -/
  | created {above slot : Nat} (creates : Creates fs path above slot) :
      Resolves fs path true slot (withFile fs path above slot)

/-- A created file has a name, and its parent no child of that name. -/
theorem Creates.fresh (creates : Creates fs path above slot) :
    fileName path ≠ [] ∧ fs.findChild above (fileName path) = none := by
  have missing := creates.missing
  have within := creates.within
  rw [FileSystem.lookup_eq_walk] at missing within
  rw [components_eq_parent] at missing
  by_cases empty : fileName path = []
  · rw [if_pos empty, List.append_nil, within] at missing
    cases missing
  · rw [if_neg empty, FileSystem.walk_append_singleton, within] at missing
    exact ⟨empty, missing⟩

/-- The slot was free. -/
theorem Creates.slot_free (creates : Creates fs path above slot) : fs.nodes slot = none := by
  simpa using (position_eq_some.mp creates.free).2.1

/-- A call resolves to one node. -/
theorem Resolves.unique {node other : Nat} {resolved otherResolved : FileSystem}
    (resolves : Resolves fs path create node resolved)
    (also : Resolves fs path create other otherResolved) :
    node = other ∧ resolved = otherResolved := by
  cases resolves with
  | found isFound =>
    cases also with
    | found alsoFound => exact ⟨Option.some.inj (isFound.symm.trans alsoFound), rfl⟩
  | created creates =>
    cases also with
    | created others =>
      obtain rfl := Option.some.inj (creates.within.symm.trans others.within)
      obtain rfl := Option.some.inj (creates.free.symm.trans others.free)
      exact ⟨rfl, rfl⟩

/-- Creating a file opens none. -/
theorem Resolves.openFiles_eq {node : Nat} {resolved : FileSystem}
    (resolves : Resolves fs path create node resolved) : resolved.openFiles = fs.openFiles := by
  cases resolves with
  | found => rfl
  | created => rfl

/-- `create` makes the node. -/
theorem Creates.create_eq (creates : Creates fs path above slot) :
    fs.create above (fileName path) .file = (some slot, withFile fs path above slot) := by
  rw [FileSystem.create, if_neg (Nat.not_lt.mpr creates.short), creates.fresh.2]
  simp only [Option.isSome_none, Bool.false_eq_true, if_false, creates.free]
  rfl

/-- A status for a failure, which is a collision only when the path is there. -/
structure Refuses (fs : FileSystem) (path : List UInt8) (status : NtStatus) : Prop where
  /-- It is a failure. -/
  failure : status ≠ .success
  /-- A collision is with the path's own node. -/
  collision : status = .objectNameCollision → ∃ node, fs.lookup path = some node

/-- What a call answers after `open`. -/
theorem answered_of_opens {opening : Except Panic (Option Nat × FileSystem)}
    {answer : Option Nat × FileSystem → Except Panic (Except NtStatus Nat × FileSystem)}
    {result : Except NtStatus Nat}
    (handle : ∀ handle files, answer (some handle, files) = .ok (.ok handle, files))
    (none : ∀ files, answer (none, files) = .ok (.error .invalidParameter, files))
    (answered : opening >>= answer = .ok (result, after)) :
    ∃ opened, opening = .ok (opened, after) ∧
      result = opened.elim (.error .invalidParameter) .ok := by
  obtain ⟨⟨opened, files⟩, returned, answered⟩ := bind_eq_ok.mp answered
  cases opened with
  | none =>
    rw [none] at answered
    obtain ⟨rfl, rfl⟩ := Prod.mk.inj (Except.ok.inj answered)
    exact ⟨_, returned, rfl⟩
  | some opened =>
    rw [handle] at answered
    obtain ⟨rfl, rfl⟩ := Prod.mk.inj (Except.ok.inj answered)
    exact ⟨_, returned, rfl⟩

/-- A call refuses before it opens anything, or opens the node it resolves to. -/
theorem openVfsFile_cases {result : Except NtStatus Nat}
    (returned : openVfsFile fs path create writeAccess = .ok (result, after)) :
    ((∃ status, result = .error status ∧ Refuses fs path status) ∧ after = fs ∧
      ∀ node resolved, ¬ Resolves fs path create node resolved) ∨
    ∃ node resolved opened, Resolves fs path create node resolved ∧
      resolved.openFile node writeAccess = .ok (opened, after) ∧
      result = opened.elim (.error .invalidParameter) .ok := by
  unfold openVfsFile at returned
  split at returned
  · rename_i node isFound
    cases create with
    | true =>
      cases returned
      refine .inl ⟨⟨_, rfl, by simp, fun _ => ⟨node, isFound⟩⟩, rfl, fun other resolved resolves => ?_⟩
      cases resolves with
      | created creates => exact absurd (isFound.symm.trans creates.missing) (by simp)
    | false =>
      simp only [Bool.false_eq_true, if_false] at returned
      obtain ⟨opened, opens⟩ := answered_of_opens (fun _ _ => rfl) (fun _ => rfl) returned
      exact .inr ⟨node, fs, opened, .found isFound, opens⟩
  rename_i missing
  cases create with
  | false =>
    cases returned
    refine .inl ⟨⟨_, rfl, by simp, by simp⟩, rfl, fun other resolved resolves => ?_⟩
    cases resolves with
    | found isFound => exact absurd (isFound.symm.trans missing) (by simp)
  | true =>
    simp only [Bool.not_true, Bool.false_eq_true, if_false] at returned
    split at returned
    · rename_i noParent
      cases returned
      refine .inl ⟨⟨_, rfl, by simp, by simp⟩, rfl, fun other resolved resolves => ?_⟩
      cases resolves with
      | created creates => exact absurd (creates.within.symm.trans noParent) (by simp)
    rename_i above within
    cases creating : fs.create above (fileName path) .file with
    | mk made files =>
      rw [creating] at returned
      obtain ⟨rfl, rfl, _⟩ | ⟨slot, rfl, short, _, first, rfl⟩ := FileSystem.create_cases creating
      · cases returned
        refine .inl ⟨⟨_, rfl, by simp, by simp⟩, rfl, fun other resolved resolves => ?_⟩
        cases resolves with
        | created creates =>
          obtain rfl := Option.some.inj (creates.within.symm.trans within)
          rw [creates.create_eq] at creating
          cases creating
      · obtain ⟨opened, opens⟩ := answered_of_opens (fun _ _ => rfl) (fun _ => rfl) returned
        exact .inr ⟨slot, _, opened, .created ⟨missing, within, short, first⟩, opens⟩

/-- A call creates the node it can create, and changes no other. -/
theorem openVfsFile_nodes {result : Except NtStatus Nat}
    (returned : openVfsFile fs path create writeAccess = .ok (result, after)) :
    (∃ above slot, create = true ∧ Creates fs path above slot ∧
      after.nodes = (withFile fs path above slot).nodes) ∨
    ((create = true → ∀ above slot, ¬ Creates fs path above slot) ∧ after.nodes = fs.nodes) := by
  obtain ⟨_, rfl, refuses⟩ | ⟨node, resolved, opened, resolves, opening, _⟩ :=
    openVfsFile_cases returned
  · refine .inr ⟨?_, rfl⟩
    rintro rfl above slot creates
    exact refuses _ _ (.created creates)
  · have same : after.nodes = resolved.nodes := by
      obtain ⟨_, rfl, _⟩ | ⟨slot, above, name, _, _, _, _, rfl⟩ := FileSystem.openFile_cases opening
      all_goals rfl
    cases resolves with
    | found => exact .inr ⟨by simp, same⟩
    | created creates => exact .inl ⟨_, _, rfl, creates, same⟩

/-- `create_file` opens a file and stores its handle in an object. -/
theorem createFile_cases {nt next : Nt} {result : Except NtStatus Handle}
    (returned : nt.createFile path create writeAccess = .ok (result, next)) :
    ∃ opened, openVfsFile nt.files path create writeAccess = .ok (opened, next.files) ∧
      ((∃ status, opened = .error status ∧ result = .error status ∧ next.objects = nt.objects) ∨
        ∃ file allocated, opened = .ok file ∧
          nt.objects.allocate .file (UInt64.ofNat file) = (allocated, next.objects) ∧
          result = allocated.elim (.error .invalidParameter) .ok) := by
  unfold createFile at returned
  obtain ⟨⟨opened, files⟩, opening, rest⟩ := bind_eq_ok.mp returned
  cases opened with
  | error status =>
    cases rest
    exact ⟨_, opening, .inl ⟨status, rfl, rfl, rfl⟩⟩
  | ok file =>
    simp only at rest
    cases allocating : nt.objects.allocate .file (UInt64.ofNat file) with
    | mk allocated objects =>
      rw [allocating] at rest
      cases allocated with
      | none =>
        cases rest
        exact ⟨_, opening, .inr ⟨file, none, rfl, allocating, rfl⟩⟩
      | some handle =>
        cases rest
        exact ⟨_, opening, .inr ⟨file, some handle, rfl, allocating, rfl⟩⟩

end Nt

/-! ## Only directories have children -/

/-- A call of `create_file`. -/
structure CreateFileCall where
  /-- The path. -/
  path : List UInt8
  /-- Whether to create the file. -/
  create : Bool
  /-- Whether the handle may write. -/
  writeAccess : Bool

/-- The kernel after the call. -/
def CreateFileCall.perform (nt : Nt) (call : CreateFileCall) : Except Panic Nt :=
  (nt.createFile call.path call.create call.writeAccess).map Prod.snd

/-- The call returns. -/
def CreateFileCall.Step (before : Nt) (call : CreateFileCall) (after : Nt) : Prop :=
  ∃ result, before.createFile call.path call.create call.writeAccess = .ok (result, after)

/-- Every node but the root is in a directory. -/
def InDirectories (nt : Nt) : Prop :=
  ∀ i node, nt.files.nodes i = some node → i ≠ 0 → ∃ above parentNode,
    node.parent = some above ∧ nt.files.nodes above = some parentNode ∧
      parentNode.kind = .directory

/-- There are only directories, all but the root in one of them. -/
structure OnlyDirectories (nt : Nt) : Prop where
  /-- The root is there. -/
  root : (nt.files.nodes 0).isSome = true
  /-- There are only directories. -/
  directories : ∀ i node, nt.files.nodes i = some node → node.kind = .directory
  /-- Each but the root has a parent. -/
  parents : ∀ i node, nt.files.nodes i = some node → i ≠ 0 →
    ∃ above, node.parent = some above ∧ (nt.files.nodes above).isSome = true

/-- The condition on a call: when it creates a file, it does so in a directory. -/
def CreatesInDirectory (nt : Nt) (call : CreateFileCall) : Prop :=
  call.create = true → ∀ above slot, Nt.Creates nt.files call.path above slot →
    ∃ parentNode, nt.files.nodes above = some parentNode ∧ parentNode.kind = .directory

section Directories

variable {before after : Nt} {call : CreateFileCall}

/-- With only directories, every node but the root is in one. -/
theorem OnlyDirectories.inDirectories (only : OnlyDirectories before) : InDirectories before := by
  intro i node stored isOther
  obtain ⟨above, isChild, isNode⟩ := only.parents i node stored isOther
  obtain ⟨parentNode, isNode⟩ := Option.isSome_iff_exists.mp isNode
  exact ⟨above, parentNode, isChild, isNode, only.directories above parentNode isNode⟩

/-- A call leaves the nodes as they were, or adds a file in a free slot. -/
theorem CreateFileCall.Step.nodes_cases (step : call.Step before after) :
    (∃ above slot, call.create = true ∧ Nt.Creates before.files call.path above slot ∧
      before.files.nodes slot = none ∧ after.files.nodes = Function.update before.files.nodes slot
        (some ⟨.file, some above, fileName call.path⟩)) ∨
    ((call.create = true → ∀ above slot, ¬ Nt.Creates before.files call.path above slot) ∧
      after.files.nodes = before.files.nodes) := by
  obtain ⟨result, returned⟩ := step
  obtain ⟨opened, opening, _⟩ := Nt.createFile_cases returned
  obtain ⟨above, slot, isCreate, creates, nodes⟩ | same := Nt.openVfsFile_nodes opening
  · exact .inl ⟨above, slot, isCreate, creates, creates.slot_free, nodes⟩
  · exact .inr same

/-- A call that creates in a directory keeps every node in one. -/
theorem InDirectories.step (placed : InDirectories before) (allowed : CreatesInDirectory before call)
    (step : call.Step before after) : InDirectories after := by
  obtain ⟨above, slot, isCreate, creates, empty, nodes⟩ | ⟨_, nodes⟩ := step.nodes_cases
  · have kept {i : Nat} {node : Node} (was : before.files.nodes i = some node) :
        after.files.nodes i = some node := by
      rw [nodes, Function.update_of_ne, was]
      rintro rfl
      rw [empty] at was
      cases was
    intro i node stored isOther
    by_cases isSlot : i = slot
    · obtain ⟨parentNode, isNode, isDirectory⟩ := allowed isCreate above slot creates
      rw [nodes, isSlot, Function.update_self, Option.some.injEq] at stored
      exact ⟨above, parentNode, stored ▸ rfl, kept isNode, isDirectory⟩
    · rw [nodes, Function.update_of_ne isSlot] at stored
      obtain ⟨above, parentNode, isChild, isNode, isDirectory⟩ := placed i node stored isOther
      exact ⟨above, parentNode, isChild, kept isNode, isDirectory⟩
  · unfold InDirectories
    rw [nodes]
    exact placed

/-- A call that leaves every node in a directory created in one. -/
theorem InDirectories.created (root : (before.files.nodes 0).isSome = true)
    (step : call.Step before after) (placed : InDirectories after) :
    CreatesInDirectory before call := by
  intro isCreate above slot creates
  obtain ⟨other, free, _, others, empty, nodes⟩ | ⟨none, _⟩ := step.nodes_cases
  · obtain rfl := Option.some.inj (creates.within.symm.trans others.within)
    obtain rfl := Option.some.inj (creates.free.symm.trans others.free)
    have isOther : slot ≠ 0 := by
      rintro rfl
      rw [empty] at root
      cases root
    obtain ⟨parent, parentNode, isChild, isNode, isDirectory⟩ :=
      placed slot _ (by rw [nodes, Function.update_self]) isOther
    obtain rfl := Option.some.inj isChild
    by_cases itself : above = slot
    · rw [nodes, itself, Function.update_self, Option.some.injEq] at isNode
      rw [← isNode] at isDirectory
      cases isDirectory
    · rw [nodes, Function.update_of_ne itself] at isNode
      exact ⟨parentNode, isNode, isDirectory⟩
  · exact absurd creates (none isCreate above slot)

/-- No call removes the root. -/
theorem root_kept (step : call.Step before after) (root : (before.files.nodes 0).isSome = true) :
    (after.files.nodes 0).isSome = true := by
  obtain ⟨above, slot, _, _, empty, nodes⟩ | ⟨_, nodes⟩ := step.nodes_cases
  · rw [nodes, Function.update_of_ne, root]
    rintro rfl
    rw [empty] at root
    cases root
  · rw [nodes, root]

/-- From only directories on, the runs that create files in directories are the runs in which only
directories ever have children. -/
theorem inDirectories_iff {calls : List CreateFileCall} (only : OnlyDirectories before) :
    Run (Guarded CreatesInDirectory fun first call => call.Step first) before calls after ↔
      Run (Reaching InDirectories fun first call => call.Step first) before calls after := by
  refine Run.guarded_iff_reaching
    (fun nt => InDirectories nt ∧ (nt.files.nodes 0).isSome = true) ?_ ?_ ?_
    ⟨only.inDirectories, only.root⟩
  · rintro first call next ⟨placed, root⟩ allowed step
    exact ⟨placed.step allowed step, root_kept step root⟩
  · exact fun _ placed => placed.1
  · rintro first call next ⟨_, root⟩ step placed
    exact placed.created root step

/-- The kernel after `vfs::init`, with nothing open. -/
def booted : Nt where
  files := .init ⟨fun _ => 0, []⟩
  objects := .init
  frames := ⟨0, 0, 0, 0⟩
  scheduler := Scheduler.boot (fun _ => Thread.new 1 1 0) ⟨0, 0, 0⟩ ⟨0, 0, 0, 0⟩ ⟨fun _ => 0, []⟩

/-- After `vfs::init` there is only the root directory. -/
theorem onlyDirectories_booted : OnlyDirectories booted := by
  have only {i : Nat} {node : Node} (stored : booted.files.nodes i = some node) :
      i = 0 ∧ node = ⟨.directory, none, [slash]⟩ := FileSystem.init_nodes stored
  constructor
  · rfl
  · intro i node stored
    rw [(only stored).2]
  · intro i node stored isOther
    exact absurd (only stored).1 isOther

/-- Calls that can be performed make a run. -/
theorem run_of_evaluate {calls : List CreateFileCall}
    (evaluated : Run.evaluate (fun _ _ => true) CreateFileCall.perform before calls = some after) :
    Run (fun first call => call.Step first) before calls after := by
  refine Run.of_evaluate (fun first call next _ performed => ?_) evaluated
  unfold CreateFileCall.perform at performed
  cases returned : first.createFile call.path call.create call.writeAccess with
  | error reason =>
    rw [returned] at performed
    cases performed
  | ok result =>
    rw [returned] at performed
    cases performed
    exact ⟨result.1, returned⟩

/-- Creating a file in the root directory. -/
theorem inDirectories_iff_root : ∃ last,
    Run (Reaching InDirectories fun first call => CreateFileCall.Step first call) booted
      [⟨[0x66], true, true⟩] last := by
  have returns : (Run.evaluate (fun _ _ => true) CreateFileCall.perform booted
      [⟨[0x66], true, true⟩]).isSome = true := by decide +kernel
  obtain ⟨last, evaluated⟩ := Option.isSome_iff_exists.mp returns
  have inRoot : booted.files.lookup (parent [0x66]) = some 0 := by decide +kernel
  have allowed : CreatesInDirectory booted ⟨[0x66], true, true⟩ := by
    intro _ above slot creates
    obtain rfl := Option.some.inj (creates.within.symm.trans inRoot)
    exact ⟨_, rfl, rfl⟩
  refine ⟨last, (inDirectories_iff onlyDirectories_booted).mp ?_⟩
  cases run_of_evaluate evaluated with
  | cons step rest =>
    cases rest
    exact .cons ⟨allowed, step⟩ (.nil _)

/-- A file created in a file is in no directory. -/
theorem inDirectories_file_in_file : ∃ last,
    Run (fun first call => CreateFileCall.Step first call) booted
      [⟨[0x66], true, true⟩, ⟨[0x66, 0x2F, 0x78], true, true⟩] last ∧ ¬ InDirectories last := by
  have nodes : (Run.evaluate (fun _ _ => true) CreateFileCall.perform booted
      [⟨[0x66], true, true⟩, ⟨[0x66, 0x2F, 0x78], true, true⟩]).map
        (fun nt => (nt.files.nodes 1, nt.files.nodes 2)) =
      some (some ⟨.file, some 0, [0x66]⟩, some ⟨.file, some 1, [0x78]⟩) := by decide +kernel
  obtain ⟨last, evaluated, stored⟩ := Option.map_eq_some_iff.mp nodes
  obtain ⟨first, second⟩ := Prod.mk.inj stored
  refine ⟨last, run_of_evaluate evaluated, fun placed => ?_⟩
  obtain ⟨above, parentNode, isChild, isNode, isDirectory⟩ := placed 2 _ second (by decide)
  obtain rfl := Option.some.inj isChild
  rw [first, Option.some.injEq] at isNode
  rw [← isNode] at isDirectory
  cases isDirectory

end Directories

/-! ## Files are found again -/

namespace Nt

variable {fs after : FileSystem} {above slot : Nat}

/-- The node that a file is created in is a node of the tree. -/
theorem Creates.isSome_above (creates : Creates fs path above slot) (tree : fs.Tree) :
    (fs.nodes above).isSome = true :=
  tree.isSome_of_named (tree.lookup_eq_some_iff.mp creates.within).1

/-- Creating a file keeps the tree. -/
theorem Creates.tree (creates : Creates fs path above slot) (tree : fs.Tree)
    (nodes : after.nodes = (withFile fs path above slot).nodes) : after.Tree :=
  tree.insert (creates.isSome_above tree) creates.fresh.1 (slash_not_mem_fileName path)
    creates.fresh.2 creates.free nodes

/-- Nodes that were there stay. -/
theorem Creates.kept (creates : Creates fs path above slot)
    (nodes : after.nodes = (withFile fs path above slot).nodes) (i : Nat) (stored : Node)
    (was : fs.nodes i = some stored) : after.nodes i = some stored := by
  rw [nodes, withFile_nodes, Function.update_of_ne, was]
  rintro rfl
  rw [creates.slot_free] at was
  cases was

/-- The created file has the names of its path. -/
theorem Creates.named (creates : Creates fs path above slot) (tree : fs.Tree)
    (nodes : after.nodes = (withFile fs path above slot).nodes) :
    FileSystem.Named after (components slash path) slot := by
  have outer := (tree.lookup_eq_some_iff.mp creates.within).1
  rw [components_eq_parent, if_neg creates.fresh.1]
  exact .child (outer.mono (creates.kept nodes)) (by rw [nodes, withFile_nodes, Function.update_self])

/-- A created file with a UTF-8 name is found under every path with the same components. -/
theorem Creates.lookup_eq (creates : Creates fs path above slot) (tree : fs.Tree)
    (nodes : after.nodes = (withFile fs path above slot).nodes)
    (valid : validUtf8 (fileName path) = true) {other : List UInt8}
    (same : components slash other = components slash path) : after.lookup other = some slot := by
  rw [(creates.tree tree nodes).lookup_eq_some_iff, same]
  refine ⟨creates.named tree nodes, fun name member => ?_⟩
  rw [components_eq_parent, if_neg creates.fresh.1, List.mem_append, List.mem_singleton] at member
  obtain member | rfl := member
  · exact (tree.lookup_eq_some_iff.mp creates.within).2 name member
  · exact valid

/-- A call that returns a handle has opened the file it resolves to and stored it in an object. -/
theorem createFile_opened {nt next : Nt} {create writeAccess : Bool} {handle : Handle}
    (returned : nt.createFile path create writeAccess = .ok (.ok handle, next)) :
    ∃ node resolved file object, Resolves nt.files path create node resolved ∧
      (∃ above name, resolved.nodes node = some ⟨.file, above, name⟩) ∧
      next.files.nodes = resolved.nodes ∧
      (file < maxOpenFiles ∧ nt.files.openFiles file = none ∧ next.files.openFiles =
        Function.update nt.files.openFiles file (some ⟨node, 0, writeAccess⟩)) ∧
      object < maxHandles ∧ nt.objects.table object = none ∧ next.objects.table =
        Function.update nt.objects.table object (some ⟨.file, UInt64.ofNat file⟩) := by
  obtain ⟨opened, opening, outcome⟩ := createFile_cases returned
  obtain ⟨_, _, failed, _⟩ | ⟨file, allocated, rfl, allocating, stored⟩ := outcome
  · cases failed
  obtain ⟨rfl, -, -⟩ | ⟨object, -, small, free, table⟩ := Objects.allocate_cases allocating
  · cases stored
  obtain ⟨⟨_, refused, _⟩, _⟩ | ⟨node, resolved, result, resolves, opening, isFile⟩ :=
    openVfsFile_cases opening
  · cases refused
  have same := resolves.openFiles_eq
  obtain ⟨rfl, -, -⟩ | ⟨slot, above, name, rfl, isNode, slotSmall, slotFree, after⟩ :=
    FileSystem.openFile_cases opening
  · cases isFile
  obtain rfl : file = slot := Except.ok.inj isFile
  refine ⟨node, resolved, file, object, resolves, ⟨above, name, isNode⟩, by rw [after],
    ⟨slotSmall, same ▸ slotFree, ?_⟩, small, free, table⟩
  rw [after, ← same]

/-- A status that a call returns is a failure, and a collision only when the path is there. -/
theorem createFile_status {nt next : Nt} {create writeAccess : Bool} {status : NtStatus}
    (returned : nt.createFile path create writeAccess = .ok (.error status, next)) :
    Refuses nt.files path status := by
  have noRoom : Refuses nt.files path .invalidParameter := ⟨by simp, by simp⟩
  obtain ⟨opened, opening, outcome⟩ := createFile_cases returned
  obtain ⟨reason, rfl, failed, _⟩ | ⟨file, allocated, rfl, allocating, failed⟩ := outcome
  · obtain rfl := Except.error.inj failed
    obtain ⟨⟨_, refused, refuses⟩, _⟩ | ⟨node, resolved, result, _, _, refused⟩ :=
      openVfsFile_cases opening
    · obtain rfl := Except.error.inj refused
      exact refuses
    · cases result with
      | none =>
        obtain rfl := Except.error.inj refused
        exact noRoom
      | some file => cases refused
  · cases allocated with
    | none =>
      obtain rfl := Except.error.inj failed
      exact noRoom
    | some handle => cases failed

/-- Creating a path that is there already collides. -/
theorem createFile_collides {nt : Nt} {node : Nat} (found : nt.files.lookup path = some node)
    (writeAccess : Bool) :
    nt.createFile path true writeAccess = .ok (.error .objectNameCollision, nt) := by
  unfold createFile openVfsFile
  rw [found]
  rfl

end Nt

/-- Calls that create nodes. -/
inductive NamingOp where
  /-- `nt::create_file`. -/
  | createFile (call : CreateFileCall)
  /-- `vfs::create`. -/
  | create (above : Nat) (name : List UInt8) (kind : NodeKind)

namespace NamingOp

/-- The call returns. -/
def Step (before : Nt) (op : NamingOp) (after : Nt) : Prop :=
  match op with
  | .createFile call => call.Step before after
  | .create above name kind => after = before.withFiles (before.files.create above name kind).2

/-- Paths are UTF-8; `vfs::create` is called under a node, with a component of a path. -/
def Proper (nt : Nt) : NamingOp → Prop
  | .createFile call => validUtf8 call.path = true
  | .create above name _ => (nt.files.nodes above).isSome = true ∧ name ≠ [] ∧ slash ∉ name ∧
      validUtf8 name = true

end NamingOp

/-- The nodes are a tree of UTF-8 names. -/
structure Utf8Tree (nt : Nt) : Prop where
  /-- The nodes are a tree. -/
  tree : nt.files.Tree
  /-- Names are UTF-8. -/
  valid : ∀ i node, nt.files.nodes i = some node → validUtf8 node.name = true

namespace Utf8Tree

variable {before after : Nt}

/-- After `vfs::init`. -/
theorem init {memory : PhysMem} (initially : before.files = .init memory) : Utf8Tree before := by
  constructor
  · rw [initially]
    exact FileSystem.tree_init memory
  · intro i node stored
    rw [initially] at stored
    rw [(FileSystem.init_nodes stored).2]
    decide +kernel

/-- A new node with a UTF-8 name leaves the names UTF-8. -/
theorem valid_insert (named : Utf8Tree before) {slot above : Nat} {kind : NodeKind} {name : List UInt8}
    (nodes : after.files.nodes = Function.update before.files.nodes slot
      (some ⟨kind, some above, name⟩)) (isValid : validUtf8 name = true) :
    ∀ i node, after.files.nodes i = some node → validUtf8 node.name = true := by
  intro i node stored
  rw [nodes] at stored
  by_cases isSlot : i = slot
  · rw [isSlot, Function.update_self, Option.some.injEq] at stored
    rw [← stored]
    exact isValid
  · rw [Function.update_of_ne isSlot] at stored
    exact named.valid i node stored

/-- A proper call keeps the tree of UTF-8 names. -/
theorem step (named : Utf8Tree before) {op : NamingOp} (proper : op.Proper before)
    (step : op.Step before after) : Utf8Tree after := by
  cases op with
  | createFile call =>
    obtain ⟨above, slot, _, creates, _, nodes⟩ | ⟨_, nodes⟩ :=
      CreateFileCall.Step.nodes_cases step
    · exact ⟨creates.tree named.tree nodes, named.valid_insert nodes (validUtf8_fileName proper)⟩
    · exact ⟨named.tree.congr nodes, nodes ▸ named.valid⟩
  | create above name kind =>
    obtain ⟨isNode, nonempty, free, isValid⟩ := proper
    obtain rfl : _ = _ := step
    cases created : before.files.create above name kind with
    | mk result files =>
      refine ⟨named.tree.create_step isNode nonempty free created, ?_⟩
      obtain ⟨-, rfl, -⟩ | ⟨slot, -, -, -, -, rfl⟩ := FileSystem.create_cases created
      · exact named.valid
      · exact named.valid_insert rfl isValid

/-- The names of a node are UTF-8. -/
theorem valid_of_named (named : Utf8Tree before) {names : List (List UInt8)} {node : Nat}
    (isNamed : FileSystem.Named before.files names node) :
    ∀ name ∈ names, validUtf8 name = true := by
  induction isNamed with
  | root => simp
  | child _ stored ih =>
    intro name member
    rw [List.mem_append, List.mem_singleton] at member
    obtain member | rfl := member
    · exact ih name member
    · exact named.valid _ _ stored

end Utf8Tree

/-- After `vfs::init`, in every run of proper calls, a directory has no two nodes of one name,
every node reaches the root and is found under the path of its names, and a file that
`create_file` creates is found under every path with its components, where it cannot be created
again. -/
theorem names_intact {memory : PhysMem} {first last : Nt} {ops : List NamingOp}
    (initially : first.files = .init memory)
    (run : Run (Guarded NamingOp.Proper NamingOp.Step) first ops last) :
    (∀ i j node other, last.files.nodes i = some node → last.files.nodes j = some other →
      node.parent = other.parent → node.name = other.name → i = j) ∧
    (∀ i, (last.files.nodes i).isSome = true → ∃ names, FileSystem.Named last.files names i ∧
      last.files.lookup ([slash].intercalate names) = some i) ∧
    ∀ path writeAccess handle after, validUtf8 path = true →
      last.createFile path true writeAccess = .ok (.ok handle, after) →
      ∃ node above, last.files.nodes node = none ∧
        after.files.nodes = Function.update last.files.nodes node
          (some ⟨.file, some above, fileName path⟩) ∧
        ∀ other, components slash other = components slash path →
          after.files.lookup other = some node ∧ ∀ writeAccess,
            after.createFile other true writeAccess = .ok (.error .objectNameCollision, after) := by
  have named : Utf8Tree last := run.invariant Utf8Tree
    (fun _ _ _ named ⟨proper, step⟩ => named.step proper step) (Utf8Tree.init initially)
  refine ⟨?_, ?_, ?_⟩
  · intro i j node other stored otherStored sameParent sameName
    exact named.tree.unique i j node other stored otherStored sameParent sameName
      (named.valid i node stored)
  · intro i stored
    obtain ⟨names, isNamed⟩ := named.tree.reaches i stored
    exact ⟨names, isNamed, named.tree.lookup_intercalate isNamed (named.valid_of_named isNamed)⟩
  · intro path writeAccess handle after valid returned
    obtain ⟨node, resolved, _, _, resolves, _, nodes, _⟩ := Nt.createFile_opened returned
    cases resolves with
    | @created above _ creates =>
      refine ⟨node, above, creates.slot_free, nodes, fun other same => ?_⟩
      have found := creates.lookup_eq named.tree nodes (validUtf8_fileName valid) same
      exact ⟨found, Nt.createFile_collides found⟩

/-- `/d//x`, created in a directory of the root, is there as `d/x`. -/
theorem names_intact_nested : ∃ last handle after node,
    Run (Guarded NamingOp.Proper NamingOp.Step) booted [.create 0 [0x64] .directory] last ∧
    last.createFile [0x2F, 0x64, 0x2F, 0x2F, 0x78] true true = .ok (.ok handle, after) ∧
    after.files.lookup [0x64, 0x2F, 0x78] = some node ∧
    after.createFile [0x64, 0x2F, 0x78] true true = .ok (.error .objectNameCollision, after) := by
  have run : Run (Guarded NamingOp.Proper NamingOp.Step) booted [.create 0 [0x64] .directory]
      (booted.withFiles (booted.files.create 0 [0x64] .directory).2) :=
    .cons ⟨⟨rfl, by decide, by decide, by decide +kernel⟩, rfl⟩ (.nil _)
  have status : ((booted.withFiles (booted.files.create 0 [0x64] .directory).2).createFile
      [0x2F, 0x64, 0x2F, 0x2F, 0x78] true true).toOption.map (fun outcome => outcome.1.toOption) =
      some (some 1) := by decide +kernel
  cases returned : (booted.withFiles (booted.files.create 0 [0x64] .directory).2).createFile
      [0x2F, 0x64, 0x2F, 0x2F, 0x78] true true with
  | error reason =>
    rw [returned] at status
    cases status
  | ok outcome =>
    obtain ⟨_ | handle, after⟩ := outcome
    · rw [returned] at status
      cases status
    · obtain ⟨_, _, created⟩ := names_intact rfl run
      obtain ⟨node, above, _, _, found⟩ := created _ _ _ _ (by decide +kernel) returned
      obtain ⟨lookup, collides⟩ := found [0x64, 0x2F, 0x78] (by decide +kernel)
      exact ⟨_, handle, after, node, run, returned, lookup, collides true⟩

end Aperture.Win32
