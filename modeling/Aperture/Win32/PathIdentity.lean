import Aperture.Win32.Namespace

/-!
# Paths at the system-call boundary

`NtCreateFile` takes a path as a zero-terminated guest string. `guest_cstr` stops after 128 bytes
and takes what it has as text without a check, so two strings can meet in one path, and a string that
is no UTF-8 is not refused. The paths of two calls keep their identity exactly when the cut changes
the components of neither, what is read is UTF-8 and the handle's place is aligned.
-/

namespace Aperture.Win32

open Machine Mm Vfs

namespace Nt

variable {nt after : Nt}

/-! ## System calls and the tree -/

/-- A system call that returns leaves the nodes as they were. -/
def KeepsNodes (nt : Nt) (outcome : Except Panic Handled) : Prop :=
  ∀ handled, outcome = .ok handled → handled.after.files.nodes = nt.files.nodes

/-- A handler that ends with the same nodes. -/
theorem keepsNodes_replies {status : NtStatus} {accesses : List GuestAccess}
    (same : after.files.nodes = nt.files.nodes) : nt.KeepsNodes (after.replies status accesses) := by
  intro handled returned
  obtain rfl := Except.ok.inj returned
  exact same

/-- A handler that goes on after a computation. -/
theorem keepsNodes_bind {α : Type} {first : Except Panic α} {rest : α → Except Panic Handled}
    (keeps : ∀ value, first = .ok value → nt.KeepsNodes (rest value)) :
    nt.KeepsNodes (first >>= rest) := by
  intro handled returned
  obtain ⟨value, computed, returned⟩ := bind_eq_ok.mp returned
  exact keeps value computed handled returned

/-- The end of a query. -/
theorem keepsNodes_repliesLength (same : after.files.nodes = nt.files.nodes)
    (retLenPtr length : Nat) (accesses : List GuestAccess) :
    nt.KeepsNodes (after.repliesLength retLenPtr length accesses) := by
  unfold repliesLength
  split
  · exact keepsNodes_replies same
  · exact keepsNodes_bind fun _ _ => keepsNodes_replies same

/-- A query whose buffer may be too small. -/
theorem keepsNodes_unless {condition : Prop} [Decidable condition] {status : NtStatus}
    {outcome : Except Panic Handled} (keeps : nt.KeepsNodes outcome) :
    nt.KeepsNodes (if condition then nt.replies status [] else outcome) := by
  split
  · exact keepsNodes_replies rfl
  · exact keeps

/-- A query. -/
theorem keepsNodes_fills (bufPtr bufPhys retLenPtr : Nat) (information : List UInt8) :
    nt.KeepsNodes (nt.fills bufPtr bufPhys retLenPtr information) :=
  keepsNodes_repliesLength rfl _ _ _

/-- `NtClose`. -/
theorem keepsNodes_handleClose (args : SyscallArgs) : nt.KeepsNodes (nt.handleClose args) := by
  refine keepsNodes_bind fun ⟨status, after⟩ closed => keepsNodes_replies ?_
  unfold close at closed
  split at closed
  · obtain ⟨-, rfl⟩ := Prod.mk.inj (Except.ok.inj closed)
    rfl
  split at closed
  · obtain ⟨-, rfl⟩ := Prod.mk.inj (Except.ok.inj closed)
    rfl
  obtain ⟨⟨_, files⟩, closing, closed⟩ := bind_eq_ok.mp closed
  have nodes := (FileSystem.close_cases closing).2.1
  dsimp only at closed
  split at closed
  · obtain ⟨-, rfl⟩ := Prod.mk.inj (Except.ok.inj closed)
    exact nodes
  · obtain ⟨-, rfl⟩ := Prod.mk.inj (Except.ok.inj closed)
    exact nodes

/-- `NtReadFile`. -/
theorem keepsNodes_handleReadFile (args : SyscallArgs) :
    nt.KeepsNodes (nt.handleReadFile args) := by
  unfold handleReadFile
  dsimp only
  split
  · exact keepsNodes_replies rfl
  split
  · exact keepsNodes_replies rfl
  refine keepsNodes_bind fun _ _ => ?_
  split
  · exact keepsNodes_replies rfl
  refine keepsNodes_bind fun ⟨count, files⟩ reading => ?_
  have nodes := (FileSystem.Steady.readInto reading).nodes
  cases count with
  | none => exact keepsNodes_replies nodes
  | some count => exact keepsNodes_replies nodes

/-- `NtWriteFile`. -/
theorem keepsNodes_handleWriteFile (args : SyscallArgs) :
    nt.KeepsNodes (nt.handleWriteFile args) := by
  unfold handleWriteFile
  dsimp only
  split
  · exact keepsNodes_replies rfl
  split
  · exact keepsNodes_replies rfl
  refine keepsNodes_bind fun _ _ => ?_
  split
  · exact keepsNodes_replies rfl
  exact keepsNodes_bind fun ⟨written, files⟩ writing =>
    keepsNodes_replies (FileSystem.Steady.writeFrom writing).nodes

/-- `NtAllocateVirtualMemory`. -/
theorem keepsNodes_handleAllocateVirtualMemory (args : SyscallArgs) :
    nt.KeepsNodes (nt.handleAllocateVirtualMemory args) := by
  refine keepsNodes_bind fun ⟨base, after⟩ allocated => ?_
  obtain ⟨rounded, _, returned⟩ := bind_eq_ok.mp allocated
  obtain ⟨-, rfl⟩ := Prod.mk.inj (Except.ok.inj returned)
  cases base with
  | none => exact keepsNodes_replies rfl
  | some base =>
    dsimp only
    split
    · exact keepsNodes_replies rfl
    · exact keepsNodes_bind fun _ _ => keepsNodes_replies rfl

/-- `NtFreeVirtualMemory`. -/
theorem keepsNodes_handleFreeVirtualMemory (args : SyscallArgs) :
    nt.KeepsNodes (nt.handleFreeVirtualMemory args) := by
  refine keepsNodes_bind fun after freed => ?_
  obtain ⟨rounded, _, returned⟩ := bind_eq_ok.mp freed
  obtain ⟨memory, _, returned⟩ := bind_eq_ok.mp returned
  obtain rfl := Except.ok.inj returned
  exact keepsNodes_replies rfl

/-- `NtQuerySystemInformation`. -/
theorem keepsNodes_handleQuerySystemInformation (args : SyscallArgs) :
    nt.KeepsNodes (nt.handleQuerySystemInformation args) := by
  unfold handleQuerySystemInformation
  dsimp only
  split
  · exact keepsNodes_replies rfl
  split
  · exact keepsNodes_replies rfl
  refine keepsNodes_bind fun _ _ => ?_
  split
  · exact keepsNodes_unless (keepsNodes_fills _ _ _ _)
  split
  · exact keepsNodes_unless (keepsNodes_fills _ _ _ _)
  · exact keepsNodes_replies rfl

/-- `NtQueryInformationProcess`. -/
theorem keepsNodes_handleQueryInformationProcess (args : SyscallArgs) :
    nt.KeepsNodes (nt.handleQueryInformationProcess args) := by
  unfold handleQueryInformationProcess
  dsimp only
  split
  · exact keepsNodes_replies rfl
  split
  · exact keepsNodes_replies rfl
  split
  · exact keepsNodes_unless (keepsNodes_bind fun _ _ => keepsNodes_fills _ _ _ _)
  · exact keepsNodes_replies rfl

/-- `NtDelayExecution`. -/
theorem keepsNodes_handleDelayExecution (args : SyscallArgs) (rsp : Nat) :
    nt.KeepsNodes (nt.handleDelayExecution args rsp) := by
  unfold handleDelayExecution
  exact keepsNodes_bind fun _ _ => keepsNodes_bind fun _ _ => keepsNodes_replies rfl

/-- The part of `handle_create_file` after its pointers have been translated. -/
theorem handleCreateFile_cases {args : SyscallArgs} {handled : Handled}
    (returned : nt.handleCreateFile args = .ok handled) :
    handled.after.files.nodes = nt.files.nodes ∨
    ∃ path create writeAccess result next, nt.createFile path create writeAccess =
      .ok (result, next) ∧ handled.after.files.nodes = next.files.nodes := by
  unfold handleCreateFile at returned
  dsimp only at returned
  split at returned
  · exact .inl (keepsNodes_replies rfl _ returned)
  split at returned
  · exact .inl (keepsNodes_replies rfl _ returned)
  split at returned
  · exact .inl (keepsNodes_replies rfl _ returned)
  obtain ⟨path, _, returned⟩ := bind_eq_ok.mp returned
  obtain ⟨⟨result, next⟩, creating, returned⟩ := bind_eq_ok.mp returned
  cases result with
  | error status =>
    obtain rfl := Except.ok.inj returned
    exact .inr ⟨_, _, _, _, next, creating, rfl⟩
  | ok handle =>
    obtain ⟨_, _, returned⟩ := bind_eq_ok.mp returned
    obtain rfl := Except.ok.inj returned
    exact .inr ⟨_, _, _, _, next, creating, rfl⟩

/-- Every system call keeps the tree. -/
theorem tree_call {handled : Handled} (tree : nt.files.Tree) {rsp : Nat} {args : SyscallArgs}
    {handler : SyscallHandler} (returned : nt.call rsp args handler = .ok handled) :
    handled.after.files.Tree := by
  cases handler with
  | close => exact tree.congr (keepsNodes_handleClose args _ returned)
  | createFile =>
    obtain nodes | ⟨path, create, writeAccess, result, next, creating, nodes⟩ :=
      handleCreateFile_cases returned
    · exact tree.congr nodes
    · refine FileSystem.Tree.congr ?_ nodes
      have step : CreateFileCall.Step nt ⟨path, create, writeAccess⟩ next := ⟨result, creating⟩
      obtain ⟨above, slot, _, creates, _, nodes⟩ | ⟨_, nodes⟩ := step.nodes_cases
      · exact creates.tree tree nodes
      · exact tree.congr nodes
  | readFile => exact tree.congr (keepsNodes_handleReadFile args _ returned)
  | writeFile => exact tree.congr (keepsNodes_handleWriteFile args _ returned)
  | allocateVirtualMemory =>
    exact tree.congr (keepsNodes_handleAllocateVirtualMemory args _ returned)
  | freeVirtualMemory => exact tree.congr (keepsNodes_handleFreeVirtualMemory args _ returned)
  | querySystemInformation =>
    exact tree.congr (keepsNodes_handleQuerySystemInformation args _ returned)
  | queryInformationProcess =>
    exact tree.congr (keepsNodes_handleQueryInformationProcess args _ returned)
  | delayExecution =>
    exact tree.congr (keepsNodes_handleDelayExecution args rsp _ returned)

/-! ## Calls on guest strings -/

/-- The arguments of an `NtCreateFile` call: both pointers translate, and behind the path pointer
lie the bytes of the path and a zero. -/
structure CallsWith (nt : Nt) (args : SyscallArgs) (path : List UInt8) (create : Bool)
    (stringAt outAt : Nat) : Prop where
  /-- The pointer to the string. -/
  pointer : nt.userPtrToPhys (args 1).toNat = some stringAt
  /-- The string. -/
  string : nt.files.memory.readBytes stringAt (path.length + 1) = path ++ [0]
  /-- It ends at its first zero. -/
  terminated : 0 ∉ path
  /-- The pointer for the handle. -/
  out : nt.userPtrToPhys (args 0).toNat = some outAt
  /-- The disposition. -/
  disposition : (args 2 != 0) = create

/-- The part of a path that `guest_cstr` reads. -/
def readPath (path : List UInt8) : List UInt8 := path.take 128

/-- `guest_cstr` reads the first bytes of a terminated string. -/
theorem guestBytes_eq {phys : Nat} {path : List UInt8} (terminated : 0 ∉ path)
    (string : nt.files.memory.readBytes phys (path.length + 1) = path ++ [0]) :
    nt.guestBytes phys 128 = readPath path := by
  have nonzero (byte : UInt8) (member : byte ∈ path) : decide (byte ≠ 0) = true := by
    rw [decide_eq_true_eq]
    rintro rfl
    exact terminated member
  unfold guestBytes readPath
  by_cases short : path.length < 128
  · have split := nt.files.memory.readBytes_add phys (path.length + 1) (128 - (path.length + 1))
    rw [Nat.add_sub_cancel' short, string] at split
    rw [split, List.append_assoc, List.takeWhile_append_of_pos nonzero,
      List.take_of_length_le (Nat.le_of_lt short)]
    simp
  · have front : nt.files.memory.readBytes phys 128 = path.take 128 := by
      have split := nt.files.memory.readBytes_add phys 128 (path.length + 1 - 128)
      rw [Nat.add_sub_cancel' (by omega), string] at split
      have taken := congrArg (List.take 128) split
      rw [List.take_append_of_le_length (by omega), List.take_left' (by simp [PhysMem.readBytes])] at taken
      exact taken.symm
    rw [front, List.takeWhile_eq_self_iff]
    exact fun byte member => nonzero byte (List.mem_of_mem_take member)

/-- A pointer that translates is not null. -/
theorem ne_zero_of_userPtrToPhys {pointer phys : Nat}
    (found : nt.userPtrToPhys pointer = some phys) : pointer ≠ 0 := by
  rintro rfl
  simp [userPtrToPhys] at found

/-- The status of a call that ends with a handle or a status. -/
def statusOf : Except NtStatus Handle → NtStatus
  | .error status => status
  | .ok _ => .success

/-- What a lookup finds is in the table. -/
theorem lookup_lt {fs : FileSystem} (tree : fs.Tree) {path : List UInt8} {node : Nat}
    (found : fs.lookup path = some node) : node < maxNodes := by
  have isNode := tree.isSome_of_named (tree.lookup_eq_some_iff.mp found).1
  obtain ⟨stored, isStored⟩ := Option.isSome_iff_exists.mp isNode
  exact tree.inside node stored isStored

/-- `open_vfs_file` returns over a tree. -/
theorem openVfsFile_returns {fs : FileSystem} (tree : fs.Tree) (path : List UInt8)
    (create writeAccess : Bool) :
    ∃ result after, openVfsFile fs path create writeAccess = .ok (result, after) := by
  have opens (resolved : FileSystem) {node : Nat} (small : node < maxNodes)
      {answer : Option Nat × FileSystem → Except Panic (Except NtStatus Nat × FileSystem)}
      (answers : ∀ opened, ∃ result, answer opened = .ok result) :
      ∃ result after, resolved.openFile node writeAccess >>= answer = .ok (result, after) := by
    obtain ⟨opened, after, returned⟩ := @FileSystem.openFile_returns resolved node small writeAccess
    rw [returned, ok_bind]
    obtain ⟨⟨result, files⟩, answered⟩ := answers (opened, after)
    exact ⟨result, files, answered⟩
  unfold openVfsFile
  split
  · rename_i node found
    cases create with
    | true => exact ⟨_, _, rfl⟩
    | false =>
      simp only [Bool.false_eq_true, if_false]
      refine opens fs (lookup_lt tree found) fun ⟨opened, files⟩ => ?_
      cases opened with
      | none => exact ⟨_, rfl⟩
      | some handle => exact ⟨_, rfl⟩
  cases create with
  | false => exact ⟨_, _, rfl⟩
  | true =>
    simp only [Bool.not_true, Bool.false_eq_true, if_false]
    split
    · exact ⟨_, _, rfl⟩
    rename_i above within
    cases creating : fs.create above (fileName path) .file with
    | mk made files =>
      obtain ⟨rfl, -, -⟩ | ⟨slot, rfl, -, -, first, -⟩ := FileSystem.create_cases creating
      · exact ⟨_, _, rfl⟩
      · refine opens files (position_eq_some.mp first).1 fun ⟨opened, files⟩ => ?_
        cases opened with
        | none => exact ⟨_, rfl⟩
        | some handle => exact ⟨_, rfl⟩

/-- `create_file` returns over a tree. -/
theorem createFile_returns (tree : nt.files.Tree) (path : List UInt8) (create writeAccess : Bool) :
    ∃ result next, nt.createFile path create writeAccess = .ok (result, next) := by
  obtain ⟨opened, files, returned⟩ := openVfsFile_returns tree path create writeAccess
  unfold createFile
  rw [returned, ok_bind]
  cases opened with
  | error status => exact ⟨_, _, rfl⟩
  | ok file =>
    dsimp only
    split
    · exact ⟨_, _, rfl⟩
    · exact ⟨_, _, rfl⟩

/-- `guest_cstr` returns text that is not at address 0. -/
theorem guestCstr_eq_ok {phys max : Nat} {path : List UInt8} (small : max < 2 ^ 63) :
    nt.guestCstr phys max = .ok path ↔
      phys ≠ 0 ∧ validUtf8 (nt.guestBytes phys max) = true ∧ path = nt.guestBytes phys max := by
  unfold guestCstr
  constructor
  · intro returned
    obtain ⟨_, placed, returned⟩ := bind_eq_ok.mp returned
    split at returned
    · rename_i text
      exact ⟨(checkSlice_eq_ok.mp placed).1, text, (pure_eq_ok.mp returned).symm⟩
    · cases returned
  · rintro ⟨nonnull, text, rfl⟩
    rw [checkSlice_eq_ok.mpr ⟨nonnull, small⟩, ok_bind, if_pos text]
    rfl

/-- What a call does with the path that is read, and that it leaves the tables as that leaves
them. -/
structure Handles (nt : Nt) (path : List UInt8) (create : Bool) (handled : Handled)
    (writeAccess : Bool) (result : Except NtStatus Handle) (next : Nt) : Prop where
  /-- It creates or opens the file. -/
  creating : nt.createFile path create writeAccess = .ok (result, next)
  /-- Its status. -/
  status : handled.status = statusOf result
  /-- The nodes. -/
  nodes : handled.after.files.nodes = next.files.nodes
  /-- The open files. -/
  openFiles : handled.after.files.openFiles = next.files.openFiles
  /-- The objects. -/
  objects : handled.after.objects = next.objects

/-- A call returns exactly when the string is text that is not at address 0, and the place for the
handle is aligned if there is a handle. -/
theorem CallsWith.returns {args : SyscallArgs} {path : List UInt8} {create : Bool}
    {stringAt outAt : Nat} (calls : CallsWith nt args path create stringAt outAt)
    (tree : nt.files.Tree) :
    ∃ writeAccess result next,
      ((∃ handled, nt.handleCreateFile args = .ok handled) ↔
        stringAt ≠ 0 ∧ validUtf8 (readPath path) = true ∧
          ∀ handle, result = .ok handle → outAt % 8 = 0) ∧
      nt.createFile (readPath path) create writeAccess = .ok (result, next) ∧
      ∀ handled, nt.handleCreateFile args = .ok handled →
        nt.Handles (readPath path) create handled writeAccess result next := by
  have pointers : ¬ ((args 1).toNat = 0 ∨ (args 0).toNat = 0) :=
    not_or.mpr ⟨ne_zero_of_userPtrToPhys calls.pointer, ne_zero_of_userPtrToPhys calls.out⟩
  have reads (text : List UInt8) : nt.guestCstr stringAt 128 = .ok text ↔
      stringAt ≠ 0 ∧ validUtf8 (readPath path) = true ∧ text = readPath path := by
    rw [guestCstr_eq_ok (by decide), guestBytes_eq calls.terminated calls.string]
  obtain ⟨result, next, creating⟩ := createFile_returns tree (readPath path) create
    (args 3 &&& 0x40000000 != 0 || create)
  refine ⟨(args 3 &&& 0x40000000 != 0 || create), result, next, ?_, creating, ?_⟩
  · constructor
    · rintro ⟨handled, returned⟩
      simp only [handleCreateFile, if_neg pointers, calls.pointer, calls.out] at returned
      obtain ⟨text, read, returned⟩ := bind_eq_ok.mp returned
      obtain ⟨nonnull, valid, rfl⟩ := (reads text).mp read
      refine ⟨nonnull, valid, fun handle isHandle => ?_⟩
      rw [calls.disposition, creating, isHandle, ok_bind] at returned
      obtain ⟨_, aligned, _⟩ := bind_eq_ok.mp returned
      exact checkAligned_eq_ok.mp aligned
    · rintro ⟨nonnull, valid, aligned⟩
      simp only [handleCreateFile, if_neg pointers, calls.pointer, calls.out, calls.disposition,
        (reads _).mpr ⟨nonnull, valid, rfl⟩, ok_bind, creating]
      cases result with
      | error status => exact ⟨_, rfl⟩
      | ok handle =>
        rw [checkAligned_eq_ok.mpr (aligned handle rfl)]
        exact ⟨_, rfl⟩
  · intro handled returned
    simp only [handleCreateFile, if_neg pointers, calls.pointer, calls.out] at returned
    obtain ⟨text, read, returned⟩ := bind_eq_ok.mp returned
    obtain ⟨_, _, rfl⟩ := (reads text).mp read
    rw [calls.disposition, creating, ok_bind] at returned
    cases result with
    | error status =>
      obtain rfl := Except.ok.inj returned
      exact ⟨creating, rfl, rfl, rfl, rfl⟩
    | ok handle =>
      obtain ⟨_, _, returned⟩ := bind_eq_ok.mp returned
      obtain rfl := Except.ok.inj returned
      exact ⟨creating, rfl, rfl, rfl, rfl⟩

/-! ## Identity of paths -/

/-- Both tables have room for two. -/
def Room (nt : Nt) : Prop :=
  TwoFree maxOpenFiles nt.files.openFiles ∧ TwoFree maxHandles nt.objects.table

/-- What a successful call with `create` leaves: a file under the path that was read, and the room
there was for one more. -/
structure CreatedFile (nt after : Nt) (path : List UInt8) (node : Nat) : Prop where
  /-- The nodes were a tree. -/
  tree : nt.files.Tree
  /-- The file was created. -/
  creates : ∃ above, Creates nt.files path above node ∧
    after.files.nodes = (withFile nt.files path above node).nodes
  /-- The room that is left. -/
  room : (∃ i < maxOpenFiles, after.files.openFiles i = none) ∧
    (∃ i < maxHandles, after.objects.table i = none) ↔ Room nt

/-- A successful call with `create` leaves a created file at the node that is new. -/
theorem CallsWith.created {args : SyscallArgs} {path : List UInt8} {handled : Handled}
    {stringAt outAt : Nat} (calls : CallsWith nt args path true stringAt outAt) (tree : nt.files.Tree)
    (returned : nt.handleCreateFile args = .ok handled) (success : handled.status = .success)
    {node : Nat} (fresh : nt.files.nodes node = none)
    (isNode : (handled.after.files.nodes node).isSome = true) :
    CreatedFile nt handled.after (readPath path) node := by
  obtain ⟨writeAccess, result, next, _, _, handles⟩ := calls.returns tree
  obtain ⟨creating, status, nodes, openFiles, objects⟩ := handles handled returned
  cases result with
  | error reason => exact absurd (status.symm.trans success) (createFile_status creating).failure
  | ok handle =>
    obtain ⟨slot, resolved, file, object, resolves, _, nextNodes, ⟨small, free, after⟩,
      objectSmall, objectFree, table⟩ := createFile_opened creating
    cases resolves with
    | @created above _ creates =>
      have nodes := nodes.trans nextNodes
      obtain rfl : node = slot := by
        by_contra differs
        rw [nodes, withFile_nodes, Function.update_of_ne differs, fresh] at isNode
        cases isNode
      refine ⟨tree, ⟨above, creates, nodes⟩, ?_⟩
      rw [openFiles, after, objects, table]
      exact and_congr (exists_free_update small free _)
        (exists_free_update objectSmall objectFree _)

namespace CreatedFile

variable {path other : List UInt8} {node file : Nat} (created : CreatedFile nt after path node)

include created

/-- The nodes are a tree again. -/
theorem grown : after.files.Tree := by
  obtain ⟨above, creates, nodes⟩ := created.creates
  exact creates.tree created.tree nodes

/-- The file has the names of the path. -/
theorem named : FileSystem.Named after.files (components slash path) node := by
  obtain ⟨above, creates, nodes⟩ := created.creates
  exact creates.named created.tree nodes

end CreatedFile

namespace CreatedFile

variable {path other : List UInt8} {node file : Nat}
  (created : CreatedFile nt after (readPath path) node)

include created

end CreatedFile

end Nt

/-! ## Runs -/

/-- What changes the kernel between two calls: system calls, `vfs::create` of a named node, and
guests and threads with their memory. -/
inductive KernelOp where
  /-- A system call. -/
  | call (rsp : Nat) (args : SyscallArgs) (handler : SyscallHandler)
  /-- `vfs::create`. -/
  | create (above : Nat) (name : List UInt8) (kind : NodeKind)
  /-- Other code runs. -/
  | runs (memory : PhysMem) (scheduler : Scheduler)

/-- The operation returns; `vfs::create` is called under a node, with a component of a path. -/
def KernelOp.Step (before : Nt) (op : KernelOp) (after : Nt) : Prop :=
  match op with
  | .call rsp args handler =>
    ∃ handled, before.call rsp args handler = .ok handled ∧ after = handled.after
  | .create above name kind => (before.files.nodes above).isSome = true ∧ name ≠ [] ∧
      slash ∉ name ∧ after = before.withFiles (before.files.create above name kind).2
  | .runs memory scheduler => after = { before.withMemory memory with scheduler }

/-- Every operation keeps the tree. -/
theorem KernelOp.Step.tree {before after : Nt} {op : KernelOp} (step : op.Step before after)
    (tree : before.files.Tree) : after.files.Tree := by
  cases op with
  | call rsp args handler =>
    obtain ⟨handled, returned, rfl⟩ := step
    exact Nt.tree_call tree returned
  | create above name kind =>
    obtain ⟨isNode, nonempty, free, rfl⟩ := step
    exact tree.create_step isNode nonempty free rfl
  | runs memory scheduler =>
    obtain rfl : _ = _ := step
    exact tree.congr rfl

end Aperture.Win32
