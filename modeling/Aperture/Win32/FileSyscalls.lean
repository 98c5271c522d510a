import Aperture.Vfs.LiveBuffers
import Aperture.Win32.NamedFiles
import Aperture.Win32.PathIdentity

/-!
# System calls on files

A program passes the addresses of paths and buffers. The handlers translate them, and nothing
happens to the files when an address does not translate. While the program's buffers are its own,
neither vacant nor a file's, its system calls are calls on named files, and what it finds in its
memory afterwards are their answers.
-/

namespace Aperture.Win32

open Machine Mm Vfs

/-- A system call on files as its caller sees it, or a step of other code. -/
inductive FileSyscall where
  /-- `NtClose`. -/
  | close (handle : Handle) (status : NtStatus)
  /-- `NtCreateFile`, with the slots that were free, the place for the handle and the word that lies
  there afterwards. -/
  | createFile (call : CreateFileCall) (slots : FreeSlots) (out : Nat) (status : NtStatus)
      (word : Nat)
  /-- `NtReadFile`, with the buffer's place, and its bytes before and afterwards. -/
  | readFile (handle : Handle) (place : Nat) (buffer : List UInt8) (status : NtStatus)
      (filled : List UInt8)
  /-- `NtWriteFile`, with the buffer's place, its bytes, and the number of frames that are free
  behind the call. -/
  | writeFile (handle : Handle) (place : Nat) (buffer : List UInt8) (status : NtStatus) (free : Nat)
  /-- A read or a write without a buffer. -/
  | vacuous (status : NtStatus)
  /-- One of these with an address that does not translate. -/
  | misdirected (status : NtStatus)
  /-- Other code leaves this memory, and this scheduler. -/
  | other (memory : PhysMem) (scheduler : Scheduler)

/-- The arguments of a read or a write give no buffer: its address is null, or its length is 0. -/
def Vacuous (args : SyscallArgs) : SyscallHandler → Prop
  | .readFile => (args 1).toNat = 0 ∨ (args 2).toNat = 0
  | .writeFile => (args 1).toNat = 0 ∨ (args 2).toNat = 0
  | _ => False

/-- The arguments of a call do not lead to files: an address does not translate. -/
def Misdirected (nt : Nt) (args : SyscallArgs) : SyscallHandler → Prop
  | .createFile =>
    nt.userPtrToPhys (args 1).toNat = none ∨ nt.userPtrToPhys (args 0).toNat = none
  | .readFile => ¬Vacuous args .readFile ∧ nt.userPtrToPhys (args 1).toNat = none
  | .writeFile => ¬Vacuous args .writeFile ∧ nt.userPtrToPhys (args 1).toNat = none
  | _ => False

/-- The status that answers a result. -/
def answer {α : Type} : Except NtStatus α → NtStatus
  | .ok _ => .success
  | .error status => status

namespace FileSyscall

/-- The handler returns, or other code has run. -/
def Step (before : Nt) (event : FileSyscall) (after : Nt) : Prop :=
  match event with
  | .close handle status => ∃ args accesses, UInt32.ofNat (args 0).toNat = handle ∧
      before.handleClose args = .ok ⟨status, accesses, after⟩
  | .createFile call slots out status word => slots = before.freeSlots ∧ ∃ args accesses path,
      before.userPtrToPhys (args 1).toNat = some path ∧
      before.guestCstr path 128 = .ok call.path ∧
      before.userPtrToPhys (args 0).toNat = some out ∧ (args 2 != 0) = call.create ∧
      (args 3 &&& 0x40000000 != 0 || args 2 != 0) = call.writeAccess ∧
      before.handleCreateFile args = .ok ⟨status, accesses, after⟩ ∧
      after.files.memory.readU64 out = word
  | .readFile handle place buffer status filled => ∃ args accesses,
      UInt32.ofNat (args 0).toNat = handle ∧
      before.userPtrToPhys (args 1).toNat = some place ∧ (args 2).toNat ≠ 0 ∧
      before.files.memory.readBytes place (args 2).toNat = buffer ∧
      before.handleReadFile args = .ok ⟨status, accesses, after⟩ ∧
      after.files.memory.readBytes place (args 2).toNat = filled
  | .writeFile handle place buffer status free => ∃ args accesses,
      UInt32.ofNat (args 0).toNat = handle ∧
      before.userPtrToPhys (args 1).toNat = some place ∧ (args 2).toNat ≠ 0 ∧
      before.files.memory.readBytes place (args 2).toNat = buffer ∧
      before.handleWriteFile args = .ok ⟨status, accesses, after⟩ ∧
      free = after.frames.freeFrames after.files.memory
  | .vacuous status => ∃ handler args rsp accesses, Vacuous args handler ∧
      before.call rsp args handler = .ok ⟨status, accesses, after⟩
  | .misdirected status => ∃ handler args rsp accesses, Misdirected before args handler ∧
      before.call rsp args handler = .ok ⟨status, accesses, after⟩
  | .other memory scheduler => after = { before.withMemory memory with scheduler }

/-- The buffers of reads and writes and the places for handles are neither vacant nor a file's, and
files are created while the first free slot of the handle table is the slot of the next handle. Other
code leaves the frames of the files alone. -/
def Allowed (frames : FrameAllocator) (regions : List MemoryRegion) (nt : Nt) : FileSyscall → Prop
  | .createFile _ _ out _ _ => FileSystem.Foreign frames nt.files ⟨out, 8⟩ ∧ ∀ slot,
      position maxHandles (fun slot => (nt.objects.table slot).isNone) = some slot →
        slot = Objects.index nt.objects.nextHandle
  | .readFile _ place buffer _ _ => FileSystem.Foreign frames nt.files ⟨place, buffer.length⟩
  | .writeFile _ place buffer _ _ => FileSystem.Foreign frames nt.files ⟨place, buffer.length⟩
  | .other memory _ => nt.files.Undisturbed frames regions (.other memory)
  | _ => True

/-- What named files answer. -/
def Answers (store : NamedFiles) (event : FileSyscall) (after : NamedFiles) : Prop :=
  match event with
  | .close handle status => store.Step (.close handle status) after
  | .createFile call slots _ status word => ∃ result, store.CreateFile call slots result after ∧
      status = answer result ∧ ∀ handle, result = .ok handle → word = handle.toNat
  | .readFile handle _ buffer status filled => ∃ result,
      store.ReadFile handle buffer result filled after ∧ status = answer result
  | .writeFile handle _ buffer status free => ∃ result,
      store.WriteFile handle buffer result free after ∧ status = answer result
  | .vacuous status => status = .success ∧ after = store
  | .misdirected status => status = .invalidParameter ∧ after = store
  | .other _ _ => after = store

end FileSyscall

namespace Nt

variable {frames : FrameAllocator} {regions : List MemoryRegion} {nt middle after : Nt}
  {store : NamedFiles} {place : Span} {args : SyscallArgs} {handled : Handled}

/-! ## The caller's memory -/

/-- Memory that is foreign to the files stays so while memory and frames of files stay. -/
theorem foreign_congr (foreign : FileSystem.Foreign frames nt.files place)
    (memory : middle.files.memory = nt.files.memory)
    (fileData : middle.files.fileData = nt.files.fileData) :
    FileSystem.Foreign frames middle.files place := by
  intro a inPlace
  obtain ⟨occupied, outside⟩ := foreign a inPlace
  unfold FileSystem.fileLand at outside ⊢
  rw [memory, fileData]
  exact ⟨occupied, outside⟩

/-- A write to such memory is no call on files. -/
theorem Stands.write_foreign (stands : nt.Stands frames regions store) (covers : frames.Covers)
    {memory : PhysMem} (writes : WritesWithin place.toSet nt.files.memory memory)
    (foreign : FileSystem.Foreign frames nt.files place) :
    (nt.withMemory memory).Stands frames regions store := by
  have confined : frames.Confined place.toSet nt.files.memory memory := by
    apply FrameAllocator.confined_of_writes covers writes
    intro a inBitmap inPlace
    exact (foreign a inPlace).1 (.inl inBitmap)
  apply stands.other_step
  apply stands.consistent.undisturbed confined
  intro a inFiles inPlace
  exact (foreign a inPlace).2 inFiles

/-- The files do not depend on the scheduler. -/
theorem Stands.withScheduler (stands : nt.Stands frames regions store) (scheduler : Scheduler) :
    ({ nt with scheduler } : Nt).Stands frames regions store where
  allocator := stands.allocator
  consistent := stands.consistent
  tree := ⟨stands.tree.tree, stands.tree.valid⟩
  objects := ⟨stands.objects.isOpen, stands.objects.distinct⟩
  isFile := stands.isFile
  entries := stands.entries
  opened := stands.opened

/-- `create_file` writes no memory. -/
theorem createFile_same {path : List UInt8} {create writeAccess : Bool}
    {result : Except NtStatus Handle}
    (returned : nt.createFile path create writeAccess = .ok (result, after)) :
    after.files.memory = nt.files.memory ∧ after.files.fileData = nt.files.fileData := by
  obtain ⟨⟨outcome, files⟩, opening, rest⟩ := bind_eq_ok.mp returned
  have same : after.files = files := by
    cases outcome with
    | error status =>
      obtain ⟨-, rfl⟩ := Prod.mk.inj (Except.ok.inj rest)
      rfl
    | ok handle =>
      dsimp only at rest
      split at rest
      · obtain ⟨-, rfl⟩ := Prod.mk.inj (Except.ok.inj rest)
        rfl
      · obtain ⟨-, rfl⟩ := Prod.mk.inj (Except.ok.inj rest)
        rfl
  rw [same]
  obtain ⟨_, rfl, _⟩ | ⟨node, resolved, opened, resolves, opens, _⟩ := openVfsFile_cases opening
  · exact ⟨rfl, rfl⟩
  · have kept := FileSystem.openFile_same opens
    cases resolves with
    | found isFound => exact kept
    | created creates => exact kept

/-- `read_file` writes no memory. -/
theorem readFile_same {handle : Handle} {buffer filled : List UInt8}
    {result : Except NtStatus Nat}
    (returned : nt.readFile handle buffer = .ok (result, filled, after)) :
    after.files.memory = nt.files.memory ∧ after.files.fileData = nt.files.fileData := by
  unfold readFile at returned
  split at returned
  · obtain ⟨-, rest⟩ := Prod.mk.inj (Except.ok.inj returned)
    obtain ⟨-, rfl⟩ := Prod.mk.inj rest
    exact ⟨rfl, rfl⟩
  · obtain ⟨⟨count, bytes, files⟩, reading, rest⟩ := bind_eq_ok.mp returned
    have same : files.memory = nt.files.memory ∧ files.fileData = nt.files.fileData := by
      obtain ⟨found, _, reading⟩ := bind_eq_ok.mp reading
      cases found with
      | none =>
        obtain ⟨-, reading⟩ := Prod.mk.inj (Except.ok.inj reading)
        obtain ⟨-, rfl⟩ := Prod.mk.inj reading
        exact ⟨rfl, rfl⟩
      | some file =>
        obtain ⟨size, _, reading⟩ := bind_eq_ok.mp reading
        obtain ⟨chunks, _, reading⟩ := bind_eq_ok.mp reading
        obtain ⟨-, reading⟩ := Prod.mk.inj (Except.ok.inj reading)
        obtain ⟨-, rfl⟩ := Prod.mk.inj reading
        exact ⟨rfl, rfl⟩
    cases count with
    | none =>
      obtain ⟨-, rest⟩ := Prod.mk.inj (Except.ok.inj rest)
      obtain ⟨-, rfl⟩ := Prod.mk.inj rest
      exact same
    | some count =>
      obtain ⟨-, rest⟩ := Prod.mk.inj (Except.ok.inj rest)
      obtain ⟨-, rfl⟩ := Prod.mk.inj rest
      exact same

/-! ## The handlers -/

/-- `NtCreateFile` with addresses that translate. -/
theorem handleCreateFile_event {path out : Nat} {text : List UInt8}
    (pathHere : nt.userPtrToPhys (args 1).toNat = some path)
    (isText : nt.guestCstr path 128 = .ok text)
    (outHere : nt.userPtrToPhys (args 0).toNat = some out)
    (returned : nt.handleCreateFile args = .ok handled) :
    ∃ result middle, nt.createFile text (args 2 != 0)
        (args 3 &&& 0x40000000 != 0 || args 2 != 0) = .ok (result, middle) ∧
      handled.status = answer result ∧
      ((∃ status, result = .error status) ∧ handled.after = middle ∨
        ∃ handle : Handle, result = .ok handle ∧ handled.after =
          middle.withMemory (middle.files.memory.writeU64 out handle.toNat)) := by
  unfold handleCreateFile at returned
  dsimp only at returned
  rw [if_neg (not_or.mpr ⟨ne_zero_of_userPtrToPhys pathHere, ne_zero_of_userPtrToPhys outHere⟩),
    pathHere, outHere] at returned
  dsimp only at returned
  rw [isText, ok_bind] at returned
  obtain ⟨⟨result, middle⟩, creating, returned⟩ := bind_eq_ok.mp returned
  refine ⟨result, middle, creating, ?_⟩
  cases result with
  | error status =>
    obtain rfl := Except.ok.inj returned
    exact ⟨rfl, .inl ⟨⟨status, rfl⟩, rfl⟩⟩
  | ok handle =>
    obtain ⟨_, _, returned⟩ := bind_eq_ok.mp returned
    obtain rfl := Except.ok.inj returned
    exact ⟨rfl, .inr ⟨handle, rfl, rfl⟩⟩

/-- `NtReadFile` with an address that translates to a buffer off the frames of files. -/
theorem handleReadFile_event {place : Nat}
    (here : nt.userPtrToPhys (args 1).toNat = some place) (nonempty : (args 2).toNat ≠ 0)
    (off : ∀ a ∈ nt.files.fileLand, a ∉ (⟨place, (args 2).toNat⟩ : Span))
    (returned : nt.handleReadFile args = .ok handled) :
    ∃ result filled middle memory, nt.readFile (UInt32.ofNat (args 0).toNat)
        (nt.files.memory.readBytes place (args 2).toNat) = .ok (result, filled, middle) ∧
      handled.status = answer result ∧ handled.after = middle.withMemory memory ∧
      WritesWithin (⟨place, (args 2).toNat⟩ : Span).toSet middle.files.memory memory ∧
      memory.readBytes place (args 2).toNat = filled := by
  unfold handleReadFile at returned
  dsimp only at returned
  rw [if_neg (not_or.mpr ⟨ne_zero_of_userPtrToPhys here, nonempty⟩), here] at returned
  obtain ⟨_, _, returned⟩ := bind_eq_ok.mp returned
  unfold readFile
  cases found : nt.vfsFileFromObject (UInt32.ofNat (args 0).toNat) with
  | error status =>
    rw [found] at returned
    obtain rfl := Except.ok.inj returned
    exact ⟨_, _, nt, nt.files.memory, rfl, rfl, rfl, .refl _ _, rfl⟩
  | ok file =>
    rw [found] at returned
    obtain ⟨⟨count, files⟩, reading, returned⟩ := bind_eq_ok.mp returned
    obtain ⟨filled, middle, memory, reads, rfl, same, writes, received⟩ :=
      FileSystem.read_of_into off reading
    dsimp only
    rw [reads, ok_bind]
    rw [← same] at writes
    cases count with
    | none =>
      obtain rfl := Except.ok.inj returned
      exact ⟨_, _, nt.withFiles middle, memory, rfl, rfl, rfl, writes, received⟩
    | some count =>
      obtain rfl := Except.ok.inj returned
      exact ⟨_, _, nt.withFiles middle, memory, rfl, rfl, rfl, writes, received⟩

/-- `NtWriteFile` with an address that translates to a buffer that the call does not write. -/
theorem handleWriteFile_event {place : Nat} (stands : nt.Stands frames regions store)
    (covers : frames.Covers) (here : nt.userPtrToPhys (args 1).toNat = some place)
    (nonempty : (args 2).toNat ≠ 0)
    (foreign : FileSystem.Foreign frames nt.files ⟨place, (args 2).toNat⟩)
    (returned : nt.handleWriteFile args = .ok handled) :
    ∃ result, nt.writeFile (UInt32.ofNat (args 0).toNat)
        (nt.files.memory.readBytes place (args 2).toNat) = .ok (result, handled.after) ∧
      handled.status = answer result := by
  unfold handleWriteFile at returned
  dsimp only at returned
  rw [if_neg (not_or.mpr ⟨ne_zero_of_userPtrToPhys here, nonempty⟩), here] at returned
  obtain ⟨_, _, returned⟩ := bind_eq_ok.mp returned
  unfold writeFile
  cases found : nt.vfsFileFromObject (UInt32.ofNat (args 0).toNat) with
  | error status =>
    rw [found] at returned
    obtain rfl := Except.ok.inj returned
    exact ⟨_, rfl, rfl⟩
  | ok file =>
    rw [found] at returned
    obtain ⟨⟨count, files⟩, writing, returned⟩ := bind_eq_ok.mp returned
    rw [stands.allocator, stands.consistent.writeFrom_eq covers foreign] at writing
    dsimp only
    rw [stands.allocator, writing, ok_bind]
    cases count with
    | none =>
      obtain rfl := Except.ok.inj returned
      exact ⟨_, rfl, rfl⟩
    | some count =>
      obtain rfl := Except.ok.inj returned
      exact ⟨_, rfl, rfl⟩

/-- Without a buffer a call succeeds and does nothing. -/
theorem call_vacuous {handler : SyscallHandler} {rsp : Nat} (vacuous : Vacuous args handler)
    (returned : nt.call rsp args handler = .ok handled) :
    handled.status = .success ∧ handled.after = nt := by
  cases handler with
  | readFile =>
    have absent : (args 1).toNat = 0 ∨ (args 2).toNat = 0 := vacuous
    change nt.handleReadFile args = _ at returned
    rw [handleReadFile, if_pos absent] at returned
    obtain rfl := Except.ok.inj returned
    exact ⟨rfl, rfl⟩
  | writeFile =>
    have absent : (args 1).toNat = 0 ∨ (args 2).toNat = 0 := vacuous
    change nt.handleWriteFile args = _ at returned
    rw [handleWriteFile, if_pos absent] at returned
    obtain rfl := Except.ok.inj returned
    exact ⟨rfl, rfl⟩
  | close => exact vacuous.elim
  | createFile => exact vacuous.elim
  | allocateVirtualMemory => exact vacuous.elim
  | freeVirtualMemory => exact vacuous.elim
  | querySystemInformation => exact vacuous.elim
  | queryInformationProcess => exact vacuous.elim
  | delayExecution => exact vacuous.elim

/-- A misdirected call is refused and does nothing. -/
theorem call_misdirected {handler : SyscallHandler} {rsp : Nat}
    (misdirected : Misdirected nt args handler)
    (returned : nt.call rsp args handler = .ok handled) :
    handled.status = .invalidParameter ∧ handled.after = nt := by
  cases handler with
  | createFile =>
    change nt.handleCreateFile args = _ at returned
    unfold handleCreateFile at returned
    dsimp only at returned
    split at returned
    · obtain rfl := Except.ok.inj returned
      exact ⟨rfl, rfl⟩
    split at returned
    · obtain rfl := Except.ok.inj returned
      exact ⟨rfl, rfl⟩
    split at returned
    · obtain rfl := Except.ok.inj returned
      exact ⟨rfl, rfl⟩
    · rename_i path pathHere _ out outHere
      rcases misdirected with missing | missing
      · rw [missing] at pathHere
        cases pathHere
      · rw [missing] at outHere
        cases outHere
  | readFile =>
    obtain ⟨isPresent, missing⟩ := misdirected
    have present : ¬((args 1).toNat = 0 ∨ (args 2).toNat = 0) := isPresent
    change nt.handleReadFile args = _ at returned
    rw [handleReadFile, if_neg present, missing] at returned
    obtain rfl := Except.ok.inj returned
    exact ⟨rfl, rfl⟩
  | writeFile =>
    obtain ⟨isPresent, missing⟩ := misdirected
    have present : ¬((args 1).toNat = 0 ∨ (args 2).toNat = 0) := isPresent
    change nt.handleWriteFile args = _ at returned
    rw [handleWriteFile, if_neg present, missing] at returned
    obtain rfl := Except.ok.inj returned
    exact ⟨rfl, rfl⟩
  | close => exact misdirected.elim
  | allocateVirtualMemory => exact misdirected.elim
  | freeVirtualMemory => exact misdirected.elim
  | querySystemInformation => exact misdirected.elim
  | queryInformationProcess => exact misdirected.elim
  | delayExecution => exact misdirected.elim

/-! ## Calls on named files -/

/-- `NtCreateFile` is a call on named files. -/
theorem Stands.createFile_syscall (stands : nt.Stands frames regions store)
    (covers : frames.Covers) {call : CreateFileCall} {slots : FreeSlots} {out word : Nat}
    {status : NtStatus}
    (allowed : FileSyscall.Allowed frames regions nt (.createFile call slots out status word))
    (step : FileSyscall.Step nt (.createFile call slots out status word) after) :
    ∃ next, after.Stands frames regions next ∧
      FileSyscall.Answers store (.createFile call slots out status word) next := by
  obtain ⟨rfl, args, accesses, path, pathHere, isPath, outHere, isCreate, isWrite, returned, rfl⟩ :=
    step
  obtain ⟨foreign, inStep⟩ := allowed
  obtain ⟨_, valid, isText⟩ := (guestCstr_eq_ok (by decide)).mp isPath
  rw [← isText] at valid
  obtain ⟨result, middle, creating, answered, left⟩ :=
    handleCreateFile_event pathHere isPath outHere returned
  rw [isWrite, isCreate] at creating
  obtain ⟨next, middleStands, created⟩ := stands.createFile_step ⟨valid, inStep⟩ creating
  dsimp only at answered left
  rcases left with ⟨⟨failure, rfl⟩, rfl⟩ | ⟨handle, rfl, rfl⟩
  · refine ⟨next, middleStands, _, created, answered, fun handle isOk => ?_⟩
    cases isOk
  · have same := createFile_same creating
    have still := foreign_congr foreign same.1 same.2
    have writes : WritesWithin (⟨out, 8⟩ : Span).toSet middle.files.memory
        (middle.files.memory.writeU64 out handle.toNat) := .writeU64 _ _ fun _ inside => inside
    refine ⟨next, middleStands.write_foreign covers writes still, _, created, answered, ?_⟩
    intro other isOther
    rw [← Except.ok.inj isOther]
    have fits : handle.toNat < wordSize := Nat.lt_trans handle.toNat_lt (by decide)
    exact PhysMem.readU64_writeU64 _ _ fits

/-- `NtReadFile` is a call on named files. -/
theorem Stands.readFile_syscall (stands : nt.Stands frames regions store)
    (covers : frames.Covers) {handle : Handle} {place : Nat} {buffer filled : List UInt8}
    {status : NtStatus}
    (allowed : FileSyscall.Allowed frames regions nt (.readFile handle place buffer status filled))
    (step : FileSyscall.Step nt (.readFile handle place buffer status filled) after) :
    ∃ next, after.Stands frames regions next ∧
      FileSyscall.Answers store (.readFile handle place buffer status filled) next := by
  obtain ⟨args, accesses, rfl, here, nonempty, rfl, returned, rfl⟩ := step
  have foreign : FileSystem.Foreign frames nt.files
      ⟨place, (nt.files.memory.readBytes place (args 2).toNat).length⟩ := allowed
  rw [PhysMem.length_readBytes] at foreign
  obtain ⟨result, filled, middle, memory, reading, answered, left, writes, received⟩ :=
    handleReadFile_event here nonempty (fun a inFile inBuffer => (foreign a inBuffer).2 inFile)
      returned
  obtain rfl : after = middle.withMemory memory := left
  obtain ⟨next, middleStands, read⟩ := stands.readFile_step reading
  have same := readFile_same reading
  have still := foreign_congr foreign same.1 same.2
  rw [← received] at read
  exact ⟨next, middleStands.write_foreign covers writes still, result, read, answered⟩

/-- `NtWriteFile` is a call on named files. -/
theorem Stands.writeFile_syscall (stands : nt.Stands frames regions store)
    (covers : frames.Covers) {handle : Handle} {place free : Nat} {buffer : List UInt8}
    {status : NtStatus}
    (allowed : FileSyscall.Allowed frames regions nt (.writeFile handle place buffer status free))
    (step : FileSyscall.Step nt (.writeFile handle place buffer status free) after) :
    ∃ next, after.Stands frames regions next ∧
      FileSyscall.Answers store (.writeFile handle place buffer status free) next := by
  obtain ⟨args, accesses, rfl, here, nonempty, rfl, returned, rfl⟩ := step
  have foreign : FileSystem.Foreign frames nt.files
      ⟨place, (nt.files.memory.readBytes place (args 2).toNat).length⟩ := allowed
  rw [PhysMem.length_readBytes] at foreign
  obtain ⟨result, writing, answered⟩ :=
    handleWriteFile_event stands covers here nonempty foreign returned
  obtain ⟨next, afterStands, written⟩ := stands.writeFile_step covers writing
  exact ⟨next, afterStands, result, written, answered⟩

/-- Every system call is one on named files. -/
theorem Stands.syscall (stands : nt.Stands frames regions store) (covers : frames.Covers)
    {event : FileSyscall} (allowed : FileSyscall.Allowed frames regions nt event)
    (step : FileSyscall.Step nt event after) :
    ∃ next, after.Stands frames regions next ∧ FileSyscall.Answers store event next := by
  cases event with
  | close handle status =>
    obtain ⟨args, accesses, rfl, returned⟩ := step
    obtain ⟨⟨found, next⟩, closing, replied⟩ := bind_eq_ok.mp returned
    obtain ⟨rfl, -, rfl⟩ := Handled.mk.inj (Except.ok.inj replied)
    exact stands.close_step closing
  | createFile call slots out status word => exact stands.createFile_syscall covers allowed step
  | readFile handle place buffer status filled =>
    exact stands.readFile_syscall covers allowed step
  | writeFile handle place buffer status free =>
    exact stands.writeFile_syscall covers allowed step
  | vacuous status =>
    obtain ⟨handler, args, rsp, accesses, vacuous, returned⟩ := step
    obtain ⟨answered, left⟩ := call_vacuous vacuous returned
    obtain rfl : after = nt := left
    exact ⟨store, stands, answered, rfl⟩
  | misdirected status =>
    obtain ⟨handler, args, rsp, accesses, misdirected, returned⟩ := step
    obtain ⟨answered, left⟩ := call_misdirected misdirected returned
    obtain rfl : after = nt := left
    exact ⟨store, stands, answered, rfl⟩
  | other memory scheduler =>
    obtain rfl : after = { nt.withMemory memory with scheduler } := step
    exact ⟨store, (stands.other_step allowed).withScheduler scheduler, rfl⟩

end Nt

end Aperture.Win32
