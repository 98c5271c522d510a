import Aperture.Vfs.FileSystem
import Aperture.Win32.Dispatch
import Aperture.Win32.Objects
import Aperture.Win32.Scheduler

/-!
# NT system calls

The nine handlers of the dispatch table. A handler turns a guest pointer into a physical address
with `user_ptr_to_phys`, which walks the page table of the running thread, and reads or writes
bytes from that address on. Each handler returns, beside its status, the guest buffers it reached
this way. A build with debug assertions checks the address of a slice and of a word.
-/

namespace Aperture.Win32

open Machine Mm Vfs

/-- A word is refused at an address that is no multiple of its size. -/
def checkAligned (address size : Nat) : Except Panic Unit :=
  if address % size = 0 then .ok () else .error (.misaligned address)

/-- `from_raw_parts` refuses a slice at address 0, or of half the address space. -/
def checkSlice (address len : Nat) : Except Panic Unit :=
  if address = 0 then .error .null
  else if len < 2 ^ 63 then .ok ()
  else .error .overflow

/-- Aligned addresses pass. -/
theorem checkAligned_eq_ok {address size : Nat} :
    checkAligned address size = .ok () ↔ address % size = 0 := by
  simp [checkAligned]

/-- A slice elsewhere and smaller passes. -/
theorem checkSlice_eq_ok {address len : Nat} :
    checkSlice address len = .ok () ↔ address ≠ 0 ∧ len < 2 ^ 63 := by
  unfold checkSlice
  split
  · simp [*]
  · simp [*]

/-- What the handlers use of the kernel. -/
structure Nt where
  /-- The file system, with physical memory. -/
  files : FileSystem
  /-- The handle table. -/
  objects : Objects
  /-- The frame allocator. -/
  frames : FrameAllocator
  /-- The scheduler. -/
  scheduler : Scheduler

/-- Guest bytes that a handler read or wrote: `count` of them from an address that
`user_ptr_to_phys` returned for a guest pointer. -/
structure GuestAccess where
  /-- The guest pointer. -/
  pointer : Nat
  /-- The physical address returned for it. -/
  phys : Nat
  /-- Number of bytes read or written from there on. -/
  count : Nat
  /-- Memory when the pointer was translated. -/
  memory : PhysMem

/-- What a handler leaves. -/
structure Handled where
  /-- The status it returns. -/
  status : NtStatus
  /-- The guest bytes it reached. -/
  accesses : List GuestAccess
  /-- The kernel after it. -/
  after : Nt

namespace Nt

/-- A handler ends. -/
def replies (nt : Nt) (status : NtStatus) (accesses : List GuestAccess) : Except Panic Handled :=
  .ok ⟨status, accesses, nt⟩

/-- The kernel with another state of the file system. -/
def withFiles (nt : Nt) (files : FileSystem) : Nt := { nt with files }

/-- The kernel with other contents of memory. -/
def withMemory (nt : Nt) (memory : PhysMem) : Nt := nt.withFiles { nt.files with memory }

/-- `process_page_table_root` of the running thread, 0 without one. -/
def processPageTableRoot (nt : Nt) : Nat :=
  match nt.scheduler.current with
  | none => 0
  | some slot =>
    if slot < maxThreads then (nt.scheduler.storage slot).processPageTableRoot else 0

/-- `user_ptr_to_phys`. -/
def userPtrToPhys (nt : Nt) (addr : Nat) : Option Nat :=
  if addr = 0 then none
  else if nt.processPageTableRoot = 0 then some addr
  else PageTable.translate nt.files.memory nt.processPageTableRoot addr

/-- The access of `count` bytes through a translated pointer. -/
def reaches (nt : Nt) (pointer phys count : Nat) : GuestAccess :=
  ⟨pointer, phys, count, nt.files.memory⟩

/-- The bytes before the first zero, at most `max`. -/
def guestBytes (nt : Nt) (phys max : Nat) : List UInt8 :=
  (nt.files.memory.readBytes phys max).takeWhile (· ≠ 0)

/-- `guest_cstr`. It takes the bytes as text unchecked; what the string functions do with any that
are no UTF-8 is not defined, and in a build with debug assertions they stop. -/
def guestCstr (nt : Nt) (phys max : Nat) : Except Panic (List UInt8) := do
  checkSlice phys max
  if validUtf8 (nt.guestBytes phys max) then return nt.guestBytes phys max else .error .notText

/-- Number of bytes `guest_cstr` looks at: the string and the zero behind it. -/
def guestCstrCount (nt : Nt) (phys max : Nat) : Nat :=
  min ((nt.guestBytes phys max).length + 1) max

end Nt

/-- `parent`. -/
def parent (path : List UInt8) : List UInt8 :=
  match rfind slash path with
  | some 0 => [slash]
  | some idx => path.take idx
  | none => [slash]

/-- `file_name`. -/
def fileName (path : List UInt8) : List UInt8 :=
  match rfind slash path with
  | some idx => path.drop (idx + 1)
  | none => path

namespace Nt

/-- `open_vfs_file`. -/
def openVfsFile (fs : FileSystem) (path : List UInt8) (create writeAccess : Bool) :
    Except Panic (Except NtStatus Nat × FileSystem) :=
  let opens (fs : FileSystem) (node : Nat) : Except Panic (Except NtStatus Nat × FileSystem) := do
    match ← fs.openFile node writeAccess with
    | (some handle, fs) => return (.ok handle, fs)
    | (none, fs) => return (.error .invalidParameter, fs)
  match fs.lookup path with
  | some node => if create then .ok (.error .objectNameCollision, fs) else opens fs node
  | none =>
    if !create then .ok (.error .objectNameNotFound, fs)
    else
      match fs.lookup (parent path) with
      | none => .ok (.error .objectNameNotFound, fs)
      | some parentNode =>
        match fs.create parentNode (fileName path) .file with
        | (none, fs) => .ok (.error .invalidParameter, fs)
        | (some node, fs) => opens fs node

/-- `create_file`. -/
def createFile (nt : Nt) (path : List UInt8) (create writeAccess : Bool) :
    Except Panic (Except NtStatus Handle × Nt) := do
  match ← openVfsFile nt.files path create writeAccess with
  | (.error status, files) => return (.error status, { nt with files })
  | (.ok vfsHandle, files) =>
    match nt.objects.allocate .file (UInt64.ofNat vfsHandle) with
    | (none, objects) => return (.error .invalidParameter, { nt with files, objects })
    | (some handle, objects) => return (.ok handle, { nt with files, objects })

/-- `vfs_file_from_object`. -/
def vfsFileFromObject (nt : Nt) (handle : Handle) : Except NtStatus Nat :=
  match nt.objects.lookup handle with
  | none => .error .invalidParameter
  | some header =>
    if header.kind = .file then .ok header.data.toNat else .error .invalidParameter

/-- `close`. -/
def close (nt : Nt) (handle : Handle) : Except Panic (NtStatus × Nt) :=
  match nt.objects.lookup handle with
  | none => .ok (.invalidParameter, nt)
  | some header =>
    if header.kind ≠ .file then .ok (.invalidParameter, nt)
    else do
      let (_, files) ← nt.files.close header.data.toNat
      match nt.objects.close handle with
      | (true, objects) => return (.success, { nt with files, objects })
      | (false, objects) => return (.invalidParameter, { nt with files, objects })

/-- A file's position, as a measure of what `write` has taken from its buffer. -/
def positionOf (fs : FileSystem) (handle : Nat) : Nat :=
  match fs.openFiles handle with
  | none => 0
  | some file => file.position

/-- The loop of `allocate_virtual_memory`: the first frame, or none when frames run out. -/
def allocateFrames (frames : FrameAllocator) : Nat → Nat → PhysMem → Option Nat × PhysMem
  | 0, base, memory => (some base, memory)
  | count + 1, base, memory =>
    match frames.allocateFrame memory with
    | (none, memory) => (none, memory)
    | (some frame, memory) => allocateFrames frames count (if base = 0 then frame else base) memory

/-- `allocate_virtual_memory`. -/
def allocateVirtualMemory (nt : Nt) (size : Nat) : Except Panic (Option Nat × Nt) := do
  let rounded ← add64 size 4095
  let (base, memory) := allocateFrames nt.frames (rounded / 4096) 0 nt.files.memory
  return (base, nt.withMemory memory)

/-- The loop of `free_virtual_memory`. -/
def freeFrames (frames : FrameAllocator) (base : Nat) : List Nat → PhysMem → Except Panic PhysMem
  | [], memory => .ok memory
  | i :: rest, memory => do
    let frame ← add64 base (i * 4096)
    freeFrames frames base rest (frames.freeFrame memory frame)

/-- `free_virtual_memory`. -/
def freeVirtualMemory (nt : Nt) (base size : Nat) : Except Panic Nt := do
  let rounded ← add64 size 4095
  let memory ← freeFrames nt.frames base (List.range (rounded / 4096)) nt.files.memory
  return nt.withMemory memory

/-! ## Handlers -/

/-- `handle_close`. -/
def handleClose (nt : Nt) (args : SyscallArgs) : Except Panic Handled := do
  let (status, nt) ← nt.close (UInt32.ofNat (args 0).toNat)
  nt.replies status []

/-- `handle_create_file`. -/
def handleCreateFile (nt : Nt) (args : SyscallArgs) : Except Panic Handled :=
  let outHandlePtr := (args 0).toNat
  let pathPtr := (args 1).toNat
  if pathPtr = 0 ∨ outHandlePtr = 0 then nt.replies .invalidParameter []
  else
    match nt.userPtrToPhys pathPtr with
    | none => nt.replies .invalidParameter []
    | some pathPhys =>
      match nt.userPtrToPhys outHandlePtr with
      | none => nt.replies .invalidParameter []
      | some outPhys => do
        let path ← nt.guestCstr pathPhys 128
        let read := nt.reaches pathPtr pathPhys (nt.guestCstrCount pathPhys 128)
        let create := args 2 != 0
        let writeAccess := args 3 &&& 0x40000000 != 0 || create
        match ← nt.createFile path create writeAccess with
        | (.error status, after) => after.replies status [read]
        | (.ok handle, after) =>
          checkAligned outPhys 8
          (after.withMemory (after.files.memory.writeU64 outPhys handle.toNat)).replies .success
            [read, nt.reaches outHandlePtr outPhys 8]

/-- `handle_read_file`. -/
def handleReadFile (nt : Nt) (args : SyscallArgs) : Except Panic Handled :=
  let handle := UInt32.ofNat (args 0).toNat
  let bufPtr := (args 1).toNat
  let len := (args 2).toNat
  if bufPtr = 0 ∨ len = 0 then nt.replies .success []
  else
    match nt.userPtrToPhys bufPtr with
    | none => nt.replies .invalidParameter []
    | some bufPhys => do
      checkSlice bufPhys len
      match nt.vfsFileFromObject handle with
      | .error status => nt.replies status []
      | .ok file =>
        match ← nt.files.readInto file bufPhys len with
        | (none, files) => (nt.withFiles files).replies .invalidParameter []
        | (some count, files) =>
          (nt.withFiles files).replies .success [nt.reaches bufPtr bufPhys count]

/-- `handle_write_file`. -/
def handleWriteFile (nt : Nt) (args : SyscallArgs) : Except Panic Handled :=
  let handle := UInt32.ofNat (args 0).toNat
  let bufPtr := (args 1).toNat
  let len := (args 2).toNat
  if bufPtr = 0 ∨ len = 0 then nt.replies .success []
  else
    match nt.userPtrToPhys bufPtr with
    | none => nt.replies .invalidParameter []
    | some bufPhys => do
      checkSlice bufPhys len
      match nt.vfsFileFromObject handle with
      | .error status => nt.replies status []
      | .ok file =>
        let (written, files) ← nt.files.writeFrom nt.frames file bufPhys len
        let count := positionOf files file - positionOf nt.files file
        let status := if written.isSome then NtStatus.success else .invalidParameter
        (nt.withFiles files).replies status [nt.reaches bufPtr bufPhys count]

/-- `handle_allocate_virtual_memory`; the base goes to a raw address. -/
def handleAllocateVirtualMemory (nt : Nt) (args : SyscallArgs) : Except Panic Handled := do
  match ← nt.allocateVirtualMemory (args 3).toNat with
  | (none, nt) => nt.replies .invalidParameter []
  | (some base, nt) =>
    if args 1 = 0 then nt.replies .success []
    else
      checkAligned (args 1).toNat 8
      (nt.withMemory (nt.files.memory.writeU64 (args 1).toNat base)).replies .success []

/-- `handle_free_virtual_memory`. -/
def handleFreeVirtualMemory (nt : Nt) (args : SyscallArgs) : Except Panic Handled := do
  let nt ← nt.freeVirtualMemory (args 0).toNat (args 1).toNat
  nt.replies .success []

/-- The end of a query: the length goes to its own pointer, when that translates. -/
def repliesLength (nt : Nt) (retLenPtr length : Nat) (accesses : List GuestAccess) :
    Except Panic Handled :=
  match nt.userPtrToPhys retLenPtr with
  | none => nt.replies .success accesses
  | some phys => do
    checkAligned phys 4
    let bytes := [UInt8.ofNat length, 0, 0, 0]
    (nt.withMemory (nt.files.memory.copyIn phys bytes)).replies .success
      (accesses ++ [nt.reaches retLenPtr phys 4])

/-- `SystemBasicInformation`: the page size, a number of pages, and zeros. -/
def basicInformation : List UInt8 :=
  [0x00, 0x10, 0x00, 0x00, 0x00, 0x80, 0x00, 0x00] ++ List.replicate 56 0

/-- `SystemProcessorInformation`: the architecture. -/
def processorInformation : List UInt8 := [12, 0]

/-- `ProcessBasicInformation`: the process number and zeros. -/
def processInformation : List UInt8 := 1 :: List.replicate 47 0

/-- A query fills the front of its buffer. -/
def fills (nt : Nt) (bufPtr bufPhys retLenPtr : Nat) (information : List UInt8) :
    Except Panic Handled :=
  (nt.withMemory (nt.files.memory.copyIn bufPhys information)).repliesLength retLenPtr
    information.length [nt.reaches bufPtr bufPhys information.length]

/-- `handle_query_system_information`. -/
def handleQuerySystemInformation (nt : Nt) (args : SyscallArgs) : Except Panic Handled :=
  let infoClass := (args 0).toNat % 2 ^ 32
  let bufPtr := (args 1).toNat
  let len := (args 2).toNat
  let retLenPtr := (args 3).toNat
  if bufPtr = 0 ∨ len = 0 then nt.replies .invalidParameter []
  else
    match nt.userPtrToPhys bufPtr with
    | none => nt.replies .invalidParameter []
    | some bufPhys => do
      checkSlice bufPhys len
      if infoClass = 0 then
        if len < 64 then nt.replies .bufferTooSmall []
        else nt.fills bufPtr bufPhys retLenPtr basicInformation
      else if infoClass = 1 then
        if len < 2 then nt.replies .bufferTooSmall []
        else nt.fills bufPtr bufPhys retLenPtr processorInformation
      else nt.replies .notImplemented []

/-- `handle_query_information_process`. -/
def handleQueryInformationProcess (nt : Nt) (args : SyscallArgs) : Except Panic Handled :=
  let infoClass := (args 1).toNat % 2 ^ 32
  let bufPtr := (args 2).toNat
  let len := (args 3).toNat
  let retLenPtr := (args 4).toNat
  if bufPtr = 0 ∨ len = 0 then nt.replies .invalidParameter []
  else
    match nt.userPtrToPhys bufPtr with
    | none => nt.replies .invalidParameter []
    | some bufPhys =>
      if infoClass = 0 then
        if len < 48 then nt.replies .bufferTooSmall []
        else do
          checkSlice bufPhys 48
          nt.fills bufPtr bufPhys retLenPtr processInformation
      else nt.replies .notImplemented []

/-- The interval of a delay is read, when its pointer translates. -/
def readsInterval (nt : Nt) (intervalPtr : Nat) : Except Panic (List GuestAccess) :=
  match nt.userPtrToPhys intervalPtr with
  | none => .ok []
  | some phys => do
    checkAligned phys 8
    return [nt.reaches intervalPtr phys 8]

/-- `handle_delay_execution`: read the interval and yield, with the kernel's stack pointer. -/
def handleDelayExecution (nt : Nt) (args : SyscallArgs) (rsp : Nat) : Except Panic Handled := do
  let accesses ← nt.readsInterval (args 1).toNat
  let (_, scheduler) ← nt.scheduler.schedule rsp
  replies { nt with scheduler } .success accesses

/-- The call of a handler. -/
def call (nt : Nt) (rsp : Nat) (args : SyscallArgs) : SyscallHandler → Except Panic Handled
  | .close => nt.handleClose args
  | .createFile => nt.handleCreateFile args
  | .readFile => nt.handleReadFile args
  | .writeFile => nt.handleWriteFile args
  | .allocateVirtualMemory => nt.handleAllocateVirtualMemory args
  | .freeVirtualMemory => nt.handleFreeVirtualMemory args
  | .querySystemInformation => nt.handleQuerySystemInformation args
  | .queryInformationProcess => nt.handleQueryInformationProcess args
  | .delayExecution => nt.handleDelayExecution args rsp

/-- `dispatch`. -/
def dispatch (nt : Nt) (dispatcher : Dispatcher) (rsp number : Nat) (args : SyscallArgs) :
    Except Panic Handled := do
  match ← dispatcher.dispatch number args with
  | .calls handler args => nt.call rsp args handler
  | .returns status => nt.replies status []

end Nt

end Aperture.Win32
