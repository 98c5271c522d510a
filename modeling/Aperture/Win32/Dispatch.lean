import Aperture.Machine.Cpu
import Aperture.Machine.Run

/-!
# System call dispatch

`nt::dispatch` indexes a table of 256 entries with the system call number. The interpreter
passes a number through `SyscallNumber::from`, which maps every unknown one to
`NtWaitForMultipleObjects`; the table has no handler for that one.
-/

namespace Aperture.Win32

open Machine

/-- `NtStatus`. -/
inductive NtStatus where
  /-- Success. -/
  | success
  /-- Pending. -/
  | pending
  /-- No handler. -/
  | notImplemented
  /-- A bad argument. -/
  | invalidParameter
  /-- Not allowed. -/
  | accessDenied
  /-- A buffer too short for the result. -/
  | bufferTooSmall
  /-- No object of that name. -/
  | objectNameNotFound
  /-- The name is taken. -/
  | objectNameCollision
  /-- Nothing left to read. -/
  | endOfFile
  deriving DecidableEq, Repr

/-- `NtStatus as u64`. -/
def NtStatus.code : NtStatus → BitVec 64
  | .success => 0x00000000
  | .pending => 0x00000103
  | .notImplemented => 0xC0000002
  | .invalidParameter => 0xC000000D
  | .accessDenied => 0xC0000022
  | .bufferTooSmall => 0xC0000023
  | .objectNameNotFound => 0xC0000034
  | .objectNameCollision => 0xC0000035
  | .endOfFile => 0xC0000011

/-- `SyscallNumber`. -/
inductive SyscallNumber where
  /-- Number 0x55. -/
  | ntCreateFile
  /-- Number 0x0F. -/
  | ntClose
  /-- Number 0x6F. -/
  | ntReadFile
  /-- Number 0x08. -/
  | ntWriteFile
  /-- Number 0x18. -/
  | ntAllocateVirtualMemory
  /-- Number 0x1E. -/
  | ntFreeVirtualMemory
  /-- Number 0x4F. -/
  | ntCreateProcess
  /-- Number 0x4E. -/
  | ntCreateThread
  /-- Number 0x36. -/
  | ntQuerySystemInformation
  /-- Number 0x19. -/
  | ntQueryInformationProcess
  /-- Number 0x1C. -/
  | ntSetInformationProcess
  /-- Number 0x34. -/
  | ntDelayExecution
  /-- Number 0x1D. -/
  | ntCreateKey
  /-- Number 0x49. -/
  | ntQueryValueKey
  /-- Number 0x5D. -/
  | ntSetValueKey
  /-- Number 0x01. -/
  | ntWaitForMultipleObjects
  deriving DecidableEq, Repr

namespace SyscallNumber

/-- `number as usize`. -/
def index : SyscallNumber → Nat
  | ntCreateFile => 0x55
  | ntClose => 0x0F
  | ntReadFile => 0x6F
  | ntWriteFile => 0x08
  | ntAllocateVirtualMemory => 0x18
  | ntFreeVirtualMemory => 0x1E
  | ntCreateProcess => 0x4F
  | ntCreateThread => 0x4E
  | ntQuerySystemInformation => 0x36
  | ntQueryInformationProcess => 0x19
  | ntSetInformationProcess => 0x1C
  | ntDelayExecution => 0x34
  | ntCreateKey => 0x1D
  | ntQueryValueKey => 0x49
  | ntSetValueKey => 0x5D
  | ntWaitForMultipleObjects => 0x01

/-- `from_raw`. -/
def fromRaw : Nat → Option SyscallNumber
  | 0x55 => some ntCreateFile
  | 0x0F => some ntClose
  | 0x6F => some ntReadFile
  | 0x08 => some ntWriteFile
  | 0x18 => some ntAllocateVirtualMemory
  | 0x1E => some ntFreeVirtualMemory
  | 0x4F => some ntCreateProcess
  | 0x4E => some ntCreateThread
  | 0x36 => some ntQuerySystemInformation
  | 0x19 => some ntQueryInformationProcess
  | 0x1C => some ntSetInformationProcess
  | 0x34 => some ntDelayExecution
  | 0x1D => some ntCreateKey
  | 0x49 => some ntQueryValueKey
  | 0x5D => some ntSetValueKey
  | 0x01 => some ntWaitForMultipleObjects
  | _ => none

/-- `From<usize>`. -/
def ofUsize (value : Nat) : SyscallNumber := (fromRaw value).getD ntWaitForMultipleObjects

end SyscallNumber

/-- The functions in the dispatch table. -/
inductive SyscallHandler where
  /-- `handle_close`. -/
  | close
  /-- `handle_create_file`. -/
  | createFile
  /-- `handle_read_file`. -/
  | readFile
  /-- `handle_write_file`. -/
  | writeFile
  /-- `handle_allocate_virtual_memory`. -/
  | allocateVirtualMemory
  /-- `handle_free_virtual_memory`. -/
  | freeVirtualMemory
  /-- `handle_query_system_information`. -/
  | querySystemInformation
  /-- `handle_query_information_process`. -/
  | queryInformationProcess
  /-- `handle_delay_execution`. -/
  | delayExecution
  deriving DecidableEq, Repr

/-- The table that `init_syscall_table` builds. -/
def handlerTable : List (SyscallNumber × SyscallHandler) :=
  [(.ntClose, .close), (.ntCreateFile, .createFile), (.ntReadFile, .readFile),
    (.ntWriteFile, .writeFile), (.ntAllocateVirtualMemory, .allocateVirtualMemory),
    (.ntFreeVirtualMemory, .freeVirtualMemory),
    (.ntQuerySystemInformation, .querySystemInformation),
    (.ntQueryInformationProcess, .queryInformationProcess), (.ntDelayExecution, .delayExecution)]

/-- `[usize; 16]`. -/
abbrev SyscallArgs := Fin 16 → BitVec 64

/-- There are arguments. -/
instance argumentCount : NeZero 16 := ⟨by decide⟩

/-- The dispatcher's statics. -/
structure Dispatcher where
  /-- `INITIALIZED`. -/
  initialized : Bool
  /-- `SYSCALL_TABLE`. -/
  table : Nat → Option SyscallHandler

/-- What `dispatch` does with a number and its arguments. -/
inductive Dispatched where
  /-- A handler is called. -/
  | calls (handler : SyscallHandler) (args : SyscallArgs)
  /-- A status is returned. -/
  | returns (status : NtStatus)

namespace Dispatcher

/-- Before initialisation. -/
def boot : Dispatcher := ⟨false, fun _ => none⟩

/-- `nt::init`. -/
def init (d : Dispatcher) : Dispatcher := { d with initialized := true }

/-- `init_syscall_table`. -/
def initSyscallTable (d : Dispatcher) : Dispatcher :=
  { d with
    table := handlerTable.foldl
      (fun table entry => Function.update table entry.1.index (some entry.2)) fun _ => none }

/-- `dispatch`, up to the call of the handler, with the number as the index. -/
def dispatch (d : Dispatcher) (number : Nat) (args : SyscallArgs) : Except Panic Dispatched :=
  if d.initialized then
    if number < 256 then
      match d.table number with
      | some handler => .ok (.calls handler args)
      | none => .ok (.returns .notImplemented)
    else .error .outOfRange
  else .ok (.returns .accessDenied)

end Dispatcher

/-- `dispatch_syscall`, up to the call of the handler: the interpreter's arguments. -/
def syscallArgs (regs : Register → BitVec 64) : SyscallArgs := fun i =>
  [regs .rdi, regs .rsi, regs .rdx, regs .r10, regs .r8, regs .r9].getD i 0

/-- `dispatch_syscall`, up to the call of the handler. -/
def dispatchSyscall (d : Dispatcher) (regs : Register → BitVec 64) : Except Panic Dispatched :=
  d.dispatch (SyscallNumber.ofUsize (regs .rax).toNat).index (syscallArgs regs)

/-! ## The table -/

/-- Initialisation steps. -/
inductive InitOp where
  /-- `nt::init`. -/
  | init
  /-- `init_syscall_table`. -/
  | initSyscallTable
  deriving DecidableEq

/-- One initialisation step. -/
def Dispatcher.Step (before : Dispatcher) (op : InitOp) (after : Dispatcher) : Prop :=
  after = match op with
    | .init => before.init
    | .initSyscallTable => before.initSyscallTable

namespace Dispatcher

/-- Handlers stand at known numbers, and none at that of `NtWaitForMultipleObjects`. -/
def Known (d : Dispatcher) : Prop :=
  ∀ number < 256, (SyscallNumber.ofUsize number).index ≠ number →
    d.table number = d.table (SyscallNumber.ofUsize number).index

/-- Initialisation keeps the table so. -/
theorem known_step {before after : Dispatcher} {op : InitOp} (known : before.Known)
    (step : before.Step op after) : after.Known := by
  cases op with
  | init =>
    rw [step]
    exact known
  | initSyscallTable =>
    rw [step]
    unfold Known
    show ∀ number < 256, (SyscallNumber.ofUsize number).index ≠ number →
      (initSyscallTable ⟨false, fun _ => none⟩).table number =
        (initSyscallTable ⟨false, fun _ => none⟩).table (SyscallNumber.ofUsize number).index
    decide +kernel

/-- Dispatching stays inside the table exactly when the number does. -/
theorem dispatch_inside_iff (d : Dispatcher) (number : Nat) (args : SyscallArgs) :
    d.dispatch number args ≠ .error .outOfRange ↔ (d.initialized = true → number < 256) := by
  unfold dispatch
  by_cases ready : d.initialized = true
  · by_cases inside : number < 256
    · simp only [ready, inside, ↓reduceIte, ne_eq, forall_const, iff_true]
      split <;> exact fun error => nomatch error
    · simp [ready, inside]
  · simp [ready]

/-- Every number that the interpreter passes on is in the table. -/
theorem index_lt (number : Nat) : (SyscallNumber.ofUsize number).index < 256 := by
  cases SyscallNumber.ofUsize number <;> decide

/-- The interpreter's detour finds the same entry. -/
theorem dispatch_ofUsize {d : Dispatcher} (known : d.Known) {number : Nat}
    (inside : d.initialized = true → number < 256) (args : SyscallArgs) :
    d.dispatch (SyscallNumber.ofUsize number).index args = d.dispatch number args := by
  by_cases ready : d.initialized = true
  swap
  · simp only [dispatch, ready, Bool.false_eq_true, ↓reduceIte]
  have numberFits := inside ready
  have same : d.table (SyscallNumber.ofUsize number).index = d.table number := by
    by_cases equal : (SyscallNumber.ofUsize number).index = number
    · rw [equal]
    · exact (known number numberFits equal).symm
  simp only [dispatch, index_lt number, numberFits, same]

end Dispatcher

end Aperture.Win32
