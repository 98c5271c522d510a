import Aperture.Win32.Dispatch

/-!
# SYSCALL entry

`syscall_entry` switches stacks, saves registers, lays out sixteen arguments below them and calls
`nt::dispatch` with the number that user code left in RAX. The interpreter builds the same arguments
from the same registers and passes the number through `SyscallNumber::from`. The operand
`[rip + SYSCALL_RSP - 7]` of the entry's `lea` is 7 bytes in front of `SYSCALL_RSP`, so what becomes
the stack pointer is not what `SYSCALL_RSP` holds.
-/

namespace Aperture.Arch

open Machine Win32

/-- The registers `syscall_entry` saves, in the order it pushes them. -/
def syscallSaved : List Register := [.rbp, .rbx, .r13, .r14, .r15, .r12, .rcx, .r11]

/-- Where each of the sixteen arguments comes from; nothing means zero. -/
def argumentSources : List (Option Register) :=
  [some .rdi, some .r13, some .rdx, some .r10, some .r8, some .r9, none, none, none, none, none,
    none, none, none, none, none]

/-- The store of an argument at an offset from the stack pointer. -/
def storeArgument (offset : BitVec 64) : Option Register → Instr
  | some source => .store .rsp offset source
  | none => .storeImm .rsp offset 0

/-- Stores of consecutive arguments from an offset on. -/
def storeArguments (offset : BitVec 64) : List (Option Register) → List Instr
  | [] => []
  | source :: rest => storeArgument offset source :: storeArguments (offset + 8) rest

/-- `syscall_entry` up to its call of `nt::dispatch`, for the address of `SYSCALL_RSP`. The stack
pointer is read from the address that the `lea` computes. -/
def syscallEntry (syscallRsp : BitVec 64) : List Instr :=
  [Instr.mov .r12 .rsp, .movImm .r13 (syscallRsp - 7), .load .rsp .r13 0] ++
    syscallSaved.map .push ++ [Instr.mov .r13 .rsi, .subImm .rsp 128] ++
    storeArguments 0 argumentSources ++ [Instr.mov .rdi .rax, .mov .rsi .rsp]

/-- `syscall_entry` up to `nt::dispatch`, where only some words may be written. The call writes the
return address. -/
def enterSyscall (writable : BitVec 64 → Bool) (syscallRsp : BitVec 64) (cpu : Cpu) :
    Except Panic Cpu := do
  let entered ← cpu.execIn writable (syscallEntry syscallRsp)
  let returnAddress := entered.regs .rsp - 8
  if writable returnAddress then return entered else .error (.fault returnAddress.toNat)

/-- A native system call, up to the call of the handler: `dispatch` takes the number from RDI and
the address of the arguments from RSI. -/
def nativeSyscall (d : Dispatcher) (writable : BitVec 64 → Bool) (syscallRsp : BitVec 64)
    (cpu : Cpu) : Except Panic Dispatched := do
  let entered ← enterSyscall writable syscallRsp cpu
  d.dispatch (entered.regs .rdi).toNat fun i =>
    entered.memory.load64 (entered.regs .rsi + BitVec.ofNat 64 (8 * i))

/-- The two ways of executing SYSCALL do the same, inside the table. -/
def Alike (d : Dispatcher) (writable : BitVec 64 → Bool) (syscallRsp : BitVec 64) (cpu : Cpu) :
    Prop :=
  nativeSyscall d writable syscallRsp cpu = dispatchSyscall d cpu.regs ∧
    nativeSyscall d writable syscallRsp cpu ≠ .error .outOfRange ∧
    dispatchSyscall d cpu.regs ≠ .error .outOfRange

/-- What `syscall_entry` loads as its stack pointer leads to a stack: the words of eight registers,
sixteen arguments and the return address below it may be written. -/
def StackWritable (writable : BitVec 64 → Bool) (syscallRsp : BitVec 64) (memory : PhysMem) : Prop :=
  ∀ i < 25, writable (memory.load64 (syscallRsp - 7) - BitVec.ofNat 64 (8 * (i + 1))) = true

/-! ## The arguments -/

/-- The value an argument is stored with. -/
def argumentValue (regs : Register → BitVec 64) (source : Option Register) : BitVec 64 :=
  source.elim 0 regs

/-- Storing an argument changes one word. -/
theorem storeArgument_exec (cpu : Cpu) (offset : BitVec 64) (source : Option Register) :
    Instr.exec cpu (storeArgument offset source) =
      ⟨cpu.regs, cpu.memory.store64 (cpu.regs .rsp + offset) (argumentValue cpu.regs source)⟩ := by
  cases source with
  | none => rfl
  | some register => rfl

/-- Arguments stored further on leave a word alone. -/
theorem storeArguments_keeps (sources : List (Option Register)) (cpu : Cpu) (offset : BitVec 64)
    {places : Nat} (positive : 0 < places) (few : places + sources.length ≤ 16) {word : BitVec 64}
    (later : cpu.regs .rsp + offset = word + BitVec.ofNat 64 (8 * places)) :
    (cpu.exec (storeArguments offset sources)).memory.load64 word = cpu.memory.load64 word := by
  induction sources generalizing cpu offset places with
  | nil => rfl
  | cons source rest ih =>
    rw [List.length_cons] at few
    rw [storeArguments, Cpu.exec_cons, storeArgument_exec]
    have next : cpu.regs .rsp + (offset + 8) = word + BitVec.ofNat 64 (8 * (places + 1)) := by
      rw [← BitVec.add_assoc, later, BitVec.add_assoc, Nat.mul_succ, BitVec.ofNat_add]
      rfl
    have rest := ih ⟨cpu.regs, cpu.memory.store64 (cpu.regs .rsp + offset)
      (argumentValue cpu.regs source)⟩ (offset + 8) (Nat.succ_pos places) (by omega) next
    rw [rest, later]
    exact PhysMem.load64_store64_separate _ _ (words_apart word positive (by omega))

/-- Stored arguments lie in memory one after the other, and no register changes. -/
theorem storeArguments_spec (sources : List (Option Register)) (cpu : Cpu) (offset : BitVec 64)
    (few : sources.length ≤ 16) :
    (cpu.exec (storeArguments offset sources)).regs = cpu.regs ∧
      Words (cpu.exec (storeArguments offset sources)).memory (cpu.regs .rsp + offset)
        (sources.map (argumentValue cpu.regs)) := by
  induction sources generalizing cpu offset with
  | nil => exact ⟨rfl, trivial⟩
  | cons source rest ih =>
    rw [List.length_cons] at few
    rw [storeArguments, Cpu.exec_cons, storeArgument_exec]
    obtain ⟨regs, words⟩ := ih ⟨cpu.regs, cpu.memory.store64 (cpu.regs .rsp + offset)
      (argumentValue cpu.regs source)⟩ (offset + 8) (by omega)
    refine ⟨regs, ?_, by rw [BitVec.add_assoc]; exact words⟩
    have kept := storeArguments_keeps rest ⟨cpu.regs, cpu.memory.store64 (cpu.regs .rsp + offset)
      (argumentValue cpu.regs source)⟩ (offset + 8) Nat.one_pos (by omega)
      (BitVec.add_assoc _ _ _).symm
    rw [kept, PhysMem.load64_store64]

/-- The switch to the kernel stack takes R12, R13 and RSP. -/
theorem syscallSwitch_regs (syscallRsp : BitVec 64) (cpu : Cpu) (r : Register) (notR12 : r ≠ .r12)
    (notR13 : r ≠ .r13) (notRsp : r ≠ .rsp) :
    (cpu.exec [.mov .r12 .rsp, .movImm .r13 (syscallRsp - 7), .load .rsp .r13 0]).regs r =
      cpu.regs r := by
  rw [Cpu.exec_cons, Cpu.exec_cons, Cpu.exec_cons, Cpu.exec_nil]
  simp only [Instr.exec, Cpu.set_other _ _ notRsp, Cpu.set_other _ _ notR13,
    Cpu.set_other _ _ notR12]

/-- What `dispatch` is called with. -/
theorem syscallEntry_spec (syscallRsp : BitVec 64) (cpu : Cpu) :
    (cpu.exec (syscallEntry syscallRsp)).regs .rdi = cpu.regs .rax ∧
      Words (cpu.exec (syscallEntry syscallRsp)).memory
        ((cpu.exec (syscallEntry syscallRsp)).regs .rsi)
        ([cpu.regs .rdi, cpu.regs .rsi, cpu.regs .rdx, cpu.regs .r10, cpu.regs .r8, cpu.regs .r9] ++
          List.replicate 10 0) := by
  have start := syscallSwitch_regs syscallRsp cpu
  rw [syscallEntry, Cpu.exec_append, Cpu.exec_append, Cpu.exec_append, Cpu.exec_append]
  generalize cpu.exec [.mov .r12 .rsp, .movImm .r13 (syscallRsp - 7), .load .rsp .r13 0] = switched
    at start
  have pushed (r : Register) (notRsp : r ≠ .rsp) :=
    Cpu.exec_pushes_regs switched syscallSaved notRsp
  generalize switched.exec (syscallSaved.map .push) = saved at pushed
  have kept (r : Register) (notR12 : r ≠ .r12) (notR13 : r ≠ .r13) (notRsp : r ≠ .rsp) :
      (saved.exec [.mov .r13 .rsi, .subImm .rsp 128]).regs r = cpu.regs r := by
    rw [Cpu.exec_cons, Cpu.exec_cons, Cpu.exec_nil]
    simp only [Instr.exec, Cpu.set_other _ _ notRsp, Cpu.set_other _ _ notR13]
    rw [pushed r notRsp, start r notR12 notR13 notRsp]
  have second : (saved.exec [.mov .r13 .rsi, .subImm .rsp 128]).regs .r13 = cpu.regs .rsi := by
    have notRsp : Register.r13 ≠ .rsp := by decide
    rw [Cpu.exec_cons, Cpu.exec_cons, Cpu.exec_nil]
    simp only [Instr.exec, Cpu.set_other _ _ notRsp, Cpu.set_self]
    rw [pushed .rsi (by decide), start .rsi (by decide) (by decide) (by decide)]
  generalize saved.exec [.mov .r13 .rsi, .subImm .rsp 128] = ready at kept second
  obtain ⟨regs, words⟩ := storeArguments_spec argumentSources ready 0 (by decide)
  generalize ready.exec (storeArguments 0 argumentSources) = stored at regs words
  have base : ready.regs .rsp + 0 = ready.regs .rsp := BitVec.add_zero _
  rw [base] at words
  have number : (stored.exec [.mov .rdi .rax, .mov .rsi .rsp]).regs .rdi = ready.regs .rax := by
    rw [← regs]
    rfl
  have pointer : (stored.exec [.mov .rdi .rax, .mov .rsi .rsp]).regs .rsi = ready.regs .rsp := by
    rw [← regs]
    rfl
  have memory : (stored.exec [.mov .rdi .rax, .mov .rsi .rsp]).memory = stored.memory := rfl
  rw [number, pointer, memory]
  refine ⟨kept .rax (by decide) (by decide) (by decide), ?_⟩
  have values : argumentSources.map (argumentValue ready.regs) =
      [cpu.regs .rdi, cpu.regs .rsi, cpu.regs .rdx, cpu.regs .r10, cpu.regs .r8, cpu.regs .r9] ++
        List.replicate 10 0 := by
    simp only [argumentSources, argumentValue, List.map_cons, List.map_nil, Option.elim, second,
      kept .rdi (by decide) (by decide) (by decide), kept .rdx (by decide) (by decide) (by decide),
      kept .r10 (by decide) (by decide) (by decide), kept .r8 (by decide) (by decide) (by decide),
      kept .r9 (by decide) (by decide) (by decide)]
    rfl
  rw [← values]
  exact words

/-! ## The stack -/

/-- Storing arguments writes their words. -/
theorem mem_targets_storeArguments {sources : List (Option Register)} {cpu : Cpu}
    {offset address : BitVec 64} :
    address ∈ cpu.targets (storeArguments offset sources) ↔
      ∃ i < sources.length, address = cpu.regs .rsp + offset + BitVec.ofNat 64 (8 * i) := by
  induction sources generalizing cpu offset with
  | nil => simp [storeArguments, Cpu.targets]
  | cons source rest ih =>
    have target : (storeArgument offset source).target cpu = some (cpu.regs .rsp + offset) := by
      cases source <;> rfl
    have next (i : Nat) : cpu.regs .rsp + (offset + 8) + BitVec.ofNat 64 (8 * i) =
        cpu.regs .rsp + offset + BitVec.ofNat 64 (8 * (i + 1)) := by
      rw [ofNat_succ_places, BitVec.add_comm (BitVec.ofNat 64 (8 * i)) 8, ← BitVec.add_assoc,
        ← BitVec.add_assoc]
    rw [storeArguments, Cpu.targets, List.mem_append, target, ih, storeArgument_exec,
      List.length_cons]
    simp only [Option.toList_some, List.mem_singleton, next]
    constructor
    · rintro (rfl | ⟨i, inside, rfl⟩)
      · exact ⟨0, Nat.succ_pos _, (BitVec.add_zero _).symm⟩
      · exact ⟨i + 1, Nat.succ_lt_succ inside, rfl⟩
    · rintro ⟨i, inside, rfl⟩
      cases i with
      | zero => exact .inl (BitVec.add_zero _)
      | succ i => exact .inr ⟨i, Nat.lt_of_succ_lt_succ inside, rfl⟩

/-- The entry writes 24 words below the stack pointer that it loads, and leaves its stack pointer
below them. -/
theorem syscallEntry_targets (syscallRsp : BitVec 64) (cpu : Cpu) :
    (∀ address, address ∈ cpu.targets (syscallEntry syscallRsp) ↔ ∃ i < 24,
      address = cpu.memory.load64 (syscallRsp - 7) - BitVec.ofNat 64 (8 * (i + 1))) ∧
      (cpu.exec (syscallEntry syscallRsp)).regs .rsp =
        cpu.memory.load64 (syscallRsp - 7) - 192 := by
  have switch :
      cpu.targets [.mov .r12 .rsp, .movImm .r13 (syscallRsp - 7), .load .rsp .r13 0] = [] :=
    rfl
  have start : (cpu.exec [.mov .r12 .rsp, .movImm .r13 (syscallRsp - 7), .load .rsp .r13 0]).regs
      .rsp = cpu.memory.load64 (syscallRsp - 7 + 0) := rfl
  have base : syscallRsp - 7 + 0 = syscallRsp - 7 := BitVec.add_zero _
  rw [base] at start
  simp only [syscallEntry, Cpu.targets_append, Cpu.exec_append, switch, List.nil_append]
  generalize cpu.exec [.mov .r12 .rsp, .movImm .r13 (syscallRsp - 7), .load .rsp .r13 0] = switched
    at start ⊢
  rw [← start]
  have notRsp : Register.rsp ∉ syscallSaved := by decide
  have empty : Words switched.memory (switched.regs .rsp) [] := trivial
  have saved : (switched.exec (syscallSaved.map .push)).regs .rsp = switched.regs .rsp - 64 :=
    (Cpu.exec_pushes_words notRsp empty (by decide)).1
  have pushes (address : BitVec 64) : address ∈ switched.targets (syscallSaved.map .push) ↔
      ∃ i < 8, address = switched.regs .rsp - BitVec.ofNat 64 (8 * (i + 1)) :=
    Cpu.mem_targets_pushes notRsp
  generalize switched.exec (syscallSaved.map .push) = pushed at saved ⊢
  have lowered : (pushed.exec [.mov .r13 .rsi, .subImm .rsp 128]).regs .rsp =
      switched.regs .rsp - 192 := by
    have lower : (pushed.exec [.mov .r13 .rsi, .subImm .rsp 128]).regs .rsp =
        pushed.regs .rsp - 128 := rfl
    rw [lower, saved, sub_sub]
    rfl
  have lowers : pushed.targets [.mov .r13 .rsi, .subImm .rsp 128] = [] := rfl
  generalize pushed.exec [.mov .r13 .rsi, .subImm .rsp 128] = ready at lowered ⊢
  have stores (address : BitVec 64) : address ∈ ready.targets (storeArguments 0 argumentSources) ↔
      ∃ i < 16, address = switched.regs .rsp - 192 + 0 + BitVec.ofNat 64 (8 * i) := by
    rw [mem_targets_storeArguments, lowered]
    rfl
  have kept := (storeArguments_spec argumentSources ready 0 (by decide)).1
  generalize ready.exec (storeArguments 0 argumentSources) = stored at kept ⊢
  have moves : stored.targets [.mov .rdi .rax, .mov .rsi .rsp] = [] := rfl
  have last : (stored.exec [.mov .rdi .rax, .mov .rsi .rsp]).regs .rsp = stored.regs .rsp := rfl
  rw [lowers, moves, last, kept, lowered]
  refine ⟨fun address => ?_, rfl⟩
  simp only [List.append_nil, List.mem_append, pushes, stores]
  constructor
  · rintro (⟨i, inside, rfl⟩ | ⟨i, inside, rfl⟩)
    · exact ⟨i, by omega, rfl⟩
    · exact ⟨23 - i, by omega, by bv_omega⟩
  · rintro ⟨i, inside, rfl⟩
    by_cases register : i < 8
    · exact .inl ⟨i, register, rfl⟩
    · exact .inr ⟨23 - i, by omega, by bv_omega⟩

/-- `nt::dispatch` is reached exactly when there is a stack. -/
theorem enterSyscall_eq_ok {writable : BitVec 64 → Bool} {syscallRsp : BitVec 64}
    {cpu entered : Cpu} :
    enterSyscall writable syscallRsp cpu = .ok entered ↔
      StackWritable writable syscallRsp cpu.memory ∧
        entered = cpu.exec (syscallEntry syscallRsp) := by
  obtain ⟨targets, below⟩ := syscallEntry_targets syscallRsp cpu
  have call : cpu.memory.load64 (syscallRsp - 7) - 192 - 8 =
      cpu.memory.load64 (syscallRsp - 7) - BitVec.ofNat 64 (8 * (24 + 1)) := by
    rw [sub_sub]
    rfl
  have words : StackWritable writable syscallRsp cpu.memory ↔
      (∀ address ∈ cpu.targets (syscallEntry syscallRsp), writable address = true) ∧
        writable (cpu.memory.load64 (syscallRsp - 7) - 192 - 8) = true := by
    rw [StackWritable, Nat.forall_lt_succ_right, call]
    refine and_congr_left fun _ => ⟨fun all address member => ?_, fun all i inside => ?_⟩
    · obtain ⟨i, inside, rfl⟩ := (targets address).mp member
      exact all i inside
    · exact all _ ((targets _).mpr ⟨i, inside, rfl⟩)
  rw [enterSyscall, bind_eq_ok, words]
  simp only [Cpu.execIn_eq_ok]
  constructor
  · rintro ⟨_, ⟨allowed, rfl⟩, returned⟩
    rw [below] at returned
    split at returned
    · rename_i room
      exact ⟨⟨allowed, room⟩, (Except.ok.inj returned).symm⟩
    · cases returned
  · rintro ⟨⟨allowed, room⟩, rfl⟩
    refine ⟨_, ⟨allowed, rfl⟩, ?_⟩
    rw [below, if_pos room]
    rfl

/-- Both ways pass the same arguments; only the number differs. -/
theorem nativeSyscall_eq (d : Dispatcher) {writable : BitVec 64 → Bool} {syscallRsp : BitVec 64}
    {cpu : Cpu} (stack : StackWritable writable syscallRsp cpu.memory) :
    nativeSyscall d writable syscallRsp cpu =
      d.dispatch (cpu.regs .rax).toNat (syscallArgs cpu.regs) := by
  obtain ⟨number, words⟩ := syscallEntry_spec syscallRsp cpu
  have args : (fun i : Fin 16 => (cpu.exec (syscallEntry syscallRsp)).memory.load64
      ((cpu.exec (syscallEntry syscallRsp)).regs .rsi + BitVec.ofNat 64 (8 * i))) =
      syscallArgs cpu.regs := by
    funext i
    rw [words.load i.isLt, syscallArgs]
    fin_cases i <;> rfl
  rw [nativeSyscall, enterSyscall_eq_ok.mpr ⟨stack, rfl⟩, ok_bind, number, args]

/-- Without a stack the native call does not reach `nt::dispatch`. -/
theorem nativeSyscall_faults (d : Dispatcher) {writable : BitVec 64 → Bool}
    {syscallRsp : BitVec 64} {cpu : Cpu} (missing : ¬ StackWritable writable syscallRsp cpu.memory)
    (dispatched : Dispatched) : nativeSyscall d writable syscallRsp cpu ≠ .ok dispatched := by
  intro returned
  obtain ⟨_, entered, _⟩ := bind_eq_ok.mp returned
  exact missing (enterSyscall_eq_ok.mp entered).1

/-- The interpreter always returns from the table. -/
theorem dispatchSyscall_returns (d : Dispatcher) (regs : Register → BitVec 64) :
    ∃ dispatched, dispatchSyscall d regs = .ok dispatched := by
  rw [dispatchSyscall, Dispatcher.dispatch]
  split
  · rw [if_pos (Dispatcher.index_lt _)]
    split <;> exact ⟨_, rfl⟩
  · exact ⟨_, rfl⟩

/-- In every state of the dispatcher, a native and an interpreted SYSCALL are alike exactly when
what is 7 bytes in front of `SYSCALL_RSP` leads to a stack, and the number is inside the table or
nothing is dispatched yet. -/
theorem alike_iff_stack {d : Dispatcher} {ops : List InitOp}
    (run : Run Dispatcher.Step Dispatcher.boot ops d) (writable : BitVec 64 → Bool)
    (syscallRsp : BitVec 64) (cpu : Cpu) :
    Alike d writable syscallRsp cpu ↔ StackWritable writable syscallRsp cpu.memory ∧
      (d.initialized = true → (cpu.regs .rax).toNat < 256) := by
  have known : d.Known := run.invariant Dispatcher.Known (fun _ _ _ => Dispatcher.known_step)
    fun _ _ _ => rfl
  by_cases stack : StackWritable writable syscallRsp cpu.memory
  · rw [and_iff_right stack, Alike, nativeSyscall_eq d stack, dispatchSyscall,
      Dispatcher.dispatch_inside_iff, Dispatcher.dispatch_inside_iff]
    constructor
    · rintro ⟨_, inside, _⟩
      exact inside
    · intro inside
      exact ⟨(Dispatcher.dispatch_ofUsize known inside _).symm, inside,
        fun _ => Dispatcher.index_lt _⟩
  · refine iff_of_false (fun alike => ?_) fun condition => stack condition.1
    obtain ⟨dispatched, returned⟩ := dispatchSyscall_returns d cpu.regs
    exact nativeSyscall_faults d stack dispatched (alike.1.trans returned)

/-- The dispatcher as `win32::init` leaves it. -/
def readyDispatcher : Dispatcher := Dispatcher.boot.init.initSyscallTable

/-- It is reached from boot. -/
theorem readyDispatcher_run :
    Run Dispatcher.Step Dispatcher.boot [.init, .initSyscallTable] readyDispatcher :=
  .cons rfl (.cons rfl (.nil _))

/-- The first two mebibytes may be written. -/
def lowMemory (address : BitVec 64) : Bool := decide (address.toNat < 0x200000)

/-- A CPU at SYSCALL with a word at an address, and zeros elsewhere. -/
def atSyscall (regs : Register → BitVec 64) (address word : BitVec 64) : Cpu :=
  ⟨regs, PhysMem.store64 ⟨fun _ => 0, []⟩ address word⟩

/-- With the stack's address 7 bytes in front of `SYSCALL_RSP` there is a stack. -/
theorem stackWritable_low (regs : Register → BitVec 64) :
    StackWritable lowMemory 0x100008 (atSyscall regs 0x100001 0x180000).memory := by
  intro i inside
  have start : (0x100008 : BitVec 64) - 7 = 0x100001 := by decide
  rw [start, atSyscall, PhysMem.load64_store64, lowMemory, decide_eq_true_iff]
  bv_omega

/-- Then `NtWriteFile` is dispatched alike. -/
theorem alike_iff_stack_write :
    Alike readyDispatcher lowMemory 0x100008 (atSyscall (fun _ => 8) 0x100001 0x180000) :=
  (alike_iff_stack readyDispatcher_run _ _ _).mpr ⟨stackWritable_low _, fun _ => by decide⟩

/-- With the stack's address at `SYSCALL_RSP`, and zeros in front of it, the native `NtWriteFile`
faults at its first push, and the interpreter dispatches it. With a stack, number 256 is past the
table natively, and not implemented in the interpreter. -/
theorem not_alike :
    (nativeSyscall readyDispatcher lowMemory 0x100000
        (atSyscall (fun _ => 8) 0x100000 0x180000) = .error (.fault 0xFFFFFFFFFFFFFFF8) ∧
      dispatchSyscall readyDispatcher (fun _ => 8) =
        .ok (.calls .writeFile (syscallArgs fun _ => 8))) ∧
      nativeSyscall readyDispatcher lowMemory 0x100008
        (atSyscall (fun _ => 256) 0x100001 0x180000) = .error .outOfRange ∧
      dispatchSyscall readyDispatcher (fun _ => 256) = .ok (.returns .notImplemented) := by
  refine ⟨⟨rfl, rfl⟩, ?_, rfl⟩
  rw [nativeSyscall_eq readyDispatcher (stackWritable_low _)]
  rfl

end Aperture.Arch
