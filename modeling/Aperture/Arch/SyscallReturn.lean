import Aperture.Arch.SyscallEntry
import Aperture.Win32.Interpreter

/-!
# SYSCALL return

After `nt::dispatch` returns, `syscall_entry` drops the arguments, pops what it pushed and takes
the user stack pointer from R12. The frame survives the argument stores and the call, so every pop
finds the word that was pushed; but R12 and R13 were pushed after the switch to the kernel stack
had taken them, and the words popped into them are the user stack pointer and the address that the
entry's `lea` computes, 7 bytes in front of `SYSCALL_RSP`. The interpreter sets RAX and nothing
else.
-/

namespace Aperture.Arch

open Machine Win32

/-- `syscall_entry` from the return of `nt::dispatch` to its `sysretq`. -/
def syscallExit : List Instr :=
  [Instr.addImm .rsp 128] ++
    [Register.r11, .rcx, .r12, .r15, .r14, .r13, .rbx, .rbp].map .pop ++ [Instr.mov .rsp .r12]

/-- Registers that the System V ABI has a callee restore. -/
def calleeSaved : List Register := [.rbx, .rbp, .r12, .r13, .r14, .r15, .rsp]

/-- A call of `nt::dispatch` that obeys the ABI: the callee-saved registers come back, and so does
the caller's frame behind the argument array. -/
structure ObeysAbi (called returned : Cpu) : Prop where
  /-- The callee-saved registers. -/
  saved : ∀ r ∈ calleeSaved, returned.regs r = called.regs r
  /-- The words `syscall_entry` pushed. -/
  frame : ∀ i < syscallSaved.length,
    returned.memory.load64 (called.regs .rsp + 128 + BitVec.ofNat 64 (8 * i)) =
      called.memory.load64 (called.regs .rsp + 128 + BitVec.ofNat 64 (8 * i))

/-- What user code finds again after SYSCALL: the callee-saved registers, the resume address in RCX
and the flags in R11. -/
def callerState : List Register := calleeSaved ++ [.rcx, .r11]

/-- A system call that preserves the state of its caller. -/
def PreservesCaller (before after : Cpu) : Prop :=
  ∀ r ∈ callerState, after.regs r = before.regs r

/-! ## The frame -/

/-- Words behind the arguments survive their stores. -/
theorem storeArguments_below (sources : List (Option Register)) {cpu : Cpu} {offset : BitVec 64}
    {places : Nat} {base : BitVec 64} {values : List (BitVec 64)}
    (words : Words cpu.memory base values)
    (behind : cpu.regs .rsp + offset + BitVec.ofNat 64 (8 * places) = base)
    (room : sources.length ≤ places) (few : places + values.length < 2 ^ 60) :
    Words (cpu.exec (storeArguments offset sources)).memory base values := by
  induction sources generalizing cpu offset places with
  | nil => exact words
  | cons source rest ih =>
    rw [List.length_cons] at room
    obtain ⟨fewer, rfl⟩ := Nat.exists_eq_add_of_lt (Nat.lt_of_lt_of_le (Nat.succ_pos _) room)
    rw [Nat.zero_add] at behind room few
    rw [storeArguments, Cpu.exec_cons, storeArgument_exec]
    have stored := words.store64 behind (Nat.succ_pos fewer) few (argumentValue cpu.regs source)
    refine ih stored ?_ (Nat.le_of_succ_le_succ room) (by omega)
    rw [ofNat_succ_places] at behind
    rw [← behind, ← BitVec.add_assoc, BitVec.add_assoc, BitVec.add_comm 8, BitVec.add_assoc]

/-- The registers the switch to the kernel stack leaves are on the stack behind the arguments when
`dispatch` is called. -/
theorem syscallEntry_frame (syscallRsp : BitVec 64) (cpu : Cpu) :
    Words (cpu.exec (syscallEntry syscallRsp)).memory
      ((cpu.exec (syscallEntry syscallRsp)).regs .rsp + 128)
      (syscallSaved.reverse.map
        (cpu.exec [.mov .r12 .rsp, .movImm .r13 (syscallRsp - 7), .load .rsp .r13 0]).regs) := by
  rw [syscallEntry, Cpu.exec_append, Cpu.exec_append, Cpu.exec_append, Cpu.exec_append]
  generalize cpu.exec [.mov .r12 .rsp, .movImm .r13 (syscallRsp - 7), .load .rsp .r13 0] = switched
  have notRsp : Register.rsp ∉ syscallSaved := by decide
  have empty : Words switched.memory (switched.regs .rsp) [] := trivial
  have pushed := (Cpu.exec_pushes_words notRsp empty (by decide)).2
  rw [List.append_nil] at pushed
  generalize switched.exec (syscallSaved.map .push) = saved at pushed
  have lowered : (saved.exec [.mov .r13 .rsi, .subImm .rsp 128]).regs .rsp + 0 +
      BitVec.ofNat 64 (8 * 16) = saved.regs .rsp := by
    have same : (saved.exec [.mov .r13 .rsi, .subImm .rsp 128]).regs .rsp + 0 =
        saved.regs .rsp - 128 := BitVec.add_zero _
    rw [same]
    exact BitVec.sub_add_cancel _ _
  have ready : Words (saved.exec [.mov .r13 .rsi, .subImm .rsp 128]).memory (saved.regs .rsp)
      (syscallSaved.reverse.map switched.regs) := pushed
  generalize saved.exec [.mov .r13 .rsi, .subImm .rsp 128] = lower at lowered ready
  have frame := storeArguments_below argumentSources ready lowered (by decide) (by
    rw [List.length_map, List.length_reverse]
    decide)
  have regs := (storeArguments_spec argumentSources lower 0 (by decide)).1
  have base : lower.regs .rsp + 0 = lower.regs .rsp := BitVec.add_zero _
  rw [← lowered, base] at frame
  generalize lower.exec (storeArguments 0 argumentSources) = stored at frame regs
  rw [← regs] at frame
  exact frame

/-- `syscall_entry` returns with the registers it pushed as they were after the switch, and with the
user stack pointer that the switch left in R12. -/
theorem syscallExit_spec (syscallRsp : BitVec 64) (cpu : Cpu) {returned : Cpu}
    (obeys : ObeysAbi (cpu.exec (syscallEntry syscallRsp)) returned) :
    (∀ r ∈ syscallSaved, (returned.exec syscallExit).regs r =
        (cpu.exec [.mov .r12 .rsp, .movImm .r13 (syscallRsp - 7), .load .rsp .r13 0]).regs r) ∧
      (returned.exec syscallExit).regs .rsp = cpu.regs .rsp := by
  have frame := syscallEntry_frame syscallRsp cpu
  have pointer := obeys.saved .rsp (by decide)
  have userRsp :
      (cpu.exec [.mov .r12 .rsp, .movImm .r13 (syscallRsp - 7), .load .rsp .r13 0]).regs .r12 =
        cpu.regs .rsp := rfl
  generalize cpu.exec [.mov .r12 .rsp, .movImm .r13 (syscallRsp - 7), .load .rsp .r13 0] = switched
    at frame userRsp ⊢
  have kept : Words returned.memory ((cpu.exec (syscallEntry syscallRsp)).regs .rsp + 128)
      (syscallSaved.reverse.map switched.regs) := by
    refine frame.of_loads fun i inside => obeys.frame i ?_
    rwa [List.length_map, List.length_reverse] at inside
  rw [← pointer] at kept
  have dropped : Words (returned.exec [.addImm .rsp 128]).memory
      ((returned.exec [.addImm .rsp 128]).regs .rsp)
      (syscallSaved.reverse.map switched.regs ++ []) := by
    rw [List.append_nil]
    exact kept
  obtain ⟨-, -, popped, -, -⟩ := Cpu.exec_pops (by decide) dropped
  have exit : returned.exec syscallExit =
      ((returned.exec [.addImm .rsp 128]).exec (syscallSaved.reverse.map .pop)).exec
        [.mov .rsp .r12] := by
    rw [← Cpu.exec_append, ← Cpu.exec_append]
    rfl
  rw [exit]
  generalize (returned.exec [.addImm .rsp 128]).exec (syscallSaved.reverse.map .pop) = restored
    at popped
  refine ⟨fun r member => ?_, ?_⟩
  · have notRsp : r ≠ .rsp := by
      rintro rfl
      exact absurd member (by decide)
    rw [← popped r (List.mem_reverse.mpr member)]
    exact Cpu.set_other restored _ notRsp
  · rw [← userRsp, ← popped .r12 (by decide)]
    exact Cpu.set_self restored .rsp _

/-! ## The caller -/

/-- Where the kernel answers, the interpreter continues behind SYSCALL with the caller's state,
whatever the handler does. -/
theorem executeInstruction_syscall {κ : Type} {syscall : SyscallEffect κ} {kernel : κ} {cpu : Cpu}
    {pc : BitVec 64} {rest : List UInt8} {next : Option (BitVec 64)} {after : Cpu} {left : κ}
    (executed : executeInstruction syscall kernel cpu pc (0x0F :: 0x05 :: rest) =
      .ok (next, after, left)) : next = some (pcAdd pc 2) ∧ PreservesCaller cpu after := by
  have served : serveSyscall syscall kernel cpu (pcAdd pc 2) = .ok (next, after, left) := executed
  unfold serveSyscall at served
  extract_lets number at served
  split at served
  · cases served
  · rename_i status memory kernel _
    obtain ⟨rfl, rfl, rfl⟩ : some (pcAdd pc 2) = next ∧
        Cpu.set ⟨cpu.regs, memory⟩ .rax status.code = after ∧ kernel = left := by
      simpa using served
    refine ⟨rfl, fun r member => ?_⟩
    have notRax : r ≠ .rax := by
      rintro rfl
      exact absurd member (by decide)
    exact Cpu.set_other _ _ notRax

/-- A native SYSCALL that comes back does so with the caller's registers, except that R12 holds the
user stack pointer and R13 the address of the `lea`. -/
theorem preservesCaller_iff (syscallRsp : BitVec 64) (cpu : Cpu) {returned : Cpu}
    (obeys : ObeysAbi (cpu.exec (syscallEntry syscallRsp)) returned) :
    PreservesCaller cpu (returned.exec syscallExit) ↔
      cpu.regs .r12 = cpu.regs .rsp ∧ cpu.regs .r13 = syscallRsp - 7 := by
  obtain ⟨restored, userRsp⟩ := syscallExit_spec syscallRsp cpu obeys
  have stackPointer : (returned.exec syscallExit).regs .r12 = cpu.regs .rsp :=
    restored .r12 (by decide)
  have address : (returned.exec syscallExit).regs .r13 = syscallRsp - 7 :=
    restored .r13 (by decide)
  constructor
  · intro preserves
    exact ⟨(preserves .r12 (by decide)).symm.trans stackPointer,
      (preserves .r13 (by decide)).symm.trans address⟩
  · rintro ⟨atRsp, atLocation⟩ r member
    by_cases isR12 : r = .r12
    · rw [isR12, stackPointer, atRsp]
    · by_cases isR13 : r = .r13
      · rw [isR13, address, atLocation]
      · by_cases isRsp : r = .rsp
        · rw [isRsp, userRsp]
        · have pushed : r ∈ syscallSaved := by
            revert r
            decide
          rw [restored r pushed, syscallSwitch_regs syscallRsp cpu r isR12 isR13 isRsp]

/-- For every state of the registers and every call of `nt::dispatch` that obeys the ABI: a native
SYSCALL comes back and preserves its caller, as the interpreter does, exactly when what is 7 bytes in
front of `SYSCALL_RSP` leads to a stack, R12 already holds the stack pointer and R13 the address of
the `lea`. -/
theorem syscall_preserves_iff (writable : BitVec 64 → Bool) (syscallRsp : BitVec 64) (cpu : Cpu)
    {returned : Cpu} (obeys : ObeysAbi (cpu.exec (syscallEntry syscallRsp)) returned) :
    ((enterSyscall writable syscallRsp cpu = .ok (cpu.exec (syscallEntry syscallRsp)) ∧
        PreservesCaller cpu (returned.exec syscallExit)) ∧
        ∀ (κ : Type) (syscall : SyscallEffect κ) kernel pc rest next after left,
          executeInstruction syscall kernel cpu pc (0x0F :: 0x05 :: rest) =
            .ok (next, after, left) → next = some (pcAdd pc 2) ∧ PreservesCaller cpu after) ↔
      StackWritable writable syscallRsp cpu.memory ∧ cpu.regs .r12 = cpu.regs .rsp ∧
        cpu.regs .r13 = syscallRsp - 7 := by
  rw [← preservesCaller_iff syscallRsp cpu obeys, enterSyscall_eq_ok, and_iff_left rfl]
  exact and_iff_left fun _ _ _ _ _ _ _ _ => executeInstruction_syscall

/-- A handler that succeeds and changes no memory. -/
theorem obeysAbi_success (called : Cpu) : ObeysAbi called (called.set .rax 0) where
  saved r member := by
    have notRax : r ≠ .rax := by
      rintro rfl
      exact absurd member (by decide)
    exact called.set_other 0 notRax
  frame _ _ := rfl

/-- With a stack, and the address of the `lea` in every register, the caller is preserved. -/
theorem syscall_preserves_iff_address :
    PreservesCaller (atSyscall (fun _ => 0x100001) 0x100001 0x180000)
      ((((atSyscall (fun _ => 0x100001) 0x100001 0x180000).exec (syscallEntry 0x100008)).set
        .rax 0).exec syscallExit) :=
  ((syscall_preserves_iff lowMemory 0x100008 (atSyscall (fun _ => 0x100001) 0x100001 0x180000)
    (obeysAbi_success _)).mpr ⟨stackWritable_low _, rfl, by decide⟩).1.2

/-- User code with one in R12 and its stack at `0x70000` does not get its R12 back, also where there
is a stack. -/
theorem syscall_clobbers_r12 :
    (∃ entered, enterSyscall lowMemory 0x100008
        (atSyscall (Function.update (fun _ => 1) .rsp 0x70000) 0x100001 0x180000) = .ok entered) ∧
      ∃ returned, ObeysAbi ((atSyscall (Function.update (fun _ => 1) .rsp 0x70000) 0x100001
          0x180000).exec (syscallEntry 0x100008)) returned ∧
        (returned.exec syscallExit).regs .r12 = 0x70000 ∧
        ¬ PreservesCaller (atSyscall (Function.update (fun _ => 1) .rsp 0x70000) 0x100001 0x180000)
          (returned.exec syscallExit) := by
  refine ⟨⟨_, enterSyscall_eq_ok.mpr ⟨stackWritable_low _, rfl⟩⟩, _, obeysAbi_success _, ?_,
    fun preserves => ?_⟩
  · exact (syscallExit_spec 0x100008 _ (obeysAbi_success _)).1 .r12 (by decide)
  · have same := ((preservesCaller_iff 0x100008 _ (obeysAbi_success _)).mp preserves).1
    exact absurd same (by decide)

end Aperture.Arch
