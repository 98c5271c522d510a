import Aperture.Decode.X86

/-!
# The two x86 decoders

The length decoder skips legacy prefixes; the interpreter knows none of them and refuses code that
begins with one. On code without a prefix the two read every instruction that the length decoder
recognises alike, as long as the word that a return pops may be read and the kernel answers.
-/

namespace Aperture.X86Decode

open Machine Win32

/-- The interpreter performs a decoded instruction: it continues behind it, at the target of its
jump, behind its system call with the status in `RAX`, or at the return address it pops, unless that
is zero. -/
structure Performs {κ : Type} (syscall : SyscallEffect κ) (kernel : κ) (cpu : Cpu) (pc : BitVec 64)
    (code : List UInt8) (insn : DecodedInsn) : Prop where
  /-- `NOP`. -/
  nop : insn.isNop = true → executeInstruction syscall kernel cpu pc code =
    .ok (some (pcAdd pc insn.len), cpu, kernel)
  /-- Relative `JMP`. -/
  jmp : insn.isJmp = true → ∃ offset, insn.jmpOffset = some offset ∧
    executeInstruction syscall kernel cpu pc code =
      .ok (some (pcAdd pc insn.len + offset), cpu, kernel)
  /-- `SYSCALL`. -/
  call : insn.isSyscall = true → ∃ status memory left,
    syscall (SyscallNumber.ofUsize (cpu.regs .rax).toNat) (syscallArgs cpu.regs) cpu.memory kernel =
      .ok (status, memory, left) ∧
    executeInstruction syscall kernel cpu pc code =
      .ok (some (pcAdd pc insn.len), Cpu.set ⟨cpu.regs, memory⟩ .rax status.code, left)
  /-- `RET`. -/
  ret : insn.isRet = true → executeInstruction syscall kernel cpu pc code =
    .ok (if cpu.top = 0 then none else some cpu.top, cpu.dropWord, kernel)

/-- What an instruction needs of the guest and of the kernel: the word that `RET` pops may be read,
and the kernel answers the system call. -/
structure Performable {κ : Type} (syscall : SyscallEffect κ) (kernel : κ) (cpu : Cpu)
    (insn : DecodedInsn) : Prop where
  /-- The stack pointer at a `RET` is a multiple of 8. -/
  aligned : insn.isRet = true → (cpu.regs .rsp).toNat % 8 = 0
  /-- `nt::dispatch` returns. -/
  answers : insn.isSyscall = true → ∃ answer,
    syscall (SyscallNumber.ofUsize (cpu.regs .rax).toNat) (syscallArgs cpu.regs) cpu.memory kernel =
      .ok answer

section Agreement

variable {κ : Type} {syscall : SyscallEffect κ} {kernel : κ} {cpu : Cpu} {pc : BitVec 64}
  {bytes rest : List UInt8} {insn : DecodedInsn}

/-- The interpreter refuses code that begins with a legacy prefix. -/
theorem executeInstruction_legacy {byte : UInt8} (legacy : isLegacyPrefix byte = true)
    (rest : List UInt8) :
    executeInstruction syscall kernel cpu pc (byte :: rest) = .ok (none, cpu, kernel) := by
  have notRex : byte &&& 0xF0 ≠ 0x40 := by
    intro isRex
    revert legacy isRex
    revert byte
    decide +kernel
  refine (executeInstruction_behind none notRex rest).trans ?_
  simp only [isLegacyPrefix, List.mem_cons, List.not_mem_nil, or_false, decide_eq_true_eq] at legacy
  rcases legacy with rfl | rfl | rfl | rfl | rfl | rfl | rfl | rfl | rfl | rfl | rfl <;> rfl

/-- Popping a word moves the stack pointer. -/
theorem dropWord_ne (cpu : Cpu) : cpu.dropWord ≠ cpu := by
  intro same
  have pointer := congrArg (fun state => state.regs .rsp) same
  simp only [Cpu.dropWord, Cpu.set, Function.update_self] at pointer
  bv_omega

/-- A return pops a word that may be read. -/
theorem executeRet_eq_ok {result : Option (BitVec 64) × Cpu × κ} :
    (executeRet cpu).keeping kernel = .ok result ↔ (cpu.regs .rsp).toNat % 8 = 0 ∧
      result = (if cpu.top = 0 then none else some cpu.top, cpu.dropWord, kernel) := by
  have popped : executeRet cpu = PhysMem.checkWord (cpu.regs .rsp) >>= fun _ =>
      .ok (if cpu.top = 0 then none else some cpu.top, cpu.dropWord) := by
    simp only [executeRet, PhysMem.readVolatile, bind_assoc, pure_bind]
    refine congrArg _ (funext fun _ => ?_)
    show (if cpu.top = 0 then _ else _) = _
    split <;> rfl
  rw [popped, PhysMem.checkWord]
  by_cases aligned : (cpu.regs .rsp).toNat % 8 = 0
  · rw [if_pos aligned]
    exact ⟨fun same => ⟨aligned, (Except.ok.inj same).symm⟩, fun same => congrArg _ same.2.symm⟩
  · rw [if_neg aligned]
    exact ⟨fun same => (by cases same), fun same => absurd same.1 aligned⟩

/-- The interpreter performs every plain instruction that it can, whatever follows. -/
theorem Plain.performs_iff (plain : Plain bytes insn) (rest : List UInt8) :
    Performs syscall kernel cpu pc (bytes ++ rest) insn ↔
      Performable syscall kernel cpu insn := by
  cases plain with
  | nop =>
    exact iff_of_true
      ⟨fun _ => executeInstruction_behind none (by decide) rest, nofun, nofun, nofun⟩ ⟨nofun, nofun⟩
  | ret =>
    have executed : executeInstruction syscall kernel cpu pc ([0xC3] ++ rest) =
        (executeRet cpu).keeping kernel := executeInstruction_behind none (by decide) rest
    constructor
    · intro performs
      exact ⟨fun _ => (executeRet_eq_ok.mp (executed.symm.trans (performs.ret rfl))).1, nofun⟩
    · intro performable
      exact ⟨nofun, nofun, nofun,
        fun _ => executed.trans (executeRet_eq_ok.mpr ⟨performable.aligned rfl, rfl⟩)⟩
  | jmpRel8 offset =>
    refine iff_of_true ⟨nofun, fun _ => ⟨_, rfl, ?_⟩, nofun, nofun⟩ ⟨nofun, nofun⟩
    have byte : leBytes 1 (BitVec.ofNat 8 offset.toNat).toNat = [offset] := by
      rw [BitVec.toNat_ofNat, Nat.mod_eq_of_lt offset.toNat_lt]
      exact leBytes_leNat [offset]
    have jump := @executeJmp_behind cpu pc [0xEB] rest 1 (BitVec.ofNat 8 offset.toNat)
      (BitVec.ofNat 8 offset.toNat).isLt
    rw [byte] at jump
    exact (executeInstruction_behind none (by decide) _).trans
      (congrArg (Executed.keeping kernel) jump)
  | jmpRel32 offset =>
    refine iff_of_true ⟨nofun, fun _ => ⟨_, rfl, ?_⟩, nofun, nofun⟩ ⟨nofun, nofun⟩
    have jump := @executeJmp_behind cpu pc [0xE9] rest 4 offset offset.isLt
    exact (executeInstruction_behind none (by decide) _).trans
      (congrArg (Executed.keeping kernel) jump)
  | syscall =>
    have executed : executeInstruction syscall kernel cpu pc ([0x0F, 0x05] ++ rest) =
        serveSyscall syscall kernel cpu (pcAdd pc 2) := executeInstruction_behind none (by decide) _
    constructor
    · intro performs
      obtain ⟨status, memory, left, answered, _⟩ := performs.call rfl
      exact ⟨nofun, fun _ => ⟨_, answered⟩⟩
    · intro performable
      obtain ⟨⟨status, memory, left⟩, answered⟩ := performable.answers rfl
      exact ⟨nofun, nofun, fun _ => ⟨status, memory, left, answered,
        executed.trans (serveSyscall_answered answered _)⟩, nofun⟩

/-- For every code on which the length decoder recognises an instruction and every state: the
interpreter performs that instruction exactly when no legacy prefix comes first, the word that a
`RET` pops is at a multiple of 8 and the kernel answers a `SYSCALL`. -/
theorem decode_performs_iff {code : List UInt8} (decoded : decode code = .ok insn)
    (recognised : 0 < insn.len) :
    Performs syscall kernel cpu pc code insn ↔
      (∀ byte, code.head? = some byte → isLegacyPrefix byte = false) ∧
        Performable syscall kernel cpu insn := by
  obtain ⟨front, bytes, rest, plain, rfl, prefixes, isPlain, rfl⟩ :=
    decode_recognised decoded recognised
  cases front with
  | nil =>
    obtain ⟨opcode, operand, rfl, notPrefix⟩ := isPlain.opcode
    have same : plain.behind 0 = plain := by
      unfold DecodedInsn.behind
      rw [Nat.zero_add]
    have none (byte : UInt8) (first : (opcode :: operand ++ rest).head? = some byte) :
        isLegacyPrefix byte = false := by
      obtain rfl := Option.some.inj first
      exact notPrefix
    rw [List.length_nil, same]
    exact (isPlain.performs_iff rest).trans (and_iff_right none).symm
  | cons byte front =>
    have legacy := prefixes byte List.mem_cons_self
    refine iff_of_false (fun performs => ?_) fun clear => ?_
    · have refused := @executeInstruction_legacy κ syscall kernel cpu pc byte legacy
        (front ++ (bytes ++ rest))
      rw [← List.cons_append] at refused
      cases isPlain with
      | nop => cases refused.symm.trans (performs.nop rfl)
      | ret =>
        have popped := refused.symm.trans (performs.ret rfl)
        have states := congrArg (fun served => served.2.1) (Except.ok.inj popped)
        exact dropWord_ne cpu states.symm
      | jmpRel8 offset =>
        obtain ⟨target, _, jumps⟩ := performs.jmp rfl
        cases refused.symm.trans jumps
      | jmpRel32 offset =>
        obtain ⟨target, _, jumps⟩ := performs.jmp rfl
        cases refused.symm.trans jumps
      | syscall =>
        obtain ⟨status, memory, left, _, calls⟩ := performs.call rfl
        cases refused.symm.trans calls
    · have notPrefix := clear.1 byte rfl
      rw [legacy] at notPrefix
      cases notPrefix

/-- A short jump over two bytes, in a window of fifteen bytes. -/
theorem decode_performs_iff_jmp :
    Performs succeeds () ⟨fun _ => 0, ⟨fun _ => 0, []⟩⟩ 0x1000
      [0xEB, 0x02, 0x90, 0x90, 0xC3, 0, 0, 0, 0, 0, 0, 0, 0, 0, 0]
      ⟨2, false, true, false, false, some 2⟩ := by
  refine (decode_performs_iff (show _ = _ by decide) (by decide)).mpr ⟨fun byte first => ?_, ?_⟩
  · obtain rfl := Option.some.inj first
    decide
  · exact ⟨nofun, nofun⟩

/-- `66 90` is a `NOP` of two bytes to the length decoder, and nothing to the interpreter. -/
theorem decode_performs_counterexample :
    decode [0x66, 0x90] = .ok ⟨2, false, false, true, false, none⟩ ∧
    executeInstruction succeeds () ⟨fun _ => 0, ⟨fun _ => 0, []⟩⟩ 0x1000 [0x66, 0x90] =
      .ok (none, ⟨fun _ => 0, ⟨fun _ => 0, []⟩⟩, ()) ∧
    ¬Performs succeeds () ⟨fun _ => 0, ⟨fun _ => 0, []⟩⟩ 0x1000
      [0x66, 0x90] ⟨2, false, false, true, false, none⟩ := by
  refine ⟨by decide, rfl, fun performs => ?_⟩
  cases (executeInstruction_legacy (by decide) [0x90]).symm.trans (performs.nop rfl)

end Agreement

end Aperture.X86Decode
