import Aperture.Machine.Narrow
import Aperture.Win32.Interpreter

/-!
# Operands of the interpreter

The interpreter performs every data instruction but `B8` with 64-bit operands, whatever the prefix
says, and decodes an operand before it knows whether a constant follows. So an operand relative to
the next instruction is where it should be unless a constant follows, and an instruction without
REX.W has its effect exactly when the upper halves happen to fit.
-/

namespace Aperture.Win32

open Machine

/-- The operation the interpreter performs. -/
def performed : DataInstruction → Operation
  | .movReg dst value => .mov (.register dst) (value.setWidth 64)
  | .movRm dst value => .mov dst (value.signExtend 64)
  | .xorInto dst src => .xorInto dst src
  | .xorFrom dst src => .xorFrom dst src
  | .lea dst disp => .lea dst disp

/-- The address from which the interpreter counts a displacement. -/
def countedFrom (next : BitVec 64) : DataInstruction → BitVec 64
  | .movRm _ _ => next - 4
  | _ => next

section Execution

variable {κ : Type} {syscall : SyscallEffect κ} {kernel : κ} {cpu : Cpu} {pc : BitVec 64}
  {code front rest : List UInt8} {rex : Option Rex} {instruction : DataInstruction}

/-- The address before the last bytes of a stretch. -/
theorem pcAdd_add_sub (pc : BitVec 64) (offset more : Nat) :
    pcAdd pc (offset + more) - BitVec.ofNat 64 more = pcAdd pc offset := by
  rw [pcAdd, pcAdd, BitVec.ofNat_add, ← BitVec.add_assoc]
  exact BitVec.add_sub_cancel _ _

/-- The length of an instruction behind an optional prefix. -/
theorem length_behind (opcode : UInt8) (bytes : List UInt8) :
    (Rex.optional rex ++ [opcode]).length + bytes.length =
      (Rex.optional rex ++ opcode :: bytes).length := by
  simp only [List.length_append, List.length_cons, List.length_nil]
  omega

/-- A constant of four bytes for a register. -/
theorem executeMovImm_narrow {bits : Rex} {dst : Register} (narrow : bits.w = false)
    (extend : bits.b = dst.high) (value : BitVec 32) :
    executeMovImm cpu pc (front ++ (leBytes 4 value.toNat ++ rest)) bits (0xB8 + dst.low)
        front.length =
      .ok (some (pcAdd pc (front.length + 4)), cpu.set dst (value.setWidth 64)) := by
  have fits : value.toNat < 256 ^ 4 := value.isLt
  simp only [executeMovImm, narrow, Bool.false_eq_true, ↓reduceIte,
    not_short front 4 value.toNat rest, codeLe_behind front fits rest, ok_bind, extend,
    (movImm_opcode dst).1, BitVec.ofNat_toNat]
  rfl

/-- The interpreter executes every data instruction whose word in memory it may access: with 64-bit
operands, and with displacements counted from the end of the operand. -/
theorem executeInstruction_data (extend : instruction.Extends (Rex.bits rex))
    (starts : instruction.encoding rex <+: code) :
    executeInstruction syscall kernel cpu pc code =
      (finishes ((performed instruction).access
          (countedFrom (pcAdd pc (instruction.encoding rex).length) instruction) cpu)
        (pcAdd pc (instruction.encoding rex).length)
        ((performed instruction).step
          (countedFrom (pcAdd pc (instruction.encoding rex).length) instruction) cpu).2).keeping
        kernel := by
  obtain ⟨rest, rfl⟩ := starts
  rw [DataInstruction.encoding, List.append_assoc]
  cases instruction with
  | movReg dst value =>
    have load := @executeMovImm_narrow cpu pc (Rex.optional rex ++ [0xB8 + dst.low]) rest
      (Rex.bits rex) dst extend.1 extend.2 value
    rw [DataInstruction.bytes, List.cons_append, executeInstruction_behind rex (movImm_opcode dst).2,
      matchOpcode_movImm]
    refine (congrArg (Executed.keeping kernel) load).trans ?_
    simp [performed, Operation.step, Operation.access, Rm.address, finishes, PhysMem.checkAccess,
      Rm.write, Nat.add_assoc]
  | movRm dst value =>
    have load := @executeMovRm_behind cpu pc (Rex.optional rex ++ [0xC7]) rest (Rex.bits rex) dst
      extend value
    rw [DataInstruction.bytes, List.cons_append, List.append_assoc,
      executeInstruction_behind rex (by decide)]
    have size : (Rex.optional rex ++ 0xC7 :: dst.bytes 0).length + 4 =
        (Rex.optional rex ++ 0xC7 :: (dst.bytes 0 ++ leBytes 4 value.toNat)).length := by
      simp only [List.length_append, List.length_cons, length_leBytes]
      omega
    have counted : pcAdd pc (Rex.optional rex ++ 0xC7 :: dst.bytes 0).length =
        pcAdd pc ((Rex.optional rex ++ 0xC7 :: dst.bytes 0).length + 4) - 4 :=
      (pcAdd_add_sub pc _ 4).symm
    refine (congrArg (Executed.keeping kernel) load).trans ?_
    rw [length_behind, counted, size]
    rfl
  | xorInto dst src =>
    have xor := @executeXorInto_behind cpu pc (Rex.optional rex ++ [0x31]) rest (Rex.bits rex) dst
      extend.1 src extend.2
    rw [DataInstruction.bytes, List.cons_append, executeInstruction_behind rex (by decide)]
    refine (congrArg (Executed.keeping kernel) xor).trans ?_
    rw [length_behind]
    rfl
  | xorFrom dst src =>
    have xor := @executeXorFrom_behind cpu pc (Rex.optional rex ++ [0x33]) rest (Rex.bits rex) dst
      extend.2 src extend.1
    rw [DataInstruction.bytes, List.cons_append, executeInstruction_behind rex (by decide)]
    refine (congrArg (Executed.keeping kernel) xor).trans ?_
    rw [length_behind]
    rfl
  | lea dst disp =>
    have load := @executeLea_behind cpu pc (Rex.optional rex ++ [0x8D]) rest (Rex.bits rex) dst
      extend disp
    rw [DataInstruction.bytes, List.cons_append, executeInstruction_behind rex (by decide)]
    have size : 5 = ((Rm.ripRelative disp).bytes dst.low).length := by simp [Rm.bytes]
    refine (congrArg (Executed.keeping kernel) load).trans ?_
    rw [size, length_behind]
    rfl

end Execution

/-! ## Displacements -/

/-- What the interpreter does with the operand at an address. -/
def performedAt (address : BitVec 64) (cpu : Cpu) : DataInstruction → Cpu
  | .movReg _ _ => cpu
  | .movRm _ value => { cpu with memory := cpu.memory.store64 address (value.signExtend 64) }
  | .xorInto _ src =>
    { cpu with memory := cpu.memory.store64 address (cpu.memory.load64 address ^^^ cpu.regs src) }
  | .xorFrom dst _ => cpu.set dst (cpu.regs dst ^^^ cpu.memory.load64 address)
  | .lea dst _ => cpu.set dst address

/-- The address of the word that it accesses then. -/
def accessedAt (address : BitVec 64) : DataInstruction → Option (BitVec 64)
  | .movReg _ _ => none
  | .movRm _ _ => some address
  | .xorInto _ _ => some address
  | .xorFrom _ _ => some address
  | .lea _ _ => none

/-- The interpreter continues behind the instruction after using the operand at an address, unless
it refuses to access the word there, whatever registers and memory hold. -/
def UsesAddress {κ : Type} (syscall : SyscallEffect κ) (kernel : κ) (pc : BitVec 64)
    (code : List UInt8) (instruction : DataInstruction) (next address : BitVec 64) : Prop :=
  ∀ cpu, executeInstruction syscall kernel cpu pc code =
    (finishes (accessedAt address instruction) next
      (performedAt address cpu instruction)).keeping kernel

section Displacements

variable {κ : Type} {kernel : κ} {pc : BitVec 64} {code : List UInt8} {rex : Option Rex}
  {instruction : DataInstruction} {disp : BitVec 32}

/-- The interpreter counts a displacement from where it decodes the operand. -/
theorem performed_relative (relative : instruction.displacement = some disp) (next : BitVec 64)
    (cpu : Cpu) :
    ((performed instruction).step next cpu).2 =
        performedAt (next + disp.signExtend 64) cpu instruction ∧
      (performed instruction).access next cpu =
        accessedAt (next + disp.signExtend 64) instruction := by
  cases instruction with
  | movReg dst value => cases relative
  | movRm dst value =>
    rw [Rm.eq_ripRelative relative]
    exact ⟨rfl, rfl⟩
  | xorInto dst src =>
    rw [Rm.eq_ripRelative relative]
    exact ⟨rfl, rfl⟩
  | xorFrom dst src =>
    rw [Rm.eq_ripRelative relative]
    exact ⟨rfl, rfl⟩
  | lea dst other =>
    cases relative
    exact ⟨rfl, rfl⟩

/-- A memory with one byte set holds its word at one address only. -/
theorem eq_of_load64_marked {address other : BitVec 64}
    (same : PhysMem.load64 ⟨fun a => if a = address.toNat then 1 else 0, []⟩ address =
      PhysMem.load64 ⟨fun a => if a = address.toNat then 1 else 0, []⟩ other) :
    address = other := by
  have lower := (eq_iff_halves.mp same).1
  rw [(PhysMem.halves_load64 _ _).1, (PhysMem.halves_load64 _ _).1] at lower
  have values := congrArg BitVec.toNat lower
  simp only [PhysMem.load32, BitVec.toNat_ofNat, ↓reduceIte] at values
  apply BitVec.eq_of_toNat_eq
  by_contra apart
  rw [if_neg (Ne.symm apart)] at values
  split_ifs at values <;> simp at values

/-- A write tells its address. -/
theorem eq_of_store64 {memory : PhysMem} {address other value word : BitVec 64}
    (same : memory.store64 address value = memory.store64 other word) : address = other := by
  have logs : Span.mk address.toNat 8 :: memory.log = Span.mk other.toNat 8 :: memory.log :=
    congrArg PhysMem.log same
  apply BitVec.eq_of_toNat_eq
  exact congrArg Span.start (List.head_eq_of_cons_eq logs)

/-- What is done with an operand tells its address. -/
theorem performedAt_injective (relative : instruction.displacement = some disp)
    {address other : BitVec 64}
    (same : ∀ cpu, performedAt address cpu instruction = performedAt other cpu instruction) :
    address = other := by
  cases instruction with
  | movReg dst value => cases relative
  | movRm dst value => exact eq_of_store64 (congrArg Cpu.memory (same ⟨fun _ => 0, ⟨fun _ => 0, []⟩⟩))
  | xorInto dst src => exact eq_of_store64 (congrArg Cpu.memory (same ⟨fun _ => 0, ⟨fun _ => 0, []⟩⟩))
  | xorFrom dst src =>
    have marked := congrArg (fun cpu => cpu.regs dst)
      (same ⟨fun _ => 0, ⟨fun a => if a = address.toNat then 1 else 0, []⟩⟩)
    simp only [performedAt, Cpu.set, Function.update_self] at marked
    exact eq_of_load64_marked ((BitVec.xor_right_inj _).mp marked)
  | lea dst disp =>
    have words := congrArg (fun cpu => cpu.regs dst) (same ⟨fun _ => 0, ⟨fun _ => 0, []⟩⟩)
    simp only [performedAt, Cpu.set, Function.update_self] at words
    exact words

/-- Only the word at the address is accessed. -/
theorem eq_of_mem_accessedAt {address word : BitVec 64}
    (accessed : word ∈ accessedAt address instruction) : word = address := by
  cases instruction with
  | movReg dst value => cases accessed
  | movRm dst value => exact (Option.some.inj accessed).symm
  | xorInto dst src => exact (Option.some.inj accessed).symm
  | xorFrom dst src => exact (Option.some.inj accessed).symm
  | lea dst disp => cases accessed

/-- An instruction that finishes tells what it leaves, and one that does not tells the word. -/
theorem finishes_inj {access other : Option (BitVec 64)} {next after : BitVec 64} {left last : Cpu}
    (same : (finishes access next left).keeping kernel =
      (finishes other after last).keeping kernel) :
    left = last ∨ ∃ word ∈ access, word ∈ other := by
  unfold finishes Executed.keeping at same
  cases first : PhysMem.checkAccess access with
  | ok checked =>
    cases second : PhysMem.checkAccess other with
    | ok checked =>
      rw [first, second] at same
      exact .inl (congrArg (fun served => served.2.1) (Except.ok.inj same))
    | error reason =>
      rw [first, second] at same
      cases same
  | error reason =>
    cases second : PhysMem.checkAccess other with
    | ok checked =>
      rw [first, second] at same
      cases same
    | error cause =>
      rw [first, second] at same
      have reasons : reason = cause := Except.error.inj same
      obtain ⟨word, inFirst, _, rfl⟩ := PhysMem.checkAccess_eq_error.mp first
      obtain ⟨again, inSecond, _, rfl⟩ := PhysMem.checkAccess_eq_error.mp second
      have equal : word = again := BitVec.eq_of_toNat_eq (Panic.misaligned.inj reasons)
      exact .inr ⟨word, inFirst, equal ▸ inSecond⟩

/-- An instruction uses one address. -/
theorem UsesAddress.unique {syscall : SyscallEffect κ} {next after address other : BitVec 64}
    (relative : instruction.displacement = some disp)
    (uses : UsesAddress syscall kernel pc code instruction next address)
    (usesOther : UsesAddress syscall kernel pc code instruction after other) : other = address := by
  by_contra apart
  refine apart (performedAt_injective relative fun cpu => ?_)
  rcases finishes_inj ((usesOther cpu).symm.trans (uses cpu)) with same | ⟨word, inOther, inFirst⟩
  · exact same
  · rw [← eq_of_mem_accessedAt inOther, ← eq_of_mem_accessedAt inFirst]

/-- The interpreter counts the address from behind the instruction, or four bytes in front. -/
theorem usesAddress_counted (syscall : SyscallEffect κ) (kernel : κ) (pc : BitVec 64)
    (extend : instruction.Extends (Rex.bits rex)) (starts : instruction.encoding rex <+: code)
    (relative : instruction.displacement = some disp) :
    UsesAddress syscall kernel pc code instruction (pcAdd pc (instruction.encoding rex).length)
      (countedFrom (pcAdd pc (instruction.encoding rex).length) instruction +
        disp.signExtend 64) := by
  intro cpu
  rw [executeInstruction_data extend starts, (performed_relative relative _ _).1,
    (performed_relative relative _ _).2]

/-- Every operand relative to the next instruction has one address that the interpreter uses. It
returns that next instruction, with the address as far from it as the displacement says, exactly when
no constant follows the operand and the word there, if one is accessed, is at a multiple of 8. -/
theorem usesAddress_next_iff (syscall : SyscallEffect κ) (kernel : κ) (pc : BitVec 64)
    (extend : instruction.Extends (Rex.bits rex)) (starts : instruction.encoding rex <+: code)
    (relative : instruction.displacement = some disp) :
    ∃ next address, next = pcAdd pc (instruction.encoding rex).length ∧
      UsesAddress syscall kernel pc code instruction next address ∧
      (∀ after other, UsesAddress syscall kernel pc code instruction after other →
        other = address) ∧
      ((∀ cpu, ∃ left, executeInstruction syscall kernel cpu pc code =
          .ok (some next, left, kernel)) ∧ address = next + disp.signExtend 64 ↔
        (∀ dst value, instruction ≠ .movRm dst value) ∧
          ∀ word ∈ accessedAt (next + disp.signExtend 64) instruction, word.toNat % 8 = 0) := by
  let next := pcAdd pc (instruction.encoding rex).length
  have uses := usesAddress_counted syscall kernel pc extend starts relative
  refine ⟨next, countedFrom next instruction + disp.signExtend 64, rfl, uses,
    fun after other => uses.unique relative, ?_⟩
  have returns_iff : (∀ cpu, ∃ left, executeInstruction syscall kernel cpu pc code =
      .ok (some next, left, kernel)) ↔
        ∀ word ∈ accessedAt (countedFrom next instruction + disp.signExtend 64) instruction,
          word.toNat % 8 = 0 := by
    constructor
    · intro returns
      obtain ⟨left, returned⟩ := returns ⟨fun _ => 0, ⟨fun _ => 0, []⟩⟩
      exact (finishes_eq_ok.mp ((uses _).symm.trans returned)).1
    · intro aligned cpu
      exact ⟨_, (uses cpu).trans (finishes_eq_ok.mpr ⟨aligned, rfl⟩)⟩
  rw [returns_iff]
  constructor
  · rintro ⟨aligned, atNext⟩
    rw [atNext] at aligned
    refine ⟨?_, aligned⟩
    rintro dst value rfl
    have shifted : next - 4 + disp.signExtend 64 = next + disp.signExtend 64 := atNext
    bv_omega
  · rintro ⟨noConstant, aligned⟩
    have counted : countedFrom next instruction = next := by
      cases instruction with
      | movRm dst value => exact absurd rfl (noConstant dst value)
      | movReg dst value => rfl
      | xorInto dst src => rfl
      | xorFrom dst src => rfl
      | lea dst disp => rfl
    rw [counted]
    exact ⟨aligned, rfl⟩

/-- `mov dword ptr [rip + 18], 7` in a window of fifteen bytes has one such address. -/
theorem usesAddress_next_iff_mov :
    ∃ next address, next = 0x100A ∧
      UsesAddress succeeds () 0x1000
        [0xC7, 0x05, 0x12, 0, 0, 0, 7, 0, 0, 0, 0x90, 0x90, 0x90, 0x90, 0x90]
        (.movRm (.ripRelative 0x12) 7) next address ∧
      (∀ after other, UsesAddress succeeds () 0x1000
        [0xC7, 0x05, 0x12, 0, 0, 0, 7, 0, 0, 0, 0x90, 0x90, 0x90, 0x90, 0x90]
        (.movRm (.ripRelative 0x12) 7) after other → other = address) ∧
      ((∀ cpu, ∃ left, executeInstruction succeeds () cpu 0x1000
          [0xC7, 0x05, 0x12, 0, 0, 0, 7, 0, 0, 0, 0x90, 0x90, 0x90, 0x90, 0x90] =
            .ok (some next, left, ())) ∧ address = next + (0x12 : BitVec 32).signExtend 64 ↔
        (∀ dst value, DataInstruction.movRm (.ripRelative 0x12) 7 ≠ .movRm dst value) ∧
          ∀ word ∈ accessedAt (next + (0x12 : BitVec 32).signExtend 64)
            (.movRm (.ripRelative 0x12) 7), word.toNat % 8 = 0) :=
  @usesAddress_next_iff _ _ none (.movRm (.ripRelative 0x12) 7) _ _ _ 0x1000 trivial
    ⟨[0x90, 0x90, 0x90, 0x90, 0x90], by decide⟩ rfl

/-- Its next instruction is at 0x100A, so it should write at 0x101C. The interpreter writes at
0x1018. -/
theorem usesAddress_counterexample :
    (∃ left, executeInstruction succeeds () ⟨fun _ => 0, ⟨fun _ => 0, []⟩⟩ 0x1000
        [0xC7, 0x05, 0x12, 0, 0, 0, 7, 0, 0, 0, 0x90, 0x90, 0x90, 0x90, 0x90] =
          .ok (some 0x100A, left, ()) ∧ left.memory.log = [⟨0x1018, 8⟩]) ∧
      ¬ UsesAddress succeeds () 0x1000
        [0xC7, 0x05, 0x12, 0, 0, 0, 7, 0, 0, 0, 0x90, 0x90, 0x90, 0x90, 0x90]
        (.movRm (.ripRelative 0x12) 7) 0x100A (0x100A + (0x12 : BitVec 32).signExtend 64) := by
  have executed : executeInstruction succeeds () ⟨fun _ => 0, ⟨fun _ => 0, []⟩⟩ 0x1000
      [0xC7, 0x05, 0x12, 0, 0, 0, 7, 0, 0, 0, 0x90, 0x90, 0x90, 0x90, 0x90] =
        .ok (some 0x100A, ⟨fun _ => 0, PhysMem.store64 ⟨fun _ => 0, []⟩ 0x1018 7⟩, ()) := rfl
  refine ⟨⟨_, executed, by decide⟩, ?_⟩
  intro uses
  have same := executed.symm.trans (uses ⟨fun _ => 0, ⟨fun _ => 0, []⟩⟩)
  obtain ⟨aligned, _⟩ := finishes_eq_ok.mp same.symm
  exact absurd (aligned _ rfl) (by decide)

end Displacements

/-! ## Operand size -/

/-- A sign-extended constant that is written four bytes too low, where it covers the four bytes it
is meant for with its upper half unless addresses wrap between, does the same as the constant. -/
def ConstantFits (memory : PhysMem) (target : BitVec 64) (value : BitVec 32) : Prop :=
  if 4 ≤ target.toNat then
    highHalf (value.signExtend 64) = value ∧ value = memory.load32 (target.toNat - 4)
  else
    value.signExtend 64 = memory.load64 (target - 4) ∧ memory.load32 target.toNat = value

/-- The upper halves with which 64-bit operands do the same as 32-bit operands. -/
def UpperHalvesFit (next : BitVec 64) (cpu : Cpu) : DataInstruction → Prop
  | .movReg _ _ => True
  | .movRm (.register _) value => value.msb = false
  | .movRm (.indirect base) value =>
    highHalf (value.signExtend 64) = highHalf (cpu.memory.load64 (cpu.regs base))
  | .movRm (.ripRelative disp) value => ConstantFits cpu.memory (next + disp.signExtend 64) value
  | .xorInto (.register dst) src => highHalf (cpu.regs dst) = highHalf (cpu.regs src)
  | .xorInto (.indirect _) src => highHalf (cpu.regs src) = 0
  | .xorInto (.ripRelative _) src => highHalf (cpu.regs src) = 0
  | .xorFrom dst src => highHalf (cpu.regs dst) = highHalf (src.read next cpu)
  | .lea _ disp => highHalf (next + disp.signExtend 64) = 0

section OperandSize

variable {cpu : Cpu} {next : BitVec 64}

/-- States with one register set are the same when it is set the same. -/
theorem same_set_iff {r : Register} {left right : BitVec 64} :
    (cpu.set r left).Same (cpu.set r right) ↔ left = right := by
  constructor
  · intro same
    have word := congrFun same.1 r
    simpa [Cpu.set] using word
  · rintro rfl
    exact ⟨rfl, rfl⟩

/-- A register with a word is the same as one with four bytes when its upper half is zero. -/
theorem same_set_iff_high {r : Register} {word : BitVec 64} {value : BitVec 32}
    (low : lowHalf word = value) :
    (cpu.set r word).Same (cpu.set r (value.setWidth 64)) ↔ highHalf word = 0 := by
  rw [same_set_iff, eq_setWidth_iff]
  exact and_iff_right low

/-- States that differ in memory only. -/
theorem same_memory_iff {left right : PhysMem} :
    Cpu.Same { cpu with memory := left } { cpu with memory := right } ↔ left.byte = right.byte :=
  and_iff_right rfl

/-- Exclusive or has no upper half when the two upper halves are equal. -/
theorem highHalf_xor_eq_zero {left right : BitVec 64} :
    highHalf (left ^^^ right) = 0 ↔ highHalf left = highHalf right := by
  rw [highHalf_xor]
  exact BitVec.xor_eq_zero_iff

/-- The lower half of an operand. -/
theorem lowHalf_read (rm : Rm) : lowHalf (rm.read next cpu) = rm.read32 next cpu := by
  cases rm with
  | register r => rfl
  | indirect base => exact (cpu.memory.halves_load64 _).1
  | ripRelative disp => exact (cpu.memory.halves_load64 _).1

/-- Exclusive or with a word in memory keeps the upper half when the other has none. -/
theorem same_xor_memory (address word : BitVec 64) :
    (cpu.memory.store64 address (cpu.memory.load64 address ^^^ word)).byte =
        (cpu.memory.store32 address.toNat
          (cpu.memory.load32 address.toNat ^^^ lowHalf word)).byte ↔ highHalf word = 0 := by
  rw [PhysMem.store64_same_start, lowHalf_xor, (cpu.memory.halves_load64 address).1, highHalf_xor,
    and_iff_right rfl]
  constructor
  · intro same
    apply (BitVec.xor_right_inj (highHalf (cpu.memory.load64 address))).mp
    exact same.trans BitVec.xor_zero.symm
  · intro zero
    rw [zero]
    exact BitVec.xor_zero

/-- A constant four bytes too low. -/
theorem same_constant (memory : PhysMem) (target : BitVec 64) (value : BitVec 32) :
    (memory.store64 (target - 4) (value.signExtend 64)).byte =
        (memory.store32 target.toNat value).byte ↔ ConstantFits memory target value := by
  unfold ConstantFits
  split_ifs with inside
  · have below : target.toNat = (target - 4).toNat + 4 := by bv_omega
    rw [below, PhysMem.store64_same_end, lowHalf_signExtend, Nat.add_sub_cancel]
  · have apart : target.toNat + 4 ≤ (target - 4).toNat := by bv_omega
    exact PhysMem.store64_same_apart _ _ _ (Or.inl apart)

/-- 64-bit operands do the same as 32-bit operands exactly when the upper halves fit. -/
theorem performed_same_iff (next : BitVec 64) (cpu : Cpu) (instruction : DataInstruction) :
    ((performed instruction).step (countedFrom next instruction) cpu).2.Same
        (instruction.step32 next cpu) ↔ UpperHalvesFit next cpu instruction := by
  cases instruction with
  | movReg dst value => exact iff_of_true ⟨rfl, rfl⟩ trivial
  | movRm dst value =>
    cases dst with
    | register r => exact (same_set_iff_high (lowHalf_signExtend value)).trans highHalf_signExtend_eq_zero
    | indirect base =>
      refine same_memory_iff.trans ((cpu.memory.store64_same_start _ _ _).trans ?_)
      exact and_iff_right (lowHalf_signExtend value)
    | ripRelative disp =>
      have counted : next + disp.signExtend 64 - 4 = next - 4 + disp.signExtend 64 := by bv_omega
      have constant := same_constant cpu.memory (next + disp.signExtend 64) value
      rw [counted] at constant
      exact same_memory_iff.trans constant
  | xorInto dst src =>
    cases dst with
    | register r => exact (same_set_iff_high (lowHalf_xor _ _)).trans highHalf_xor_eq_zero
    | indirect base => exact same_memory_iff.trans (same_xor_memory _ _)
    | ripRelative disp => exact same_memory_iff.trans (same_xor_memory _ _)
  | xorFrom dst src =>
    refine (same_set_iff_high ?_).trans highHalf_xor_eq_zero
    rw [lowHalf_xor]
    exact congrArg _ (lowHalf_read src)
  | lea dst disp => exact same_set_iff_high rfl

/-- An instruction does what the architecture defines for 32-bit operands, to all registers and all
memory, exactly when the upper halves fit and the word that the interpreter accesses, if there is
one, is at a multiple of 8. REX.W, without which it should always do so, decides nothing. -/
theorem executeInstruction_narrow_iff {κ : Type} (syscall : SyscallEffect κ) (kernel : κ)
    (cpu : Cpu) (pc : BitVec 64) {code : List UInt8} {rex : Option Rex}
    {instruction : DataInstruction} (extend : instruction.Extends (Rex.bits rex))
    (starts : instruction.encoding rex <+: code) :
    (∃ left, executeInstruction syscall kernel cpu pc code =
        .ok (some (pcAdd pc (instruction.encoding rex).length), left, kernel) ∧
      left.Same (instruction.step32 (pcAdd pc (instruction.encoding rex).length) cpu)) ↔
      UpperHalvesFit (pcAdd pc (instruction.encoding rex).length) cpu instruction ∧
        (performed instruction).Aligned
          (countedFrom (pcAdd pc (instruction.encoding rex).length) instruction) cpu := by
  rw [executeInstruction_data extend starts, ← performed_same_iff]
  constructor
  · rintro ⟨left, executed, same⟩
    obtain ⟨aligned, result⟩ := finishes_eq_ok.mp executed
    obtain rfl : left = _ := congrArg (fun served => served.2.1) result
    exact ⟨same, aligned⟩
  · rintro ⟨same, aligned⟩
    exact ⟨_, finishes_eq_ok.mpr ⟨aligned, rfl⟩, same⟩

/-- `xor eax, ecx` of registers that differ in their lower halves only. -/
theorem executeInstruction_narrow_iff_xor :
    ∃ left, executeInstruction succeeds ()
        ⟨fun r => if r = .rax then 0x100000005 else 0x100000003, ⟨fun _ => 0, []⟩⟩ 0x1000
        [0x31, 0xC8, 0x90, 0x90, 0x90, 0x90, 0x90, 0x90, 0x90, 0x90, 0x90, 0x90, 0x90, 0x90, 0x90] =
          .ok (some 0x1002, left, ()) ∧
      left.Same ((DataInstruction.xorInto (.register .rax) .rcx).step32 0x1002
        ⟨fun r => if r = .rax then 0x100000005 else 0x100000003, ⟨fun _ => 0, []⟩⟩) :=
  (@executeInstruction_narrow_iff _ succeeds () _ 0x1000 _ none (.xorInto (.register .rax) .rcx)
    ⟨rfl, rfl⟩ ⟨[0x90, 0x90, 0x90, 0x90, 0x90, 0x90, 0x90, 0x90, 0x90, 0x90, 0x90, 0x90, 0x90],
      by decide⟩).mpr ⟨(by decide : highHalf 0x100000005 = highHalf 0x100000003),
        fun _ accessed => nomatch accessed⟩

/-- `xor eax, ecx` with EAX zero and RCX at 2 to the 32: RAX should be zero, and the interpreter
leaves the upper half of RCX in it. -/
theorem executeInstruction_narrow_counterexample :
    ∃ left, executeInstruction succeeds ()
        ⟨fun r => if r = .rcx then 0x100000000 else 0, ⟨fun _ => 0, []⟩⟩ 0x1000
        [0x31, 0xC8, 0x90, 0x90, 0x90, 0x90, 0x90, 0x90, 0x90, 0x90, 0x90, 0x90, 0x90, 0x90, 0x90] =
          .ok (some 0x1002, left, ()) ∧
      left.regs .rax = 0x100000000 ∧
      ((DataInstruction.xorInto (.register .rax) .rcx).step32 0x1002
        ⟨fun r => if r = .rcx then 0x100000000 else 0, ⟨fun _ => 0, []⟩⟩).regs .rax = 0 :=
  ⟨_, rfl, by decide, by decide⟩

end OperandSize

end Aperture.Win32
