import Aperture.Machine.Encoding
import Aperture.Win32.Dispatch

/-!
# The x86-64 interpreter

`execute_instruction` decodes one instruction from a window of guest code and performs it on the
guest's registers and memory. For the 64-bit forms it supports it does what the architecture
defines, whatever the bits of the REX prefix that a form does not use.
-/

namespace Aperture.Win32

open Machine

/-- `code[pos]`. -/
def codeAt (code : List UInt8) (pos : Nat) : Except Panic UInt8 :=
  match code[pos]? with
  | some byte => .ok byte
  | none => .error .outOfRange

/-- `from_le_bytes` of consecutive bytes of code. -/
def codeLe (code : List UInt8) (pos size : Nat) : Except Panic Nat := do
  let bytes ← slice code pos (pos + size)
  return leNat bytes

/-- `Operand`. -/
inductive Operand where
  /-- A register. -/
  | reg (r : Register)
  /-- A guest address. -/
  | addr (address : BitVec 64)
  deriving DecidableEq, Repr

/-- `gpr`: a register field with its extension bit. -/
def gpr (base : UInt8) (rexExt : Bool) : Register :=
  let idx := (base &&& 0x07).toNat
  Register.ofNumber (if rexExt then idx + 8 else idx)

/-- `decode_modrm`. -/
def decodeModrm (byte : UInt8) : UInt8 × UInt8 × UInt8 :=
  (byte >>> 6, byte >>> 3 &&& 0x07, byte &&& 0x07)

/-- A signed 32-bit number of code, as a word. -/
def codeI32 (code : List UInt8) (pos : Nat) : Except Panic (BitVec 64) := do
  let value ← codeLe code pos 4
  return (BitVec.ofNat 32 value).signExtend 64

/-- The address `offset` bytes after `pc`. -/
def pcAdd (pc : BitVec 64) (offset : Nat) : BitVec 64 := pc + BitVec.ofNat 64 offset

/-- `decode_modrm_operand`: the position after the operand, and the operand. -/
def decodeModrmOperand (cpu : Cpu) (pc : BitVec 64) (pos : Nat) (code : List UInt8)
    (modBits rm : UInt8) (rexB : Bool) : Except Panic (Option (Nat × Operand)) :=
  if modBits = 0b11 then .ok (some (pos, .reg (gpr rm rexB)))
  else if modBits = 0b00 then
    if rm = 0b101 then
      if code.length < pos + 4 then .ok none
      else do
        let disp ← codeI32 code pos
        return some (pos + 4, .addr (pcAdd pc (pos + 4) + disp))
    else if rm = 0b100 then .ok none
    else .ok (some (pos, .addr (cpu.regs (gpr rm rexB))))
  else .ok none

/-- A word the interpreter reads from an operand, with `read_u64` from memory. -/
def Operand.read (cpu : Cpu) : Operand → Except Panic (BitVec 64)
  | .reg r => .ok (cpu.regs r)
  | .addr address => cpu.memory.readVolatile address

/-- A word the interpreter writes to an operand, with `write_u64` to memory. -/
def Operand.write (cpu : Cpu) (value : BitVec 64) : Operand → Except Panic Cpu
  | .reg r => .ok (cpu.set r value)
  | .addr address => do
    let memory ← cpu.memory.writeVolatile address value
    return { cpu with memory }

/-- What one instruction leaves: the next address, if it is supported, and the guest's state. -/
abbrev Executed := Except Panic (Option (BitVec 64) × Cpu)

/-- A relative jump with a signed offset of `size` bytes. -/
def executeJmp (cpu : Cpu) (pc : BitVec 64) (code : List UInt8) (pos size : Nat) : Executed :=
  if code.length < pos + size then .ok (none, cpu)
  else do
    let offset ← codeLe code pos size
    return (some (pcAdd pc (pos + size) + (BitVec.ofNat (8 * size) offset).signExtend 64), cpu)

/-- `C3`. -/
def executeRet (cpu : Cpu) : Executed := do
  let ra ← cpu.memory.readVolatile (cpu.regs .rsp)
  if ra = 0 then return (none, cpu.dropWord) else return (some ra, cpu.dropWord)

/-- `E8`. -/
def executeCall (cpu : Cpu) (pc : BitVec 64) (code : List UInt8) (pos : Nat) : Executed :=
  if code.length < pos + 4 then .ok (none, cpu)
  else do
    let offset ← codeI32 code pos
    let returnAddr := pcAdd pc (pos + 4)
    let rsp := cpu.regs .rsp - 8
    let memory ← cpu.memory.writeVolatile rsp returnAddr
    return (some (pcAdd pc (pos + 4) + offset), ⟨Function.update cpu.regs .rsp rsp, memory⟩)

/-- `B8` to `BF`. -/
def executeMovImm (cpu : Cpu) (pc : BitVec 64) (code : List UInt8) (rex : Rex) (opcode : UInt8)
    (pos : Nat) : Executed :=
  let reg := gpr (opcode &&& 0x07) rex.b
  let size := if rex.w then 8 else 4
  if code.length < pos + size then .ok (none, cpu)
  else do
    let imm ← codeLe code pos size
    return (some (pcAdd pc (pos + size)), cpu.set reg (BitVec.ofNat 64 imm))

/-- `C7`. -/
def executeMovRm (cpu : Cpu) (pc : BitVec 64) (code : List UInt8) (rex : Rex) (pos : Nat) :
    Executed :=
  if code.length ≤ pos then .ok (none, cpu)
  else do
    let modrm ← codeAt code pos
    let pos := pos + 1
    let (modBits, regOp, rm) := decodeModrm modrm
    if regOp ≠ 0 then return (none, cpu)
    match ← decodeModrmOperand cpu pc pos code modBits rm rex.b with
    | none => return (none, cpu)
    | some (newPos, operand) =>
      if code.length < pos + 4 then return (none, cpu)
      let imm ← codeI32 code newPos
      let left ← operand.write cpu imm
      return (some (pcAdd pc (newPos + 4)), left)

/-- `31`. -/
def executeXorInto (cpu : Cpu) (pc : BitVec 64) (code : List UInt8) (rex : Rex) (pos : Nat) :
    Executed :=
  if code.length ≤ pos then .ok (none, cpu)
  else do
    let modrm ← codeAt code pos
    let pos := pos + 1
    let (modBits, regField, rm) := decodeModrm modrm
    let src := gpr regField rex.r
    match ← decodeModrmOperand cpu pc pos code modBits rm rex.b with
    | none => return (none, cpu)
    | some (newPos, dst) =>
      let val ← dst.read cpu
      let left ← dst.write cpu (val ^^^ cpu.regs src)
      return (some (pcAdd pc newPos), left)

/-- `33`. -/
def executeXorFrom (cpu : Cpu) (pc : BitVec 64) (code : List UInt8) (rex : Rex) (pos : Nat) :
    Executed :=
  if code.length ≤ pos then .ok (none, cpu)
  else do
    let modrm ← codeAt code pos
    let pos := pos + 1
    let (modBits, regField, rm) := decodeModrm modrm
    let dst := gpr regField rex.r
    match ← decodeModrmOperand cpu pc pos code modBits rm rex.b with
    | none => return (none, cpu)
    | some (newPos, src) =>
      let val ← src.read cpu
      return (some (pcAdd pc newPos), cpu.set dst (cpu.regs dst ^^^ val))

/-- `8D`. -/
def executeLea (cpu : Cpu) (pc : BitVec 64) (code : List UInt8) (rex : Rex) (pos : Nat) :
    Executed :=
  if code.length ≤ pos then .ok (none, cpu)
  else do
    let modrm ← codeAt code pos
    let pos := pos + 1
    let (modBits, regField, rm) := decodeModrm modrm
    let dest := gpr regField rex.r
    if modBits ≠ 0 ∨ rm ≠ 0b101 then return (none, cpu)
    if code.length < pos + 4 then return (none, cpu)
    let disp ← codeI32 code pos
    return (some (pcAdd pc (pos + 4)), cpu.set dest (pcAdd pc (pos + 4) + disp))

/-- `nt::dispatch`, as the interpreter calls it with the kernel in some state: a status with what
the handler leaves in memory and in the kernel, or its panic. -/
abbrev SyscallEffect (κ : Type) :=
  SyscallNumber → SyscallArgs → PhysMem → κ → Except Panic (NtStatus × PhysMem × κ)

/-- What one instruction leaves, with the kernel's state. -/
abbrev Served (κ : Type) := Option (BitVec 64) × Cpu × κ

/-- An instruction that is no system call leaves the kernel's state alone. -/
def Executed.keeping {κ : Type} (kernel : κ) (executed : Executed) :
    Except Panic (Served κ) :=
  executed.map fun left => (left.1, left.2, kernel)

section Execution

variable {κ : Type}

/-- `dispatch_syscall`. -/
def serveSyscall (syscall : SyscallEffect κ) (kernel : κ) (cpu : Cpu) (returnPc : BitVec 64) :
    Except Panic (Served κ) :=
  let number := SyscallNumber.ofUsize (cpu.regs .rax).toNat
  match syscall number (syscallArgs cpu.regs) cpu.memory kernel with
  | .error _ => .error .callee
  | .ok (status, memory, kernel) =>
    .ok (some returnPc, Cpu.set ⟨cpu.regs, memory⟩ .rax status.code, kernel)

/-- `0F`: `SYSCALL`. -/
def executeSyscall (syscall : SyscallEffect κ) (kernel : κ) (cpu : Cpu) (pc : BitVec 64)
    (code : List UInt8) (pos : Nat) : Except Panic (Served κ) :=
  if code.length ≤ pos then .ok (none, cpu, kernel)
  else do
    let sub ← codeAt code pos
    let pos := pos + 1
    if sub = 0x05 then serveSyscall syscall kernel cpu (pcAdd pc pos)
    else return (none, cpu, kernel)

/-- The match on the opcode, with the position behind it. -/
def matchOpcode (syscall : SyscallEffect κ) (kernel : κ) (cpu : Cpu) (pc : BitVec 64)
    (code : List UInt8) (rex : Rex) (opcode : UInt8) (pos : Nat) : Except Panic (Served κ) :=
  if opcode = 0x90 then .ok (some (pcAdd pc pos), cpu, kernel)
  else if opcode = 0xC3 then (executeRet cpu).keeping kernel
  else if opcode = 0xEB then (executeJmp cpu pc code pos 1).keeping kernel
  else if opcode = 0xE9 then (executeJmp cpu pc code pos 4).keeping kernel
  else if opcode = 0xE8 then (executeCall cpu pc code pos).keeping kernel
  else if 0xB8 ≤ opcode ∧ opcode ≤ 0xBF then
    (executeMovImm cpu pc code rex opcode pos).keeping kernel
  else if opcode = 0xC7 then (executeMovRm cpu pc code rex pos).keeping kernel
  else if opcode = 0x31 then (executeXorInto cpu pc code rex pos).keeping kernel
  else if opcode = 0x33 then (executeXorFrom cpu pc code rex pos).keeping kernel
  else if opcode = 0x8D then (executeLea cpu pc code rex pos).keeping kernel
  else if opcode = 0x0F then executeSyscall syscall kernel cpu pc code pos
  else .ok (none, cpu, kernel)

/-- `execute_instruction` from the opcode on. -/
def executeOpcode (syscall : SyscallEffect κ) (kernel : κ) (cpu : Cpu) (pc : BitVec 64)
    (code : List UInt8) (rex : Rex) (pos : Nat) : Except Panic (Served κ) := do
  let opcode ← codeAt code pos
  matchOpcode syscall kernel cpu pc code rex opcode (pos + 1)

/-- The prefix bits the interpreter takes from a byte. -/
def rexOf (byte : UInt8) : Rex where
  w := byte &&& 0x08 != 0
  r := byte &&& 0x04 != 0
  x := byte &&& 0x02 != 0
  b := byte &&& 0x01 != 0

/-- `execute_instruction`. -/
def executeInstruction (syscall : SyscallEffect κ) (kernel : κ) (cpu : Cpu) (pc : BitVec 64)
    (code : List UInt8) : Except Panic (Served κ) :=
  if code.isEmpty then .ok (none, cpu, kernel)
  else do
    let first ← codeAt code 0
    if first &&& 0xF0 = 0x40 then
      if code.length ≤ 1 then return (none, cpu, kernel)
      else executeOpcode syscall kernel cpu pc code (rexOf first) 1
    else executeOpcode syscall kernel cpu pc code ⟨false, false, false, false⟩ 0

end Execution

/-- An instruction that accesses a word, if it accesses one, goes on at an address and leaves a
state, unless the word is refused. -/
def finishes (access : Option (BitVec 64)) (next : BitVec 64) (left : Cpu) : Executed := do
  PhysMem.checkAccess access
  return (some next, left)

/-- It does so exactly when the word is at a multiple of 8. -/
theorem finishes_eq_ok {κ : Type} {kernel : κ} {access : Option (BitVec 64)} {next : BitVec 64}
    {left : Cpu} {result : Option (BitVec 64) × Cpu × κ} :
    (finishes access next left).keeping kernel = .ok result ↔
      (∀ address ∈ access, address.toNat % 8 = 0) ∧ result = (some next, left, kernel) := by
  rw [← PhysMem.checkAccess_eq_ok]
  unfold finishes Executed.keeping
  cases PhysMem.checkAccess access with
  | error reason => simp [bind, Except.bind, Except.map]
  | ok value => simp [bind, Except.bind, Except.map, pure, Except.pure, eq_comm]

/-! ## Decoding -/

section Decoding

variable {cpu : Cpu} {pc : BitVec 64} {front rest : List UInt8}

/-- The byte behind a part of the code. -/
theorem codeAt_behind (front : List UInt8) (byte : UInt8) (rest : List UInt8) :
    codeAt (front ++ byte :: rest) front.length = .ok byte := by
  simp [codeAt]

/-- The number behind a part of the code. -/
theorem codeLe_behind (front : List UInt8) {size value : Nat} (fits : value < 256 ^ size)
    (rest : List UInt8) :
    codeLe (front ++ (leBytes size value ++ rest)) front.length size = .ok value := by
  have inside : front.length ≤ front.length + size ∧
      front.length + size ≤ (front ++ (leBytes size value ++ rest)).length := by
    simp only [List.length_append, length_leBytes]
    omega
  have taken : ((front ++ (leBytes size value ++ rest)).drop front.length).take
      (front.length + size - front.length) = leBytes size value := by
    rw [List.drop_left, Nat.add_sub_cancel_left]
    exact List.take_left' (length_leBytes size value)
  rw [codeLe, slice, if_pos inside, ok_bind, taken, leNat_leBytes size value fits]
  rfl

/-- A signed number behind a part of the code. -/
theorem codeI32_behind (front : List UInt8) (value : BitVec 32) (rest : List UInt8) :
    codeI32 (front ++ (leBytes 4 value.toNat ++ rest)) front.length =
      .ok (value.signExtend 64) := by
  have fits : value.toNat < 256 ^ 4 := value.isLt
  rw [codeI32, codeLe_behind front fits rest, ok_bind, BitVec.ofNat_toNat, BitVec.setWidth_eq]
  rfl

/-- The bytes of a number are there. -/
theorem not_short (front : List UInt8) (size value : Nat) (rest : List UInt8) :
    ¬ (front ++ (leBytes size value ++ rest)).length < front.length + size := by
  simp only [List.length_append, length_leBytes]
  omega

/-- Every register is in the list. -/
theorem mem_all (r : Register) : r ∈ Register.all := by
  cases r <;> decide

/-- A register from its field and its prefix bit. -/
theorem gpr_low (r : Register) : gpr r.low r.high = r := by
  have every : ∀ r ∈ Register.all, gpr r.low r.high = r := by decide +kernel
  exact every r (mem_all r)

/-- The opcodes of `MOV r64, imm64` name a register and are no prefix. -/
theorem movImm_opcode (r : Register) :
    gpr ((0xB8 + r.low) &&& 0x07) r.high = r ∧ (0xB8 + r.low) &&& 0xF0 ≠ 0x40 := by
  have every : ∀ r ∈ Register.all,
      gpr ((0xB8 + r.low) &&& 0x07) r.high = r ∧ (0xB8 + r.low) &&& 0xF0 ≠ 0x40 := by
    decide +kernel
  exact every r (mem_all r)

/-- The interpreter reads the prefix it is given. -/
theorem rexOf_byte (rex : Rex) : rex.byte &&& 0xF0 = 0x40 ∧ rexOf rex.byte = rex := by
  obtain ⟨w, r, x, b⟩ := rex
  revert w r x b
  decide

/-- The interpreter's view of an operand, given the address of the next instruction. -/
def operandOf (next : BitVec 64) (cpu : Cpu) : Rm → Operand
  | .register r => .reg r
  | .indirect base => .addr (cpu.regs base)
  | .ripRelative disp => .addr (next + disp.signExtend 64)

/-- It has the operand's value, if its word may be read. -/
theorem read_operandOf (next : BitVec 64) (cpu : Cpu) (rm : Rm) :
    (operandOf next cpu rm).read cpu = do
      PhysMem.checkAccess (rm.address next cpu)
      return rm.read next cpu := by
  cases rm <;> rfl

/-- Writing it writes the operand, if its word may be written. -/
theorem write_operandOf (next : BitVec 64) (cpu : Cpu) (rm : Rm) (value : BitVec 64) :
    (operandOf next cpu rm).write cpu value = do
      PhysMem.checkAccess (rm.address next cpu)
      return rm.write next cpu value := by
  cases rm with
  | register r => rfl
  | indirect base =>
    simp only [operandOf, Operand.write, PhysMem.writeVolatile, bind_assoc]
    rfl
  | ripRelative disp =>
    simp only [operandOf, Operand.write, PhysMem.writeVolatile, bind_assoc]
    rfl

/-- A word that was read may be written. -/
theorem checkAccess_twice {α : Type} (access : Option (BitVec 64)) (rest : Except Panic α) :
    (PhysMem.checkAccess access >>= fun _ => PhysMem.checkAccess access >>= fun _ => rest) =
      (PhysMem.checkAccess access >>= fun _ => rest) := by
  cases PhysMem.checkAccess access <;> rfl

/-- Fields of a ModRM byte. -/
theorem decodeModrm_fields (field r : Register) :
    decodeModrm (0xC0 + field.low * 8 + r.low) = (3, field.low, r.low) ∧
      decodeModrm (field.low * 8 + r.low) = (0, field.low, r.low) ∧
      decodeModrm (field.low * 8 + 5) = (0, field.low, 5) := by
  have every : ∀ field ∈ Register.all, ∀ r ∈ Register.all,
      decodeModrm (0xC0 + field.low * 8 + r.low) = (3, field.low, r.low) ∧
        decodeModrm (field.low * 8 + r.low) = (0, field.low, r.low) ∧
        decodeModrm (field.low * 8 + 5) = (0, field.low, 5) := by decide +kernel
  exact every field (mem_all field) r (mem_all r)

/-- An operand is decoded from its bytes. -/
theorem decode_operand (cpu : Cpu) (pc : BitVec 64) (front rest : List UInt8) (field : Register)
    {rm : Rm} {b : Bool} (extend : rm.Extends b) :
    ∃ modrm more modBits rmBits, rm.bytes field.low = modrm :: more ∧
      decodeModrm modrm = (modBits, field.low, rmBits) ∧
      decodeModrmOperand cpu pc (front.length + 1) (front ++ (rm.bytes field.low ++ rest)) modBits
          rmBits b =
        .ok (some (front.length + (rm.bytes field.low).length,
          operandOf (pcAdd pc (front.length + (rm.bytes field.low).length)) cpu rm)) := by
  cases rm with
  | register r =>
    have same : b = r.high := extend
    refine ⟨_, _, _, _, rfl, (decodeModrm_fields field r).1, ?_⟩
    rw [decodeModrmOperand, if_pos rfl, same, gpr_low]
    rfl
  | indirect base =>
    obtain ⟨same, notSib, notRip⟩ := extend
    refine ⟨_, _, _, _, rfl, (decodeModrm_fields field base).2.1, ?_⟩
    rw [decodeModrmOperand, if_neg (by decide), if_pos rfl, if_neg notRip, if_neg notSib, same,
      gpr_low]
    rfl
  | ripRelative disp =>
    refine ⟨_, _, _, _, rfl, (decodeModrm_fields field .rax).2.2, ?_⟩
    have shape : front ++ ((Rm.ripRelative disp).bytes field.low ++ rest) =
        (front ++ [field.low * 8 + 5]) ++ (leBytes 4 disp.toNat ++ rest) := by
      simp [Rm.bytes]
    have length : (front ++ [field.low * 8 + 5]).length = front.length + 1 := by simp
    have size : front.length + ((Rm.ripRelative disp).bytes field.low).length =
        front.length + 1 + 4 := by
      simp [Rm.bytes]
    have present := not_short (front ++ [field.low * 8 + 5]) 4 disp.toNat rest
    have value := codeI32_behind (front ++ [field.low * 8 + 5]) disp rest
    rw [length] at present value
    rw [shape, size, decodeModrmOperand, if_neg (by decide), if_pos rfl, if_pos rfl, if_neg present,
      value, ok_bind]
    rfl

/-- An operand has a byte. -/
theorem not_ended (front rest : List UInt8) (field : UInt8) (rm : Rm) :
    ¬ (front ++ (rm.bytes field ++ rest)).length ≤ front.length := by
  have positive : 0 < (rm.bytes field).length := by cases rm <;> simp [Rm.bytes]
  simp only [List.length_append]
  omega

end Decoding

/-! ## Opcodes -/

section Opcodes

variable {κ : Type} {syscall : SyscallEffect κ} {kernel : κ} {cpu : Cpu} {pc : BitVec 64}
  {front rest : List UInt8}

/-- Control passes to the opcode behind an optional prefix. Behind a prefix it may be any byte. -/
theorem executeInstruction_optional (rex : Option Rex) (opcode : UInt8)
    (notRex : rex = none → opcode &&& 0xF0 ≠ 0x40) (rest : List UInt8) :
    executeInstruction syscall kernel cpu pc (Rex.optional rex ++ opcode :: rest) =
      executeOpcode syscall kernel cpu pc (Rex.optional rex ++ opcode :: rest)
        (rex.getD ⟨false, false, false, false⟩) (Rex.optional rex).length := by
  cases rex with
  | none =>
    have first : codeAt (opcode :: rest) 0 = .ok opcode := codeAt_behind [] opcode rest
    simp only [Rex.optional, Option.map_none, Option.toList_none, List.nil_append,
      executeInstruction, List.isEmpty_cons, Bool.false_eq_true, ↓reduceIte, first, ok_bind,
      notRex rfl]
    rfl
  | some rex =>
    obtain ⟨isRex, same⟩ := rexOf_byte rex
    have first : codeAt (rex.byte :: opcode :: rest) 0 = .ok rex.byte :=
      codeAt_behind [] rex.byte (opcode :: rest)
    have long : ¬ (rex.byte :: opcode :: rest).length ≤ 1 := by simp
    simp only [Rex.optional, Option.map_some, Option.toList_some, List.cons_append,
      List.nil_append, executeInstruction, List.isEmpty_cons, Bool.false_eq_true, ↓reduceIte, first,
      ok_bind, isRex, long, same]
    rfl

/-- The match on the opcode starts behind it. -/
theorem executeInstruction_match (rex : Option Rex) {opcode : UInt8}
    (notRex : rex = none → opcode &&& 0xF0 ≠ 0x40) (rest : List UInt8) :
    executeInstruction syscall kernel cpu pc (Rex.optional rex ++ opcode :: rest) =
      matchOpcode syscall kernel cpu pc ((Rex.optional rex ++ [opcode]) ++ rest)
        (rex.getD ⟨false, false, false, false⟩) opcode (Rex.optional rex ++ [opcode]).length := by
  rw [executeInstruction_optional rex opcode notRex, executeOpcode, codeAt_behind, ok_bind,
    List.append_assoc, List.length_append]
  rfl

/-- So it does for an opcode that is no prefix itself. -/
theorem executeInstruction_behind (rex : Option Rex) {opcode : UInt8}
    (notRex : opcode &&& 0xF0 ≠ 0x40) (rest : List UInt8) :
    executeInstruction syscall kernel cpu pc (Rex.optional rex ++ opcode :: rest) =
      matchOpcode syscall kernel cpu pc ((Rex.optional rex ++ [opcode]) ++ rest)
        (rex.getD ⟨false, false, false, false⟩) opcode (Rex.optional rex ++ [opcode]).length :=
  executeInstruction_match rex (fun _ => notRex) rest

/-- The same for a prefix that has to be there. -/
theorem executeInstruction_prefixed (rex : Rex) {opcode : UInt8} (notRex : opcode &&& 0xF0 ≠ 0x40)
    (rest : List UInt8) :
    executeInstruction syscall kernel cpu pc (rex.byte :: opcode :: rest) =
      matchOpcode syscall kernel cpu pc ([rex.byte, opcode] ++ rest) rex opcode
        [rex.byte, opcode].length :=
  executeInstruction_behind (some rex) notRex rest

/-- The match on the opcodes of `MOV r64, imm64`. -/
theorem matchOpcode_movImm {code : List UInt8} {rex : Rex} {pos : Nat} (r : Register) :
    matchOpcode syscall kernel cpu pc code rex (0xB8 + r.low) pos =
      (executeMovImm cpu pc code rex (0xB8 + r.low) pos).keeping kernel := by
  cases r <;> rfl

/-- The length of an instruction with a prefix. -/
theorem length_prefixed (rex opcode : UInt8) (bytes : List UInt8) :
    [rex, opcode].length + bytes.length = (rex :: opcode :: bytes).length := by
  simp only [List.length_cons, List.length_nil]
  omega

/-- An operand without a displacement is the same wherever the instruction ends. -/
theorem write_near {dst : Rm} (near : ∀ disp, dst ≠ .ripRelative disp) (behind next : BitVec 64)
    (value : BitVec 64) : dst.write behind cpu value = dst.write next cpu value := by
  cases dst with
  | register r => rfl
  | indirect base => rfl
  | ripRelative disp => exact absurd rfl (near disp)

/-- The length of an instruction with a constant. -/
theorem length_constant (rex opcode : UInt8) (bytes : List UInt8) (value : BitVec 32) :
    (rex :: opcode :: bytes).length + 4 =
      (rex :: opcode :: (bytes ++ leBytes 4 value.toNat)).length := by
  simp only [List.length_cons, List.length_append, length_leBytes]

/-- A system call returns when the kernel answers it. -/
theorem serveSyscall_answered {status : NtStatus} {memory : PhysMem} {left : κ}
    (answered : syscall (SyscallNumber.ofUsize (cpu.regs .rax).toNat) (syscallArgs cpu.regs)
      cpu.memory kernel = .ok (status, memory, left)) (returnPc : BitVec 64) :
    serveSyscall syscall kernel cpu returnPc =
      .ok (some returnPc, Cpu.set ⟨cpu.regs, memory⟩ .rax status.code, left) := by
  unfold serveSyscall
  extract_lets number
  rw [answered]

/-- A relative jump. -/
theorem executeJmp_behind {size : Nat} (offset : BitVec (8 * size)) (fits : offset.toNat < 256 ^ size) :
    executeJmp cpu pc (front ++ (leBytes size offset.toNat ++ rest)) front.length size =
      .ok (some (pcAdd pc (front.length + size) + offset.signExtend 64), cpu) := by
  rw [executeJmp, if_neg (not_short front size offset.toNat rest), codeLe_behind front fits rest,
    ok_bind, BitVec.ofNat_toNat, BitVec.setWidth_eq]
  rfl

/-- A call. -/
theorem executeCall_behind (offset : BitVec 32) :
    executeCall cpu pc (front ++ (leBytes 4 offset.toNat ++ rest)) front.length =
      finishes (some (cpu.regs .rsp - 8)) (pcAdd pc (front.length + 4) + offset.signExtend 64)
        (cpu.pushWord (pcAdd pc (front.length + 4))) := by
  rw [executeCall, if_neg (not_short front 4 offset.toNat rest), codeI32_behind, ok_bind]
  simp only [PhysMem.writeVolatile, bind_assoc]
  rfl

/-- A constant for a register. -/
theorem executeMovImm_behind {r x : Bool} (dst : Register) (value : BitVec 64) :
    executeMovImm cpu pc (front ++ (leBytes 8 value.toNat ++ rest)) ⟨true, r, x, dst.high⟩
        (0xB8 + dst.low) front.length =
      .ok (some (pcAdd pc (front.length + 8)), cpu.set dst value) := by
  have fits : value.toNat < 256 ^ 8 := value.isLt
  simp only [executeMovImm, ↓reduceIte, not_short front 8 value.toNat rest,
    codeLe_behind front fits rest, ok_bind, (movImm_opcode dst).1, BitVec.ofNat_toNat,
    BitVec.setWidth_eq]
  rfl

/-- Exclusive or into an operand. -/
theorem executeXorInto_behind {rex : Rex} (dst : Rm) (extend : dst.Extends rex.b) {src : Register}
    (field : rex.r = src.high) :
    executeXorInto cpu pc (front ++ (dst.bytes src.low ++ rest)) rex front.length =
      finishes (dst.address (pcAdd pc (front.length + (dst.bytes src.low).length)) cpu)
        (pcAdd pc (front.length + (dst.bytes src.low).length))
        (dst.write (pcAdd pc (front.length + (dst.bytes src.low).length)) cpu
          (dst.read (pcAdd pc (front.length + (dst.bytes src.low).length)) cpu ^^^
            cpu.regs src)) := by
  obtain ⟨modrm, more, modBits, rmBits, bytes, fields, decoded⟩ :=
    decode_operand cpu pc front rest src extend
  have first : codeAt (front ++ (dst.bytes src.low ++ rest)) front.length = .ok modrm := by
    rw [bytes]
    exact codeAt_behind front modrm (more ++ rest)
  simp only [executeXorInto, not_ended front rest src.low dst, ↓reduceIte, first, ok_bind, fields,
    decoded, field, gpr_low, read_operandOf, write_operandOf, bind_assoc, pure_bind,
    checkAccess_twice, finishes]

/-- Exclusive or from an operand. -/
theorem executeXorFrom_behind {rex : Rex} {dst : Register} (field : rex.r = dst.high) (src : Rm)
    (extend : src.Extends rex.b) :
    executeXorFrom cpu pc (front ++ (src.bytes dst.low ++ rest)) rex front.length =
      finishes (src.address (pcAdd pc (front.length + (src.bytes dst.low).length)) cpu)
        (pcAdd pc (front.length + (src.bytes dst.low).length))
        (cpu.set dst (cpu.regs dst ^^^
          src.read (pcAdd pc (front.length + (src.bytes dst.low).length)) cpu)) := by
  obtain ⟨modrm, more, modBits, rmBits, bytes, fields, decoded⟩ :=
    decode_operand cpu pc front rest dst extend
  have first : codeAt (front ++ (src.bytes dst.low ++ rest)) front.length = .ok modrm := by
    rw [bytes]
    exact codeAt_behind front modrm (more ++ rest)
  simp only [executeXorFrom, not_ended front rest dst.low src, ↓reduceIte, first, ok_bind, fields,
    decoded, field, gpr_low, read_operandOf, bind_assoc, pure_bind, finishes]

/-- A constant for an operand, which is decoded as if the instruction ended behind it. -/
theorem executeMovRm_behind {rex : Rex} (dst : Rm) (extend : dst.Extends rex.b)
    (value : BitVec 32) :
    executeMovRm cpu pc (front ++ (dst.bytes 0 ++ (leBytes 4 value.toNat ++ rest))) rex
        front.length =
      finishes (dst.address (pcAdd pc (front.length + (dst.bytes 0).length)) cpu)
        (pcAdd pc (front.length + (dst.bytes 0).length + 4))
        (dst.write (pcAdd pc (front.length + (dst.bytes 0).length)) cpu (value.signExtend 64)) := by
  have zero : Register.rax.low = 0 := by decide
  obtain ⟨modrm, more, modBits, rmBits, bytes, fields, decoded⟩ :=
    decode_operand cpu pc front (leBytes 4 value.toNat ++ rest) .rax extend
  rw [zero] at bytes fields decoded
  have first : codeAt (front ++ (dst.bytes 0 ++ (leBytes 4 value.toNat ++ rest))) front.length =
      .ok modrm := by
    rw [bytes]
    exact codeAt_behind front modrm (more ++ (leBytes 4 value.toNat ++ rest))
  have positive : 0 < (dst.bytes 0).length := by rw [bytes]; exact Nat.succ_pos _
  have present : ¬ (front ++ (dst.bytes 0 ++ (leBytes 4 value.toNat ++ rest))).length <
      front.length + 1 + 4 := by
    simp only [List.length_append, length_leBytes]
    omega
  have constant := codeI32_behind (front ++ dst.bytes 0) value rest
  rw [List.append_assoc, List.length_append] at constant
  simp only [executeMovRm, not_ended front _ 0 dst, ↓reduceIte, first, ok_bind, fields, ne_eq,
    not_true_eq_false, decoded, present, constant, write_operandOf, bind_assoc, pure_bind, finishes]

/-- An address relative to the next instruction. -/
theorem executeLea_behind {rex : Rex} {dst : Register} (field : rex.r = dst.high)
    (disp : BitVec 32) :
    executeLea cpu pc (front ++ ((Rm.ripRelative disp).bytes dst.low ++ rest)) rex front.length =
      .ok (some (pcAdd pc (front.length + 5)),
        cpu.set dst (pcAdd pc (front.length + 5) + disp.signExtend 64)) := by
  have fields := (decodeModrm_fields dst .rax).2.2
  have first : codeAt (front ++ ((Rm.ripRelative disp).bytes dst.low ++ rest)) front.length =
      .ok (dst.low * 8 + 5) := codeAt_behind front _ (leBytes 4 disp.toNat ++ rest)
  have shape : front ++ ((Rm.ripRelative disp).bytes dst.low ++ rest) =
      (front ++ [dst.low * 8 + 5]) ++ (leBytes 4 disp.toNat ++ rest) := by
    simp [Rm.bytes]
  have length : (front ++ [dst.low * 8 + 5]).length = front.length + 1 := by simp
  have present := not_short (front ++ [dst.low * 8 + 5]) 4 disp.toNat rest
  have value := codeI32_behind (front ++ [dst.low * 8 + 5]) disp rest
  rw [← shape, length] at present value
  simp only [executeLea, not_ended front rest dst.low (.ripRelative disp), ↓reduceIte, first,
    ok_bind, fields, ne_eq, not_true_eq_false, or_self, present, value, field, gpr_low]
  rfl

end Opcodes

/-- A return to an address that is not zero. -/
theorem executeRet_nonzero {cpu : Cpu} (nonzero : cpu.top ≠ 0) :
    executeRet cpu = finishes (some (cpu.regs .rsp)) cpu.top cpu.dropWord := by
  have there : ¬ cpu.memory.load64 (cpu.regs .rsp) = 0 := nonzero
  simp only [executeRet, PhysMem.readVolatile, bind_assoc, pure_bind]
  rw [if_neg there]
  rfl

/-- An operand without a displacement has its address wherever the instruction ends. -/
theorem address_near {dst : Rm} (near : ∀ disp, dst ≠ .ripRelative disp) (behind next : BitVec 64)
    (cpu : Cpu) : dst.address behind cpu = dst.address next cpu := by
  cases dst with
  | register r => rfl
  | indirect base => rfl
  | ripRelative disp => exact absurd rfl (near disp)

/-- On every supported encoding the interpreter does what the architecture defines, unless it
refuses the word that the operation accesses. -/
theorem executeInstruction_encodes {κ : Type} (syscall : SyscallEffect κ) (kernel : κ) (cpu : Cpu)
    (pc : BitVec 64) {code bytes : List UInt8} {operation : Operation}
    (encodes : Encodes operation bytes) (starts : bytes <+: code)
    (returns : operation = .ret → cpu.top ≠ 0) :
    executeInstruction syscall kernel cpu pc code =
      (finishes (operation.access (pcAdd pc bytes.length) cpu)
        (operation.step (pcAdd pc bytes.length) cpu).1
        (operation.step (pcAdd pc bytes.length) cpu).2).keeping kernel := by
  obtain ⟨rest, rfl⟩ := starts
  cases encodes with
  | jmpRel8 rex offset =>
    have jump := @executeJmp_behind cpu pc (Rex.optional rex ++ [0xEB]) rest 1 offset offset.isLt
    rw [List.append_assoc, List.cons_append, executeInstruction_behind rex (by decide), matchOpcode,
      if_neg (by decide), if_neg (by decide), if_pos rfl, jump]
    simp [Operation.step, Operation.access, finishes, PhysMem.checkAccess, Nat.add_assoc]
  | jmpRel32 rex offset =>
    have jump := @executeJmp_behind cpu pc (Rex.optional rex ++ [0xE9]) rest 4 offset offset.isLt
    rw [List.append_assoc, List.cons_append, executeInstruction_behind rex (by decide), matchOpcode,
      if_neg (by decide), if_neg (by decide), if_neg (by decide), if_pos rfl, jump]
    simp [Operation.step, Operation.access, finishes, PhysMem.checkAccess, Nat.add_assoc]
  | callRel32 rex offset =>
    have call := @executeCall_behind cpu pc (Rex.optional rex ++ [0xE8]) rest offset
    rw [List.append_assoc, List.cons_append, executeInstruction_behind rex (by decide)]
    refine (congrArg (Executed.keeping kernel) call).trans ?_
    simp [Operation.step, Operation.access, Nat.add_assoc]
  | ret rex =>
    rw [List.append_assoc, List.cons_append, executeInstruction_behind rex (by decide)]
    exact congrArg (Executed.keeping kernel) (executeRet_nonzero (returns rfl))
  | nop => exact executeInstruction_behind none (by decide) rest
  | movImm64 r x dst value =>
    have load := @executeMovImm_behind cpu pc [Rex.byte ⟨true, r, x, dst.high⟩, 0xB8 + dst.low] rest
      r x dst value
    rw [List.cons_append, List.cons_append,
      executeInstruction_prefixed ⟨true, r, x, dst.high⟩ (movImm_opcode dst).2, matchOpcode_movImm]
    exact congrArg (Executed.keeping kernel) load
  | movImm32 r x b dst extend near value =>
    have load := @executeMovRm_behind cpu pc [Rex.byte ⟨true, r, x, b⟩, 0xC7] rest ⟨true, r, x, b⟩
      dst extend value
    rw [List.cons_append, List.cons_append, List.append_assoc,
      executeInstruction_prefixed ⟨true, r, x, b⟩ (by decide)]
    refine (congrArg (Executed.keeping kernel) load).trans ?_
    rw [write_near near _ (pcAdd pc (Rex.byte ⟨true, r, x, b⟩ :: 0xC7 ::
        (dst.bytes 0 ++ leBytes 4 value.toNat)).length),
      address_near near _ (pcAdd pc (Rex.byte ⟨true, r, x, b⟩ :: 0xC7 ::
        (dst.bytes 0 ++ leBytes 4 value.toNat)).length), length_prefixed, length_constant]
    rfl
  | xorInto x b dst extend src =>
    have xor := @executeXorInto_behind cpu pc [Rex.byte ⟨true, src.high, x, b⟩, 0x31] rest
      ⟨true, src.high, x, b⟩ dst extend src rfl
    rw [List.cons_append, List.cons_append,
      executeInstruction_prefixed ⟨true, src.high, x, b⟩ (by decide)]
    rw [length_prefixed] at xor
    exact congrArg (Executed.keeping kernel) xor
  | xorFrom x b dst src extend =>
    have xor := @executeXorFrom_behind cpu pc [Rex.byte ⟨true, dst.high, x, b⟩, 0x33] rest
      ⟨true, dst.high, x, b⟩ dst rfl src extend
    rw [List.cons_append, List.cons_append,
      executeInstruction_prefixed ⟨true, dst.high, x, b⟩ (by decide)]
    rw [length_prefixed] at xor
    exact congrArg (Executed.keeping kernel) xor
  | lea x b dst disp =>
    have load := @executeLea_behind cpu pc [Rex.byte ⟨true, dst.high, x, b⟩, 0x8D] rest
      ⟨true, dst.high, x, b⟩ dst rfl disp
    rw [List.cons_append, List.cons_append,
      executeInstruction_prefixed ⟨true, dst.high, x, b⟩ (by decide)]
    exact congrArg (Executed.keeping kernel) load

/-- On every supported encoding the interpreter does what the architecture defines, to registers,
memory and the program counter, exactly when the word that the operation accesses, if there is one,
is at a multiple of 8. -/
theorem executeInstruction_agrees_iff {κ : Type} (syscall : SyscallEffect κ) (kernel : κ)
    (cpu : Cpu) (pc : BitVec 64) {code bytes : List UInt8} {operation : Operation}
    (encodes : Encodes operation bytes) (starts : bytes <+: code)
    (returns : operation = .ret → cpu.top ≠ 0) :
    executeInstruction syscall kernel cpu pc code =
        .ok (some (operation.step (pcAdd pc bytes.length) cpu).1,
          (operation.step (pcAdd pc bytes.length) cpu).2, kernel) ↔
      operation.Aligned (pcAdd pc bytes.length) cpu := by
  rw [executeInstruction_encodes syscall kernel cpu pc encodes starts returns, finishes_eq_ok]
  exact and_iff_left rfl

/-- A kernel that answers every system call with success, and does nothing else. -/
def succeeds : SyscallEffect Unit := fun _ _ memory kernel => .ok (.success, memory, kernel)

/-- `xor r9, [rip + 9]` in a window of fifteen bytes accesses the word at 0x1010. -/
theorem executeInstruction_agrees_iff_xor :
    executeInstruction succeeds () ⟨fun _ => 5, ⟨fun _ => 0, []⟩⟩ 0x1000
        [0x4C, 0x33, 0x0D, 0x09, 0, 0, 0, 0, 0, 0, 0, 0, 0, 0, 0] =
      .ok (some 0x1007, (Operation.xorFrom .r9 (.ripRelative 9)).step 0x1007
        ⟨fun _ => 5, ⟨fun _ => 0, []⟩⟩ |>.2, ()) := by
  have encodes := Encodes.xorFrom false false .r9 (.ripRelative 9) trivial
  refine (executeInstruction_agrees_iff succeeds () ⟨fun _ => 5, ⟨fun _ => 0, []⟩⟩ 0x1000 encodes
    ⟨[0, 0, 0, 0, 0, 0, 0, 0], by decide⟩ fun same => nomatch same).mpr ?_
  rintro address ⟨⟩
  decide

/-- `ret` with a stack pointer that is odd should go to the address on the stack. The interpreter
refuses to read it. -/
theorem executeInstruction_agrees_counterexample :
    (Cpu.mk (fun _ => 0x8001) ⟨fun _ => 1, []⟩).top ≠ 0 ∧
      executeInstruction succeeds () ⟨fun _ => 0x8001, ⟨fun _ => 1, []⟩⟩ 0x1000
          [0xC3, 0, 0, 0, 0, 0, 0, 0, 0, 0, 0, 0, 0, 0, 0] = .error (.misaligned 0x8001) :=
  ⟨by decide, rfl⟩

end Aperture.Win32
