import Aperture.Machine.Bytes
import Aperture.Machine.Cpu

/-!
# Encodings of x86-64 instructions

A part of the architecture's instruction set with 64-bit operands: the operations, what each
does to registers and memory, and the byte strings that encode it. A REX prefix carries the
operand size and the high bits of register numbers; bits that an encoding does not use may
have any value. Flags are left out.
-/

namespace Aperture.Machine

namespace Register

/-- The registers in the order of their numbers. -/
def all : List Register :=
  [.rax, .rcx, .rdx, .rbx, .rsp, .rbp, .rsi, .rdi, .r8, .r9, .r10, .r11, .r12, .r13, .r14, .r15]

/-- The number of a register. -/
def number (r : Register) : Nat := all.idxOf r

/-- The register of a number. -/
def ofNumber (number : Nat) : Register := all.getD number .r15

/-- The three bits of a register's number that an instruction byte holds. -/
def low (r : Register) : UInt8 := UInt8.ofNat (r.number % 8)

/-- The bit of a register's number that a prefix holds. -/
def high (r : Register) : Bool := decide (8 ≤ r.number)

end Register

/-- A REX prefix. -/
structure Rex where
  /-- 64-bit operands. -/
  w : Bool
  /-- High bit of the register field. -/
  r : Bool
  /-- High bit of an index register. -/
  x : Bool
  /-- High bit of the operand's register. -/
  b : Bool
  deriving DecidableEq, Repr

namespace Rex

/-- The prefix byte. -/
def byte (rex : Rex) : UInt8 :=
  0x40 + (if rex.w then 8 else 0) + (if rex.r then 4 else 0) + (if rex.x then 2 else 0) +
    (if rex.b then 1 else 0)

/-- An optional prefix. -/
def optional (rex : Option Rex) : List UInt8 := (rex.map byte).toList

end Rex

/-- An operand given by a ModRM byte. -/
inductive Rm where
  /-- A register. -/
  | register (r : Register)
  /-- The word at the address in a register. -/
  | indirect (base : Register)
  /-- The word at a distance from the next instruction. -/
  | ripRelative (disp : BitVec 32)
  deriving DecidableEq, Repr

namespace Rm

/-- The ModRM byte with what follows it, for a register field. -/
def bytes (field : UInt8) : Rm → List UInt8
  | register r => [0xC0 + field * 8 + r.low]
  | indirect base => [field * 8 + base.low]
  | ripRelative disp => (field * 8 + 5) :: leBytes 4 disp.toNat

/-- What the operand asks of REX.B, and which base registers have an encoding without further
bytes: numbers 4 and 5 are taken for other forms. -/
def Extends (b : Bool) : Rm → Prop
  | register r => b = r.high
  | indirect base => b = base.high ∧ base.low ≠ 4 ∧ base.low ≠ 5
  | ripRelative _ => True

/-- The address of an operand in memory. -/
def address (rm : Rm) (next : BitVec 64) (cpu : Cpu) : Option (BitVec 64) :=
  match rm with
  | register _ => none
  | indirect base => some (cpu.regs base)
  | ripRelative disp => some (next + disp.signExtend 64)

/-- The value of an operand. -/
def read (rm : Rm) (next : BitVec 64) (cpu : Cpu) : BitVec 64 :=
  match rm with
  | register r => cpu.regs r
  | indirect base => cpu.memory.load64 (cpu.regs base)
  | ripRelative disp => cpu.memory.load64 (next + disp.signExtend 64)

/-- Writing an operand. -/
def write (rm : Rm) (next : BitVec 64) (cpu : Cpu) (value : BitVec 64) : Cpu :=
  match rm with
  | register r => cpu.set r value
  | indirect base => { cpu with memory := cpu.memory.store64 (cpu.regs base) value }
  | ripRelative disp =>
    { cpu with memory := cpu.memory.store64 (next + disp.signExtend 64) value }

end Rm

/-- Operations. -/
inductive Operation where
  /-- `jmp`, relative to the next instruction. -/
  | jmp (offset : BitVec 64)
  /-- `call`, relative to the next instruction. -/
  | call (offset : BitVec 64)
  /-- `ret`. -/
  | ret
  /-- `nop`. -/
  | nop
  /-- `mov` of a constant. -/
  | mov (dst : Rm) (value : BitVec 64)
  /-- `xor` into an operand. -/
  | xorInto (dst : Rm) (src : Register)
  /-- `xor` from an operand. -/
  | xorFrom (dst : Register) (src : Rm)
  /-- `lea` of an address relative to the next instruction. -/
  | lea (dst : Register) (disp : BitVec 32)
  deriving DecidableEq, Repr

/-- What an operation does, given the address of the next instruction: where control goes, and
registers and memory after it. -/
def Operation.step (next : BitVec 64) (cpu : Cpu) : Operation → BitVec 64 × Cpu
  | .jmp offset => (next + offset, cpu)
  | .call offset => (next + offset, cpu.pushWord next)
  | .ret => (cpu.top, cpu.dropWord)
  | .nop => (next, cpu)
  | .mov dst value => (next, dst.write next cpu value)
  | .xorInto dst src => (next, dst.write next cpu (dst.read next cpu ^^^ cpu.regs src))
  | .xorFrom dst src => (next, cpu.set dst (cpu.regs dst ^^^ src.read next cpu))
  | .lea dst disp => (next, cpu.set dst (next + disp.signExtend 64))

/-- The address of the word in memory that an operation reads or writes, if there is one. -/
def Operation.access (next : BitVec 64) (cpu : Cpu) : Operation → Option (BitVec 64)
  | .jmp _ => none
  | .call _ => some (cpu.regs .rsp - 8)
  | .ret => some (cpu.regs .rsp)
  | .nop => none
  | .mov dst _ => dst.address next cpu
  | .xorInto dst _ => dst.address next cpu
  | .xorFrom _ src => src.address next cpu
  | .lea _ _ => none

/-- It is a multiple of 8. The architecture does not ask for this. -/
def Operation.Aligned (next : BitVec 64) (cpu : Cpu) (operation : Operation) : Prop :=
  ∀ address ∈ operation.access next cpu, address.toNat % 8 = 0

/-- Byte strings that encode operations. -/
inductive Encodes : Operation → List UInt8 → Prop
  /-- `EB cb`. -/
  | jmpRel8 (rex : Option Rex) (offset : BitVec 8) :
      Encodes (.jmp (offset.signExtend 64)) (Rex.optional rex ++ 0xEB :: leBytes 1 offset.toNat)
  /-- `E9 cd`. -/
  | jmpRel32 (rex : Option Rex) (offset : BitVec 32) :
      Encodes (.jmp (offset.signExtend 64)) (Rex.optional rex ++ 0xE9 :: leBytes 4 offset.toNat)
  /-- `E8 cd`. -/
  | callRel32 (rex : Option Rex) (offset : BitVec 32) :
      Encodes (.call (offset.signExtend 64)) (Rex.optional rex ++ 0xE8 :: leBytes 4 offset.toNat)
  /-- `C3`. -/
  | ret (rex : Option Rex) : Encodes .ret (Rex.optional rex ++ [0xC3])
  /-- `90`, without a prefix. -/
  | nop : Encodes .nop [0x90]
  /-- `REX.W B8+r io`. -/
  | movImm64 (r x : Bool) (dst : Register) (value : BitVec 64) :
      Encodes (.mov (.register dst) value)
        (Rex.byte ⟨true, r, x, dst.high⟩ :: (0xB8 + dst.low) :: leBytes 8 value.toNat)
  /-- `REX.W C7 /0 id`, to a register or to the address in one. -/
  | movImm32 (r x b : Bool) (dst : Rm) (extend : dst.Extends b) (near : ∀ disp, dst ≠ .ripRelative disp)
      (value : BitVec 32) :
      Encodes (.mov dst (value.signExtend 64))
        (Rex.byte ⟨true, r, x, b⟩ :: 0xC7 :: (dst.bytes 0 ++ leBytes 4 value.toNat))
  /-- `REX.W 31 /r`. -/
  | xorInto (x b : Bool) (dst : Rm) (extend : dst.Extends b) (src : Register) :
      Encodes (.xorInto dst src) (Rex.byte ⟨true, src.high, x, b⟩ :: 0x31 :: dst.bytes src.low)
  /-- `REX.W 33 /r`. -/
  | xorFrom (x b : Bool) (dst : Register) (src : Rm) (extend : src.Extends b) :
      Encodes (.xorFrom dst src) (Rex.byte ⟨true, dst.high, x, b⟩ :: 0x33 :: src.bytes dst.low)
  /-- `REX.W 8D /r` with an address relative to the next instruction. -/
  | lea (x b : Bool) (dst : Register) (disp : BitVec 32) :
      Encodes (.lea dst disp)
        (Rex.byte ⟨true, dst.high, x, b⟩ :: 0x8D :: (Rm.ripRelative disp).bytes dst.low)

end Aperture.Machine
