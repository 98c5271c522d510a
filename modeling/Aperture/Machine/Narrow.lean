import Aperture.Machine.Encoding

/-!
# 32-bit operands

Without REX.W the data instructions work on 32 bits: a register they write gets its upper half
cleared, and a memory operand has four bytes. Words fall into two halves, in registers and in
memory, so where a 64-bit operation has the same effect is a matter of upper halves.
-/

namespace Aperture.Machine

/-! ## Halves of words -/

/-- The lower 32 bits. -/
def lowHalf (word : BitVec 64) : BitVec 32 := word.setWidth 32

/-- The upper 32 bits. -/
def highHalf (word : BitVec 64) : BitVec 32 := word.extractLsb' 32 32

/-- Value of the lower half. -/
theorem toNat_lowHalf (word : BitVec 64) : (lowHalf word).toNat = word.toNat % 2 ^ 32 := by
  rw [lowHalf, BitVec.toNat_setWidth]

/-- Value of the upper half. -/
theorem toNat_highHalf (word : BitVec 64) : (highHalf word).toNat = word.toNat / 2 ^ 32 := by
  have fits := word.isLt
  rw [highHalf, BitVec.extractLsb'_toNat, Nat.shiftRight_eq_div_pow]
  exact Nat.mod_eq_of_lt (by omega)

/-- Words are equal when both halves are. -/
theorem eq_iff_halves {left right : BitVec 64} :
    left = right ↔ lowHalf left = lowHalf right ∧ highHalf left = highHalf right := by
  constructor
  · rintro rfl
    exact ⟨rfl, rfl⟩
  · rintro ⟨low, high⟩
    have lower := congrArg BitVec.toNat low
    have upper := congrArg BitVec.toNat high
    rw [toNat_lowHalf, toNat_lowHalf] at lower
    rw [toNat_highHalf, toNat_highHalf] at upper
    apply BitVec.eq_of_toNat_eq
    omega

/-- A zero-extended number is its own lower half. -/
@[simp]
theorem lowHalf_setWidth (value : BitVec 32) : lowHalf (value.setWidth 64) = value := by
  rw [lowHalf, BitVec.setWidth_setWidth_of_le _ (by decide), BitVec.setWidth_eq]

/-- Its upper half is zero. -/
@[simp]
theorem highHalf_setWidth (value : BitVec 32) : highHalf (value.setWidth 64) = 0 := by
  have fits := value.isLt
  apply BitVec.eq_of_toNat_eq
  rw [toNat_highHalf, BitVec.toNat_setWidth]
  exact Nat.div_eq_of_lt (by omega)

/-- A sign-extended number is its own lower half. -/
@[simp]
theorem lowHalf_signExtend (value : BitVec 32) : lowHalf (value.signExtend 64) = value := by
  ext i inside
  simp [lowHalf, BitVec.getElem_signExtend, inside, Nat.lt_trans inside]

/-- Its upper half repeats the sign. -/
theorem highHalf_signExtend (value : BitVec 32) :
    highHalf (value.signExtend 64) = if value.msb then BitVec.allOnes 32 else 0 := by
  ext i inside
  cases sign : value.msb with
  | false => simp [highHalf, BitVec.getLsbD_signExtend, sign]
  | true =>
    rw [if_pos rfl, BitVec.getElem_allOnes]
    simp only [highHalf, BitVec.getElem_extractLsb', BitVec.getLsbD_signExtend, sign]
    simpa using by omega

/-- So it is zero when the number is not negative. -/
theorem highHalf_signExtend_eq_zero {value : BitVec 32} :
    highHalf (value.signExtend 64) = 0 ↔ value.msb = false := by
  rw [highHalf_signExtend]
  cases value.msb <;> decide

/-- Lower half of an exclusive or. -/
@[simp]
theorem lowHalf_xor (left right : BitVec 64) :
    lowHalf (left ^^^ right) = lowHalf left ^^^ lowHalf right :=
  BitVec.setWidth_xor

/-- Upper half of an exclusive or. -/
@[simp]
theorem highHalf_xor (left right : BitVec 64) :
    highHalf (left ^^^ right) = highHalf left ^^^ highHalf right := by
  simp only [highHalf, BitVec.extractLsb'_xor]

/-- A word is the zero extension of a number exactly when that is its lower half and its upper half
is zero. -/
theorem eq_setWidth_iff {word : BitVec 64} {value : BitVec 32} :
    word = value.setWidth 64 ↔ lowHalf word = value ∧ highHalf word = 0 := by
  rw [eq_iff_halves, lowHalf_setWidth, highHalf_setWidth]

/-! ## Halves of memory words -/

namespace PhysMem

variable {left right : PhysMem}

/-- Read four bytes. -/
def load32 (memory : PhysMem) (address : Nat) : BitVec 32 :=
  BitVec.ofNat 32 ((memory.byte address).toNat + 2 ^ 8 * (memory.byte (address + 1)).toNat +
    2 ^ 16 * (memory.byte (address + 2)).toNat + 2 ^ 24 * (memory.byte (address + 3)).toNat)

/-- Write four bytes. -/
def store32 (memory : PhysMem) (address : Nat) (value : BitVec 32) : PhysMem :=
  memory.store ⟨address, 4⟩ fun offset => UInt8.ofNat (value.toNat / 2 ^ (8 * offset))

/-- Four bytes are read equal exactly when each is. -/
theorem load32_eq_iff {address : Nat} :
    left.load32 address = right.load32 address ↔
      ∀ offset < 4, left.byte (address + offset) = right.byte (address + offset) := by
  constructor
  · intro same
    have number := congrArg BitVec.toNat same
    simp only [load32, BitVec.toNat_ofNat] at number
    have l0 := (left.byte address).toNat_lt
    have l1 := (left.byte (address + 1)).toNat_lt
    have l2 := (left.byte (address + 2)).toNat_lt
    have l3 := (left.byte (address + 3)).toNat_lt
    have r0 := (right.byte address).toNat_lt
    have r1 := (right.byte (address + 1)).toNat_lt
    have r2 := (right.byte (address + 2)).toNat_lt
    have r3 := (right.byte (address + 3)).toNat_lt
    intro offset inside
    apply UInt8.toNat_inj.mp
    interval_cases offset
    · exact (by omega : (left.byte address).toNat = (right.byte address).toNat)
    · omega
    · omega
    · omega
  · intro same
    have first : left.byte address = right.byte address := same 0 (by decide)
    simp only [load32, first, same 1 (by decide), same 2 (by decide), same 3 (by decide)]

/-- The halves of a word are its first and its last four bytes. -/
theorem halves_load64 (memory : PhysMem) (address : BitVec 64) :
    lowHalf (memory.load64 address) = memory.load32 address.toNat ∧
      highHalf (memory.load64 address) = memory.load32 (address.toNat + 4) := by
  have fits := memory.readU64_lt address.toNat
  have b0 := (memory.byte address.toNat).toNat_lt
  have b1 := (memory.byte (address.toNat + 1)).toNat_lt
  have b2 := (memory.byte (address.toNat + 2)).toNat_lt
  have b3 := (memory.byte (address.toNat + 3)).toNat_lt
  have word : (memory.load64 address).toNat = memory.readU64 address.toNat := by
    rw [load64, BitVec.toNat_ofNat]
    exact Nat.mod_eq_of_lt fits
  constructor
  · apply BitVec.eq_of_toNat_eq
    rw [toNat_lowHalf, word, load32, BitVec.toNat_ofNat, readU64]
    omega
  · apply BitVec.eq_of_toNat_eq
    rw [toNat_highHalf, word, load32, BitVec.toNat_ofNat, readU64]
    unfold readU64 wordSize at fits
    simp only [Nat.add_assoc, Nat.reduceAdd]
    omega

/-- Four written bytes read back. -/
@[simp]
theorem load32_store32 (memory : PhysMem) (address : Nat) (value : BitVec 32) :
    (memory.store32 address value).load32 address = value := by
  have written (offset : Nat) (inside : offset < 4) :
      ((memory.store32 address value).byte (address + offset)).toNat =
        value.toNat / 2 ^ (8 * offset) % 2 ^ 8 := by
    rw [store32, store_byte_inside _ _ (Span.mem_iff.mpr ⟨by simp, by simpa using inside⟩)]
    simp
  have first : ((memory.store32 address value).byte address).toNat = value.toNat % 2 ^ 8 := by
    simpa using written 0 (by decide)
  have fits := value.isLt
  apply BitVec.eq_of_toNat_eq
  rw [load32, BitVec.toNat_ofNat, first, written 1 (by decide), written 2 (by decide),
    written 3 (by decide)]
  omega

/-- Four bytes written elsewhere do not change four bytes. -/
theorem load32_store32_separate (memory : PhysMem) {address other : Nat} (value : BitVec 32)
    (apart : other + 4 ≤ address ∨ address + 4 ≤ other) :
    (memory.store32 address value).load32 other = memory.load32 other := by
  apply load32_eq_iff.mpr
  intro offset inside
  rw [store32, store_byte_outside]
  rw [Span.mem_iff]
  simp only
  omega

/-- Memories that differ at most in some groups of four bytes are equal when these groups are. -/
theorem same_iff_groups (groups : List Nat)
    (outside : ∀ a, (∀ group ∈ groups, a ∉ Span.mk group 4) → left.byte a = right.byte a) :
    left.byte = right.byte ↔ ∀ group ∈ groups, left.load32 group = right.load32 group := by
  constructor
  · intro same group _
    exact load32_eq_iff.mpr fun offset _ => congrFun same _
  · intro same
    funext a
    by_cases inside : ∃ group ∈ groups, a ∈ Span.mk group 4
    · obtain ⟨group, member, first, last⟩ := inside
      simp only at first last
      have equal := load32_eq_iff.mp (same group member) (a - group) (by omega)
      rwa [Nat.add_sub_cancel' first] at equal
    · push Not at inside
      exact outside a inside

/-- Writing a word and writing four bytes differ at most in the word's halves and in these bytes. -/
theorem store64_same_iff (memory : PhysMem) (address word : BitVec 64) (other : Nat)
    (value : BitVec 32) :
    (memory.store64 address word).byte = (memory.store32 other value).byte ↔
      lowHalf word = (memory.store32 other value).load32 address.toNat ∧
        highHalf word = (memory.store32 other value).load32 (address.toNat + 4) ∧
        (memory.store64 address word).load32 other = value := by
  have halves := (memory.store64 address word).halves_load64 address
  rw [load64_store64] at halves
  have outside : ∀ a, (∀ group ∈ [address.toNat, address.toNat + 4, other], a ∉ Span.mk group 4) →
      (memory.store64 address word).byte a = (memory.store32 other value).byte a := by
    intro a apart
    simp only [List.forall_mem_cons, Span.mem_iff] at apart
    rw [store64, writeU64, store32, store_byte_outside, store_byte_outside]
    · exact apart.2.2.1
    · rw [Span.mem_iff]
      simp only
      omega
  rw [same_iff_groups _ outside, List.forall_mem_cons, List.forall_mem_cons,
    List.forall_mem_singleton, ← halves.1, ← halves.2, load32_store32]

/-- At one address they are the same when the word's lower half is written and its upper half was
there. -/
theorem store64_same_start (memory : PhysMem) (address word : BitVec 64) (value : BitVec 32) :
    (memory.store64 address word).byte = (memory.store32 address.toNat value).byte ↔
      lowHalf word = value ∧ highHalf word = highHalf (memory.load64 address) := by
  have halves := (memory.store64 address word).halves_load64 address
  rw [load64_store64] at halves
  rw [store64_same_iff, load32_store32, load32_store32_separate _ _ (by omega), ← halves.1,
    (memory.halves_load64 address).2]
  constructor
  · rintro ⟨low, high, _⟩
    exact ⟨low, high⟩
  · rintro ⟨low, high⟩
    exact ⟨low, high, low⟩

/-- With the four bytes in the word's upper half they are the same when these are written and the
lower half was there. -/
theorem store64_same_end (memory : PhysMem) (address word : BitVec 64) (value : BitVec 32) :
    (memory.store64 address word).byte = (memory.store32 (address.toNat + 4) value).byte ↔
      highHalf word = value ∧ lowHalf word = memory.load32 address.toNat := by
  have halves := (memory.store64 address word).halves_load64 address
  rw [load64_store64] at halves
  rw [store64_same_iff, load32_store32, load32_store32_separate _ _ (by omega), ← halves.2]
  constructor
  · rintro ⟨low, high, _⟩
    exact ⟨high, low⟩
  · rintro ⟨high, low⟩
    exact ⟨low, high, high⟩

/-- Apart from each other they are the same when both were there. -/
theorem store64_same_apart (memory : PhysMem) {address : BitVec 64} (word : BitVec 64) {other : Nat}
    (value : BitVec 32) (apart : other + 4 ≤ address.toNat ∨ address.toNat + 8 ≤ other) :
    (memory.store64 address word).byte = (memory.store32 other value).byte ↔
      word = memory.load64 address ∧ memory.load32 other = value := by
  have untouched : (memory.store64 address word).load32 other = memory.load32 other := by
    apply load32_eq_iff.mpr
    intro offset inside
    rw [store64, writeU64, store_byte_outside]
    rw [Span.mem_iff]
    simp only
    omega
  rw [store64_same_iff, load32_store32_separate _ _ (by omega),
    load32_store32_separate _ _ (by omega), untouched, eq_iff_halves,
    (memory.halves_load64 address).1, (memory.halves_load64 address).2, and_assoc]

end PhysMem

/-- Registers and memory have the same contents. -/
def Cpu.Same (left right : Cpu) : Prop :=
  left.regs = right.regs ∧ left.memory.byte = right.memory.byte

/-! ## Data instructions -/

/-- The bits of an optional prefix. -/
def Rex.bits (rex : Option Rex) : Rex := rex.getD ⟨false, false, false, false⟩

namespace Rm

/-- The value of a 32-bit operand. -/
def read32 (rm : Rm) (next : BitVec 64) (cpu : Cpu) : BitVec 32 :=
  match rm with
  | register r => lowHalf (cpu.regs r)
  | indirect base => cpu.memory.load32 (cpu.regs base).toNat
  | ripRelative disp => cpu.memory.load32 (next + disp.signExtend 64).toNat

/-- Writing a 32-bit operand clears the upper half of a register, and leaves all other memory. -/
def write32 (rm : Rm) (next : BitVec 64) (cpu : Cpu) (value : BitVec 32) : Cpu :=
  match rm with
  | register r => cpu.set r (value.setWidth 64)
  | indirect base => { cpu with memory := cpu.memory.store32 (cpu.regs base).toNat value }
  | ripRelative disp =>
    { cpu with memory := cpu.memory.store32 (next + disp.signExtend 64).toNat value }

/-- The displacement of an operand relative to the next instruction. -/
def displacement : Rm → Option (BitVec 32)
  | register _ => none
  | indirect _ => none
  | ripRelative disp => some disp

/-- Only such an operand has one. -/
theorem eq_ripRelative {rm : Rm} {disp : BitVec 32} (relative : rm.displacement = some disp) :
    rm = .ripRelative disp := by
  cases rm with
  | register r => cases relative
  | indirect base => cases relative
  | ripRelative other =>
    cases relative
    rfl

end Rm

/-- Instructions on data that are encoded alike for both operand sizes. -/
inductive DataInstruction where
  /-- `B8+r id`, which has four bytes of constant without REX.W only. -/
  | movReg (dst : Register) (value : BitVec 32)
  /-- `C7 /0 id`. -/
  | movRm (dst : Rm) (value : BitVec 32)
  /-- `31 /r`. -/
  | xorInto (dst : Rm) (src : Register)
  /-- `33 /r`. -/
  | xorFrom (dst : Register) (src : Rm)
  /-- `8D /r`, of an address relative to the next instruction. -/
  | lea (dst : Register) (disp : BitVec 32)
  deriving DecidableEq, Repr

namespace DataInstruction

/-- The opcode and what follows it. -/
def bytes : DataInstruction → List UInt8
  | movReg dst value => (0xB8 + dst.low) :: leBytes 4 value.toNat
  | movRm dst value => 0xC7 :: (dst.bytes 0 ++ leBytes 4 value.toNat)
  | xorInto dst src => 0x31 :: dst.bytes src.low
  | xorFrom dst src => 0x33 :: src.bytes dst.low
  | lea dst disp => 0x8D :: (Rm.ripRelative disp).bytes dst.low

/-- The instruction behind an optional prefix. -/
def encoding (rex : Option Rex) (instruction : DataInstruction) : List UInt8 :=
  Rex.optional rex ++ instruction.bytes

/-- What an instruction asks of its prefix bits. -/
def Extends (rex : Rex) : DataInstruction → Prop
  | movReg dst _ => rex.w = false ∧ rex.b = dst.high
  | movRm dst _ => dst.Extends rex.b
  | xorInto dst src => dst.Extends rex.b ∧ rex.r = src.high
  | xorFrom dst src => src.Extends rex.b ∧ rex.r = dst.high
  | lea dst _ => rex.r = dst.high

/-- What an instruction does to 32-bit operands, given the address of the next one. -/
def step32 (next : BitVec 64) (cpu : Cpu) : DataInstruction → Cpu
  | movReg dst value => cpu.set dst (value.setWidth 64)
  | movRm dst value => dst.write32 next cpu value
  | xorInto dst src =>
    dst.write32 next cpu (dst.read32 next cpu ^^^ lowHalf (cpu.regs src))
  | xorFrom dst src =>
    cpu.set dst ((lowHalf (cpu.regs dst) ^^^ src.read32 next cpu).setWidth 64)
  | lea dst disp => cpu.set dst ((lowHalf (next + disp.signExtend 64)).setWidth 64)

/-- The displacement of an operand relative to the next instruction. -/
def displacement : DataInstruction → Option (BitVec 32)
  | movReg _ _ => none
  | movRm dst _ => dst.displacement
  | xorInto dst _ => dst.displacement
  | xorFrom _ src => src.displacement
  | lea _ disp => some disp

end DataInstruction

end Aperture.Machine
