import Aperture.Machine.BitFields
import Aperture.Machine.Bytes

/-!
# The AArch64 decoder

`decode` compares masked opcodes one after another. Each mask leaves one class of encodings, named
by some of its fields, and the classes are apart; so every instruction of the architecture is
decoded as what it is. Three masks leave more in their class than the instruction they are for.
-/

namespace Aperture.Aarch64Decode

open Machine

/-- `Instruction`. -/
inductive Instruction where
  /-- No-operation. -/
  | nop
  /-- Return to the link register. -/
  | ret
  /-- Supervisor call. -/
  | svc (imm : BitVec 16)
  /-- Branch with link. -/
  | bl (offset : BitVec 64)
  /-- Move a constant into a register, optionally shifted. -/
  | movz (reg : BitVec 8) (imm : BitVec 16) (shift : BitVec 8)
  /-- Compute a page address. -/
  | adrp (reg : BitVec 8) (offset : BitVec 64)
  /-- Any other instruction. -/
  | unsupported
  deriving DecidableEq, Repr

/-- Decode a single opcode. -/
def decode (opcode : BitVec 32) : Instruction :=
  if opcode = 0xD503201F then .nop
  else if opcode &&& 0xFFFFFC00 = 0xD65F0000 then .ret
  else if opcode &&& 0xFFE00000 = 0xD4000000 then
    let imm := ((opcode >>> 5) &&& 0xFFFF).setWidth 16
    .svc imm
  else if opcode &&& 0xFC000000 = 0x94000000 then
    let imm26 := opcode &&& 0x03FFFFFF
    let signed := (imm26 <<< 6).sshiftRight 6
    let offset := signed.signExtend 64 * 4
    .bl offset
  else if opcode &&& 0x7F800000 = 0x52800000 then
    let reg := (opcode &&& 0x1F).setWidth 8
    let imm := ((opcode >>> 5) &&& 0xFFFF).setWidth 16
    let shift := ((opcode >>> 21) &&& 0x3).setWidth 8 * 16
    .movz reg imm shift
  else if opcode &&& 0x9F000000 = 0x90000000 then
    let reg := (opcode &&& 0x1F).setWidth 8
    let immlo := ((opcode >>> 29) &&& 0x3).setWidth 64
    let immhi := ((opcode >>> 5) &&& 0x7FFFF).setWidth 64
    let imm21 := (immhi <<< 2) ||| immlo
    let imm21Signed :=
      if imm21 &&& (1#64 <<< 20) ≠ 0 then imm21 ||| ~~~((1#64 <<< 21) - 1) else imm21
    let offset := imm21Signed * 4096
    .adrp reg offset
  else .unsupported

/-- The match on the decoded instruction. -/
def nextPc (pc : BitVec 64) : Instruction → Option (BitVec 64)
  | .nop => some (pc + 4)
  | .ret => some (pc + 4)
  | .bl offset => some (pc + 4 + offset)
  | .svc _ => some (pc + 4)
  | .movz _ _ _ => some (pc + 4)
  | .adrp _ _ => some (pc + 4)
  | .unsupported => none

/-- Decode the instruction at an address of the code and give the next address. -/
def step (pc : BitVec 64) (code : List UInt8) : Except Panic (Option (BitVec 64)) := do
  let start := pc.toNat
  let last ← add64 start 4
  if code.length < last then return none
  else do
    let bytes ← slice code start (start + 4)
    let instr := decode (BitVec.ofNat 32 (leNat bytes))
    return nextPc pc instr

/-! ## The architecture -/

/-- The instructions the decoder is for, with their operands. -/
inductive ArmInstruction where
  /-- `NOP`. -/
  | nop
  /-- `RET Rn`. -/
  | ret (rn : BitVec 5)
  /-- `SVC #imm16`. -/
  | svc (imm16 : BitVec 16)
  /-- `BL`, with an offset in words. -/
  | bl (imm26 : BitVec 26)
  /-- `MOVZ Wd, #imm16, LSL #(16 * hw)`. -/
  | movz32 (hw : BitVec 1) (imm16 : BitVec 16) (rd : BitVec 5)
  /-- `MOVZ Xd, #imm16, LSL #(16 * hw)`. -/
  | movz64 (hw : BitVec 2) (imm16 : BitVec 16) (rd : BitVec 5)
  /-- `ADRP Xd`, with an offset in pages. -/
  | adrp (imm21 : BitVec 21) (rd : BitVec 5)
  deriving DecidableEq, Repr

namespace ArmInstruction

/-- The encoding of an instruction, field by field. -/
def encode : ArmInstruction → BitVec 32
  | nop => 0xD503201F
  | ret rn => (0b1101011001011111000000 : BitVec 22) ++ rn ++ (0b00000 : BitVec 5)
  | svc imm16 => (0b11010100000 : BitVec 11) ++ imm16 ++ (0b00001 : BitVec 5)
  | bl imm26 => (0b100101 : BitVec 6) ++ imm26
  | movz32 hw imm16 rd => (0b0101001010 : BitVec 10) ++ hw ++ imm16 ++ rd
  | movz64 hw imm16 rd => (0b110100101 : BitVec 9) ++ hw ++ imm16 ++ rd
  | adrp imm21 rd =>
    (0b1 : BitVec 1) ++ imm21.extractLsb' 0 2 ++ (0b10000 : BitVec 5) ++
      imm21.extractLsb' 2 19 ++ rd

/-- What the decoder is to say of an instruction: the operands that `Instruction` has room for, with
offsets in bytes. -/
def view : ArmInstruction → Instruction
  | nop => .nop
  | ret _ => .ret
  | svc imm16 => .svc imm16
  | bl imm26 => .bl (imm26.signExtend 64 * 4)
  | movz32 hw imm16 rd => .movz (rd.setWidth 8) imm16 (hw.setWidth 8 * 16)
  | movz64 hw imm16 rd => .movz (rd.setWidth 8) imm16 (hw.setWidth 8 * 16)
  | adrp imm21 rd => .adrp (rd.setWidth 8) (imm21.signExtend 64 * 4096)

end ArmInstruction

/-! ## Classes -/

section Classes

variable {opcode : BitVec 32}

/-- The mask of `RET`. -/
theorem ret_iff : opcode &&& 0xFFFFFC00 = 0xD65F0000 ↔ bits opcode 10 22 = 0x3597C0 :=
  @and_mask_eq_iff 32 opcode 10 22 0x3597C0 (by decide) (by decide)

/-- The mask of `SVC`. -/
theorem svc_iff : opcode &&& 0xFFE00000 = 0xD4000000 ↔ bits opcode 21 11 = 0x6A0 :=
  @and_mask_eq_iff 32 opcode 21 11 0x6A0 (by decide) (by decide)

/-- The mask of `BL`. -/
theorem bl_iff : opcode &&& 0xFC000000 = 0x94000000 ↔ bits opcode 26 6 = 0x25 :=
  @and_mask_eq_iff 32 opcode 26 6 0x25 (by decide) (by decide)

/-- The mask of `MOVZ`. -/
theorem movz_iff : opcode &&& 0x7F800000 = 0x52800000 ↔ bits opcode 23 8 = 0xA5 :=
  @and_mask_eq_iff 32 opcode 23 8 0xA5 (by decide) (by decide)

/-- The mask of `ADRP`. -/
theorem adrp_iff :
    opcode &&& 0x9F000000 = 0x90000000 ↔ bits opcode 31 1 = 1 ∧ bits opcode 24 5 = 0x10 := by
  have mask : (0x9F000000 : BitVec 32).toNat = (2 ^ 1 - 1) * 2 ^ 31 + (2 ^ 5 - 1) * 2 ^ 24 := by
    decide
  have value : (0x90000000 : BitVec 32).toNat = 1 * 2 ^ 31 + 0x10 * 2 ^ 24 := by decide
  rw [← BitVec.toNat_inj, BitVec.toNat_and, mask, value, and_fields _ (by decide), and_field]
  unfold bits
  omega

/-- `NOP`. -/
theorem decode_nop : decode 0xD503201F = .nop := rfl

/-- The class of `RET`. -/
theorem decode_ret (isRet : bits opcode 10 22 = 0x3597C0) : decode opcode = .ret := by
  have notNop : opcode ≠ 0xD503201F := by
    rintro rfl
    exact absurd isRet (by decide)
  rw [decode, if_neg notNop, if_pos (ret_iff.mpr isRet)]

/-- The bits of a constant of 16 bits. -/
theorem imm16_eq (opcode : BitVec 32) :
    ((opcode >>> 5) &&& 0xFFFF).setWidth 16 = opcode.extractLsb' 5 16 := by
  rw [← BitVec.setWidth_eq (opcode.extractLsb' 5 16)]
  exact shift_and_setWidth opcode 5 16 16

/-- The bits of a register. -/
theorem reg_eq (opcode : BitVec 32) :
    (opcode &&& 0x1F).setWidth 8 = (opcode.extractLsb' 0 5).setWidth 8 := by
  have shifted := shift_and_setWidth opcode 0 5 8
  rw [BitVec.ushiftRight_zero] at shifted
  exact shifted

/-- The class of `SVC`. -/
theorem decode_svc (isSvc : bits opcode 21 11 = 0x6A0) :
    decode opcode = .svc (opcode.extractLsb' 5 16) := by
  have notNop : opcode ≠ 0xD503201F := by
    rintro rfl
    exact absurd isSvc (by decide)
  have notRet : ¬ bits opcode 10 22 = 0x3597C0 := by
    unfold bits at *
    omega
  rw [decode, if_neg notNop, if_neg (mt ret_iff.mp notRet), if_pos (svc_iff.mpr isSvc), imm16_eq]

/-- The class of `BL`. -/
theorem decode_bl (isBl : bits opcode 26 6 = 0x25) :
    decode opcode = .bl ((opcode.extractLsb' 0 26).signExtend 64 * 4) := by
  have notNop : opcode ≠ 0xD503201F := by
    rintro rfl
    exact absurd isBl (by decide)
  have apart : ¬ bits opcode 10 22 = 0x3597C0 ∧ ¬ bits opcode 21 11 = 0x6A0 := by
    unfold bits at *
    omega
  have field : (opcode &&& 0x03FFFFFF).setWidth 26 = opcode.extractLsb' 0 26 := by
    have shifted := shift_and_setWidth opcode 0 26 26
    rw [BitVec.ushiftRight_zero, BitVec.setWidth_eq] at shifted
    exact shifted
  have signed : ((opcode &&& 0x03FFFFFF) <<< 6).sshiftRight 6 =
      (opcode.extractLsb' 0 26).signExtend 32 := by
    rw [← field]
    exact @sshiftRight_shiftLeft 26 6 (opcode &&& 0x03FFFFFF)
  rw [decode, if_neg notNop, if_neg (mt ret_iff.mp apart.1), if_neg (mt svc_iff.mp apart.2),
    if_pos (bl_iff.mpr isBl)]
  dsimp only
  rw [signed, signExtend_signExtend _ (by decide) (by decide)]

/-- The class of `MOVZ`. -/
theorem decode_movz (isMovz : bits opcode 23 8 = 0xA5) :
    decode opcode = .movz ((opcode.extractLsb' 0 5).setWidth 8) (opcode.extractLsb' 5 16)
      ((opcode.extractLsb' 21 2).setWidth 8 * 16) := by
  have notNop : opcode ≠ 0xD503201F := by
    rintro rfl
    exact absurd isMovz (by decide)
  have apart : ¬ bits opcode 10 22 = 0x3597C0 ∧ ¬ bits opcode 21 11 = 0x6A0 ∧
      ¬ bits opcode 26 6 = 0x25 := by
    unfold bits at *
    omega
  have shift : ((opcode >>> 21) &&& 0x3).setWidth 8 = (opcode.extractLsb' 21 2).setWidth 8 :=
    shift_and_setWidth opcode 21 2 8
  rw [decode, if_neg notNop, if_neg (mt ret_iff.mp apart.1), if_neg (mt svc_iff.mp apart.2.1),
    if_neg (mt bl_iff.mp apart.2.2), if_pos (movz_iff.mpr isMovz), reg_eq, imm16_eq, shift]

/-- The class of `ADRP`. -/
theorem decode_adrp (isAdrp : bits opcode 31 1 = 1 ∧ bits opcode 24 5 = 0x10) :
    decode opcode = .adrp ((opcode.extractLsb' 0 5).setWidth 8)
      ((opcode.extractLsb' 5 19 ++ opcode.extractLsb' 29 2).signExtend 64 * 4096) := by
  have notNop : opcode ≠ 0xD503201F := by
    rintro rfl
    exact absurd isAdrp (by decide)
  have apart : ¬ bits opcode 10 22 = 0x3597C0 ∧ ¬ bits opcode 21 11 = 0x6A0 ∧
      ¬ bits opcode 26 6 = 0x25 ∧ ¬ bits opcode 23 8 = 0xA5 := by
    unfold bits at *
    omega
  have immlo : ((opcode >>> 29) &&& 0x3).setWidth 64 = (opcode.extractLsb' 29 2).setWidth 64 :=
    shift_and_setWidth opcode 29 2 64
  have immhi : ((opcode >>> 5) &&& 0x7FFFF).setWidth 64 = (opcode.extractLsb' 5 19).setWidth 64 :=
    shift_and_setWidth opcode 5 19 64
  have whole := shiftLeft_or_setWidth (opcode.extractLsb' 5 19) (opcode.extractLsb' 29 2) 64
  have signed := @or_not_mask 20 64 (opcode.extractLsb' 5 19 ++ opcode.extractLsb' 29 2) (by decide)
  rw [decode, if_neg notNop, if_neg (mt ret_iff.mp apart.1), if_neg (mt svc_iff.mp apart.2.1),
    if_neg (mt bl_iff.mp apart.2.2.1), if_neg (mt movz_iff.mp apart.2.2.2),
    if_pos (adrp_iff.mpr isAdrp)]
  dsimp only
  rw [reg_eq, immlo, immhi, whole]
  exact congrArg (fun offset => Instruction.adrp _ (offset * 4096)) signed

/-- Every other opcode is unsupported. -/
theorem decode_other (notNop : opcode ≠ 0xD503201F) (notRet : bits opcode 10 22 ≠ 0x3597C0)
    (notSvc : bits opcode 21 11 ≠ 0x6A0) (notBl : bits opcode 26 6 ≠ 0x25)
    (notMovz : bits opcode 23 8 ≠ 0xA5)
    (notAdrp : ¬ (bits opcode 31 1 = 1 ∧ bits opcode 24 5 = 0x10)) :
    decode opcode = .unsupported := by
  rw [decode, if_neg notNop, if_neg (mt ret_iff.mp notRet), if_neg (mt svc_iff.mp notSvc),
    if_neg (mt bl_iff.mp notBl), if_neg (mt movz_iff.mp notMovz), if_neg (mt adrp_iff.mp notAdrp)]

/-- Only opcodes of its class are decoded as `BL`. -/
theorem bl_of_decode {offset : BitVec 64} (decoded : decode opcode = .bl offset) :
    bits opcode 26 6 = 0x25 := by
  by_contra notBl
  by_cases isNop : opcode = 0xD503201F
  · rw [isNop, decode_nop] at decoded
    cases decoded
  by_cases isRet : bits opcode 10 22 = 0x3597C0
  · exact nomatch (decode_ret isRet).symm.trans decoded
  by_cases isSvc : bits opcode 21 11 = 0x6A0
  · exact nomatch (decode_svc isSvc).symm.trans decoded
  by_cases isMovz : bits opcode 23 8 = 0xA5
  · exact nomatch (decode_movz isMovz).symm.trans decoded
  by_cases isAdrp : bits opcode 31 1 = 1 ∧ bits opcode 24 5 = 0x10
  · exact nomatch (decode_adrp isAdrp).symm.trans decoded
  · exact nomatch (decode_other isNop isRet isSvc notBl isMovz isAdrp).symm.trans decoded

end Classes

/-! ## Encodings -/

namespace ArmInstruction

section Encodings

variable {opcode : BitVec 32}

/-- The number of `RET`. -/
theorem toNat_ret (rn : BitVec 5) :
    (ret rn).encode.toNat = 0x3597C0 * 2 ^ 10 + rn.toNat * 2 ^ 5 := by
  simp only [encode, toNat_append_add, BitVec.reduceToNat]
  omega

/-- The number of `SVC`. -/
theorem toNat_svc (imm16 : BitVec 16) :
    (svc imm16).encode.toNat = 0x6A0 * 2 ^ 21 + imm16.toNat * 2 ^ 5 + 1 := by
  simp only [encode, toNat_append_add, BitVec.reduceToNat]
  omega

/-- The number of `BL`. -/
theorem toNat_bl (imm26 : BitVec 26) : (bl imm26).encode.toNat = 0x25 * 2 ^ 26 + imm26.toNat := by
  simp only [encode, toNat_append_add, BitVec.reduceToNat]

/-- The number of `MOVZ` of 32 bits. -/
theorem toNat_movz32 (hw : BitVec 1) (imm16 : BitVec 16) (rd : BitVec 5) :
    (movz32 hw imm16 rd).encode.toNat =
      0x0A5 * 2 ^ 23 + hw.toNat * 2 ^ 21 + imm16.toNat * 2 ^ 5 + rd.toNat := by
  simp only [encode, toNat_append_add, BitVec.reduceToNat]
  omega

/-- The number of `MOVZ` of 64 bits. -/
theorem toNat_movz64 (hw : BitVec 2) (imm16 : BitVec 16) (rd : BitVec 5) :
    (movz64 hw imm16 rd).encode.toNat =
      0x1A5 * 2 ^ 23 + hw.toNat * 2 ^ 21 + imm16.toNat * 2 ^ 5 + rd.toNat := by
  simp only [encode, toNat_append_add, BitVec.reduceToNat]
  omega

/-- The two parts of a page offset. -/
theorem exists_parts (imm21 : BitVec 21) :
    ∃ high low, imm21.toNat = high * 2 ^ 2 + low ∧ low < 2 ^ 2 ∧ high < 2 ^ 19 := by
  have fits := imm21.isLt
  refine ⟨imm21.toNat / 4, imm21.toNat % 4, ?_, ?_, ?_⟩ <;> omega

/-- The number of `ADRP`, by these. -/
theorem toNat_adrp {imm21 : BitVec 21} (rd : BitVec 5) {high low : Nat}
    (parts : imm21.toNat = high * 2 ^ 2 + low) (small : low < 2 ^ 2) :
    (adrp imm21 rd).encode.toNat =
      1 * 2 ^ 31 + low * 2 ^ 29 + 0x10 * 2 ^ 24 + high * 2 ^ 5 + rd.toNat := by
  have fits := imm21.isLt
  have upper : imm21.toNat / 2 ^ 2 % 2 ^ 19 = high := by omega
  have lower : imm21.toNat / 2 ^ 0 % 2 ^ 2 = low := by omega
  simp only [encode, toNat_append_add, BitVec.reduceToNat, toNat_field, bits, upper, lower]
  omega

end Encodings

end ArmInstruction

/-- `MOVZ` of either width, by its number. -/
theorem decode_movz_number {opcode : BitVec 32} {sf : Nat} {k : Nat} (narrow : k ≤ 2)
    (hw : BitVec k) (imm16 : BitVec 16) (rd : BitVec 5)
    (number : opcode.toNat = (sf * 2 ^ 8 + 0xA5) * 2 ^ 23 + hw.toNat * 2 ^ 21 +
      imm16.toNat * 2 ^ 5 + rd.toNat) :
    decode opcode = .movz (rd.setWidth 8) imm16 (hw.setWidth 8 * 16) := by
  have shifts : hw.toNat < 2 ^ 2 :=
    Nat.lt_of_lt_of_le hw.isLt (Nat.pow_le_pow_right (by decide) narrow)
  have constants := imm16.isLt
  have registers := rd.isLt
  have reg : opcode.extractLsb' 0 5 = rd := by
    apply BitVec.eq_of_toNat_eq
    rw [toNat_field]
    unfold bits
    omega
  have imm : opcode.extractLsb' 5 16 = imm16 := by
    apply BitVec.eq_of_toNat_eq
    rw [toNat_field]
    unfold bits
    omega
  have shift : (opcode.extractLsb' 21 2).setWidth 8 = hw.setWidth 8 := by
    apply BitVec.eq_of_toNat_eq
    rw [BitVec.toNat_setWidth, BitVec.toNat_setWidth, toNat_field]
    unfold bits
    omega
  rw [decode_movz (by unfold bits; omega), reg, imm, shift]

/-- Every instruction that the decoder is for, with any operands, is decoded as what it is. -/
theorem decode_encode (instruction : ArmInstruction) :
    decode instruction.encode = instruction.view := by
  cases instruction with
  | nop => exact decode_nop
  | ret rn =>
    have number := ArmInstruction.toNat_ret rn
    have fits := rn.isLt
    apply decode_ret
    unfold bits
    omega
  | svc imm16 =>
    have number := ArmInstruction.toNat_svc imm16
    have fits := imm16.isLt
    have field : (ArmInstruction.svc imm16).encode.extractLsb' 5 16 = imm16 := by
      apply BitVec.eq_of_toNat_eq
      rw [toNat_field]
      unfold bits
      omega
    rw [decode_svc (by unfold bits; omega), field]
    rfl
  | bl imm26 =>
    have number := ArmInstruction.toNat_bl imm26
    have fits := imm26.isLt
    have field : (ArmInstruction.bl imm26).encode.extractLsb' 0 26 = imm26 := by
      apply BitVec.eq_of_toNat_eq
      rw [toNat_field]
      unfold bits
      omega
    rw [decode_bl (by unfold bits; omega), field]
    rfl
  | movz32 hw imm16 rd =>
    exact @decode_movz_number _ 0 _ (by decide) hw imm16 rd
      (ArmInstruction.toNat_movz32 hw imm16 rd)
  | movz64 hw imm16 rd =>
    exact @decode_movz_number _ 1 _ (by decide) hw imm16 rd
      (ArmInstruction.toNat_movz64 hw imm16 rd)
  | adrp imm21 rd =>
    obtain ⟨high, low, parts, small, large⟩ := ArmInstruction.exists_parts imm21
    have number := ArmInstruction.toNat_adrp rd parts small
    have registers := rd.isLt
    have isAdrp : bits (ArmInstruction.adrp imm21 rd).encode 31 1 = 1 ∧
        bits (ArmInstruction.adrp imm21 rd).encode 24 5 = 0x10 := by
      have above : (ArmInstruction.adrp imm21 rd).encode.toNat / 2 ^ 24 = low * 2 ^ 5 + 0x90 := by
        omega
      unfold bits
      omega
    have reg : (ArmInstruction.adrp imm21 rd).encode.extractLsb' 0 5 = rd := by
      apply BitVec.eq_of_toNat_eq
      rw [toNat_field]
      unfold bits
      omega
    have immhi : bits (ArmInstruction.adrp imm21 rd).encode 5 19 = high := by
      have above : (ArmInstruction.adrp imm21 rd).encode.toNat / 2 ^ 5 =
          (low * 2 ^ 5 + 0x90) * 2 ^ 19 + high := by omega
      unfold bits
      omega
    have immlo : bits (ArmInstruction.adrp imm21 rd).encode 29 2 = low := by
      have above : (ArmInstruction.adrp imm21 rd).encode.toNat / 2 ^ 29 = 4 + low := by omega
      unfold bits
      omega
    have imm : (ArmInstruction.adrp imm21 rd).encode.extractLsb' 5 19 ++
        (ArmInstruction.adrp imm21 rd).encode.extractLsb' 29 2 = imm21 := by
      apply BitVec.eq_of_toNat_eq
      rw [toNat_append_add, toNat_field, toNat_field, immhi, immlo, parts]
    rw [decode_adrp isAdrp, reg, imm]
    rfl

/-! ## What is accepted -/

/-- Opcodes in the class of an instruction that are none of its encodings. -/
inductive Stray (opcode : BitVec 32) : Prop where
  /-- In the class of `SVC`: `HVC`, `SMC`, and unallocated encodings. -/
  | svc (isSvc : bits opcode 21 11 = 0x6A0) (other : bits opcode 0 5 ≠ 1)
  /-- In the class of `RET`: unallocated encodings. -/
  | ret (isRet : bits opcode 10 22 = 0x3597C0) (other : bits opcode 0 5 ≠ 0)
  /-- In the class of `MOVZ`: the 32-bit form with a shift past its width. -/
  | movz (isMovz : bits opcode 22 10 = 0x14B)

section Accepted

variable {opcode : BitVec 32}

/-- No instruction that the decoder is for has such an encoding. -/
theorem not_stray_encode (instruction : ArmInstruction) : ¬ Stray instruction.encode := by
  cases instruction with
  | nop =>
    rintro (⟨isSvc, _⟩ | ⟨isRet, _⟩ | isMovz)
    · exact absurd isSvc (by decide)
    · exact absurd isRet (by decide)
    · exact absurd isMovz (by decide)
  | ret rn =>
    have number := ArmInstruction.toNat_ret rn
    have fits := rn.isLt
    rintro (⟨isSvc, _⟩ | ⟨_, other⟩ | isMovz) <;> unfold bits at * <;> omega
  | svc imm16 =>
    have number := ArmInstruction.toNat_svc imm16
    have fits := imm16.isLt
    rintro (⟨_, other⟩ | ⟨isRet, _⟩ | isMovz) <;> unfold bits at * <;> omega
  | bl imm26 =>
    have number := ArmInstruction.toNat_bl imm26
    have fits := imm26.isLt
    rintro (⟨isSvc, _⟩ | ⟨isRet, _⟩ | isMovz) <;> unfold bits at * <;> omega
  | movz32 hw imm16 rd =>
    have number := ArmInstruction.toNat_movz32 hw imm16 rd
    have shifts := hw.isLt
    have constants := imm16.isLt
    have registers := rd.isLt
    rintro (⟨isSvc, _⟩ | ⟨isRet, _⟩ | isMovz) <;> unfold bits at * <;> omega
  | movz64 hw imm16 rd =>
    have number := ArmInstruction.toNat_movz64 hw imm16 rd
    have shifts := hw.isLt
    have constants := imm16.isLt
    have registers := rd.isLt
    rintro (⟨isSvc, _⟩ | ⟨isRet, _⟩ | isMovz) <;> unfold bits at * <;> omega
  | adrp imm21 rd =>
    obtain ⟨high, low, parts, small, large⟩ := ArmInstruction.exists_parts imm21
    have number := ArmInstruction.toNat_adrp rd parts small
    have registers := rd.isLt
    have above : (ArmInstruction.adrp imm21 rd).encode.toNat / 2 ^ 24 = low * 2 ^ 5 + 0x90 := by
      omega
    rintro (⟨isSvc, _⟩ | ⟨isRet, _⟩ | isMovz) <;> unfold bits at * <;> omega

/-- Every other opcode that is accepted is the encoding of an instruction. -/
theorem exists_encode (supported : decode opcode ≠ .unsupported) (proper : ¬ Stray opcode) :
    ∃ instruction : ArmInstruction, instruction.encode = opcode := by
  have fits := opcode.isLt
  by_cases isNop : opcode = 0xD503201F
  · exact ⟨.nop, isNop.symm⟩
  by_cases isRet : bits opcode 10 22 = 0x3597C0
  · have low : bits opcode 0 5 = 0 := not_not.mp fun other => proper (.ret isRet other)
    refine ⟨.ret (opcode.extractLsb' 5 5), ?_⟩
    apply BitVec.eq_of_toNat_eq
    rw [ArmInstruction.toNat_ret, toNat_field]
    unfold bits at *
    omega
  by_cases isSvc : bits opcode 21 11 = 0x6A0
  · have low : bits opcode 0 5 = 1 := not_not.mp fun other => proper (.svc isSvc other)
    refine ⟨.svc (opcode.extractLsb' 5 16), ?_⟩
    apply BitVec.eq_of_toNat_eq
    rw [ArmInstruction.toNat_svc, toNat_field]
    unfold bits at *
    omega
  by_cases isBl : bits opcode 26 6 = 0x25
  · refine ⟨.bl (opcode.extractLsb' 0 26), ?_⟩
    apply BitVec.eq_of_toNat_eq
    rw [ArmInstruction.toNat_bl, toNat_field]
    unfold bits at *
    omega
  by_cases isMovz : bits opcode 23 8 = 0xA5
  · by_cases wide : bits opcode 31 1 = 1
    · refine ⟨.movz64 (opcode.extractLsb' 21 2) (opcode.extractLsb' 5 16) (opcode.extractLsb' 0 5),
        ?_⟩
      apply BitVec.eq_of_toNat_eq
      rw [ArmInstruction.toNat_movz64, toNat_field, toNat_field, toNat_field]
      unfold bits at *
      omega
    · have shift : bits opcode 22 10 ≠ 0x14B := fun other => proper (.movz other)
      refine ⟨.movz32 (opcode.extractLsb' 21 1) (opcode.extractLsb' 5 16) (opcode.extractLsb' 0 5),
        ?_⟩
      apply BitVec.eq_of_toNat_eq
      rw [ArmInstruction.toNat_movz32, toNat_field, toNat_field, toNat_field]
      unfold bits at *
      omega
  by_cases isAdrp : bits opcode 31 1 = 1 ∧ bits opcode 24 5 = 0x10
  · have parts : (opcode.extractLsb' 5 19 ++ opcode.extractLsb' 29 2).toNat =
        bits opcode 5 19 * 2 ^ 2 + bits opcode 29 2 := by
      rw [toNat_append_add, toNat_field, toNat_field]
    have small : bits opcode 29 2 < 2 ^ 2 := Nat.mod_lt _ (by decide)
    refine ⟨.adrp (opcode.extractLsb' 5 19 ++ opcode.extractLsb' 29 2) (opcode.extractLsb' 0 5), ?_⟩
    apply BitVec.eq_of_toNat_eq
    rw [ArmInstruction.toNat_adrp _ parts small, toNat_field]
    unfold bits at *
    omega
  · exact absurd (decode_other isNop isRet isSvc isBl isMovz isAdrp) supported

/-- An accepted opcode is an encoding of the instruction returned exactly when it is no stray
one. -/
theorem decode_accepts_iff (opcode : BitVec 32) :
    (decode opcode ≠ .unsupported →
        ∃ instruction : ArmInstruction, instruction.encode = opcode ∧
          instruction.view = decode opcode) ↔
      ¬ Stray opcode := by
  constructor
  · intro named stray
    have supported : decode opcode ≠ .unsupported := by
      cases stray with
      | svc isSvc _ =>
        rw [decode_svc isSvc]
        exact Instruction.noConfusion
      | ret isRet _ =>
        rw [decode_ret isRet]
        exact Instruction.noConfusion
      | movz isMovz =>
        rw [decode_movz (by unfold bits at *; omega)]
        exact Instruction.noConfusion
    obtain ⟨instruction, rfl, _⟩ := named supported
    exact not_stray_encode instruction stray
  · intro proper supported
    obtain ⟨instruction, rfl⟩ := exists_encode supported proper
    exact ⟨instruction, rfl, (decode_encode instruction).symm⟩

/-- `HVC #0` is decoded as `SVC #0`. -/
theorem decode_accepts_counterexample :
    decode 0xD4000002 = .svc 0 ∧
      ¬ ∃ instruction : ArmInstruction, instruction.encode = 0xD4000002 ∧
        instruction.view = decode 0xD4000002 := by
  refine ⟨by decide, ?_⟩
  rintro ⟨instruction, same, _⟩
  exact not_stray_encode instruction (same ▸ .svc (by decide) (by decide))

end Accepted

/-! ## Steps -/

/-- The opcode at an address of the code. -/
def opcodeAt (code : List UInt8) (pc : BitVec 64) : BitVec 32 :=
  BitVec.ofNat 32 (leAt code pc.toNat 4)

/-- Instructions behind which the architecture continues. -/
def Instruction.isSequential : Instruction → Bool
  | .nop => true
  | .svc _ => true
  | .movz _ _ _ => true
  | .adrp _ _ => true
  | _ => false

/-- A step follows the architecture: it returns; with nothing where the code ends or the opcode is
not supported, and otherwise behind the instruction, or where it branches to. -/
structure Follows (pc : BitVec 64) (code : List UInt8) : Prop where
  /-- No overflow and no access outside the code. -/
  returns : ∃ next, step pc code = .ok next
  /-- Fewer than four bytes. -/
  short : code.length < pc.toNat + 4 → step pc code = .ok none
  /-- An opcode that is not supported. -/
  unsupported : pc.toNat + 4 ≤ code.length → decode (opcodeAt code pc) = .unsupported →
    step pc code = .ok none
  /-- Any other instruction than a branch. -/
  sequential : pc.toNat + 4 ≤ code.length → (decode (opcodeAt code pc)).isSequential = true →
    step pc code = .ok (some (pc + 4))
  /-- `BL`. -/
  branch : ∀ offset, pc.toNat + 4 ≤ code.length → decode (opcodeAt code pc) = .bl offset →
    step pc code = .ok (some (pc + offset))

section Steps

variable {pc : BitVec 64} {code : List UInt8}

/-- At the top of the address space the length check overflows. -/
theorem step_overflows (high : ¬ pc.toNat + 4 < wordSize) : step pc code = .error .overflow := by
  simp only [step, add64, if_neg high, error_bind]

/-- Behind the code there is nothing. -/
theorem step_short (low : pc.toNat + 4 < wordSize) (short : code.length < pc.toNat + 4) :
    step pc code = .ok none := by
  have last : add64 pc.toNat 4 = .ok (pc.toNat + 4) := add64_eq_ok.mpr ⟨low, rfl⟩
  simp only [step, last, ok_bind, if_pos short]
  rfl

/-- In the code it is the instruction that decides. -/
theorem step_inside (low : pc.toNat + 4 < wordSize) (inside : pc.toNat + 4 ≤ code.length) :
    step pc code = .ok (nextPc pc (decode (opcodeAt code pc))) := by
  have last : add64 pc.toNat 4 = .ok (pc.toNat + 4) := add64_eq_ok.mpr ⟨low, rfl⟩
  have there : pc.toNat ≤ pc.toNat + 4 ∧ pc.toNat + 4 ≤ code.length :=
    ⟨Nat.le_add_right _ _, inside⟩
  simp only [step, last, ok_bind, if_neg (Nat.not_lt.mpr inside), slice, if_pos there,
    Nat.add_sub_cancel_left]
  rfl

/-- A step follows the architecture exactly when it does not reach past the last address and the
opcode it reads, if any, is no `BL`. -/
theorem step_follows_iff (pc : BitVec 64) (code : List UInt8) :
    Follows pc code ↔ pc.toNat + 4 < wordSize ∧
      (pc.toNat + 4 ≤ code.length → bits (opcodeAt code pc) 26 6 ≠ 0x25) := by
  constructor
  · intro follows
    have low : pc.toNat + 4 < wordSize := by
      by_contra high
      obtain ⟨next, stepped⟩ := follows.returns
      exact nomatch (step_overflows high).symm.trans stepped
    refine ⟨low, fun inside isBl => ?_⟩
    have decoded := decode_bl isBl
    have stepped := step_inside low inside
    rw [decoded, follows.branch _ inside decoded] at stepped
    have same := Option.some.inj (Except.ok.inj stepped)
    bv_omega
  · rintro ⟨low, noBranch⟩
    refine ⟨?_, step_short low, fun inside other => ?_, fun inside other => ?_, ?_⟩
    · by_cases short : code.length < pc.toNat + 4
      · exact ⟨_, step_short low short⟩
      · exact ⟨_, step_inside low (Nat.not_lt.mp short)⟩
    · rw [step_inside low inside, other]
      rfl
    · rw [step_inside low inside]
      cases decoded : decode (opcodeAt code pc) with
      | nop => rfl
      | svc imm => rfl
      | movz reg imm shift => rfl
      | adrp reg offset => rfl
      | ret => exact nomatch decoded ▸ other
      | bl offset => exact nomatch decoded ▸ other
      | unsupported => exact nomatch decoded ▸ other
    · intro offset inside decoded
      exact absurd (bl_of_decode decoded) (noBranch inside)

/-- `BL` to itself continues behind itself. -/
theorem step_follows_counterexample :
    decode (opcodeAt [0, 0, 0, 0x94] 0) = .bl 0 ∧ step 0 [0, 0, 0, 0x94] = .ok (some 4) ∧
      ¬ Follows 0 [0, 0, 0, 0x94] := by
  refine ⟨by decide, by decide, fun follows => ?_⟩
  have stepped := follows.branch 0 (by decide) (by decide)
  exact absurd stepped (by decide)

end Steps

end Aperture.Aarch64Decode
