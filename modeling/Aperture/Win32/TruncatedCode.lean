import Aperture.Machine.Narrow
import Aperture.Win32.Interpreter

/-!
# Code that ends early

What the architecture has behind each opcode of the interpreter fixes where an instruction ends.
Every form but one checks that its bytes are there before it reads them; `C7` checks for its
constant in front of the displacement, and reads it behind.
-/

namespace Aperture.Win32

open Machine

/-- Bytes behind a ModRM byte: an index byte and a displacement, as its fields ask for them. -/
def tailLength (modrm : UInt8) (tail : List UInt8) : Nat :=
  let (modBits, _, rm) := decodeModrm modrm
  let indexed := modBits ≠ 3 ∧ rm = 4
  let noBase := modBits = 0 ∧ (rm = 5 ∨ rm = 4 ∧ (tail.headD 0) &&& 0x07 = 5)
  (if indexed then 1 else 0) + (if modBits = 1 then 1 else if modBits = 2 ∨ noBase then 4 else 0)

/-- The bytes of an operand. -/
structure IsOperand (modrm : UInt8) (tail : List UInt8) : Prop where
  /-- Its last byte is the last one. -/
  length : tail.length = tailLength modrm tail

/-- The opcodes of the interpreter. -/
def opcodes : List UInt8 :=
  [0x90, 0xC3, 0xEB, 0xE9, 0xE8, 0xB8, 0xB9, 0xBA, 0xBB, 0xBC, 0xBD, 0xBE, 0xBF, 0xC7, 0x31, 0x33,
    0x8D, 0x0F]

/-- What the architecture has behind an opcode. Of opcodes that the interpreter does not know it may
be anything. -/
inductive Follows (w : Bool) : UInt8 → List UInt8 → Prop
  /-- `90`. -/
  | nop : Follows w 0x90 []
  /-- `C3`. -/
  | ret : Follows w 0xC3 []
  /-- `EB cb`. -/
  | jmpRel8 (offset : UInt8) : Follows w 0xEB [offset]
  /-- `E9 cd`. -/
  | jmpRel32 {offset : List UInt8} (size : offset.length = 4) : Follows w 0xE9 offset
  /-- `E8 cd`. -/
  | callRel32 {offset : List UInt8} (size : offset.length = 4) : Follows w 0xE8 offset
  /-- `B8+r id`, and with REX.W `B8+r io`. -/
  | movImm (dst : Register) {value : List UInt8} (size : value.length = if w then 8 else 4) :
      Follows w (0xB8 + dst.low) value
  /-- `C7 id`. -/
  | group11 {modrm : UInt8} {tail constant : List UInt8} (operand : IsOperand modrm tail)
      (size : constant.length = 4) : Follows w 0xC7 (modrm :: (tail ++ constant))
  /-- `31 /r`. -/
  | xorInto {modrm : UInt8} {tail : List UInt8} (operand : IsOperand modrm tail) :
      Follows w 0x31 (modrm :: tail)
  /-- `33 /r`. -/
  | xorFrom {modrm : UInt8} {tail : List UInt8} (operand : IsOperand modrm tail) :
      Follows w 0x33 (modrm :: tail)
  /-- `8D /r`. -/
  | lea {modrm : UInt8} {tail : List UInt8} (operand : IsOperand modrm tail) :
      Follows w 0x8D (modrm :: tail)
  /-- `0F 05`. -/
  | syscall : Follows w 0x0F [0x05]
  /-- Other opcodes of two bytes. -/
  | twoByte {sub : UInt8} (other : sub ≠ 0x05) (rest : List UInt8) : Follows w 0x0F (sub :: rest)
  /-- Other opcodes. -/
  | other {opcode : UInt8} (unknown : opcode ∉ opcodes) (rest : List UInt8) : Follows w opcode rest

/-- The code ends before the last byte of an instruction. An opcode is no prefix itself. -/
def Truncated (code : List UInt8) : Prop :=
  ∃ rex opcode operand, Follows (Rex.bits rex).w opcode operand ∧
    (rex = none → opcode &&& 0xF0 ≠ 0x40) ∧
    code <+: Rex.optional rex ++ opcode :: operand ∧
    code.length < (Rex.optional rex ++ opcode :: operand).length

/-- The code ends in the constant of `C7 /0` with an operand relative to the next instruction, or in
front of it. -/
def EndsInConstant (code : List UInt8) : Prop :=
  ∃ rex tail, code = Rex.optional rex ++ 0xC7 :: 0x05 :: tail ∧ 4 ≤ tail.length ∧ tail.length < 8

section Reading

variable {cpu : Cpu} {pc : BitVec 64} {code front rest : List UInt8}

/-- Length of code behind its front. -/
theorem length_front_cons (front : List UInt8) (byte : UInt8) (tail : List UInt8) :
    (front ++ byte :: tail).length = front.length + 1 + tail.length := by
  simp only [List.length_append, List.length_cons]
  omega

/-- A number is read where its bytes are. -/
theorem codeLe_returns {pos size : Nat} (inside : pos + size ≤ code.length) :
    ∃ value, codeLe code pos size = .ok value := by
  rw [codeLe, slice, if_pos ⟨Nat.le_add_right pos size, inside⟩]
  exact ⟨_, rfl⟩

/-- A signed number is too. -/
theorem codeI32_returns {pos : Nat} (inside : pos + 4 ≤ code.length) :
    ∃ value, codeI32 code pos = .ok value := by
  obtain ⟨value, read⟩ := codeLe_returns inside
  rw [codeI32, read]
  exact ⟨_, rfl⟩

/-- Reading it elsewhere is an access outside the code. -/
theorem codeI32_outside {pos : Nat} (outside : code.length < pos + 4) :
    codeI32 code pos = .error .outOfRange := by
  rw [codeI32, codeLe, slice, if_neg fun inside => Nat.not_le_of_lt outside inside.2]
  rfl

/-- The byte behind a part of the code is there, or the code ends. -/
theorem ended_or_cons (front rest : List UInt8) :
    (front ++ rest).length ≤ front.length ∨
      ∃ byte tail, rest = byte :: tail ∧ ¬ (front ++ rest).length ≤ front.length ∧
        codeAt (front ++ rest) front.length = .ok byte := by
  cases rest with
  | nil => exact .inl (by simp)
  | cons byte tail => exact .inr ⟨byte, tail, rfl, by simp, codeAt_behind front byte tail⟩

/-- An operand is refused, or is there: with a displacement behind ModRM byte `05` and those that
differ in the register field, and with nothing behind other ModRM bytes. -/
theorem decodeModrmOperand_cases (cpu : Cpu) (pc : BitVec 64) (front : List UInt8) (modrm : UInt8)
    (tail : List UInt8) (b : Bool) :
    decodeModrmOperand cpu pc (front.length + 1) (front ++ modrm :: tail) (decodeModrm modrm).1
        (decodeModrm modrm).2.2 b = .ok none ∨
    ∃ operand more, decodeModrmOperand cpu pc (front.length + 1) (front ++ modrm :: tail)
        (decodeModrm modrm).1 (decodeModrm modrm).2.2 b =
          .ok (some (front.length + 1 + more, operand)) ∧
      more ≤ tail.length ∧ (∀ other, tailLength modrm other = more) ∧
      (more = 0 ∨ more = 4 ∧ (decodeModrm modrm).1 = 0 ∧ (decodeModrm modrm).2.2 = 5) := by
  have length := length_front_cons front modrm tail
  unfold tailLength decodeModrmOperand
  rw [length]
  obtain ⟨modBits, field, rm⟩ := decodeModrm modrm
  dsimp only
  by_cases direct : modBits = 3
  · right
    refine ⟨_, 0, if_pos direct, Nat.zero_le _, fun other => ?_, .inl rfl⟩
    rw [direct]
    rfl
  by_cases near : modBits = 0
  · rw [if_neg direct, if_pos near]
    by_cases relative : rm = 5
    · rw [if_pos relative]
      by_cases short : tail.length < 4
      · left
        rw [if_pos (Nat.add_lt_add_left short _)]
      · obtain ⟨disp, read⟩ : ∃ disp, codeI32 (front ++ modrm :: tail) (front.length + 1) =
            .ok disp := by
          apply codeI32_returns
          omega
        right
        rw [if_neg (mt Nat.lt_of_add_lt_add_left short), read, ok_bind]
        refine ⟨_, 4, rfl, Nat.le_of_not_lt short, fun other => ?_, .inr ⟨rfl, near, relative⟩⟩
        rw [near, relative]
        rfl
    · by_cases index : rm = 4
      · left
        rw [if_neg relative, if_pos index]
      · right
        rw [if_neg relative, if_neg index]
        refine ⟨_, 0, rfl, Nat.zero_le _, fun other => ?_, .inl rfl⟩
        simp [near, relative, index]
  · left
    rw [if_neg direct, if_neg near]

end Reading

/-! ## Outcomes -/

/-- The interpreter returns, or it is stopped by a word that it may not access or by the kernel. -/
def Ends {α : Type} (executed : Except Panic α) : Prop :=
  ∀ reason, executed = .error reason →
    reason = .callee ∨ ∃ address, ¬ address % 8 = 0 ∧ reason = .misaligned address

/-- The code is refused with nothing changed, or the interpreter ends and the instruction is
complete. -/
def Outcome {α : Type} (refused : α) (executed : Except Panic α) (complete : Prop) : Prop :=
  executed = .ok refused ∨ Ends executed ∧ complete

/-- A ModRM byte, what it asks for, and a constant of so many bytes are there. -/
def OperandThere (rest : List UInt8) (constant : Nat) : Prop :=
  ∃ modrm tail, rest = modrm :: tail ∧ ∀ other, tailLength modrm other + constant ≤ tail.length

/-- An operand relative to the next instruction has a displacement only. -/
theorem tailLength_relative {modrm : UInt8} (near : (decodeModrm modrm).1 = 0)
    (relative : (decodeModrm modrm).2.2 = 5) (tail : List UInt8) : tailLength modrm tail = 4 := by
  unfold tailLength
  generalize decodeModrm modrm = fields at near relative ⊢
  obtain ⟨modBits, field, rm⟩ := fields
  dsimp only at near relative
  rw [near, relative]
  rfl

/-- With a zero register field its ModRM byte is `05`. -/
theorem eq_five_of_fields {modrm : UInt8} (near : (decodeModrm modrm).1 = 0)
    (field : (decodeModrm modrm).2.1 = 0) (relative : (decodeModrm modrm).2.2 = 5) :
    modrm = 0x05 := by
  revert modrm
  decide +kernel

section Outcomes

variable {κ : Type} {syscall : SyscallEffect κ} {kernel : κ} {cpu : Cpu} {pc : BitVec 64}
  {front rest : List UInt8} {rex : Rex} {opcode : UInt8}

/-- A computation that returns ends. -/
theorem ends_ok {α : Type} (value : α) : Ends (.ok value) := fun _ stopped => nomatch stopped

/-- One that never reads outside the code does not read outside it. -/
theorem Ends.inside {α : Type} {executed : Except Panic α} (ends : Ends executed) :
    executed ≠ .error .outOfRange := by
  intro outside
  rcases ends _ outside with called | ⟨_, _, refused⟩
  · cases called
  · cases refused

/-- Two computations after each other end when both do. -/
theorem Ends.bind {α β : Type} {first : Except Panic α} {next : α → Except Panic β}
    (ends : Ends first) (continues : ∀ value, Ends (next value)) : Ends (first >>= next) := by
  cases first with
  | error reason => exact fun other same => ends other (congrArg _ (Except.error.inj same))
  | ok value => exact continues value

/-- The kernel's state is left alone in both cases. -/
theorem Ends.keeping {executed : Executed} (ends : Ends executed) :
    Ends (executed.keeping kernel) := by
  cases executed with
  | error reason => exact fun other same => ends other (congrArg _ (Except.error.inj same))
  | ok left => exact ends_ok _

/-- The check of a word ends. -/
theorem ends_checkWord (address : BitVec 64) : Ends (PhysMem.checkWord address) := by
  unfold PhysMem.checkWord
  split
  · exact ends_ok ()
  · rename_i misaligned
    rintro _ ⟨⟩
    exact .inr ⟨_, misaligned, rfl⟩

/-- A word is read, or refused. -/
theorem ends_readVolatile (memory : PhysMem) (address : BitVec 64) :
    Ends (memory.readVolatile address) :=
  (ends_checkWord address).bind fun _ => ends_ok _

/-- A word is written, or refused. -/
theorem ends_writeVolatile (memory : PhysMem) (address value : BitVec 64) :
    Ends (memory.writeVolatile address value) :=
  (ends_checkWord address).bind fun _ => ends_ok _

/-- Reading an operand ends. -/
theorem ends_read (cpu : Cpu) (operand : Operand) : Ends (operand.read cpu) := by
  cases operand with
  | reg r => exact ends_ok _
  | addr address => exact ends_readVolatile _ _

/-- So does writing it. -/
theorem ends_write (cpu : Cpu) (value : BitVec 64) (operand : Operand) :
    Ends (operand.write cpu value) := by
  cases operand with
  | reg r => exact ends_ok _
  | addr address => exact (ends_writeVolatile _ _ _).bind fun _ => ends_ok _

/-- `C3`. -/
theorem ends_ret (cpu : Cpu) : Ends (executeRet cpu) :=
  (ends_readVolatile _ _).bind fun ra => by
    by_cases zero : ra = 0
    · rw [if_pos zero]
      exact ends_ok _
    · rw [if_neg zero]
      exact ends_ok _

/-- A system call returns, or the kernel stops. -/
theorem ends_serveSyscall (syscall : SyscallEffect κ) (kernel : κ) (cpu : Cpu)
    (returnPc : BitVec 64) : Ends (serveSyscall syscall kernel cpu returnPc) := by
  unfold serveSyscall
  extract_lets number
  split
  · rintro _ ⟨⟩
    exact .inl rfl
  · exact ends_ok _

section Refusal

variable {α : Type} {left : α} {executed : Except Panic α} {complete : Prop}

/-- It ends in both cases. -/
theorem Outcome.ends (outcome : Outcome left executed complete) : Ends executed := by
  rcases outcome with returned | ⟨ends, _⟩
  · rw [returned]
    exact ends_ok _
  · exact ends

/-- An incomplete instruction is refused. -/
theorem Outcome.refused (outcome : Outcome left executed complete) (incomplete : ¬ complete) :
    executed = .ok left := by
  rcases outcome with returned | ⟨_, complete⟩
  · exact returned
  · exact absurd complete incomplete

end Refusal

/-- An outcome with the kernel's state. -/
theorem Outcome.keeping {executed : Executed} {complete : Prop}
    (outcome : Outcome (none, cpu) executed complete) :
    Outcome (none, cpu, kernel) (executed.keeping kernel) complete := by
  rcases outcome with returned | ⟨ends, complete⟩
  · exact .inl (congrArg (Executed.keeping kernel) returned)
  · exact .inr ⟨ends.keeping, complete⟩

/-- The length check of a number of so many bytes. -/
theorem short_iff (front rest : List UInt8) (size : Nat) :
    (front ++ rest).length < front.length + size ↔ rest.length < size := by
  rw [List.length_append]
  omega

/-- A number whose bytes are there is read behind the code in front of it. -/
theorem codeLe_long {size : Nat} (long : ¬ rest.length < size) :
    ∃ value, codeLe (front ++ rest) front.length size = .ok value := by
  apply codeLe_returns
  rw [List.length_append]
  omega

/-- `EB` and `E9`. -/
theorem executeJmp_outcome (size : Nat) :
    Outcome (none, cpu) (executeJmp cpu pc (front ++ rest) front.length size)
      (size ≤ rest.length) := by
  rw [executeJmp]
  by_cases short : rest.length < size
  · exact .inl (if_pos ((short_iff front rest size).mpr short))
  · obtain ⟨offset, read⟩ := @codeLe_long front rest size short
    rw [if_neg (mt (short_iff front rest size).mp short), read]
    exact .inr ⟨ends_ok _, Nat.le_of_not_lt short⟩

/-- `E8`. -/
theorem executeCall_outcome :
    Outcome (none, cpu) (executeCall cpu pc (front ++ rest) front.length) (4 ≤ rest.length) := by
  rw [executeCall, codeI32]
  by_cases short : rest.length < 4
  · exact .inl (if_pos ((short_iff front rest 4).mpr short))
  · obtain ⟨offset, read⟩ := @codeLe_long front rest 4 short
    rw [if_neg (mt (short_iff front rest 4).mp short), read]
    exact .inr ⟨(ends_writeVolatile _ _ _).bind fun _ => ends_ok _, Nat.le_of_not_lt short⟩

/-- `B8` to `BF`. -/
theorem executeMovImm_outcome :
    Outcome (none, cpu) (executeMovImm cpu pc (front ++ rest) rex opcode front.length)
      ((if rex.w then 8 else 4) ≤ rest.length) := by
  unfold executeMovImm
  extract_lets reg size
  by_cases short : rest.length < size
  · exact .inl (if_pos ((short_iff front rest size).mpr short))
  · obtain ⟨imm, read⟩ := @codeLe_long front rest size short
    rw [if_neg (mt (short_iff front rest size).mp short), read]
    exact .inr ⟨ends_ok _, Nat.le_of_not_lt short⟩

/-- A form that needs its operand only. -/
theorem operand_outcome {modrm : UInt8} {tail : List UInt8}
    {finish : Option (Nat × Operand) → Executed} (refuses : finish none = .ok (none, cpu))
    (ends : ∀ found, Ends (finish (some found))) :
    Outcome (none, cpu) (decodeModrmOperand cpu pc (front.length + 1) (front ++ modrm :: tail)
      (decodeModrm modrm).1 (decodeModrm modrm).2.2 rex.b >>= finish)
      (OperandThere (modrm :: tail) 0) := by
  rcases decodeModrmOperand_cases cpu pc front modrm tail rex.b with
    refused | ⟨operand, more, decoded, inside, asked, _⟩
  · rw [refused, ok_bind]
    exact .inl refuses
  · rw [decoded, ok_bind]
    exact .inr ⟨ends _, modrm, tail, rfl, fun other => asked other ▸ inside⟩

/-- `31`. -/
theorem executeXorInto_outcome :
    Outcome (none, cpu) (executeXorInto cpu pc (front ++ rest) rex front.length)
      (OperandThere rest 0) := by
  rw [executeXorInto]
  rcases ended_or_cons front rest with ended | ⟨modrm, tail, rfl, there, first⟩
  · exact .inl (if_pos ended)
  · rw [if_neg there, first, ok_bind]
    exact operand_outcome rfl fun _ =>
      (ends_read _ _).bind fun _ => (ends_write _ _ _).bind fun _ => ends_ok _

/-- `33`. -/
theorem executeXorFrom_outcome :
    Outcome (none, cpu) (executeXorFrom cpu pc (front ++ rest) rex front.length)
      (OperandThere rest 0) := by
  rw [executeXorFrom]
  rcases ended_or_cons front rest with ended | ⟨modrm, tail, rfl, there, first⟩
  · exact .inl (if_pos ended)
  · rw [if_neg there, first, ok_bind]
    exact operand_outcome rfl fun _ => (ends_read _ _).bind fun _ => ends_ok _

/-- `8D`. -/
theorem executeLea_outcome :
    Outcome (none, cpu) (executeLea cpu pc (front ++ rest) rex front.length)
      (OperandThere rest 0) := by
  rw [executeLea]
  rcases ended_or_cons front rest with ended | ⟨modrm, tail, rfl, there, first⟩
  · exact .inl (if_pos ended)
  rw [if_neg there, first, ok_bind]
  dsimp only
  by_cases other : (decodeModrm modrm).1 ≠ 0 ∨ (decodeModrm modrm).2.2 ≠ 5
  · exact .inl (if_pos other)
  obtain ⟨near, relative⟩ := not_or.mp other
  have length := length_front_cons front modrm tail
  rw [if_neg other, length]
  by_cases short : tail.length < 4
  · exact .inl (if_pos (Nat.add_lt_add_left short _))
  · obtain ⟨disp, read⟩ : ∃ disp, codeI32 (front ++ modrm :: tail) (front.length + 1) =
        .ok disp := by
      apply codeI32_returns
      omega
    rw [if_neg (mt Nat.lt_of_add_lt_add_left short), read]
    refine .inr ⟨ends_ok _, modrm, tail, rfl, fun index => ?_⟩
    rw [tailLength_relative (not_not.mp near) (not_not.mp relative)]
    exact Nat.le_of_not_lt short

/-- `C7`, where its constant is there or its operand is not. -/
theorem executeMovRm_outcome
    (apart : ∀ tail, rest = 0x05 :: tail → ¬ (4 ≤ tail.length ∧ tail.length < 8)) :
    Outcome (none, cpu) (executeMovRm cpu pc (front ++ rest) rex front.length)
      (OperandThere rest 4) := by
  rw [executeMovRm]
  rcases ended_or_cons front rest with ended | ⟨modrm, tail, rfl, there, first⟩
  · exact .inl (if_pos ended)
  have length := length_front_cons front modrm tail
  rw [if_neg there, first, ok_bind]
  dsimp only
  by_cases other : (decodeModrm modrm).2.1 ≠ 0
  · exact .inl (if_pos other)
  rw [if_neg other]
  rcases decodeModrmOperand_cases cpu pc front modrm tail rex.b with
    refused | ⟨operand, more, decoded, inside, asked, sizes⟩
  · rw [refused, ok_bind]
    exact .inl rfl
  rw [decoded, ok_bind, length]
  dsimp only
  by_cases short : tail.length < 4
  · exact .inl (if_pos (Nat.add_lt_add_left short _))
  have complete : more + 4 ≤ tail.length := by
    rcases sizes with rfl | ⟨rfl, near, relative⟩
    · omega
    · have byte := eq_five_of_fields near (not_not.mp other) relative
      have notIn := apart tail (congrArg (· :: tail) byte)
      omega
  obtain ⟨imm, read⟩ : ∃ imm, codeI32 (front ++ modrm :: tail) (front.length + 1 + more) =
      .ok imm := by
    apply codeI32_returns
    omega
  rw [if_neg (mt Nat.lt_of_add_lt_add_left short), read]
  exact .inr ⟨(ends_write _ _ _).bind fun _ => ends_ok _, modrm, tail, rfl,
    fun other => (asked other).symm ▸ complete⟩

/-- `0F`. -/
theorem executeSyscall_outcome :
    Outcome (none, cpu, kernel) (executeSyscall syscall kernel cpu pc (front ++ rest) front.length)
      (rest ≠ []) := by
  rw [executeSyscall]
  rcases ended_or_cons front rest with ended | ⟨sub, tail, rfl, there, first⟩
  · exact .inl (if_pos ended)
  rw [if_neg there, first, ok_bind]
  dsimp only
  split
  · exact .inr ⟨ends_serveSyscall _ _ _ _, List.cons_ne_nil sub tail⟩
  · exact .inl rfl

/-- Other opcodes of two bytes are refused. -/
theorem executeSyscall_other {sub : UInt8} (other : sub ≠ 0x05) {behind : List UInt8}
    (starts : rest <+: sub :: behind) :
    executeSyscall syscall kernel cpu pc (front ++ rest) front.length = .ok (none, cpu, kernel) := by
  rw [executeSyscall]
  rcases ended_or_cons front rest with ended | ⟨byte, tail, rfl, there, first⟩
  · exact if_pos ended
  · obtain ⟨rfl, _⟩ := List.cons_prefix_cons.mp starts
    rw [if_neg there, first, ok_bind]
    exact if_neg other

/-- Every opcode makes the interpreter end, except `C7` whose constant the code ends in. -/
theorem matchOpcode_ends (apart : ∀ tail, opcode = 0xC7 → rest = 0x05 :: tail →
      ¬ (4 ≤ tail.length ∧ tail.length < 8)) :
    Ends (matchOpcode syscall kernel cpu pc (front ++ rest) rex opcode front.length) := by
  unfold matchOpcode
  refine iteInduction (fun _ => ends_ok _) fun _ => ?_
  refine iteInduction (fun _ => (ends_ret cpu).keeping) fun _ => ?_
  refine iteInduction (fun _ => (executeJmp_outcome 1).ends.keeping) fun _ => ?_
  refine iteInduction (fun _ => (executeJmp_outcome 4).ends.keeping) fun _ => ?_
  refine iteInduction (fun _ => executeCall_outcome.ends.keeping) fun _ => ?_
  refine iteInduction (fun _ => executeMovImm_outcome.ends.keeping) fun _ => ?_
  refine iteInduction (fun movRm => (executeMovRm_outcome (apart · movRm)).ends.keeping) fun _ => ?_
  refine iteInduction (fun _ => executeXorInto_outcome.ends.keeping) fun _ => ?_
  refine iteInduction (fun _ => executeXorFrom_outcome.ends.keeping) fun _ => ?_
  refine iteInduction (fun _ => executeLea_outcome.ends.keeping) fun _ => ?_
  exact iteInduction (fun _ => executeSyscall_outcome.ends) fun _ => ends_ok _

/-- An operand and a constant that the code ends in are not there. -/
theorem not_operandThere {modrm : UInt8} {tail constant : List UInt8}
    (operand : IsOperand modrm tail) (starts : rest <+: modrm :: (tail ++ constant))
    (short : rest.length < (modrm :: (tail ++ constant)).length) :
    ¬ OperandThere rest constant.length := by
  rintro ⟨first, behind, rfl, long⟩
  obtain ⟨rfl, _⟩ := List.cons_prefix_cons.mp starts
  have enough := long tail
  rw [← operand.length] at enough
  simp only [List.length_cons, List.length_append] at short
  omega

/-- Opcodes of the range are among the opcodes. -/
theorem mem_opcodes_of_range (first : 0xB8 ≤ opcode) (last : opcode ≤ 0xBF) :
    opcode ∈ opcodes := by
  revert opcode
  decide +kernel

/-- An opcode that the interpreter does not know is refused. -/
theorem matchOpcode_unknown (unknown : opcode ∉ opcodes) :
    matchOpcode syscall kernel cpu pc (front ++ rest) rex opcode front.length =
      .ok (none, cpu, kernel) := by
  have range : ¬ (0xB8 ≤ opcode ∧ opcode ≤ 0xBF) :=
    fun inside => unknown (mem_opcodes_of_range inside.1 inside.2)
  simp only [opcodes, List.mem_cons, List.not_mem_nil, or_false, not_or] at unknown
  simp only [matchOpcode, range, unknown, if_false]

/-- An instruction that the code ends in is refused, except `C7` whose constant it ends in. -/
theorem matchOpcode_truncated {operand : List UInt8} (follows : Follows rex.w opcode operand)
    (starts : rest <+: operand) (short : rest.length < operand.length)
    (apart : ∀ tail, opcode = 0xC7 → rest = 0x05 :: tail →
      ¬ (4 ≤ tail.length ∧ tail.length < 8)) :
    matchOpcode syscall kernel cpu pc (front ++ rest) rex opcode front.length =
      .ok (none, cpu, kernel) := by
  cases follows with
  | nop => exact absurd short (Nat.not_lt_zero _)
  | ret => exact absurd short (Nat.not_lt_zero _)
  | jmpRel8 offset => exact (executeJmp_outcome 1).keeping.refused (Nat.not_le_of_lt short)
  | jmpRel32 size => exact (executeJmp_outcome 4).keeping.refused (Nat.not_le_of_lt (size ▸ short))
  | callRel32 size => exact executeCall_outcome.keeping.refused (Nat.not_le_of_lt (size ▸ short))
  | movImm dst size =>
    rw [matchOpcode_movImm]
    exact executeMovImm_outcome.keeping.refused (Nat.not_le_of_lt (size ▸ short))
  | group11 there size =>
    have missing := not_operandThere there starts short
    rw [size] at missing
    exact (executeMovRm_outcome (apart · rfl)).keeping.refused missing
  | @xorInto modrm tail there =>
    rw [← List.append_nil tail] at starts short
    exact executeXorInto_outcome.keeping.refused (not_operandThere there starts short)
  | @xorFrom modrm tail there =>
    rw [← List.append_nil tail] at starts short
    exact executeXorFrom_outcome.keeping.refused (not_operandThere there starts short)
  | @lea modrm tail there =>
    rw [← List.append_nil tail] at starts short
    exact executeLea_outcome.keeping.refused (not_operandThere there starts short)
  | syscall =>
    refine executeSyscall_outcome.refused (not_not.mpr ?_)
    exact List.eq_nil_of_length_eq_zero (Nat.lt_one_iff.mp short)
  | twoByte other behind => exact executeSyscall_other other starts
  | other unknown => exact matchOpcode_unknown unknown

/-- The constant behind a displacement is read without a check. -/
theorem executeMovRm_panics {tail : List UInt8} (long : 4 ≤ tail.length) (short : tail.length < 8) :
    executeMovRm cpu pc (front ++ 0x05 :: tail) rex front.length = .error .outOfRange := by
  have length := length_front_cons front 0x05 tail
  have notEnded : ¬ (front ++ 0x05 :: tail).length ≤ front.length := by omega
  have present : ¬ (front ++ 0x05 :: tail).length < front.length + 1 + 4 := by omega
  obtain ⟨disp, read⟩ : ∃ disp, codeI32 (front ++ 0x05 :: tail) (front.length + 1) = .ok disp := by
    apply codeI32_returns
    omega
  have beyond : codeI32 (front ++ 0x05 :: tail) (front.length + 1 + 4) = .error .outOfRange := by
    apply codeI32_outside
    omega
  have fields : decodeModrm 0x05 = (0, 0, 5) := by decide
  have operand : decodeModrmOperand cpu pc (front.length + 1) (front ++ 0x05 :: tail) 0 5 rex.b =
      .ok (some (front.length + 1 + 4, .addr (pcAdd pc (front.length + 1 + 4) + disp))) := by
    rw [decodeModrmOperand, if_neg (by decide), if_pos rfl, if_pos rfl, if_neg present, read]
    rfl
  rw [executeMovRm, if_neg notEnded, codeAt_behind, ok_bind, fields]
  dsimp only
  rw [if_neg (by decide), operand, ok_bind]
  dsimp only
  rw [if_neg present, beyond]
  rfl

end Outcomes

/-! ## Instructions -/

section Instructions

variable {κ : Type} {syscall : SyscallEffect κ} {kernel : κ} {cpu : Cpu} {pc : BitVec 64}
  {code : List UInt8}

/-- A byte that the interpreter takes for a prefix is one. -/
theorem byte_rexOf {byte : UInt8} (isRex : byte &&& 0xF0 = 0x40) : (rexOf byte).byte = byte := by
  revert byte
  decide +kernel

/-- Code that is nothing but a prefix is refused. -/
theorem executeInstruction_withRex (rex : Option Rex) :
    executeInstruction syscall kernel cpu pc (Rex.optional rex) = .ok (none, cpu, kernel) := by
  cases rex with
  | none => rfl
  | some rex =>
    have first : codeAt [rex.byte] 0 = .ok rex.byte := codeAt_behind [] rex.byte []
    simp only [Rex.optional, Option.map_some, Option.toList_some, executeInstruction,
      List.isEmpty_cons, Bool.false_eq_true, ↓reduceIte, first, ok_bind, (rexOf_byte rex).1,
      List.length_cons, List.length_nil, Nat.zero_add, Nat.le_refl]
    rfl

/-- Code is nothing but a prefix, or has an opcode behind it. -/
theorem code_cases (code : List UInt8) :
    (∃ rex, code = Rex.optional rex) ∨
      ∃ rex opcode rest, (rex = none → opcode &&& 0xF0 ≠ 0x40) ∧
        code = Rex.optional rex ++ opcode :: rest := by
  cases code with
  | nil => exact .inl ⟨none, rfl⟩
  | cons first behind =>
    by_cases isRex : first &&& 0xF0 = 0x40
    · have byte := byte_rexOf isRex
      cases behind with
      | nil => exact .inl ⟨some (rexOf first), congrArg ([·]) byte.symm⟩
      | cons opcode rest =>
        exact .inr ⟨some (rexOf first), opcode, rest,
          fun noRex => absurd noRex (Option.some_ne_none _),
          congrArg (· :: opcode :: rest) byte.symm⟩
    · exact .inr ⟨none, first, behind, fun _ => isRex, rfl⟩

/-- Code that ends in an instruction is nothing but a prefix, or ends behind its opcode. -/
theorem ended_cases {rex : Option Rex} {opcode : UInt8} {operand : List UInt8}
    (starts : code <+: Rex.optional rex ++ opcode :: operand) :
    (∃ rex, code = Rex.optional rex) ∨
      ∃ rest, code = Rex.optional rex ++ opcode :: rest ∧ rest <+: operand := by
  cases rex with
  | none =>
    rcases List.prefix_cons_iff.mp starts with rfl | ⟨rest, rfl, inside⟩
    · exact .inl ⟨none, rfl⟩
    · exact .inr ⟨rest, rfl, inside⟩
  | some rex =>
    rcases List.prefix_cons_iff.mp starts with rfl | ⟨behind, rfl, inside⟩
    · exact .inl ⟨none, rfl⟩
    · rcases List.prefix_cons_iff.mp (inside : _ <+: opcode :: operand) with rfl | ⟨rest, rfl, last⟩
      · exact .inl ⟨some rex, rfl⟩
      · exact .inr ⟨rest, rfl, last⟩

/-- Code that does not end behind the displacement of `C7` has the constant, or not all of the
displacement. -/
theorem apart_of_notEnds (notEnds : ¬ EndsInConstant code) {rex : Option Rex} {opcode : UInt8}
    {rest : List UInt8} (shape : code = Rex.optional rex ++ opcode :: rest) (tail : List UInt8)
    (isMov : opcode = 0xC7) (relative : rest = 0x05 :: tail) :
    ¬ (4 ≤ tail.length ∧ tail.length < 8) := by
  rintro ⟨long, short⟩
  exact notEnds ⟨rex, tail, by rw [shape, isMov, relative], long, short⟩

/-- On such code the interpreter ends. -/
theorem executeInstruction_ends (notEnds : ¬ EndsInConstant code) :
    Ends (executeInstruction syscall kernel cpu pc code) := by
  rcases code_cases code with ⟨rex, rfl⟩ | ⟨rex, opcode, rest, notRex, shape⟩
  · rw [executeInstruction_withRex rex]
    exact ends_ok _
  · rw [shape, executeInstruction_match rex notRex]
    exact matchOpcode_ends (apart_of_notEnds notEnds shape)

/-- The interpreter never reads outside its code, and refuses code that ends in an instruction with
nothing changed, exactly when the code does not end behind the displacement of `C7`. -/
theorem executeInstruction_inside_iff {κ : Type} (syscall : SyscallEffect κ) (kernel : κ) (cpu : Cpu)
    (pc : BitVec 64) (code : List UInt8) :
    executeInstruction syscall kernel cpu pc code ≠ .error .outOfRange ∧
        (Truncated code →
          executeInstruction syscall kernel cpu pc code = .ok (none, cpu, kernel)) ↔
      ¬ EndsInConstant code := by
  constructor
  · rintro ⟨inside, _⟩ ⟨rex, tail, rfl, long, short⟩
    rw [executeInstruction_behind rex (by decide)] at inside
    exact inside (congrArg (Executed.keeping kernel) (executeMovRm_panics long short))
  · intro notEnds
    refine ⟨(executeInstruction_ends notEnds).inside, ?_⟩
    rintro ⟨rex, opcode, operand, follows, notRex, starts, short⟩
    rcases ended_cases starts with ⟨rex, rfl⟩ | ⟨rest, shape, inside⟩
    · exact executeInstruction_withRex rex
    · have shorter : rest.length < operand.length := by
        rw [shape] at short
        simpa using short
      rw [shape, executeInstruction_match rex notRex]
      exact matchOpcode_truncated follows inside shorter (apart_of_notEnds notEnds shape)

/-- `mov dword ptr [rip], ...` without its constant ends the interpreter. -/
theorem executeInstruction_inside_counterexample :
    Truncated [0xC7, 0x05, 0, 0, 0, 0] ∧
      executeInstruction succeeds () ⟨fun _ => 0, ⟨fun _ => 0, []⟩⟩ 0x1000
        [0xC7, 0x05, 0, 0, 0, 0] = .error .outOfRange := by
  have operand : IsOperand 0x05 [0, 0, 0, 0] := ⟨by decide⟩
  have follows : Follows false 0xC7 (0x05 :: ([0, 0, 0, 0] ++ [1, 0, 0, 0])) :=
    .group11 operand rfl
  exact ⟨⟨none, 0xC7, _, follows, by decide, by decide, by decide⟩, rfl⟩

end Instructions

end Aperture.Win32
