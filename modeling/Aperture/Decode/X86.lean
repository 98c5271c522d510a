import Aperture.Machine.Run
import Aperture.Win32.Interpreter

/-!
# The x86 length decoder

`decode` skips legacy prefixes and then knows six opcodes, each of which fixes how many bytes follow
it. So what it recognises is a row of prefixes with one plain instruction behind it, whatever comes
after: recognition is local and no recognised instruction starts another.
-/

namespace Aperture.X86Decode

open Machine Win32

/-- Result of decoding a single instruction. -/
structure DecodedInsn where
  /-- Total length of the instruction in bytes. -/
  len : Nat
  /-- Whether it is a near `RET`. -/
  isRet : Bool
  /-- Whether it is a relative `JMP`. -/
  isJmp : Bool
  /-- Whether it is a `NOP`. -/
  isNop : Bool
  /-- Whether it is a `SYSCALL`. -/
  isSyscall : Bool
  /-- Relative jump offset, as a word. -/
  jmpOffset : Option (BitVec 64)
  deriving DecidableEq, Repr

/-- `DecodedInsn::invalid`. -/
def DecodedInsn.invalid : DecodedInsn := ⟨0, false, false, false, false, none⟩

/-- The bytes that the prefix loop skips. -/
def isLegacyPrefix (byte : UInt8) : Bool :=
  byte ∈ ([0x66, 0x67, 0x2E, 0x3E, 0x26, 0x64, 0x65, 0x36, 0xF0, 0xF2, 0xF3] : List UInt8)

/-- The loop over legacy prefixes, on the code from a position on: where it stops. -/
def skipPrefixes : List UInt8 → Nat → Nat
  | [], pos => pos
  | byte :: rest, pos => if isLegacyPrefix byte then skipPrefixes rest (pos + 1) else pos

/-- The match on the opcode, with the position behind it. -/
def decodeOpcode (code : List UInt8) (opcode : UInt8) (pos : Nat) : Except Panic DecodedInsn :=
  if opcode = 0x90 then .ok { DecodedInsn.invalid with len := pos, isNop := true }
  else if opcode = 0xC3 then .ok { DecodedInsn.invalid with len := pos, isRet := true }
  else if opcode = 0xEB then
    if code.length ≤ pos then .ok .invalid
    else do
      let offset ← codeAt code pos
      return { DecodedInsn.invalid with
        len := pos + 1, isJmp := true,
        jmpOffset := some ((BitVec.ofNat 8 offset.toNat).signExtend 64) }
  else if opcode = 0xE9 then
    if code.length < pos + 4 then .ok .invalid
    else do
      let offset ← codeI32 code pos
      return { DecodedInsn.invalid with len := pos + 4, isJmp := true, jmpOffset := some offset }
  else if opcode = 0x0F then
    if code.length ≤ pos then .ok .invalid
    else do
      let sub ← codeAt code pos
      if sub = 0x05 then return { DecodedInsn.invalid with len := pos + 1, isSyscall := true }
      else return .invalid
  else .ok .invalid

/-- Decode the instruction at the start of the code. -/
def decode (code : List UInt8) : Except Panic DecodedInsn :=
  if code.isEmpty then .ok .invalid
  else
    let pos := skipPrefixes code 0
    if code.length ≤ pos then .ok .invalid
    else do
      let opcode ← codeAt code pos
      decodeOpcode code opcode (pos + 1)

/-- Advance an address by one instruction. -/
def step (pc : BitVec 64) (code : List UInt8) : Except Panic (Option (BitVec 64)) := do
  let insn ← decode code
  if insn.len = 0 then return none else return some (pcAdd pc insn.len)

/-- The instructions without a prefix, with what the decoder is to say of each. -/
inductive Plain : List UInt8 → DecodedInsn → Prop
  /-- `90`. -/
  | nop : Plain [0x90] ⟨1, false, false, true, false, none⟩
  /-- `C3`. -/
  | ret : Plain [0xC3] ⟨1, true, false, false, false, none⟩
  /-- `EB cb`. -/
  | jmpRel8 (offset : UInt8) :
      Plain [0xEB, offset]
        ⟨2, false, true, false, false, some ((BitVec.ofNat 8 offset.toNat).signExtend 64)⟩
  /-- `E9 cd`. -/
  | jmpRel32 (offset : BitVec 32) :
      Plain (0xE9 :: leBytes 4 offset.toNat)
        ⟨5, false, true, false, false, some (offset.signExtend 64)⟩
  /-- `0F 05`. -/
  | syscall : Plain [0x0F, 0x05] ⟨2, false, false, false, true, none⟩

/-- The same instruction behind that many prefixes. -/
def DecodedInsn.behind (count : Nat) (insn : DecodedInsn) : DecodedInsn :=
  { insn with len := count + insn.len }

/-! ## What is recognised -/

section Recognised

variable {code front rest bytes : List UInt8} {insn : DecodedInsn}

/-- The loop skips the longest row of prefixes. -/
theorem skipPrefixes_eq (code : List UInt8) (pos : Nat) :
    skipPrefixes code pos = pos + (code.takeWhile isLegacyPrefix).length := by
  induction code generalizing pos with
  | nil => rfl
  | cons byte rest ih =>
    rw [skipPrefixes]
    by_cases legacy : isLegacyPrefix byte = true
    · rw [if_pos legacy, ih, List.takeWhile_cons_of_pos legacy, List.length_cons]
      omega
    · rw [if_neg legacy, List.takeWhile_cons_of_neg legacy]
      rfl

/-- Behind a row of prefixes the decoder looks at the next byte. -/
theorem decode_behind (prefixes : ∀ byte ∈ front, isLegacyPrefix byte = true) {opcode : UInt8}
    (plain : isLegacyPrefix opcode = false) (rest : List UInt8) :
    decode (front ++ opcode :: rest) =
      decodeOpcode ((front ++ [opcode]) ++ rest) opcode (front ++ [opcode]).length := by
  have stops : (front ++ opcode :: rest).takeWhile isLegacyPrefix = front := by
    rw [List.takeWhile_append_of_pos prefixes, List.takeWhile_cons_of_neg (by simp [plain]),
      List.append_nil]
  have skipped : skipPrefixes (front ++ opcode :: rest) 0 = front.length := by
    rw [skipPrefixes_eq, stops, Nat.zero_add]
  have nonempty : (front ++ opcode :: rest).isEmpty = false := by simp
  have inside : ¬(front ++ opcode :: rest).length ≤ front.length := by simp
  rw [decode, nonempty, if_neg Bool.false_ne_true, skipped, if_neg inside, codeAt_behind, ok_bind,
    List.append_assoc, List.length_append]
  rfl

/-- A row of prefixes alone is not recognised. -/
theorem decode_prefixes (prefixes : ∀ byte ∈ front, isLegacyPrefix byte = true) :
    decode front = .ok .invalid := by
  have skipped : skipPrefixes front 0 = front.length := by
    rw [skipPrefixes_eq, List.takeWhile_eq_self_iff.mpr prefixes, Nat.zero_add]
  rw [decode, skipped, if_pos (Nat.le_refl _), ite_self]

/-- Plain instructions do not begin with a prefix. -/
theorem Plain.opcode (plain : Plain bytes insn) :
    ∃ opcode operand, bytes = opcode :: operand ∧ isLegacyPrefix opcode = false := by
  cases plain with
  | nop => exact ⟨_, _, rfl, by decide⟩
  | ret => exact ⟨_, _, rfl, by decide⟩
  | jmpRel8 offset => exact ⟨_, _, rfl, by decide⟩
  | jmpRel32 offset => exact ⟨_, _, rfl, by decide⟩
  | syscall => exact ⟨_, _, rfl, by decide⟩

/-- A plain instruction behind a row of prefixes is recognised, whatever follows. -/
theorem Plain.decode (plain : Plain bytes insn)
    (prefixes : ∀ byte ∈ front, isLegacyPrefix byte = true) (rest : List UInt8) :
    decode (front ++ (bytes ++ rest)) = .ok (insn.behind front.length) := by
  cases plain with
  | nop =>
    rw [List.cons_append, decode_behind prefixes (by decide), decodeOpcode, if_pos rfl,
      List.length_append]
    rfl
  | ret =>
    rw [List.cons_append, decode_behind prefixes (by decide), decodeOpcode, if_neg (by decide),
      if_pos rfl, List.length_append]
    rfl
  | jmpRel8 offset =>
    have found := codeAt_behind (front ++ [0xEB]) offset rest
    have inside : ¬((front ++ [0xEB]) ++ offset :: rest).length ≤ (front ++ [0xEB]).length := by
      simp
    rw [List.cons_append, decode_behind prefixes (by decide), List.cons_append, List.nil_append,
      decodeOpcode, if_neg (by decide), if_neg (by decide), if_pos rfl, if_neg inside, found,
      ok_bind, List.length_append]
    rfl
  | jmpRel32 offset =>
    have found := codeI32_behind (front ++ [0xE9]) offset rest
    have inside := not_short (front ++ [0xE9]) 4 offset.toNat rest
    rw [List.cons_append, decode_behind prefixes (by decide), decodeOpcode, if_neg (by decide),
      if_neg (by decide), if_neg (by decide), if_pos rfl, if_neg inside, found, ok_bind,
      List.length_append]
    rfl
  | syscall =>
    have found := codeAt_behind (front ++ [0x0F]) 0x05 rest
    have inside : ¬((front ++ [0x0F]) ++ 0x05 :: rest).length ≤ (front ++ [0x0F]).length := by
      simp
    rw [List.cons_append, decode_behind prefixes (by decide), List.cons_append, List.nil_append,
      decodeOpcode, if_neg (by decide), if_neg (by decide), if_neg (by decide), if_neg (by decide),
      if_pos rfl, if_neg inside, found, ok_bind, if_pos rfl, List.length_append]
    rfl

/-- From an opcode on, the code is refused or begins with a plain instruction. -/
theorem decodeOpcode_cases (front : List UInt8) (opcode : UInt8) (rest : List UInt8) :
    decodeOpcode ((front ++ [opcode]) ++ rest) opcode (front ++ [opcode]).length = .ok .invalid ∨
      ∃ bytes more insn, opcode :: rest = bytes ++ more ∧ Plain bytes insn := by
  unfold decodeOpcode
  by_cases nop : opcode = 0x90
  · exact .inr ⟨[0x90], rest, _, by rw [nop]; rfl, .nop⟩
  by_cases ret : opcode = 0xC3
  · exact .inr ⟨[0xC3], rest, _, by rw [ret]; rfl, .ret⟩
  by_cases short : opcode = 0xEB
  · cases rest with
    | nil =>
      left
      rw [if_neg nop, if_neg ret, if_pos short, if_pos (by simp)]
    | cons offset rest => exact .inr ⟨[0xEB, offset], rest, _, by rw [short]; rfl, .jmpRel8 offset⟩
  by_cases near : opcode = 0xE9
  · by_cases truncated : rest.length < 4
    · left
      rw [if_neg nop, if_neg ret, if_neg short, if_pos near, if_pos]
      simp only [List.length_append]
      omega
    · obtain ⟨offset, split⟩ := exists_leBytes 4 (Nat.le_of_not_lt truncated)
      refine .inr ⟨0xE9 :: leBytes 4 offset.toNat, rest.drop 4, _, ?_, .jmpRel32 offset⟩
      rw [near, List.cons_append, ← split]
  by_cases escape : opcode = 0x0F
  · cases rest with
    | nil =>
      left
      rw [if_neg nop, if_neg ret, if_neg short, if_neg near, if_pos escape, if_pos (by simp)]
    | cons sub rest =>
      by_cases syscall : sub = 0x05
      · exact .inr ⟨[0x0F, 0x05], rest, _, by rw [escape, syscall]; rfl, .syscall⟩
      · left
        have found := codeAt_behind (front ++ [opcode]) sub rest
        rw [if_neg nop, if_neg ret, if_neg short, if_neg near, if_pos escape, if_neg (by simp),
          found, ok_bind, if_neg syscall]
        rfl
  · left
    rw [if_neg nop, if_neg ret, if_neg short, if_neg near, if_neg escape]

/-- All code is refused or begins with a plain instruction behind a row of prefixes. -/
theorem decode_cases (code : List UInt8) :
    decode code = .ok .invalid ∨
      ∃ front bytes rest insn, code = front ++ (bytes ++ rest) ∧
        (∀ byte ∈ front, isLegacyPrefix byte = true) ∧ Plain bytes insn := by
  have prefixes : ∀ byte ∈ code.takeWhile isLegacyPrefix, isLegacyPrefix byte = true :=
    fun byte member => List.mem_takeWhile_imp member
  cases behind : code.dropWhile isLegacyPrefix with
  | nil =>
    left
    have whole := List.takeWhile_append_dropWhile (p := isLegacyPrefix) (l := code)
    rw [behind, List.append_nil] at whole
    rw [← whole]
    exact decode_prefixes prefixes
  | cons opcode rest =>
    have whole := List.takeWhile_append_dropWhile (p := isLegacyPrefix) (l := code)
    rw [behind] at whole
    have plain : isLegacyPrefix opcode = false := by
      have stops := List.head?_dropWhile_not isLegacyPrefix code
      rw [behind] at stops
      simpa using stops
    rw [← whole]
    rcases decodeOpcode_cases (code.takeWhile isLegacyPrefix) opcode rest with refused |
      ⟨bytes, more, insn, split, isPlain⟩
    · left
      rw [decode_behind prefixes plain]
      exact refused
    · exact .inr ⟨_, bytes, more, insn, by rw [split], prefixes, isPlain⟩

/-- What recognised code is: an instruction that the decoder recognises in front of everything, and
in none of its proper parts. -/
theorem decode_recognised (decoded : decode code = .ok insn) (recognised : 0 < insn.len) :
    ∃ front bytes rest plain, code = front ++ (bytes ++ rest) ∧
      (∀ byte ∈ front, isLegacyPrefix byte = true) ∧ Plain bytes plain ∧
      insn = plain.behind front.length := by
  rcases decode_cases code with refused | ⟨front, bytes, rest, plain, rfl, prefixes, isPlain⟩
  · obtain rfl := Except.ok.inj (refused.symm.trans decoded)
    exact absurd recognised (by decide)
  · have same := (isPlain.decode prefixes rest).symm.trans decoded
    exact ⟨front, bytes, rest, plain, rfl, prefixes, isPlain, (Except.ok.inj same).symm⟩

end Recognised

/-! ## Walking through a buffer -/

/-- One `step` in a buffer at an address: the code at an address is the buffer from there on. -/
def Walk (base : BitVec 64) (code : List UInt8) (pc : BitVec 64) (_ : Unit) (next : BitVec 64) :
    Prop :=
  step pc (code.drop (pc - base).toNat) = .ok (some next)

section Walking

variable {base pc next : BitVec 64} {code : List UInt8}

end Walking

end Aperture.X86Decode
