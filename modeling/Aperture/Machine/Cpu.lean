import Aperture.Machine.Memory

/-!
# Straight-line x86-64 code

Registers hold 64-bit words and memory is byte addressed. Hand-written assembly is a list of
instructions between two transfers of control; `exec` runs it. Pushes leave their words on
the stack in reverse, pops take words back, and neither touches memory elsewhere, so a saved
frame is a list of words that later code has only to leave alone.
-/

namespace Aperture.Machine

/-- General-purpose registers, in the order of their numbers. -/
inductive Register where
  /-- Number 0. -/
  | rax
  /-- Number 1. -/
  | rcx
  /-- Number 2. -/
  | rdx
  /-- Number 3. -/
  | rbx
  /-- Number 4. -/
  | rsp
  /-- Number 5. -/
  | rbp
  /-- Number 6. -/
  | rsi
  /-- Number 7. -/
  | rdi
  /-- Number 8. -/
  | r8
  /-- Number 9. -/
  | r9
  /-- Number 10. -/
  | r10
  /-- Number 11. -/
  | r11
  /-- Number 12. -/
  | r12
  /-- Number 13. -/
  | r13
  /-- Number 14. -/
  | r14
  /-- Number 15. -/
  | r15
  deriving DecidableEq, Repr

namespace PhysMem

/-- Read a word at an address. -/
def load64 (memory : PhysMem) (address : BitVec 64) : BitVec 64 :=
  BitVec.ofNat 64 (memory.readU64 address.toNat)

/-- Write a word at an address. -/
def store64 (memory : PhysMem) (address value : BitVec 64) : PhysMem :=
  memory.writeU64 address.toNat value.toNat

/-- A written word reads back. -/
@[simp]
theorem load64_store64 (memory : PhysMem) (address value : BitVec 64) :
    (memory.store64 address value).load64 address = value := by
  have fits : value.toNat < wordSize := value.isLt
  rw [load64, store64, readU64_writeU64 _ _ fits]
  rw [BitVec.ofNat_toNat, BitVec.setWidth_eq]

/-- A word written elsewhere does not change a word. -/
theorem load64_store64_separate (memory : PhysMem) {address other : BitVec 64} (value : BitVec 64)
    (apart : other.toNat + 8 ≤ address.toNat ∨ address.toNat + 8 ≤ other.toNat) :
    (memory.store64 address value).load64 other = memory.load64 other := by
  rw [load64, store64, readU64_writeU64_separate _ _ apart]
  rfl

/-- A word is refused at an address that is no multiple of 8. -/
def checkWord (address : BitVec 64) : Except Panic Unit :=
  if address.toNat % 8 = 0 then .ok () else .error (.misaligned address.toNat)

/-- So is the word that an instruction accesses, if it accesses one. -/
def checkAccess (access : Option (BitVec 64)) : Except Panic Unit :=
  match access with
  | none => .ok ()
  | some address => checkWord address

/-- `read_volatile` of a word. In a build with debug assertions it checks the address. -/
def readVolatile (memory : PhysMem) (address : BitVec 64) : Except Panic (BitVec 64) := do
  checkWord address
  return memory.load64 address

/-- `write_volatile` of a word, with the same check. -/
def writeVolatile (memory : PhysMem) (address value : BitVec 64) : Except Panic PhysMem := do
  checkWord address
  return memory.store64 address value

end PhysMem

/-- An access is not refused exactly when its address is a multiple of 8. -/
theorem PhysMem.checkAccess_eq_ok {access : Option (BitVec 64)} :
    PhysMem.checkAccess access = .ok () ↔ ∀ address ∈ access, address.toNat % 8 = 0 := by
  cases access with
  | none => simp [checkAccess]
  | some address => simp [checkAccess, checkWord]

/-- A refused one names its address. -/
theorem PhysMem.checkAccess_eq_error {access : Option (BitVec 64)} {reason : Panic} :
    PhysMem.checkAccess access = .error reason ↔
      ∃ address ∈ access, ¬ address.toNat % 8 = 0 ∧ reason = .misaligned address.toNat := by
  cases access with
  | none => simp [checkAccess]
  | some address =>
    simp only [checkAccess, checkWord, Option.mem_some_iff, exists_eq_left']
    split <;> simp_all [eq_comm]

/-- A word outside the written region keeps its value. -/
theorem WritesWithin.load64 {region : Set Nat} {before after : PhysMem}
    (within : WritesWithin region before after) {address : BitVec 64}
    (outside : ∀ a ∈ (⟨address.toNat, 8⟩ : Span), a ∉ region) :
    after.load64 address = before.load64 address := by
  rw [PhysMem.load64, within.readU64 outside]
  rfl

/-- A word write stays within any region that covers its eight bytes. -/
theorem WritesWithin.store64 {region : Set Nat} (memory : PhysMem) {address : BitVec 64}
    (value : BitVec 64) (covered : ∀ a ∈ (⟨address.toNat, 8⟩ : Span), a ∈ region) :
    WritesWithin region memory (memory.store64 address value) :=
  .writeU64 memory _ covered

/-- Registers and memory. -/
structure Cpu where
  /-- General-purpose registers. -/
  regs : Register → BitVec 64
  /-- Memory. -/
  memory : PhysMem

/-- Instructions without a transfer of control. -/
inductive Instr where
  /-- `push src`. -/
  | push (src : Register)
  /-- `pop dst`. -/
  | pop (dst : Register)
  /-- `mov dst, src`. -/
  | mov (dst src : Register)
  /-- `mov dst, value`, and `lea dst, [value]` for a known address. -/
  | movImm (dst : Register) (value : BitVec 64)
  /-- `mov dst, value` on the low byte of `dst`. -/
  | movLow (dst : Register) (value : BitVec 8)
  /-- `mov dst, [base + offset]`. -/
  | load (dst base : Register) (offset : BitVec 64)
  /-- `mov [base + offset], src`. -/
  | store (base : Register) (offset : BitVec 64) (src : Register)
  /-- `mov qword ptr [base + offset], value`. -/
  | storeImm (base : Register) (offset value : BitVec 64)
  /-- `and dst, mask`. -/
  | andImm (dst : Register) (mask : BitVec 64)
  /-- `sub dst, value`. -/
  | subImm (dst : Register) (value : BitVec 64)
  /-- `add dst, value`. -/
  | addImm (dst : Register) (value : BitVec 64)
  deriving DecidableEq, Repr

namespace Cpu

/-- Set a register. -/
def set (cpu : Cpu) (dst : Register) (value : BitVec 64) : Cpu :=
  { cpu with regs := Function.update cpu.regs dst value }

/-- The register set. -/
@[simp]
theorem set_self (cpu : Cpu) (dst : Register) (value : BitVec 64) :
    (cpu.set dst value).regs dst = value := Function.update_self _ _ _

/-- The other registers. -/
theorem set_other (cpu : Cpu) {dst r : Register} (value : BitVec 64) (other : r ≠ dst) :
    (cpu.set dst value).regs r = cpu.regs r := Function.update_of_ne other _ _

/-- Setting a register leaves memory alone. -/
@[simp]
theorem set_memory (cpu : Cpu) (dst : Register) (value : BitVec 64) :
    (cpu.set dst value).memory = cpu.memory := rfl

/-- Push a word. -/
def pushWord (cpu : Cpu) (value : BitVec 64) : Cpu :=
  let rsp := cpu.regs .rsp - 8
  ⟨Function.update cpu.regs .rsp rsp, cpu.memory.store64 rsp value⟩

/-- The word on top of the stack. -/
def top (cpu : Cpu) : BitVec 64 := cpu.memory.load64 (cpu.regs .rsp)

/-- Drop the word on top of the stack; `ret` continues at `top` with this state. -/
def dropWord (cpu : Cpu) : Cpu := cpu.set .rsp (cpu.regs .rsp + 8)

end Cpu

/-- One instruction. -/
def Instr.exec (cpu : Cpu) : Instr → Cpu
  | .push src => cpu.pushWord (cpu.regs src)
  | .pop dst => cpu.dropWord.set dst cpu.top
  | .mov dst src => cpu.set dst (cpu.regs src)
  | .movImm dst value => cpu.set dst value
  | .movLow dst value => cpu.set dst ((cpu.regs dst &&& ~~~255) ||| value.setWidth 64)
  | .load dst base offset => cpu.set dst (cpu.memory.load64 (cpu.regs base + offset))
  | .store base offset src =>
    { cpu with memory := cpu.memory.store64 (cpu.regs base + offset) (cpu.regs src) }
  | .storeImm base offset value =>
    { cpu with memory := cpu.memory.store64 (cpu.regs base + offset) value }
  | .andImm dst mask => cpu.set dst (cpu.regs dst &&& mask)
  | .subImm dst value => cpu.set dst (cpu.regs dst - value)
  | .addImm dst value => cpu.set dst (cpu.regs dst + value)

namespace Cpu

/-- A sequence of instructions. -/
def exec (cpu : Cpu) (program : List Instr) : Cpu := program.foldl Instr.exec cpu

/-- Nothing to run. -/
@[simp]
theorem exec_nil (cpu : Cpu) : cpu.exec [] = cpu := rfl

/-- The first instruction, then the rest. -/
@[simp]
theorem exec_cons (cpu : Cpu) (first : Instr) (rest : List Instr) :
    cpu.exec (first :: rest) = (first.exec cpu).exec rest := rfl

/-- One sequence after the other. -/
theorem exec_append (cpu : Cpu) (first second : List Instr) :
    cpu.exec (first ++ second) = (cpu.exec first).exec second :=
  List.foldl_append

end Cpu

/-! ## Faults -/

/-- The word in memory that an instruction writes. -/
def Instr.target (cpu : Cpu) : Instr → Option (BitVec 64)
  | .push _ => some (cpu.regs .rsp - 8)
  | .store base offset _ => some (cpu.regs base + offset)
  | .storeImm base offset _ => some (cpu.regs base + offset)
  | _ => none

/-- One instruction where only some words may be written: at any other the processor faults. -/
def Instr.execIn (writable : BitVec 64 → Bool) (cpu : Cpu) (instr : Instr) : Except Panic Cpu :=
  match instr.target cpu with
  | none => .ok (instr.exec cpu)
  | some address =>
    if writable address then .ok (instr.exec cpu) else .error (.fault address.toNat)

namespace Cpu

/-- A sequence of instructions where only some words may be written. -/
def execIn (writable : BitVec 64 → Bool) (cpu : Cpu) (program : List Instr) : Except Panic Cpu :=
  program.foldlM (Instr.execIn writable) cpu

/-- The words that a sequence of instructions writes. -/
def targets (cpu : Cpu) : List Instr → List (BitVec 64)
  | [] => []
  | first :: rest => (first.target cpu).toList ++ (first.exec cpu).targets rest

/-- What two sequences after each other write. -/
theorem targets_append (cpu : Cpu) (first second : List Instr) :
    cpu.targets (first ++ second) = cpu.targets first ++ (cpu.exec first).targets second := by
  induction first generalizing cpu with
  | nil => rfl
  | cons instr rest ih => rw [List.cons_append, targets, targets, ih, List.append_assoc, exec_cons]

/-- A sequence of instructions does not fault exactly when every word it writes may be written. -/
theorem execIn_eq_ok {writable : BitVec 64 → Bool} {cpu after : Cpu} {program : List Instr} :
    cpu.execIn writable program = .ok after ↔
      (∀ address ∈ cpu.targets program, writable address = true) ∧ after = cpu.exec program := by
  induction program generalizing cpu with
  | nil =>
    exact ⟨fun same => ⟨by simp [targets], (Except.ok.inj same).symm⟩,
      fun same => by rw [same.2]; rfl⟩
  | cons first rest ih =>
    have split : cpu.execIn writable (first :: rest) =
        first.execIn writable cpu >>= fun next => next.execIn writable rest := List.foldlM_cons
    have stepped (next : Cpu) : first.execIn writable cpu = .ok next ↔
        (∀ address ∈ (first.target cpu).toList, writable address = true) ∧
          next = first.exec cpu := by
      unfold Instr.execIn
      cases first.target cpu with
      | none =>
        exact ⟨fun same => ⟨by simp, (Except.ok.inj same).symm⟩, fun same => by rw [same.2]⟩
      | some address =>
        by_cases allowed : writable address = true
        · simp only [allowed, if_true]
          exact ⟨fun same => ⟨by simp [allowed], (Except.ok.inj same).symm⟩,
            fun same => by rw [same.2]⟩
        · simp [allowed]
    rw [split, bind_eq_ok, targets, exec_cons]
    simp only [stepped, ih, List.forall_mem_append]
    constructor
    · rintro ⟨next, ⟨head, rfl⟩, tail, rfl⟩
      exact ⟨⟨head, tail⟩, rfl⟩
    · rintro ⟨⟨head, tail⟩, rfl⟩
      exact ⟨_, ⟨head, rfl⟩, tail, rfl⟩

/-- Pushes write the words below the stack pointer. -/
theorem mem_targets_pushes {cpu : Cpu} {saved : List Register} (notRsp : Register.rsp ∉ saved)
    {address : BitVec 64} :
    address ∈ cpu.targets (saved.map .push) ↔
      ∃ i < saved.length, address = cpu.regs .rsp - BitVec.ofNat 64 (8 * (i + 1)) := by
  induction saved generalizing cpu with
  | nil => simp [targets]
  | cons first rest ih =>
    rw [List.mem_cons, not_or] at notRsp
    have below (i : Nat) : cpu.regs .rsp - 8 - BitVec.ofNat 64 (8 * (i + 1)) =
        cpu.regs .rsp - BitVec.ofNat 64 (8 * (i + 1 + 1)) := by
      rw [Nat.mul_succ 8 (i + 1), BitVec.ofNat_add, sub_sub, BitVec.add_comm]
      rfl
    have pushed : (Instr.exec cpu (.push first)).regs .rsp = cpu.regs .rsp - 8 := by
      simp only [Instr.exec, pushWord, Function.update_self]
    rw [List.map_cons, targets, List.mem_append, ih notRsp.2, pushed, List.length_cons]
    simp only [Instr.target, Option.toList_some, List.mem_singleton]
    constructor
    · rintro (rfl | ⟨i, inside, rfl⟩)
      · exact ⟨0, Nat.succ_pos _, rfl⟩
      · exact ⟨i + 1, Nat.succ_lt_succ inside, below i⟩
    · rintro ⟨i, inside, rfl⟩
      cases i with
      | zero => exact .inl rfl
      | succ i => exact .inr ⟨i, Nat.lt_of_succ_lt_succ inside, (below i).symm⟩

end Cpu

/-! ## Words -/

/-- Consecutive words of memory from an address. -/
def Words (memory : PhysMem) : BitVec 64 → List (BitVec 64) → Prop
  | _, [] => True
  | base, value :: rest => memory.load64 base = value ∧ Words memory (base + 8) rest

/-- The bytes of consecutive words. -/
def wordSpan (base : BitVec 64) (count : Nat) : Span := ⟨base.toNat, 8 * count⟩

/-- The address after a word, when it does not wrap. -/
theorem toNat_add_eight {base : BitVec 64} (fits : base.toNat + 8 < 2 ^ 64) :
    (base + 8).toNat = base.toNat + 8 := by
  rw [BitVec.toNat_add]
  exact Nat.mod_eq_of_lt fits

/-- Words survive writes off their bytes. -/
theorem Words.congr {region : Set Nat} {before after : PhysMem} {base : BitVec 64}
    {values : List (BitVec 64)} (words : Words before base values)
    (writes : WritesWithin region before after)
    (fits : base.toNat + 8 * values.length ≤ 2 ^ 64)
    (off : ∀ a ∈ wordSpan base values.length, a ∉ region) : Words after base values := by
  induction values generalizing base with
  | nil => trivial
  | cons value rest ih =>
    rw [List.length_cons] at fits
    have first : ∀ a ∈ (⟨base.toNat, 8⟩ : Span), a ∉ region := by
      intro a inside
      apply off
      simp only [wordSpan, Span.mem_iff, List.length_cons] at inside ⊢
      omega
    refine ⟨(writes.load64 first).trans words.1, ?_⟩
    cases rest with
    | nil => trivial
    | cons next rest =>
      rw [List.length_cons] at fits
      have room : base.toNat + 8 < 2 ^ 64 := by omega
      have above := toNat_add_eight room
      refine ih words.2 (by rw [above, List.length_cons]; omega) fun a inside => ?_
      apply off
      simp only [wordSpan, Span.mem_iff, List.length_cons, above] at inside ⊢
      omega

/-- Words a number of places apart have no byte in common, also where addresses wrap. -/
theorem words_apart (base : BitVec 64) {places : Nat} (positive : 0 < places)
    (few : places < 2 ^ 60) :
    base.toNat + 8 ≤ (base + BitVec.ofNat 64 (8 * places)).toNat ∨
      (base + BitVec.ofNat 64 (8 * places)).toNat + 8 ≤ base.toNat := by
  have bound := base.isLt
  rw [BitVec.toNat_add, BitVec.toNat_ofNat]
  omega

/-- A place further on. -/
theorem ofNat_succ_places (places : Nat) :
    BitVec.ofNat 64 (8 * (places + 1)) = BitVec.ofNat 64 (8 * places) + 8 := by
  rw [Nat.mul_succ, BitVec.ofNat_add]
  rfl

/-- Words survive the store of a word below them. -/
theorem Words.store64 {memory : PhysMem} {base target : BitVec 64} {values : List (BitVec 64)}
    {places : Nat} (words : Words memory base values)
    (below : target + BitVec.ofNat 64 (8 * places) = base) (positive : 0 < places)
    (few : places + values.length < 2 ^ 60) (value : BitVec 64) :
    Words (memory.store64 target value) base values := by
  induction values generalizing base places with
  | nil => trivial
  | cons first rest ih =>
    rw [List.length_cons] at few
    have next : target + BitVec.ofNat 64 (8 * (places + 1)) = base + 8 := by
      rw [ofNat_succ_places, ← BitVec.add_assoc, below]
    refine ⟨?_, ih words.2 next (Nat.succ_pos places) (by omega)⟩
    rw [PhysMem.load64_store64_separate, words.1]
    rw [← below]
    exact (words_apart target positive (by omega)).symm

/-- Words are there wherever they are read. -/
theorem Words.of_loads {before after : PhysMem} {base : BitVec 64} {values : List (BitVec 64)}
    (words : Words before base values)
    (loads : ∀ i < values.length, after.load64 (base + BitVec.ofNat 64 (8 * i)) =
      before.load64 (base + BitVec.ofNat 64 (8 * i))) : Words after base values := by
  induction values generalizing base with
  | nil => trivial
  | cons value rest ih =>
    have first := loads 0 (Nat.succ_pos _)
    rw [Nat.mul_zero, BitVec.add_zero] at first
    refine ⟨first.trans words.1, ih words.2 fun i inside => ?_⟩
    have later := loads (i + 1) (Nat.succ_lt_succ inside)
    rwa [ofNat_succ_places, BitVec.add_comm _ 8, ← BitVec.add_assoc] at later

/-- The first of the words. -/
theorem Words.left {memory : PhysMem} {base : BitVec 64} {first second : List (BitVec 64)}
    (words : Words memory base (first ++ second)) : Words memory base first := by
  induction first generalizing base with
  | nil => trivial
  | cons value rest ih => exact ⟨words.1, ih words.2⟩

/-- A word of consecutive words. -/
theorem Words.load {memory : PhysMem} {base : BitVec 64} {values : List (BitVec 64)}
    (words : Words memory base values) {i : Nat} (inside : i < values.length) :
    memory.load64 (base + BitVec.ofNat 64 (8 * i)) = values.getD i 0 := by
  induction values generalizing base i with
  | nil => exact absurd inside (Nat.not_lt_zero i)
  | cons value rest ih =>
    cases i with
    | zero => simpa using words.1
    | succ i =>
      have later := ih words.2 (Nat.lt_of_succ_lt_succ inside)
      rw [List.getD_cons_succ, ← later, Nat.mul_succ, Nat.add_comm, BitVec.ofNat_add,
        BitVec.add_assoc]
      rfl

namespace Cpu

variable {cpu : Cpu}

/-- The stack bytes that a number of pushes writes. -/
def pushSpan (cpu : Cpu) (count : Nat) : Span :=
  ⟨(cpu.regs .rsp).toNat - 8 * count, 8 * count⟩

/-- Pushing a word puts it in front of the words on the stack. -/
theorem pushWord_spec {values : List (BitVec 64)} (value : BitVec 64)
    (words : Words cpu.memory (cpu.regs .rsp) values) (room : 8 ≤ (cpu.regs .rsp).toNat)
    (fits : (cpu.regs .rsp).toNat + 8 * values.length ≤ 2 ^ 64) :
    ((cpu.pushWord value).regs .rsp).toNat = (cpu.regs .rsp).toNat - 8 ∧
      Words (cpu.pushWord value).memory ((cpu.pushWord value).regs .rsp) (value :: values) ∧
      WritesWithin (cpu.pushSpan 1).toSet cpu.memory (cpu.pushWord value).memory := by
  have below : (cpu.regs .rsp - 8).toNat = (cpu.regs .rsp).toNat - 8 := by
    have bound := (cpu.regs .rsp).isLt
    rw [BitVec.toNat_sub]
    show (2 ^ 64 - 8 + (cpu.regs .rsp).toNat) % 2 ^ 64 = _
    omega
  have writes : WritesWithin (cpu.pushSpan 1).toSet cpu.memory
      (cpu.memory.store64 (cpu.regs .rsp - 8) value) := by
    refine .store64 _ _ fun a inside => ?_
    simp only [pushSpan, Span.mem_toSet, Span.mem_iff, below] at inside ⊢
    omega
  simp only [pushWord, Function.update_self]
  refine ⟨below, ⟨PhysMem.load64_store64 _ _ _, ?_⟩, writes⟩
  rw [BitVec.sub_add_cancel]
  refine words.congr writes fits fun a inside outside => ?_
  simp only [pushSpan, wordSpan, Span.mem_toSet, Span.mem_iff] at inside outside
  omega

/-- Pushing changes no register but the stack pointer. -/
theorem pushWord_other (cpu : Cpu) (value : BitVec 64) {r : Register} (other : r ≠ .rsp) :
    (cpu.pushWord value).regs r = cpu.regs r :=
  Function.update_of_ne other _ _

/-- Pushing registers changes none of them. -/
theorem exec_pushes_regs (cpu : Cpu) (saved : List Register) {r : Register} (other : r ≠ .rsp) :
    (cpu.exec (saved.map .push)).regs r = cpu.regs r := by
  induction saved generalizing cpu with
  | nil => rfl
  | cons first rest ih =>
    rw [List.map_cons, exec_cons, ih, Instr.exec, pushWord_other _ _ other]

/-- Pushing registers leaves their values on the stack, the last one first. -/
theorem exec_pushes {saved : List Register} (notRsp : Register.rsp ∉ saved)
    {values : List (BitVec 64)} (words : Words cpu.memory (cpu.regs .rsp) values)
    (room : 8 * saved.length ≤ (cpu.regs .rsp).toNat)
    (fits : (cpu.regs .rsp).toNat + 8 * values.length ≤ 2 ^ 64) :
    ((cpu.exec (saved.map .push)).regs .rsp).toNat = (cpu.regs .rsp).toNat - 8 * saved.length ∧
      (∀ r ≠ .rsp, (cpu.exec (saved.map .push)).regs r = cpu.regs r) ∧
      Words (cpu.exec (saved.map .push)).memory ((cpu.exec (saved.map .push)).regs .rsp)
        (saved.reverse.map cpu.regs ++ values) ∧
      WritesWithin (cpu.pushSpan saved.length).toSet cpu.memory
        (cpu.exec (saved.map .push)).memory := by
  induction saved generalizing cpu values with
  | nil => exact ⟨by simp, fun _ _ => rfl, by simpa using words, .refl _ _⟩
  | cons first rest ih =>
    rw [List.mem_cons, not_or] at notRsp
    rw [List.length_cons] at room
    obtain ⟨rsp, pushed, writes⟩ := pushWord_spec (cpu.regs first) words (by omega) fits
    have same (r : Register) (other : r ≠ .rsp) := cpu.pushWord_other (cpu.regs first) other
    obtain ⟨lastRsp, kept, frame, more⟩ := ih notRsp.2 pushed (by omega) (by
      rw [rsp, List.length_cons]
      omega)
    simp only [List.map_cons, exec_cons, Instr.exec, List.length_cons]
    refine ⟨by omega, fun r other => (kept r other).trans (same r other), ?_, ?_⟩
    · have unchanged : rest.reverse.map (cpu.pushWord (cpu.regs first)).regs =
          rest.reverse.map cpu.regs := by
        refine List.map_congr_left fun r member => same r ?_
        rintro rfl
        exact notRsp.2 (List.mem_reverse.mp member)
      rw [unchanged] at frame
      simpa using frame
    · refine (writes.mono ?_).trans (more.mono ?_)
      · intro a inside
        simp only [pushSpan, Span.mem_toSet, Span.mem_iff] at inside ⊢
        omega
      · intro a inside
        simp only [pushSpan, Span.mem_toSet, Span.mem_iff, rsp] at inside ⊢
        omega

/-- Pushing a few registers leaves their values on the stack, also where addresses wrap. -/
theorem exec_pushes_words {saved : List Register} (notRsp : Register.rsp ∉ saved)
    {values : List (BitVec 64)} (words : Words cpu.memory (cpu.regs .rsp) values)
    (few : saved.length + values.length < 2 ^ 59) :
    (cpu.exec (saved.map .push)).regs .rsp =
        cpu.regs .rsp - BitVec.ofNat 64 (8 * saved.length) ∧
      Words (cpu.exec (saved.map .push)).memory ((cpu.exec (saved.map .push)).regs .rsp)
        (saved.reverse.map cpu.regs ++ values) := by
  induction saved generalizing cpu values with
  | nil => exact ⟨by simp, by simpa using words⟩
  | cons first rest ih =>
    rw [List.mem_cons, not_or] at notRsp
    rw [List.length_cons] at few
    have rsp : (cpu.pushWord (cpu.regs first)).regs .rsp = cpu.regs .rsp - 8 := by
      simp only [pushWord, Function.update_self]
    have below : cpu.regs .rsp - 8 + BitVec.ofNat 64 (8 * 1) = cpu.regs .rsp :=
      BitVec.sub_add_cancel _ _
    have pushed : Words (cpu.pushWord (cpu.regs first)).memory
        ((cpu.pushWord (cpu.regs first)).regs .rsp) (cpu.regs first :: values) := by
      rw [rsp]
      refine ⟨PhysMem.load64_store64 _ _ _, ?_⟩
      rw [BitVec.sub_add_cancel]
      exact words.store64 below Nat.one_pos (by omega) _
    obtain ⟨lastRsp, frame⟩ := ih notRsp.2 pushed (by rw [List.length_cons]; omega)
    have unchanged : rest.reverse.map (cpu.pushWord (cpu.regs first)).regs =
        rest.reverse.map cpu.regs := by
      refine List.map_congr_left fun r member => cpu.pushWord_other (cpu.regs first) ?_
      rintro rfl
      exact notRsp.2 (List.mem_reverse.mp member)
    simp only [List.map_cons, exec_cons, Instr.exec, List.length_cons]
    refine ⟨?_, ?_⟩
    · rw [lastRsp, rsp, ofNat_succ_places, BitVec.add_comm, sub_sub]
    · rw [unchanged] at frame
      simpa using frame

/-- Popping registers writes no memory. -/
theorem exec_pops_memory (cpu : Cpu) (restored : List Register) :
    (cpu.exec (restored.map .pop)).memory = cpu.memory := by
  induction restored generalizing cpu with
  | nil => rfl
  | cons first rest ih =>
    rw [List.map_cons, exec_cons, ih]
    rfl

/-- Popping registers takes their values from the stack, and changes nothing else. -/
theorem exec_pops {restored : List Register} (notRsp : Register.rsp ∉ restored)
    {saved : Register → BitVec 64} {rest : List (BitVec 64)}
    (words : Words cpu.memory (cpu.regs .rsp) (restored.map saved ++ rest)) :
    (cpu.exec (restored.map .pop)).memory = cpu.memory ∧
      (cpu.exec (restored.map .pop)).regs .rsp =
        cpu.regs .rsp + BitVec.ofNat 64 (8 * restored.length) ∧
      (∀ r ∈ restored, (cpu.exec (restored.map .pop)).regs r = saved r) ∧
      (∀ r ≠ .rsp, r ∉ restored → (cpu.exec (restored.map .pop)).regs r = cpu.regs r) ∧
      Words cpu.memory ((cpu.exec (restored.map .pop)).regs .rsp) rest := by
  induction restored generalizing cpu with
  | nil => exact ⟨rfl, by simp, by simp, fun _ _ _ => rfl, words⟩
  | cons first others ih =>
    rw [List.mem_cons, not_or] at notRsp
    obtain ⟨found, behind⟩ := words
    have popped : Instr.exec cpu (.pop first) = ⟨Function.update (Function.update cpu.regs .rsp
        (cpu.regs .rsp + 8)) first (saved first), cpu.memory⟩ := by
      simp only [Instr.exec, dropWord, set, top, found]
    have rsp : (Instr.exec cpu (.pop first)).regs .rsp = cpu.regs .rsp + 8 := by
      rw [popped]
      simp only [Function.update_of_ne notRsp.1, Function.update_self]
    have behind' : Words (Instr.exec cpu (.pop first)).memory
        ((Instr.exec cpu (.pop first)).regs .rsp) (others.map saved ++ rest) := by
      rw [rsp, popped]
      exact behind
    obtain ⟨memory, lastRsp, restoredRest, kept, left⟩ := ih notRsp.2 behind'
    have sameMemory : (Instr.exec cpu (.pop first)).memory = cpu.memory := by rw [popped]
    simp only [List.map_cons, exec_cons]
    refine ⟨memory.trans sameMemory, ?_, ?_, ?_, by rw [← sameMemory]; exact left⟩
    · rw [lastRsp, rsp, List.length_cons, Nat.mul_succ, BitVec.ofNat_add, BitVec.add_assoc,
        BitVec.add_comm 8]
      rfl
    · intro r member
      by_cases later : r ∈ others
      · exact restoredRest r later
      · have isFirst : r = first := (List.mem_cons.mp member).resolve_right later
        rw [isFirst] at later ⊢
        rw [kept first (Ne.symm notRsp.1) later, popped]
        exact Function.update_self _ _ _
    · intro r other absent
      rw [List.mem_cons, not_or] at absent
      rw [kept r other absent.2, popped]
      simp only [Function.update_of_ne absent.1, Function.update_of_ne other]

end Cpu

end Aperture.Machine
