import Aperture.Machine.Run
import Aperture.Win32.OperandForms
import Aperture.Win32.TruncatedCode

/-!
# The loop of the interpreter

`run_x86_64_loop` reads fifteen bytes at the program counter of the thread, executes one instruction
and goes on where it leads. As the bytes are read in every round, a program may write its own code.
The loop never reads outside its window. It follows the architecture through the instructions that
it supports, as long as their words are at multiples of 8, and stops only where there is none, or
behind a return to zero.
-/

namespace Aperture.Win32

open Machine

/-- `user_rip` of the thread, with its registers, the memory and the kernel's state. -/
structure Guest (κ : Type) where
  /-- `user_rip`. -/
  rip : BitVec 64
  /-- Registers and memory. -/
  cpu : Cpu
  /-- What the kernel's system calls read and change. -/
  kernel : κ

/-- Where the loop is. -/
inductive Round (κ : Type) where
  /-- It goes on. -/
  | running (guest : Guest κ)
  /-- It has halted. -/
  | stopped (guest : Guest κ)

namespace Guest

variable {κ : Type}

/-- `read_guest_bytes` of the window; `from_raw_parts` refuses the null pointer. -/
def window (guest : Guest κ) : Except Panic (List UInt8) :=
  if guest.rip = 0 then .error .null else .ok (guest.cpu.memory.readBytes guest.rip.toNat 15)

/-- One round of the loop. -/
def round (syscall : SyscallEffect κ) (guest : Guest κ) : Except Panic (Round κ) := do
  let code ← guest.window
  let (next, cpu, kernel) ← executeInstruction syscall guest.kernel guest.cpu guest.rip code
  match next with
  | some pc => return .running ⟨pc, cpu, kernel⟩
  | none => return .stopped ⟨guest.rip, cpu, kernel⟩

/-- So many rounds of the loop. -/
def interpret (syscall : SyscallEffect κ) : Nat → Guest κ → Except Panic (Round κ)
  | 0, guest => .ok (.running guest)
  | rounds + 1, guest => do
    match ← guest.round syscall with
    | .running next => next.interpret syscall rounds
    | .stopped last => return .stopped last

end Guest

/-! ## The architecture -/

/-- Instructions that the interpreter supports. -/
inductive GuestInstruction where
  /-- One with 64-bit operands. -/
  | wide (operation : Operation)
  /-- A constant of 32 bits for a register. -/
  | narrow (dst : Register) (value : BitVec 32)
  /-- A system call. -/
  | syscall

namespace GuestInstruction

/-- Byte strings that encode them. -/
inductive Spelled : GuestInstruction → List UInt8 → Prop
  /-- The encodings with 64-bit operands. -/
  | wide {operation : Operation} {bytes : List UInt8} (encodes : Encodes operation bytes) :
      Spelled (.wide operation) bytes
  /-- `B8+r id`. -/
  | narrow (rex : Option Rex) (dst : Register) (value : BitVec 32)
      (extend : (DataInstruction.movReg dst value).Extends (Rex.bits rex)) :
      Spelled (.narrow dst value) ((DataInstruction.movReg dst value).encoding rex)
  /-- `0F 05`. -/
  | syscall (rex : Option Rex) : Spelled .syscall (Rex.optional rex ++ [0x0F, 0x05])

/-- The address of the word in memory that an instruction reads or writes, if there is one. -/
def access (next : BitVec 64) (cpu : Cpu) : GuestInstruction → Option (BitVec 64)
  | wide operation => operation.access next cpu
  | narrow _ _ => none
  | .syscall => none

/-- What an instruction does, given the address of the next one. The kernel answers a system call
with a status in `rax`, unless it panics. -/
def step {κ : Type} (syscall : SyscallEffect κ) (next : BitVec 64) (guest : Guest κ) :
    GuestInstruction → Except Panic (Guest κ)
  | wide operation =>
    .ok ⟨(operation.step next guest.cpu).1, (operation.step next guest.cpu).2, guest.kernel⟩
  | narrow dst value => .ok ⟨next, guest.cpu.set dst (value.setWidth 64), guest.kernel⟩
  | .syscall => do
    let (status, memory, kernel) ←
      syscall (SyscallNumber.ofUsize (guest.cpu.regs .rax).toNat) (syscallArgs guest.cpu.regs)
        guest.cpu.memory guest.kernel
    return ⟨next, Cpu.set ⟨guest.cpu.regs, memory⟩ .rax status.code, kernel⟩

end GuestInstruction

namespace Guest

variable {κ : Type}

/-- The bytes at the program counter. -/
def Reads (guest : Guest κ) (bytes : List UInt8) : Prop :=
  guest.cpu.memory.readBytes guest.rip.toNat bytes.length = bytes

instance (guest : Guest κ) (bytes : List UInt8) : Decidable (guest.Reads bytes) :=
  inferInstanceAs (Decidable (_ = _))

/-- The instruction at the program counter, in memory as it is then, is executed. -/
def Step (syscall : SyscallEffect κ) (before : Guest κ) (instruction : GuestInstruction)
    (after : Guest κ) : Prop :=
  ∃ bytes, instruction.Spelled bytes ∧ before.Reads bytes ∧
    instruction.step syscall (pcAdd before.rip bytes.length) before = .ok after

/-- The interpreter goes on behind an instruction. -/
structure GoesOn (before : Guest κ) (instruction : GuestInstruction) : Prop where
  /-- It is not at address 0. -/
  present : before.rip ≠ 0
  /-- The instruction does not return to zero. -/
  returns : instruction = .wide .ret → before.cpu.top ≠ 0
  /-- The word that it accesses is at a multiple of 8. -/
  aligned : ∀ bytes, instruction.Spelled bytes → before.Reads bytes →
    ∀ word ∈ instruction.access (pcAdd before.rip bytes.length) before.cpu, word.toNat % 8 = 0

/-- The interpreter halts at a return to zero. -/
structure Halts (guest : Guest κ) : Prop where
  /-- It is not at address 0. -/
  present : guest.rip ≠ 0
  /-- The word that it pops is at a multiple of 8. -/
  aligned : (guest.cpu.regs .rsp).toNat % 8 = 0
  /-- It is zero. -/
  zero : guest.cpu.top = 0

end Guest

/-! ## One instruction -/

section Instructions

variable {κ : Type} {syscall : SyscallEffect κ} {kernel : κ} {cpu : Cpu} {pc : BitVec 64}
  {code bytes : List UInt8} {operation : Operation} {instruction : GuestInstruction}

/-- A prefix has one byte at most. -/
theorem length_optional (rex : Option Rex) : (Rex.optional rex).length ≤ 1 := by
  cases rex with
  | none => exact Nat.zero_le 1
  | some rex => exact Nat.le_refl 1

/-- An operand has five bytes at most. -/
theorem length_operand (field : UInt8) (rm : Rm) : (rm.bytes field).length ≤ 5 := by
  cases rm <;> simp [Rm.bytes]

/-- Supported instructions fit into the window. -/
theorem length_spelled (spelled : instruction.Spelled bytes) : bytes.length ≤ 15 := by
  cases spelled with
  | wide encodes =>
    cases encodes with
    | jmpRel8 rex offset =>
      have := length_optional rex
      simp only [List.length_append, List.length_cons, length_leBytes]
      omega
    | jmpRel32 rex offset =>
      have := length_optional rex
      simp only [List.length_append, List.length_cons, length_leBytes]
      omega
    | callRel32 rex offset =>
      have := length_optional rex
      simp only [List.length_append, List.length_cons, length_leBytes]
      omega
    | ret rex =>
      have := length_optional rex
      simp only [List.length_append, List.length_cons, List.length_nil]
      omega
    | nop => decide
    | movImm64 r x dst value => simp
    | movImm32 r x b dst extend near value =>
      have := length_operand 0 dst
      simp only [List.length_append, List.length_cons, length_leBytes]
      omega
    | xorInto x b dst extend src =>
      have := length_operand src.low dst
      simp only [List.length_cons]
      omega
    | xorFrom x b dst src extend =>
      have := length_operand dst.low src
      simp only [List.length_cons]
      omega
    | lea x b dst disp =>
      have := length_operand dst.low (.ripRelative disp)
      simp only [List.length_cons]
      omega
  | narrow rex dst value extend =>
    have := length_optional rex
    simp only [DataInstruction.encoding, DataInstruction.bytes, List.length_append,
      List.length_cons, length_leBytes]
    omega
  | syscall rex =>
    have := length_optional rex
    simp only [List.length_append, List.length_cons, List.length_nil]
    omega

/-- A return goes to the address on the stack. -/
theorem executeInstruction_ret (rex : Option Rex) (starts : Rex.optional rex ++ [0xC3] <+: code) :
    executeInstruction syscall kernel cpu pc code = (executeRet cpu).keeping kernel := by
  obtain ⟨rest, rfl⟩ := starts
  rw [List.append_assoc]
  exact executeInstruction_behind rex (by decide) rest

/-- A system call is served. -/
theorem executeInstruction_syscall (rex : Option Rex)
    (starts : Rex.optional rex ++ [0x0F, 0x05] <+: code) :
    executeInstruction syscall kernel cpu pc code =
      serveSyscall syscall kernel cpu (pcAdd pc (Rex.optional rex ++ [0x0F, 0x05]).length) := by
  obtain ⟨rest, rfl⟩ := starts
  have matched : executeInstruction syscall kernel cpu pc
      (Rex.optional rex ++ 0x0F :: 0x05 :: rest) =
        executeSyscall syscall kernel cpu pc ((Rex.optional rex ++ [0x0F]) ++ 0x05 :: rest)
          (Rex.optional rex ++ [0x0F]).length :=
    executeInstruction_behind rex (by decide) (0x05 :: rest)
  have there : ¬ ((Rex.optional rex ++ [0x0F]) ++ 0x05 :: rest).length ≤
      (Rex.optional rex ++ [0x0F]).length := by
    simp only [List.length_append, List.length_cons]
    omega
  have length : (Rex.optional rex ++ [0x0F]).length + 1 =
      (Rex.optional rex ++ [0x0F, 0x05]).length := by
    simp only [List.length_append, List.length_cons, List.length_nil]
  rw [List.append_assoc, List.cons_append, List.cons_append, List.nil_append, matched,
    executeSyscall, if_neg there, codeAt_behind, ok_bind]
  dsimp only
  rw [if_pos rfl, length]

/-- Every supported instruction whose step the kernel lets come to its end is executed as the
architecture defines, unless the word that it accesses is refused or it returns to zero. -/
theorem executeInstruction_spelled {after : Guest κ} (spelled : instruction.Spelled bytes)
    (starts : bytes <+: code) (returns : instruction = .wide .ret → cpu.top ≠ 0)
    (stepped : instruction.step syscall (pcAdd pc bytes.length) ⟨pc, cpu, kernel⟩ = .ok after) :
    executeInstruction syscall kernel cpu pc code =
      (finishes (instruction.access (pcAdd pc bytes.length) cpu) after.rip after.cpu).keeping
        after.kernel := by
  cases spelled with
  | @wide operation _ encodes =>
    cases stepped
    exact executeInstruction_encodes syscall kernel cpu pc encodes starts fun isRet =>
      returns (congrArg _ isRet)
  | narrow rex dst value extend =>
    cases stepped
    exact executeInstruction_data extend starts
  | syscall rex =>
    obtain ⟨⟨status, memory, left⟩, answered, stepped⟩ := bind_eq_ok.mp stepped
    cases stepped
    rw [executeInstruction_syscall rex starts, serveSyscall_answered answered]
    rfl

end Instructions

/-! ## Rounds -/

namespace Guest

variable {κ : Type} {syscall : SyscallEffect κ} {guest first middle last : Guest κ}
  {instruction : GuestInstruction} {rounds : Nat}

/-- Bytes at the program counter start the window, as long as there are no more than fifteen. -/
theorem window_starts {bytes : List UInt8} (few : bytes.length ≤ 15) (there : guest.Reads bytes) :
    bytes <+: guest.cpu.memory.readBytes guest.rip.toNat 15 := by
  have split := guest.cpu.memory.readBytes_add guest.rip.toNat bytes.length (15 - bytes.length)
  have whole : bytes.length + (15 - bytes.length) = 15 := by omega
  rw [whole, there] at split
  exact ⟨_, split.symm⟩

/-- A round executes the instruction in the window. -/
theorem round_eq (present : guest.rip ≠ 0) :
    guest.round syscall = do
      let (next, cpu, kernel) ← executeInstruction syscall guest.kernel guest.cpu guest.rip
        (guest.cpu.memory.readBytes guest.rip.toNat 15)
      match next with
      | some pc => return .running ⟨pc, cpu, kernel⟩
      | none => return .stopped ⟨guest.rip, cpu, kernel⟩ := by
  rw [round, window, if_neg present, ok_bind]

/-- A round in which a supported instruction does not return to zero goes on as the architecture
defines, unless the word that it accesses is refused. -/
theorem round_spelled {bytes : List UInt8} (present : guest.rip ≠ 0)
    (spelled : instruction.Spelled bytes) (there : guest.Reads bytes)
    (returns : instruction = .wide .ret → guest.cpu.top ≠ 0)
    (stepped : instruction.step syscall (pcAdd guest.rip bytes.length) guest = .ok last) :
    guest.round syscall = do
      PhysMem.checkAccess (instruction.access (pcAdd guest.rip bytes.length) guest.cpu)
      return .running last := by
  have starts := window_starts (length_spelled spelled) there
  rw [round_eq present, executeInstruction_spelled spelled starts returns stepped, finishes,
    Executed.keeping]
  cases PhysMem.checkAccess (instruction.access (pcAdd guest.rip bytes.length) guest.cpu) <;> rfl

/-- A supported instruction takes one round. -/
theorem round_step (goesOn : guest.GoesOn instruction) (step : guest.Step syscall instruction last) :
    guest.round syscall = .ok (.running last) := by
  obtain ⟨bytes, spelled, there, stepped⟩ := step
  have admitted := PhysMem.checkAccess_eq_ok.mpr (goesOn.aligned bytes spelled there)
  rw [round_spelled goesOn.present spelled there goesOn.returns stepped, admitted]
  rfl

/-- A return to zero halts the loop. -/
theorem round_ret (rex : Option Rex) (halts : guest.Halts)
    (there : guest.Reads (Rex.optional rex ++ [0xC3])) :
    guest.round syscall = .ok (.stopped ⟨guest.rip, guest.cpu.dropWord, guest.kernel⟩) := by
  have spelled : (GuestInstruction.wide .ret).Spelled (Rex.optional rex ++ [0xC3]) :=
    .wide (.ret rex)
  have starts := window_starts (length_spelled spelled) there
  have popped : executeRet guest.cpu = .ok (none, guest.cpu.dropWord) := by
    have zero : guest.cpu.memory.load64 (guest.cpu.regs .rsp) = 0 := halts.zero
    rw [executeRet, PhysMem.readVolatile, PhysMem.checkWord, if_pos halts.aligned, ok_bind]
    simp only [pure_bind]
    rw [if_pos zero]
    rfl
  rw [round_eq halts.present, executeInstruction_ret rex starts, popped]
  rfl

/-- So does the step of a return to zero. -/
theorem round_return (step : guest.Step syscall (.wide .ret) last) (halts : guest.Halts) :
    guest.round syscall = .ok (.stopped ⟨guest.rip, guest.cpu.dropWord, guest.kernel⟩) := by
  obtain ⟨bytes, spelled, there, _⟩ := step
  cases spelled with
  | wide encodes =>
    cases encodes with
    | ret rex => exact round_ret rex halts there

/-- A round comes to its end, or is stopped: at address 0, by the kernel, or by a word that is at
no multiple of 8. -/
theorem round_ends {reason : Panic} (stopped : guest.round syscall = .error reason) :
    reason = .null ∧ guest.rip = 0 ∨ reason = .callee ∨
      ∃ address, ¬ address % 8 = 0 ∧ reason = .misaligned address := by
  by_cases absent : guest.rip = 0
  · rw [round, window, if_pos absent] at stopped
    exact .inl ⟨(Except.error.inj stopped).symm, absent⟩
  · have length : (guest.cpu.memory.readBytes guest.rip.toNat 15).length = 15 := by
      rw [PhysMem.readBytes, List.length_map, List.length_range]
    have whole : ¬ EndsInConstant (guest.cpu.memory.readBytes guest.rip.toNat 15) := by
      rintro ⟨rex, tail, shape, _, short⟩
      have prefixed := length_optional rex
      rw [shape] at length
      simp only [List.length_append, List.length_cons] at length
      omega
    rw [round_eq absent] at stopped
    refine .inr ((Ends.bind (executeInstruction_ends whole) fun served => ?_) reason stopped)
    obtain ⟨next, cpu, kernel⟩ := served
    cases next with
    | none => exact ends_ok _
    | some pc => exact ends_ok _

/-- A round that halts the loop leaves the program counter. -/
theorem rip_of_stopped (returned : guest.round syscall = .ok (.stopped last)) :
    last.rip = guest.rip := by
  obtain ⟨code, _, returned⟩ := bind_eq_ok.mp returned
  obtain ⟨⟨next, cpu, kernel⟩, _, returned⟩ := bind_eq_ok.mp returned
  cases next with
  | some pc => cases returned
  | none =>
    cases returned
    rfl

/-- Rounds before others. -/
theorem interpret_add (more : Nat) (goes : first.interpret syscall rounds = .ok (.running middle)) :
    first.interpret syscall (rounds + more) = middle.interpret syscall more := by
  induction rounds generalizing first with
  | zero =>
    cases goes
    rw [Nat.zero_add]
  | succ rounds ih =>
    obtain ⟨result, ended, goes⟩ := bind_eq_ok.mp goes
    cases result with
    | stopped halted => cases goes
    | running next =>
      rw [Nat.succ_add, interpret, ended, ok_bind]
      exact ih goes

/-- When a round halts the loop, it has halted. -/
theorem interpret_stopped (returned : guest.round syscall = .ok (.stopped last)) (more : Nat) :
    guest.interpret syscall (more + 1) = .ok (.stopped last) := by
  rw [interpret, returned, ok_bind]
  rfl

/-- The loop halts in some round. -/
theorem halts_of_stopped (halted : first.interpret syscall rounds = .ok (.stopped last)) :
    ∃ done < rounds, ∃ middle, first.interpret syscall done = .ok (.running middle) ∧
      middle.round syscall = .ok (.stopped last) := by
  induction rounds generalizing first with
  | zero => cases halted
  | succ rounds ih =>
    obtain ⟨result, ended, halted⟩ := bind_eq_ok.mp halted
    cases result with
    | stopped there =>
      obtain rfl : there = last := by
        cases halted
        rfl
      exact ⟨0, Nat.succ_pos rounds, first, rfl, ended⟩
    | running next =>
      obtain ⟨done, before, middle, goes, stops⟩ := ih halted
      refine ⟨done + 1, Nat.succ_lt_succ before, middle, ?_, stops⟩
      rw [interpret, ended, ok_bind]
      exact goes

/-- A panic of the loop is one of some round. -/
theorem panics_of_error {reason : Panic} (panics : first.interpret syscall rounds = .error reason) :
    ∃ done < rounds, ∃ middle, first.interpret syscall done = .ok (.running middle) ∧
      middle.round syscall = .error reason := by
  induction rounds generalizing first with
  | zero => cases panics
  | succ rounds ih =>
    cases ended : first.round syscall with
    | error cause =>
      rw [interpret, ended] at panics
      obtain rfl := Except.error.inj panics
      exact ⟨0, Nat.succ_pos rounds, first, rfl, ended⟩
    | ok result =>
      rw [interpret, ended, ok_bind] at panics
      cases result with
      | stopped there => cases panics
      | running next =>
        obtain ⟨done, before, middle, goes, stops⟩ := ih panics
        refine ⟨done + 1, Nat.succ_lt_succ before, middle, ?_, stops⟩
        rw [interpret, ended, ok_bind]
        exact goes

/-- Steps that take one round each are a run of the loop. -/
theorem interpret_run {step : Guest κ → GuestInstruction → Guest κ → Prop}
    (rounds : ∀ before instruction after, step before instruction after →
      before.round syscall = .ok (.running after)) {instructions : List GuestInstruction}
    (run : Run step first instructions last) :
    first.interpret syscall instructions.length = .ok (.running last) := by
  induction run with
  | nil guest => rfl
  | cons head _ ih =>
    rw [List.length_cons, interpret, rounds _ _ _ head, ok_bind]
    exact ih

/-- A round that halts the loop ends every run that comes to it. -/
theorem interpret_run_stopped (goes : first.interpret syscall rounds = .ok (.running middle))
    (stops : middle.round syscall = .ok (.stopped last)) (more : Nat) :
    first.interpret syscall (rounds + (more + 1)) = .ok (.stopped last) := by
  rw [interpret_add (more + 1) goes]
  exact interpret_stopped stops more

/-- Every run of supported instructions, in memory as it is when each is reached, is a run of the
loop, with the answers of the kernel in the state that earlier system calls left, as long as the
words that the instructions access are at multiples of 8. If it comes to a return to zero, the loop
halts there for good. -/
theorem interpret_follows {instructions : List GuestInstruction}
    (run : Run (Guarded GoesOn (Step syscall)) first instructions last) :
    first.interpret syscall instructions.length = .ok (.running last) ∧
      ∀ rex : Option Rex, last.Halts → last.Reads (Rex.optional rex ++ [0xC3]) →
        ∀ more, first.interpret syscall (instructions.length + (more + 1)) =
          .ok (.stopped ⟨last.rip, last.cpu.dropWord, last.kernel⟩) := by
  have goes := interpret_run (fun _ _ _ taken => round_step taken.1 taken.2) run
  exact ⟨goes, fun rex halts there => interpret_run_stopped goes (round_ret rex halts there)⟩

/-- A kernel that counts its calls. -/
def counts : SyscallEffect Nat := fun _ _ memory calls => .ok (.success, memory, calls + 1)

/-- A program that writes what it jumps to: `xor [rbx], rax` makes `syscall` and `ret` of zeros. -/
def patching : Guest Nat where
  rip := 0x1000
  cpu :=
    { regs := fun r => match r with
        | .rax => 0xC3050F
        | .rbx => 0x1008
        | .rsp => 0x8000
        | _ => 0
      memory := ⟨fun a => [0x48, 0x31, 0x03, 0xEB, 0x03].getD (a - 0x1000) 0, []⟩ }
  kernel := 0

/-- It performs both, with one call, and halts at the return that it has written. -/
theorem interpret_follows_patching : ∃ last : Guest Nat,
    patching.interpret counts 3 = .ok (.running last) ∧ last.kernel = 1 ∧
    patching.interpret counts 4 = .ok (.stopped ⟨0x100A, last.cpu.dropWord, 1⟩) := by
  let written : Cpu := ((Operation.xorInto (.indirect .rbx) .rax).step 0x1003 patching.cpu).2
  let called : Cpu := Cpu.set ⟨written.regs, written.memory⟩ .rax 0
  have writes : patching.Step counts (.wide (.xorInto (.indirect .rbx) .rax)) ⟨0x1003, written, 0⟩ :=
    ⟨_, .wide (.xorInto false false (.indirect .rbx) ⟨rfl, by decide, by decide⟩ .rax), by decide,
      rfl⟩
  have jumps : Step counts ⟨0x1003, written, 0⟩ (.wide (.jmp 3)) ⟨0x1008, written, 0⟩ :=
    ⟨_, .wide (.jmpRel8 none 3), by decide, rfl⟩
  have calls : Step counts ⟨0x1008, written, 0⟩ .syscall ⟨0x100A, called, 1⟩ :=
    ⟨_, .syscall none, by decide, rfl⟩
  have run : Run (Guarded GoesOn (Step counts)) patching
      [.wide (.xorInto (.indirect .rbx) .rax), .wide (.jmp 3), .syscall] ⟨0x100A, called, 1⟩ := by
    refine .cons ⟨⟨by decide, nofun, ?_⟩, writes⟩ (.cons ⟨⟨by decide, nofun, ?_⟩, jumps⟩
      (.cons ⟨⟨by decide, nofun, ?_⟩, calls⟩ (.nil _)))
    · rintro bytes _ _ word ⟨⟩
      decide
    · rintro bytes _ _ word ⟨⟩
    · rintro bytes _ _ word ⟨⟩
  obtain ⟨goes, halts⟩ := interpret_follows run
  exact ⟨_, goes, rfl, halts none ⟨by decide, by decide, by decide⟩ (by decide) 0⟩

/-- Whatever bytes a program consists of, no number of rounds reads outside the window: the loop is
stopped at address 0, by a word at no multiple of 8 or by the kernel only. It halts where no
supported instruction is, or at a return to zero. -/
theorem interpret_halts (syscall : SyscallEffect κ) (first : Guest κ) (rounds : Nat) :
    (∀ reason, first.interpret syscall rounds = .error reason →
      ∃ done < rounds, ∃ middle, first.interpret syscall done = .ok (.running middle) ∧
        (reason = .null ∧ middle.rip = 0 ∨ reason = .callee ∨
          ∃ address, ¬ address % 8 = 0 ∧ reason = .misaligned address)) ∧
      ∀ last, first.interpret syscall rounds = .ok (.stopped last) →
        ∃ done < rounds, ∃ middle, first.interpret syscall done = .ok (.running middle) ∧
          last.rip = middle.rip ∧ ∀ instruction after, middle.Step syscall instruction after →
            instruction = .wide .ret ∧ middle.cpu.top = 0 := by
  constructor
  · intro reason panics
    obtain ⟨done, before, middle, goes, stops⟩ := panics_of_error panics
    exact ⟨done, before, middle, goes, round_ends stops⟩
  · intro last halted
    obtain ⟨done, before, middle, goes, stops⟩ := halts_of_stopped halted
    refine ⟨done, before, middle, goes, rip_of_stopped stops, fun instruction after step => ?_⟩
    by_contra supported
    have returns : instruction = .wide .ret → middle.cpu.top ≠ 0 :=
      fun isRet zero => supported ⟨isRet, zero⟩
    have present : middle.rip ≠ 0 := by
      intro absent
      rw [round, window, if_pos absent] at stops
      cases stops
    obtain ⟨bytes, spelled, there, stepped⟩ := step
    rw [round_spelled present spelled there returns stepped] at stops
    obtain ⟨_, _, stops⟩ := bind_eq_ok.mp stops
    cases stops

end Guest

end Aperture.Win32
