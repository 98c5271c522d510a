import Aperture.Machine.Cpu
import Aperture.Machine.Run

/-!
# Cooperative context switch

`switch` pushes the callee-saved registers, stores the stack pointer, loads the one of
another thread and pops that thread's registers. `initial_stack` lays out a frame that the
same pops accept, with `thread_entry_stub` as its return address. Threads share one memory
and switch in any order; each of them writes its own stack only.
-/

namespace Aperture.Arch

open Machine

/-- Where the linker put the code that the frames refer to. -/
structure CodeLayout where
  /-- Address of `thread_entry_stub`. -/
  threadEntryStub : BitVec 64
  /-- Address of `thread_exit`. -/
  threadExit : BitVec 64

/-- `push_u64`. -/
def pushU64 (memory : PhysMem) (stackTop value : BitVec 64) : BitVec 64 × PhysMem :=
  let rsp := stackTop - 8
  (rsp, memory.store64 rsp value)

/-- `initial_stack`: the entry point, the stub as return address and six placeholders. -/
def initialStack (code : CodeLayout) (memory : PhysMem) (entryPoint stackTop : BitVec 64) :
    BitVec 64 × PhysMem :=
  let (rsp, memory) := pushU64 memory stackTop entryPoint
  let (rsp, memory) := pushU64 memory rsp code.threadEntryStub
  let (rsp, memory) := pushU64 memory rsp 0
  let (rsp, memory) := pushU64 memory rsp 0
  let (rsp, memory) := pushU64 memory rsp 0
  let (rsp, memory) := pushU64 memory rsp 0
  let (rsp, memory) := pushU64 memory rsp 0
  pushU64 memory rsp 0

/-- The registers `switch` saves, in the order it pushes them. -/
def switchSaved : List Register := [.rbp, .rbx, .r12, .r13, .r14, .r15]

/-- First part of `switch`: save the context it comes from. -/
def switchSave : List Instr := switchSaved.map .push ++ [.store .rdi 0 .rsp]

/-- Second part of `switch`, up to its `ret`: load the other context. -/
def switchLoad : List Instr := .mov .rsp .rsi :: switchSaved.reverse.map .pop

/-- Where control is, with registers and memory. -/
structure Control where
  /-- Address of the next instruction. -/
  rip : BitVec 64
  /-- Registers and memory. -/
  cpu : Cpu

/-- `ret`. -/
def ret (cpu : Cpu) : Control := ⟨cpu.top, cpu.dropWord⟩

/-- `switch`, entered with its return address on the stack. -/
def switch (cpu : Cpu) : Control := ret (cpu.exec (switchSave ++ switchLoad))

/-- An instruction of `thread_entry_stub`: `pop rdi`, one byte; `call rdi`, two bytes; and
`jmp thread_exit`. -/
def stubStep (code : CodeLayout) (control : Control) : Option Control :=
  if control.rip = code.threadEntryStub then
    some ⟨code.threadEntryStub + 1, control.cpu.exec [.pop .rdi]⟩
  else if control.rip = code.threadEntryStub + 1 then
    some ⟨control.cpu.regs .rdi, control.cpu.pushWord (code.threadEntryStub + 3)⟩
  else if control.rip = code.threadEntryStub + 3 then
    some ⟨code.threadExit, control.cpu⟩
  else none

/-! ## One switch -/

/-- A pushed word lies in front of the words above it. -/
theorem pushU64_spec {memory : PhysMem} {rsp : BitVec 64} {values : List (BitVec 64)}
    (value : BitVec 64) (words : Words memory rsp values) (room : 8 ≤ rsp.toNat)
    (fits : rsp.toNat + 8 * values.length ≤ 2 ^ 64) :
    (pushU64 memory rsp value).1.toNat = rsp.toNat - 8 ∧
      Words (pushU64 memory rsp value).2 (pushU64 memory rsp value).1 (value :: values) ∧
      WritesWithin (⟨rsp.toNat - 8, 8⟩ : Span).toSet memory (pushU64 memory rsp value).2 := by
  have spec := @Cpu.pushWord_spec ⟨fun _ => rsp, memory⟩ values value words room fits
  simp only [Cpu.pushWord, Function.update_self] at spec
  exact spec

/-- Several words pushed one after the other. -/
def pushAll (memory : PhysMem) (stackTop : BitVec 64) (values : List (BitVec 64)) :
    BitVec 64 × PhysMem :=
  values.foldl (fun state value => pushU64 state.2 state.1 value) (stackTop, memory)

/-- They lie in memory with the last one first. -/
theorem pushAll_spec {memory : PhysMem} {stackTop : BitVec 64} {above : List (BitVec 64)}
    (values : List (BitVec 64)) (words : Words memory stackTop above)
    (room : 8 * values.length ≤ stackTop.toNat)
    (fits : stackTop.toNat + 8 * above.length ≤ 2 ^ 64) :
    (pushAll memory stackTop values).1.toNat = stackTop.toNat - 8 * values.length ∧
      Words (pushAll memory stackTop values).2 (pushAll memory stackTop values).1
        (values.reverse ++ above) ∧
      WritesWithin (⟨stackTop.toNat - 8 * values.length, 8 * values.length⟩ : Span).toSet memory
        (pushAll memory stackTop values).2 := by
  induction values generalizing memory stackTop above with
  | nil => exact ⟨by simp [pushAll], words, .refl _ _⟩
  | cons value rest ih =>
    rw [List.length_cons] at room
    obtain ⟨moved, pushed, writes⟩ := pushU64_spec value words (by omega) fits
    obtain ⟨last, frame, more⟩ := ih pushed (by omega) (by rw [moved, List.length_cons]; omega)
    have first : pushAll memory stackTop (value :: rest) =
        pushAll (pushU64 memory stackTop value).2 (pushU64 memory stackTop value).1 rest := rfl
    rw [first, List.length_cons]
    refine ⟨by omega, by simpa using frame, (writes.mono ?_).trans (more.mono ?_)⟩
    · intro a inside
      simp only [Span.mem_toSet, Span.mem_iff] at inside ⊢
      omega
    · intro a inside
      simp only [Span.mem_toSet, Span.mem_iff, moved] at inside ⊢
      omega

/-- The frame of a new thread. -/
def initialFrame (code : CodeLayout) (entryPoint : BitVec 64) : List (BitVec 64) :=
  [0, 0, 0, 0, 0, 0, code.threadEntryStub, entryPoint]

/-- What `initial_stack` leaves below the top of a stack. -/
theorem initialStack_spec (code : CodeLayout) (memory : PhysMem) (entryPoint : BitVec 64)
    {stackTop : BitVec 64} (room : 64 ≤ stackTop.toNat) :
    (initialStack code memory entryPoint stackTop).1.toNat = stackTop.toNat - 64 ∧
      Words (initialStack code memory entryPoint stackTop).2
        (initialStack code memory entryPoint stackTop).1 (initialFrame code entryPoint) ∧
      WritesWithin (⟨stackTop.toNat - 64, 64⟩ : Span).toSet memory
        (initialStack code memory entryPoint stackTop).2 := by
  have nothing : Words memory stackTop [] := trivial
  exact pushAll_spec [entryPoint, code.threadEntryStub, 0, 0, 0, 0, 0, 0] nothing room
    (Nat.le_of_lt stackTop.isLt)

/-- The words `switch` leaves on the stack it comes from, below a return address. -/
def savedFrame (regs : Register → BitVec 64) (returnTo : BitVec 64) : List (BitVec 64) :=
  switchSaved.reverse.map regs ++ [returnTo]

/-- A stack pointer moved down inside its stack. -/
theorem toNat_sub_of_le {rsp : BitVec 64} {bytes : Nat} (room : bytes ≤ rsp.toNat) :
    (rsp - BitVec.ofNat 64 bytes).toNat = rsp.toNat - bytes := by
  have bound := rsp.isLt
  have small : bytes % 2 ^ 64 = bytes := Nat.mod_eq_of_lt (Nat.lt_of_le_of_lt room bound)
  rw [BitVec.toNat_sub, BitVec.toNat_ofNat, small]
  omega

/-- The first part leaves the registers and the return address on the stack, and the stack
pointer in the slot at `rdi`. -/
theorem switchSave_spec {cpu : Cpu} {region : Set Nat} (room : 48 ≤ (cpu.regs .rsp).toNat)
    (fits : (cpu.regs .rsp).toNat + 8 ≤ 2 ^ 64)
    (stackRegion : ∀ a ∈ cpu.pushSpan 6, a ∈ region)
    (slotRegion : ∀ a ∈ (⟨(cpu.regs .rdi).toNat, 8⟩ : Span), a ∈ region)
    (slotOff : (⟨(cpu.regs .rsp).toNat - 48, 56⟩ : Span).Separate ⟨(cpu.regs .rdi).toNat, 8⟩) :
    (cpu.exec switchSave).regs .rsi = cpu.regs .rsi ∧
      (cpu.exec switchSave).memory.load64 (cpu.regs .rdi) =
        cpu.regs .rsp - BitVec.ofNat 64 48 ∧
      WritesWithin region cpu.memory (cpu.exec switchSave).memory ∧
      Words (cpu.exec switchSave).memory (cpu.regs .rsp - BitVec.ofNat 64 48)
        (savedFrame cpu.regs cpu.top) := by
  have onStack : Words cpu.memory (cpu.regs .rsp) [cpu.top] := ⟨rfl, trivial⟩
  have count : switchSaved.length = 6 := rfl
  have notRsp : Register.rsp ∉ switchSaved := by decide
  obtain ⟨rsp, kept, pushed, writes⟩ := Cpu.exec_pushes notRsp onStack (by rw [count]; omega)
    (by rw [List.length_singleton]; omega)
  have below := toNat_sub_of_le room
  rw [count] at rsp writes
  have rspEq : (cpu.exec (switchSaved.map .push)).regs .rsp = cpu.regs .rsp - BitVec.ofNat 64 48 := by
    apply BitVec.eq_of_toNat_eq
    rw [rsp, below]
  rw [rspEq] at pushed
  have stored : cpu.exec switchSave =
      Instr.exec (cpu.exec (switchSaved.map .push)) (.store .rdi 0 .rsp) := by
    rw [switchSave, Cpu.exec_append, Cpu.exec_cons, Cpu.exec_nil]
  rw [stored]
  generalize cpu.exec (switchSaved.map .push) = middle at rspEq kept pushed writes
  have slotEq : middle.regs .rdi + 0 = cpu.regs .rdi :=
    (BitVec.add_zero _).trans (kept .rdi (by decide))
  simp only [Instr.exec, slotEq, rspEq]
  refine ⟨kept .rsi (by decide), PhysMem.load64_store64 _ _ _,
    (writes.mono stackRegion).trans (.store64 _ _ slotRegion), ?_⟩
  have slotOnly : WritesWithin (⟨(cpu.regs .rdi).toNat, 8⟩ : Span).toSet middle.memory
      (middle.memory.store64 (cpu.regs .rdi) (cpu.regs .rsp - BitVec.ofNat 64 48)) :=
    .store64 _ _ fun _ inside => inside
  refine pushed.congr slotOnly ?_ fun a inside => ?_
  · simp only [List.length_append, List.length_map, List.length_reverse, List.length_singleton,
      count, below]
    omega
  · apply Span.separate_iff.mp slotOff
    simp only [wordSpan, Span.mem_iff, List.length_append, List.length_map, List.length_reverse,
      List.length_singleton, count, below] at inside ⊢
    omega

/-- A return writes no memory. -/
theorem ret_memory (cpu : Cpu) : (ret cpu).cpu.memory = cpu.memory := rfl

/-- The second part loads a saved frame and continues at its return address. -/
theorem switchLoad_spec {cpu : Cpu} {next : Register → BitVec 64} {nextTo : BitVec 64}
    (frame : Words cpu.memory (cpu.regs .rsi) (savedFrame next nextTo)) :
    (ret (cpu.exec switchLoad)).rip = nextTo ∧
      (∀ r ∈ switchSaved, (ret (cpu.exec switchLoad)).cpu.regs r = next r) ∧
      (ret (cpu.exec switchLoad)).cpu.regs .rsp = cpu.regs .rsi + BitVec.ofNat 64 56 ∧
      (ret (cpu.exec switchLoad)).cpu.memory = cpu.memory := by
  have moved : cpu.exec switchLoad =
      (cpu.set .rsp (cpu.regs .rsi)).exec (switchSaved.reverse.map .pop) := by
    rw [switchLoad, Cpu.exec_cons, Instr.exec]
  have start : Words (cpu.set .rsp (cpu.regs .rsi)).memory ((cpu.set .rsp (cpu.regs .rsi)).regs .rsp)
      (switchSaved.reverse.map next ++ [nextTo]) := by
    simp only [Cpu.set, Function.update_self]
    exact frame
  have notRsp : Register.rsp ∉ switchSaved.reverse := by decide
  obtain ⟨memory, rsp, popped, _, left⟩ := Cpu.exec_pops notRsp start
  rw [moved]
  refine ⟨?_, ?_, ?_, ?_⟩
  · rw [ret, Cpu.top, memory]
    exact left.1
  · intro r member
    have other : r ≠ .rsp := by
      rintro rfl
      exact absurd member (by decide)
    rw [ret, Cpu.dropWord, Cpu.set_other _ _ other]
    exact popped r (List.mem_reverse.mpr member)
  · rw [ret, Cpu.dropWord, Cpu.set_self, rsp, Cpu.set_self, BitVec.add_assoc]
    rfl
  · rw [ret_memory, memory, Cpu.set_memory]

/-- Loading a context writes no memory. -/
theorem switchLoad_memory (cpu : Cpu) : (cpu.exec switchLoad).memory = cpu.memory := by
  have moved : cpu.exec switchLoad =
      (cpu.set .rsp (cpu.regs .rsi)).exec (switchSaved.reverse.map .pop) := by
    rw [switchLoad, Cpu.exec_cons, Instr.exec]
  rw [moved, Cpu.exec_pops_memory, Cpu.set_memory]

/-- All that `switch` writes, it writes when it saves. -/
theorem switch_memory (cpu : Cpu) : (switch cpu).cpu.memory = (cpu.exec switchSave).memory := by
  rw [switch, Cpu.exec_append, ret_memory, switchLoad_memory]

/-- A new thread's frame is one that `switch` can load, with the entry point above it. -/
theorem initialFrame_eq (code : CodeLayout) (entryPoint : BitVec 64) :
    initialFrame code entryPoint = savedFrame (fun _ => 0) code.threadEntryStub ++ [entryPoint] :=
  rfl

/-! ## Many threads -/

/-- The stacks of the threads: room for a first frame each, and no common byte. -/
structure Stacks (Name : Type) where
  /-- First byte of a stack. -/
  base : Name → Nat
  /-- One past its last byte. -/
  top : Name → BitVec 64
  /-- A stack holds the frame of `initial_stack`. -/
  room : ∀ name, base name + 64 ≤ (top name).toNat
  /-- Stacks are disjoint. -/
  apart : ∀ left right, left ≠ right →
    (⟨base left, (top left).toNat - base left⟩ : Span).Separate
      ⟨base right, (top right).toNat - base right⟩

/-- The bytes of a stack. -/
def Stacks.span {Name : Type} (layout : Stacks Name) (name : Name) : Span :=
  ⟨layout.base name, (layout.top name).toNat - layout.base name⟩

/-- A thread at its call of `switch`, before the call pushes the return address. -/
structure Call where
  /-- Registers. -/
  regs : Register → BitVec 64
  /-- Address after the call. -/
  returnTo : BitVec 64
  /-- Memory. -/
  memory : PhysMem

/-- What is known of a thread. -/
inductive ThreadContext where
  /-- Its stack has not been prepared. -/
  | absent
  /-- Prepared by `initial_stack` and not run yet. -/
  | fresh (entryPoint : BitVec 64)
  /-- It has called `switch`. -/
  | suspended (call : Call)
  /-- It runs. -/
  | active

/-- The processor shared by threads. -/
structure Threads (Name : Type) where
  /-- Registers and memory. -/
  cpu : Cpu
  /-- Address of the next instruction. -/
  rip : BitVec 64
  /-- The thread that runs. -/
  running : Name
  /-- The stack pointer last saved for each thread, or its initial one. -/
  saved : Name → BitVec 64
  /-- What is known of each thread. -/
  context : Name → ThreadContext
  /-- What was known of the running thread, when the latest step switched to it. -/
  arrived : ThreadContext

/-- What can happen. -/
inductive ThreadOp (Name : Type) where
  /-- `initial_stack` prepares a thread. -/
  | create (name : Name) (entryPoint : BitVec 64)
  /-- The running thread executes. -/
  | run
  /-- The running thread calls `switch`, to return to `returnTo`. -/
  | switch (target : Name) (returnTo : BitVec 64)

namespace Threads

variable {Name : Type} [DecidableEq Name]

/-- The boot context runs, and no thread has been prepared. -/
def boot (cpu : Cpu) (rip : BitVec 64) (main : Name) : Threads Name where
  cpu := cpu
  rip := rip
  running := main
  saved := fun _ => 0
  context := Function.update (fun _ => .absent) main .active
  arrived := .active

/-- The stack pointers saved once the running thread has called `switch`: what the call stores
in the slot at `rdi`. -/
def saves (t : Threads Name) (returnTo : BitVec 64) : Name → BitVec 64 :=
  Function.update t.saved t.running
    ((switch (t.cpu.pushWord returnTo)).cpu.memory.load64 (t.cpu.regs .rdi))

/-- What is known of the threads at that moment. -/
def suspends (t : Threads Name) (returnTo : BitVec 64) : Name → ThreadContext :=
  Function.update t.context t.running (.suspended ⟨t.cpu.regs, returnTo, t.cpu.memory⟩)

/-- One step. A thread that runs writes no other thread's stack, its own has room for the
frame of `switch`, and the slot that receives its stack pointer is on no stack. The stack
pointer that `switch` loads is the one last saved for the target. -/
def Step (code : CodeLayout) (layout : Stacks Name) (before : Threads Name) :
    ThreadOp Name → Threads Name → Prop
  | .create name entryPoint, after =>
    before.context name = .absent ∧
    after = { before with
      cpu := { before.cpu with
        memory := (initialStack code before.cpu.memory entryPoint (layout.top name)).2 }
      saved := Function.update before.saved name
        (initialStack code before.cpu.memory entryPoint (layout.top name)).1
      context := Function.update before.context name (.fresh entryPoint)
      arrived := .active }
  | .run, after =>
    WritesWithin {a | ∀ name ≠ before.running, a ∉ layout.span name} before.cpu.memory
      after.cpu.memory ∧
    after = { before with cpu := after.cpu, rip := after.rip, arrived := .active }
  | .switch target returnTo, after =>
    layout.base before.running + 56 ≤ (before.cpu.regs .rsp).toNat ∧
    (before.cpu.regs .rsp).toNat ≤ (layout.top before.running).toNat ∧
    (∀ name, (⟨(before.cpu.regs .rdi).toNat, 8⟩ : Span).Separate (layout.span name)) ∧
    before.cpu.regs .rsi = before.saves returnTo target ∧
    before.suspends returnTo target ≠ .absent ∧ before.suspends returnTo target ≠ .active ∧
    after =
      { cpu := (switch (before.cpu.pushWord returnTo)).cpu
        rip := (switch (before.cpu.pushWord returnTo)).rip
        running := target
        saved := before.saves returnTo
        context := Function.update (before.suspends returnTo) target .active
        arrived := before.suspends returnTo target }

/-- A thread switched to for the first time runs through the stub to its entry point, where a
return leads to `thread_exit`. -/
structure Starts (code : CodeLayout) (top entryPoint : BitVec 64) (control : Control) : Prop where
  /-- It reaches the entry point eight bytes below the top of its stack; a return from there, with
  that word intact, leads to `thread_exit`. -/
  enters : ∃ popped entered, stubStep code control = some popped ∧
    stubStep code popped = some entered ∧ entered.rip = entryPoint ∧
    entered.cpu.regs .rsp = top - 8 ∧
    ∀ later : Cpu, later.regs .rsp = top - 8 → later.top = entered.cpu.top →
      ∃ exits, stubStep code (ret later) = some exits ∧ exits.rip = code.threadExit

/-- A thread switched back to is after its call, with the registers a call preserves and its
stack as they were. -/
structure Continues (top : BitVec 64) (call : Call) (control : Control) : Prop where
  /-- It is after the call. -/
  rip : control.rip = call.returnTo
  /-- The callee-saved registers are as before. -/
  regs : ∀ r ∈ switchSaved, control.cpu.regs r = call.regs r
  /-- So is the stack pointer. -/
  rsp : control.cpu.regs .rsp = call.regs .rsp
  /-- So is the stack from there on. -/
  stack : ∀ a, (call.regs .rsp).toNat ≤ a → a < top.toNat →
    control.cpu.memory.byte a = call.memory.byte a

/-- The latest step, if it was a switch, started or continued its target. -/
def Preserved (code : CodeLayout) (layout : Stacks Name) (t : Threads Name) : Prop :=
  match t.arrived with
  | .fresh entryPoint => Starts code (layout.top t.running) entryPoint ⟨t.rip, t.cpu⟩
  | .suspended call => Continues (layout.top t.running) call ⟨t.rip, t.cpu⟩
  | .absent => True
  | .active => True

/-! ## What a stack keeps -/

/-- A thread that does not run has its frame at its saved stack pointer. -/
def Kept (code : CodeLayout) (base : Nat) (top saved : BitVec 64) (memory : PhysMem) :
    ThreadContext → Prop
  | .fresh entryPoint => saved.toNat = top.toNat - 64 ∧
    Words memory saved (initialFrame code entryPoint)
  | .suspended call => base + 56 ≤ (call.regs .rsp).toNat ∧ (call.regs .rsp).toNat ≤ top.toNat ∧
    saved = call.regs .rsp - BitVec.ofNat 64 56 ∧
    Words memory saved (savedFrame call.regs call.returnTo) ∧
    ∀ a, (call.regs .rsp).toNat ≤ a → a < top.toNat → memory.byte a = call.memory.byte a
  | .absent => True
  | .active => True

omit [DecidableEq Name] in
/-- Writes off a thread's stack leave its frame alone. -/
theorem Kept.congr {code : CodeLayout} {layout : Stacks Name} {name : Name} {saved : BitVec 64}
    {memory after : PhysMem} {context : ThreadContext} {region : Set Nat}
    (kept : Kept code (layout.base name) (layout.top name) saved memory context)
    (writes : WritesWithin region memory after)
    (off : ∀ a ∈ layout.span name, a ∉ region) :
    Kept code (layout.base name) (layout.top name) saved after context := by
  have room := layout.room name
  have bound := (layout.top name).isLt
  cases context with
  | absent => trivial
  | active => trivial
  | fresh entryPoint =>
    obtain ⟨atSaved, words⟩ := kept
    refine ⟨atSaved, words.congr writes ?_ fun a inside => off a ?_⟩
    · simp only [initialFrame, List.length_cons, List.length_nil, atSaved]
      omega
    · simp only [wordSpan, initialFrame, List.length_cons, List.length_nil, atSaved, Span.mem_iff,
        Stacks.span] at inside ⊢
      omega
  | suspended call =>
    obtain ⟨low, high, rfl, words, bytes⟩ := kept
    have length : (savedFrame call.regs call.returnTo).length = 7 := rfl
    have fits : 56 ≤ (call.regs .rsp).toNat := by omega
    have below := toNat_sub_of_le fits
    refine ⟨low, high, rfl, words.congr writes ?_ fun a inside => off a ?_, fun a above under => ?_⟩
    · rw [length, below]
      omega
    · simp only [wordSpan, length, below, Span.mem_iff, Stacks.span] at inside ⊢
      omega
    · rw [writes.unchanged a, bytes a above under]
      apply off
      simp only [Span.mem_iff, Stacks.span]
      omega

/-! ## Runs -/

variable {code : CodeLayout} {layout : Stacks Name} {before after : Threads Name}

/-- Who runs is known, every other thread keeps its frame, and the latest switch is right. -/
structure Sound (code : CodeLayout) (layout : Stacks Name) (t : Threads Name) : Prop where
  /-- The running thread is known as such. -/
  active : t.context t.running = .active
  /-- Every other thread keeps its frame. -/
  kept : ∀ name, Kept code (layout.base name) (layout.top name) (t.saved name) t.cpu.memory
    (t.context name)
  /-- The latest switch was right. -/
  preserved : Preserved code layout t

/-- Nothing has been switched at boot. -/
theorem sound_boot (cpu : Cpu) (rip : BitVec 64) (main : Name) :
    Sound code layout (boot cpu rip main) := by
  refine ⟨by simp [boot], fun name => ?_, trivial⟩
  simp only [boot, Function.update_apply]
  split <;> trivial

omit [DecidableEq Name] in
/-- A byte of one stack is on no other stack. -/
theorem off_of_ne {name other : Name} (differ : name ≠ other) {a : Nat}
    (inside : a ∈ layout.span name) : a ∉ layout.span other :=
  Span.separate_iff.mp (layout.apart name other differ) a inside

/-- Preparing a thread writes its own stack. -/
theorem sound_create {name : Name} {entryPoint : BitVec 64} (sound : Sound code layout before)
    (step : Step code layout before (.create name entryPoint) after) :
    Sound code layout after := by
  obtain ⟨absent, rfl⟩ := step
  have other : before.running ≠ name := by
    rintro same
    rw [← same, sound.active] at absent
    cases absent
  have room := layout.room name
  have large : 64 ≤ (layout.top name).toNat := by omega
  obtain ⟨rsp, frame, writes⟩ := initialStack_spec code before.cpu.memory entryPoint large
  refine ⟨?_, fun thread => ?_, trivial⟩
  · simp only [Function.update_of_ne other]
    exact sound.active
  · by_cases same : thread = name
    · subst same
      simp only [Function.update_self]
      exact ⟨rsp, frame⟩
    · simp only [Function.update_of_ne same]
      refine (sound.kept thread).congr writes fun a inside written => ?_
      refine off_of_ne same inside ?_
      simp only [Span.mem_toSet, Span.mem_iff, Stacks.span] at written ⊢
      omega

/-- A thread that runs writes no other thread's stack. -/
theorem sound_run (sound : Sound code layout before) (step : Step code layout before .run after) :
    Sound code layout after := by
  obtain ⟨writes, same⟩ := step
  have context : after.context = before.context := by rw [same]
  have running : after.running = before.running := by rw [same]
  have saved : after.saved = before.saved := by rw [same]
  have arrived : after.arrived = .active := by rw [same]
  refine ⟨by rw [context, running]; exact sound.active, fun name => ?_, ?_⟩
  · rw [context, saved]
    by_cases itself : name = before.running
    · rw [itself, sound.active]
      trivial
    · exact (sound.kept name).congr writes fun a inside region => region name itself inside
  · rw [Preserved, arrived]
    trivial

/-- A prepared frame leads through the stub to the entry point. -/
theorem starts_of_kept {base : Nat} {top saved entryPoint : BitVec 64} {cpu : Cpu}
    (large : 64 ≤ top.toNat) (target : cpu.regs .rsi = saved)
    (kept : Kept code base top saved cpu.memory (.fresh entryPoint)) :
    Starts code top entryPoint (ret (cpu.exec switchLoad)) := by
  obtain ⟨below, frame⟩ := kept
  have savedEq : saved = top - BitVec.ofNat 64 64 := by
    apply BitVec.eq_of_toNat_eq
    rw [below, toNat_sub_of_le large]
  rw [← target, initialFrame_eq] at frame
  obtain ⟨rip, _, rsp, memory⟩ := switchLoad_spec frame.left
  have above : cpu.memory.load64 (cpu.regs .rsi + BitVec.ofNat 64 56) = entryPoint := by
    have last := frame.2.2.2.2.2.2.2.1
    simp only [BitVec.add_assoc] at last
    exact last
  generalize ret (cpu.exec switchLoad) = control at rip rsp memory
  have poppedEq : stubStep code control =
      some ⟨code.threadEntryStub + 1, control.cpu.exec [.pop .rdi]⟩ := by
    rw [stubStep, if_pos rip]
  have entry : (control.cpu.exec [.pop .rdi]).regs .rdi = entryPoint := by
    rw [Cpu.exec_cons, Cpu.exec_nil, Instr.exec, Cpu.set_self, Cpu.top, memory, rsp, above]
  have stackTop : (control.cpu.exec [.pop .rdi]).regs .rsp = top := by
    have other : Register.rsp ≠ .rdi := by decide
    rw [Cpu.exec_cons, Cpu.exec_nil, Instr.exec, Cpu.set_other _ _ other, Cpu.dropWord,
      Cpu.set_self, rsp, target, savedEq]
    bv_omega
  have notFirst : ¬ code.threadEntryStub + 1 = code.threadEntryStub := by bv_omega
  have enteredEq : stubStep code ⟨code.threadEntryStub + 1, control.cpu.exec [.pop .rdi]⟩ =
      some ⟨(control.cpu.exec [.pop .rdi]).regs .rdi,
        (control.cpu.exec [.pop .rdi]).pushWord (code.threadEntryStub + 3)⟩ := by
    rw [stubStep, if_neg notFirst, if_pos rfl]
  refine ⟨_, _, poppedEq, enteredEq, entry, ?_, ?_⟩
  · simp only [Cpu.pushWord, Function.update_self, stackTop]
  · intro later _ same
    have returns : (ret later).rip = code.threadEntryStub + 3 := by
      rw [ret, same]
      simp only [Cpu.top, Cpu.pushWord, Function.update_self, PhysMem.load64_store64]
    have notStub : ¬ code.threadEntryStub + 3 = code.threadEntryStub := by bv_omega
    have notCall : ¬ code.threadEntryStub + 3 = code.threadEntryStub + 1 := by bv_omega
    refine ⟨⟨code.threadExit, (ret later).cpu⟩, ?_, rfl⟩
    rw [stubStep, returns, if_neg notStub, if_neg notCall, if_pos rfl]

/-- A saved frame leads back after the call that saved it. -/
theorem continues_of_kept {base : Nat} {top saved : BitVec 64} {call : Call} {cpu : Cpu}
    (target : cpu.regs .rsi = saved)
    (kept : Kept code base top saved cpu.memory (.suspended call)) :
    Continues top call (ret (cpu.exec switchLoad)) := by
  obtain ⟨_, _, savedEq, frame, bytes⟩ := kept
  rw [← target] at frame
  obtain ⟨rip, regs, rsp, memory⟩ := switchLoad_spec frame
  refine ⟨rip, regs, ?_, fun a above under => ?_⟩
  · rw [rsp, target, savedEq, BitVec.sub_add_cancel]
  · rw [memory]
    exact bytes a above under

/-- The bytes that a call of `switch` writes: its frame, below the stack pointer of the caller,
and the slot. -/
def written (layout : Stacks Name) (t : Threads Name) : Set Nat :=
  {a | a ∈ layout.span t.running ∧ a < (t.cpu.regs .rsp).toNat} ∪
    (⟨(t.cpu.regs .rdi).toNat, 8⟩ : Span).toSet

/-- What a call of `switch` has done once it has saved the context it comes from. -/
theorem switch_saves (returnTo : BitVec 64)
    (low : layout.base before.running + 56 ≤ (before.cpu.regs .rsp).toNat)
    (high : (before.cpu.regs .rsp).toNat ≤ (layout.top before.running).toNat)
    (slotOff : ∀ name, (⟨(before.cpu.regs .rdi).toNat, 8⟩ : Span).Separate (layout.span name)) :
    ((before.cpu.pushWord returnTo).exec switchSave).regs .rsi = before.cpu.regs .rsi ∧
      before.saves returnTo = Function.update before.saved before.running
        (before.cpu.regs .rsp - BitVec.ofNat 64 56) ∧
      WritesWithin (written layout before) before.cpu.memory
        ((before.cpu.pushWord returnTo).exec switchSave).memory ∧
      Words ((before.cpu.pushWord returnTo).exec switchSave).memory
        (before.cpu.regs .rsp - BitVec.ofNat 64 56) (savedFrame before.cpu.regs returnTo) := by
  have bound := (before.cpu.regs .rsp).isLt
  have nothing : Words before.cpu.memory (before.cpu.regs .rsp) [] := trivial
  have room : 8 ≤ (before.cpu.regs .rsp).toNat := by omega
  obtain ⟨rsp, frame, pushed⟩ := Cpu.pushWord_spec returnTo nothing room (Nat.le_of_lt bound)
  have kept (r : Register) (other : r ≠ .rsp) := before.cpu.pushWord_other returnTo other
  have callerTop : (before.cpu.pushWord returnTo).top = returnTo := frame.1
  have frameEq : savedFrame (before.cpu.pushWord returnTo).regs returnTo =
      savedFrame before.cpu.regs returnTo := rfl
  have rspEq : (before.cpu.pushWord returnTo).regs .rsp - BitVec.ofNat 64 48 =
      before.cpu.regs .rsp - BitVec.ofNat 64 56 := by
    simp only [Cpu.pushWord, Function.update_self]
    bv_omega
  have slotSpan := Span.separate_iff.mp (slotOff before.running)
  have saved : _ ∧ _ ∧ _ ∧ _ := @switchSave_spec (before.cpu.pushWord returnTo)
    (written layout before) (by omega) (by omega) ?_ ?_ ?_
  · rw [callerTop, frameEq, rspEq, kept .rdi (by decide), kept .rsi (by decide)] at saved
    obtain ⟨rsi, slot, writes, words⟩ := saved
    refine ⟨rsi, ?_, .trans (pushed.mono ?_) writes, words⟩
    · rw [saves, switch_memory, slot]
    · intro a inside
      simp only [Cpu.pushSpan, Span.mem_toSet, Span.mem_iff] at inside
      refine .inl ⟨?_, by omega⟩
      simp only [Stacks.span, Span.mem_iff]
      omega
  · intro a inside
    simp only [Cpu.pushSpan, Span.mem_iff, rsp] at inside
    refine .inl ⟨?_, by omega⟩
    simp only [Stacks.span, Span.mem_iff]
    omega
  · intro a inside
    rw [kept .rdi (by decide)] at inside
    exact .inr inside
  · rw [kept .rdi (by decide), rsp]
    apply Span.separate_iff.mpr
    intro a inside inSlot
    refine slotSpan a inSlot ?_
    simp only [Stacks.span, Span.mem_iff] at inside ⊢
    omega

/-- Once the context it comes from is saved, every thread keeps its frame. -/
theorem kept_saves (returnTo : BitVec 64) (sound : Sound code layout before)
    (low : layout.base before.running + 56 ≤ (before.cpu.regs .rsp).toNat)
    (high : (before.cpu.regs .rsp).toNat ≤ (layout.top before.running).toNat)
    (slotOff : ∀ name, (⟨(before.cpu.regs .rdi).toNat, 8⟩ : Span).Separate (layout.span name))
    (name : Name) :
    Kept code (layout.base name) (layout.top name) (before.saves returnTo name)
      ((before.cpu.pushWord returnTo).exec switchSave).memory
      (before.suspends returnTo name) := by
  obtain ⟨_, savesEq, writes, frame⟩ := switch_saves returnTo low high slotOff
  have onStack {name : Name} {a : Nat} (inside : a ∈ layout.span name)
      (isWritten : a ∈ written layout before) :
      a ∈ layout.span before.running ∧ a < (before.cpu.regs .rsp).toNat := by
    refine isWritten.resolve_right fun inSlot => ?_
    exact Span.separate_iff.mp (slotOff name) a inSlot inside
  by_cases same : name = before.running
  · subst same
    rw [savesEq, suspends, Function.update_self, Function.update_self]
    refine ⟨low, high, rfl, frame, fun a above under => writes.unchanged a fun isWritten => ?_⟩
    have fromRsp : (before.cpu.regs .rsp).toNat ≤ a := above
    have inside : a ∈ layout.span before.running := by
      simp only [Stacks.span, Span.mem_iff]
      omega
    have below := (onStack inside isWritten).2
    omega
  · rw [savesEq, suspends, Function.update_of_ne same, Function.update_of_ne same]
    refine (sound.kept name).congr writes fun a inside isWritten => ?_
    exact off_of_ne same inside (onStack inside isWritten).1

/-- A switch starts or continues its target, and leaves every other frame alone. -/
theorem sound_switch {target : Name} {returnTo : BitVec 64} (sound : Sound code layout before)
    (step : Step code layout before (.switch target returnTo) after) :
    Sound code layout after := by
  obtain ⟨low, high, slotOff, rsi, present, waiting, rfl⟩ := step
  obtain ⟨sameRsi, _⟩ := switch_saves returnTo low high slotOff
  have kept := kept_saves returnTo sound low high slotOff
  rw [rsi] at sameRsi
  have switched : switch (before.cpu.pushWord returnTo) =
      ret (((before.cpu.pushWord returnTo).exec switchSave).exec switchLoad) := by
    rw [switch, Cpu.exec_append]
  refine ⟨Function.update_self _ _ _, fun name => ?_, ?_⟩
  · simp only [switch_memory]
    by_cases same : name = target
    · rw [same, Function.update_self]
      trivial
    · rw [Function.update_of_ne same]
      exact kept name
  · have room := layout.room target
    have large : 64 ≤ (layout.top target).toNat := by omega
    have targetKept := kept target
    rw [Preserved, switched]
    revert targetKept present waiting
    cases before.suspends returnTo target with
    | absent => exact fun absent => absurd rfl absent
    | active => exact fun _ active => absurd rfl active
    | fresh entryPoint =>
      exact fun _ _ targetKept => starts_of_kept large sameRsi targetKept
    | suspended call => exact fun _ _ targetKept => continues_of_kept sameRsi targetKept

/-- One step. -/
theorem sound_step {op : ThreadOp Name} (sound : Sound code layout before)
    (step : Step code layout before op after) : Sound code layout after := by
  cases op with
  | create => exact sound_create sound step
  | run => exact sound_run sound step
  | switch => exact sound_switch sound step

/-- Every run, in any order of switches between any threads, starts and continues the threads
it switches to as they were prepared or left. -/
theorem switch_preserves_contexts {cpu : Cpu} {rip : BitVec 64} {main : Name}
    {ops : List (ThreadOp Name)} {last : Threads Name}
    (run : Run (Step code layout) (boot cpu rip main) ops last) : Preserved code layout last :=
  (run.invariant (Sound code layout) (fun _ _ _ => sound_step) (sound_boot cpu rip main)).preserved

/-- Two stacks of a page each. -/
def twoStacks : Stacks Bool where
  base name := if name then 0x2000 else 0x1000
  top name := if name then 0x3000 else 0x2000
  room := by decide
  apart left right differ := by
    cases left <;> cases right <;> first | exact absurd rfl differ | decide

/-- The registers of the boot context at its call of `switch`. -/
def callerRegs : Register → BitVec 64
  | .rsp => 0x1FF0
  | .rdi => 0x5000
  | .rsi => 0x2FC0
  | _ => 7

/-- The registers of the second thread at its call of `switch`. -/
def calleeRegs (target : BitVec 64) : Register → BitVec 64
  | .rsp => 0x2FE0
  | .rdi => 0x5008
  | .rsi => target
  | _ => 9

/-- The boot context prepares a thread and switches to it; the thread runs and switches back. -/
theorem switch_preserves_contexts_there_and_back : ∃ last : Threads Bool,
    Run (Step ⟨0x400000, 0x500000⟩ twoStacks) (boot ⟨callerRegs, ⟨fun _ => 0, []⟩⟩ 0x100000 false)
      [.create true 0x600000, .switch true 0x100005, .run, .switch false 0x600020] last ∧
      last.rip = 0x100005 ∧ Preserved ⟨0x400000, 0x500000⟩ twoStacks last := by
  have slotOff (slot : BitVec 64) (above : 0x3000 ≤ slot.toNat) (name : Bool) :
      (⟨slot.toNat, 8⟩ : Span).Separate (twoStacks.span name) := by
    apply Span.separate_iff.mpr
    intro a inside onStack
    cases name <;> simp [Stacks.span, twoStacks, Span.mem_iff] at inside onStack <;> omega
  obtain ⟨first, created, running, regs, saved, context⟩ : ∃ first : Threads Bool,
      Step ⟨0x400000, 0x500000⟩ twoStacks (boot ⟨callerRegs, ⟨fun _ => 0, []⟩⟩ 0x100000 false)
        (.create true 0x600000) first ∧ first.running = false ∧ first.cpu.regs = callerRegs ∧
      first.saved true = 0x2FC0 ∧ first.context true = .fresh 0x600000 :=
    ⟨_, ⟨rfl, rfl⟩, rfl, rfl, rfl, rfl⟩
  obtain ⟨second, switched, secondRunning, secondContext⟩ : ∃ second : Threads Bool,
      Step ⟨0x400000, 0x500000⟩ twoStacks first (.switch true 0x100005) second ∧
      second.running = true ∧
      second.context false = .suspended ⟨callerRegs, 0x100005, first.cpu.memory⟩ := by
    refine ⟨_, ⟨?_, ?_, ?_, ?_, ?_, ?_, rfl⟩, rfl, ?_⟩
    · rw [running, regs]
      decide
    · rw [running, regs]
      decide
    · rw [regs]
      exact slotOff _ (by decide)
    · simp [saves, running, saved, regs, callerRegs]
    · simp [suspends, running, context]
    · simp [suspends, running, context]
    · simp [suspends, running, regs]
  obtain ⟨third, ran, thirdRegs, same⟩ : ∃ third : Threads Bool,
      Step ⟨0x400000, 0x500000⟩ twoStacks second .run third ∧
      third.cpu.regs = calleeRegs (second.saved false) ∧
      third.running = second.running ∧ third.context = second.context ∧
      third.saved = second.saved :=
    ⟨{ second with cpu := ⟨calleeRegs (second.saved false), second.cpu.memory⟩, arrived := .active },
      ⟨.refl _ _, rfl⟩, rfl, rfl, rfl, rfl⟩
  rw [secondRunning] at same
  obtain ⟨thirdRunning, thirdContext, thirdSaved⟩ := same
  obtain ⟨last, back, arrived⟩ : ∃ last : Threads Bool,
      Step ⟨0x400000, 0x500000⟩ twoStacks third (.switch false 0x600020) last ∧
      last.arrived = .suspended ⟨callerRegs, 0x100005, first.cpu.memory⟩ := by
    refine ⟨_, ⟨?_, ?_, ?_, ?_, ?_, ?_, rfl⟩, ?_⟩
    · rw [thirdRunning, thirdRegs]
      simp [twoStacks, calleeRegs]
    · rw [thirdRunning, thirdRegs]
      simp [twoStacks, calleeRegs]
    · rw [thirdRegs]
      exact slotOff _ (by simp [calleeRegs])
    · simp [saves, thirdRunning, thirdSaved, thirdRegs, calleeRegs]
    · simp [suspends, thirdRunning, thirdContext, secondContext]
    · simp [suspends, thirdRunning, thirdContext, secondContext]
    · simp [suspends, thirdRunning, thirdContext, secondContext]
  have run := Run.cons created (.cons switched (.cons ran (.cons back (.nil last))))
  have preserved := switch_preserves_contexts run
  refine ⟨last, run, ?_, preserved⟩
  rw [Preserved, arrived] at preserved
  exact preserved.rip

end Threads

end Aperture.Arch
