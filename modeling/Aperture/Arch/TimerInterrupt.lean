import Aperture.Arch.ContextSwitch
import Aperture.Win32.Switches

/-!
# Timer interrupt

The processor pushes an interrupt frame and enters `timer_interrupt_handler`. From ring 3 the
handler pushes every general-purpose register, passes the stack pointer to `preempt`, pops the
registers at the pointer it returns, acknowledges the interrupt and executes `iretq`; from
ring 0 it acknowledges and returns. The test of the ring runs in RAX before the pushes, and the
acknowledgement in AL after the pops.
-/

namespace Aperture.Arch

open Machine Win32

/-- What an interrupt frame holds beside the stack pointer. -/
structure Flow where
  /-- Next instruction. -/
  rip : BitVec 64
  /-- Code segment, with the ring in its low two bits. -/
  cs : BitVec 64
  /-- Flags. -/
  rflags : BitVec 64
  /-- Stack segment. -/
  ss : BitVec 64

/-- The ring of a code segment is 3. -/
def Flow.inUser (flow : Flow) : Prop := flow.cs &&& 3 = 3

/-- Ring tests are decidable. -/
instance (flow : Flow) : Decidable flow.inUser := inferInstanceAs (Decidable (flow.cs &&& 3 = 3))

/-- Where the processor starts an interrupt frame: the ring-0 stack of the TSS when the ring
changes, else the current stack, rounded down to 16 bytes. -/
def frameTop (cpu : Cpu) (flow : Flow) (rsp0 : Nat) : BitVec 64 :=
  let rsp := if flow.inUser then BitVec.ofNat 64 rsp0 else cpu.regs .rsp
  BitVec.ofNat 64 (rsp.toNat / 16 * 16)

/-- The processor's part of an interrupt. -/
def deliver (cpu : Cpu) (flow : Flow) (rsp0 : Nat) : Cpu :=
  let pushed := pushAll cpu.memory (frameTop cpu flow rsp0)
    [flow.ss, cpu.regs .rsp, flow.rflags, flow.cs, flow.rip]
  ⟨Function.update cpu.regs .rsp pushed.1, pushed.2⟩

/-- `iretq`. -/
def iretq (cpu : Cpu) : Cpu × Flow :=
  let rsp := cpu.regs .rsp
  (cpu.set .rsp (cpu.memory.load64 (rsp + 24)),
    { rip := cpu.memory.load64 rsp
      cs := cpu.memory.load64 (rsp + 8)
      rflags := cpu.memory.load64 (rsp + 16)
      ss := cpu.memory.load64 (rsp + 32) })

/-- `PIC_EOI`. -/
def picEoi : BitVec 8 := 0x20

/-- The handler's test of the ring. -/
def timerTest : List Instr := [.load .rax .rsp 8, .andImm .rax 3]

/-- The registers the handler saves, in the order it pushes them. -/
def timerSaved : List Register :=
  [.r15, .r14, .r13, .r12, .r11, .r10, .r9, .r8, .rbp, .rdi, .rsi, .rbx, .rdx, .rcx, .rax]

/-- The ring-3 path up to its call of `preempt`. -/
def timerSave : List Instr := timerSaved.map .push ++ [.mov .rdi .rsp]

/-- Acknowledge the interrupt; `out` changes no register. -/
def timerAcknowledge : List Instr := [.movLow .rax picEoi]

/-- The ring-3 path from the return of `preempt` to its `iretq`. -/
def timerRestore : List Instr :=
  .mov .rsp .rax :: timerSaved.reverse.map .pop ++ timerAcknowledge

/-- A context an interrupt can leave and return to. -/
structure Interrupted where
  /-- General-purpose registers. -/
  regs : Register → BitVec 64
  /-- The rest of the interrupt frame. -/
  flow : Flow

/-- An `iretq` has been executed. -/
structure Returned where
  /-- The ring it returned to. -/
  ring : Ring
  /-- The context it returned to, as it was when last interrupted. -/
  expected : Interrupted

/-- The five words the processor pushes, from the lowest address. -/
def interruptFrame (context : Interrupted) : List (BitVec 64) :=
  [context.flow.rip, context.flow.cs, context.flow.rflags, context.regs .rsp, context.flow.ss]

/-- What the handler leaves on the stack of a context it interrupts in ring 3. RAX holds the
ring by then. -/
def timerFrame (context : Interrupted) : List (BitVec 64) :=
  timerSaved.reverse.map (Function.update context.regs .rax 3) ++ interruptFrame context

/-- The processor with the scheduler, and what each thread was when last interrupted. -/
structure Preemptible where
  /-- Registers and memory. -/
  cpu : Cpu
  /-- Next instruction, segments and flags. -/
  flow : Flow
  /-- The scheduler's statics. -/
  scheduler : Scheduler
  /-- Each slot's thread when a timer interrupt last took it from ring 3. -/
  interrupted : Nat → Interrupted
  /-- The return executed by the latest step. -/
  returned : Option Returned

/-- What can happen. -/
inductive TimerOp where
  /-- `enter_user_mode` starts a thread. -/
  | enter (slot : Nat)
  /-- The running thread executes, in user mode and in system calls. -/
  | run
  /-- A timer interrupt. -/
  | timer
  deriving DecidableEq

/-- The kernel stack of a slot's thread, where its interrupt frames lie. -/
def interruptStack (s : Scheduler) (slot : Nat) : Span := ⟨(s.storage slot).stackBase, stackSize⟩

/-- The bytes that are on no interrupt stack but the running thread's. -/
def ownBytes (s : Scheduler) : Set Nat :=
  {a | ∀ slot, s.used slot = true → s.current ≠ some slot → a ∉ interruptStack s slot}

/-- The bytes `preempt` may write: off the interrupt stacks, and below its caller's frame. -/
def calleeBytes (s : Scheduler) (rsp : Nat) : Set Nat :=
  ownBytes s ∩ {a | ∀ slot, s.current = some slot → a ∈ interruptStack s slot → a < rsp}

namespace Preemptible

/-- Where the saved registers of a slot's thread lie. -/
def framePointer (s : Scheduler) (slot : Nat) : Nat := (s.storage slot).stackBase + stackSize - 160

/-- A thread's frame is on its stack. -/
def FrameOf (p : Preemptible) (slot : Nat) : Prop :=
  Words p.cpu.memory (BitVec.ofNat 64 (framePointer p.scheduler slot))
    (timerFrame (p.interrupted slot))

/-- What is known of the threads once the running one is interrupted in ring 3. -/
def interrupts (p : Preemptible) : Nat → Interrupted :=
  match p.scheduler.current with
  | none => p.interrupted
  | some slot => Function.update p.interrupted slot ⟨p.cpu.regs, p.flow⟩

/-- The context that the ring-3 path has to return to. -/
def resumes (p : Preemptible) (interruptRsp : Nat) : Interrupted :=
  match p.scheduler.selects (.preempt interruptRsp) with
  | none => ⟨p.cpu.regs, p.flow⟩
  | some next => p.interrupts next

/-- A timer interrupt. `called` is the processor when `preempt` returns. -/
def Timer (before after : Preemptible) : Prop :=
  let tested := (deliver before.cpu before.flow before.scheduler.rsp0).exec timerTest
  if tested.regs .rax = 3 then
    let saved := tested.exec timerSave
    ∃ (resumed : Nat) (called : Cpu),
      before.scheduler.preempt (saved.regs .rdi).toNat = .ok (resumed, after.scheduler) ∧
      called.regs .rax = BitVec.ofNat 64 resumed ∧
      WritesWithin (calleeBytes before.scheduler (saved.regs .rsp).toNat) saved.memory
        called.memory ∧
      (after.cpu, after.flow) = iretq (called.exec timerRestore) ∧
      after.interrupted = before.interrupts ∧
      after.returned = some ⟨.user, before.resumes (saved.regs .rdi).toNat⟩
  else
    (after.cpu, after.flow) = iretq (tested.exec timerAcknowledge) ∧
    after.scheduler = before.scheduler ∧ after.interrupted = before.interrupted ∧
    after.returned = some ⟨.kernel, ⟨before.cpu.regs, before.flow⟩⟩

/-- One step. A thread is entered from one whose frame, if it has been interrupted before, is still on
its stack. User mode runs threads that have been entered. Execution between interrupts stays off the
other threads' interrupt stacks, and so does an interrupt frame pushed in ring 0. -/
def Step (before : Preemptible) : TimerOp → Preemptible → Prop
  | .enter slot, after =>
    slot < maxThreads ∧ before.scheduler.Step (.enterUserMode slot) after.scheduler ∧
    (∀ caller, before.scheduler.current = some caller → caller ≠ slot →
      (before.scheduler.storage caller).interruptRsp ≠ 0 → before.FrameOf caller) ∧
    after = { before with scheduler := after.scheduler, returned := none }
  | .run, after =>
    WritesWithin (ownBytes before.scheduler) before.cpu.memory after.cpu.memory ∧
    (after.flow.inUser → before.scheduler.current ≠ none) ∧
    after = { before with cpu := after.cpu, flow := after.flow, returned := none }
  | .timer, after =>
    (¬ before.flow.inUser → 56 ≤ (before.cpu.regs .rsp).toNat ∧
      ∀ a ∈ (⟨(frameTop before.cpu before.flow 0).toNat - 40, 40⟩ : Span),
        a ∈ ownBytes before.scheduler) ∧
    before.Timer after

/-- The latest return found every register it owes the context it returned to: all of them in
ring 0, all but the stack pointer, which the frame restores, in ring 3. -/
def Transparent (p : Preemptible) : Prop :=
  ∀ r, p.returned = some r →
    ∀ register, register ≠ .rsp ∨ r.ring = .kernel → p.cpu.regs register = r.expected.regs register

/-- Every thread that is not running and has been interrupted has its frame on its interrupt
stack. -/
structure Intact (p : Preemptible) : Prop where
  /-- Queued slots hold threads. -/
  queued : ∀ slot, p.scheduler.Queued slot → p.scheduler.used slot = true
  /-- Interrupts of the running thread use its stack. -/
  running : ∀ slot, p.scheduler.current = some slot → p.scheduler.used slot = true ∧
    p.scheduler.rsp0 = (p.scheduler.storage slot).stackBase + stackSize
  /-- User mode runs a thread. -/
  ring : p.flow.inUser → p.scheduler.current ≠ none
  /-- Stacks are aligned and in the address space. -/
  stackFits : ∀ slot, p.scheduler.used slot = true →
    (p.scheduler.storage slot).stackBase % 16 = 0 ∧
    (p.scheduler.storage slot).stackBase + stackSize < wordSize
  /-- Stacks are disjoint. -/
  apart : ∀ left right, left ≠ right → p.scheduler.used left = true →
    p.scheduler.used right = true →
    (interruptStack p.scheduler left).Separate (interruptStack p.scheduler right)
  /-- Frames lie at the top of their stacks. -/
  located : ∀ slot, p.scheduler.used slot = true → (p.scheduler.storage slot).interruptRsp ≠ 0 →
    (p.scheduler.storage slot).interruptRsp = framePointer p.scheduler slot
  /-- A thread that does not run has its frame. -/
  frames : ∀ slot, p.scheduler.used slot = true → p.scheduler.current ≠ some slot →
    (p.scheduler.storage slot).interruptRsp ≠ 0 → p.FrameOf slot

end Preemptible

/-! ## The handler -/

/-- The processor's part, where the frame has room. -/
theorem deliver_spec {cpu : Cpu} {flow : Flow} {rsp0 : Nat}
    (room : 40 ≤ (frameTop cpu flow rsp0).toNat) :
    ((deliver cpu flow rsp0).regs .rsp).toNat = (frameTop cpu flow rsp0).toNat - 40 ∧
      (∀ r ≠ .rsp, (deliver cpu flow rsp0).regs r = cpu.regs r) ∧
      Words (deliver cpu flow rsp0).memory ((deliver cpu flow rsp0).regs .rsp)
        (interruptFrame ⟨cpu.regs, flow⟩) ∧
      WritesWithin (⟨(frameTop cpu flow rsp0).toNat - 40, 40⟩ : Span).toSet cpu.memory
        (deliver cpu flow rsp0).memory := by
  have nothing : Words cpu.memory (frameTop cpu flow rsp0) [] := trivial
  obtain ⟨rsp, words, writes⟩ := pushAll_spec
    [flow.ss, cpu.regs .rsp, flow.rflags, flow.cs, flow.rip] nothing room
    (Nat.le_of_lt (frameTop cpu flow rsp0).isLt)
  have rspEq : (deliver cpu flow rsp0).regs .rsp = (pushAll cpu.memory (frameTop cpu flow rsp0)
      [flow.ss, cpu.regs .rsp, flow.rflags, flow.cs, flow.rip]).1 := by
    simp only [deliver, Function.update_self]
  have others : ∀ r ≠ .rsp, (deliver cpu flow rsp0).regs r = cpu.regs r := by
    intro r other
    simp only [deliver, Function.update_of_ne other]
  refine ⟨by rw [rspEq]; exact rsp, others, ?_, writes⟩
  rw [rspEq]
  exact words

/-- The test leaves the ring in RAX and nothing else. -/
theorem timerTest_spec {cpu : Cpu} {context : Interrupted}
    (words : Words cpu.memory (cpu.regs .rsp) (interruptFrame context)) :
    cpu.exec timerTest = cpu.set .rax (context.flow.cs &&& 3) := by
  have code : cpu.memory.load64 (cpu.regs .rsp + 8) = context.flow.cs := words.2.1
  simp only [timerTest, Cpu.exec_cons, Cpu.exec_nil, Instr.exec, code, Cpu.set_self]
  simp only [Cpu.set, Function.update_idem]

/-- The ring-3 path leaves the frame on the stack and its address in RDI. -/
theorem timerSave_spec {cpu : Cpu} {context : Interrupted}
    (regs : ∀ r ≠ .rsp, cpu.regs r = Function.update context.regs .rax 3 r)
    (words : Words cpu.memory (cpu.regs .rsp) (interruptFrame context))
    (room : 120 ≤ (cpu.regs .rsp).toNat) (fits : (cpu.regs .rsp).toNat + 40 ≤ 2 ^ 64) :
    ((cpu.exec timerSave).regs .rsp).toNat = (cpu.regs .rsp).toNat - 120 ∧
      (cpu.exec timerSave).regs .rdi = (cpu.exec timerSave).regs .rsp ∧
      Words (cpu.exec timerSave).memory ((cpu.exec timerSave).regs .rsp) (timerFrame context) ∧
      WritesWithin (⟨(cpu.regs .rsp).toNat - 120, 120⟩ : Span).toSet cpu.memory
        (cpu.exec timerSave).memory := by
  have notRsp : Register.rsp ∉ timerSaved := by decide
  have count : timerSaved.length = 15 := rfl
  obtain ⟨rsp, _, pushed, writes⟩ := Cpu.exec_pushes notRsp words (by rw [count]; exact room) fits
  have moved : cpu.exec timerSave = (cpu.exec (timerSaved.map .push)).set .rdi
      ((cpu.exec (timerSaved.map .push)).regs .rsp) := by
    rw [timerSave, Cpu.exec_append, Cpu.exec_cons, Cpu.exec_nil, Instr.exec]
  have values : timerSaved.reverse.map cpu.regs =
      timerSaved.reverse.map (Function.update context.regs .rax 3) := by
    refine List.map_congr_left fun r member => regs r ?_
    rintro rfl
    exact notRsp (List.mem_reverse.mp member)
  rw [count] at rsp writes
  rw [values] at pushed
  rw [moved]
  generalize cpu.exec (timerSaved.map .push) = pushedCpu at rsp pushed writes
  have rspEq : (pushedCpu.set .rdi (pushedCpu.regs .rsp)).regs .rsp = pushedCpu.regs .rsp :=
    Cpu.set_other _ _ (by decide)
  rw [rspEq, Cpu.set_self, Cpu.set_memory]
  exact ⟨rsp, rfl, pushed, writes⟩

/-- The acknowledgement leaves `PIC_EOI` in RAX when RAX held less than a byte. -/
theorem timerAcknowledge_spec (cpu : Cpu) (low : cpu.regs .rax &&& ~~~255 = 0) :
    cpu.exec timerAcknowledge = cpu.set .rax 0x20 := by
  rw [timerAcknowledge, Cpu.exec_cons, Cpu.exec_nil, Instr.exec, low]
  rfl

/-- `iretq` takes its frame from the stack. -/
theorem iretq_spec {cpu : Cpu} {context : Interrupted}
    (words : Words cpu.memory (cpu.regs .rsp) (interruptFrame context)) :
    iretq cpu = (cpu.set .rsp (context.regs .rsp), context.flow) := by
  obtain ⟨rip, cs, rflags, rsp, ss, _⟩ := words
  simp only [BitVec.add_assoc] at cs rflags rsp ss
  have rflagsEq : cpu.memory.load64 (cpu.regs .rsp + 16) = context.flow.rflags := rflags
  have rspEq : cpu.memory.load64 (cpu.regs .rsp + 24) = context.regs .rsp := rsp
  have ssEq : cpu.memory.load64 (cpu.regs .rsp + 32) = context.flow.ss := ss
  simp only [iretq, rip, cs, rflagsEq, rspEq, ssEq]

/-- The ring-3 path restores a frame, and leaves `PIC_EOI` in RAX. -/
theorem timerRestore_spec {cpu : Cpu} {context : Interrupted}
    (words : Words cpu.memory (cpu.regs .rax) (timerFrame context)) :
    (iretq (cpu.exec timerRestore)).1.memory = cpu.memory ∧
      (iretq (cpu.exec timerRestore)).2 = context.flow ∧
      ∀ r, (iretq (cpu.exec timerRestore)).1.regs r =
        Function.update context.regs .rax 0x20 r := by
  have moved : cpu.exec timerRestore = ((cpu.set .rsp (cpu.regs .rax)).exec
      (timerSaved.reverse.map .pop)).exec timerAcknowledge := by
    rw [timerRestore, List.cons_append, Cpu.exec_cons, Cpu.exec_append, Instr.exec]
  have start : Words (cpu.set .rsp (cpu.regs .rax)).memory
      ((cpu.set .rsp (cpu.regs .rax)).regs .rsp) (timerFrame context) := by
    rw [Cpu.set_self, Cpu.set_memory]
    exact words
  have notRsp : Register.rsp ∉ timerSaved.reverse := by decide
  obtain ⟨memory, _, popped, _, left⟩ := Cpu.exec_pops notRsp start
  rw [moved]
  generalize (cpu.set .rsp (cpu.regs .rax)).exec (timerSaved.reverse.map .pop) = poppedCpu
    at memory popped left
  rw [Cpu.set_memory] at memory left
  have ring : poppedCpu.regs .rax = 3 := (popped .rax (by decide)).trans (Function.update_self _ _ _)
  have rspEq : (poppedCpu.set .rax 0x20).regs .rsp = poppedCpu.regs .rsp :=
    Cpu.set_other _ _ (by decide)
  have frame : Words (poppedCpu.set .rax 0x20).memory ((poppedCpu.set .rax 0x20).regs .rsp)
      (interruptFrame context) := by
    rw [rspEq, Cpu.set_memory, memory]
    exact left
  rw [timerAcknowledge_spec _ (by rw [ring]; decide), iretq_spec frame]
  refine ⟨memory, rfl, fun r => ?_⟩
  by_cases isRsp : r = .rsp
  · rw [isRsp, Cpu.set_self, Function.update_of_ne (by decide)]
  · rw [Cpu.set_other _ _ isRsp]
    by_cases isRax : r = .rax
    · rw [isRax, Cpu.set_self, Function.update_self]
    · rw [Cpu.set_other _ _ isRax, Function.update_of_ne isRax]
      have member : r ∈ timerSaved.reverse := by
        revert isRsp isRax
        cases r <;> decide
      rw [popped r member, Function.update_of_ne isRax]

/-- From ring 3 the handler reaches `preempt` with the interrupted context on the stack. -/
theorem saves_of_user {cpu : Cpu} {flow : Flow} {rsp0 : Nat} (user : flow.inUser)
    (room : 160 ≤ (frameTop cpu flow rsp0).toNat) :
    ((deliver cpu flow rsp0).exec timerTest).regs .rax = 3 ∧
      ((((deliver cpu flow rsp0).exec timerTest).exec timerSave).regs .rsp).toNat =
        (frameTop cpu flow rsp0).toNat - 160 ∧
      (((deliver cpu flow rsp0).exec timerTest).exec timerSave).regs .rdi =
        (((deliver cpu flow rsp0).exec timerTest).exec timerSave).regs .rsp ∧
      Words (((deliver cpu flow rsp0).exec timerTest).exec timerSave).memory
        ((((deliver cpu flow rsp0).exec timerTest).exec timerSave).regs .rsp)
        (timerFrame ⟨cpu.regs, flow⟩) ∧
      WritesWithin (⟨(frameTop cpu flow rsp0).toNat - 160, 160⟩ : Span).toSet cpu.memory
        (((deliver cpu flow rsp0).exec timerTest).exec timerSave).memory := by
  have fits := (frameTop cpu flow rsp0).isLt
  have space : 40 ≤ (frameTop cpu flow rsp0).toNat := by omega
  obtain ⟨rsp, kept, words, writes⟩ := deliver_spec space
  have tested := timerTest_spec words
  generalize deliver cpu flow rsp0 = entry at rsp kept words writes tested
  have ring : flow.cs &&& 3 = 3 := user
  rw [ring] at tested
  have rspEq : (entry.set .rax 3).regs .rsp = entry.regs .rsp := Cpu.set_other _ _ (by decide)
  have regs : ∀ r ≠ .rsp, (entry.set .rax 3).regs r = Function.update cpu.regs .rax 3 r := by
    intro r other
    by_cases isRax : r = .rax
    · rw [isRax, Cpu.set_self, Function.update_self]
    · rw [Cpu.set_other _ _ isRax, Function.update_of_ne isRax, kept r other]
  have frame : Words (entry.set .rax 3).memory ((entry.set .rax 3).regs .rsp)
      (interruptFrame ⟨cpu.regs, flow⟩) := by
    rw [rspEq, Cpu.set_memory]
    exact words
  rw [tested]
  obtain ⟨last, rdi, pushed, more⟩ := @timerSave_spec (entry.set .rax 3) ⟨cpu.regs, flow⟩ regs
    frame (by rw [rspEq, rsp]; omega) (by rw [rspEq, rsp]; omega)
  rw [rspEq, rsp] at last more
  refine ⟨Cpu.set_self _ _ _, by omega, rdi, pushed, (writes.mono ?_).trans (more.mono ?_)⟩
  · intro a inside
    simp only [Span.mem_toSet, Span.mem_iff] at inside ⊢
    omega
  · intro a inside
    simp only [Span.mem_toSet, Span.mem_iff] at inside ⊢
    omega

/-- From ring 0 the handler returns with `PIC_EOI` in RAX and the rest as it was. -/
theorem returns_of_kernel {cpu : Cpu} {flow : Flow} {rsp0 : Nat} (kernel : ¬ flow.inUser)
    (room : 40 ≤ (frameTop cpu flow rsp0).toNat) :
    ((deliver cpu flow rsp0).exec timerTest).regs .rax ≠ 3 ∧
      (iretq (((deliver cpu flow rsp0).exec timerTest).exec timerAcknowledge)).2 = flow ∧
      (∀ r, (iretq (((deliver cpu flow rsp0).exec timerTest).exec timerAcknowledge)).1.regs r =
        Function.update cpu.regs .rax 0x20 r) ∧
      WritesWithin (⟨(frameTop cpu flow rsp0).toNat - 40, 40⟩ : Span).toSet cpu.memory
        (iretq (((deliver cpu flow rsp0).exec timerTest).exec timerAcknowledge)).1.memory := by
  obtain ⟨_, kept, words, writes⟩ := deliver_spec room
  have tested := timerTest_spec words
  generalize deliver cpu flow rsp0 = entry at kept words writes tested
  have low : (entry.set .rax (flow.cs &&& 3)).regs .rax &&& ~~~255 = 0 := by
    rw [Cpu.set_self, BitVec.and_assoc]
    exact BitVec.and_zero
  have twice : (entry.set .rax (flow.cs &&& 3)).set .rax 0x20 = entry.set .rax 0x20 := by
    simp only [Cpu.set, Function.update_idem]
  have rspEq : (entry.set .rax 0x20).regs .rsp = entry.regs .rsp := Cpu.set_other _ _ (by decide)
  have frame : Words (entry.set .rax 0x20).memory ((entry.set .rax 0x20).regs .rsp)
      (interruptFrame ⟨cpu.regs, flow⟩) := by
    rw [rspEq, Cpu.set_memory]
    exact words
  rw [tested, timerAcknowledge_spec _ low, twice, iretq_spec frame]
  refine ⟨?_, rfl, fun r => ?_, writes⟩
  · rw [Cpu.set_self]
    exact kernel
  · by_cases isRsp : r = .rsp
    · rw [isRsp, Cpu.set_self, Function.update_of_ne (by decide)]
    · rw [Cpu.set_other _ _ isRsp]
      by_cases isRax : r = .rax
      · rw [isRax, Cpu.set_self, Function.update_self]
      · rw [Cpu.set_other _ _ isRax, Function.update_of_ne isRax, kept r isRsp]

/-! ## The scheduler's part -/

/-- What saving the interrupted thread keeps. -/
theorem saveInterrupted_keeps (s : Scheduler) (interruptRsp : Nat) :
    (s.saveInterrupted interruptRsp).used = s.used ∧
      (s.saveInterrupted interruptRsp).current = s.current ∧
      (s.saveInterrupted interruptRsp).rsp0 = s.rsp0 ∧
      (∀ other, ((s.saveInterrupted interruptRsp).storage other).interruptRsp =
          (s.storage other).interruptRsp ∨
        s.current = some other ∧
          ((s.saveInterrupted interruptRsp).storage other).interruptRsp = interruptRsp) ∧
      ∀ other, (s.saveInterrupted interruptRsp).Queued other →
        s.Queued other ∨ s.current = some other := by
  rcases s.saveInterrupted_spec interruptRsp with
    ⟨same, _⟩ | ⟨slot, ready, current, _, _, saved, queue⟩
  · rw [same]
    exact ⟨rfl, rfl, rfl, fun _ => .inl rfl, fun _ queued => .inl queued⟩
  · refine ⟨by rw [saved]; rfl, by rw [saved]; rfl, by rw [saved]; rfl, ?_, ?_⟩
    · intro other
      rw [saved]
      by_cases same : other = slot
      · refine .inr ⟨by rw [same]; exact current, ?_⟩
        simp only [Scheduler.withReady, Scheduler.modify, same, Function.update_self]
      · left
        simp only [Scheduler.withReady, Scheduler.modify, Function.update_of_ne same]
    · intro other queued
      rcases queue other queued with same | before
      · exact .inr (by rw [same]; exact current)
      · exact .inl before

/-- What `preempt` keeps, and where it returns. -/
theorem preempt_keeps {s after : Scheduler} {interruptRsp resumed : Nat}
    (returned : s.preempt interruptRsp = .ok (resumed, after)) :
    after.used = s.used ∧
      (∀ other, (after.storage other).stackBase = (s.storage other).stackBase) ∧
      (∀ other, (after.storage other).interruptRsp = (s.storage other).interruptRsp ∨
        s.current = some other ∧ (after.storage other).interruptRsp = interruptRsp) ∧
      (∀ other, after.Queued other → s.Queued other ∨ s.current = some other) ∧
      (s.selects (.preempt interruptRsp) = none ∧ resumed = interruptRsp ∧
          after.current = s.current ∧ after.rsp0 = s.rsp0 ∨
        ∃ next, s.selects (.preempt interruptRsp) = some next ∧
          (s.Queued next ∨ s.current = some next) ∧ (after.storage next).interruptRsp ≠ 0 ∧
          resumed = (after.storage next).interruptRsp ∧ after.current = some next ∧
          after.rsp0 = (after.storage next).stackBase + stackSize) := by
  obtain ⟨saved, ready, savedEq, shrinks, cases⟩ := Scheduler.preempt_spec returned
  obtain ⟨used, current, rsp0, frames, queue⟩ := saveInterrupted_keeps s interruptRsp
  have bases := (s.saveInterrupted_home interruptRsp).1
  have nonzero : ∀ next, s.selects (.preempt interruptRsp) = some next →
      (saved.storage next).interruptRsp ≠ 0 := by
    intro next selected
    rw [Scheduler.selects, ← savedEq, Option.filter_eq_some_iff] at selected
    exact (of_decide_eq_true selected.2).2
  rw [← savedEq] at used current rsp0 frames queue bases
  have stackBase (other : Nat) : (saved.storage other).stackBase = (s.storage other).stackBase :=
    congrArg Prod.fst (congrFun bases other)
  rcases cases with ⟨nobody, same, rfl⟩ | ⟨next, selected, _, queued, same, rfl⟩
  · refine ⟨used, stackBase, frames, fun other back => queue other (shrinks other back), ?_⟩
    exact .inl ⟨nobody, same, current, rsp0⟩
  · have storage (other : Nat) : (Function.update saved.storage next
        { saved.storage next with state := .running } other).stackBase =
          (saved.storage other).stackBase ∧
        (Function.update saved.storage next
          { saved.storage next with state := .running } other).interruptRsp =
          (saved.storage other).interruptRsp := by
      by_cases isNext : other = next
      · rw [isNext, Function.update_self]
        exact ⟨rfl, rfl⟩
      · rw [Function.update_of_ne isNext]
        exact ⟨rfl, rfl⟩
    refine ⟨used, fun other => (storage other).1.trans (stackBase other), fun other => ?_,
      fun other back => queue other (shrinks other back), .inr ⟨next, selected, queue next queued,
        ?_, same.trans (storage next).2.symm, rfl, ?_⟩⟩
    · rcases frames other with kept | ⟨isCurrent, written⟩
      · exact .inl ((storage other).2.trans kept)
      · exact .inr ⟨isCurrent, (storage other).2.trans written⟩
    · intro zero
      exact nonzero next selected ((storage next).2.symm.trans zero)
    · exact congrArg (· + stackSize) (storage next).1.symm

/-! ## Runs -/

namespace Preemptible

variable {p before after : Preemptible}

/-- Waiting threads have their frames, and the latest return restored all registers but RAX. -/
structure Sound (p : Preemptible) : Prop extends Intact p where
  /-- The latest return left `PIC_EOI` in RAX and restored the rest. -/
  agrees : ∀ r, p.returned = some r → p.flow = r.expected.flow ∧
    ∀ register, p.cpu.regs register = Function.update r.expected.regs .rax 0x20 register

/-- Before the first return. -/
theorem sound_of_intact (intact : p.Intact) (none : p.returned = none) : p.Sound where
  toIntact := intact
  agrees r returned := by
    rw [none] at returned
    cases returned

/-- A frame survives writes off its stack, or below it. -/
theorem frame_congr {s : Scheduler} {slot : Nat} {context : Interrupted} {region : Set Nat}
    {memory later : PhysMem} (fits : (s.storage slot).stackBase + stackSize < wordSize)
    (words : Words memory (BitVec.ofNat 64 (framePointer s slot)) (timerFrame context))
    (writes : WritesWithin region memory later)
    (off : ∀ a ∈ interruptStack s slot, framePointer s slot ≤ a → a ∉ region) :
    Words later (BitVec.ofNat 64 (framePointer s slot)) (timerFrame context) := by
  have count : (timerFrame context).length = 20 := rfl
  have pointer : (BitVec.ofNat 64 (framePointer s slot)).toNat = framePointer s slot := by
    rw [BitVec.toNat_ofNat, Nat.mod_eq_of_lt]
    unfold framePointer stackSize wordSize at *
    omega
  refine words.congr writes ?_ fun a inside => off a ?_ ?_
  · rw [count, pointer]
    unfold framePointer stackSize wordSize at *
    omega
  · simp only [wordSpan, count, pointer, Span.mem_iff, interruptStack] at inside ⊢
    unfold framePointer stackSize at *
    omega
  · simp only [wordSpan, count, pointer, Span.mem_iff] at inside
    exact inside.1

/-- Frames of threads that do not run survive what the running thread writes. -/
theorem frames_of_own (sound : p.Sound) {later : PhysMem}
    (writes : WritesWithin (ownBytes p.scheduler) p.cpu.memory later) {slot : Nat}
    (used : p.scheduler.used slot = true) (waits : p.scheduler.current ≠ some slot)
    (saved : (p.scheduler.storage slot).interruptRsp ≠ 0) :
    Words later (BitVec.ofNat 64 (framePointer p.scheduler slot))
      (timerFrame (p.interrupted slot)) := by
  refine frame_congr (sound.stackFits slot used).2 (sound.frames slot used waits saved) writes ?_
  intro a inside _ own
  exact own slot used waits inside

/-- What a step preserves that leaves the scheduler and the interrupted threads as they are and writes
only what the running thread owns. -/
theorem sound_of_kept (sound : before.Sound) (scheduler : after.scheduler = before.scheduler)
    (interrupted : after.interrupted = before.interrupted)
    (writes : WritesWithin (ownBytes before.scheduler) before.cpu.memory after.cpu.memory)
    (ring : after.flow.inUser → before.scheduler.current ≠ none)
    (agrees : ∀ r, after.returned = some r → after.flow = r.expected.flow ∧
      ∀ register, after.cpu.regs register = Function.update r.expected.regs .rax 0x20 register) :
    after.Sound := by
  refine ⟨⟨?_, ?_, ?_, ?_, ?_, ?_, ?_⟩, agrees⟩
  · rw [scheduler]
    exact sound.queued
  · rw [scheduler]
    exact sound.running
  · rw [scheduler]
    exact ring
  · rw [scheduler]
    exact sound.stackFits
  · rw [scheduler]
    exact sound.apart
  · rw [scheduler]
    exact sound.located
  · unfold FrameOf
    rw [scheduler, interrupted]
    exact fun slot => frames_of_own sound writes

/-- Execution between interrupts. -/
theorem sound_run (sound : before.Sound) (step : before.Step .run after) : after.Sound := by
  obtain ⟨writes, user, same⟩ := step
  have scheduler : after.scheduler = before.scheduler := by rw [same]
  have interrupted : after.interrupted = before.interrupted := by rw [same]
  have returned : after.returned = none := by rw [same]
  refine sound_of_kept sound scheduler interrupted writes user fun r isReturned => ?_
  rw [returned] at isReturned
  cases isReturned

/-- What entering a thread changes. -/
theorem enterUserMode_keeps {s entered : Scheduler} {slot : Nat} (inside : slot < maxThreads)
    (step : s.Step (.enterUserMode slot) entered) :
    s.used slot = true ∧ entered.used = s.used ∧ entered.ready = s.ready ∧
      entered.current = some slot ∧
      entered.rsp0 = (entered.storage slot).stackBase + stackSize ∧
      ∀ other, (entered.storage other).stackBase = (s.storage other).stackBase ∧
        (entered.storage other).interruptRsp = (s.storage other).interruptRsp := by
  obtain ⟨⟨transfer, returned⟩, created⟩ := step
  simp only [Scheduler.apply, Scheduler.enterUserMode, inside, ↓reduceIte, bind_eq_ok, pure_eq_ok,
    Prod.mk.injEq] at returned
  obtain ⟨kstackTop, top, _, rfl⟩ := returned
  obtain ⟨_, rfl⟩ := add64_eq_ok.mp top
  refine ⟨created slot rfl inside, rfl, rfl, rfl, ?_, fun other => ?_⟩
  · simp only [Scheduler.modify, Function.update_self]
  · by_cases same : other = slot
    · simp only [Scheduler.modify, same, Function.update_self, and_self]
    · simp only [Scheduler.modify, Function.update_of_ne same, and_self]

/-- Entering a thread. -/
theorem sound_enter {slot : Nat} (sound : before.Sound) (step : before.Step (.enter slot) after) :
    after.Sound := by
  obtain ⟨inside, entering, caller, same⟩ := step
  obtain ⟨isUsed, used, ready, current, rsp0, storage⟩ := enterUserMode_keeps inside entering
  have cpu : after.cpu = before.cpu := by rw [same]
  have interrupted : after.interrupted = before.interrupted := by rw [same]
  have returned : after.returned = none := by rw [same]
  have pointer (other : Nat) :
      framePointer after.scheduler other = framePointer before.scheduler other := by
    unfold framePointer
    rw [(storage other).1]
  have span (other : Nat) :
      interruptStack after.scheduler other = interruptStack before.scheduler other := by
    simp only [interruptStack, (storage other).1]
  refine ⟨⟨fun other queued => ?_, fun other isCurrent => ?_, fun _ => by rw [current]; simp,
    fun other => ?_, fun left right => ?_, fun other => ?_, fun other isUsed waits saved => ?_⟩,
    fun r isReturned => ?_⟩
  · rw [used]
    refine sound.queued other ?_
    obtain ⟨i, bound, cell⟩ := queued
    rw [ready] at cell
    exact ⟨i, bound, cell⟩
  · rw [current, Option.some.injEq] at isCurrent
    rw [← isCurrent, used]
    exact ⟨isUsed, rsp0⟩
  · rw [used, (storage other).1]
    exact sound.stackFits other
  · rw [used, span, span]
    exact sound.apart left right
  · rw [used, (storage other).2, pointer]
    exact sound.located other
  · rw [used] at isUsed
    rw [(storage other).2] at saved
    unfold FrameOf
    rw [cpu, interrupted, pointer]
    by_cases running : before.scheduler.current = some other
    · refine caller other running ?_ saved
      rintro rfl
      exact waits current
    · exact sound.frames other isUsed running saved
  · rw [returned] at isReturned
    cases isReturned

/-- The frame of an interrupt from ring 3 starts at the top of the running thread's stack. -/
theorem frameTop_user (sound : p.Sound) (user : p.flow.inUser) {slot : Nat}
    (current : p.scheduler.current = some slot) :
    (frameTop p.cpu p.flow p.scheduler.rsp0).toNat =
      (p.scheduler.storage slot).stackBase + stackSize := by
  obtain ⟨used, rsp0⟩ := sound.running slot current
  obtain ⟨aligned, fits⟩ := sound.stackFits slot used
  have rspFits : p.scheduler.rsp0 < 2 ^ 64 := by
    rw [rsp0]
    exact fits
  have whole : p.scheduler.rsp0 / 16 * 16 = p.scheduler.rsp0 := by
    rw [rsp0]
    unfold stackSize
    omega
  simp only [frameTop, user, ↓reduceIte]
  rw [BitVec.toNat_ofNat, BitVec.toNat_ofNat, Nat.mod_eq_of_lt rspFits, whole,
    Nat.mod_eq_of_lt rspFits, rsp0]

/-- A timer interrupt in ring 0. -/
theorem sound_timer_kernel (sound : before.Sound) (kernel : ¬ before.flow.inUser)
    (step : before.Step .timer after) : after.Sound := by
  obtain ⟨space, timer⟩ := step
  obtain ⟨room, own⟩ := space kernel
  have topEq : frameTop before.cpu before.flow before.scheduler.rsp0 =
      frameTop before.cpu before.flow 0 := by
    simp only [frameTop, kernel, ↓reduceIte]
  have large : 40 ≤ (frameTop before.cpu before.flow before.scheduler.rsp0).toNat := by
    have bound := (before.cpu.regs .rsp).isLt
    have rounded : (before.cpu.regs .rsp).toNat / 16 * 16 < 2 ^ 64 := by omega
    simp only [frameTop, kernel, ↓reduceIte]
    rw [BitVec.toNat_ofNat, Nat.mod_eq_of_lt rounded]
    omega
  obtain ⟨notThree, flow, regs, writes⟩ := returns_of_kernel kernel large
  simp only [Timer, notThree, ↓reduceIte] at timer
  obtain ⟨result, scheduler, interrupted, returned⟩ := timer
  rw [topEq] at writes
  rw [← result] at flow regs writes
  refine sound_of_kept sound scheduler interrupted (writes.mono own) (fun user => ?_)
    fun r isReturned => ?_
  · rw [show after.flow = before.flow from flow] at user
    exact absurd user kernel
  · rw [returned, Option.some.injEq] at isReturned
    rw [← isReturned]
    exact ⟨flow, regs⟩

/-- Every thread with a frame has it on its stack when `preempt` is called, the interrupted one
too, and none is lost when it returns. -/
theorem frames_of_call (sound : before.Sound) {slot : Nat} {called memory : PhysMem}
    (current : before.scheduler.current = some slot)
    (saves : WritesWithin (⟨framePointer before.scheduler slot, 160⟩ : Span).toSet
      before.cpu.memory memory)
    (frame : Words memory (BitVec.ofNat 64 (framePointer before.scheduler slot))
      (timerFrame ⟨before.cpu.regs, before.flow⟩))
    (writes : WritesWithin (calleeBytes before.scheduler (framePointer before.scheduler slot))
      memory called) {other : Nat} (used : before.scheduler.used other = true)
    (saved : other = slot ∨ (before.scheduler.storage other).interruptRsp ≠ 0) :
    Words called (BitVec.ofNat 64 (framePointer before.scheduler other))
      (timerFrame (before.interrupts other)) := by
  have fits := (sound.stackFits other used).2
  have unwritten : ∀ a ∈ interruptStack before.scheduler other,
      framePointer before.scheduler other ≤ a →
      a ∉ calleeBytes before.scheduler (framePointer before.scheduler slot) := by
    intro a inside above written
    by_cases running : before.scheduler.current = some other
    · have below := written.2 other running inside
      rw [current, Option.some.injEq] at running
      rw [running] at below
      omega
    · exact written.1 other used running inside
  refine frame_congr fits ?_ writes unwritten
  by_cases same : other = slot
  · have itself : before.interrupts slot = ⟨before.cpu.regs, before.flow⟩ := by
      simp only [interrupts, current, Function.update_self]
    rw [same, itself]
    exact frame
  · have waits : before.scheduler.current ≠ some other := by
      rw [current, ne_eq, Option.some.injEq]
      exact Ne.symm same
    have unchanged : before.interrupts other = before.interrupted other := by
      simp only [interrupts, current, Function.update_of_ne same]
    rw [unchanged]
    refine frame_congr fits (sound.frames other used waits (saved.resolve_left same)) saves ?_
    intro a inside _ written
    have usedSlot := (sound.running slot current).1
    refine Span.separate_iff.mp (sound.apart other slot same used usedSlot) a inside ?_
    simp only [Span.mem_toSet, Span.mem_iff, interruptStack] at written ⊢
    unfold framePointer stackSize at *
    omega

/-- The slots that `preempt` can select hold threads. -/
theorem Sound.used_of_mentioned (sound : before.Sound) {slot : Nat}
    (mentioned : before.scheduler.Queued slot ∨ before.scheduler.current = some slot) :
    before.scheduler.used slot = true := by
  rcases mentioned with queued | running
  · exact sound.queued slot queued
  · exact (sound.running slot running).1

/-- The frame pointers after `preempt` are those of the stacks; the interrupted thread has one
and the others had theirs. -/
theorem Sound.located_of_preempt (sound : before.Sound) {slot resumed : Nat} {scheduler : Scheduler}
    (current : before.scheduler.current = some slot)
    (preempted : before.scheduler.preempt (framePointer before.scheduler slot) =
      .ok (resumed, scheduler)) {other : Nat} (used : before.scheduler.used other = true)
    (saved : (scheduler.storage other).interruptRsp ≠ 0) :
    (scheduler.storage other).interruptRsp = framePointer before.scheduler other ∧
      (other = slot ∨ (before.scheduler.storage other).interruptRsp ≠ 0) := by
  obtain ⟨_, _, frames, _, _⟩ := preempt_keeps preempted
  rcases frames other with same | ⟨running, written⟩
  · rw [same] at saved ⊢
    exact ⟨sound.located other used saved, .inr saved⟩
  · rw [current, Option.some.injEq] at running
    rw [← running] at written ⊢
    exact ⟨written, .inl rfl⟩

/-- `preempt` returns a pointer to the frame of the context to resume. -/
theorem Sound.resumed_frame (sound : before.Sound) {slot resumed : Nat} {scheduler : Scheduler}
    {memory : PhysMem} (current : before.scheduler.current = some slot)
    (preempted : before.scheduler.preempt (framePointer before.scheduler slot) =
      .ok (resumed, scheduler))
    (kept : ∀ other, before.scheduler.used other = true →
      other = slot ∨ (before.scheduler.storage other).interruptRsp ≠ 0 →
        Words memory (BitVec.ofNat 64 (framePointer before.scheduler other))
          (timerFrame (before.interrupts other))) :
    Words memory (BitVec.ofNat 64 resumed)
      (timerFrame (before.resumes (framePointer before.scheduler slot))) := by
  obtain ⟨_, _, _, _, cases⟩ := preempt_keeps preempted
  rw [resumes]
  rcases cases with ⟨nobody, same, _⟩ | ⟨next, selected, mentioned, nonzero, same, _⟩
  · have itself : before.interrupts slot = ⟨before.cpu.regs, before.flow⟩ := by
      simp only [interrupts, current, Function.update_self]
    rw [nobody, same, ← itself]
    exact kept slot (sound.running slot current).1 (.inl rfl)
  · have isUsed := sound.used_of_mentioned mentioned
    obtain ⟨atPointer, saved⟩ := sound.located_of_preempt current preempted isUsed nonzero
    rw [selected, same, atPointer]
    exact kept next isUsed saved

/-- A timer interrupt in ring 3. -/
theorem sound_timer_user (sound : before.Sound) (user : before.flow.inUser)
    (step : before.Step .timer after) : after.Sound := by
  obtain ⟨_, timer⟩ := step
  obtain ⟨slot, current⟩ := Option.ne_none_iff_exists'.mp (sound.ring user)
  have top := frameTop_user sound user current
  have large : 160 ≤ (frameTop before.cpu before.flow before.scheduler.rsp0).toNat := by
    rw [top]
    unfold stackSize
    omega
  obtain ⟨isThree, rsp, rdi, frame, saves⟩ := saves_of_user user large
  simp only [Timer, isThree, ↓reduceIte] at timer
  obtain ⟨resumed, called, preempted, rax, writes, result, interrupted, returned⟩ := timer
  have lowest : (frameTop before.cpu before.flow before.scheduler.rsp0).toNat - 160 =
      framePointer before.scheduler slot := congrArg (· - 160) top
  rw [lowest] at rsp saves
  rw [rdi] at preempted returned
  have pointerEq : (((deliver before.cpu before.flow before.scheduler.rsp0).exec timerTest).exec
      timerSave).regs .rsp = BitVec.ofNat 64 (framePointer before.scheduler slot) := by
    rw [← rsp, BitVec.ofNat_toNat, BitVec.setWidth_eq]
  rw [pointerEq] at frame
  rw [rsp] at preempted writes returned
  have kept (other : Nat) := @frames_of_call before sound slot called.memory _ current saves frame
    writes other
  have restored : Words called.memory (called.regs .rax)
      (timerFrame (before.resumes (framePointer before.scheduler slot))) := by
    rw [rax]
    exact sound.resumed_frame current preempted kept
  obtain ⟨memory, flow, regs⟩ := timerRestore_spec restored
  rw [← result] at memory flow regs
  have located {other : Nat} := @Sound.located_of_preempt before sound slot resumed after.scheduler
    current preempted other
  obtain ⟨used, bases, _, queue, cases⟩ := preempt_keeps preempted
  have pointer (other : Nat) :
      framePointer after.scheduler other = framePointer before.scheduler other := by
    unfold framePointer
    rw [bases other]
  have span (other : Nat) :
      interruptStack after.scheduler other = interruptStack before.scheduler other := by
    simp only [interruptStack, bases other]
  refine ⟨⟨fun other queued => ?_, fun other isCurrent => ?_, fun _ => ?_, fun other => ?_,
    fun left right => ?_, fun other otherUsed saved => ?_, fun other otherUsed waits saved => ?_⟩,
    fun r isReturned => ?_⟩
  · rw [used]
    exact sound.used_of_mentioned (queue other queued)
  · rw [used]
    rcases cases with ⟨_, _, unchanged, rsp0⟩ | ⟨next, _, mentioned, _, _, selected, rsp0⟩
    · rw [unchanged] at isCurrent
      rw [rsp0, bases other]
      exact sound.running other isCurrent
    · rw [selected, Option.some.injEq] at isCurrent
      rw [← isCurrent]
      exact ⟨sound.used_of_mentioned mentioned, rsp0⟩
  · rcases cases with ⟨_, _, unchanged, _⟩ | ⟨next, _, _, _, _, selected, _⟩
    · rw [unchanged, current]
      simp
    · rw [selected]
      simp
  · rw [used, bases other]
    exact sound.stackFits other
  · rw [used, span, span]
    exact sound.apart left right
  · rw [used] at otherUsed
    rw [pointer]
    exact (located otherUsed saved).1
  · rw [used] at otherUsed
    rw [FrameOf, pointer, interrupted, show after.cpu.memory = called.memory from memory]
    exact kept other otherUsed (located otherUsed saved).2
  · rw [returned, Option.some.injEq] at isReturned
    rw [← isReturned]
    exact ⟨flow, regs⟩

/-- One step. -/
theorem sound_step {op : TimerOp} (sound : before.Sound) (step : before.Step op after) :
    after.Sound := by
  cases op with
  | enter => exact sound_enter sound step
  | run => exact sound_run sound step
  | timer =>
    by_cases user : before.flow.inUser
    · exact sound_timer_user sound user step
    · exact sound_timer_kernel sound user step

/-- A return restored RAX when RAX had been `PIC_EOI`. -/
theorem transparent_iff (sound : p.Sound) :
    p.Transparent ↔ ∀ r, p.returned = some r → r.expected.regs .rax = 0x20 := by
  constructor
  · intro transparent r returned
    rw [← transparent r returned .rax (.inl (by decide)), (sound.agrees r returned).2 .rax,
      Function.update_self]
  · intro acknowledged r returned register _
    rw [(sound.agrees r returned).2 register]
    by_cases isRax : register = .rax
    · rw [isRax, Function.update_self, acknowledged r returned]
    · exact Function.update_of_ne isRax _ _

/-- In every run from a state whose waiting threads have their frames, a return from the handler is
transparent exactly when RAX held `PIC_EOI` at the interrupt it returns from; whatever the threads,
the order of interrupts and the selections. -/
theorem timer_transparent_iff {first last : Preemptible} {ops : List TimerOp}
    (intact : first.Intact) (none : first.returned = none) (run : Run Step first ops last) :
    last.Transparent ↔ ∀ r, last.returned = some r → r.expected.regs .rax = 0x20 :=
  transparent_iff (run.invariant Sound (fun _ _ _ => sound_step) (sound_of_intact intact none))

/-! ## One interrupt -/

/-- `preempt` returns when stacks end inside the address space. -/
theorem preempt_returns {s : Scheduler} (interruptRsp : Nat)
    (fits : ∀ slot, (s.storage slot).stackBase + stackSize < wordSize) :
    ∃ resumed after, s.preempt interruptRsp = .ok (resumed, after) := by
  have bases := (s.saveInterrupted_home interruptRsp).1
  unfold Scheduler.preempt
  generalize s.saveInterrupted interruptRsp = saved at bases
  obtain ⟨ready, popped, _⟩ := saved.dequeueThread_takes
  unfold Scheduler.resumeInterrupted
  cases taking : saved.dequeueThread with
  | mk next rest =>
    rw [taking] at popped
    cases next with
    | none => exact ⟨_, _, rfl⟩
    | some next =>
      dsimp only at popped ⊢
      have base : (rest.storage next).stackBase = (s.storage next).stackBase := by
        rw [popped]
        exact congrArg Prod.fst (congrFun bases next)
      have top := add64_eq_ok.mpr ⟨fits next, rfl⟩
      rw [← base] at top
      split
      · split
        · exact ⟨_, _, rfl⟩
        · rw [top]
          exact ⟨_, _, rfl⟩
      · exact ⟨_, _, rfl⟩

/-- A running thread can be interrupted in ring 3. -/
theorem timer_possible (sound : p.Sound) (user : p.flow.inUser) {slot : Nat}
    (current : p.scheduler.current = some slot)
    (fits : ∀ slot, (p.scheduler.storage slot).stackBase + stackSize < wordSize) :
    ∃ after resumed, p.Step .timer after ∧
      p.scheduler.preempt (framePointer p.scheduler slot) = .ok (resumed, after.scheduler) ∧
      after.interrupted = p.interrupts ∧
      after.returned = some ⟨.user, p.resumes (framePointer p.scheduler slot)⟩ := by
  have top := frameTop_user sound user current
  have large : 160 ≤ (frameTop p.cpu p.flow p.scheduler.rsp0).toNat := by
    rw [top]
    unfold stackSize
    omega
  obtain ⟨isThree, rsp, rdi, _, _⟩ := saves_of_user user large
  generalize savedEq : ((deliver p.cpu p.flow p.scheduler.rsp0).exec timerTest).exec timerSave =
    saved at rsp rdi
  have pointer : (saved.regs .rdi).toNat = framePointer p.scheduler slot := by
    rw [rdi, rsp, top]
    rfl
  obtain ⟨resumed, scheduler, preempted⟩ := preempt_returns (saved.regs .rdi).toNat fits
  have timer (after : Preemptible)
      (result : (after.cpu, after.flow) = iretq (Cpu.exec ⟨fun _ => BitVec.ofNat 64 resumed,
        saved.memory⟩ timerRestore))
      (switched : after.scheduler = scheduler) (interrupted : after.interrupted = p.interrupts)
      (returned : after.returned = some ⟨.user, p.resumes (saved.regs .rdi).toNat⟩) :
      p.Timer after := by
    simp only [Timer, isThree, ↓reduceIte, savedEq]
    refine ⟨resumed, ⟨fun _ => BitVec.ofNat 64 resumed, saved.memory⟩, ?_, rfl, .refl _ _, result,
      interrupted, returned⟩
    rw [switched]
    exact preempted
  rw [pointer] at preempted timer
  exact ⟨⟨_, _, scheduler, p.interrupts, some ⟨.user, p.resumes (framePointer p.scheduler slot)⟩⟩,
    resumed, ⟨fun kernel => absurd user kernel, timer _ rfl rfl rfl rfl⟩, preempted, rfl, rfl⟩

/-- Threads run at one place in ring 3. -/
def userFlow : Flow := ⟨0x140001000, 0x23, 0x202, 0x1B⟩

/-- Two threads: 0 runs and has not been interrupted, 1 waits with its frame. -/
def twoThreads : Scheduler :=
  let storage slot :=
    { Thread.new (slot + 1) 1 0x140001000 with
      stackBase := if slot = 1 then 0x110000 else 0x100000
      state := if slot = 1 then .ready else .running
      interruptRsp := if slot = 1 then 0x11FF60 else 0 }
  { Scheduler.boot storage ⟨0, 0, 0⟩ ⟨0, 0, 0, 0⟩ ⟨fun _ => 0, []⟩ with
    used := fun slot => slot < 2
    ready := fun i => if i = 0 then some 1 else none
    current := some 0
    rsp0 := 0x110000 }

/-- A thread with its number in RBX and `PIC_EOI` elsewhere. -/
def numbered (slot : Nat) : Interrupted :=
  ⟨Function.update (fun _ => 0x20) .rbx (BitVec.ofNat 64 slot), userFlow⟩

/-- Thread 0 is about to be interrupted. -/
def twoRunning : Preemptible where
  cpu := ⟨(numbered 0).regs, (pushAll ⟨fun _ => 0, []⟩ 0x120000 (timerFrame (numbered 1)).reverse).2⟩
  flow := userFlow
  scheduler := twoThreads
  interrupted := numbered
  returned := none

/-- Where the two stacks start. -/
theorem twoThreads_stackBase (slot : Nat) :
    (twoThreads.storage slot).stackBase = if slot = 1 then 0x110000 else 0x100000 := rfl

/-- The stacks end inside the address space. -/
theorem twoThreads_fits (slot : Nat) :
    (twoThreads.storage slot).stackBase + stackSize < wordSize := by
  rw [twoThreads_stackBase]
  split <;> decide

/-- Thread 1 has its frame. -/
theorem twoRunning_intact : twoRunning.Intact where
  queued := by
    rintro slot ⟨i, _, cell⟩
    simp only [twoRunning, twoThreads] at cell ⊢
    split at cell
    · rw [← Option.some.inj cell]
      rfl
    · cases cell
  running slot current := by
    rw [← Option.some.inj current]
    decide
  ring _ := by simp [twoRunning, twoThreads]
  stackFits slot _ := by
    refine ⟨?_, twoThreads_fits slot⟩
    simp only [twoRunning, twoThreads_stackBase]
    split <;> decide
  apart left right differ first second := by
    have leftUsed : left < 2 := of_decide_eq_true first
    have rightUsed : right < 2 := of_decide_eq_true second
    rw [Span.separate_iff]
    intro a inLeft inRight
    simp only [interruptStack, Span.mem_iff, twoRunning, twoThreads_stackBase, stackSize]
      at inLeft inRight
    split at inLeft <;> split at inRight <;> omega
  located slot _ saved := by
    by_cases isOne : slot = 1
    · rw [isOne]
      decide
    · exact absurd (if_neg isOne) saved
  frames slot _ _ saved := by
    by_cases isOne : slot = 1
    · have nothing : Words ⟨fun _ => 0, []⟩ 0x120000 [] := trivial
      have count : (timerFrame (numbered 1)).reverse.length = 20 := rfl
      obtain ⟨pointer, words, _⟩ := pushAll_spec (timerFrame (numbered 1)).reverse nothing
        (by rw [count]; decide) (by decide)
      rw [List.reverse_reverse, List.append_nil] at words
      have lowest : (pushAll ⟨fun _ => 0, []⟩ 0x120000 (timerFrame (numbered 1)).reverse).1 =
          BitVec.ofNat 64 (framePointer twoThreads 1) := by
        rw [← BitVec.toNat_inj, pointer, count]
        decide
      rw [lowest] at words
      rw [isOne]
      exact words
    · exact absurd (if_neg isOne) saved

/-- Both threads are interrupted in turn, and each resumes the other with all its registers. -/
theorem timer_transparent_iff_switches : ∃ between last, twoRunning.Intact ∧
    Run Step twoRunning [.timer] between ∧ between.scheduler.current = some 1 ∧
    between.Transparent ∧ Run Step twoRunning [.timer, .timer] last ∧
    last.scheduler.current = some 0 ∧ last.Transparent := by
  have start := sound_of_intact twoRunning_intact rfl
  obtain ⟨between, _, first, switched, known, toOne⟩ := timer_possible start rfl rfl twoThreads_fits
  have selectsOne : twoThreads.selects (.preempt (framePointer twoThreads 0)) = some 1 := by
    decide +kernel
  have resumesOne : twoRunning.resumes (framePointer twoThreads 0) = numbered 1 := by
    simp only [resumes, twoRunning, selectsOne]
    rfl
  have selectsZero : ((twoThreads.preempt (framePointer twoThreads 0)).toOption.bind
      fun result => result.2.selects (.preempt (framePointer result.2 1))) = some 0 := by
    decide +kernel
  obtain ⟨_, bases, _, _, ⟨nobody, _⟩ | ⟨next, selected, _, _, _, isOne, _⟩⟩ :=
    preempt_keeps switched
  · cases nobody.symm.trans selectsOne
  obtain rfl : next = 1 := Option.some.inj (selected.symm.trans selectsOne)
  rw [show twoRunning.scheduler = twoThreads from rfl] at switched toOne
  rw [resumesOne] at toOne
  rw [switched] at selectsZero
  have sound := sound_step start first
  have inUser : between.flow.inUser := by
    rw [(sound.agrees _ toOne).1]
    rfl
  obtain ⟨last, _, second, back, _, toZero⟩ := timer_possible sound inUser isOne fun slot => by
    rw [bases]
    exact twoThreads_fits slot
  have zeroSelected : between.scheduler.selects
      (.preempt (framePointer between.scheduler 1)) = some 0 := selectsZero
  have resumesZero : between.resumes (framePointer between.scheduler 1) = numbered 0 := by
    simp only [resumes, zeroSelected, interrupts, isOne, known]
    rfl
  rw [resumesZero] at toZero
  obtain ⟨_, _, _, _, ⟨nobody, _⟩ | ⟨next, selected, _, _, _, isZero, _⟩⟩ := preempt_keeps back
  · cases nobody.symm.trans zeroSelected
  obtain rfl : next = 0 := Option.some.inj (selected.symm.trans zeroSelected)
  refine ⟨between, last, twoRunning_intact, .cons first (.nil _), isOne, ?_,
    .cons first (.cons second (.nil _)), isZero, ?_⟩
  · refine (timer_transparent_iff twoRunning_intact rfl (.cons first (.nil _))).mpr
      fun r returned => ?_
    rw [← Option.some.inj (toOne.symm.trans returned)]
    rfl
  · refine (timer_transparent_iff twoRunning_intact rfl (.cons first (.cons second (.nil _)))).mpr
      fun r returned => ?_
    rw [← Option.some.inj (toZero.symm.trans returned)]
    rfl

/-- One thread, created and queued. -/
def oneThread : Scheduler :=
  { Scheduler.boot (fun _ => { Thread.new 1 1 0x140001000 with stackBase := 0x100000 }) ⟨0, 0, 0⟩
      ⟨0, 0, 0, 0⟩ ⟨fun _ => 0, []⟩ with
    used := fun slot => slot = 0
    ready := fun i => if i = 0 then some 0 else none }

/-- The kernel before it enters the thread. -/
def kernelStart : Preemptible where
  cpu := ⟨fun _ => 0, ⟨fun _ => 0, []⟩⟩
  flow := ⟨0x200000, 0x08, 0x202, 0x10⟩
  scheduler := oneThread
  interrupted := fun _ => ⟨fun _ => 0, ⟨0, 0, 0, 0⟩⟩
  returned := none

/-- No thread has run, so none has a frame. -/
theorem kernelStart_intact : kernelStart.Intact where
  queued := by
    rintro slot ⟨i, _, cell⟩
    simp only [kernelStart, oneThread] at cell ⊢
    split at cell
    · simpa using cell.symm
    · cases cell
  running _ current := by cases current
  ring user := absurd user (by decide)
  stackFits _ _ := by
    show 0x100000 % 16 = 0 ∧ 0x100000 + stackSize < wordSize
    decide
  apart left right differ first second := by
    have leftZero : left = 0 := of_decide_eq_true first
    have rightZero : right = 0 := of_decide_eq_true second
    exact absurd (leftZero.trans rightZero.symm) differ
  located _ _ saved := absurd rfl saved
  frames _ _ _ saved := absurd rfl saved

/-- The thread runs with any registers and is interrupted; the handler returns to it. -/
theorem kernelStart_interrupted (regs : Register → BitVec 64) : ∃ last,
    Run Step kernelStart [.enter 0, .run, .timer] last ∧
      last.returned = some ⟨.user, ⟨regs, ⟨0x140001000, 0x23, 0x202, 0x1B⟩⟩⟩ := by
  obtain ⟨entered, returned, _⟩ := Traced.enterUserMode_returns oneThread 0 (by decide) (by decide)
  have entering : oneThread.Step (.enterUserMode 0) entered :=
    ⟨⟨_, returned⟩, fun slot enters _ => by rw [← Option.some.inj enters]; rfl⟩
  have first : kernelStart.Step (.enter 0)
      { kernelStart with scheduler := entered, returned := none } :=
    ⟨by decide, entering, fun _ isCurrent => absurd isCurrent (by simp [kernelStart,
      oneThread, Scheduler.boot]), rfl⟩
  obtain ⟨_, used, _, current, _, storage⟩ := enterUserMode_keeps (by decide) entering
  have second : Step { kernelStart with scheduler := entered, returned := none } .run
      { kernelStart with
        scheduler := entered, returned := none, cpu := ⟨regs, kernelStart.cpu.memory⟩
        flow := ⟨0x140001000, 0x23, 0x202, 0x1B⟩ } :=
    ⟨.refl _ _, fun _ => by rw [current]; simp, rfl⟩
  have sound := sound_step (sound_step (sound_of_intact kernelStart_intact rfl) first) second
  generalize running : ({ kernelStart with
    scheduler := entered, returned := none, cpu := ⟨regs, kernelStart.cpu.memory⟩
    flow := ⟨0x140001000, 0x23, 0x202, 0x1B⟩ } : Preemptible) = user at second sound
  have scheduler : user.scheduler = entered := by rw [← running]
  have flow : user.flow = ⟨0x140001000, 0x23, 0x202, 0x1B⟩ := by rw [← running]
  have userRegs : user.cpu.regs = regs := by rw [← running]
  have inUser : user.flow.inUser := by
    rw [flow]
    decide
  obtain ⟨last, _, third, preempted, _, resumedTo⟩ := timer_possible sound inUser
    (by rw [scheduler]; exact current) fun slot => by
      rw [scheduler, (storage slot).1]
      show 0x100000 + stackSize < wordSize
      decide
  refine ⟨last, .cons first (.cons second (.cons third (.nil last))), ?_⟩
  rw [resumedTo, resumes]
  obtain ⟨_, _, _, _, ⟨nobody, _⟩ | ⟨next, selected, mentioned, _⟩⟩ := preempt_keeps preempted
  · rw [nobody, userRegs, flow]
  · have isUsed : user.scheduler.used next = true := by
      rcases mentioned with queued | isCurrent
      · exact sound.queued next queued
      · exact (sound.running next isCurrent).1
    rw [scheduler, used] at isUsed
    have isZero : next = 0 := of_decide_eq_true isUsed
    rw [← scheduler] at current
    simp only [selected, interrupts, current, isZero, Function.update_self, userRegs, flow]

/-- A thread interrupted with 5 in RAX continues with 0x20 there. -/
theorem timer_clobbers_rax : ∃ first last, first.Intact ∧ first.returned = none ∧
    Run Step first [.enter 0, .run, .timer] last ∧ last.cpu.regs .rax = 0x20 ∧
    ¬ last.Transparent := by
  obtain ⟨last, run, returned⟩ := kernelStart_interrupted fun _ => 5
  have sound := run.invariant Sound (fun _ _ _ => sound_step)
    (sound_of_intact kernelStart_intact rfl)
  refine ⟨kernelStart, last, kernelStart_intact, rfl, run, (sound.agrees _ returned).2 .rax, ?_⟩
  rw [transparent_iff sound]
  intro acknowledged
  exact absurd (acknowledged _ returned) (by decide)

end Preemptible

end Aperture.Arch
