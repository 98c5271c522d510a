import Aperture.Machine.Slots
import Aperture.Mm.Heap
import Aperture.Mm.PageTable

/-!
# The thread scheduler

Threads live in a table of 16 slots; `READY_QUEUE` holds slot numbers and
`CURRENT_THREAD` the running one. A thread starts or resumes on one of two routes: the
kernel stack that `switch` pops, or `sysret` and `iretq` to user mode. The frame at a
thread's saved kernel stack pointer is kept as a value beside the pointer: either the one
`initial_stack` builds, which returns into `thread_entry_stub`, or one that `switch` saved.
-/

namespace Aperture.Win32

open Machine Mm

/-- Lifecycle state of a thread. -/
inductive ThreadState where
  /-- In the ready queue. -/
  | ready
  /-- On the processor. -/
  | running
  /-- Waiting. -/
  | blocked
  /-- Ended. -/
  | exited
  deriving DecidableEq, Repr

/-- The frame at a thread's saved kernel stack pointer. -/
inductive Context where
  /-- Built by `initial_stack`: `thread_entry_stub` calls the entry point. -/
  | initial (entryPoint : Nat)
  /-- Pushed by `switch`: returns into the `schedule` call that switched away. -/
  | saved
  deriving DecidableEq, Repr

/-- A thread control block. -/
structure Thread where
  /-- Thread number. -/
  tid : Nat
  /-- Owning process. -/
  pid : Nat
  /-- First instruction. -/
  entryPoint : Nat
  /-- Kernel stack base. -/
  stackBase : Nat
  /-- Kernel stack limit. -/
  stackLimit : Nat
  /-- Kernel stack pointer of the cooperative switch. -/
  rsp : Nat
  /-- User stack pointer. -/
  userRsp : Nat
  /-- User instruction pointer. -/
  userRip : Nat
  /-- CR3 of the owning process, 0 for interpreted threads. -/
  processPageTableRoot : Nat
  /-- Lifecycle state. -/
  state : ThreadState
  /-- Guest registers of the interpreter. -/
  regs : Nat → Nat
  /-- Kernel stack pointer captured by the timer interrupt, 0 before the first. -/
  interruptRsp : Nat
  /-- The frame at `rsp`. -/
  context : Context

/-- `Thread::new`; its stack pointer is 0 and no frame lies there yet. -/
def Thread.new (tid pid entryPoint : Nat) : Thread where
  tid := tid
  pid := pid
  entryPoint := entryPoint
  stackBase := 0
  stackLimit := 0
  rsp := 0
  userRsp := 0
  userRip := entryPoint
  processPageTableRoot := 0
  state := .ready
  regs := fun _ => 0
  interruptRsp := 0
  context := .saved

/-- `MAX_THREADS`. -/
def maxThreads : Nat := 16

/-- `MAX_READY`. -/
def maxReady : Nat := maxThreads

/-- `USER_STACK_SIZE`. -/
def userStackSize : Nat := 64 * 1024

/-- `USER_STACK_VIRT`. -/
def userStackVirt : Nat := 0x70000

/-- `context_switch::stack_size`. -/
def stackSize : Nat := 64 * 1024

/-- `initial_stack`: eight words below the top, and the frame they make. -/
def initialStack (entryPoint stackTop : Nat) : Nat × Context :=
  ((stackTop + wordSize - 64) % wordSize, .initial entryPoint)

/-- The scheduler's statics, and what its functions use of the rest of the machine. -/
structure Scheduler where
  /-- `THREAD_STORAGE`; slots never written hold anything. -/
  storage : Nat → Thread
  /-- `THREAD_USED`. -/
  used : Nat → Bool
  /-- `READY_QUEUE`. -/
  ready : Nat → Option Nat
  /-- `CURRENT_THREAD`. -/
  current : Option Nat
  /-- `IDLE_RSP`. -/
  idleRsp : Nat
  /-- `NEXT_TID`. -/
  nextTid : Nat
  /-- The active page table. -/
  cr3 : Nat
  /-- Kernel stack for interrupts from user mode. -/
  rsp0 : Nat
  /-- `SYSCALL_RSP`. -/
  syscallRsp : Nat
  /-- The early heap, where stacks come from. -/
  heap : BumpAllocator
  /-- The frame allocator, where page tables come from. -/
  frames : FrameAllocator
  /-- Physical memory, with the page tables. -/
  memory : PhysMem

/-- A processor's privilege level. -/
inductive Ring where
  /-- Ring 0. -/
  | kernel
  /-- Ring 3. -/
  | user
  deriving DecidableEq, Repr

/-- Control passes to a thread's code. -/
structure Transfer where
  /-- Slot of the thread. -/
  slot : Nat
  /-- Ring of the processor. -/
  ring : Ring
  /-- Address of the next instruction. -/
  target : Nat
  deriving DecidableEq, Repr

namespace Scheduler

/-- Before any thread is created. -/
def boot (storage : Nat → Thread) (heap : BumpAllocator) (frames : FrameAllocator)
    (memory : PhysMem) : Scheduler where
  storage := storage
  used := fun _ => false
  ready := fun _ => none
  current := none
  idleRsp := 0
  nextTid := 1
  cr3 := 0
  rsp0 := 0
  syscallRsp := 0
  heap := heap
  frames := frames
  memory := memory

/-- Change the thread in a slot. -/
def modify (s : Scheduler) (slot : Nat) (change : Thread → Thread) : Scheduler :=
  { s with storage := Function.update s.storage slot (change (s.storage slot)) }

/-- Return the index of a free thread slot. -/
def allocThreadSlot (s : Scheduler) : Option Nat := position maxThreads fun slot => !s.used slot

/-- Add a slot to the tail of the ready queue; false when it is full. -/
def enqueueThread (s : Scheduler) (slot : Nat) : Bool × Scheduler :=
  match position maxReady fun i => (s.ready i).isNone with
  | none => (false, s)
  | some index => (true, { s with ready := Function.update s.ready index (some slot) })

/-- Take the next ready slot and shift the entries behind it down. -/
def dequeueThread (s : Scheduler) : Option Nat × Scheduler :=
  match position maxReady fun i => (s.ready i).isSome with
  | none => (none, s)
  | some head =>
    (s.ready head, { s with ready := fun i =>
      if i < head then s.ready i else if i < maxReady - 1 then s.ready (i + 1) else none })

/-- The user stack pointer of a new thread, and the page tables that map its stack. -/
def userStack (s : Scheduler) (cr3 ustackBase : Nat) : Except Panic (Nat × PhysMem) := do
  let ustackTop ← add64 ustackBase userStackSize
  if cr3 = 0 then return (ustackTop, s.memory)
  match PageTable.mapRegion s.frames s.memory cr3 userStackVirt ustackBase (userStackSize / 4096)
      (pagePresent ||| pageUser ||| pageWritable) with
  | (.error reason, _) => throw reason
  | (.ok _, memory) => return (userStackVirt + userStackSize, memory)

/-- `create_thread`. -/
def createThread (s : Scheduler) (pid entryPoint cr3 : Nat) :
    Except Panic (Option Nat × Scheduler) := do
  match s.allocThreadSlot with
  | none => return (none, s)
  | some slot =>
    match ← s.heap.allocate stackSize 16 with
    | (none, heap) => return (none, { s with heap })
    | (some kstackBase, heap) =>
      let kstackTop ← add64 kstackBase stackSize
      let (rsp, context) := initialStack entryPoint kstackTop
      match ← heap.allocate userStackSize 4096 with
      | (none, heap) => return (none, { s with heap })
      | (some ustackBase, heap) =>
        let (userRsp, memory) ← s.userStack cr3 ustackBase
        let thread : Thread :=
          { Thread.new s.nextTid pid entryPoint with
            stackBase := kstackBase, stackLimit := kstackBase, rsp, context, userRsp
            userRip := entryPoint, processPageTableRoot := cr3, state := .ready }
        let created : Scheduler :=
          { s with
            heap, memory
            nextTid := (s.nextTid + 1) % wordSize
            storage := Function.update s.storage slot thread
            used := Function.update s.used slot true }
        match created.enqueueThread slot with
        | (true, queued) => return (some slot, queued)
        | (false, full) => return (none, full)

/-- A thread has been written to the first free slot; it is not queued yet. -/
structure Created (s : Scheduler) (entryPoint cr3 slot : Nat) (created : Scheduler) : Prop where
  /-- The slot was free. -/
  free : s.allocThreadSlot = some slot
  /-- The thread starts at the entry point through the frame of `initial_stack`. -/
  storage : ∃ thread : Thread, created.storage = Function.update s.storage slot thread ∧
    thread.state = .ready ∧ thread.context = .initial entryPoint ∧
    thread.entryPoint = entryPoint ∧ thread.processPageTableRoot = cr3 ∧
    thread.stackBase + stackSize < wordSize
  /-- The slot is taken. -/
  used : created.used = Function.update s.used slot true
  /-- The queue is unchanged. -/
  ready : created.ready = s.ready
  /-- The running thread is unchanged. -/
  current : created.current = s.current

/-- A user stack inside the address space is mapped without a panic. -/
theorem userStack_returns (s : Scheduler) (cr3 : Nat) {ustackBase : Nat}
    (fits : ustackBase + userStackSize < wordSize) :
    ∃ userRsp memory, s.userStack cr3 ustackBase = .ok (userRsp, memory) := by
  have top := add64_eq_ok.mpr ⟨fits, rfl⟩
  simp only [userStack, top, ok_bind]
  split
  · exact ⟨_, _, rfl⟩
  · obtain ⟨done, memory, mapped⟩ := PageTable.mapPages_returns s.frames cr3 userStackVirt
      ustackBase (pagePresent ||| pageUser ||| pageWritable) (List.range (userStackSize / 4096)) (by
        intro i member
        rw [List.mem_range] at member
        unfold userStackSize wordSize at *
        unfold userStackVirt
        omega) s.memory
    rw [PageTable.mapRegion, mapped]
    exact ⟨_, _, rfl⟩

/-- The bases of the kernel stack and the user stack that `create_thread` takes from the heap, when
both fit. -/
def stackBases (heap : BumpAllocator) : Option (Nat × Nat) :=
  let rest := { heap with next := heap.aligned 16 + stackSize }
  if heap.Fits stackSize 16 ∧ rest.Fits userStackSize 4096 then
    some (heap.aligned 16, rest.aligned 4096)
  else none

/-- The bases are those of two fitting requests. -/
theorem stackBases_eq_some {heap : BumpAllocator} {kstackBase ustackBase : Nat} :
    stackBases heap = some (kstackBase, ustackBase) ↔ heap.Fits stackSize 16 ∧
      { heap with next := heap.aligned 16 + stackSize }.Fits userStackSize 4096 ∧
      heap.aligned 16 = kstackBase ∧
      { heap with next := heap.aligned 16 + stackSize }.aligned 4096 = ustackBase := by
  simp only [stackBases, Option.ite_none_right_eq_some, Option.some.injEq, Prod.mk.injEq, and_assoc]

/-- A thread has been written with its stacks. -/
structure CreatedOn (s : Scheduler) (entryPoint cr3 slot kstackBase ustackBase : Nat)
    (created : Scheduler) : Prop extends Created s entryPoint cr3 slot created where
  /-- The stacks are the ones that fit. -/
  bases : stackBases s.heap = some (kstackBase, ustackBase)
  /-- The heap is used up to the end of the user stack. -/
  heap : created.heap = { s.heap with next := ustackBase + userStackSize }
  /-- The frame allocator's state is all in memory. -/
  frames : created.frames = s.frames
  /-- The user stack is set up. -/
  userStack : s.userStack cr3 ustackBase =
    .ok ((created.storage slot).userRsp, created.memory)

/-- `create_thread` fails for want of a slot or a stack without a trace in the thread tables, or
creates and queues. -/
theorem createThread_inversion {s after : Scheduler} {pid entryPoint cr3 : Nat}
    {result : Option Nat} (returned : s.createThread pid entryPoint cr3 = .ok (result, after)) :
    (result = none ∧ (s.allocThreadSlot = none ∨ stackBases s.heap = none) ∧
      ∃ next, s.heap.next ≤ next ∧ after = { s with heap := { s.heap with next } }) ∨
    ∃ slot kstackBase ustackBase created,
      CreatedOn s entryPoint cr3 slot kstackBase ustackBase created ∧
      after = (created.enqueueThread slot).2 ∧
      result = if (created.enqueueThread slot).1 then some slot else none := by
  unfold createThread at returned
  cases free : s.allocThreadSlot with
  | none =>
    simp only [free, pure_eq_ok, Prod.mk.injEq] at returned
    obtain ⟨rfl, rfl⟩ := returned
    exact .inl ⟨rfl, .inl rfl, s.heap.next, Nat.le_refl _, rfl⟩
  | some slot =>
    simp only [free, bind_eq_ok] at returned
    obtain ⟨⟨kstack, heap⟩, kernelStack, returned⟩ := returned
    cases kstack with
    | none =>
      obtain ⟨rfl, rfl⟩ := Prod.mk.inj (pure_eq_ok.mp returned)
      obtain ⟨rfl, refused⟩ := BumpAllocator.allocate_eq_none kernelStack
      exact .inl ⟨rfl, .inr (if_neg fun fits => refused fits.1), s.heap.next, Nat.le_refl _, rfl⟩
    | some kstackBase =>
      obtain ⟨kernelFits, kernelBase, rfl⟩ := BumpAllocator.allocate_eq_some.mp kernelStack
      simp only [bind_eq_ok] at returned
      obtain ⟨kstackTop, stackFits, ⟨ustack, userHeap⟩, userAllocated, returned⟩ := returned
      have top := (add64_eq_ok.mp stackFits).1
      cases ustack with
      | none =>
        obtain ⟨rfl, rfl⟩ := Prod.mk.inj (pure_eq_ok.mp returned)
        obtain ⟨rfl, refused⟩ := BumpAllocator.allocate_eq_none userAllocated
        have grown := @BumpAllocator.next_le_aligned s.heap 4 (by decide) kernelFits.2.1
        exact .inl ⟨rfl, .inr (if_neg fun fits => refused fits.2), _,
          grown.trans (Nat.le_add_right _ _), rfl⟩
      | some ustackBase =>
        obtain ⟨userFits, userBase, rfl⟩ := BumpAllocator.allocate_eq_some.mp userAllocated
        simp only [bind_eq_ok] at returned
        obtain ⟨⟨userRsp, memory⟩, stackSet, returned⟩ := returned
        have bases := stackBases_eq_some.mpr ⟨kernelFits, userFits, kernelBase.symm, userBase.symm⟩
        split at returned
        · rename_i queued enqueued
          obtain ⟨rfl, rfl⟩ := Prod.mk.inj (pure_eq_ok.mp returned)
          refine .inr ⟨slot, kstackBase, ustackBase, _, ?_, (congrArg Prod.snd enqueued).symm, ?_⟩
          · refine ⟨⟨free, ⟨_, rfl, rfl, rfl, rfl, rfl, top⟩, rfl, rfl, rfl⟩, bases, ?_, rfl, ?_⟩
            · rw [userBase]
            dsimp only
            rw [Function.update_self]
            exact stackSet
          · rw [enqueued]
            rfl
        · rename_i full refused
          obtain ⟨rfl, rfl⟩ := Prod.mk.inj (pure_eq_ok.mp returned)
          refine .inr ⟨slot, kstackBase, ustackBase, _, ?_, (congrArg Prod.snd refused).symm, ?_⟩
          · refine ⟨⟨free, ⟨_, rfl, rfl, rfl, rfl, rfl, top⟩, rfl, rfl, rfl⟩, bases, ?_, rfl, ?_⟩
            · rw [userBase]
            dsimp only
            rw [Function.update_self]
            exact stackSet
          · rw [refused]
            rfl

/-- `create_thread` fails without a trace in the thread tables, or creates and queues. -/
theorem createThread_cases {s after : Scheduler} {pid entryPoint cr3 : Nat} {result : Option Nat}
    (returned : s.createThread pid entryPoint cr3 = .ok (result, after)) :
    (after.storage = s.storage ∧ after.used = s.used ∧ after.ready = s.ready ∧
      after.current = s.current) ∨
    ∃ slot created, Created s entryPoint cr3 slot created ∧
      after = (created.enqueueThread slot).2 := by
  rcases createThread_inversion returned with ⟨_, _, _, _, rfl⟩ |
    ⟨slot, _, _, created, on, queued, _⟩
  · exact .inl ⟨rfl, rfl, rfl, rfl⟩
  · exact .inr ⟨slot, created, on.toCreated, queued⟩

/-- First half of `preempt`: save the interrupted thread's frame and queue it. -/
def saveInterrupted (s : Scheduler) (interruptRsp : Nat) : Scheduler :=
  match s.current with
  | none => s
  | some slot =>
    if slot < maxThreads ∧ (s.storage slot).state ≠ ThreadState.exited then
      ((s.modify slot fun cur => { cur with interruptRsp, state := .ready }).enqueueThread slot).2
    else s

/-- Second half of `preempt`: resume the next thread that has a frame. -/
def resumeInterrupted (s : Scheduler) (interruptRsp : Nat) : Except Panic (Nat × Scheduler) :=
  match s.dequeueThread with
  | (none, s) => .ok (interruptRsp, s)
  | (some next, s) =>
    if next < maxThreads then
      if (s.storage next).interruptRsp = 0 then .ok (interruptRsp, (s.enqueueThread next).2)
      else do
        let kstackTop ← add64 (s.storage next).stackBase stackSize
        let running := s.modify next fun thread => { thread with state := .running }
        return ((s.storage next).interruptRsp,
          { running with current := some next, rsp0 := kstackTop })
    else .ok (interruptRsp, s)

/-- `preempt`: the timer interrupt from user mode, with the interrupted stack pointer. Returns
the stack pointer to resume from. -/
def preempt (s : Scheduler) (interruptRsp : Nat) : Except Panic (Nat × Scheduler) :=
  (s.saveInterrupted interruptRsp).resumeInterrupted interruptRsp

/-- `enter_interpreter`, up to the interpreter loop. -/
def enterInterpreter (s : Scheduler) (slot : Nat) : Scheduler :=
  if slot < maxThreads then
    { s.modify slot fun thread => { thread with state := .running } with current := some slot }
  else s

/-- What `switch` does to the current context: its stack pointer and frame are saved. -/
def saveContext (s : Scheduler) (rsp : Nat) : Except Panic Scheduler :=
  match s.current with
  | none => .ok { s with idleRsp := rsp }
  | some slot =>
    if slot < maxThreads then
      let yielded :=
        if (s.storage slot).state ≠ ThreadState.exited then
          ((s.modify slot fun cur => { cur with state := .ready }).enqueueThread slot).2
        else s
      .ok (yielded.modify slot fun cur => { cur with rsp, context := .saved })
    else .error .missing

/-- Popping a thread's frame. -/
def resume (slot : Nat) : Context → Option Transfer
  | .initial entryPoint => some ⟨slot, .kernel, entryPoint⟩
  | .saved => none

/-- `schedule`, with the kernel stack pointer `switch` saves. Returns the entry point that
`thread_entry_stub` calls, if the frame popped leads there. -/
def schedule (s : Scheduler) (rsp : Nat) : Except Panic (Option Transfer × Scheduler) :=
  match s.dequeueThread with
  | (none, s) => .ok (none, s)
  | (some next, s) =>
    if next < maxThreads then do
      let context := (s.storage next).context
      let saved ← (s.modify next fun thread => { thread with state := .running }).saveContext rsp
      return (resume next context, { saved with current := some next })
    else .ok (none, s)

/-- `enter_user_mode`, up to `sysret`. -/
def enterUserMode (s : Scheduler) (slot : Nat) : Except Panic (Option Transfer × Scheduler) :=
  if slot < maxThreads then do
    let thread := s.storage slot
    let kstackTop ← add64 thread.stackBase stackSize
    let running := s.modify slot fun thread => { thread with state := .running }
    return (some ⟨slot, .user, thread.userRip⟩,
      { running with
        current := some slot
        cr3 := if thread.processPageTableRoot ≠ 0 then thread.processPageTableRoot else s.cr3
        syscallRsp := kstackTop
        rsp0 := kstackTop })
  else .ok (none, s)

/-- The running thread ends. -/
def markExited (s : Scheduler) : Scheduler :=
  match s.current with
  | none => s
  | some slot =>
    if slot < maxThreads then s.modify slot fun cur => { cur with state := .exited } else s

/-- `thread_exit`, up to the halt after `schedule`. -/
def threadExit (s : Scheduler) (rsp : Nat) : Except Panic (Option Transfer × Scheduler) :=
  s.markExited.schedule rsp

end Scheduler

/-- Calls on the scheduler. -/
inductive SchedulerOp where
  /-- `create_thread`. -/
  | createThread (pid entryPoint cr3 : Nat)
  /-- `enter_user_mode`. -/
  | enterUserMode (slot : Nat)
  /-- `enter_interpreter`. -/
  | enterInterpreter (slot : Nat)
  /-- `preempt`. -/
  | preempt (interruptRsp : Nat)
  /-- `schedule` and `yield_current`. -/
  | schedule (rsp : Nat)
  /-- `thread_exit`. -/
  | threadExit (rsp : Nat)
  deriving DecidableEq

/-- The slot an operation enters. -/
def SchedulerOp.enters : SchedulerOp → Option Nat
  | .enterUserMode slot => some slot
  | .enterInterpreter slot => some slot
  | .createThread _ _ _ => none
  | .preempt _ => none
  | .schedule _ => none
  | .threadExit _ => none

namespace Scheduler

/-- One call: where control goes in a thread's code, if it does, and the state after. -/
def apply (s : Scheduler) : SchedulerOp → Except Panic (Option Transfer × Scheduler)
  | .createThread pid entryPoint cr3 => do
    let (_, s) ← s.createThread pid entryPoint cr3
    return (none, s)
  | .enterUserMode slot => s.enterUserMode slot
  | .enterInterpreter slot => .ok (none, s.enterInterpreter slot)
  | .preempt interruptRsp => do
    let (_, s) ← s.preempt interruptRsp
    return (none, s)
  | .schedule rsp => s.schedule rsp
  | .threadExit rsp => s.threadExit rsp

/-- A call that returns or leaves the kernel without a panic. Only created threads are entered,
or slots past the table, which are refused. -/
def Step (s : Scheduler) (op : SchedulerOp) (after : Scheduler) : Prop :=
  (∃ transfer, s.apply op = .ok (transfer, after)) ∧
    ∀ slot, op.enters = some slot → slot < maxThreads → s.used slot = true

end Scheduler

end Aperture.Win32
