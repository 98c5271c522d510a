import Aperture.Arch.ContextSwitch
import Aperture.Mm.MappedRegion
import Aperture.Win32.Privilege

/-!
# User stacks

`create_thread` takes a kernel stack and a user stack from the early heap, has `initial_stack` write
the first frame, and maps the user stack of a native thread at a fixed address of its page table,
dropping what `map_region` returns. The stacks never share a byte. A thread keeps its mapping while
no later thread's address leads to the same lowest table.
-/

namespace Aperture.Win32

open Machine Mm

/-- A thread that `create_thread` returned, with its stacks. -/
structure StackRecord where
  /-- Slot of the thread. -/
  slot : Nat
  /-- Base of the kernel stack. -/
  kernelBase : Nat
  /-- Base of the user stack. -/
  userBase : Nat
  deriving DecidableEq, Repr

/-- The allocations of a thread. -/
def StackRecord.stacks (record : StackRecord) : List Span :=
  [⟨record.kernelBase, stackSize⟩, ⟨record.userBase, userStackSize⟩]

/-- A call of `create_thread`. -/
structure CreateCall where
  /-- Owning process. -/
  pid : Nat
  /-- First instruction. -/
  entryPoint : Nat
  /-- Page table root, 0 for an interpreted thread. -/
  cr3 : Nat
  deriving DecidableEq, Repr

/-- The scheduler with the threads created so far, newest first. -/
structure StackLedger where
  /-- The scheduler's statics. -/
  scheduler : Scheduler
  /-- The threads. -/
  threads : List StackRecord

/-- The path from a root to the table with the leaves of the user stack. -/
def stackPath : List Nat := [0, 0, 0]

/-- Index of the first leaf of the user stack. -/
def stackFirst : Nat := 0x70

/-- The flags of the user stack's pages. -/
def stackFlags : Nat := pagePresent ||| pageUser ||| pageWritable

/-- The user stack lies in one lowest table, and the path to it uses other indices. -/
theorem stack_inTable :
    PageTable.InTable userStackVirt (userStackSize / 4096) stackPath stackFirst where
  aligned := by decide
  fits := by decide
  path_eq := by decide
  slot := by decide
  inside := by decide
  clear := by decide
  small := by decide

namespace Scheduler

/-- Where `initial_stack` writes: eight words below the top of the next kernel stack. -/
def initialSpan (s : Scheduler) : Span := ⟨s.heap.aligned 16 + stackSize - 64, 64⟩

/-- The writes of `initial_stack` in `create_thread`, which come before its other accesses to
memory, once there are a slot and a kernel stack. -/
def writeInitial (code : Arch.CodeLayout) (s : Scheduler) (entryPoint : Nat) : Scheduler :=
  if s.allocThreadSlot ≠ none ∧ s.heap.Fits stackSize 16 then
    { s with
      memory := (Arch.initialStack code s.memory (BitVec.ofNat 64 entryPoint)
        (BitVec.ofNat 64 (s.heap.aligned 16 + stackSize))).2 }
  else s

/-- Only the frame is written. -/
theorem writeInitial_writes (code : Arch.CodeLayout) (s : Scheduler) (entryPoint : Nat) :
    WritesWithin s.initialSpan.toSet s.memory (s.writeInitial code entryPoint).memory := by
  unfold writeInitial
  split
  · rename_i fits
    have top : (BitVec.ofNat 64 (s.heap.aligned 16 + stackSize)).toNat =
        s.heap.aligned 16 + stackSize := by
      rw [BitVec.toNat_ofNat]
      exact Nat.mod_eq_of_lt fits.2.2.2.1
    have room : 64 ≤ (BitVec.ofNat 64 (s.heap.aligned 16 + stackSize)).toNat := by
      rw [top]
      unfold stackSize
      omega
    have spec := (Arch.initialStack_spec code s.memory (BitVec.ofNat 64 entryPoint) room).2.2
    rw [top] at spec
    exact spec
  · exact .refl _ _

/-- Nothing but memory changes. -/
theorem writeInitial_only (code : Arch.CodeLayout) (s : Scheduler) (entryPoint : Nat) :
    ∃ memory, s.writeInitial code entryPoint = { s with memory } := by
  unfold writeInitial
  split
  · exact ⟨_, rfl⟩
  · exact ⟨s.memory, rfl⟩

/-- While a slot and both stacks are there, `create_thread` returns a thread. -/
theorem Places.createThread {s : Scheduler} {queue : List Nat} (places : s.Places queue)
    (pid entryPoint cr3 : Nat) {slot kernelBase userBase : Nat}
    (free : s.allocThreadSlot = some slot)
    (bases : stackBases s.heap = some (kernelBase, userBase)) :
    ∃ made, CreatedOn s entryPoint cr3 slot kernelBase userBase made ∧
      s.createThread pid entryPoint cr3 = .ok (some slot, (made.enqueueThread slot).2) ∧
      ((made.enqueueThread slot).2).Places (queue ++ [slot]) := by
  obtain ⟨kernelFits, userFits, rfl, rfl⟩ := stackBases_eq_some.mp bases
  obtain ⟨result, _, returned, _⟩ :=
    createThread_returns pid entryPoint cr3 free kernelFits userFits
  rcases createThread_inversion returned with
    ⟨_, missing, _⟩ | ⟨other, _, _, made, on, queued, recorded⟩
  · rcases missing with noSlot | noBases
    · exact absurd (free.symm.trans noSlot) (by simp)
    · exact absurd (bases.symm.trans noBases) (by simp)
  · obtain rfl : other = slot := Option.some.inj (on.free.symm.trans free)
    obtain ⟨rfl, rfl⟩ := Prod.mk.inj (Option.some.inj (on.bases.symm.trans bases))
    have isFree : s.used other = false := by
      simpa using (position_eq_some.mp free).2.1
    have absent : other ∉ queue := by
      intro member
      rw [(places.live_of_mem other member).2.1] at isFree
      cases isFree
    have pushed := enqueueThread_eq (on.ready.trans places.holds)
      (places.room (position_eq_some.mp free).1 absent) other
    rw [if_pos (by rw [pushed])] at recorded
    refine ⟨made, on, ?_, places.created on.toCreated⟩
    rw [returned, recorded, queued]

/-- Queueing changes the queue alone. -/
theorem enqueueThread_machine (s : Scheduler) (slot : Nat) :
    (s.enqueueThread slot).2.heap = s.heap ∧ (s.enqueueThread slot).2.frames = s.frames ∧
      (s.enqueueThread slot).2.memory = s.memory := by
  unfold enqueueThread
  split
  · exact ⟨rfl, rfl, rfl⟩
  · exact ⟨rfl, rfl, rfl⟩

end Scheduler

namespace StackLedger

/-- The page table root of a recorded thread. -/
def root (ledger : StackLedger) (record : StackRecord) : Nat :=
  (ledger.scheduler.storage record.slot).processPageTableRoot

/-- The user stack pointer of a recorded thread. -/
def userRsp (ledger : StackLedger) (record : StackRecord) : Nat :=
  (ledger.scheduler.storage record.slot).userRsp

/-- A call of `create_thread`; a thread that it returns is recorded with its stacks. -/
def Creates (code : Arch.CodeLayout) (before : StackLedger) (call : CreateCall)
    (after : StackLedger) : Prop :=
  ∃ result, (before.scheduler.writeInitial code call.entryPoint).createThread call.pid
      call.entryPoint call.cr3 = .ok (result, after.scheduler) ∧
    after.threads = match result, Scheduler.stackBases before.scheduler.heap with
      | some slot, some (kernelBase, userBase) => ⟨slot, kernelBase, userBase⟩ :: before.threads
      | _, _ => before.threads

/-- The user stack of every native thread is mapped to its own allocation, and no two stacks share
a byte. -/
structure StacksPrivate (ledger : StackLedger) : Prop where
  /-- The addresses below the stack pointer translate to the allocation. -/
  mapped : ∀ record ∈ ledger.threads, ledger.root record ≠ 0 →
    ∀ a, ledger.userRsp record - userStackSize ≤ a → a < ledger.userRsp record →
      PageTable.translate ledger.scheduler.memory (ledger.root record) a =
        some (record.userBase + (a - (ledger.userRsp record - userStackSize)))
  /-- The allocations are separate. -/
  apart : (ledger.threads.flatMap StackRecord.stacks).Pairwise Span.Separate

/-- The table with the leaves of the stack address. -/
def stackTable (memory : PhysMem) (root : Nat) : Option Nat :=
  PageTable.tableAt memory root stackPath

/-- The new frame avoids the bitmap and the entries that translate the stacks of native threads. -/
def InitialApart (ledger : StackLedger) : Prop :=
  ledger.scheduler.initialSpan.Separate ledger.scheduler.frames.bitmapSpan ∧
    ∀ record ∈ ledger.threads, ledger.root record ≠ 0 →
      PageTable.EntriesOff ledger.scheduler.initialSpan ledger.scheduler.memory (ledger.root record)
        stackPath stackFirst (userStackSize / 4096)

/-- The page table takes the stack of a new thread: the tables on its walk and the allocator are
sound, there is a frame for every missing table, and no native thread uses its lowest table. -/
structure Mappable (ledger : StackLedger) (memory : PhysMem) (cr3 : Nat) : Prop where
  /-- The bitmap covers its frames. -/
  placed : ledger.scheduler.frames.Placed
  /-- Free frames avoid the bitmap. -/
  free_off : PageTable.FreeOff ledger.scheduler.frames memory
  /-- The tables on the walk are pages off the bitmap and the free frames. -/
  held : PageTable.WalkHeld ledger.scheduler.frames memory cr3 stackPath
  /-- Missing tables can be made. -/
  enough : PageTable.missingTables memory cr3 stackPath ≤ ledger.scheduler.frames.freeFrames memory
  /-- No native thread has its stack in the same lowest table. -/
  own : ∀ record ∈ ledger.threads, ledger.root record ≠ 0 → ∀ table,
    stackTable memory cr3 = some table → stackTable memory (ledger.root record) ≠ some table

/-- The condition on a call of `create_thread`. -/
structure Suited (code : Arch.CodeLayout) (ledger : StackLedger) (call : CreateCall) : Prop where
  /-- The frame, if one is written, is clear of the page tables. -/
  initial : ledger.scheduler.allocThreadSlot ≠ none → ledger.scheduler.heap.Fits stackSize 16 →
    ledger.InitialApart
  /-- The stack, if one is mapped, can be mapped. -/
  native : call.cr3 ≠ 0 → ledger.scheduler.allocThreadSlot ≠ none →
    Scheduler.stackBases ledger.scheduler.heap ≠ none →
      ledger.Mappable (ledger.scheduler.writeInitial code call.entryPoint).memory call.cr3

/-- The stack of a native thread is mapped through tables that stay. -/
def StackMapped (ledger : StackLedger) (record : StackRecord) : Prop :=
  ∃ table, PageTable.RegionMapped ledger.scheduler.frames ledger.scheduler.memory
    (ledger.root record) stackPath stackFirst (userStackSize / 4096) record.userBase stackFlags table

/-- What holds of the recorded threads throughout. -/
structure StackInv (ledger : StackLedger) : Prop where
  /-- Their slots are taken. -/
  used : ∀ record ∈ ledger.threads, ledger.scheduler.used record.slot = true
  /-- A native thread's stack ends at a fixed address. -/
  rsp : ∀ record ∈ ledger.threads, ledger.root record ≠ 0 →
    ledger.userRsp record = userStackVirt + userStackSize
  /-- It is mapped. -/
  mapped : ∀ record ∈ ledger.threads, ledger.root record ≠ 0 → ledger.StackMapped record
  /-- The allocator that its tables came from is sound. -/
  placed : ∀ record ∈ ledger.threads, ledger.root record ≠ 0 → ledger.scheduler.frames.Placed
  /-- The allocation is a run of pages. -/
  pages : ∀ record ∈ ledger.threads,
    record.userBase % 4096 = 0 ∧ record.userBase + userStackSize < wordSize
  /-- The allocations end below the heap's cursor. -/
  below : ∀ record ∈ ledger.threads, ∀ span ∈ record.stacks,
    span.start + span.size ≤ ledger.scheduler.heap.next
  /-- The allocations are separate. -/
  apart : (ledger.threads.flatMap StackRecord.stacks).Pairwise Span.Separate

/-- The invariant makes the stacks private. -/
theorem StackInv.stacksPrivate {ledger : StackLedger} (inv : ledger.StackInv) :
    ledger.StacksPrivate where
  mapped record member native a above below := by
    obtain ⟨table, mapped⟩ := inv.mapped record member native
    obtain ⟨aligned, fits⟩ := inv.pages record member
    rw [inv.rsp record member native, Nat.add_sub_cancel] at above ⊢
    rw [inv.rsp record member native] at below
    have inside : a - userStackVirt < userStackSize / 4096 * 4096 := by
      show a - userStackVirt < userStackSize
      omega
    have translated := mapped.translate_eq stack_inTable aligned
      (show record.userBase + userStackSize / 4096 * 4096 ≤ wordSize from Nat.le_of_lt fits)
      (by decide) inside
    rwa [Nat.add_sub_cancel' above] at translated
  apart := inv.apart

/-- The bases of two stacks: the kernel stack starts at or above the cursor, the user stack behind
it on a page. -/
theorem bases_above {heap : BumpAllocator} {kernelBase userBase : Nat}
    (bases : Scheduler.stackBases heap = some (kernelBase, userBase)) :
    heap.next ≤ kernelBase ∧ kernelBase + stackSize ≤ userBase ∧ userBase % 4096 = 0 ∧
      userBase + userStackSize < wordSize := by
  obtain ⟨kernelFits, userFits, rfl, rfl⟩ := Scheduler.stackBases_eq_some.mp bases
  exact ⟨@BumpAllocator.next_le_aligned heap 4 (by decide) kernelFits.2.1,
    @BumpAllocator.next_le_aligned _ 12 (by decide) userFits.2.1,
    @BumpAllocator.aligned_mod _ 12 (by decide) userFits.2.1, userFits.2.2.1⟩

/-- Separate stacks with two more, above all of them. -/
theorem pairwise_stacks {threads : List StackRecord} {next : Nat} {record : StackRecord}
    (apart : (threads.flatMap StackRecord.stacks).Pairwise Span.Separate)
    (below : ∀ other ∈ threads, ∀ span ∈ other.stacks, span.start + span.size ≤ next)
    (kernel : next ≤ record.kernelBase) (user : record.kernelBase + stackSize ≤ record.userBase) :
    ((record :: threads).flatMap StackRecord.stacks).Pairwise Span.Separate := by
  have above {base size : Nat} (high : next ≤ base) :
      ∀ span ∈ threads.flatMap StackRecord.stacks, (Span.mk base size).Separate span := by
    intro span member
    obtain ⟨other, otherMember, inOther⟩ := List.mem_flatMap.mp member
    have ends := below other otherMember span inOther
    simp only [Span.Separate]
    omega
  rw [List.flatMap_cons]
  refine List.pairwise_cons.mpr ⟨fun span member => ?_,
    List.pairwise_cons.mpr ⟨fun span member => ?_, apart⟩⟩
  · rcases List.mem_cons.mp member with rfl | old
    · simp only [Span.Separate]
      omega
    · exact above kernel span old
  · exact above (by omega) span member

/-! ## One call -/

/-- An interpreted thread's stack is not mapped. -/
theorem userStack_interpreted {s : Scheduler} {userBase userRsp : Nat} {memory : PhysMem}
    (returned : s.userStack 0 userBase = .ok (userRsp, memory)) : memory = s.memory := by
  simp only [Scheduler.userStack, bind_eq_ok, if_true, pure_eq_ok, Prod.mk.injEq] at returned
  obtain ⟨_, _, _, rfl⟩ := returned
  rfl

/-- A native thread's stack is mapped when its page table takes it. -/
theorem userStack_made {s : Scheduler} {cr3 userBase userRsp : Nat} {memory : PhysMem}
    (native : cr3 ≠ 0) (placed : s.frames.Placed) (freeOff : PageTable.FreeOff s.frames s.memory)
    (held : PageTable.WalkHeld s.frames s.memory cr3 stackPath)
    (enough : PageTable.missingTables s.memory cr3 stackPath ≤ s.frames.freeFrames s.memory)
    (fits : userBase + userStackSize < wordSize)
    (returned : s.userStack cr3 userBase = .ok (userRsp, memory)) :
    userRsp = userStackVirt + userStackSize ∧ ∃ table middle,
      PageTable.RegionMade s.frames s.memory cr3 stackPath stackFirst (userStackSize / 4096) userBase
        stackFlags table middle memory := by
  have flagsFit : stackFlags < wordSize := by decide
  obtain ⟨table, middle, after, mapped, made⟩ := PageTable.mapRegion_made placed stack_inTable
    (by decide) freeOff held enough (Nat.le_of_lt fits) flagsFit
  rw [stackFlags] at mapped
  simp only [Scheduler.userStack, bind_eq_ok, if_neg native, mapped, pure_eq_ok,
    Prod.mk.injEq] at returned
  obtain ⟨_, _, rfl, rfl⟩ := returned
  exact ⟨rfl, table, middle, made⟩

/-- The frame of `initial_stack` leaves the threads' stacks as they are. -/
theorem StackInv.writeInitial {ledger : StackLedger} (inv : ledger.StackInv)
    {code : Arch.CodeLayout} {call : CreateCall} (suited : Suited code ledger call) :
    StackInv ⟨ledger.scheduler.writeInitial code call.entryPoint, ledger.threads⟩ := by
  have writes := Scheduler.writeInitial_writes code ledger.scheduler call.entryPoint
  by_cases written : ledger.scheduler.allocThreadSlot ≠ none ∧ ledger.scheduler.heap.Fits stackSize 16
  · obtain ⟨offBitmap, offEntries⟩ := suited.initial written.1 written.2
    obtain ⟨memory, only⟩ := Scheduler.writeInitial_only code ledger.scheduler call.entryPoint
    rw [only] at writes ⊢
    refine ⟨inv.used, inv.rsp, fun record member native => ?_, inv.placed, inv.pages, inv.below,
      inv.apart⟩
    obtain ⟨table, mapped⟩ := inv.mapped record member native
    exact ⟨table, mapped.of_writes (inv.placed record member native).covers writes offBitmap
      (offEntries record member native)⟩
  · rw [Scheduler.writeInitial, if_neg written]
    exact inv

section Created

variable {before : StackLedger} {made : Scheduler}
  {entryPoint cr3 slot kernelBase userBase : Nat}

/-- A call maps the stack of a native thread, and leaves memory alone for an interpreted one. -/
theorem stack_mapping (mappable : cr3 ≠ 0 → before.Mappable before.scheduler.memory cr3)
    (on : Scheduler.CreatedOn before.scheduler entryPoint cr3 slot kernelBase userBase made) :
    made.memory = before.scheduler.memory ∧ cr3 = 0 ∨
      cr3 ≠ 0 ∧ (made.storage slot).userRsp = userStackVirt + userStackSize ∧
        ∃ table middle, PageTable.RegionMade before.scheduler.frames before.scheduler.memory cr3
          stackPath stackFirst (userStackSize / 4096) userBase stackFlags table middle
          made.memory := by
  have returned := on.userStack
  by_cases native : cr3 = 0
  · rw [native] at returned
    exact .inl ⟨userStack_interpreted returned, native⟩
  · have suits := mappable native
    have fits := (bases_above on.bases).2.2.2
    exact .inr ⟨native, userStack_made native suits.placed suits.free_off suits.held suits.enough
      fits returned⟩

/-- The earlier threads after a call that has made a thread. -/
theorem StackInv.earlier (inv : before.StackInv)
    (mappable : cr3 ≠ 0 → before.Mappable before.scheduler.memory cr3)
    (on : Scheduler.CreatedOn before.scheduler entryPoint cr3 slot kernelBase userBase made) :
    StackInv ⟨(made.enqueueThread slot).2, before.threads⟩ := by
  obtain ⟨storage, used, _⟩ := Scheduler.enqueueThread_only made slot
  obtain ⟨heap, frames, memory⟩ := Scheduler.enqueueThread_machine made slot
  obtain ⟨kernelAbove, userAbove, _, _⟩ := bases_above on.bases
  obtain ⟨thread, stored, _⟩ := on.storage
  have free : before.scheduler.used slot = false := by
    simpa using (position_eq_some.mp on.free).2.1
  have same (record : StackRecord) (member : record ∈ before.threads) :
      (made.enqueueThread slot).2.storage record.slot = before.scheduler.storage record.slot := by
    have differ : record.slot ≠ slot := by
      rintro same
      rw [← same, inv.used record member] at free
      cases free
    rw [storage, stored, Function.update_of_ne differ]
  have rootSame (record : StackRecord) (member : record ∈ before.threads) :
      root ⟨(made.enqueueThread slot).2, before.threads⟩ record = before.root record := by
    rw [root, root, same record member]
  refine ⟨fun record member => ?_, fun record member native => ?_, fun record member native => ?_,
    fun record member native => ?_, inv.pages, fun record member span inRecord => ?_, inv.apart⟩
  · rw [used, on.used, Function.update_apply, inv.used record member, ite_self]
  · rw [rootSame record member] at native
    rw [userRsp, same record member]
    exact inv.rsp record member native
  · rw [rootSame record member] at native
    obtain ⟨table, mapped⟩ := inv.mapped record member native
    rw [StackMapped, rootSame record member, frames, on.frames, memory]
    refine ⟨table, ?_⟩
    rcases stack_mapping mappable on with ⟨unchanged, _⟩ | ⟨isNative, _, _, _, region⟩
    · rw [unchanged]
      exact mapped
    · have suits := mappable isNative
      exact region.kept suits.placed stack_inTable mapped fun shared =>
        suits.own record member native table shared mapped.found
  · rw [rootSame record member] at native
    rw [frames, on.frames]
    exact inv.placed record member native
  · have ends := inv.below record member span inRecord
    rw [heap, on.heap]
    dsimp only
    omega

/-- The threads with the one that a call has made. -/
theorem StackInv.created (inv : before.StackInv)
    (mappable : cr3 ≠ 0 → before.Mappable before.scheduler.memory cr3)
    (on : Scheduler.CreatedOn before.scheduler entryPoint cr3 slot kernelBase userBase made) :
    StackInv ⟨(made.enqueueThread slot).2, ⟨slot, kernelBase, userBase⟩ :: before.threads⟩ := by
  have old := inv.earlier mappable on
  obtain ⟨storage, used, _⟩ := Scheduler.enqueueThread_only made slot
  obtain ⟨heap, frames, memory⟩ := Scheduler.enqueueThread_machine made slot
  obtain ⟨kernelAbove, userAbove, pageAligned, fits⟩ := bases_above on.bases
  obtain ⟨thread, stored, _, _, _, rootEq, _⟩ := on.storage
  have newRoot (threads : List StackRecord) :
      root ⟨(made.enqueueThread slot).2, threads⟩ ⟨slot, kernelBase, userBase⟩ = cr3 := by
    rw [root, storage, stored, Function.update_self, rootEq]
  have mapping := stack_mapping mappable on
  refine ⟨?_, ?_, ?_, ?_, ?_, ?_, ?_⟩
  · refine List.forall_mem_cons.mpr ⟨?_, old.used⟩
    rw [used, on.used, Function.update_self]
  · refine List.forall_mem_cons.mpr ⟨fun native => ?_, old.rsp⟩
    rw [newRoot] at native
    rcases mapping with ⟨_, isZero⟩ | ⟨_, rsp, _⟩
    · exact absurd isZero native
    · rw [userRsp, storage]
      exact rsp
  · refine List.forall_mem_cons.mpr ⟨fun native => ?_, old.mapped⟩
    rw [newRoot] at native
    rw [StackMapped, newRoot, frames, on.frames, memory]
    rcases mapping with ⟨_, isZero⟩ | ⟨_, _, table, middle, region⟩
    · exact absurd isZero native
    · exact ⟨table, region.mapped (mappable native).placed stack_inTable⟩
  · refine List.forall_mem_cons.mpr ⟨fun native => ?_, old.placed⟩
    rw [newRoot] at native
    rw [frames, on.frames]
    exact (mappable native).placed
  · exact List.forall_mem_cons.mpr ⟨⟨pageAligned, fits⟩, inv.pages⟩
  · refine List.forall_mem_cons.mpr ⟨fun span inRecord => ?_, old.below⟩
    rw [heap, on.heap]
    rcases List.mem_cons.mp inRecord with rfl | last
    · dsimp only
      omega
    · rw [List.mem_singleton.mp last]
  · exact pairwise_stacks inv.apart inv.below kernelAbove userAbove

end Created

/-- A call that meets the condition keeps the invariant. -/
theorem StackInv.creates {code : Arch.CodeLayout} {before after : StackLedger} {call : CreateCall}
    (inv : before.StackInv) (suited : Suited code before call)
    (creates : Creates code before call after) : after.StackInv := by
  obtain ⟨result, returned, threads⟩ := creates
  have framed := inv.writeInitial suited
  have native := suited.native
  obtain ⟨memory, only⟩ :=
    Scheduler.writeInitial_only code before.scheduler call.entryPoint
  rw [only] at returned framed native
  obtain ⟨last, lastThreads⟩ := after
  dsimp only at returned threads
  rcases Scheduler.createThread_inversion returned with
    ⟨rfl, _, next, grown, rfl⟩ | ⟨slot, kernelBase, userBase, made, on, rfl, rfl⟩
  · subst threads
    exact ⟨framed.used, framed.rsp, framed.mapped, framed.placed, framed.pages,
      fun record member span inRecord => (framed.below record member span inRecord).trans grown,
      framed.apart⟩
  · have bases : Scheduler.stackBases before.scheduler.heap = some (kernelBase, userBase) := on.bases
    have slotFree : before.scheduler.allocThreadSlot = some slot := on.free
    have mappable : call.cr3 ≠ 0 →
        Mappable ⟨{ before.scheduler with memory }, before.threads⟩ memory call.cr3 := by
      intro isNative
      obtain ⟨placed, freeOff, held, enough, own⟩ := native isNative (by rw [slotFree]; simp)
        (by rw [bases]; simp)
      exact ⟨placed, freeOff, held, enough, own⟩
    by_cases queued : (made.enqueueThread slot).1 = true
    · rw [if_pos queued, bases] at threads
      subst threads
      exact framed.created mappable on
    · rw [if_neg queued] at threads
      subst threads
      exact framed.earlier mappable on

/-- In every run whose calls meet the condition, the stacks are private in every state reached. -/
theorem stacksPrivate_of_suited (code : Arch.CodeLayout) (storage : Nat → Thread)
    (heap : BumpAllocator) (frames : FrameAllocator) (memory : PhysMem) {calls : List CreateCall}
    {last : StackLedger}
    (run : Run (Guarded (Suited code) (Creates code))
      ⟨Scheduler.boot storage heap frames memory, []⟩ calls last) :
    Run (Reaching StacksPrivate (Creates code)) ⟨Scheduler.boot storage heap frames memory, []⟩ calls
      last :=
  Run.reaching StackInv (fun _ _ _ inv suited creates => inv.creates suited creates)
    (fun _ inv => inv.stacksPrivate)
    ⟨nofun, nofun, nofun, nofun, nofun, nofun, List.Pairwise.nil⟩ run

/-! ## Two threads with one page table -/

/-- While a slot and both stacks are there, `create_thread` returns a thread. -/
theorem exists_creates (code : Arch.CodeLayout) (ledger : StackLedger) (call : CreateCall)
    {queue : List Nat} {slot kernelBase userBase : Nat} (places : ledger.scheduler.Places queue)
    (free : ledger.scheduler.allocThreadSlot = some slot)
    (bases : Scheduler.stackBases ledger.scheduler.heap = some (kernelBase, userBase)) :
    ∃ made, Scheduler.CreatedOn (ledger.scheduler.writeInitial code call.entryPoint)
        call.entryPoint call.cr3 slot kernelBase userBase made ∧
      Creates code ledger call
        ⟨(made.enqueueThread slot).2, ⟨slot, kernelBase, userBase⟩ :: ledger.threads⟩ ∧
      ((made.enqueueThread slot).2).Places (queue ++ [slot]) := by
  obtain ⟨memory, only⟩ := Scheduler.writeInitial_only code ledger.scheduler call.entryPoint
  have framed : ({ ledger.scheduler with memory } : Scheduler).Places queue :=
    places.congr rfl rfl rfl rfl
  obtain ⟨made, on, returned, queued⟩ :=
    framed.createThread call.pid call.entryPoint call.cr3 free bases
  simp only [Creates, only]
  exact ⟨made, on, ⟨some slot, returned, by rw [bases]⟩, queued⟩

/-- Two page tables at 384 KiB whose first entries lead to lowest tables of the first 2 MiB; the
bitmap at 64 KiB marks the first of 64 frames, its own. -/
def nativeMemory : PhysMem :=
  ((PhysMem.mk (fun address => if address = 0x10000 then 1 else 0) []).writeU64 0x60000 0x61007
    |>.writeU64 0x61000 0x62007 |>.writeU64 0x62000 0x66007 |>.writeU64 0x63000 0x64007
    |>.writeU64 0x64000 0x65007).writeU64 0x65000 0x67007

/-- One of these page tables, and its lowest table. -/
def NativeTables (root leaf : Nat) : Prop :=
  root = 0x60000 ∧ leaf = 0x66000 ∨ root = 0x63000 ∧ leaf = 0x67000

/-- A machine at boot with this memory and an empty mebibyte of heap. -/
def nativeBoot : Scheduler :=
  .boot (fun _ => Thread.new 0 0 0) (.initHeap 0x100000 0x200000) ⟨0x10000, 64, 0x10000, 1⟩
    nativeMemory

/-- The bitmap and the tables above the lowest are as they were. -/
def TablesKept (memory : PhysMem) : Prop := ∀ a < 0x66000, memory.byte a = nativeMemory.byte a

/-- Writes above keep them. -/
theorem TablesKept.writes {memory after : PhysMem} (kept : TablesKept memory) {region : Set Nat}
    (writes : WritesWithin region memory after) (above : ∀ a < 0x66000, a ∉ region) :
    TablesKept after :=
  fun a below => (writes.unchanged a (above a below)).trans (kept a below)

/-- The stack address leads to the same table then. -/
theorem TablesKept.tableAt_eq {memory : PhysMem} (kept : TablesKept memory) {root leaf : Nat}
    (tables : NativeTables root leaf) :
    PageTable.tableAt memory root [0] = some (root + 0x1000) ∧
      PageTable.tableAt memory root [0, 0] = some (root + 0x2000) ∧
      PageTable.tableAt memory root stackPath = some leaf := by
  have linked : root + 0x3000 ≤ 0x66000 ∧
      PageTable.presentTable nativeMemory root 0 = some (root + 0x1000) ∧
      PageTable.presentTable nativeMemory (root + 0x1000) 0 = some (root + 0x2000) ∧
      PageTable.presentTable nativeMemory (root + 0x2000) 0 = some leaf := by
    rcases tables with ⟨rfl, rfl⟩ | ⟨rfl, rfl⟩
    · decide +kernel
    · decide +kernel
  obtain ⟨below, first, second, third⟩ := linked
  have step {table next : Nat} (inside : table + 8 ≤ 0x66000)
      (link : PageTable.presentTable nativeMemory table 0 = some next) :
      PageTable.presentTable memory table 0 = some next := by
    refine (PageTable.presentTable_congr (PhysMem.readU64_congr fun a member => ?_)).trans link
    simp only [Span.mem_iff] at member
    exact kept a (by omega)
  have one : PageTable.tableAt memory root [0] = some (root + 0x1000) := step (by omega) first
  have two : PageTable.tableAt memory root [0, 0] = some (root + 0x2000) := by
    rw [PageTable.tableAt, one]
    exact step (by omega) second
  refine ⟨one, two, ?_⟩
  rw [stackPath, PageTable.tableAt, two]
  exact step (by omega) third

/-- Its bitmap covers its frames. -/
theorem nativeBoot_placed : nativeBoot.frames.Placed :=
  ⟨by decide, by decide, by decide, by decide⟩

/-- The bitmap marks the same frames. -/
theorem TablesKept.used_eq {memory : PhysMem} (kept : TablesKept memory) {index : Nat}
    (inside : index < 64) : nativeBoot.frames.used memory index =
      nativeBoot.frames.used nativeMemory index := by
  refine FrameAllocator.used_congr (nativeBoot_placed.covers.word_lt inside)
    fun a member => kept a ?_
  have below : a < 0x10008 := member.2
  omega

/-- The page table takes a stack. -/
theorem TablesKept.mappable {memory : PhysMem} (kept : TablesKept memory) {root leaf : Nat}
    (tables : NativeTables root leaf) :
    PageTable.FreeOff nativeBoot.frames memory ∧
      PageTable.WalkHeld nativeBoot.frames memory root stackPath ∧
      PageTable.missingTables memory root stackPath ≤ nativeBoot.frames.freeFrames memory := by
  obtain ⟨second, third, last⟩ := kept.tableAt_eq tables
  have first : PageTable.tableAt memory root [] = some root := rfl
  have placed : root % 4096 = 0 ∧ 0x60000 ≤ root ∧ leaf % 4096 = 0 ∧ 0x60000 ≤ leaf := by
    rcases tables with ⟨rfl, rfl⟩ | ⟨rfl, rfl⟩
    · decide
    · decide
  have held {table : Nat} (aligned : table % 4096 = 0) (above : 0x60000 ≤ table) :
      PageTable.Held nativeBoot.frames memory table := by
    refine ⟨aligned, ?_, fun index inside _ => ?_⟩
    · simp only [Span.Separate, PageTable.page, FrameAllocator.bitmapSpan, nativeBoot,
        Scheduler.boot]
      omega
    · have below : index < 64 := inside
      simp only [Span.Separate, PageTable.page, FrameAllocator.frameSpan, FrameAllocator.frameAddr,
        nativeBoot, Scheduler.boot, frameSize]
      omega
  refine ⟨fun index inside free => ?_, ?_, ?_⟩
  · rw [kept.used_eq inside] at free
    have notFirst : index ≠ 0 := by
      rintro rfl
      revert free
      decide +kernel
    simp only [Span.Separate, FrameAllocator.bitmapSpan, FrameAllocator.frameSpan,
      FrameAllocator.frameAddr, nativeBoot, Scheduler.boot, frameSize]
    omega
  · intro above suffix table found
    rcases List.suffix_cons_iff.mp suffix with rfl | suffix
    · obtain rfl := Option.some.inj (found.symm.trans last)
      exact held (by omega) (by omega)
    · rcases List.suffix_cons_iff.mp suffix with rfl | suffix
      · obtain rfl := Option.some.inj (found.symm.trans third)
        exact held (by omega) (by omega)
      · rcases List.suffix_cons_iff.mp suffix with rfl | suffix
        · obtain rfl := Option.some.inj (found.symm.trans second)
          exact held (by omega) (by omega)
        · rw [List.suffix_nil.mp suffix] at found
          obtain rfl := Option.some.inj (found.symm.trans first)
          exact held (by omega) (by omega)
  · rw [stackPath] at last
    simp [stackPath, PageTable.missingTables, second, third, last]

/-- The frame of `initial_stack` lies in the heap. -/
theorem TablesKept.writeInitial {s : Scheduler} (kept : TablesKept s.memory)
    (code : Arch.CodeLayout) (entryPoint : Nat) {kernelBase userBase : Nat}
    (bases : Scheduler.stackBases s.heap = some (kernelBase, userBase))
    (high : 0x68000 ≤ s.heap.next) : TablesKept (s.writeInitial code entryPoint).memory := by
  refine kept.writes (Scheduler.writeInitial_writes code s entryPoint) fun a below inside => ?_
  obtain ⟨_, _, rfl, _⟩ := Scheduler.stackBases_eq_some.mp bases
  have above := (bases_above bases).1
  have start : s.heap.aligned 16 + stackSize - 64 ≤ a := inside.1
  unfold stackSize at start
  omega

/-- A thread made with such a page table, and what it leaves. -/
structure NativeMade (cr3 : Nat) (before : StackLedger) (queue : List Nat)
    (slot kernelBase userBase : Nat) (after : StackLedger) : Prop where
  /-- It is recorded. -/
  threads : after.threads = ⟨slot, kernelBase, userBase⟩ :: before.threads
  /-- It has the page table. -/
  root : after.root ⟨slot, kernelBase, userBase⟩ = cr3
  /-- The tables are kept. -/
  kept : TablesKept after.scheduler.memory
  /-- It is queued. -/
  places : after.scheduler.Places (queue ++ [slot])
  /-- The allocator is the same. -/
  frames : after.scheduler.frames = nativeBoot.frames
  /-- The heap is used up to its user stack. -/
  heap : after.scheduler.heap = { before.scheduler.heap with next := userBase + userStackSize }
  /-- Its slot is taken. -/
  used : after.scheduler.used = Function.update before.scheduler.used slot true
  /-- Other slots are the same. -/
  others : ∀ other ≠ slot, after.scheduler.storage other = before.scheduler.storage other
  /-- The stack is mapped. -/
  mapped : ∃ table, PageTable.RegionMapped nativeBoot.frames after.scheduler.memory cr3 stackPath
    stackFirst (userStackSize / 4096) userBase stackFlags table

/-- Such a thread can be made. -/
theorem exists_nativeMade (code : Arch.CodeLayout) {before : StackLedger} (pid entryPoint : Nat)
    {root leaf : Nat} (tables : NativeTables root leaf) {queue : List Nat}
    {slot kernelBase userBase : Nat} (kept : TablesKept before.scheduler.memory)
    (frames : before.scheduler.frames = nativeBoot.frames)
    (high : 0x68000 ≤ before.scheduler.heap.next) (places : before.scheduler.Places queue)
    (free : before.scheduler.allocThreadSlot = some slot)
    (bases : Scheduler.stackBases before.scheduler.heap = some (kernelBase, userBase)) :
    ∃ after, Creates code before ⟨pid, entryPoint, root⟩ after ∧
      NativeMade root before queue slot kernelBase userBase after := by
  have framedKept := kept.writeInitial code entryPoint bases high
  obtain ⟨made, on, creates, queued⟩ :=
    exists_creates code before ⟨pid, entryPoint, root⟩ places free bases
  obtain ⟨memory, only⟩ := Scheduler.writeInitial_only code before.scheduler entryPoint
  rw [only] at framedKept on
  dsimp only at framedKept on
  obtain ⟨freeOff, held, enough⟩ := framedKept.mappable tables
  have placed := nativeBoot_placed
  have native : root ≠ 0 ∧ 0x66000 ≤ leaf := by
    rcases tables with ⟨rfl, rfl⟩ | ⟨rfl, rfl⟩
    · decide
    · decide
  rw [← frames] at freeOff held enough placed
  obtain ⟨rsp, table, middle, region⟩ :=
    userStack_made (s := { before.scheduler with memory }) native.1 placed freeOff held enough
      (bases_above bases).2.2.2 on.userStack
  dsimp only at region
  have there : middle = memory := by
    rcases region.walk.origin with same | ⟨missing, _⟩
    · exact same
    · rw [(framedKept.tableAt_eq tables).2.2] at missing
      cases missing
  have isTable : table = leaf := by
    have found := region.walk.found
    rw [there, (framedKept.tableAt_eq tables).2.2] at found
    exact (Option.some.inj found).symm
  obtain ⟨storage, used, _⟩ := Scheduler.enqueueThread_only made slot
  obtain ⟨heap, framesSame, memorySame⟩ := Scheduler.enqueueThread_machine made slot
  obtain ⟨thread, stored, _, _, _, rootEq, _⟩ := on.storage
  refine ⟨_, creates, rfl, ?_, ?_, queued, ?_, ?_, ?_, fun other differ => ?_, table, ?_⟩
  · rw [StackLedger.root, storage, stored, Function.update_self, rootEq]
  · rw [memorySame]
    refine framedKept.writes (there ▸ region.leaves.writes) fun a below inside => ?_
    have start : table ≤ a := inside.1
    omega
  · rw [framesSame, on.frames, frames]
  · rw [heap, on.heap]
  · rw [used, on.used]
  · rw [storage, stored, Function.update_of_ne differ]
  · have mapped := region.mapped placed stack_inTable
    rw [memorySame, ← frames]
    exact mapped

/-- The first page table. -/
theorem nativeTables_first : NativeTables 0x60000 0x66000 := .inl ⟨rfl, rfl⟩

/-- The second one. -/
theorem nativeTables_second : NativeTables 0x63000 0x67000 := .inr ⟨rfl, rfl⟩

/-- The first thread with the first page table meets the condition. -/
theorem nativeBoot_suited (code : Arch.CodeLayout) (pid entryPoint : Nat) :
    Suited code ⟨nativeBoot, []⟩ ⟨pid, entryPoint, 0x60000⟩ := by
  have kept : TablesKept nativeBoot.memory := fun _ _ => rfl
  have bases : Scheduler.stackBases nativeBoot.heap = some (0x100000, 0x110000) := by decide
  have framedKept := kept.writeInitial code entryPoint bases (by decide)
  obtain ⟨freeOff, held, enough⟩ := framedKept.mappable nativeTables_first
  exact ⟨fun _ _ => ⟨by decide, nofun⟩,
    fun _ _ _ => ⟨nativeBoot_placed, freeOff, held, enough, nofun⟩⟩

/-- The first thread with the first page table. -/
theorem nativeBoot_made (code : Arch.CodeLayout) (pid entryPoint : Nat) :
    ∃ first, Creates code ⟨nativeBoot, []⟩ ⟨pid, entryPoint, 0x60000⟩ first ∧
      NativeMade 0x60000 ⟨nativeBoot, []⟩ [] 0 0x100000 0x110000 first :=
  exists_nativeMade code pid entryPoint nativeTables_first (fun _ _ => rfl) rfl (by decide)
    (Scheduler.boot_places _ _ _ _) (position_eq_some.mpr ⟨by decide, rfl, by simp⟩) (by decide)

/-- Behind it the second slot is free. -/
theorem NativeMade.free {root : Nat} {first : StackLedger}
    (one : NativeMade root ⟨nativeBoot, []⟩ [] 0 0x100000 0x110000 first) :
    first.scheduler.allocThreadSlot = some 1 := by
  refine position_eq_some.mpr ⟨by decide, ?_, fun other below => ?_⟩
  · rw [one.used]
    rfl
  · rw [one.used, Nat.lt_one_iff.mp below]
    rfl

/-- There is heap for a second thread. -/
theorem NativeMade.bases {root : Nat} {first : StackLedger}
    (one : NativeMade root ⟨nativeBoot, []⟩ [] 0 0x100000 0x110000 first) :
    Scheduler.stackBases first.scheduler.heap = some (0x120000, 0x130000) := by
  rw [one.heap]
  decide

/-- A second thread with the second page table meets the condition. -/
theorem NativeMade.suited {first : StackLedger} (code : Arch.CodeLayout)
    (one : NativeMade 0x60000 ⟨nativeBoot, []⟩ [] 0 0x100000 0x110000 first) (pid entryPoint : Nat) :
    Suited code first ⟨pid, entryPoint, 0x63000⟩ := by
  have high : 0x68000 ≤ first.scheduler.heap.next := by
    rw [one.heap]
    decide
  have span : first.scheduler.initialSpan = ⟨0x12FFC0, 64⟩ := by
    rw [Scheduler.initialSpan, one.heap]
    decide
  have framedKept := one.kept.writeInitial code entryPoint one.bases high
  obtain ⟨freeOff, held, enough⟩ := framedKept.mappable nativeTables_second
  obtain ⟨second, third, last⟩ := one.kept.tableAt_eq nativeTables_first
  have only (record : StackRecord) (member : record ∈ first.threads) :
      first.root record = 0x60000 := by
    rw [one.threads] at member
    obtain rfl := List.mem_singleton.mp member
    exact one.root
  refine ⟨fun _ _ => ⟨?_, fun record member _ => ?_⟩, fun _ _ _ => ⟨?_, ?_, ?_, ?_, ?_⟩⟩
  · rw [span, one.frames]
    decide
  · rw [span, only record member]
    refine ⟨fun index above suffix table found => ?_, fun table found => ?_⟩
    · rcases List.suffix_cons_iff.mp suffix with same | suffix
      · obtain ⟨rfl, rfl⟩ := List.cons.inj same
        obtain rfl := Option.some.inj (found.symm.trans third)
        decide
      · rcases List.suffix_cons_iff.mp suffix with same | suffix
        · obtain ⟨rfl, rfl⟩ := List.cons.inj same
          obtain rfl := Option.some.inj (found.symm.trans second)
          decide
        · rcases List.suffix_cons_iff.mp suffix with same | suffix
          · obtain ⟨rfl, rfl⟩ := List.cons.inj same
            obtain rfl := Option.some.inj found
            decide
          · cases List.suffix_nil.mp suffix
    · obtain rfl := Option.some.inj (found.symm.trans last)
      decide
  · rw [one.frames]
    exact nativeBoot_placed
  · rw [one.frames]
    exact freeOff
  · rw [one.frames]
    exact held
  · rw [one.frames]
    exact enough
  · intro record member _ table found shared
    rw [only record member] at shared
    rw [stackTable, (framedKept.tableAt_eq nativeTables_second).2.2] at found
    rw [stackTable, (framedKept.tableAt_eq nativeTables_first).2.2] at shared
    exact absurd (Option.some.inj (found.trans shared.symm)) (by decide)

/-- Two threads with page tables of their own have their stacks there. -/
theorem stacksPrivate_of_suited_two : ∃ last,
    last.threads = [⟨1, 0x120000, 0x130000⟩, ⟨0, 0x100000, 0x110000⟩] ∧
      last.root ⟨0, 0x100000, 0x110000⟩ = 0x60000 ∧ last.root ⟨1, 0x120000, 0x130000⟩ = 0x63000 ∧
      Run (Reaching StacksPrivate (Creates ⟨0, 0⟩)) ⟨nativeBoot, []⟩
        [⟨1, 0x140001000, 0x60000⟩, ⟨2, 0x140001000, 0x63000⟩] last := by
  obtain ⟨first, createsFirst, one⟩ := nativeBoot_made ⟨0, 0⟩ 1 0x140001000
  obtain ⟨last, createsSecond, two⟩ := exists_nativeMade ⟨0, 0⟩ 2 0x140001000 nativeTables_second
    one.kept one.frames (by rw [one.heap]; decide) one.places one.free one.bases
  refine ⟨last, ?_, ?_, two.root, stacksPrivate_of_suited ⟨0, 0⟩ _ _ _ _
    (.cons ⟨nativeBoot_suited ⟨0, 0⟩ 1 0x140001000, createsFirst⟩
      (.cons ⟨one.suited ⟨0, 0⟩ 2 0x140001000, createsSecond⟩ (.nil last)))⟩
  · rw [two.threads, one.threads]
  · rw [StackLedger.root, two.others 0 (by decide)]
    exact one.root

/-- A second thread with the page table of the first takes over its stack addresses. -/
theorem stacksPrivate_counterexample : ∃ last,
    Run (Creates ⟨0, 0⟩) ⟨nativeBoot, []⟩
      [⟨1, 0x140001000, 0x60000⟩, ⟨1, 0x140002000, 0x60000⟩] last ∧ ¬last.StacksPrivate := by
  obtain ⟨first, createsFirst, one⟩ := nativeBoot_made ⟨0, 0⟩ 1 0x140001000
  have inv : first.StackInv := by
    refine StackInv.creates ?_ (nativeBoot_suited ⟨0, 0⟩ 1 0x140001000) createsFirst
    exact ⟨nofun, nofun, nofun, nofun, nofun, nofun, List.Pairwise.nil⟩
  obtain ⟨last, createsSecond, two⟩ := exists_nativeMade ⟨0, 0⟩ 1 0x140002000 nativeTables_first
    one.kept one.frames (by rw [one.heap]; decide) one.places one.free one.bases
  refine ⟨last, .cons createsFirst (.cons createsSecond (.nil last)), fun isPrivate => ?_⟩
  have firstMember : (⟨0, 0x100000, 0x110000⟩ : StackRecord) ∈ first.threads := by
    rw [one.threads]
    exact List.mem_cons_self
  have member : (⟨0, 0x100000, 0x110000⟩ : StackRecord) ∈ last.threads := by
    rw [two.threads]
    exact List.mem_cons_of_mem _ firstMember
  have root : last.root ⟨0, 0x100000, 0x110000⟩ = 0x60000 := by
    rw [StackLedger.root, two.others 0 (by decide)]
    exact one.root
  have rsp : last.userRsp ⟨0, 0x100000, 0x110000⟩ = userStackVirt + userStackSize := by
    rw [userRsp, two.others 0 (by decide)]
    exact inv.rsp _ firstMember (by rw [one.root]; decide)
  have own := isPrivate.mapped _ member (by rw [root]; decide) userStackVirt (by rw [rsp]; decide)
    (by rw [rsp]; decide)
  obtain ⟨table, mapped⟩ := two.mapped
  have nonempty : 0 < userStackSize / 4096 * 4096 := by decide
  have taken := mapped.translate_eq stack_inTable (by decide) (by decide) (by decide) nonempty
  rw [root, rsp] at own
  rw [Nat.add_zero, own] at taken
  exact absurd (Option.some.inj taken) (by decide)

end StackLedger

end Aperture.Win32
