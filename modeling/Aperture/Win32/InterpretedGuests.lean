import Aperture.Pe.Format
import Aperture.Win32.LoadedImage
import Aperture.Win32.UserProcess
import Aperture.Win32.UserStacks

/-!
# Interpreted guests

The interpreter takes every guest address as it is, and the handlers do so while the page table
root of the running thread is zero. `load_pe` reports whether a guest needs the interpreter, but
builds its page table whatever the answer: the root is zero only when no frame is left for a table.
-/

namespace Aperture.Win32

open Machine Mm Pe

namespace Scheduler

/-- The user stack pointer of a new thread. -/
theorem userStack_rsp {s : Scheduler} {cr3 userBase userRsp : Nat} {memory : PhysMem}
    (returned : s.userStack cr3 userBase = .ok (userRsp, memory)) :
    userRsp = if cr3 = 0 then userBase + userStackSize else userStackVirt + userStackSize := by
  obtain ⟨top, summed, returned⟩ := bind_eq_ok.mp returned
  by_cases interpreted : cr3 = 0
  · rw [if_pos interpreted] at returned ⊢
    exact (Prod.mk.inj (pure_eq_ok.mp returned)).1.symm.trans (add64_eq_ok.mp summed).2
  · rw [if_neg interpreted] at returned ⊢
    split at returned
    · cases returned
    · exact (Prod.mk.inj (pure_eq_ok.mp returned)).1.symm

/-- A thread that `create_thread` returns has the given page table, and its user stack pointer is
the end of its allocation or of a fixed address, as the page table says. -/
theorem createThread_eq_some {s made : Scheduler} {pid entryPoint cr3 slot : Nat}
    (returned : s.createThread pid entryPoint cr3 = .ok (some slot, made)) :
    ∃ kstackBase ustackBase, stackBases s.heap = some (kstackBase, ustackBase) ∧
      slot < maxThreads ∧ (made.storage slot).processPageTableRoot = cr3 ∧
      (made.storage slot).userRsp =
        if cr3 = 0 then ustackBase + userStackSize else userStackVirt + userStackSize := by
  obtain ⟨isNone, -⟩ | ⟨other, kstackBase, ustackBase, created, on, rfl, result⟩ :=
    createThread_inversion returned
  · cases isNone
  have same : other = slot := by
    split at result
    · exact (Option.some.inj result).symm
    · cases result
  obtain ⟨thread, stored, -, -, -, root, -⟩ := on.storage
  have kept := (enqueueThread_only created other).1
  have small := (position_eq_some.mp on.free).1
  rw [← same]
  refine ⟨kstackBase, ustackBase, on.bases, small, ?_, ?_⟩
  · rw [kept, stored, Function.update_self, root]
  · rw [kept, userStack_rsp on.userStack]

end Scheduler

namespace Nt

variable {nt after running : Nt} {layout : Nat → Process → List UInt8} {kernelCr3 pid : Nat}
  {data : List UInt8} {handle : Handle} {translates : Bool}

/-- What a successful `load_pe` did: the image it parsed, the memory when `load_into_process`
started, and the process that it stored. -/
structure LoadRecord (layout : Nat → Process → List UInt8) (kernelCr3 : Nat) (nt : Nt)
    (data : List UInt8) (pid : Nat) (after : Nt) (image : PeImage) (start : PhysMem)
    (process : Process) : Prop where
  /-- The image. -/
  parsed : parsePe data = .ok (some image)
  /-- The load. -/
  loaded : ∃ last, loadIntoProcess nt.frames kernelCr3 image ⟨0, 0, 0, 0⟩ data (.start start) =
    (.ok true, process, last)
  /-- The process lies in the early heap and has an object. -/
  stored : ∃ pointer heap slot, nt.scheduler.heap.allocate processSize processAlign =
      .ok (some pointer, heap) ∧
    start = nt.files.memory.copyIn pointer (layout pid ⟨0, 0, 0, 0⟩) ∧
    after.objects.table slot = some ⟨.process, UInt64.ofNat pointer⟩ ∧
    after.files.memory.readBytes pointer (layout pid process).length = layout pid process

/-- A load that returns a handle has such a record, and reports what the image's machine needs. -/
theorem loadPe_eq_some
    (returned : nt.loadPe layout kernelCr3 data pid = .ok (some (handle, translates), after)) :
    ∃ image start process, LoadRecord layout kernelCr3 nt data pid after image start process ∧
      translates = requiresTranslation image.machine := by
  obtain ⟨parsed, parses, returned⟩ := bind_eq_ok.mp returned
  cases parsed with
  | none => cases returned
  | some image =>
    obtain ⟨⟨pointer, middle⟩, allocating, returned⟩ := bind_eq_ok.mp returned
    obtain ⟨⟨place, heap⟩, allocated, same⟩ := bind_eq_ok.mp allocating
    obtain ⟨rfl, rfl⟩ := Prod.mk.inj (pure_eq_ok.mp same)
    cases place with
    | none => cases returned
    | some pointer =>
      obtain ⟨_, _, returned⟩ := bind_eq_ok.mp returned
      dsimp only at returned
      split at returned
      · cases returned
      · rename_i loaded process last loads
        split at returned
        · cases returned
        · rename_i isLoaded
          obtain rfl : loaded = true := by simpa using isLoaded
          split at returned
          · cases returned
          · rename_i stored objects storing
            obtain ⟨result, rfl⟩ := Prod.mk.inj (pure_eq_ok.mp returned)
            obtain ⟨rfl, rfl⟩ := Prod.mk.inj (Option.some.inj result)
            obtain ⟨isNone, -⟩ | ⟨slot, -, -, -, table⟩ := Objects.allocate_cases storing
            · cases isNone
            refine ⟨image, _, process, ⟨parses, ⟨last, loads⟩, pointer, heap, slot, allocated, rfl,
              ?_, PhysMem.readBytes_copyIn _ _ _⟩, rfl⟩
            dsimp only
            rw [table, Function.update_self]

/-- With room for the process, an image that loads and room for the object, `load_pe` returns a
handle. -/
theorem loadPe_returns {image : PeImage} {pointer : Nat} {heap : BumpAllocator} {process : Process}
    {last : Loading} {objects : Objects} (parsed : parsePe data = .ok (some image))
    (allocated : nt.scheduler.heap.allocate processSize processAlign = .ok (some pointer, heap))
    (nonnull : pointer ≠ 0) (loads : loadIntoProcess nt.frames kernelCr3 image ⟨0, 0, 0, 0⟩ data
      (.start (nt.files.memory.copyIn pointer (layout pid ⟨0, 0, 0, 0⟩))) =
        (.ok true, process, last))
    (stored : nt.objects.allocate .process (UInt64.ofNat pointer) = (some handle, objects)) :
    ∃ after, nt.loadPe layout kernelCr3 data pid =
        .ok (some (handle, requiresTranslation image.machine), after) ∧
      after.scheduler = { nt.scheduler with heap } := by
  have place : nt.allocEarly processSize processAlign =
      .ok (some pointer, { nt with scheduler := { nt.scheduler with heap } }) := by
    rw [allocEarly, allocated]
    rfl
  have placed : checkSlice pointer processSize = .ok () :=
    checkSlice_eq_ok.mpr ⟨nonnull, by decide⟩
  unfold Loading.start at loads
  simp only [loadPe, parsed, place, ok_bind, placed, loads, Bool.not_true, Bool.false_eq_true,
    ↓reduceIte, withMemory, withFiles, stored]
  exact ⟨_, rfl, rfl⟩

/-- The thread of a slot runs, with the page table that it was made with. -/
structure Runs (nt : Nt) (slot : Nat) (thread : Thread) : Prop where
  /-- It is the current thread. -/
  current : nt.scheduler.current = some slot
  /-- Its page table is the same. -/
  root : (nt.scheduler.storage slot).processPageTableRoot = thread.processPageTableRoot

/-- A guest has one address space: what the interpreter dereferences as an address, the handlers
take to be at that address, and the user stack pointer is the top of the stack's allocation. -/
structure OneSpace (nt : Nt) (thread : Thread) (ustackBase : Nat) : Prop where
  /-- Addresses stand for themselves. -/
  resolved : ∀ a, a ≠ 0 → a < wordSize → nt.userPtrToPhys a = some a
  /-- The stack is where it was allocated. -/
  stack : thread.userRsp = ustackBase + userStackSize

/-- The handlers take every address as it is exactly for the root 0. -/
theorem resolved_iff (nt : Nt) :
    (∀ a, a ≠ 0 → a < wordSize → nt.userPtrToPhys a = some a) ↔ nt.processPageTableRoot = 0 := by
  constructor
  · intro resolved
    by_contra native
    obtain ⟨a, nonzero, fits, differ⟩ :=
      PageTable.exists_translate_ne nt.files.memory nt.processPageTableRoot
    have same := resolved a nonzero fits
    rw [userPtrToPhys, if_neg nonzero, if_neg native] at same
    exact differ same
  · intro interpreted a nonzero fits
    rw [userPtrToPhys, if_neg nonzero, if_pos interpreted]

/-- A running thread gives its page table. -/
theorem Runs.root_eq {slot : Nat} {thread : Thread} (runs : running.Runs slot thread)
    (small : slot < maxThreads) : running.processPageTableRoot = thread.processPageTableRoot := by
  rw [processPageTableRoot, runs.current]
  dsimp only
  rw [if_pos small, runs.root]

/-- A guest that needs the interpreter has one address space exactly when its image took the last
free frames, so that none was left for a page table; otherwise its user stack pointer is that of a
native thread. -/
theorem oneSpace_iff (covers : nt.frames.Covers)
    (returned : nt.loadPe layout kernelCr3 data pid = .ok (some (handle, true), after)) :
    ∃ image start process, LoadRecord layout kernelCr3 nt data pid after image start process ∧
      image.machine ≠ hostMachine ∧
      ∀ (s made : Scheduler) (owner entryPoint slot : Nat) (running : Nt),
        s.createThread owner entryPoint process.pageTableRoot = .ok (some slot, made) →
        running.Runs slot (made.storage slot) →
        ∃ kstackBase ustackBase, Scheduler.stackBases s.heap = some (kstackBase, ustackBase) ∧
          (running.OneSpace (made.storage slot) ustackBase ↔
            nt.frames.freeFrames start = totalPages image) ∧
          (nt.frames.freeFrames start ≠ totalPages image →
            (made.storage slot).userRsp = userStackVirt + userStackSize) := by
  obtain ⟨image, start, process, record, needs⟩ := loadPe_eq_some returned
  obtain ⟨last, loads⟩ := record.loaded
  have rootless := pageTableRoot_eq_zero_iff covers loads
  refine ⟨image, start, process, record, of_decide_eq_true needs.symm, ?_⟩
  intro s made owner entryPoint slot running creates runs
  obtain ⟨kstackBase, ustackBase, bases, small, root, rsp⟩ :=
    Scheduler.createThread_eq_some creates
  have isRoot := (runs.root_eq small).trans root
  refine ⟨kstackBase, ustackBase, bases, ⟨fun one => ?_, fun exhausted => ?_⟩, fun left => ?_⟩
  · apply rootless.mp
    rw [← isRoot]
    exact (resolved_iff running).mp one.resolved
  · have none := rootless.mpr exhausted
    rw [if_pos none] at rsp
    rw [none] at isRoot
    exact ⟨(resolved_iff running).mpr isRoot, rsp⟩
  · rwa [if_neg fun none => left (rootless.mp none)] at rsp

/-! ## An ARM64 guest -/

/-- `build_pe` for ARM64, with a text of returns. -/
def armFile : PeFile :=
  { buildPe (List.replicate 128 [0xC0, 0x03, 0x5F, 0xD6]).flatten with machine := .arm64 }

/-- What the parser reads from it. -/
def armImage : PeImage where
  machine := .arm64
  entryPoint := 0x140001000
  imageBase := 0x140000000
  imageSize := 0x2000
  isDll := false
  numSections := 1
  sectionTableOffset := 0x148
  dataDirectoryOffset := 0xC4
  numDataDirectories := 0

/-- Its section. -/
def armHeader : SectionHeader :=
  ⟨[0x2E, 0x74, 0x65, 0x78, 0x74, 0, 0, 0], 0x1000, 0x1000, 512, 0x200⟩

/-- A process in eight words. -/
def processWords (pid : Nat) (process : Process) : List UInt8 :=
  [pid, 0, 0, 0, process.imageBase, process.imageSize, process.entryPoint,
    process.pageTableRoot].flatMap (leBytes 8)

/-- A kernel at boot with half a mebibyte of heap and so many frames, the first of which holds the
bitmap. -/
def bootWith (frameCount : Nat) : Nt :=
  let frames : FrameAllocator := ⟨0x200000, frameCount, 0x200000, 1⟩
  let memory : PhysMem := ⟨fun address => if address = 0x200000 then 1 else 0, []⟩
  { files := .init memory
    objects := .init
    frames := frames
    scheduler := .boot (fun _ => Thread.new 0 0 0) (.initHeap 0x100000 0x180000) frames memory }

/-- Memory when its first process is loaded. -/
def bootStart : PhysMem :=
  (bootWith 0).files.memory.copyIn 0x100000 (processWords 1 ⟨0, 0, 0, 0⟩)

/-- Its allocator is placed as `init` places one. -/
theorem bootWith_placed {frameCount : Nat} (nonempty : 0 < frameCount) (few : frameCount ≤ 64) :
    (bootWith frameCount).frames.Placed := by
  refine ⟨?_, rfl, ?_, ?_⟩
  · simp only [bootWith]
  · simp only [bootWith]
    omega
  · simp only [bootWith, wordSize]
    omega

/-- The first process is allocated at the start of the heap. -/
theorem bootWith_allocates : (BumpAllocator.initHeap 0x100000 0x180000).allocate processSize
    processAlign = .ok (some 0x100000, ⟨0x100000, 0x100040, 0x180000⟩) := by decide

/-- The guest is loaded into the frames behind the bitmap. -/
theorem arm_loads {frameCount : Nat} (enough : 3 ≤ frameCount) (few : frameCount ≤ 64) :
    ∃ after, (bootWith frameCount).loadPe processWords 0x180000 armFile.encode 1 =
      .ok (some (1, true), after) ∧
      after.scheduler =
        { (bootWith frameCount).scheduler with heap := ⟨0x100000, 0x100040, 0x180000⟩ } := by
  have parsed : parsePe armFile.encode = .ok (some armImage) := by decide +kernel
  have found : sectionHeader armImage armFile.encode 0 = .ok (some armHeader) := by decide +kernel
  generalize armFile.encode = data at parsed found ⊢
  have placed := bootWith_placed (by omega) few
  have bits (index : Nat) : (bootWith frameCount).frames.used bootStart index =
      (bootWith 0).frames.used bootStart index := rfl
  have run : FreeRun (bootWith frameCount).frames bootStart 1 (totalPages armImage) := by
    refine ⟨enough, fun index below => ?_, fun index above below => ?_⟩
    · rw [bits, Nat.lt_one_iff.mp below]
      decide +kernel
    · have pages : totalPages armImage = 2 := rfl
      have cases : index = 1 ∨ index = 2 := by omega
      rw [bits]
      rcases cases with rfl | rfl
      · decide +kernel
      · decide +kernel
  obtain ⟨taken, allocated⟩ := run.allocateContiguous placed (by decide)
  have address : (bootWith frameCount).frames.frameAddr 1 = 0x201000 := rfl
  have fits (i : Nat) (small : i < armImage.numSections) : ∃ header,
      sectionHeader armImage data i = .ok (some header) ∧
      (bootWith frameCount).frames.frameAddr 1 + header.virtualAddress + header.virtualSize <
        wordSize ∧
      armImage.imageBase + header.virtualAddress < wordSize := by
    obtain rfl : i = 0 := Nat.lt_one_iff.mp small
    rw [address]
    exact ⟨armHeader, found, by decide, by decide⟩
  obtain ⟨process, last, loads, -⟩ := loadIntoProcess_returns ⟨0, 0, 0, 0⟩ allocated fits
    (by rw [address]; decide)
  have firstSlot : position maxHandles (fun slot => (Objects.init.table slot).isNone) = some 0 :=
    position_eq_some.mpr ⟨by decide, rfl, fun other below => absurd below (Nat.not_lt_zero other)⟩
  have stored : (bootWith frameCount).objects.allocate .process (UInt64.ofNat 0x100000) =
      (some 1, ⟨Function.update Objects.init.table 0 (some ⟨.process, 0x100000⟩), 2⟩) := by
    show Objects.init.allocate .process (UInt64.ofNat 0x100000) = _
    rw [Objects.allocate, firstSlot]
    rfl
  exact loadPe_returns parsed bootWith_allocates (by decide) loads stored

/-- The record of its load. -/
theorem LoadRecord.arm {frameCount : Nat} {image : PeImage} {start : PhysMem} {process : Process}
    (record : LoadRecord processWords 0x180000 (bootWith frameCount) armFile.encode 1 after image
      start process) : image = armImage ∧ start = bootStart := by
  have parsed : parsePe armFile.encode = .ok (some armImage) := by decide +kernel
  obtain ⟨pointer, heap, slot, allocated, startEq, -⟩ := record.stored
  have sameImage := record.parsed.symm.trans parsed
  have samePlace := allocated.symm.trans bootWith_allocates
  rw [Except.ok.injEq, Option.some.injEq] at sameImage
  rw [Except.ok.injEq, Prod.mk.injEq, Option.some.injEq] at samePlace
  rw [samePlace.1] at startEq
  exact ⟨sameImage, startEq⟩

/-- A first thread is made for it, and can run. -/
theorem arm_runs {frameCount : Nat}
    (scheduler : after.scheduler =
      { (bootWith frameCount).scheduler with heap := ⟨0x100000, 0x100040, 0x180000⟩ })
    (entryPoint root : Nat) : ∃ made running,
      after.scheduler.createThread 1 entryPoint root = .ok (some 0, made) ∧
      Scheduler.stackBases after.scheduler.heap = some (0x100040, 0x111000) ∧
      Runs running 0 (made.storage 0) := by
  have places : after.scheduler.Places [] := by
    rw [scheduler]
    exact Scheduler.boot_places _ _ _ _
  have free : after.scheduler.allocThreadSlot = some 0 := by
    rw [scheduler]
    exact position_eq_some.mpr ⟨by decide, rfl, by simp⟩
  have bases : Scheduler.stackBases after.scheduler.heap = some (0x100040, 0x111000) := by
    rw [scheduler]
    dsimp only
    decide
  obtain ⟨made, -, creates, -⟩ := places.createThread 1 entryPoint root free bases
  exact ⟨_, { after with scheduler := { (made.enqueueThread 0).2 with current := some 0 } },
    creates, bases, rfl, rfl⟩

/-- With three frames the guest has one address space. -/
theorem oneSpace_iff_last_frames : ∃ after process made running,
    (bootWith 3).loadPe processWords 0x180000 armFile.encode 1 = .ok (some (1, true), after) ∧
    LoadRecord processWords 0x180000 (bootWith 3) armFile.encode 1 after armImage bootStart
      process ∧
    after.scheduler.createThread 1 process.entryPoint process.pageTableRoot =
      .ok (some 0, made) ∧
    Runs running 0 (made.storage 0) ∧ OneSpace running (made.storage 0) 0x111000 := by
  obtain ⟨after, returned, scheduler⟩ := arm_loads (show 3 ≤ 3 by decide) (by decide)
  have covers := (bootWith_placed (show 0 < 3 by decide) (by decide)).covers
  obtain ⟨image, start, process, record, -, each⟩ := oneSpace_iff covers returned
  obtain ⟨rfl, rfl⟩ := record.arm
  obtain ⟨made, running, creates, bases, runs⟩ :=
    arm_runs scheduler process.entryPoint process.pageTableRoot
  obtain ⟨kstackBase, ustackBase, sameBases, oneSpace, -⟩ := each _ made 1 _ 0 running creates runs
  obtain ⟨-, rfl⟩ := Prod.mk.inj (Option.some.inj (sameBases.symm.trans bases))
  have exhausted : (bootWith 3).frames.freeFrames bootStart = totalPages armImage := by
    decide +kernel
  exact ⟨after, process, made, running, returned, record, creates, runs, oneSpace.mpr exhausted⟩

/-- With a fourth frame it has a page table: its user stack pointer is not the top of its stack, and
the handlers walk the table. -/
theorem oneSpace_counterexample : ∃ after process made running,
    (bootWith 4).loadPe processWords 0x180000 armFile.encode 1 = .ok (some (1, true), after) ∧
    LoadRecord processWords 0x180000 (bootWith 4) armFile.encode 1 after armImage bootStart
      process ∧
    after.scheduler.createThread 1 process.entryPoint process.pageTableRoot =
      .ok (some 0, made) ∧
    Scheduler.stackBases after.scheduler.heap = some (0x100040, 0x111000) ∧
    Runs running 0 (made.storage 0) ∧
    (made.storage 0).userRsp = 0x80000 ∧ 0x80000 ≠ 0x111000 + userStackSize ∧
    ¬OneSpace running (made.storage 0) 0x111000 := by
  obtain ⟨after, returned, scheduler⟩ := arm_loads (show 3 ≤ 4 by decide) (by decide)
  have covers := (bootWith_placed (show 0 < 4 by decide) (by decide)).covers
  obtain ⟨image, start, process, record, -⟩ := loadPe_eq_some returned
  obtain ⟨rfl, rfl⟩ := record.arm
  obtain ⟨last, loads⟩ := record.loaded
  obtain ⟨made, running, creates, bases, runs⟩ :=
    arm_runs scheduler process.entryPoint process.pageTableRoot
  have left : (bootWith 4).frames.freeFrames bootStart ≠ totalPages armImage := by decide +kernel
  have rooted : process.pageTableRoot ≠ 0 := (pageTableRoot_eq_zero_iff covers loads).not.mpr left
  obtain ⟨_, _, _, _, _, rsp⟩ := Scheduler.createThread_eq_some creates
  rw [if_neg rooted] at rsp
  have elsewhere : 0x80000 ≠ 0x111000 + userStackSize := by decide
  refine ⟨after, process, made, running, returned, record, creates, bases, runs, rsp, elsewhere,
    fun one => ?_⟩
  exact elsewhere (rsp.symm.trans one.stack)

end Nt

end Aperture.Win32
