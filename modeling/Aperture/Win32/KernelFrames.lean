import Aperture.Machine.Run
import Aperture.Vfs.FileFrames
import Aperture.Win32.Loader
import Aperture.Win32.Nt

/-!
# Frames the kernel holds

`NtAllocateVirtualMemory` and `NtFreeVirtualMemory` between the kernel's own users of frames:
file data, page tables and images. All of them take frames from one bitmap; the only code that
clears bits is `free_virtual_memory`, for the range the guest names, and the only raw write is
the base that `handle_allocate_virtual_memory` stores at the address the guest names. The record of
the allocator and the tables of the file system are statics, so that such a write can reach them.
-/

namespace Aperture.Win32

open Machine Mm Vfs PageTable

/-- The kernel and the frames its own users hold. -/
structure Holding where
  /-- The kernel. -/
  nt : Nt
  /-- Indices of the frames with file data, page tables and images. -/
  held : List Nat

/-- The two memory calls with their argument registers, and the kernel's own users of frames. -/
inductive FrameUse where
  /-- `NtAllocateVirtualMemory`. -/
  | allocateVirtualMemory (args : SyscallArgs)
  /-- `NtFreeVirtualMemory`. -/
  | freeVirtualMemory (args : SyscallArgs)
  /-- `vfs::create`. -/
  | create (parent : Nat) (name : List UInt8) (kind : NodeKind)
  /-- `vfs::open`. -/
  | openFile (node : Nat) (writable : Bool)
  /-- `vfs::write`. -/
  | write (handle : Nat) (buf : List UInt8)
  /-- `PageTable::new`. -/
  | newTable
  /-- `PageTable::map`. -/
  | map (root virt phys flags : Nat)
  /-- `loader::allocate_contiguous`. -/
  | allocateContiguous (pages : Nat)

namespace Holding

/-- The frames marked in the second memory and not in the first. -/
def taken (frames : FrameAllocator) (before after : PhysMem) : List Nat :=
  (List.range frames.frameCount).filter fun index =>
    !frames.used before index && frames.used after index

/-- One of the kernel's own users has run: it holds what is marked since. -/
def takes (state : Holding) (after : Nt) : Holding where
  nt := after
  held := taken state.nt.frames state.nt.files.memory after.files.memory ++ state.held

/-- One call. -/
def apply (kernel : Nat) (state : Holding) : FrameUse → Except Panic Holding
  | .allocateVirtualMemory args => do
    let handled ← state.nt.handleAllocateVirtualMemory args
    return { state with nt := handled.after }
  | .freeVirtualMemory args => do
    let handled ← state.nt.handleFreeVirtualMemory args
    return { state with nt := handled.after }
  | .create parent name kind =>
    .ok (state.takes (state.nt.withFiles (state.nt.files.create parent name kind).2))
  | .openFile node writable => do
    let (_, files) ← state.nt.files.openFile node writable
    return state.takes (state.nt.withFiles files)
  | .write handle buf => do
    let (_, files) ← state.nt.files.write state.nt.frames handle buf
    return state.takes (state.nt.withFiles files)
  | .newTable =>
    .ok (state.takes (state.nt.withMemory (new state.nt.frames kernel state.nt.files.memory).2))
  | .map root virt phys flags =>
    .ok (state.takes (state.nt.withMemory
      (PageTable.map state.nt.frames state.nt.files.memory root virt phys flags).2))
  | .allocateContiguous pages =>
    match Win32.allocateContiguous state.nt.frames state.nt.files.memory pages with
    | (.error reason, _) => .error reason
    | (.ok _, memory) => .ok (state.takes (state.nt.withMemory memory))

/-- Pages of a size. -/
def pagesOf (size : Nat) : Nat := (size + 4095) / 4096

/-- A call that writes to the statics: its base goes there, or a table that it walks is there. -/
def Overwrites (statics : Span) (state : Holding) : FrameUse → Prop
  | .allocateVirtualMemory args => args 1 ≠ 0 ∧
    pagesOf (args 3).toNat ≤ state.nt.frames.freeFrames state.nt.files.memory ∧
      ¬(⟨(args 1).toNat, 8⟩ : Span).Separate statics
  | .map root virt _ _ => ∃ path, path <:+ pathOf virt ∧ ∃ table,
    tableAt state.nt.files.memory root path = some table ∧ ¬(page table).Separate statics
  | .freeVirtualMemory _ => False
  | .create _ _ _ => False
  | .openFile _ _ => False
  | .write _ _ => False
  | .newTable => False
  | .allocateContiguous _ => False

/-- A call that returns, with `FRAME_ALLOC` and the tables of the file system at `statics`. One that
writes there may leave any record and any tables. -/
def Step (kernel : Nat) (statics : Span) (before : Holding) (use : FrameUse) (after : Holding) :
    Prop :=
  ∃ applied, before.apply kernel use = .ok applied ∧
    (after = applied ∨ before.Overwrites statics use ∧ after.held = applied.held ∧
      after.nt.files.memory = applied.nt.files.memory)

/-- A frame the kernel holds, or one outside usable memory or under the bitmap. -/
def Reserved (regions : List MemoryRegion) (state : Holding) (index : Nat) : Prop :=
  index ∈ state.held ∨ ¬state.nt.frames.Allocatable regions index

/-- No reserved frame is free, and none is handed out. -/
structure Safe (regions : List MemoryRegion) (state : Holding) : Prop where
  /-- Reserved frames are marked. -/
  marked : ∀ index < state.nt.frames.frameCount, state.Reserved regions index →
    state.nt.frames.used state.nt.files.memory index = true
  /-- The next allocation returns another one. -/
  returned : ∀ frame memory,
    state.nt.frames.allocateFrame state.nt.files.memory = (some frame, memory) →
      ∃ index < state.nt.frames.frameCount, frame = state.nt.frames.frameAddr index ∧
        ¬state.Reserved regions index

/-- The condition on a call. The range of `NtFreeVirtualMemory` names no reserved frame; when
frames are left, the address for the base in `NtAllocateVirtualMemory` is off the bitmap and the
statics; and the tables that `map` walks are off both and no free frames. -/
def Respects (regions : List MemoryRegion) (statics : Span) (state : Holding) : FrameUse → Prop
  | .freeVirtualMemory args => ∀ i < pagesOf (args 1).toNat, ∀ index,
    state.nt.frames.freedIndex ((args 0).toNat + i * 4096) = some index →
      ¬state.Reserved regions index
  | .allocateVirtualMemory args => args 1 ≠ 0 →
    pagesOf (args 3).toNat ≤ state.nt.frames.freeFrames state.nt.files.memory →
      (⟨(args 1).toNat, 8⟩ : Span).Separate state.nt.frames.bitmapSpan ∧
        (⟨(args 1).toNat, 8⟩ : Span).Separate statics
  | .map root virt _ _ => WalksOff state.nt.frames state.nt.files.memory root virt ∧
    ∀ path, path <:+ pathOf virt → ∀ table,
      tableAt state.nt.files.memory root path = some table → (page table).Separate statics
  | .create _ _ _ => True
  | .openFile _ _ => True
  | .write _ _ => True
  | .newTable => True
  | .allocateContiguous _ => True

/-- What every such call keeps. -/
structure Sound (frames : FrameAllocator) (regions : List MemoryRegion) (state : Holding) :
    Prop where
  /-- The allocator's record never changes. -/
  frames_eq : state.nt.frames = frames
  /-- Reserved frames are marked. -/
  marked : ∀ index < frames.frameCount, state.Reserved regions index →
    frames.used state.nt.files.memory index = true
  /-- File data lies in frames that may be handed out. -/
  files : state.nt.files.InFrames frames regions

variable {frames : FrameAllocator} {regions : List MemoryRegion} {kernel : Nat} {statics : Span}
  {state after : Holding} {use : FrameUse} {uses : List FrameUse}

/-! ## Calls -/

/-- Only frames that may be handed out are free. -/
theorem Sound.allocatable (sound : state.Sound frames regions) :
    FileSystem.FreeAllocatable frames regions state.nt.files.memory := by
  intro index inside free
  by_contra unusable
  have reserved : state.Reserved regions index := .inr (by rw [sound.frames_eq]; exact unusable)
  rw [sound.marked index inside reserved] at free
  cases free

/-- Free frames avoid the bitmap. -/
theorem Sound.free_off_bitmap (sound : state.Sound frames regions) : ∀ index < frames.frameCount,
    frames.used state.nt.files.memory index = false →
      (frames.frameSpan index).Separate frames.bitmapSpan :=
  fun index inside free => (sound.allocatable index inside free).2

/-- Sound states are safe. -/
theorem Sound.safe (sound : state.Sound frames regions) (covers : frames.Covers) :
    state.Safe regions := by
  have framesEq := sound.frames_eq
  refine ⟨fun index inside reserved => ?_, fun frame memory returned => ?_⟩
  · rw [framesEq] at inside ⊢
    exact sound.marked index inside reserved
  · rw [framesEq] at returned ⊢
    obtain ⟨index, inside, address, free, _⟩ :=
      (FrameAllocator.allocateFrame_takes covers returned).2.2 frame rfl
    refine ⟨index, inside, address, fun reserved => ?_⟩
    rw [sound.marked index inside reserved] at free
    cases free

/-- A user of frames that releases none. -/
theorem Sound.takes (sound : state.Sound frames regions) {nt : Nt} (sameFrames : nt.frames = frames)
    (keeps : frames.Keeps state.nt.files.memory nt.files.memory)
    (files : nt.files.InFrames frames regions) : (state.takes nt).Sound frames regions := by
  refine ⟨sameFrames, fun index inside reserved => ?_, files⟩
  have before (wasReserved : state.Reserved regions index) :
      frames.used nt.files.memory index = true := keeps index inside
    (sound.marked index inside wasReserved)
  rcases reserved with held | unusable
  · rcases List.mem_append.mp held with new | old
    · have marked := (List.mem_filter.mp new).2
      rw [sound.frames_eq, Bool.and_eq_true] at marked
      exact marked.2
    · exact before (.inl old)
  · refine before (.inr ?_)
    rw [sound.frames_eq, ← sameFrames]
    exact unusable

/-- A call on the file system that leaves memory and frames alone. -/
theorem Sound.withFiles (sound : state.Sound frames regions) {files : FileSystem}
    (sameMemory : files.memory = state.nt.files.memory)
    (sameData : files.fileData = state.nt.files.fileData) :
    (state.takes (state.nt.withFiles files)).Sound frames regions := by
  refine sound.takes sound.frames_eq ?_ fun node slot frame here => ?_
  · intro index _ marked
    rw [← sameMemory] at marked
    exact marked
  · rw [Nt.withFiles, sameData] at here
    exact sound.files node slot frame here

/-- A memory call that leaves the bits of reserved frames set. -/
theorem Sound.calls (sound : state.Sound frames regions) {memory : PhysMem}
    (marked : ∀ index < frames.frameCount, state.Reserved regions index →
      frames.used memory index = true) :
    ({ state with nt := state.nt.withMemory memory } : Holding).Sound frames regions :=
  ⟨sound.frames_eq, marked, sound.files⟩

/-- The loop of `allocate_virtual_memory` releases nothing, and returns a base only while frames
are left. -/
theorem keeps_allocateFrames (covers : frames.Covers) (count base : Nat) (memory : PhysMem) :
    frames.Keeps memory (Nt.allocateFrames frames count base memory).2 ∧
      ((Nt.allocateFrames frames count base memory).1.isSome = true →
        count ≤ frames.freeFrames memory) := by
  induction count generalizing base memory with
  | zero => exact ⟨.refl _ _, fun _ => Nat.zero_le _⟩
  | succ count ih =>
    unfold Nt.allocateFrames
    cases returned : frames.allocateFrame memory with
    | mk result next =>
      have marks := FrameAllocator.keeps_allocateFrame covers returned
      cases result with
      | none => exact ⟨marks, fun some_ => by cases some_⟩
      | some frame =>
        obtain ⟨keeps, enough⟩ := ih (if base = 0 then frame else base) next
        refine ⟨marks.trans keeps, fun isSome => ?_⟩
        have left := enough isSome
        rcases FrameAllocator.freeFrames_allocateFrame covers returned with ⟨none, _⟩ | ⟨_, fewer⟩
        · cases none
        · omega

/-- The loop of `free_virtual_memory` clears the bits of the frames it names. -/
theorem used_freeFrames {base index : Nat} {pages : List Nat} {memory last : PhysMem}
    (others : ∀ i ∈ pages, frames.freedIndex (base + i * 4096) ≠ some index)
    (returned : Nt.freeFrames frames base pages memory = .ok last) :
    frames.used last index = frames.used memory index := by
  induction pages generalizing memory with
  | nil =>
    obtain rfl := Except.ok.inj returned
    rfl
  | cons i rest ih =>
    obtain ⟨frame, sum, returned⟩ := bind_eq_ok.mp returned
    obtain ⟨_, rfl⟩ := add64_eq_ok.mp sum
    rw [ih (fun j member => others j (List.mem_cons_of_mem _ member)) returned,
      frames.used_freeFrame memory (others i List.mem_cons_self)]

/-- The loop of `allocate_contiguous` releases nothing. -/
theorem keeps_allocateFollowing (covers : frames.Covers) (remaining last : Nat) (memory : PhysMem) :
    frames.Keeps memory (allocateFollowing frames remaining last memory).2 := by
  induction remaining generalizing last memory with
  | zero => exact .refl _ _
  | succ remaining ih =>
    unfold allocateFollowing
    cases returned : frames.allocateFrame memory with
    | mk result next =>
      have marks := FrameAllocator.keeps_allocateFrame covers returned
      cases result with
      | none => exact marks
      | some frame =>
        dsimp only
        split
        · exact marks
        · exact marks
        · exact marks.trans (ih frame next)

/-- `allocate_contiguous` releases nothing. -/
theorem keeps_allocateContiguous (covers : frames.Covers) (memory : PhysMem) (pages : Nat) :
    frames.Keeps memory (Win32.allocateContiguous frames memory pages).2 := by
  unfold Win32.allocateContiguous
  split
  · exact .refl _ _
  · cases returned : frames.allocateFrame memory with
    | mk result next =>
      have marks := FrameAllocator.keeps_allocateFrame covers returned
      cases result with
      | none => exact marks
      | some first =>
        have rest := keeps_allocateFollowing covers (pages - 1) first next
        dsimp only
        cases ended : allocateFollowing frames (pages - 1) first next with
        | mk outcome last =>
          rw [ended] at rest
          cases outcome with
          | error reason => exact marks.trans rest
          | ok complete =>
            cases complete with
            | false => exact marks.trans rest
            | true => exact marks.trans rest

/-- `allocate_virtual_memory` leaves what its loop leaves. -/
theorem allocateVirtualMemory_eq {nt next : Nt} {size : Nat} {base : Option Nat}
    (returned : nt.allocateVirtualMemory size = .ok (base, next)) :
    base = (Nt.allocateFrames nt.frames (pagesOf size) 0 nt.files.memory).1 ∧
      next = nt.withMemory (Nt.allocateFrames nt.frames (pagesOf size) 0 nt.files.memory).2 := by
  obtain ⟨rounded, sum, returned⟩ := bind_eq_ok.mp returned
  obtain ⟨_, rfl⟩ := add64_eq_ok.mp sum
  obtain ⟨rfl, rfl⟩ := Prod.mk.inj (Except.ok.inj returned)
  exact ⟨rfl, rfl⟩

/-- `NtAllocateVirtualMemory` with an address off the bitmap. -/
theorem Sound.allocateVirtualMemory (sound : state.Sound frames regions) (covers : frames.Covers)
    {args : SyscallArgs} {handled : Handled}
    (respects : state.Respects regions statics (.allocateVirtualMemory args))
    (returned : state.nt.handleAllocateVirtualMemory args = .ok handled) :
    ({ state with nt := handled.after } : Holding).Sound frames regions := by
  obtain ⟨⟨base, next⟩, allocated, returned⟩ := bind_eq_ok.mp returned
  obtain ⟨baseEq, rfl⟩ := allocateVirtualMemory_eq allocated
  have respects' : args 1 ≠ 0 →
      pagesOf (args 3).toNat ≤ state.nt.frames.freeFrames state.nt.files.memory →
        (⟨(args 1).toNat, 8⟩ : Span).Separate state.nt.frames.bitmapSpan :=
    fun nonnull enough => (respects nonnull enough).1
  rw [sound.frames_eq] at baseEq respects' returned
  obtain ⟨keeps, enough⟩ :=
    keeps_allocateFrames covers (pagesOf (args 3).toNat) 0 state.nt.files.memory
  generalize Nt.allocateFrames frames (pagesOf (args 3).toNat) 0 state.nt.files.memory = looped
    at baseEq keeps enough returned
  have marked (index : Nat) (inside : index < frames.frameCount)
      (reserved : state.Reserved regions index) : frames.used looped.2 index = true :=
    keeps index inside (sound.marked index inside reserved)
  cases base with
  | none =>
    obtain rfl := Except.ok.inj returned
    exact sound.calls marked
  | some base =>
    dsimp only at returned
    split at returned
    · obtain rfl := Except.ok.inj returned
      exact sound.calls marked
    · rename_i nonnull
      obtain ⟨_, _, returned⟩ := bind_eq_ok.mp returned
      obtain rfl := Except.ok.inj returned
      have apart := respects' nonnull (enough (by rw [← baseEq]; rfl))
      have stores : frames.Keeps looped.2 (looped.2.writeU64 (args 1).toNat base) :=
        FrameAllocator.keeps_of_span covers (.writeU64 _ _ fun _ member => member) apart
      exact sound.calls fun index inside reserved =>
        stores index inside (marked index inside reserved)

/-- `NtFreeVirtualMemory` of a range without reserved frames. -/
theorem Sound.freeVirtualMemory (sound : state.Sound frames regions) {args : SyscallArgs}
    {handled : Handled} (respects : state.Respects regions statics (.freeVirtualMemory args))
    (returned : state.nt.handleFreeVirtualMemory args = .ok handled) :
    ({ state with nt := handled.after } : Holding).Sound frames regions := by
  obtain ⟨next, freed, returned⟩ := bind_eq_ok.mp returned
  obtain rfl := Except.ok.inj returned
  obtain ⟨rounded, sum, freed⟩ := bind_eq_ok.mp freed
  obtain ⟨_, rfl⟩ := add64_eq_ok.mp sum
  obtain ⟨memory, looped, freed⟩ := bind_eq_ok.mp freed
  obtain rfl := Except.ok.inj freed
  refine sound.calls fun index inside reserved => ?_
  rw [← sound.frames_eq, used_freeFrames (fun i member named => ?_) looped, sound.frames_eq]
  · exact sound.marked index inside reserved
  · exact respects i (List.mem_range.mp member) index named reserved

/-- No call that meets the condition writes to the statics. -/
theorem Respects.off_statics (respects : state.Respects regions statics use) :
    ¬state.Overwrites statics use := by
  intro overwrites
  cases use with
  | allocateVirtualMemory args =>
    obtain ⟨nonnull, enough, together⟩ := overwrites
    exact together (respects nonnull enough).2
  | map root virt phys flags =>
    obtain ⟨path, onPath, table, found, together⟩ := overwrites
    exact together (respects.2 path onPath table found)
  | freeVirtualMemory args => exact overwrites
  | create parent name kind => exact overwrites
  | openFile node writable => exact overwrites
  | write handle buf => exact overwrites
  | newTable => exact overwrites
  | allocateContiguous pages => exact overwrites

/-- So its step is the call. -/
theorem Respects.applies (respects : state.Respects regions statics use)
    (step : Step kernel statics state use after) : state.apply kernel use = .ok after := by
  obtain ⟨applied, returned, rfl | ⟨overwrites, _⟩⟩ := step
  · exact returned
  · exact absurd overwrites respects.off_statics

/-- Every call that meets the condition keeps the state sound. -/
theorem Sound.step (sound : state.Sound frames regions) (placed : frames.Placed)
    (respects : state.Respects regions statics use) (step : Step kernel statics state use after) :
    after.Sound frames regions := by
  have framesEq := sound.frames_eq
  replace step := respects.applies step
  cases use with
  | allocateVirtualMemory args =>
    obtain ⟨handled, returned, ended⟩ := bind_eq_ok.mp step
    obtain rfl := Except.ok.inj ended
    exact sound.allocateVirtualMemory placed.covers respects returned
  | freeVirtualMemory args =>
    obtain ⟨handled, returned, ended⟩ := bind_eq_ok.mp step
    obtain rfl := Except.ok.inj ended
    exact sound.freeVirtualMemory respects returned
  | create parent name kind =>
    obtain rfl := Except.ok.inj step
    obtain ⟨sameMemory, sameData⟩ := state.nt.files.create_same parent name kind
    exact sound.withFiles sameMemory sameData
  | openFile node writable =>
    obtain ⟨⟨result, files⟩, returned, ended⟩ := bind_eq_ok.mp step
    obtain rfl := Except.ok.inj ended
    obtain ⟨sameMemory, sameData⟩ := FileSystem.openFile_same returned
    exact sound.withFiles sameMemory sameData
  | write handle buf =>
    obtain ⟨⟨result, files⟩, returned, ended⟩ := bind_eq_ok.mp step
    obtain rfl := Except.ok.inj ended
    rw [framesEq] at returned
    obtain ⟨inFrames, keeps⟩ := sound.files.write placed.covers sound.allocatable returned
    exact sound.takes framesEq keeps inFrames
  | newTable =>
    obtain rfl := Except.ok.inj step
    rw [framesEq]
    exact sound.takes framesEq (keeps_new placed.covers kernel sound.free_off_bitmap) sound.files
  | map root virt phys flags =>
    obtain rfl := Except.ok.inj step
    have walks := respects.1
    rw [framesEq] at walks ⊢
    exact sound.takes framesEq (keeps_map placed walks sound.free_off_bitmap phys flags)
      sound.files
  | allocateContiguous pages =>
    have keeps := keeps_allocateContiguous placed.covers state.nt.files.memory pages
    simp only [apply, framesEq] at step
    cases allocated : Win32.allocateContiguous frames state.nt.files.memory pages with
    | mk result memory =>
      rw [allocated] at step keeps
      cases result with
      | error reason => cases step
      | ok found =>
        obtain rfl := Except.ok.inj step
        exact sound.takes framesEq keeps sound.files

/-- For every memory map, every place of the statics, every kernel that starts with the allocator of
that map and without file data, and every run of the two memory calls with any arguments between the
kernel's own users of frames, each call of which meets the condition: no frame the kernel holds, no
frame of the bitmap and no frame outside usable memory is free or handed out. -/
theorem kernelFrames_safe {start : PhysMem} {nt : Nt}
    (initialized : FrameAllocator.init start regions = .ok (nt.frames, nt.files.memory))
    (noData : ∀ node slot, nt.files.fileData node slot = none)
    (run : Run (Guarded (Respects regions statics) (Step kernel statics)) ⟨nt, []⟩ uses state) :
    state.Safe regions := by
  obtain ⟨placed, _, bits⟩ := FrameAllocator.init_spec initialized
  have initially : (⟨nt, []⟩ : Holding).Sound nt.frames regions := by
    refine ⟨rfl, fun index inside reserved => ?_, fun node slot frame here => ?_⟩
    · rcases reserved with held | unusable
      · cases held
      · by_contra clear
        rw [Bool.not_eq_true] at clear
        exact unusable ((bits index inside).mp clear).1
    · rw [noData] at here
      cases here
  have reached := run.invariant (fun state => state.Sound nt.frames regions)
    (fun _ _ _ sound ⟨respects, step⟩ => sound.step placed respects step) initially
  exact reached.safe placed.covers

/-! ## Two runs -/

/-- A kernel over one usable mebibyte. -/
def mebibyteNt (memory : PhysMem) : Nt where
  files := .init memory
  objects := .init
  frames := FrameAllocator.mebibyteFrames
  scheduler := Scheduler.boot (fun _ => Thread.new 1 1 0) ⟨0, 0, 0⟩ ⟨0, 0, 0, 0⟩ ⟨fun _ => 0, []⟩

/-- The statics behind it. -/
def mebibyteStatics : Span := ⟨0x200000, 0x4000⟩

/-- A call that returns is a step. -/
theorem step_of_apply (returned : state.apply kernel use = .ok after) :
    Step kernel statics state use after := ⟨after, returned, .inl rfl⟩

/-- Arguments of `NtAllocateVirtualMemory` for one page, the base not asked for. -/
def pageArgs : SyscallArgs := ![0, 0, 0, 4096, 0, 0, 0, 0, 0, 0, 0, 0, 0, 0, 0, 0]

/-- Arguments of `NtFreeVirtualMemory` for one page. -/
def freeArgs (base : BitVec 64) : SyscallArgs :=
  ![base, 4096, 0, 0, 0, 0, 0, 0, 0, 0, 0, 0, 0, 0, 0, 0]

/-- With the frames up to `last` in use, the next one is taken. -/
theorem mebibyte_allocates {memory : PhysMem} (last : Nat) (inside : last + 1 < 256)
    (marked : ∀ index ≤ last, FrameAllocator.mebibyteFrames.used memory index = true)
    (free : ∀ index, last < index → index < 256 →
      FrameAllocator.mebibyteFrames.used memory index = false) :
    ∃ next, FrameAllocator.mebibyteFrames.allocateFrame memory =
        (some (FrameAllocator.mebibyteFrames.frameAddr (last + 1)), next) ∧
      ∀ index < 256, FrameAllocator.mebibyteFrames.used next index =
        (FrameAllocator.mebibyteFrames.used memory index || decide (index = last + 1)) := by
  have covers : FrameAllocator.mebibyteFrames.Covers := by
    unfold FrameAllocator.Covers
    decide
  obtain ⟨taken, next, below, wasFree, returned, bits⟩ :=
    FrameAllocator.allocateFrame_returns covers inside (free (last + 1) (by omega) inside)
  have isNext : taken = last + 1 := by
    by_contra other
    rw [marked taken (by omega)] at wasFree
    cases wasFree
  rw [isNext] at returned bits
  exact ⟨next, returned, bits⟩

/-- At boot the bitmap's frame is in use, and an image of one page gets the next one. -/
theorem mebibyteNt_image : ∃ memory next,
    FrameAllocator.init ⟨fun _ => 0, []⟩ FrameAllocator.mebibyteMap =
      .ok (FrameAllocator.mebibyteFrames, memory) ∧
    Step 0x1000 mebibyteStatics ⟨mebibyteNt memory, []⟩ (.allocateContiguous 1)
      ⟨mebibyteNt next, [1]⟩ ∧
    (∀ index ≤ 1, FrameAllocator.mebibyteFrames.used next index = true) ∧
    ∀ index, 1 < index → index < 256 → FrameAllocator.mebibyteFrames.used next index = false := by
  obtain ⟨memory, initialized, free⟩ := FrameAllocator.mebibyteMap_init ⟨fun _ => 0, []⟩
  have bitmapUsed := FrameAllocator.mebibyteMap_first initialized
  obtain ⟨next, returned, bits⟩ := mebibyte_allocates 0 (by decide)
    (fun index below => by rw [Nat.le_zero.mp below]; exact bitmapUsed) free
  have listed : taken FrameAllocator.mebibyteFrames memory next = [1] := by
    have same : ∀ index ∈ List.range 256, (!FrameAllocator.mebibyteFrames.used memory index &&
        FrameAllocator.mebibyteFrames.used next index) = decide (index = 1) := by
      intro index member
      rw [bits index (List.mem_range.mp member)]
      by_cases first : index = 1
      · rw [first, free 1 (by decide) (by decide)]
        rfl
      · simp [first]
    unfold taken
    rw [show FrameAllocator.mebibyteFrames.frameCount = 256 from rfl, List.filter_congr same]
    decide
  refine ⟨memory, next, initialized, ?_, fun index below => ?_, fun index above inside => ?_⟩
  · have allocated : Win32.allocateContiguous (mebibyteNt memory).frames
        (mebibyteNt memory).files.memory 1 = (.ok (some 0x101000), next) := by
      show Win32.allocateContiguous FrameAllocator.mebibyteFrames memory 1 = _
      simp only [Win32.allocateContiguous, returned]
      rfl
    have held : taken (mebibyteNt memory).frames (mebibyteNt memory).files.memory
        ((mebibyteNt memory).withMemory next).files.memory ++ [] = [1] := by
      rw [List.append_nil]
      exact listed
    apply step_of_apply
    simp only [apply, allocated, takes, held]
    rfl
  · rw [bits index (by omega)]
    by_cases first : index = 1
    · simp [first]
    · rw [show index = 0 by omega, bitmapUsed]
      rfl
  · rw [bits index inside, free index (by omega) inside]
    simp [show index ≠ 1 by omega]

/-- `NtFreeVirtualMemory` of one page clears the bit of its frame. -/
theorem mebibyteNt_frees {memory : PhysMem} {held : List Nat} {index : Nat} (inside : index < 256)
    {base : BitVec 64} (address : base.toNat = FrameAllocator.mebibyteFrames.frameAddr index) :
    Step 0x1000 mebibyteStatics ⟨mebibyteNt memory, held⟩ (.freeVirtualMemory (freeArgs base))
      ⟨mebibyteNt (FrameAllocator.mebibyteFrames.mark memory index false), held⟩ := by
  have rounded : add64 4096 4095 = .ok 8191 := rfl
  have frame : add64 base.toNat (0 * 4096) = .ok base.toNat :=
    add64_eq_ok.mpr ⟨by rw [Nat.zero_mul]; exact base.isLt, by omega⟩
  have pages : List.range (8191 / 4096) = [0] := rfl
  have size : (freeArgs base 1).toNat = 4096 := rfl
  have first : (freeArgs base 0).toNat = base.toNat := rfl
  have cleared : FrameAllocator.mebibyteFrames.freeFrame memory base.toNat =
      FrameAllocator.mebibyteFrames.mark memory index false := by
    rw [address]
    exact FrameAllocator.freeFrame_frameAddr inside
  have loop : Nt.freeFrames (mebibyteNt memory).frames base.toNat [0]
      (mebibyteNt memory).files.memory =
        .ok (FrameAllocator.mebibyteFrames.mark memory index false) := by
    rw [← cleared]
    simp only [Nt.freeFrames, frame, ok_bind]
    rfl
  apply step_of_apply
  simp only [apply, Nt.handleFreeVirtualMemory, Nt.freeVirtualMemory, size, first, rounded, ok_bind,
    pages, loop]
  rfl

/-- An image's frame and a guest's: the guest gives its own back. -/
theorem kernelFrames_safe_guest : ∃ memory last,
    FrameAllocator.init ⟨fun _ => 0, []⟩ FrameAllocator.mebibyteMap =
      .ok (FrameAllocator.mebibyteFrames, memory) ∧
    Run (Guarded (Respects FrameAllocator.mebibyteMap mebibyteStatics)
        (Step 0x1000 mebibyteStatics)) ⟨mebibyteNt memory, []⟩
      [.allocateContiguous 1, .allocateVirtualMemory pageArgs,
        .freeVirtualMemory (freeArgs 0x102000)] last ∧
    last.held = [1] ∧ last.Safe FrameAllocator.mebibyteMap := by
  obtain ⟨memory, next, initialized, image, marked, free⟩ := mebibyteNt_image
  obtain ⟨third, returned, bits⟩ := mebibyte_allocates 1 (by decide) marked free
  have allocates : Step 0x1000 mebibyteStatics ⟨mebibyteNt next, [1]⟩
      (.allocateVirtualMemory pageArgs) ⟨mebibyteNt third, [1]⟩ := by
    have allocated : (mebibyteNt next).allocateVirtualMemory (pageArgs 3).toNat =
        .ok (some 0x102000, mebibyteNt third) := by
      have loop : Nt.allocateFrames FrameAllocator.mebibyteFrames 1 0 next =
          (some 0x102000, third) := by
        simp only [Nt.allocateFrames, returned]
        rfl
      have size : (pageArgs 3).toNat = 4096 := rfl
      have rounded : add64 4096 4095 = .ok 8191 := rfl
      have pages : 8191 / 4096 = 1 := rfl
      have framesEq : (mebibyteNt next).frames = FrameAllocator.mebibyteFrames := rfl
      have memoryEq : (mebibyteNt next).files.memory = next := rfl
      simp only [Nt.allocateVirtualMemory, size, rounded, ok_bind, pages, framesEq, memoryEq, loop]
      rfl
    apply step_of_apply
    simp only [apply, Nt.handleAllocateVirtualMemory, allocated, ok_bind]
    rfl
  have frees : Step 0x1000 mebibyteStatics ⟨mebibyteNt third, [1]⟩
      (.freeVirtualMemory (freeArgs 0x102000))
      ⟨mebibyteNt (FrameAllocator.mebibyteFrames.mark third 2 false), [1]⟩ :=
    mebibyteNt_frees (show 2 < 256 by decide) rfl
  have unreserved : ¬(⟨mebibyteNt third, [1]⟩ : Holding).Reserved FrameAllocator.mebibyteMap 2 := by
    have usable : FrameAllocator.mebibyteFrames.Allocatable FrameAllocator.mebibyteMap 2 :=
      ⟨⟨_, List.mem_cons_self, by decide⟩, by decide⟩
    rintro (held | unusable)
    · exact absurd (List.mem_singleton.mp held) (by decide)
    · exact unusable usable
  have named : FrameAllocator.mebibyteFrames.freedIndex 0x102000 = some 2 := rfl
  have run : Run (Guarded (Respects FrameAllocator.mebibyteMap mebibyteStatics)
      (Step 0x1000 mebibyteStatics)) ⟨mebibyteNt memory, []⟩
      [.allocateContiguous 1, .allocateVirtualMemory pageArgs,
        .freeVirtualMemory (freeArgs 0x102000)]
      ⟨mebibyteNt (FrameAllocator.mebibyteFrames.mark third 2 false), [1]⟩ := by
    refine .cons ⟨trivial, image⟩ (.cons ⟨fun nonnull => absurd rfl nonnull, allocates⟩
      (.cons ⟨fun i below index found => ?_, frees⟩ (.nil _)))
    have first : i = 0 := Nat.lt_one_iff.mp below
    rw [first] at found
    obtain rfl := Option.some.inj (named.symm.trans found)
    exact unreserved
  exact ⟨memory, _, initialized, run, rfl, kernelFrames_safe initialized (fun _ _ => rfl) run⟩

/-- The guest frees the frame of an image, and the next allocation returns it. -/
theorem kernelFrames_freed : ∃ memory last next,
    FrameAllocator.init ⟨fun _ => 0, []⟩ FrameAllocator.mebibyteMap =
      .ok (FrameAllocator.mebibyteFrames, memory) ∧
    Run (Step 0x1000 mebibyteStatics) ⟨mebibyteNt memory, []⟩
      [.allocateContiguous 1, .freeVirtualMemory (freeArgs 0x101000)] last ∧
    last.held = [1] ∧ last.nt.frames.frameAddr 1 = 0x101000 ∧
    last.nt.frames.used last.nt.files.memory 1 = false ∧
    last.nt.frames.allocateFrame last.nt.files.memory = (some 0x101000, next) ∧
    ¬last.Safe FrameAllocator.mebibyteMap := by
  obtain ⟨memory, image, initialized, allocates, marked, free⟩ := mebibyteNt_image
  have frees : Step 0x1000 mebibyteStatics ⟨mebibyteNt image, [1]⟩
      (.freeVirtualMemory (freeArgs 0x101000))
      ⟨mebibyteNt (FrameAllocator.mebibyteFrames.mark image 1 false), [1]⟩ :=
    mebibyteNt_frees (show 1 < 256 by decide) rfl
  have bits (index : Nat) : FrameAllocator.mebibyteFrames.used
      (FrameAllocator.mebibyteFrames.mark image 1 false) index =
        if index = 1 then false else FrameAllocator.mebibyteFrames.used image index :=
    FrameAllocator.used_mark _ _ _ _ _
  have clear := (bits 1).trans (if_pos rfl)
  have lowMarked (index : Nat) (below : index ≤ 0) : FrameAllocator.mebibyteFrames.used
      (FrameAllocator.mebibyteFrames.mark image 1 false) index = true := by
    rw [bits, if_neg (by omega), marked index (by omega)]
  have highFree (index : Nat) (above : 0 < index) (inside : index < 256) :
      FrameAllocator.mebibyteFrames.used
        (FrameAllocator.mebibyteFrames.mark image 1 false) index = false := by
    rw [bits]
    split
    · rfl
    · exact free index (by omega) inside
  obtain ⟨next, returned, _⟩ := mebibyte_allocates 0 (by decide) lowMarked highFree
  refine ⟨memory, _, next, initialized, .cons allocates (.cons frees (.nil _)), rfl, rfl, clear,
    returned, fun safe => ?_⟩
  have inside : 1 < FrameAllocator.mebibyteFrames.frameCount := by decide
  have used := safe.marked 1 inside (.inl List.mem_cons_self)
  exact absurd (clear.symm.trans used) (by decide)

end Holding

end Aperture.Win32
