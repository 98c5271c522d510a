import Aperture.Mm.FrameOwnership
import Aperture.Mm.Heap

/-!
# Two allocators over one memory map

`kernel_main` gives all regions to the frame allocator and then opens the early
heap on the first large usable region, which the frame allocator also manages.
A heap range is safe for good exactly when it avoids the bitmap and every page
the frame allocator can hand out; otherwise enough `allocate` calls return a
frame inside it.
-/

namespace Aperture.Mm

open Machine

/-- The two allocators after start-up, over one memory. -/
structure Boot where
  /-- Physical memory, the bitmap included. -/
  memory : PhysMem
  /-- `FRAME_ALLOC`. -/
  frames : FrameAllocator
  /-- `BUMP_ALLOC`. -/
  heap : BumpAllocator

/-- The search of `kernel_main` for the first usable region of 1 MiB or more. -/
def findHeapRegion : List MemoryRegion → Except Panic (Option MemoryRegion)
  | [] => pure none
  | region :: regions =>
    if region.kind = .usable then do
      let size ← sub64 region.stop region.start
      if 0x100000 ≤ size then pure (some region) else findHeapRegion regions
    else findHeapRegion regions

/-- Memory start-up of `kernel_main`: the first 64 regions go to `init_physical_allocator`,
then `init_heap` takes the region found before. -/
def kernelMain (memory : PhysMem) (regions : List MemoryRegion) : Except Panic Boot := do
  let usable ← findHeapRegion regions
  let (frames, memory) ← FrameAllocator.init memory (regions.take 64)
  match usable with
  | some region => pure ⟨memory, frames, .initHeap region.start region.stop⟩
  | none => pure ⟨memory, frames, .new⟩

/-- Calls on the two allocators. -/
inductive BootOp where
  /-- `alloc_early`. -/
  | allocEarly (size align : Nat)
  /-- `frame_allocator::allocate`. -/
  | allocate
  deriving DecidableEq

/-- The allocators and everything they have returned, newest first. -/
structure Grants where
  /-- Current allocators. -/
  boot : Boot
  /-- Ranges returned by `alloc_early`. -/
  ranges : List Span
  /-- Frames returned by `allocate`. -/
  frames : List Nat

namespace Grants

/-- Nothing has been returned yet. -/
def start (boot : Boot) : Grants := ⟨boot, [], []⟩

/-- One call; a call that panics ends the run. -/
inductive Step : Grants → BootOp → Grants → Prop
  /-- The heap grants a range. -/
  | granted {state : Grants} {size align address : Nat} {heap : BumpAllocator}
      (returned : state.boot.heap.allocate size align = .ok (some address, heap)) :
      Step state (.allocEarly size align)
        ⟨{ state.boot with heap := heap }, ⟨address, size⟩ :: state.ranges, state.frames⟩
  /-- The heap refuses. -/
  | refused {state : Grants} {size align : Nat} {heap : BumpAllocator}
      (returned : state.boot.heap.allocate size align = .ok (none, heap)) :
      Step state (.allocEarly size align)
        ⟨{ state.boot with heap := heap }, state.ranges, state.frames⟩
  /-- A frame is returned. -/
  | taken {state : Grants} {frame : Nat} {memory : PhysMem}
      (returned : state.boot.frames.allocateFrame state.boot.memory = (some frame, memory)) :
      Step state .allocate
        ⟨{ state.boot with memory := memory }, state.ranges, frame :: state.frames⟩
  /-- No frame is left. -/
  | exhausted {state : Grants} {memory : PhysMem}
      (returned : state.boot.frames.allocateFrame state.boot.memory = (none, memory)) :
      Step state .allocate ⟨{ state.boot with memory := memory }, state.ranges, state.frames⟩

/-- Heap ranges, frames and the bitmap share no byte. -/
structure Apart (state : Grants) : Prop where
  /-- Heap ranges avoid frames. -/
  heap_frames : ∀ range ∈ state.ranges, ∀ frame ∈ state.frames,
    range.Separate ⟨frame, frameSize⟩
  /-- Heap ranges avoid the bitmap. -/
  heap_bitmap : ∀ range ∈ state.ranges, range.Separate state.boot.frames.bitmapSpan
  /-- Frames avoid the bitmap. -/
  frames_bitmap : ∀ frame ∈ state.frames,
    (⟨frame, frameSize⟩ : Span).Separate state.boot.frames.bitmapSpan

/-- The range avoids the bitmap and every page that was free at boot. -/
def Off (boot : Boot) (range : Span) : Prop :=
  range.Separate boot.frames.bitmapSpan ∧ ∀ index < boot.frames.frameCount,
    boot.frames.used boot.memory index = false → range.Separate (boot.frames.frameSpan index)

/-- The condition on a call: a heap request that fits asks for a range off the bitmap and
off every page that was free at boot. -/
def OffFrames (boot : Boot) (state : Grants) : BootOp → Prop
  | .allocEarly size align =>
    state.boot.heap.Fits size align → Off boot (state.boot.heap.request size align)
  | .allocate => True

/-- What every run keeps: the frame allocator's record, and exactly the pages free at boot
that are marked since have been returned. -/
structure Tracked (boot : Boot) (state : Grants) : Prop where
  /-- The record never changes. -/
  frames_eq : state.boot.frames = boot.frames
  /-- Returned frames are pages that were free at boot. -/
  returned : ∀ frame ∈ state.frames, ∃ index < boot.frames.frameCount,
    frame = boot.frames.frameAddr index ∧ boot.frames.used boot.memory index = false
  /-- A page free at boot and marked now has been returned. -/
  marked : ∀ index < boot.frames.frameCount, boot.frames.used boot.memory index = false →
    boot.frames.used state.boot.memory index = true → boot.frames.frameAddr index ∈ state.frames
  /-- A page marked at boot stays marked. -/
  kept : ∀ index < boot.frames.frameCount, boot.frames.used boot.memory index = true →
    boot.frames.used state.boot.memory index = true

variable {boot : Boot} {state after : Grants} {op : BootOp} {ops : List BootOp}

/-- Every call keeps the tracking. -/
theorem Tracked.step (covers : boot.frames.Covers) (tracked : Tracked boot state)
    (step : Step state op after) : Tracked boot after := by
  obtain ⟨frames_eq, returned, marked, kept⟩ := tracked
  cases step with
  | granted _ => exact ⟨frames_eq, returned, marked, kept⟩
  | refused _ => exact ⟨frames_eq, returned, marked, kept⟩
  | taken call =>
    rw [frames_eq] at call
    have scanned := boot.frames.allocateFrame_scanned covers state.boot.memory
    rw [call] at scanned
    cases scanned with
    | taken index inside _ free _ bits _ =>
      refine ⟨frames_eq, ?_, ?_, ?_⟩
      · intro frame member
        rcases List.mem_cons.mp member with rfl | earlier
        · refine ⟨index, inside, rfl, ?_⟩
          cases atBoot : boot.frames.used boot.memory index with
          | false => rfl
          | true =>
            rw [kept index inside atBoot] at free
            contradiction
        · exact returned frame earlier
      · intro other otherInside atBoot now
        rw [bits other otherInside, Bool.or_eq_true, decide_eq_true_eq] at now
        rcases now with before | rfl
        · exact List.mem_cons_of_mem _ (marked other otherInside atBoot before)
        · exact List.mem_cons_self
      · intro other otherInside atBoot
        rw [bits other otherInside, kept other otherInside atBoot, Bool.true_or]
  | exhausted call =>
    rw [frames_eq] at call
    have scanned := boot.frames.allocateFrame_scanned covers state.boot.memory
    rw [call] at scanned
    cases scanned with
    | full _ same _ =>
      refine ⟨frames_eq, returned, fun index inside atBoot now => ?_, fun index inside atBoot => ?_⟩
      · exact marked index inside atBoot (same index inside ▸ now)
      · exact (same index inside).trans (kept index inside atBoot)

/-- The tracking holds in every state a run reaches. -/
theorem Tracked.run (covers : boot.frames.Covers) (run : Run Step (start boot) ops state) :
    Tracked boot state := by
  have initial : Tracked boot (start boot) := by
    refine ⟨rfl, by simp [start], ?_, fun _ _ marked => marked⟩
    intro index _ free marked
    rw [start, free] at marked
    contradiction
  exact run.invariant (Tracked boot) (fun _ _ _ tracked step => Tracked.step covers tracked step) initial

/-- Granted ranges stay recorded. -/
theorem ranges_subset {first last : Grants} (run : Run Step first ops last) :
    ∀ range ∈ first.ranges, range ∈ last.ranges := by
  induction run with
  | nil => exact fun _ member => member
  | cons head _ ih =>
    intro range member
    apply ih
    cases head with
    | granted _ => exact List.mem_cons_of_mem _ member
    | refused _ => exact member
    | taken _ => exact member
    | exhausted _ => exact member

/-- Calls that meet the condition only grant ranges off the bitmap and the pages free at boot. -/
theorem off_of_guarded (run : Run (Guarded (OffFrames boot) Step) (start boot) ops state) :
    ∀ range ∈ state.ranges, Off boot range := by
  have initial : ∀ range ∈ (start boot).ranges, Off boot range := by simp [start]
  refine run.invariant (fun state => ∀ range ∈ state.ranges, Off boot range) ?_ initial
  rintro before op next off ⟨condition, step⟩
  cases step with
  | granted returned =>
    obtain ⟨fits, rfl, _⟩ := BumpAllocator.allocate_eq_some.mp returned
    intro range member
    rcases List.mem_cons.mp member with rfl | earlier
    · exact condition fits
    · exact off range earlier
  | refused _ => exact off
  | taken _ => exact off
  | exhausted _ => exact off

/-- Conversely, if all granted ranges are off them then every call met the condition. -/
theorem guarded_of_off {first last : Grants} (run : Run Step first ops last)
    (off : ∀ range ∈ last.ranges, Off boot range) :
    Run (Guarded (OffFrames boot) Step) first ops last := by
  induction run with
  | nil state => exact .nil state
  | cons head tail ih =>
    refine .cons ⟨?_, head⟩ (ih off)
    cases head with
    | granted returned =>
      intro _
      obtain ⟨_, rfl, _⟩ := BumpAllocator.allocate_eq_some.mp returned
      exact off _ (ranges_subset tail _ List.mem_cons_self)
    | refused returned =>
      intro fits
      exact absurd fits (BumpAllocator.allocate_eq_none returned).2
    | taken _ => trivial
    | exhausted _ => trivial

/-- Enough `allocate` calls mark every frame; the ranges stay as they are. -/
theorem exhaust (covers : boot.frames.Covers) (tracked : Tracked boot state) (bound : Nat)
    (inside : bound ≤ boot.frames.frameCount) :
    ∃ count last, Run Step state (List.replicate count .allocate) last ∧ Tracked boot last ∧
      last.ranges = state.ranges ∧
      ∀ index < bound, boot.frames.used last.boot.memory index = true := by
  induction bound with
  | zero => exact ⟨0, state, .nil state, tracked, rfl, by simp⟩
  | succ bound ih =>
    obtain ⟨count, last, run, lastTracked, ranges, below⟩ := ih (by omega)
    cases free : boot.frames.used last.boot.memory bound with
    | true =>
      refine ⟨count, last, run, lastTracked, ranges, fun index under => ?_⟩
      by_cases same : index = bound
      · rw [same]
        exact free
      · exact below index (by omega)
    | false =>
      obtain ⟨taken, memory, takenLe, clear, returned, bits⟩ :=
        FrameAllocator.allocateFrame_returns covers (show bound < _ by omega) free
      have lowest : taken = bound := by
        by_contra other
        rw [below taken (by omega)] at clear
        contradiction
      subst lowest
      rw [← lastTracked.frames_eq] at returned
      have step := Step.taken returned
      refine ⟨count + 1, _, ?_, lastTracked.step covers step, ranges, fun index under => ?_⟩
      · rw [List.replicate_succ']
        exact run.append (.cons step (.nil _))
      · rw [bits index (by omega)]
        by_cases same : index = taken
        · simp [same]
        · rw [below index (by omega), Bool.true_or]

/-- A run of `allocate` calls grants no heap range. -/
theorem ranges_eq_of_allocate {first last : Grants} {count : Nat}
    (run : Run Step first (List.replicate count .allocate) last) : last.ranges = first.ranges := by
  induction count generalizing first with
  | zero =>
    cases run with
    | nil => rfl
  | succ count ih =>
    cases run with
    | cons head tail =>
      rw [ih tail]
      cases head with
      | taken _ => rfl
      | exhausted _ => rfl

/-- Frames free at boot may be handed out, so returned frames avoid the bitmap. -/
theorem Tracked.frames_bitmap {regions : List MemoryRegion} {memory : PhysMem}
    (initialized : FrameAllocator.init memory regions = .ok (boot.frames, boot.memory))
    (tracked : Tracked boot state) : ∀ frame ∈ state.frames,
      (⟨frame, frameSize⟩ : Span).Separate state.boot.frames.bitmapSpan := by
  intro frame member
  obtain ⟨index, inside, rfl, free⟩ := tracked.returned frame member
  rw [tracked.frames_eq]
  exact (((FrameAllocator.init_spec initialized).2.2 index inside).mp free).1.2

/-- Heap ranges off the bitmap and the pages free at boot stay apart from every frame. -/
theorem Tracked.apart {regions : List MemoryRegion} {memory : PhysMem}
    (initialized : FrameAllocator.init memory regions = .ok (boot.frames, boot.memory))
    (tracked : Tracked boot state) (off : ∀ range ∈ state.ranges, Off boot range) :
    state.Apart where
  heap_frames range rangeMember frame frameMember := by
    obtain ⟨index, inside, rfl, free⟩ := tracked.returned frame frameMember
    exact (off range rangeMember).2 index inside free
  heap_bitmap range member := by
    rw [tracked.frames_eq]
    exact (off range member).1
  frames_bitmap := tracked.frames_bitmap initialized

/-- If the granted ranges stay apart from the frames of every further `allocate` call, they
are off the bitmap and every page free at boot. -/
theorem Tracked.off_of_apart (covers : boot.frames.Covers) (tracked : Tracked boot state)
    (apart : ∀ count last, Run Step state (List.replicate count .allocate) last → last.Apart) :
    ∀ range ∈ state.ranges, Off boot range := by
  intro range member
  obtain ⟨count, last, run, lastTracked, ranges, all⟩ := exhaust covers tracked _ (le_refl _)
  have lastApart := apart count last run
  rw [← ranges] at member
  refine ⟨lastTracked.frames_eq ▸ lastApart.heap_bitmap range member, fun index inside free => ?_⟩
  exact lastApart.heap_frames range member _
    (lastTracked.marked index inside free (all index inside))

/-- Start-up leaves the frame allocator as `init` does. -/
theorem init_of_kernelMain {memory : PhysMem} {regions : List MemoryRegion}
    (booted : kernelMain memory regions = .ok boot) :
    FrameAllocator.init memory (regions.take 64) = .ok (boot.frames, boot.memory) := by
  simp only [kernelMain, bind_eq_ok] at booted
  obtain ⟨usable, _, ⟨frames, after⟩, initialized, returned⟩ := booted
  cases usable with
  | some region =>
    obtain rfl := pure_eq_ok.mp returned
    exact initialized
  | none =>
    obtain rfl := pure_eq_ok.mp returned
    exact initialized

/-- For every memory map that boots and every run of the two allocators, heap ranges, frames
and bitmap stay apart through all further `allocate` calls if and only if each heap request
of the run that fits asks for a range off the bitmap and off every page free at boot. -/
theorem kernelMain_apart_iff {memory : PhysMem} {regions : List MemoryRegion}
    (booted : kernelMain memory regions = .ok boot) (run : Run Step (start boot) ops state) :
    (∀ count last, Run Step state (List.replicate count .allocate) last → last.Apart) ↔
      Run (Guarded (OffFrames boot) Step) (start boot) ops state := by
  have initialized := init_of_kernelMain booted
  have covers := (FrameAllocator.init_spec initialized).1.covers
  have tracked := Tracked.run covers run
  constructor
  · intro apart
    exact guarded_of_off run (tracked.off_of_apart covers apart)
  · intro guarded count last further
    have lastTracked := Tracked.run covers (run.append further)
    refine lastTracked.apart initialized ?_
    rw [ranges_eq_of_allocate further]
    exact off_of_guarded guarded

/-- The region found is a usable one of at least 1 MiB. -/
theorem findHeapRegion_spec {regions : List MemoryRegion} {region : MemoryRegion}
    (found : findHeapRegion regions = .ok (some region)) :
    region.kind = .usable ∧ region.start + 0x100000 ≤ region.stop := by
  induction regions with
  | nil => simp [findHeapRegion, pure_eq_ok] at found
  | cons first regions ih =>
    unfold findHeapRegion at found
    split at found
    · rename_i usable
      simp only [bind_eq_ok, sub64_eq_ok] at found
      obtain ⟨size, ⟨ordered, rfl⟩, found⟩ := found
      split at found
      · rename_i large
        obtain rfl := Option.some.inj (pure_eq_ok.mp found)
        exact ⟨usable, by omega⟩
      · exact ih found
    · exact ih found

/-- The heap start-up opens. -/
theorem heap_of_kernelMain {memory : PhysMem} {regions : List MemoryRegion} {region : MemoryRegion}
    (booted : kernelMain memory regions = .ok boot)
    (found : findHeapRegion regions = .ok (some region)) :
    boot.heap = .initHeap region.start region.stop := by
  simp only [kernelMain, bind_eq_ok] at booted
  obtain ⟨usable, search, ⟨frames, after⟩, _, returned⟩ := booted
  rw [found, Except.ok.injEq] at search
  subst search
  obtain rfl := pure_eq_ok.mp returned
  rfl

/-- A heap region the frame allocator also manages is never wholly off the bitmap and the
pages free at boot. -/
theorem not_off_heapRegion {memory : PhysMem} {regions : List MemoryRegion} {region : MemoryRegion}
    (booted : kernelMain memory regions = .ok boot) (member : region ∈ regions.take 64)
    (usable : region.kind = .usable) (large : region.start + 0x100000 ≤ region.stop) :
    ¬Off boot region.span := by
  rintro ⟨offBitmap, offPages⟩
  have initialized := init_of_kernelMain booted
  have placing := FrameAllocator.place_of_init initialized
  obtain ⟨placed, _, bits⟩ := FrameAllocator.init_spec initialized
  obtain ⟨page, rounded⟩ : ∃ page, page = (region.start + 4095) / 4096 := ⟨_, rfl⟩
  obtain ⟨first, firstInside, firstAddr⟩ := FrameAllocator.managed_of_place placing member usable
    (show region.start ≤ 4096 * page by omega) (by omega)
  obtain ⟨second, secondInside, secondAddr⟩ := FrameAllocator.managed_of_place placing member usable
    (show region.start ≤ 4096 * (page + 1) by omega) (by omega)
  have above := placed.bitmap_eq
  simp only [Span.Separate, MemoryRegion.span, FrameAllocator.bitmapSpan] at offBitmap
  simp only [FrameAllocator.frameAddr, frameSize] at firstAddr secondAddr
  by_cases free : boot.frames.used boot.memory second = false
  · have apart := offPages second secondInside free
    simp only [Span.Separate, MemoryRegion.span, FrameAllocator.frameSpan,
      FrameAllocator.frameAddr, frameSize] at apart
    omega
  · rw [bits second secondInside, not_and_or] at free
    have words := placed.words_eq
    rcases free with notAllocatable | reserved
    · apply notAllocatable
      refine ⟨⟨region, member, usable, ?_, ?_⟩, ?_⟩
      · simp only [FrameAllocator.frameAddr, frameSize]
        omega
      · simp only [FrameAllocator.frameAddr, frameSize]
        omega
      · simp only [Span.Separate, FrameAllocator.frameSpan, FrameAllocator.bitmapSpan,
          FrameAllocator.frameAddr, frameSize]
        omega
    · simp only [FrameAllocator.reservedFrames] at reserved
      omega

/-- The whole heap can be requested at once. -/
theorem fits_heapRegion {region : MemoryRegion} (ordered : region.start ≤ region.stop) :
    let heap := BumpAllocator.initHeap region.start region.stop
    heap.Fits (region.stop - region.start) 1 ∧ heap.aligned 1 = region.start := by
  have startFits := region.start_lt
  have stopFits := region.stop_lt
  have aligned : (BumpAllocator.initHeap region.start region.stop).aligned 1 = region.start :=
    BumpAllocator.aligned_one startFits
  simp only [BumpAllocator.Fits, aligned, and_true]
  simp only [BumpAllocator.initHeap]
  omega

/-- On every memory map whose heap region the frame allocator manages, some run hands one
byte to two owners. -/
theorem kernelMain_breaks {memory : PhysMem} {regions : List MemoryRegion} {region : MemoryRegion}
    (booted : kernelMain memory regions = .ok boot)
    (found : findHeapRegion regions = .ok (some region)) (member : region ∈ regions.take 64) :
    ∃ count last, Run Step (start boot)
      (.allocEarly (region.stop - region.start) 1 :: List.replicate count .allocate) last ∧
      ¬last.Apart := by
  obtain ⟨usable, large⟩ := findHeapRegion_spec found
  obtain ⟨fits, aligned⟩ := fits_heapRegion (show region.start ≤ region.stop by omega)
  have heap := heap_of_kernelMain booted found
  rw [← heap] at fits aligned
  have step : Step (start boot) (.allocEarly (region.stop - region.start) 1) _ :=
    .granted (BumpAllocator.allocate_eq_some.mpr ⟨fits, rfl, rfl⟩)
  have covers := (FrameAllocator.init_spec (init_of_kernelMain booted)).1.covers
  by_contra none
  apply not_off_heapRegion booted member usable large
  have off := (Tracked.run covers (.cons step (.nil _))).off_of_apart covers
    fun count last further => by
      by_contra broken
      exact none ⟨count, last, .cons step further, broken⟩
  have range := off _ List.mem_cons_self
  rwa [show (start boot).boot.heap.aligned 1 = region.start from aligned] at range

/-- The heap of the single usable mebibyte. -/
theorem mebibyteMap_found : findHeapRegion FrameAllocator.mebibyteMap =
    .ok (some ⟨0x100000, 0x200000, .usable, by decide, by decide⟩) := by rfl

/-- Start-up returns on the single usable mebibyte. -/
theorem mebibyteMap_boots : ∃ boot, kernelMain ⟨fun _ => 0, []⟩ FrameAllocator.mebibyteMap =
    .ok boot ∧ boot.frames = ⟨0x100000, 256, 0x100000, 4⟩ ∧
      boot.heap = .initHeap 0x100000 0x200000 := by
  obtain ⟨frames, memory, initialized⟩ :=
    FrameAllocator.init_returns FrameAllocator.mebibyteMap_wellFormed ⟨fun _ => 0, []⟩ (by decide)
  have placing := FrameAllocator.place_of_init initialized
  rw [FrameAllocator.mebibyteMap_place, Except.ok.injEq] at placing
  refine ⟨⟨memory, frames, .initHeap 0x100000 0x200000⟩, ?_, placing.symm, rfl⟩
  exact bind_eq_ok.mpr ⟨_, mebibyteMap_found, bind_eq_ok.mpr ⟨_, initialized, rfl⟩⟩

/-- 16 bytes behind the second mebibyte is a word. -/
theorem tail_lt : 0x200010 < wordSize := by decide

/-- A usable mebibyte and 16 bytes, which make no page. -/
def tailMap : List MemoryRegion :=
  [⟨0x100000, 0x200010, .usable, FrameAllocator.mebibyte_lt, tail_lt⟩]

/-- That is a well-formed map. -/
theorem tailMap_wellFormed : WellFormedMap tailMap where
  ordered := by decide
  bounded := by decide
  apart := by decide
  page := ⟨_, List.mem_cons_self, rfl, 0x100, by decide, by decide⟩

/-- The frames end where these bytes begin, and the second one is free. -/
theorem tailMap_boots : ∃ boot, kernelMain ⟨fun _ => 0, []⟩ tailMap = .ok boot ∧
    boot.frames = FrameAllocator.mebibyteFrames ∧ boot.heap = .initHeap 0x100000 0x200010 ∧
    boot.frames.used boot.memory 1 = false := by
  obtain ⟨frames, memory, initialized⟩ :=
    FrameAllocator.init_returns tailMap_wellFormed ⟨fun _ => 0, []⟩ (by decide)
  have placing : FrameAllocator.place tailMap = .ok frames :=
    FrameAllocator.place_of_init initialized
  have placed : FrameAllocator.place tailMap = .ok FrameAllocator.mebibyteFrames := by rfl
  obtain rfl := Except.ok.inj (placed.symm.trans placing)
  have found : findHeapRegion tailMap =
    .ok (some ⟨0x100000, 0x200010, .usable, FrameAllocator.mebibyte_lt, tail_lt⟩) := by rfl
  refine ⟨⟨memory, _, .initHeap 0x100000 0x200010⟩, ?_, rfl, rfl, ?_⟩
  · exact bind_eq_ok.mpr ⟨_, found, bind_eq_ok.mpr ⟨_, initialized, rfl⟩⟩
  · exact ((FrameAllocator.init_spec initialized).2.2 1 (by decide)).mpr
      ⟨⟨⟨_, List.mem_cons_self, by decide⟩, by decide⟩, by decide⟩

/-- On that map 16 bytes of heap behind the frames and a frame stay apart from each other and from
the bitmap for good. -/
theorem kernelMain_apart_mebibyte :
    ∃ boot state, kernelMain ⟨fun _ => 0, []⟩ tailMap = .ok boot ∧
      Run Step (start boot) [.allocEarly 16 0x200000, .allocate] state ∧
      state.ranges = [⟨0x200000, 16⟩] ∧ state.frames ≠ [] ∧
      ∀ count last, Run Step state (List.replicate count .allocate) last → last.Apart := by
  obtain ⟨boot, booted, frames, heap, free⟩ := tailMap_boots
  have fits : (start boot).boot.heap.Fits 16 0x200000 := by
    rw [start, heap]
    decide
  have range : (start boot).boot.heap.aligned 0x200000 = 0x200000 := by
    rw [start, heap]
    decide
  have first : Step (start boot) (.allocEarly 16 0x200000) _ :=
    .granted (BumpAllocator.allocate_eq_some.mpr ⟨fits, rfl, rfl⟩)
  have off : OffFrames boot (start boot) (.allocEarly 16 0x200000) := by
    intro _
    rw [BumpAllocator.request, range, Off, frames]
    refine ⟨by decide, fun index inside _ => .inr ?_⟩
    simp only [FrameAllocator.mebibyteFrames, FrameAllocator.frameSpan, FrameAllocator.frameAddr,
      frameSize] at inside ⊢
    omega
  have covers := (FrameAllocator.init_spec (init_of_kernelMain booted)).1.covers
  have inside : 1 < boot.frames.frameCount := by
    rw [frames]
    decide
  obtain ⟨index, memory, _, _, taken, _⟩ :=
    FrameAllocator.allocateFrame_returns covers inside free
  refine ⟨boot, _, booted, .cons first (.cons (.taken taken) (.nil _)), ?_, List.cons_ne_nil _ _, ?_⟩
  · exact congrArg (fun place => [(⟨place, 16⟩ : Span)]) range
  · exact (kernelMain_apart_iff booted (.cons first (.cons (.taken taken) (.nil _)))).mpr
      (.cons ⟨off, first⟩ (.cons ⟨trivial, .taken taken⟩ (.nil _)))

/-- On the single usable mebibyte, the first 16 bytes of the early heap are the first 16
bytes of the frame allocator's bitmap. -/
theorem kernelMain_apart_counterexample :
    ∃ boot state, kernelMain ⟨fun _ => 0, []⟩ FrameAllocator.mebibyteMap = .ok boot ∧
      Run Step (start boot) [.allocEarly 16 8] state ∧
      state.ranges = [⟨0x100000, 16⟩] ∧ state.boot.frames.bitmapSpan = ⟨0x100000, 32⟩ ∧
      ¬state.Apart := by
  obtain ⟨boot, booted, frames, heap⟩ := mebibyteMap_boots
  have fits : boot.heap.Fits 16 8 := by
    rw [heap]
    decide
  have range : (start boot).boot.heap.aligned 8 = 0x100000 := by
    rw [start, heap]
    rfl
  have bitmap : boot.frames.bitmapSpan = ⟨0x100000, 32⟩ := by rw [frames]; rfl
  refine ⟨boot, _, booted, .cons (.granted (BumpAllocator.allocate_eq_some.mpr ⟨fits, rfl, rfl⟩))
    (.nil _), by rw [range]; rfl, bitmap, fun apart => ?_⟩
  have separate := apart.heap_bitmap _ List.mem_cons_self
  rw [range] at separate
  rw [show (start boot).boot.frames.bitmapSpan = ⟨0x100000, 32⟩ from bitmap] at separate
  exact absurd separate (by decide)

end Grants

end Aperture.Mm
