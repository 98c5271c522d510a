import Aperture.Mm.FrameAllocator

/-!
# What `FrameAllocator::init` establishes

The three marking passes are reduced to one statement about the used bits: a
frame that is free afterwards lies whole in one usable region and off the
bitmap. `init` returns for every memory map a bootloader can report, unless
usable memory starts at address 0; only there is the sum of region sizes known
to fit a word.
-/

namespace Aperture.Mm

open Machine

/-- A memory map the bootloader can report: ordered, bounded and pairwise
non-overlapping regions with at least one whole usable page. -/
structure WellFormedMap (regions : List MemoryRegion) : Prop where
  /-- Regions do not end before they start. -/
  ordered : ∀ region ∈ regions, region.start ≤ region.stop
  /-- Physical addresses have 52 bits. -/
  bounded : ∀ region ∈ regions, region.stop < 2 ^ 52
  /-- No byte belongs to two regions. -/
  apart : regions.Pairwise fun left right => left.span.Separate right.span
  /-- Some usable region holds a whole page. -/
  page : ∃ region ∈ regions, region.kind = .usable ∧
    ∃ page, region.start ≤ 4096 * page ∧ 4096 * page + 4096 ≤ region.stop

/-- Usable memory starts at address 0, where `init` would write its bitmap through a null
pointer. -/
def StartsAtNull (regions : List MemoryRegion) : Prop :=
  ∃ region ∈ regions, region.kind = .usable ∧ region.start = 0

instance (regions : List MemoryRegion) : Decidable (StartsAtNull regions) :=
  inferInstanceAs (Decidable (∃ region ∈ regions, region.kind = .usable ∧ region.start = 0))

/-! ## The usable range -/

/-- The summed size of the usable regions. -/
def usableTotal (regions : List MemoryRegion) : Nat :=
  ((regions.filter fun region => region.kind = .usable).map fun region => region.span.size).sum

/-- The usable regions of a well-formed map fit the physical address space. -/
theorem WellFormedMap.usableTotal_le {regions : List MemoryRegion} (wf : WellFormedMap regions) :
    usableTotal regions ≤ 2 ^ 52 := by
  have apart : ((regions.filter fun region => region.kind = .usable).map
      MemoryRegion.span).Pairwise Span.Separate :=
    List.pairwise_map.mpr (wf.apart.filter _)
  have total := Span.total_le apart (2 ^ 52) (by
    intro span member
    obtain ⟨region, kept, rfl⟩ := List.mem_map.mp member
    have inMap := (List.mem_filter.mp kept).1
    have below := wf.bounded region inMap
    have order := wf.ordered region inMap
    simp only [MemoryRegion.span]
    omega)
  simpa only [usableTotal, List.map_map, Function.comp_def] using total

/-- The range loop returns bounds around every usable region while the total fits. -/
theorem usableRange_bounds {regions : List MemoryRegion} (start stop total : Nat)
    (ordered : ∀ region ∈ regions, region.start ≤ region.stop) (stopFits : stop < wordSize)
    (fits : total + usableTotal regions < wordSize) :
    ∃ start' stop' total', regions.foldlM usableRangeStep (start, stop, total) =
        .ok (start', stop', total') ∧ start' ≤ start ∧ stop ≤ stop' ∧ stop' < wordSize ∧
      ∀ region ∈ regions, region.kind = .usable → start' ≤ region.start ∧ region.stop ≤ stop' := by
  induction regions generalizing start stop total with
  | nil => exact ⟨start, stop, total, rfl, le_refl _, le_refl _, stopFits, by simp⟩
  | cons region regions ih =>
    have order := ordered region List.mem_cons_self
    have laterOrdered : ∀ later ∈ regions, later.start ≤ later.stop :=
      fun later member => ordered later (List.mem_cons_of_mem _ member)
    have regionFits := region.stop_lt
    by_cases usable : region.kind = .usable
    · have split : usableTotal (region :: regions) =
          (region.stop - region.start) + usableTotal regions := by
        simp [usableTotal, usable, MemoryRegion.span]
      obtain ⟨start', stop', total', rest, startLe, stopLe, stopFits', bounds⟩ :=
        ih (if region.start < start then region.start else start)
          (if stop < region.stop then region.stop else stop)
          (total + (region.stop - region.start)) laterOrdered (by split <;> omega) (by omega)
      refine ⟨start', stop', total', ?_, by split at startLe <;> omega,
        by split at stopLe <;> omega, stopFits', ?_⟩
      · rw [List.foldlM_cons, bind_eq_ok]
        refine ⟨_, ?_, rest⟩
        simp only [usableRangeStep, usable, ↓reduceIte, bind_eq_ok, pure_eq_ok, add64_eq_ok,
          sub64_eq_ok]
        exact ⟨_, ⟨order, rfl⟩, _, ⟨by omega, rfl⟩, rfl⟩
      · intro other member otherUsable
        rcases List.mem_cons.mp member with rfl | later
        · constructor
          · split at startLe <;> omega
          · split at stopLe <;> omega
        · exact bounds other later otherUsable
    · have split : usableTotal (region :: regions) = usableTotal regions := by
        simp [usableTotal, usable]
      obtain ⟨start', stop', total', rest, startLe, stopLe, stopFits', bounds⟩ :=
        ih start stop total laterOrdered stopFits (by omega)
      refine ⟨start', stop', total', ?_, startLe, stopLe, stopFits', ?_⟩
      · rw [List.foldlM_cons, bind_eq_ok]
        exact ⟨_, by simp only [usableRangeStep, usable, ↓reduceIte]; rfl, rest⟩
      · intro other member otherUsable
        rcases List.mem_cons.mp member with rfl | later
        · exact absurd otherUsable usable
        · exact bounds other later otherUsable

/-- Whenever the range loop returns, its bounds enclose every usable region. -/
theorem usableRange_encloses {regions : List MemoryRegion} {range result : Nat × Nat × Nat}
    (returned : regions.foldlM usableRangeStep range = .ok result) :
    result.1 ≤ range.1 ∧ range.2.1 ≤ result.2.1 ∧ (range.2.1 < wordSize → result.2.1 < wordSize) ∧
      ∀ region ∈ regions, region.kind = .usable →
        result.1 ≤ region.start ∧ region.stop ≤ result.2.1 := by
  induction regions generalizing range with
  | nil =>
    obtain rfl := pure_eq_ok.mp returned
    exact ⟨le_refl _, le_refl _, id, by simp⟩
  | cons region regions ih =>
    rw [List.foldlM_cons, bind_eq_ok] at returned
    obtain ⟨next, step, rest⟩ := returned
    obtain ⟨startLe, stopGe, stopFits, bounds⟩ := ih rest
    have regionFits := region.stop_lt
    unfold usableRangeStep at step
    split at step
    · simp only [bind_eq_ok, pure_eq_ok] at step
      obtain ⟨_, _, _, _, rfl⟩ := step
      dsimp only at startLe stopGe stopFits
      refine ⟨by split at startLe <;> omega, by split at stopGe <;> omega,
        fun fits => stopFits (by split <;> omega), fun other member otherUsable => ?_⟩
      rcases List.mem_cons.mp member with rfl | later
      · exact ⟨by split at startLe <;> omega, by split at stopGe <;> omega⟩
      · exact bounds other later otherUsable
    · rename_i notUsable
      obtain rfl := pure_eq_ok.mp step
      refine ⟨startLe, stopGe, stopFits, fun other member otherUsable => ?_⟩
      rcases List.mem_cons.mp member with rfl | later
      · exact absurd otherUsable notUsable
      · exact bounds other later otherUsable

/-- Away from address 0 the range loop stays away from it. -/
theorem usableRange_nonnull {regions : List MemoryRegion} {range result : Nat × Nat × Nat}
    (returned : regions.foldlM usableRangeStep range = .ok result) (start : range.1 ≠ 0)
    (nonnull : ¬StartsAtNull regions) : result.1 ≠ 0 := by
  induction regions generalizing range with
  | nil =>
    obtain rfl := pure_eq_ok.mp returned
    exact start
  | cons region regions ih =>
    rw [List.foldlM_cons, bind_eq_ok] at returned
    obtain ⟨next, step, rest⟩ := returned
    refine ih rest ?_ fun ⟨later, member, null⟩ =>
      nonnull ⟨later, List.mem_cons_of_mem _ member, null⟩
    unfold usableRangeStep at step
    split at step
    · rename_i usable
      simp only [bind_eq_ok, pure_eq_ok] at step
      obtain ⟨_, _, _, _, rfl⟩ := step
      dsimp only
      split
      · exact fun null => nonnull ⟨region, List.mem_cons_self, usable, null⟩
      · exact start
    · rw [← pure_eq_ok.mp step]
      exact start

/-! ## Placement -/

namespace FrameAllocator

variable {fa : FrameAllocator} {memory after : PhysMem} {regions : List MemoryRegion}

/-- The shape every placed allocator has. -/
structure Placed (fa : FrameAllocator) : Prop where
  /-- Frames are page-aligned. -/
  aligned : fa.firstFrame % 4096 = 0
  /-- The bitmap starts at the first frame. -/
  bitmap_eq : fa.bitmap = fa.firstFrame
  /-- One word for every 64 frames, rounded up. -/
  words_eq : fa.bitmapWords = (fa.frameCount + 63) / 64
  /-- The last frame ends inside the address space. -/
  fits : fa.firstFrame + fa.frameCount * 4096 < wordSize

/-- A placed bitmap has a bit for every frame. -/
theorem Placed.covers (placed : fa.Placed) : fa.Covers := by
  unfold Covers bitmapWordBits
  rw [placed.words_eq]
  omega

/-- The frames lie in the address space, so `allocate_frame` cannot overflow. -/
theorem Placed.allocateFrameChecked_eq (placed : fa.Placed) (memory : PhysMem) :
    fa.allocateFrameChecked memory = .ok (fa.allocateFrame memory) := by
  have scanned := fa.allocateFrame_scanned placed.covers memory
  rw [allocateFrameChecked, allocateScanChecked_eq, ← allocateFrame, if_pos]
  generalize fa.allocateFrame memory = result at scanned
  cases scanned with
  | full => exact (by decide : 0 < wordSize)
  | taken index inside =>
    have below : index * 4096 ≤ fa.frameCount * 4096 := Nat.mul_le_mul_right 4096 inside.le
    exact Nat.lt_of_le_of_lt (Nat.add_le_add_left below fa.firstFrame) placed.fits

/-- Placement produces that shape whenever it returns. -/
theorem placed_of_place (returned : place regions = .ok fa) : fa.Placed := by
  simp only [place, bind_eq_ok, pure_eq_ok, sub64_eq_ok] at returned
  obtain ⟨⟨start, stop, total⟩, _, first, firstUp, size, ⟨ordered, rfl⟩, bitmap, bitmapUp, rfl⟩ :=
    returned
  rw [alignUp_frame] at firstUp
  rw [show (8 : Nat) = 2 ^ 3 from rfl, alignUp_eq_ok 3 (by decide)] at bitmapUp
  have lastFits : alignDown stop frameSize < wordSize := by
    unfold alignDown
    exact Nat.lt_of_le_of_lt Nat.and_le_right (by decide)
  refine ⟨?_, ?_, rfl, ?_⟩
  · simp only [firstUp.2]
    omega
  · simp only [bitmapUp.2, firstUp.2]
    omega
  · simp only [frameSize] at lastFits ordered ⊢
    omega

/-- Every whole page of a usable region is a managed frame. -/
theorem managed_of_place (returned : place regions = .ok fa) {region : MemoryRegion}
    (member : region ∈ regions) (usable : region.kind = .usable) {page : Nat}
    (above : region.start ≤ 4096 * page) (below : 4096 * page + 4096 ≤ region.stop) :
    ∃ index < fa.frameCount, fa.frameAddr index = 4096 * page := by
  simp only [place, bind_eq_ok, pure_eq_ok, sub64_eq_ok] at returned
  obtain ⟨⟨start, stop, total⟩, range, first, firstUp, size, ⟨ordered, rfl⟩, bitmap, _, rfl⟩ :=
    returned
  obtain ⟨_, _, stopFits, bounds⟩ := usableRange_encloses range
  obtain ⟨startLe, stopGe⟩ := bounds region member usable
  rw [alignUp_frame] at firstUp
  rw [alignDown_frame (stopFits (by decide))] at ordered ⊢
  dsimp only at startLe stopGe firstUp ordered
  refine ⟨(4096 * page - first) / 4096, ?_, ?_⟩
  · simp only [frameSize]
    omega
  · simp only [frameAddr, frameSize]
    omega

/-- Placement returns for every well-formed map, with a bitmap at address 0 only where usable
memory starts there. -/
theorem place_returns (wf : WellFormedMap regions) :
    ∃ fa, place regions = .ok fa ∧ 0 < fa.bitmapWords ∧
      (fa.bitmap = 0 ↔ StartsAtNull regions) := by
  obtain ⟨start, stop, sum, range, _, _, stopFits, bounds⟩ :=
    usableRange_bounds (wordSize - 1) 0 0 wf.ordered (by decide) (by
      rw [Nat.zero_add]
      exact Nat.lt_of_le_of_lt wf.usableTotal_le (by decide))
  obtain ⟨region, member, usable, page, pageStart, pageStop⟩ := wf.page
  have below := wf.bounded region member
  obtain ⟨startLe, stopGe⟩ := bounds region member usable
  have firstUp : alignUp start frameSize = .ok ((start + 4095) / 4096 * 4096) :=
    alignUp_frame.mpr ⟨by unfold wordSize; omega, rfl⟩
  have room : (start + 4095) / 4096 * 4096 + 4096 ≤ alignDown stop frameSize := by
    rw [alignDown_frame stopFits]
    omega
  have size : sub64 (alignDown stop frameSize) ((start + 4095) / 4096 * 4096) =
      .ok (alignDown stop frameSize - (start + 4095) / 4096 * 4096) :=
    sub64_eq_ok.mpr ⟨Nat.le_of_add_right_le room, rfl⟩
  obtain ⟨bitmap, bitmapUp⟩ : ∃ bitmap, alignUp ((start + 4095) / 4096 * 4096) 8 = .ok bitmap :=
    ⟨_, (alignUp_eq_ok 3 (by decide)).mpr ⟨by unfold wordSize; omega, rfl⟩⟩
  refine ⟨_, bind_eq_ok.mpr ⟨_, range, bind_eq_ok.mpr ⟨_, firstUp, bind_eq_ok.mpr ⟨_, size,
    bind_eq_ok.mpr ⟨_, bitmapUp, rfl⟩⟩⟩⟩, ?_, ?_⟩
  · have frame : 0 < (alignDown stop frameSize - (start + 4095) / 4096 * 4096) / frameSize :=
      Nat.div_pos (Nat.le_sub_of_add_le' room) (by decide)
    simp only [bitmapWordBits]
    omega
  · have above := ((alignUp_eq_ok 3 (by decide)).mp bitmapUp).2
    dsimp only
    constructor
    · intro null
      by_contra nonnull
      have apart := usableRange_nonnull range (by decide) nonnull
      dsimp only at apart
      omega
    · rintro ⟨lowest, inMap, isUsable, atNull⟩
      have startBelow := (bounds lowest inMap isUsable).1
      omega

/-! ## Marking -/

/-- The frame lies whole in a usable region. -/
def InRegion (fa : FrameAllocator) (region : MemoryRegion) (index : Nat) : Prop :=
  region.kind = .usable ∧ region.start ≤ fa.frameAddr index ∧
    fa.frameAddr index + frameSize ≤ region.stop

instance (fa : FrameAllocator) (region : MemoryRegion) (index : Nat) :
    Decidable (fa.InRegion region index) := inferInstanceAs (Decidable (_ ∧ _ ∧ _))

/-- The frame may be handed out: it lies in one usable region and off the bitmap. -/
def Allocatable (fa : FrameAllocator) (regions : List MemoryRegion) (index : Nat) : Prop :=
  (∃ region ∈ regions, fa.InRegion region index) ∧ (fa.frameSpan index).Separate fa.bitmapSpan

/-- A frame is off the bitmap exactly when `is_bitmap_frame` says so. -/
theorem Placed.isBitmapFrame_eq_false (placed : fa.Placed) {index : Nat} :
    fa.isBitmapFrame index = false ↔
      fa.bitmapWords = 0 ∨ (fa.frameSpan index).Separate fa.bitmapSpan := by
  have above : fa.bitmap ≤ fa.frameAddr index := by
    rw [placed.bitmap_eq]
    exact Nat.le_add_right _ _
  simp only [isBitmapFrame, above, decide_true, Bool.true_and, decide_eq_false_iff_not,
    Span.Separate, frameSpan, bitmapSpan, frameSize]
  omega

/-- Zeroing writes only the bitmap. -/
theorem zeroBitmap_writes (fa : FrameAllocator) (memory : PhysMem) :
    WritesWithin fa.bitmapSpan.toSet memory (fa.zeroBitmap memory) := by
  refine foldl_invariant (WritesWithin fa.bitmapSpan.toSet memory) ?_ (.refl _ _)
  intro state word member within
  exact within.trans (WritesWithin.writeU64 _ _ (fa.cell_covered (List.mem_range.mp member)))

/-- A loop of marks sets exactly the listed bits. -/
theorem used_foldl_mark (fa : FrameAllocator) (memory : PhysMem) (indices : List Nat)
    (index : Nat) :
    fa.used (indices.foldl (fun memory index => fa.mark memory index true) memory) index =
      (fa.used memory index || decide (index ∈ indices)) := by
  induction indices generalizing memory with
  | nil => simp
  | cons first indices ih =>
    rw [List.foldl_cons, ih, fa.used_mark]
    by_cases same : index = first
    · simp [same]
    · simp [same]

/-- A loop of marks of managed frames writes only the bitmap. -/
theorem foldl_mark_writes (placed : fa.Placed) (memory : PhysMem) {indices : List Nat}
    (inside : ∀ index ∈ indices, index < fa.frameCount) :
    WritesWithin fa.bitmapSpan.toSet memory
      (indices.foldl (fun memory index => fa.mark memory index true) memory) := by
  refine foldl_invariant (WritesWithin fa.bitmapSpan.toSet memory) ?_ (.refl _ _)
  intro state index member within
  exact within.trans (fa.mark_writes state true (placed.covers.word_lt (inside index member)))

/-- Freeing one page-aligned frame clears its bit unless the bitmap occupies it. -/
theorem used_freeUsableFrame (placed : fa.Placed) (memory : PhysMem) {frame index : Nat}
    (aligned : frame % 4096 = 0) (inside : index < fa.frameCount) :
    fa.used (fa.freeUsableFrame memory frame) index =
      (fa.used memory index && !(decide (fa.frameAddr index = frame) &&
        !fa.isBitmapFrame index)) := by
  have firstAligned := placed.aligned
  unfold freeUsableFrame
  by_cases above : fa.firstFrame ≤ frame
  · rw [if_pos above]
    dsimp only
    have named : (frame - fa.firstFrame) / frameSize = index ↔ fa.frameAddr index = frame := by
      unfold frameAddr frameSize
      omega
    by_cases same : fa.frameAddr index = frame
    · rw [named.mpr same]
      cases onBitmap : fa.isBitmapFrame index with
      | true => simp [same]
      | false =>
        rw [if_pos ⟨inside, rfl⟩, fa.used_mark]
        simp [same]
    · have other : index ≠ (frame - fa.firstFrame) / frameSize := fun equal =>
        same (named.mp equal.symm)
      split
      · rw [fa.used_mark]
        simp [same, other]
      · simp [same]
  · rw [if_neg above]
    have other : fa.frameAddr index ≠ frame := by
      unfold frameAddr
      omega
    simp [other]

/-- Freeing one frame writes only the bitmap. -/
theorem freeUsableFrame_writes (placed : fa.Placed) (memory : PhysMem) (frame : Nat) :
    WritesWithin fa.bitmapSpan.toSet memory (fa.freeUsableFrame memory frame) := by
  unfold freeUsableFrame
  split
  · dsimp only
    split
    · rename_i guard
      exact fa.mark_writes memory false (placed.covers.word_lt guard.1)
    · exact .refl _ _
  · exact .refl _ _

/-- A loop of page-aligned frees clears the bits of the listed frames off the bitmap. -/
theorem used_foldl_freeUsableFrame (placed : fa.Placed) (memory : PhysMem) {frames : List Nat}
    (aligned : ∀ frame ∈ frames, frame % 4096 = 0) {index : Nat} (inside : index < fa.frameCount) :
    fa.used (frames.foldl fa.freeUsableFrame memory) index =
      (fa.used memory index && !(decide (fa.frameAddr index ∈ frames) &&
        !fa.isBitmapFrame index)) := by
  induction frames generalizing memory with
  | nil => simp
  | cons frame frames ih =>
    rw [List.foldl_cons, ih _ (fun later member => aligned later (List.mem_cons_of_mem _ member)),
      used_freeUsableFrame placed memory (aligned frame List.mem_cons_self) inside]
    by_cases same : fa.frameAddr index = frame
    · cases fa.isBitmapFrame index <;> simp [same]
    · simp [same]

/-- Freeing a region clears the bits of its whole frames off the bitmap, and writes only
the bitmap. -/
theorem used_freeRegion (placed : fa.Placed) {region : MemoryRegion}
    (returned : fa.freeRegion memory region = .ok after) :
    WritesWithin fa.bitmapSpan.toSet memory after ∧ ∀ index < fa.frameCount,
      fa.used after index = (fa.used memory index && !(decide (fa.InRegion region index) &&
        !fa.isBitmapFrame index)) := by
  unfold freeRegion at returned
  split at returned
  · rename_i usable
    simp only [bind_eq_ok, pure_eq_ok] at returned
    obtain ⟨regionFirst, firstUp, rfl⟩ := returned
    rw [alignUp_frame] at firstUp
    rw [alignDown_frame region.stop_lt]
    have listed (frame : Nat) : frame ∈ stepBy regionFirst (region.stop / 4096 * 4096) frameSize ↔ _ :=
      mem_stepBy _ _ (show 0 < frameSize by decide)
    constructor
    · exact foldl_invariant (WritesWithin fa.bitmapSpan.toSet memory)
        (fun state frame _ within => within.trans (freeUsableFrame_writes placed state frame))
        (.refl _ _)
    · intro index inside
      rw [used_foldl_freeUsableFrame placed memory ?_ inside]
      · have inRegion : fa.frameAddr index ∈ stepBy regionFirst (region.stop / 4096 * 4096) frameSize
            ↔ fa.InRegion region index := by
          have frameAligned := placed.aligned
          rw [listed, InRegion, frameAddr, firstUp.2]
          unfold frameSize
          constructor
          · rintro ⟨i, same, below⟩
            refine ⟨usable, by omega, by omega⟩
          · rintro ⟨_, above, below⟩
            exact ⟨(fa.firstFrame + index * 4096 - (region.start + 4095) / 4096 * 4096) / 4096,
              by omega, by omega⟩
        simp only [inRegion]
      · intro frame member
        obtain ⟨i, rfl, _⟩ := (listed frame).mp member
        rw [firstUp.2]
        unfold frameSize
        omega
  · rename_i notUsable
    obtain rfl := pure_eq_ok.mp returned
    exact ⟨.refl _ _, fun index _ => by simp [InRegion, notUsable]⟩

/-- The third pass clears the bits of all whole usable frames off the bitmap. -/
theorem used_foldlM_freeRegion (placed : fa.Placed) {regions : List MemoryRegion}
    (returned : regions.foldlM fa.freeRegion memory = .ok after) :
    WritesWithin fa.bitmapSpan.toSet memory after ∧ ∀ index < fa.frameCount,
      fa.used after index = (fa.used memory index &&
        !((regions.any fun region => decide (fa.InRegion region index)) &&
          !fa.isBitmapFrame index)) := by
  induction regions generalizing memory with
  | nil =>
    obtain rfl := pure_eq_ok.mp returned
    exact ⟨.refl _ _, by simp⟩
  | cons region regions ih =>
    rw [List.foldlM_cons, bind_eq_ok] at returned
    obtain ⟨next, first, rest⟩ := returned
    obtain ⟨firstWrites, firstBits⟩ := used_freeRegion placed first
    obtain ⟨restWrites, restBits⟩ := ih rest
    refine ⟨firstWrites.trans restWrites, fun index inside => ?_⟩
    rw [restBits index inside, firstBits index inside, List.any_cons]
    cases fa.used memory index <;> cases decide (fa.InRegion region index) <;>
      cases fa.isBitmapFrame index <;> simp

/-- The record `init` fills in is the placed one. -/
theorem place_of_init (returned : init memory regions = .ok (fa, after)) :
    place regions = .ok fa := by
  simp only [init, bind_eq_ok, pure_eq_ok, Prod.mk.injEq] at returned
  obtain ⟨placedAt, placing, _, _, _, _, rfl, _⟩ := returned
  exact placing

/-- The number of frames the last pass reserves for the bitmap. -/
def reservedFrames (fa : FrameAllocator) : Nat := fa.bitmapWords * 8 / 4096 + 1

/-- The last pass marks the first frames. -/
theorem Placed.reserveBitmap_eq (placed : fa.Placed) (memory : PhysMem) :
    fa.reserveBitmap memory = (List.range' 0 (min fa.reservedFrames fa.frameCount)).foldl
      (fun memory index => fa.mark memory index true) memory := by
  simp [reserveBitmap, reservedFrames, placed.bitmap_eq, frameSize]

/-- After the bitmap is zeroed, `init` writes only the bitmap. -/
theorem init_marks (returned : init memory regions = .ok (fa, after)) :
    WritesWithin fa.bitmapSpan.toSet (fa.zeroBitmap memory) after := by
  simp only [init, bind_eq_ok, pure_eq_ok, Prod.mk.injEq] at returned
  obtain ⟨placedAt, placing, _, _, freed, freeing, rfl, rfl⟩ := returned
  have placed := placed_of_place placing
  refine .trans ?_ ((used_foldlM_freeRegion placed freeing).1.trans ?_)
  · exact foldl_mark_writes placed _ (by simp)
  · rw [placed.reserveBitmap_eq]
    refine foldl_mark_writes placed _ fun index member => ?_
    simp only [List.mem_range'_1] at member
    omega

/-- After `init` a frame is free exactly when it may be handed out and the last pass did
not reserve it; only the bitmap was written. -/
theorem init_spec (returned : init memory regions = .ok (fa, after)) :
    fa.Placed ∧ WritesWithin fa.bitmapSpan.toSet memory after ∧ ∀ index < fa.frameCount,
      (fa.used after index = false ↔
        fa.Allocatable regions index ∧ fa.reservedFrames ≤ index) := by
  have writes := (zeroBitmap_writes fa memory).trans (init_marks returned)
  simp only [init, bind_eq_ok, pure_eq_ok, Prod.mk.injEq] at returned
  obtain ⟨placedAt, placing, _, _, freed, freeing, rfl, rfl⟩ := returned
  have placed := placed_of_place placing
  obtain ⟨_, freeBits⟩ := used_foldlM_freeRegion placed freeing
  refine ⟨placed, writes, fun index inside => ?_⟩
  have words : placedAt.bitmapWords ≠ 0 := by
    rw [placed.words_eq]
    omega
  rw [placed.reserveBitmap_eq, used_foldl_mark, freeBits index inside, markAll, used_foldl_mark]
  simp only [List.mem_range, inside, decide_true, Bool.or_true, Bool.true_and,
    Bool.or_eq_false_iff, Bool.not_eq_false', Bool.and_eq_true, List.any_eq_true,
    decide_eq_true_eq, Bool.not_eq_true', placed.isBitmapFrame_eq_false, words, false_or,
    decide_eq_false_iff_not, List.mem_range'_1, Allocatable]
  have bound : ¬(0 ≤ index ∧ index < 0 + min placedAt.reservedFrames placedAt.frameCount) ↔
      placedAt.reservedFrames ≤ index := by omega
  rw [bound]

/-- `init` stops at a bitmap at address 0. -/
theorem init_null (wf : WellFormedMap regions) (memory : PhysMem) (null : StartsAtNull regions) :
    init memory regions = .error .null := by
  obtain ⟨fa, placing, words, atNull⟩ := place_returns wf
  have refused : fa.checkBitmap = .error .null := if_pos ⟨atNull.mpr null, words⟩
  rw [init, placing, ok_bind, refused]
  rfl

/-- `init` returns for every other well-formed map. -/
theorem init_returns (wf : WellFormedMap regions) (memory : PhysMem)
    (nonnull : ¬StartsAtNull regions) :
    ∃ fa after, init memory regions = .ok (fa, after) := by
  obtain ⟨fa, placing, _, atNull⟩ := place_returns wf
  obtain ⟨freed, freeing⟩ := foldlM_ok fa.freeRegion regions (by
    intro state region member
    unfold freeRegion
    split
    · have below := wf.bounded region member
      have order := wf.ordered region member
      obtain ⟨first, firstUp⟩ : ∃ first, alignUp region.start frameSize = .ok first :=
        ⟨_, alignUp_frame.mpr ⟨by unfold wordSize; omega, rfl⟩⟩
      exact ⟨_, bind_eq_ok.mpr ⟨first, firstUp, rfl⟩⟩
    · exact ⟨_, rfl⟩) (fa.markAll (fa.zeroBitmap memory))
  exact ⟨fa, fa.reserveBitmap freed, by
    simp only [init, bind_eq_ok, pure_eq_ok]
    exact ⟨fa, placing, (), if_neg fun null => nonnull (atNull.mp null.1), freed, freeing, rfl⟩⟩

end FrameAllocator

end Aperture.Mm
