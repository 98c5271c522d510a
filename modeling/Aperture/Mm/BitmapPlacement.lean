import Aperture.Mm.FrameOwnership

/-!
# Where the frame bitmap goes

`init` sizes the bitmap by the span from the lowest to the highest usable address and puts it at
the lowest usable page. Both are functions of the memory map alone. Against them stand two
promises: the frames `init` leaves free are exactly the usable ones off the bitmap, and the bitmap
itself lies in usable memory. The last pass reserves one frame more than the bitmap covers when
its size is a whole number of pages, and nothing checks that usable memory goes on behind the
lowest page.
-/

namespace Aperture.Mm

open Machine

/-! ## The map's own numbers -/

/-- Lowest address of a usable region. -/
def lowestUsable (regions : List MemoryRegion) : Nat :=
  ((regions.filter fun region => region.kind = .usable).map MemoryRegion.start).foldr min
    (wordSize - 1)

/-- Highest end of a usable region. -/
def highestUsable (regions : List MemoryRegion) : Nat :=
  ((regions.filter fun region => region.kind = .usable).map MemoryRegion.stop).foldr max 0

/-- Address of the lowest whole page from the first usable byte on. -/
def bitmapStart (regions : List MemoryRegion) : Nat := (lowestUsable regions + 4095) / 4096 * 4096

/-- Pages from there to the last usable byte. -/
def managedPages (regions : List MemoryRegion) : Nat :=
  (highestUsable regions / 4096 * 4096 - bitmapStart regions) / 4096

/-- Bytes of a bitmap with a bit for each page, in whole words. -/
def bitmapBytes (regions : List MemoryRegion) : Nat := (managedPages regions + 63) / 64 * 8

/-- The address is usable memory. -/
def UsableAt (regions : List MemoryRegion) (address : Nat) : Prop :=
  ∃ region ∈ regions, region.kind = .usable ∧ address ∈ region.span

/-- The page at an address lies whole in one usable region. -/
def UsablePage (regions : List MemoryRegion) (address : Nat) : Prop :=
  ∃ region ∈ regions, region.kind = .usable ∧ region.start ≤ address ∧
    address + 4096 ≤ region.stop

namespace FrameAllocator

variable {fa : FrameAllocator} {memory after : PhysMem} {regions : List MemoryRegion}

/-- The range loop returns the lowest start and the highest end. -/
theorem usableRange_eq {range result : Nat × Nat × Nat} (bounded : range.1 ≤ wordSize - 1)
    (returned : regions.foldlM usableRangeStep range = .ok result) :
    result.1 = min range.1 (lowestUsable regions) ∧
      result.2.1 = max range.2.1 (highestUsable regions) := by
  induction regions generalizing range with
  | nil =>
    obtain rfl := pure_eq_ok.mp returned
    exact ⟨(Nat.min_eq_left bounded).symm, (Nat.max_eq_left (Nat.zero_le _)).symm⟩
  | cons region regions ih =>
    rw [List.foldlM_cons, bind_eq_ok] at returned
    obtain ⟨next, step, rest⟩ := returned
    unfold usableRangeStep at step
    split at step
    · rename_i usable
      simp only [bind_eq_ok, pure_eq_ok] at step
      obtain ⟨_, _, _, _, rfl⟩ := step
      have lowest : lowestUsable (region :: regions) =
          min region.start (lowestUsable regions) := by
        simp [lowestUsable, usable]
      have highest : highestUsable (region :: regions) =
          max region.stop (highestUsable regions) := by
        simp [highestUsable, usable]
      obtain ⟨start, stop⟩ := ih (by dsimp only; split <;> omega) rest
      dsimp only at start stop
      rw [start, stop, lowest, highest]
      constructor
      · split <;> omega
      · split <;> omega
    · rename_i notUsable
      obtain rfl := pure_eq_ok.mp step
      have lowest : lowestUsable (region :: regions) = lowestUsable regions := by
        simp [lowestUsable, notUsable]
      have highest : highestUsable (region :: regions) = highestUsable regions := by
        simp [highestUsable, notUsable]
      rw [lowest, highest]
      exact ih bounded rest

/-- Placement follows the map's numbers. -/
theorem place_eq (returned : place regions = .ok fa) :
    fa.firstFrame = bitmapStart regions ∧ fa.frameCount = managedPages regions ∧
      fa.bitmapSpan = ⟨bitmapStart regions, bitmapBytes regions⟩ := by
  have placed := placed_of_place returned
  simp only [place, bind_eq_ok, pure_eq_ok, sub64_eq_ok] at returned
  obtain ⟨⟨start, stop, total⟩, range, first, firstUp, size, ⟨ordered, rfl⟩, bitmap, _, rfl⟩ :=
    returned
  have stopFits : stop < wordSize := (usableRange_encloses range).2.2.1 (by decide)
  obtain ⟨lowest, highest⟩ := usableRange_eq (le_refl _) range
  have startBelow : lowestUsable regions ≤ wordSize - 1 := by
    unfold lowestUsable
    generalize (regions.filter fun region => region.kind = .usable).map MemoryRegion.start = starts
    induction starts with
    | nil => exact le_refl _
    | cons first rest ih => exact (Nat.min_le_right _ _).trans ih
  have isLowest : start = lowestUsable regions := lowest.trans (Nat.min_eq_right startBelow)
  have isHighest : stop = highestUsable regions := highest.trans (Nat.max_eq_right (Nat.zero_le _))
  rw [alignUp_frame] at firstUp
  have firstEq : first = bitmapStart regions := by
    rw [firstUp.2, isLowest, bitmapStart]
  have countEq : (alignDown stop frameSize - first) / frameSize = managedPages regions := by
    rw [alignDown_frame stopFits, firstEq, isHighest, managedPages, frameSize]
  refine ⟨firstEq, countEq, ?_⟩
  have bitmapEq := placed.bitmap_eq
  have wordsEq := placed.words_eq
  dsimp only at bitmapEq wordsEq
  simp only [bitmapSpan, bitmapBytes, bitmapEq, wordsEq, ← countEq, ← firstEq, Nat.mul_comm]

/-! ## The frames left free -/

/-- Behind a bitmap of whole pages the last pass reserves one frame too many. -/
theorem allocatable_reserved (returned : place regions = .ok fa) {index : Nat}
    (allocatable : fa.Allocatable regions index) (reserved : index < fa.reservedFrames) :
    bitmapBytes regions % 4096 = 0 ∧
      UsablePage regions (bitmapStart regions + bitmapBytes regions) := by
  obtain ⟨⟨region, member, usable, above, below⟩, apart⟩ := allocatable
  obtain ⟨firstEq, _, spanEq⟩ := place_eq returned
  have wordsEq := (placed_of_place returned).words_eq
  have sizeEq : 8 * fa.bitmapWords = bitmapBytes regions := congrArg Span.size spanEq
  rw [spanEq] at apart
  simp only [Span.Separate, frameSpan, frameAddr, frameSize, firstEq] at apart above below
  simp only [reservedFrames] at reserved
  refine ⟨by omega, region, member, usable, by omega, by omega⟩

/-- The frame it reserves is one that may be handed out. -/
theorem reserved_allocatable (returned : place regions = .ok fa)
    (whole : bitmapBytes regions % 4096 = 0)
    (usable : UsablePage regions (bitmapStart regions + bitmapBytes regions)) :
    ∃ index < fa.frameCount, index < fa.reservedFrames ∧ fa.Allocatable regions index := by
  obtain ⟨region, member, isUsable, above, below⟩ := usable
  obtain ⟨firstEq, _, spanEq⟩ := place_eq returned
  have aligned := (placed_of_place returned).aligned
  have sizeEq : 8 * fa.bitmapWords = bitmapBytes regions := congrArg Span.size spanEq
  have pageEq : 4096 * ((bitmapStart regions + bitmapBytes regions) / 4096) =
      bitmapStart regions + bitmapBytes regions := by
    rw [← firstEq]
    omega
  rw [← pageEq] at above below
  obtain ⟨index, inside, address⟩ := managed_of_place returned member isUsable above below
  rw [pageEq] at above below address
  refine ⟨index, inside, ?_, ⟨region, member, isUsable, ?_, ?_⟩, ?_⟩
  · simp only [frameAddr, frameSize, firstEq] at address
    simp only [reservedFrames]
    omega
  · rw [address]
    exact above
  · rw [address]
    exact below
  · rw [spanEq]
    simp only [Span.Separate, frameSpan, address]
    omega

/-- For every well-formed memory map on which `init` does not stop at address 0 it leaves free
exactly the frames that lie in one usable region off the bitmap, unless the bitmap fills whole pages
and the page behind it is usable. -/
theorem init_frees_exactly_iff (wf : WellFormedMap regions) (memory : PhysMem) :
    (StartsAtNull regions → init memory regions = .error .null) ∧
    (¬StartsAtNull regions → ∃ fa after, init memory regions = .ok (fa, after) ∧
      ((∀ index < fa.frameCount,
          (fa.used after index = false ↔ fa.Allocatable regions index)) ↔
        ¬(bitmapBytes regions % 4096 = 0 ∧
          UsablePage regions (bitmapStart regions + bitmapBytes regions)))) := by
  refine ⟨init_null wf memory, fun nonnull => ?_⟩
  obtain ⟨fa, after, returned⟩ := init_returns wf memory nonnull
  have placing := place_of_init returned
  obtain ⟨_, _, bits⟩ := init_spec returned
  refine ⟨fa, after, returned, fun exactly ⟨whole, usable⟩ => ?_, fun apart index inside => ?_⟩
  · obtain ⟨index, inside, reserved, allocatable⟩ := reserved_allocatable placing whole usable
    have kept := ((bits index inside).mp ((exactly index inside).mpr allocatable)).2
    omega
  · rw [bits index inside]
    refine and_iff_left_of_imp fun allocatable => ?_
    by_contra reserved
    exact apart (allocatable_reserved placing allocatable (Nat.not_le.mp reserved))

/-- The mebibyte's bitmap is four words. -/
theorem init_frees_exactly_iff_mebibyte : ∃ fa after,
    init ⟨fun _ => 0, []⟩ mebibyteMap = .ok (fa, after) ∧ ∀ index < fa.frameCount,
      (fa.used after index = false ↔ fa.Allocatable mebibyteMap index) := by
  obtain ⟨fa, after, returned, exactly⟩ :=
    (init_frees_exactly_iff mebibyteMap_wellFormed ⟨fun _ => 0, []⟩).2 (by decide)
  exact ⟨fa, after, returned, exactly.mpr fun ⟨whole, _⟩ => absurd whole (by decide)⟩

/-- Usable memory of 128 MiB, whose bitmap fills one page. -/
def wholePageMap : List MemoryRegion := [⟨0x100000, 0x8100000, .usable, mebibyte_lt, by decide⟩]

/-- It is a well-formed map. -/
theorem wholePageMap_wellFormed : WellFormedMap wholePageMap where
  ordered := by decide
  bounded := by decide
  apart := by decide
  page := ⟨_, List.mem_cons_self, rfl, 0x100, by decide, by decide⟩

/-- The frame behind its bitmap is usable and stays marked. -/
theorem init_frees_exactly_counterexample :
    WellFormedMap wholePageMap ∧ ∃ fa after,
      init ⟨fun _ => 0, []⟩ wholePageMap = .ok (fa, after) ∧ ∃ index < fa.frameCount,
        fa.Allocatable wholePageMap index ∧ fa.used after index = true := by
  obtain ⟨fa, after, returned⟩ :=
    init_returns wholePageMap_wellFormed ⟨fun _ => 0, []⟩ (by decide)
  obtain ⟨index, inside, reserved, allocatable⟩ := reserved_allocatable (place_of_init returned)
    (by decide) ⟨_, List.mem_cons_self, rfl, by decide, by decide⟩
  refine ⟨wholePageMap_wellFormed, fa, after, returned, index, inside, allocatable, ?_⟩
  by_contra free
  rw [Bool.not_eq_true] at free
  have kept := (((init_spec returned).2.2 index inside).mp free).2
  omega

/-! ## The bitmap's own memory -/

/-- Zeroing logs every word. -/
theorem zeroBitmap_log (fa : FrameAllocator) (memory : PhysMem) :
    (fa.zeroBitmap memory).log =
      ((List.range fa.bitmapWords).map fun word => ⟨fa.cell word, 8⟩).reverse ++ memory.log := by
  unfold zeroBitmap
  generalize List.range fa.bitmapWords = words
  induction words generalizing memory with
  | nil => rfl
  | cons word words ih =>
    rw [List.foldl_cons, ih, List.map_cons, List.reverse_cons, List.append_assoc]
    rfl

/-- `init` writes exactly the bytes of the bitmap. -/
theorem mem_since_init (returned : init memory regions = .ok (fa, after)) (a : Nat) :
    (∃ span ∈ after.since memory, a ∈ span) ↔
      a ∈ (⟨bitmapStart regions, bitmapBytes regions⟩ : Span) := by
  rw [← (place_eq (place_of_init returned)).2.2]
  constructor
  · rintro ⟨span, member, inside⟩
    exact (init_spec returned).2.1.since span member a inside
  · intro inside
    obtain ⟨marks, logged, _⟩ := (init_marks returned).logged
    rw [zeroBitmap_log, ← List.append_assoc] at logged
    rw [PhysMem.since_eq logged]
    simp only [bitmapSpan, Span.mem_iff] at inside
    refine ⟨⟨fa.cell ((a - fa.bitmap) / 8), 8⟩, ?_, ?_⟩
    · refine List.mem_append_right _ (List.mem_reverse.mpr (List.mem_map.mpr ⟨_, ?_, rfl⟩))
      rw [List.mem_range]
      omega
    · simp only [Span.mem_iff, cell]
      omega

/-- For every well-formed memory map on which `init` does not stop at address 0 it writes usable
memory only, exactly when usable memory covers the bitmap's size from the lowest usable page on. -/
theorem init_writes_usable_iff (wf : WellFormedMap regions) (memory : PhysMem) :
    (StartsAtNull regions → init memory regions = .error .null) ∧
    (¬StartsAtNull regions → ∃ fa after, init memory regions = .ok (fa, after) ∧
      ((∀ span ∈ after.since memory, ∀ a ∈ span, UsableAt regions a) ↔
        ∀ a, bitmapStart regions ≤ a → a < bitmapStart regions + bitmapBytes regions →
          UsableAt regions a)) := by
  refine ⟨init_null wf memory, fun nonnull => ?_⟩
  obtain ⟨fa, after, returned⟩ := init_returns wf memory nonnull
  refine ⟨fa, after, returned, fun usable a above below => ?_, fun covered span member a inside => ?_⟩
  · obtain ⟨span, member, inside⟩ := (mem_since_init returned a).mpr
      (Span.mem_iff.mpr ⟨above, below⟩)
    exact usable span member a inside
  · obtain ⟨above, below⟩ := Span.mem_iff.mp ((mem_since_init returned a).mp ⟨span, member, inside⟩)
    exact covered a above below

/-- The mebibyte holds its bitmap. -/
theorem init_writes_usable_iff_mebibyte : ∃ fa after,
    init ⟨fun _ => 0, []⟩ mebibyteMap = .ok (fa, after) ∧
      ∀ span ∈ after.since ⟨fun _ => 0, []⟩, ∀ a ∈ span, UsableAt mebibyteMap a := by
  obtain ⟨fa, after, returned, usable⟩ :=
    (init_writes_usable_iff mebibyteMap_wellFormed ⟨fun _ => 0, []⟩).2 (by decide)
  refine ⟨fa, after, returned, usable.mpr fun a above below => ?_⟩
  have startEq : bitmapStart mebibyteMap = 0x100000 := by decide
  have sizeEq : bitmapBytes mebibyteMap = 32 := by decide
  refine ⟨_, List.mem_cons_self, rfl, ?_⟩
  simp only [MemoryRegion.span, Span.mem_iff]
  omega

/-- One usable page below reserved memory, and 255 MiB of usable memory above it. -/
def lowPageMap : List MemoryRegion :=
  [⟨0x1000, 0x2000, .usable, by decide, by decide⟩,
    ⟨0x2000, 0x100000, .reserved, by decide, mebibyte_lt⟩,
    ⟨0x100000, 0x10000000, .usable, mebibyte_lt, by decide⟩]

/-- It is a well-formed map. -/
theorem lowPageMap_wellFormed : WellFormedMap lowPageMap where
  ordered := by decide
  bounded := by decide
  apart := by decide
  page := ⟨_, List.mem_cons_self, rfl, 1, by decide, by decide⟩

/-- Its bitmap runs on into the reserved region. -/
theorem init_writes_usable_counterexample :
    WellFormedMap lowPageMap ∧ ∃ fa after, init ⟨fun _ => 0, []⟩ lowPageMap = .ok (fa, after) ∧
      ∃ span ∈ after.since ⟨fun _ => 0, []⟩, 0x2000 ∈ span ∧ ¬UsableAt lowPageMap 0x2000 := by
  obtain ⟨fa, after, returned⟩ := init_returns lowPageMap_wellFormed ⟨fun _ => 0, []⟩ (by decide)
  obtain ⟨span, member, inside⟩ := (mem_since_init returned 0x2000).mpr (by decide)
  refine ⟨lowPageMap_wellFormed, fa, after, returned, span, member, inside, ?_⟩
  rintro ⟨region, listed, usable, covers⟩
  revert region
  decide

end FrameAllocator

end Aperture.Mm
