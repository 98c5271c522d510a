import Aperture.Mm.FrameOwnership

/-!
# The budget of frames

`init` leaves a number of frames free, and that number is all there ever is: in every run a frame is
free or held, so `allocate_frame` fails exactly when as many frames are held as `init` left. The
budget is what `count_usable_frames` counts less the frames reserved for the bitmap, as long as the
regions are page-aligned; it is never more.
-/

namespace Aperture.Mm

open Machine

/-- One region of `count_usable_frames`. -/
def countRegion (count : Nat) (region : MemoryRegion) : Except Panic Nat :=
  if region.kind = .usable then do
    let size ← sub64 region.stop region.start
    add64 count (size / 4096)
  else pure count

/-- `count_usable_frames`. -/
def countUsableFrames (regions : List MemoryRegion) : Except Panic Nat :=
  regions.foldlM countRegion 0

/-- The first whole page behind the start of a region. -/
def firstPage (region : MemoryRegion) : Nat := (region.start + 4095) / 4096

/-- The whole pages of a usable region. -/
def wholePages (region : MemoryRegion) : Nat :=
  if region.kind = .usable then region.stop / 4096 - firstPage region else 0

/-- The pages that `count_usable_frames` counts for a region. -/
def countedPages (region : MemoryRegion) : Nat :=
  if region.kind = .usable then (region.stop - region.start) / 4096 else 0

/-- No more pages are whole than are counted. -/
theorem wholePages_le (region : MemoryRegion) : wholePages region ≤ countedPages region := by
  unfold wholePages countedPages firstPage
  split <;> omega

/-- Of a page-aligned region all are whole. -/
theorem wholePages_eq {region : MemoryRegion} (start : region.start % 4096 = 0)
    (stop : region.stop % 4096 = 0) : wholePages region = countedPages region := by
  unfold wholePages countedPages firstPage
  split <;> omega

/-- The counted pages fit the usable regions. -/
theorem countedPages_le_total (regions : List MemoryRegion) :
    (regions.map countedPages).sum * 4096 ≤ usableTotal regions := by
  induction regions with
  | nil => exact Nat.le_refl 0
  | cons region regions ih =>
    rw [List.map_cons, List.sum_cons, Nat.add_mul]
    by_cases usable : region.kind = .usable
    · have split : usableTotal (region :: regions) =
          (region.stop - region.start) + usableTotal regions := by
        simp [usableTotal, usable, MemoryRegion.span]
      have here : countedPages region = (region.stop - region.start) / 4096 := if_pos usable
      rw [split, here]
      exact Nat.add_le_add (Nat.div_mul_le_self _ _) ih
    · have split : usableTotal (region :: regions) = usableTotal regions := by
        simp [usableTotal, usable]
      have here : countedPages region = 0 := if_neg usable
      rw [split, here, Nat.zero_mul, Nat.zero_add]
      exact ih

/-- The count returns on every map whose usable regions fit the address space, and is the sum. -/
theorem countRegions_returns {regions : List MemoryRegion} {count : Nat}
    (ordered : ∀ region ∈ regions, region.start ≤ region.stop)
    (fits : count + (regions.map countedPages).sum < wordSize) :
    regions.foldlM countRegion count = .ok (count + (regions.map countedPages).sum) := by
  induction regions generalizing count with
  | nil => rfl
  | cons region regions ih =>
    rw [List.map_cons, List.sum_cons] at fits ⊢
    have next : countRegion count region = .ok (count + countedPages region) := by
      unfold countRegion countedPages at *
      split
      · rename_i usable
        rw [if_pos usable] at fits
        have order := ordered region List.mem_cons_self
        apply bind_eq_ok.mpr
        exact ⟨_, sub64_eq_ok.mpr ⟨order, rfl⟩, add64_eq_ok.mpr ⟨by omega, rfl⟩⟩
      · rfl
    have later : ∀ other ∈ regions, other.start ≤ other.stop :=
      fun other member => ordered other (List.mem_cons_of_mem _ member)
    rw [List.foldlM_cons, next, ok_bind, ih later (by omega), Nat.add_assoc]

namespace FrameAllocator

variable {fa : FrameAllocator} {memory after : PhysMem} {regions : List MemoryRegion}

/-! ## Frames of the map -/

/-- The frames that lie whole in a usable region. -/
def usableIndices (fa : FrameAllocator) (regions : List MemoryRegion) : Finset Nat :=
  (Finset.range fa.frameCount).filter fun index => ∃ region ∈ regions, fa.InRegion region index

/-- The frames of one region are its whole pages. -/
theorem card_usableIndices_region (placing : place regions = .ok fa) {region : MemoryRegion}
    (member : region ∈ regions) :
    (fa.usableIndices [region]).card = wholePages region := by
  have placed := placed_of_place placing
  have aligned := placed.aligned
  by_cases usable : region.kind = .usable
  · have managed (page : Nat) (above : firstPage region ≤ page) (below : page < region.stop / 4096) :
        ∃ index < fa.frameCount, fa.frameAddr index = 4096 * page := by
      unfold firstPage at above
      exact managed_of_place placing member usable (by omega) (by omega)
    have same : fa.usableIndices [region] =
        (Finset.Ico (firstPage region) (region.stop / 4096)).image
          fun page => page - fa.firstFrame / 4096 := by
      ext index
      simp only [usableIndices, List.mem_singleton, exists_eq_left, InRegion, Finset.mem_filter,
        Finset.mem_range, Finset.mem_image, Finset.mem_Ico]
      constructor
      · rintro ⟨_, _, above, below⟩
        refine ⟨index + fa.firstFrame / 4096, ⟨?_, ?_⟩, by omega⟩
        · unfold firstPage
          unfold frameAddr frameSize at above
          omega
        · unfold frameAddr frameSize at below
          omega
      · rintro ⟨page, ⟨above, below⟩, rfl⟩
        obtain ⟨index, inside, address⟩ := managed page above below
        have named : page - fa.firstFrame / 4096 = index := by
          unfold frameAddr frameSize at address
          omega
        rw [named, address]
        unfold firstPage at above
        unfold frameSize
        exact ⟨inside, usable, by omega, by omega⟩
    rw [same, Finset.card_image_of_injOn, Nat.card_Ico, wholePages, if_pos usable]
    intro page inside other otherInside equal
    obtain ⟨above, below⟩ := Finset.mem_Ico.mp (Finset.mem_coe.mp inside)
    obtain ⟨otherAbove, otherBelow⟩ := Finset.mem_Ico.mp (Finset.mem_coe.mp otherInside)
    obtain ⟨_, _, address⟩ := managed page above below
    obtain ⟨_, _, otherAddress⟩ := managed other otherAbove otherBelow
    unfold frameAddr frameSize at address otherAddress
    dsimp only at equal
    omega
  · rw [wholePages, if_neg usable]
    apply Finset.card_eq_zero.mpr
    apply Finset.filter_eq_empty_iff.mpr
    rintro index _ ⟨other, isRegion, inRegion⟩
    rw [List.mem_singleton.mp isRegion] at inRegion
    exact usable inRegion.1

/-- The frames of several regions are the sum, since no frame lies in two. -/
theorem card_usableIndices (placing : place regions = .ok fa) {part : List MemoryRegion}
    (within : part ⊆ regions)
    (apart : part.Pairwise fun left right => left.span.Separate right.span) :
    (fa.usableIndices part).card = (part.map wholePages).sum := by
  induction part with
  | nil =>
    apply Finset.card_eq_zero.mpr
    apply Finset.filter_eq_empty_iff.mpr
    rintro index _ ⟨region, member, _⟩
    cases member
  | cons region part ih =>
    obtain ⟨alone, rest⟩ := List.pairwise_cons.mp apart
    obtain ⟨here, later⟩ := List.cons_subset.mp within
    have split : fa.usableIndices (region :: part) =
        fa.usableIndices [region] ∪ fa.usableIndices part := by
      ext index
      simp only [usableIndices, List.mem_cons, List.not_mem_nil, or_false, exists_eq_or_imp,
        exists_eq_left, Finset.mem_filter, Finset.mem_union]
      tauto
    have disjoint : Disjoint (fa.usableIndices [region]) (fa.usableIndices part) := by
      apply Finset.disjoint_left.mpr
      intro index inHere inLater
      obtain ⟨_, other, isRegion, _, above, below⟩ := Finset.mem_filter.mp inHere
      rw [List.mem_singleton.mp isRegion] at above below
      obtain ⟨_, other, member, _, otherAbove, otherBelow⟩ := Finset.mem_filter.mp inLater
      have separate := alone other member
      unfold frameSize at below otherBelow
      simp only [MemoryRegion.span, Span.Separate] at separate
      omega
    rw [split, Finset.card_union_of_disjoint disjoint, card_usableIndices_region placing here,
      ih later rest, List.map_cons, List.sum_cons]

/-! ## The budget -/

/-- The usable frames that the last pass of `init` reserves for the bitmap. -/
def reservedIndices (fa : FrameAllocator) (regions : List MemoryRegion) : Finset Nat :=
  (fa.usableIndices regions).filter fun index => index < fa.reservedFrames

/-- The bitmap lies in the frames that are reserved for it. -/
theorem Placed.off_bitmap (placed : fa.Placed) {index : Nat} (behind : fa.reservedFrames ≤ index) :
    (fa.frameSpan index).Separate fa.bitmapSpan := by
  simp only [Span.Separate, frameSpan, bitmapSpan, frameAddr, frameSize, placed.bitmap_eq]
  unfold reservedFrames at behind
  omega

/-- Behind `init` the usable frames are free but for those that are reserved. -/
theorem freeFrames_init (initialized : init memory regions = .ok (fa, after)) :
    fa.freeFrames after + (fa.reservedIndices regions).card = (fa.usableIndices regions).card := by
  obtain ⟨placed, _, bits⟩ := init_spec initialized
  have free : ((Finset.range fa.frameCount).filter fun index => fa.used after index = false) =
      (fa.usableIndices regions).filter fun index => ¬ index < fa.reservedFrames := by
    ext index
    simp only [usableIndices, Finset.mem_filter, Finset.mem_range, not_lt]
    constructor
    · rintro ⟨inside, clear⟩
      obtain ⟨allocatable, behind⟩ := (bits index inside).mp clear
      exact ⟨⟨inside, allocatable.1⟩, behind⟩
    · rintro ⟨⟨inside, inRegion⟩, behind⟩
      exact ⟨inside, (bits index inside).mpr ⟨⟨inRegion, placed.off_bitmap behind⟩, behind⟩⟩
  unfold freeFrames reservedIndices
  rw [free, Nat.add_comm]
  exact Finset.card_filter_add_card_filter_not _

/-- Giving a held frame back makes one more free. -/
theorem freeFrames_freed {frame index : Nat} (inside : index < fa.frameCount)
    (address : frame = fa.frameAddr index) (marked : fa.used memory index = true) :
    fa.freeFrames (fa.freeFrame memory frame) = fa.freeFrames memory + 1 := by
  rw [address, freeFrame_frameAddr inside]
  symm
  apply freeFrames_taken inside
  · rw [fa.used_mark, if_pos rfl]
  · intro other _
    rw [fa.used_mark]
    by_cases same : other = index
    · rw [if_pos same, same, marked]
      simp
    · simp [same]

/-- Every lawful step keeps the sum of the frames that are held and those that are free. -/
theorem Owned.conserved (covers : fa.Covers) {state : Frames} (owned : fa.Owned regions state)
    {op : FrameOp} (lawful : fa.Lawful state op) :
    (fa.frameStep state op).held.length + fa.freeFrames (fa.frameStep state op).memory =
      state.held.length + fa.freeFrames state.memory := by
  cases op with
  | allocate =>
    simp only [frameStep]
    split
    · rename_i frame memory returned
      rcases freeFrames_allocateFrame covers returned with ⟨none, _⟩ | ⟨_, fewer⟩
      · cases none
      · show (frame :: state.held).length + fa.freeFrames memory = _
        rw [List.length_cons]
        omega
    · rename_i memory returned
      rcases freeFrames_allocateFrame covers returned with ⟨_, before, now⟩ | ⟨some, _⟩
      · rw [before, now]
      · cases some
  | free frame =>
    have member : frame ∈ state.held := lawful
    obtain ⟨index, inside, address, marked, _⟩ := owned.held frame member
    have positive := List.length_pos_of_mem member
    show (state.held.erase frame).length + fa.freeFrames (fa.freeFrame state.memory frame) = _
    rw [List.length_erase_of_mem member, freeFrames_freed inside address marked]
    omega
  | other memory =>
    show state.held.length + fa.freeFrames memory = _
    rw [freeFrames_congr fun index inside => used_congr (covers.word_lt inside) lawful]

/-- So does every run. -/
theorem conserved_of_run (initialized : init memory regions = .ok (fa, after)) {ops : List FrameOp}
    {state : Frames} (run : fa.FrameRun ⟨after, []⟩ ops state) :
    fa.Owned regions state ∧
      state.held.length + fa.freeFrames state.memory = fa.freeFrames after := by
  have placed := (init_spec initialized).1
  refine Run.invariant (fun state => fa.Owned regions state ∧
    state.held.length + fa.freeFrames state.memory = fa.freeFrames after) ?_ run
      ⟨owned_of_run initialized (.nil _), Nat.zero_add _⟩
  rintro before op _ ⟨owned, conserved⟩ ⟨lawful, rfl⟩
  exact ⟨owned.step placed.covers lawful, (owned.conserved placed.covers lawful).trans conserved⟩

/-- For every memory map that a bootloader can report, no frame gets lost and none is made: in every
run of `allocate_frame` and `free_frame` behind `init`, a frame is given out while fewer are held than
`init` has left free, and none is when as many are held. -/
theorem frames_conserved {regions : List MemoryRegion} (wf : WellFormedMap regions)
    (memory : PhysMem) :
    (StartsAtNull regions → init memory regions = .error .null) ∧
    (¬StartsAtNull regions → ∃ fa after, init memory regions = .ok (fa, after) ∧
      ∀ ops state, fa.FrameRun ⟨after, []⟩ ops state →
        state.held.length + fa.freeFrames state.memory = fa.freeFrames after ∧
        state.held.length ≤ fa.freeFrames after ∧
        ((fa.allocateFrame state.memory).1.isSome = true ↔
          state.held.length < fa.freeFrames after)) := by
  refine ⟨init_null wf memory, fun nonnull => ?_⟩
  obtain ⟨fa, after, initialized⟩ := init_returns wf memory nonnull
  refine ⟨fa, after, initialized, fun ops state run => ?_⟩
  have covers := (init_spec initialized).1.covers
  obtain ⟨_, conserved⟩ := conserved_of_run initialized run
  refine ⟨conserved, by omega, ?_⟩
  cases returned : fa.allocateFrame state.memory with
  | mk frame next =>
    rcases freeFrames_allocateFrame covers returned with ⟨rfl, empty, _⟩ | ⟨some, fewer⟩
    · constructor
      · intro found
        cases found
      · intro room
        omega
    · exact ⟨fun _ => by omega, fun _ => some⟩

/-- The law at a mebibyte: its budget is 255 frames, and with one held the next is given out. -/
theorem frames_conserved_mebibyte :
    ∃ fa after state, init ⟨fun _ => 0, []⟩ mebibyteMap = .ok (fa, after) ∧
      fa.FrameRun ⟨after, []⟩ [.allocate] state ∧ 255 ≤ fa.freeFrames after ∧
      (fa.allocateFrame state.memory).1.isSome = true := by
  obtain ⟨fa, after, initialized, conserved⟩ :=
    (frames_conserved mebibyteMap_wellFormed ⟨fun _ => 0, []⟩).2 (by decide)
  obtain ⟨same, initializedAgain, free⟩ := mebibyteMap_init ⟨fun _ => 0, []⟩
  rw [initialized, Except.ok.injEq, Prod.mk.injEq] at initializedAgain
  obtain ⟨rfl, rfl⟩ := initializedAgain
  have budget := mebibyteMap_freeFrames free
  have run : mebibyteFrames.FrameRun ⟨after, []⟩ [.allocate]
      (mebibyteFrames.frameStep ⟨after, []⟩ .allocate) := .cons ⟨trivial, rfl⟩ (.nil _)
  refine ⟨_, after, _, initialized, run, budget, (conserved _ _ run).2.2.mpr ?_⟩
  have few : (mebibyteFrames.frameStep ⟨after, []⟩ .allocate).held.length ≤ 1 := by
    unfold frameStep
    dsimp only
    split
    · exact Nat.le_refl 1
    · exact Nat.zero_le 1
  omega

/-- For every memory map that a bootloader can report, `count_usable_frames` returns, and it never
counts fewer frames than `init` leaves free together with those that are reserved for the bitmap. On
page-aligned regions it counts exactly these. -/
theorem countUsableFrames_budget {regions : List MemoryRegion} (wf : WellFormedMap regions)
    (memory : PhysMem) :
    ∃ count, countUsableFrames regions = .ok count ∧
      (StartsAtNull regions → init memory regions = .error .null) ∧
      (¬StartsAtNull regions → ∃ fa after, init memory regions = .ok (fa, after) ∧
        fa.freeFrames after + (fa.reservedIndices regions).card ≤ count ∧
        ((∀ region ∈ regions, region.start % 4096 = 0 ∧ region.stop % 4096 = 0) →
          fa.freeFrames after + (fa.reservedIndices regions).card = count)) := by
  have total := countedPages_le_total regions
  have bound := wf.usableTotal_le
  have counted := @countRegions_returns regions 0 wf.ordered (by unfold wordSize; omega)
  rw [Nat.zero_add] at counted
  refine ⟨_, counted, init_null wf memory, fun nonnull => ?_⟩
  obtain ⟨fa, after, initialized⟩ := init_returns wf memory nonnull
  refine ⟨fa, after, initialized, ?_, fun aligned => ?_⟩
  · rw [freeFrames_init initialized,
      card_usableIndices (place_of_init initialized) (List.Subset.refl _) wf.apart]
    apply List.sum_le_sum
    intro region _
    exact wholePages_le region
  · rw [freeFrames_init initialized,
      card_usableIndices (place_of_init initialized) (List.Subset.refl _) wf.apart]
    congr 1
    apply List.map_congr_left
    intro region member
    exact wholePages_eq (aligned region member).1 (aligned region member).2

/-- The law at a mebibyte, which `count_usable_frames` counts as 256 frames. -/
theorem countUsableFrames_budget_mebibyte :
    ∃ fa after, init ⟨fun _ => 0, []⟩ mebibyteMap = .ok (fa, after) ∧
      fa.freeFrames after + (fa.reservedIndices mebibyteMap).card = 256 := by
  obtain ⟨count, counted, _, returns⟩ :=
    countUsableFrames_budget mebibyteMap_wellFormed ⟨fun _ => 0, []⟩
  obtain ⟨fa, after, initialized, _, exact⟩ := returns (by decide)
  obtain rfl : 256 = count := Except.ok.inj counted
  exact ⟨fa, after, initialized, exact (by decide)⟩

end FrameAllocator

end Aperture.Mm
