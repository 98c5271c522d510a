import Aperture.Mm.Occupied
import Aperture.Win32.KernelFrames
import Aperture.Win32.LoadedImage

/-!
# What the loader writes

A load takes frames for a block and for a page table, and writes them and the bitmap. As long as the
sections fit, that is all: everything that was in use before the load is as it was, however the load
ends.
-/

namespace Aperture.Win32

open Machine Mm Pe PageTable

variable {frames : FrameAllocator} {kernel base pages first : Nat} {shared own : Nat → Nat → Prop}
  {before : PhysMem} {image : PeImage} {data : List UInt8} {header : SectionHeader}
  {s after : Loading} {pageTable : Option Nat}

/-- The block was vacant. -/
theorem Blocked.vacant (blocked : Blocked frames before first pages base) {a : Nat}
    (inBlock : a ∈ (⟨base, 4096 * pages⟩ : Span)) : a ∈ frames.vacant before := by
  have start : base = frames.firstFrame + first * 4096 := blocked.base_eq
  have inside := blocked.inside
  rw [Span.mem_iff] at inBlock
  dsimp only at inBlock
  right
  refine ⟨(a - frames.firstFrame) / 4096, by omega, blocked.free _ (by omega) (by omega), ?_⟩
  simp only [Span.mem_iff, FrameAllocator.frameSpan, FrameAllocator.frameAddr, frameSize]
  omega

/-- So were the pages of the table. -/
theorem Progress.own_vacant
    (progress : Progress frames kernel shared before first pages pageTable own s) {a : Nat}
    (inPages : a ∈ pagesOf own) : a ∈ frames.vacant before := by
  obtain ⟨level, table, mine, inPage⟩ := inPages
  obtain ⟨index, taken, rfl, _⟩ := progress.own_taken level table mine
  exact .inr ⟨index, taken.1, taken.2.1, inPage⟩

/-- A mapping writes the bitmap and pages of the table. -/
theorem Progress.maps_writes {root virt : Nat}
    (progress : Progress frames kernel shared before first pages (some root) own s)
    (placed : frames.Placed) (unused : KernelTables frames kernel shared before)
    (blocked : Blocked frames before first pages base)
    (unshared : present (entry before kernel (pml4Index virt)) = false) (phys flags : Nat) :
    ∃ grown, Progress frames kernel shared before first pages (some root) grown
        (s.afterTables (map frames s.memory root virt phys flags).2) ∧
      WritesWithin (frames.vacant before) s.memory (map frames s.memory root virt phys flags).2 := by
  rw [← progress.kernel_same _ (pml4Index_lt virt)] at unshared
  obtain ⟨grown, ⟨kernelTables, tree, grows⟩, _⟩ := map_extends placed progress.kernel_tables
    (progress.tree root rfl) unshared phys flags
    (show map frames s.memory root virt phys flags = (_, _) from rfl)
  have mapped := progress.grows unused blocked kernelTables
    (fun other same => Option.some.inj same ▸ tree) tree.held grows
  refine ⟨grown, mapped, grows.writes.mono ?_⟩
  rintro a (inBitmap | ⟨level, table, mine, inPage⟩)
  · exact .inl inBitmap
  · exact mapped.own_vacant ⟨level, table, mine, inPage⟩

/-- The section loop writes what was vacant before the load. -/
theorem loadSections_writes (placed : frames.Placed)
    (unused : KernelTables frames kernel shared before)
    (blocked : Blocked frames before first (totalPages image) base) {mapped : Prop}
    (table : pageTable.isSome = true ↔ mapped) {i count : Nat}
    (fit : SectionsFit before kernel image data mapped i count)
    (progress : Progress frames kernel shared before first (totalPages image) pageTable own s) :
    ∃ grown, Progress frames kernel shared before first (totalPages image) pageTable grown
        (loadSections frames image data base pageTable (List.range' i count) s).2 ∧
      WritesWithin (frames.vacant before) s.memory
        (loadSections frames image data base pageTable (List.range' i count) s).2.memory := by
  induction count generalizing i s own with
  | zero => exact ⟨own, progress, .refl _ _⟩
  | succ count ih =>
    rw [List.range'_succ]
    unfold loadSections
    cases found : sectionHeader image data i with
    | error reason => exact ⟨own, progress, .refl _ _⟩
    | ok result =>
      cases result with
      | none => exact ⟨own, progress, .refl _ _⟩
      | some header =>
        obtain ⟨⟨inside, unshared⟩, rest⟩ := (everySection_cons found).mp fit
        obtain ⟨progressPlaced, _⟩ := progress.place placed.covers unused blocked inside
        have places : WritesWithin (frames.vacant before) s.memory
            (placeSection header data (base + header.virtualAddress) s).memory := by
          apply placeSection_writes
          intro span member a inSpan
          exact blocked.vacant ((sectionSpans_inside_iff base).mpr inside span member a inSpan)
        by_cases destFits : base + header.virtualAddress < wordSize
        · rcases mapSection_cases frames data image.imageBase pageTable s destFits
              (blocked.end_fits placed inside) with
            ⟨none, ended⟩ | ⟨root, some_, virtFits, ended⟩ | ⟨root, reason, some_, _, ended⟩
          · simp only [ended]
            have untabled : mapped → image.imageBase + header.virtualAddress < wordSize := by
              intro isMapped
              rw [none] at table
              cases table.mpr isMapped
            obtain ⟨grown, last, more⟩ := ih (rest untabled) progressPlaced
            exact ⟨grown, last, places.trans more⟩
          · subst some_
            obtain ⟨_, progressMapped, maps⟩ := progressPlaced.maps_writes placed unused blocked
              (unshared (table.mp rfl) virtFits) (base + header.virtualAddress) sectionFlags
            simp only [ended]
            obtain ⟨grown, last, more⟩ := ih (rest fun _ => virtFits) progressMapped
            exact ⟨grown, last, places.trans (maps.trans more)⟩
          · simp only [ended]
            exact ⟨own, progressPlaced, places⟩
        · cases dest : add64 base header.virtualAddress with
          | ok sum => exact absurd (add64_eq_ok.mp dest).1 destFits
          | error reason =>
            simp only [mapSection, dest]
            exact ⟨own, progress, .refl _ _⟩

/-- So does what comes in front of it. -/
theorem prepared_writes {memory : PhysMem} (placed : frames.Placed) (captured : kernel ≠ 0)
    (unused : KernelTables frames kernel shared before)
    (allocated : allocateContiguous frames before pages = (.ok (some base), memory)) :
    WritesWithin (frames.vacant before) before (prepared frames kernel base pages before memory).memory := by
  obtain ⟨takes, spec⟩ := allocateContiguous_spec placed.covers allocated
  obtain ⟨_, first, baseEq, granted⟩ := spec base rfl
  have blocked : Blocked frames before first pages base :=
    ⟨granted.inside, granted.free, baseEq, by simp only [block, allocated]⟩
  have tables := (progress_of_granted unused granted takes).kernel_tables
  rw [Loading.afterTables_memory] at tables
  have makes : WritesWithin (frames.vacant before) memory (PageTable.new frames kernel memory).2 := by
    cases returned : PageTable.new frames kernel memory with
    | mk result made =>
      cases result with
      | none =>
        have failed := allocateFrame_of_new_none returned
        exact (FrameAllocator.allocateFrame_takes placed.covers failed).1.mono fun _ => .inl
      | some root =>
        obtain ⟨⟨fresh, inside, rfl, free, _⟩, _, _, grows⟩ :=
          new_extends placed captured tables returned
        refine grows.writes.mono ?_
        rintro a (inBitmap | ⟨level, table, ⟨_, rfl⟩, inPage⟩)
        · exact .inl inBitmap
        · rw [granted.bits fresh inside, Bool.or_eq_false_iff] at free
          exact .inr ⟨fresh, inside, free.1, inPage⟩
  have clears : WritesWithin (frames.vacant before) (PageTable.new frames kernel memory).2
      (prepared frames kernel base pages before memory).memory := by
    refine .fill _ 0 fun a member => blocked.vacant ?_
    rw [Nat.mul_comm] at member
    exact member
  exact (takes.mono fun _ => .inl).trans (makes.trans clears)

/-- What a load with a block leaves behind. -/
structure Settled (frames : FrameAllocator) (kernel : Nat) (shared : Nat → Nat → Prop)
    (before : PhysMem) (first pages base : Nat) (pageTable : Option Nat) (own : Nat → Nat → Prop)
    (s : Loading) : Prop where
  /-- Its frames were free. -/
  blocked : Blocked frames before first pages base
  /-- The table and the kernel's tables are intact. -/
  progress : Progress frames kernel shared before first pages pageTable own s
  /-- Only vacant memory was written. -/
  confined : frames.Confined ∅ before s.memory

/-- A load whose sections fit settles, however it ends. -/
theorem loadIntoProcess_settled {memory : PhysMem} (placed : frames.Placed) (captured : kernel ≠ 0)
    (unused : KernelTables frames kernel shared before) (fits : Fits frames before kernel image data)
    (process : Process)
    (allocated : allocateContiguous frames before (totalPages image) = (.ok (some base), memory)) :
    ∃ first own, Settled frames kernel shared before first (totalPages image) base
      (PageTable.new frames kernel memory).1 own
      (loadIntoProcess frames kernel image process data (.start before)).2.2 := by
  obtain ⟨first, own, blocked, progress, table, _⟩ :=
    progress_prepared placed captured unused allocated
  obtain ⟨grown, loaded, writes⟩ := loadSections_writes placed unused blocked table
    (fits (by rw [blocked.found]; rfl)) progress
  rw [loadIntoProcess_loading process allocated]
  refine ⟨first, grown, blocked, loaded, ?_, loaded.kept⟩
  exact ((prepared_writes placed captured unused allocated).trans writes).mono fun _ => .inl

/-- A load that finds no block takes frames at most. -/
theorem loadIntoProcess_refused {process loaded : Process} {last : Loading} {memory : PhysMem}
    {done : Bool} (covers : frames.Covers)
    (allocated : allocateContiguous frames before (totalPages image) = (.ok none, memory))
    (returned : loadIntoProcess frames kernel image process data (.start before) =
      (.ok done, loaded, last)) : frames.Confined ∅ before last.memory := by
  have start : (Loading.start before).memory = before := rfl
  rw [loadIntoProcess, start, allocated] at returned
  obtain ⟨_, rest⟩ := Prod.mk.inj returned
  obtain ⟨_, rfl⟩ := Prod.mk.inj rest
  have keeps := Holding.keeps_allocateContiguous covers before (totalPages image)
  rw [allocated] at keeps
  exact ⟨(allocateContiguous_spec covers allocated).1.mono fun _ inBitmap => .inl (.inl inBitmap),
    keeps⟩

end Aperture.Win32
