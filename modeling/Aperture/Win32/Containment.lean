import Aperture.Mm.Isolation
import Aperture.Win32.Loader

/-!
# Where the loader writes

The loader may write the block it allocated; frame allocation and page-table code may write
the bitmap and frames taken during the load. Nothing in `map_section` compares a section
with the size of the image, and a mapping whose top-level entry the kernel has goes into the
kernel's own tables.
-/

namespace Aperture.Win32

open Machine Mm Pe PageTable

variable {frames : FrameAllocator} {kernel base pages : Nat} {shared : Nat → Nat → Prop}
  {before : PhysMem} {image : PeImage} {data : List UInt8} {header : SectionHeader}
  {s after : Loading}

/-- The block for an image, if `allocate_contiguous` finds one. -/
def block (frames : FrameAllocator) (before : PhysMem) (pages : Nat) : Option Span :=
  match (allocateContiguous frames before pages).1 with
  | .ok (some base) => some ⟨base, 4096 * pages⟩
  | .ok none => none
  | .error _ => none

/-- A frame taken between two states. -/
def Taken (frames : FrameAllocator) (before after : PhysMem) (index : Nat) : Prop :=
  index < frames.frameCount ∧ frames.used before index = false ∧ frames.used after index = true

/-- Every write was where it may be: the loader's in the block, those of page-table code and of
the allocator in frames taken since and in the bitmap. -/
structure Contained (frames : FrameAllocator) (before : PhysMem) (pages : Nat) (s : Loading) :
    Prop where
  /-- The loader's own writes. -/
  image : ∀ span ∈ s.image, ∀ a ∈ span, ∃ range, block frames before pages = some range ∧ a ∈ range
  /-- Writes of page-table code and of the allocator. -/
  tables : ∀ span ∈ s.tables, ∀ a ∈ span, a ∈ frames.bitmapSpan ∨
    ∃ index, Taken frames before s.memory index ∧ a ∈ frames.frameSpan index

/-! ## The condition -/

/-- What a section copies and clears ends inside an image of so many pages. -/
def Inside (header : SectionHeader) (data : List UInt8) (pages : Nat) : Prop :=
  (header.rawOffset + copySize header ≤ data.length → 0 < copySize header →
    header.virtualAddress + copySize header ≤ 4096 * pages) ∧
  (copySize header < header.virtualSize →
    header.virtualAddress + header.virtualSize ≤ 4096 * pages)

instance (header : SectionHeader) (data : List UInt8) (pages : Nat) :
    Decidable (Inside header data pages) := inferInstanceAs (Decidable (_ ∧ _))

/-- The kernel's top-level table has no entry for a section's address. -/
def Unshared (before : PhysMem) (kernel : Nat) (image : PeImage) (header : SectionHeader) : Prop :=
  image.imageBase + header.virtualAddress < wordSize →
    present (entry before kernel (pml4Index (image.imageBase + header.virtualAddress))) = false

/-- The loop reaches section `i` from section `first`: no header is missing up to there, and,
when the sections are mapped, no address overflows before. -/
def Reached (image : PeImage) (data : List UInt8) (mapped : Prop) (first i : Nat) : Prop :=
  (∀ j, first ≤ j → j ≤ i → ∃ header, sectionHeader image data j = .ok (some header)) ∧
  ∀ j header, first ≤ j → j < i → sectionHeader image data j = .ok (some header) → mapped →
    image.imageBase + header.virtualAddress < wordSize

/-- Every section the loop reaches among `count` from `first` on has a property. -/
def EverySection (image : PeImage) (data : List UInt8) (mapped : Prop)
    (property : Nat → SectionHeader → Prop) (first count : Nat) : Prop :=
  ∀ i, first ≤ i → i < first + count → Reached image data mapped first i → ∀ header,
    sectionHeader image data i = .ok (some header) → property i header

/-- Every section the loop reaches among `count` from `first` on lies inside the image and, when
the sections are mapped, off the kernel's top-level entries. -/
def SectionsFit (before : PhysMem) (kernel : Nat) (image : PeImage) (data : List UInt8)
    (mapped : Prop) (first count : Nat) : Prop :=
  EverySection image data mapped (fun _ header =>
    Inside header data (totalPages image) ∧ (mapped → Unshared before kernel image header))
    first count

/-- The condition on an image and the state it is loaded in: if there is a block, every section
the loop reaches fits. A page table is made when a frame is left after the block. -/
def Fits (frames : FrameAllocator) (before : PhysMem) (kernel : Nat) (image : PeImage)
    (data : List UInt8) : Prop :=
  (block frames before (totalPages image)).isSome = true →
    SectionsFit before kernel image data (totalPages image < frames.freeFrames before) 0
      image.numSections

/-- One section decides itself and leaves the rest. -/
theorem everySection_cons {mapped : Prop} {property : Nat → SectionHeader → Prop}
    {first count : Nat} (found : sectionHeader image data first = .ok (some header)) :
    EverySection image data mapped property first (count + 1) ↔
      property first header ∧ ((mapped → image.imageBase + header.virtualAddress < wordSize) →
        EverySection image data mapped property (first + 1) count) := by
  constructor
  · intro fit
    refine ⟨fit first (Nat.le_refl _) (by omega) ⟨fun j above below => ?_, fun j _ above below => ?_⟩
      header found, fun continues i above below reached other otherFound => ?_⟩
    · rw [Nat.le_antisymm below above]
      exact ⟨header, found⟩
    · omega
    · refine fit i (by omega) (by omega) ⟨fun j aboveFirst belowI => ?_,
        fun j otherHeader aboveFirst belowI jFound isMapped => ?_⟩ other otherFound
      · by_cases isFirst : j = first
        · rw [isFirst]
          exact ⟨header, found⟩
        · exact reached.1 j (by omega) belowI
      · by_cases isFirst : j = first
        · rw [isFirst, found, Except.ok.injEq, Option.some.injEq] at jFound
          rw [← jFound]
          exact continues isMapped
        · exact reached.2 j otherHeader (by omega) belowI jFound isMapped
  · rintro ⟨here, rest⟩ i above below reached other otherFound
    by_cases isFirst : i = first
    · rw [isFirst, found, Except.ok.injEq, Option.some.injEq] at otherFound
      rw [isFirst, ← otherFound]
      exact here
    · refine rest ?_ i (by omega) (by omega) ⟨fun j aboveFirst belowI => ?_,
        fun j otherHeader aboveFirst => ?_⟩ other otherFound
      · exact fun isMapped => reached.2 first header (Nat.le_refl _) (by omega) found isMapped
      · exact reached.1 j (by omega) belowI
      · exact reached.2 j otherHeader (by omega)

/-- A missing header ends the loop. -/
theorem everySection_missing {mapped : Prop} {property : Nat → SectionHeader → Prop}
    {first count : Nat} (missing : ∀ header, sectionHeader image data first ≠ .ok (some header)) :
    EverySection image data mapped property first count := by
  intro i above _ reached
  obtain ⟨header, found⟩ := reached.1 first (Nat.le_refl _) above
  exact absurd found (missing header)

/-! ## Copying and clearing -/

/-- A section's bytes are in place. -/
def placeSection (header : SectionHeader) (data : List UInt8) (dest : Nat) (s : Loading) :
    Loading :=
  if copySize header < header.virtualSize then
    (copySection header data dest s).clear (dest + copySize header)
      (header.virtualSize - copySize header)
  else copySection header data dest s

/-- Clearing the remainder does not panic inside the address space. -/
theorem clearSection_eq {dest : Nat}
    (fits : copySize header < header.virtualSize → dest + copySize header < wordSize) :
    clearSection header dest (copySection header data dest s) =
      (.ok (), placeSection header data dest s) := by
  unfold clearSection placeSection
  split
  · rename_i clears
    have sum := add64_eq_ok.mpr ⟨fits clears, rfl⟩
    simp only [sum]
  · rfl

/-- A section inside the address space is placed and then mapped. -/
theorem mapSection_eq {virtBase : Nat} {pageTable : Option Nat}
    (destFits : base + header.virtualAddress < wordSize)
    (endFits : copySize header < header.virtualSize →
      base + header.virtualAddress + copySize header < wordSize) :
    mapSection frames header data base virtBase pageTable s =
      mapSectionPage frames header base virtBase pageTable
        (placeSection header data (base + header.virtualAddress) s) := by
  have dest := add64_eq_ok.mpr ⟨destFits, rfl⟩
  simp only [mapSection, dest, clearSection_eq endFits]

/-- The spans that placing a section writes, newest first. -/
def sectionSpans (header : SectionHeader) (data : List UInt8) (dest : Nat) : List Span :=
  (if copySize header < header.virtualSize then
    [⟨dest + copySize header, header.virtualSize - copySize header⟩] else []) ++
  if header.rawOffset + copySize header ≤ data.length then [⟨dest, copySize header⟩] else []

/-- Placing a section writes those spans and touches no table. -/
theorem placeSection_logs (header : SectionHeader) (data : List UInt8) (dest : Nat) (s : Loading) :
    (placeSection header data dest s).image = sectionSpans header data dest ++ s.image ∧
      (placeSection header data dest s).tables = s.tables := by
  have copied : (copySection header data dest s).image =
      (if header.rawOffset + copySize header ≤ data.length then [⟨dest, copySize header⟩] else []) ++
        s.image ∧ (copySection header data dest s).tables = s.tables := by
    unfold copySection
    split
    · rename_i inFile
      simp [Loading.copyIn, length_copied inFile]
    · simp
  unfold placeSection sectionSpans
  split
  · simp [Loading.clear, copied]
  · simp [copied]

/-- Those spans lie in the block exactly when the section lies inside the image. -/
theorem sectionSpans_inside_iff (base : Nat) :
    (∀ span ∈ sectionSpans header data (base + header.virtualAddress),
      ∀ a ∈ span, a ∈ (⟨base, 4096 * pages⟩ : Span)) ↔ Inside header data pages := by
  have copies : copySize header ≤ header.virtualSize := Nat.min_le_right _ _
  constructor
  · intro inside
    refine ⟨fun inFile positive => ?_, fun clears => ?_⟩
    · have last := inside ⟨base + header.virtualAddress, copySize header⟩
        (List.mem_append_right _ (by simp [inFile]))
        (base + header.virtualAddress + copySize header - 1) (by simp only [Span.mem_iff]; omega)
      simp only [Span.mem_iff] at last
      omega
    · have last := inside ⟨base + header.virtualAddress + copySize header,
          header.virtualSize - copySize header⟩ (List.mem_append_left _ (by simp [clears]))
        (base + header.virtualAddress + header.virtualSize - 1) (by simp only [Span.mem_iff]; omega)
      simp only [Span.mem_iff] at last
      omega
  · rintro ⟨copied, cleared⟩ span member a inSpan
    rcases List.mem_append.mp member with isCleared | isCopied
    · split at isCleared
      · rename_i clears
        rw [List.mem_singleton.mp isCleared] at inSpan
        have ends := cleared clears
        simp only [Span.mem_iff] at inSpan ⊢
        omega
      · cases isCleared
    · split at isCopied
      · rename_i inFile
        rw [List.mem_singleton.mp isCopied] at inSpan
        have ends := copied inFile
        simp only [Span.mem_iff] at inSpan ⊢
        omega
      · cases isCopied

/-- Placing a section changes memory only in spans that cover what it logs. -/
theorem placeSection_writes {region : Set Nat} {dest : Nat}
    (covered : ∀ span ∈ sectionSpans header data dest, ∀ a ∈ span, a ∈ region) :
    WritesWithin region s.memory (placeSection header data dest s).memory := by
  have copied : WritesWithin region s.memory (copySection header data dest s).memory := by
    unfold copySection
    split
    · rename_i inFile
      refine WritesWithin.copyIn _ fun a member => ?_
      rw [length_copied inFile] at member
      exact covered _ (List.mem_append_right _ (by simp [inFile])) a member
    · exact .refl _ _
  unfold placeSection
  split
  · rename_i clears
    refine copied.trans (WritesWithin.fill _ _ fun a member => ?_)
    exact covered _ (List.mem_append_left _ (by simp [clears])) a member
  · exact copied

/-! ## The loop -/

/-- The frames of the block were free before the load. -/
structure Blocked (frames : FrameAllocator) (before : PhysMem) (first pages base : Nat) : Prop where
  /-- They exist. -/
  inside : first + pages ≤ frames.frameCount
  /-- They were free. -/
  free : ∀ index, first ≤ index → index < first + pages → frames.used before index = false
  /-- The block starts with the first of them. -/
  base_eq : base = frames.frameAddr first
  /-- It is the block. -/
  found : block frames before pages = some ⟨base, 4096 * pages⟩

/-- Every write up to here was where it may be, and `own` are the pages of the new table. -/
structure Progress (frames : FrameAllocator) (kernel : Nat) (shared : Nat → Nat → Prop)
    (before : PhysMem) (first pages : Nat) (pageTable : Option Nat) (own : Nat → Nat → Prop)
    (s : Loading) : Prop where
  /-- The kernel's pages are intact. -/
  kernel_tables : KernelTables frames kernel shared s.memory
  /-- So is the new table. -/
  tree : ∀ root, pageTable = some root → Tree frames kernel shared s.memory root own
  /-- Its pages are frames taken since, none of them in the block. -/
  own_taken : ∀ level table, own level table → ∃ index, Taken frames before s.memory index ∧
    table = frames.frameAddr index ∧ ¬(first ≤ index ∧ index < first + pages)
  /-- The kernel's top-level entries are as they were. -/
  kernel_same : ∀ index < 512, entry s.memory kernel index = entry before kernel index
  /-- No frame was released. -/
  kept : ∀ index < frames.frameCount, frames.used before index = true →
    frames.used s.memory index = true
  /-- The block is in use. -/
  block_used : ∀ index, first ≤ index → index < first + pages → frames.used s.memory index = true
  /-- The writes. -/
  contained : Contained frames before pages s

variable {first : Nat} {pageTable : Option Nat} {own grown : Nat → Nat → Prop}

/-- A span apart from the frames of the block is apart from the block. -/
theorem Blocked.off (blocked : Blocked frames before first pages base) {span : Span}
    (apart : ∀ index, first ≤ index → index < first + pages →
      span.Separate (frames.frameSpan index)) :
    ∀ a ∈ span, a ∉ (⟨base, 4096 * pages⟩ : Span).toSet := by
  intro a inSpan inBlock
  have start : base = frames.firstFrame + first * 4096 := blocked.base_eq
  simp only [Span.mem_toSet, Span.mem_iff] at inBlock
  have frame := apart ((a - frames.firstFrame) / 4096) (by omega) (by omega)
  refine Span.separate_iff.mp frame a inSpan ?_
  simp only [Span.mem_iff, FrameAllocator.frameSpan, FrameAllocator.frameAddr, frameSize]
  omega

/-- Writes in the block leave the bitmap alone. -/
theorem Blocked.used_eq (blocked : Blocked frames before first pages base) (covers : frames.Covers)
    (unused : KernelTables frames kernel shared before) {memory later : PhysMem}
    (writes : WritesWithin (⟨base, 4096 * pages⟩ : Span).toSet memory later) {index : Nat}
    (inside : index < frames.frameCount) : frames.used later index = frames.used memory index := by
  refine FrameAllocator.used_eq_of_writes covers writes (blocked.off fun other above below => ?_)
    inside
  have exists_ : other < frames.frameCount := Nat.lt_of_lt_of_le below blocked.inside
  exact (unused.free_off_bitmap other exists_ (blocked.free other above below)).symm

/-- Writes in the block. -/
theorem Progress.inBlock (progress : Progress frames kernel shared before first pages pageTable own s)
    (covers : frames.Covers) (unused : KernelTables frames kernel shared before)
    (blocked : Blocked frames before first pages base)
    (writes : WritesWithin (⟨base, 4096 * pages⟩ : Span).toSet s.memory after.memory)
    (sameTables : after.tables = s.tables)
    (logged : ∀ span ∈ after.image, span ∈ s.image ∨ ∀ a ∈ span, a ∈ (⟨base, 4096 * pages⟩ : Span)) :
    Progress frames kernel shared before first pages pageTable own after := by
  have bits {index : Nat} (inside : index < frames.frameCount) :=
    blocked.used_eq covers unused writes inside
  have takenStays {index : Nat} (taken : Taken frames before s.memory index) :
      Taken frames before after.memory index :=
    ⟨taken.1, taken.2.1, by rw [bits taken.1]; exact taken.2.2⟩
  have exists_ {index : Nat} (below : index < first + pages) : index < frames.frameCount :=
    Nat.lt_of_lt_of_le below blocked.inside
  have sharedSame (level table : Nat) (isShared : shared level table) (index : Nat)
      (small : index < 512) : entry after.memory table index = entry s.memory table index := by
    refine entry_eq_of_writes writes small (blocked.off fun other above below => ?_)
    exact unused.off_free level table isShared other (exists_ below) (blocked.free other above below)
  have ownSame (level table : Nat) (mine : own level table) (index : Nat) (small : index < 512) :
      entry after.memory table index = entry s.memory table index := by
    obtain ⟨frame, _, rfl, outside⟩ := progress.own_taken level table mine
    refine entry_eq_of_writes writes small (blocked.off fun other above below => ?_)
    refine FrameAllocator.frameSpan_separate ?_
    rintro rfl
    exact outside ⟨above, below⟩
  refine ⟨progress.kernel_tables.congr sharedSame ?_, ?_, ?_, ?_, ?_, ?_, ?_, ?_⟩
  · intro index inside free
    rwa [bits inside] at free
  · intro root isRoot
    refine (progress.tree root isRoot).congr ownSame (sharedSame _ _ unused.root) ?_
    intro index inside marked
    rwa [bits inside]
  · intro level table mine
    obtain ⟨index, taken, address, outside⟩ := progress.own_taken level table mine
    exact ⟨index, takenStays taken, address, outside⟩
  · intro index small
    rw [sharedSame _ _ unused.root index small, progress.kernel_same index small]
  · intro index inside marked
    rw [bits inside, progress.kept index inside marked]
  · intro index above below
    rw [bits (exists_ below), progress.block_used index above below]
  · intro span member a inSpan
    rcases logged span member with old | covered
    · exact progress.contained.image span old a inSpan
    · exact ⟨_, blocked.found, covered a inSpan⟩
  · intro span member a inSpan
    rw [sameTables] at member
    rcases progress.contained.tables span member a inSpan with inBitmap | ⟨index, taken, inFrame⟩
    · exact .inl inBitmap
    · exact .inr ⟨index, takenStays taken, inFrame⟩

/-- Table code has run and the table's pages have grown. -/
theorem Progress.grows (progress : Progress frames kernel shared before first pages pageTable own s)
    (unused : KernelTables frames kernel shared before)
    (blocked : Blocked frames before first pages base) {memory : PhysMem} {grownTable : Option Nat}
    (kernelTables : KernelTables frames kernel shared memory)
    (tree : ∀ root, grownTable = some root → Tree frames kernel shared memory root grown)
    (held : ∀ level table, grown level table →
      ∃ index < frames.frameCount, table = frames.frameAddr index ∧ frames.used memory index = true)
    (grows : Grows frames s.memory own memory grown) :
    Progress frames kernel shared before first pages grownTable grown (s.afterTables memory) := by
  have exists_ {index : Nat} (below : index < first + pages) : index < frames.frameCount :=
    Nat.lt_of_lt_of_le below blocked.inside
  have takenStays {index : Nat} (taken : Taken frames before s.memory index) :
      Taken frames before memory index :=
    ⟨taken.1, taken.2.1, grows.kept index taken.1 taken.2.2⟩
  have grownTaken (level table : Nat) (mine : grown level table) : ∃ index,
      Taken frames before memory index ∧ table = frames.frameAddr index ∧
        ¬(first ≤ index ∧ index < first + pages) := by
    rcases grows.fresh level table mine with old | ⟨index, inside, rfl, free⟩
    · obtain ⟨index, taken, address, outside⟩ := progress.own_taken level table old
      exact ⟨index, takenStays taken, address, outside⟩
    · obtain ⟨sameIndex, _, address, marked⟩ := held level _ mine
      rw [← FrameAllocator.frameAddr_injective address] at marked
      have freeBefore : frames.used before index = false := by
        by_contra wasUsed
        rw [Bool.not_eq_false] at wasUsed
        rw [progress.kept index inside wasUsed] at free
        cases free
      refine ⟨index, ⟨inside, freeBefore, marked⟩, rfl, fun inBlock => ?_⟩
      rw [progress.block_used index inBlock.1 inBlock.2] at free
      cases free
  refine ⟨kernelTables, tree, grownTaken, ?_, ?_, ?_, progress.contained.image, ?_⟩
  · intro index small
    rw [← progress.kernel_same index small]
    refine entry_eq_of_writes grows.writes small ?_
    rintro a inPage (inBitmap | ⟨level, table, mine, inTable⟩)
    · exact Span.separate_iff.mp (unused.off_bitmap _ _ unused.root) a inPage inBitmap
    · obtain ⟨frame, taken, rfl, _⟩ := grownTaken level table mine
      exact Span.separate_iff.mp (unused.off_free _ _ unused.root frame taken.1 taken.2.1) a inPage
        inTable
  · intro index inside marked
    exact grows.kept index inside (progress.kept index inside marked)
  · intro index above below
    exact grows.kept index (exists_ below) (progress.block_used index above below)
  · intro span member a inSpan
    rcases List.mem_append.mp member with new | old
    · rcases grows.writes.since span new a inSpan with inBitmap | ⟨level, table, mine, inTable⟩
      · exact .inl inBitmap
      · obtain ⟨frame, taken, rfl, _⟩ := grownTaken level table mine
        exact .inr ⟨frame, taken, inTable⟩
    · rcases progress.contained.tables span old a inSpan with inBitmap | ⟨index, taken, inFrame⟩
      · exact .inl inBitmap
      · exact .inr ⟨index, takenStays taken, inFrame⟩

/-- A section inside the image is placed. -/
theorem Progress.place (progress : Progress frames kernel shared before first pages pageTable own s)
    (covers : frames.Covers) (unused : KernelTables frames kernel shared before)
    (blocked : Blocked frames before first pages base) (inside : Inside header data pages) :
    Progress frames kernel shared before first pages pageTable own
        (placeSection header data (base + header.virtualAddress) s) ∧
      frames.freeFrames (placeSection header data (base + header.virtualAddress) s).memory =
        frames.freeFrames s.memory := by
  have covered := (sectionSpans_inside_iff base).mpr inside
  have writes : WritesWithin (⟨base, 4096 * pages⟩ : Span).toSet s.memory
      (placeSection header data (base + header.virtualAddress) s).memory :=
    placeSection_writes covered
  obtain ⟨images, sameTables⟩ := placeSection_logs header data (base + header.virtualAddress) s
  refine ⟨progress.inBlock covers unused blocked writes sameTables fun span member => ?_,
    FrameAllocator.freeFrames_congr fun index small => blocked.used_eq covers unused writes small⟩
  rw [images] at member
  rcases List.mem_append.mp member with new | old
  · exact .inr (covered span new)
  · exact .inl old

/-- A section is mapped at an address whose top-level entry the kernel does not have. -/
theorem Progress.maps {root virt : Nat}
    (progress : Progress frames kernel shared before first pages (some root) own s)
    (placed : frames.Placed) (unused : KernelTables frames kernel shared before)
    (blocked : Blocked frames before first pages base)
    (unshared : present (entry before kernel (pml4Index virt)) = false) (phys flags : Nat) :
    ∃ grown, Progress frames kernel shared before first pages (some root) grown
        (s.afterTables (map frames s.memory root virt phys flags).2) ∧
      frames.freeFrames s.memory ≤
        frames.freeFrames (map frames s.memory root virt phys flags).2 + 3 := by
  rw [← progress.kernel_same _ (pml4Index_lt virt)] at unshared
  obtain ⟨grown, ⟨kernelTables, tree, grows⟩, cost⟩ := map_extends placed progress.kernel_tables
    (progress.tree root rfl) unshared phys flags
    (show map frames s.memory root virt phys flags = (_, _) from rfl)
  refine ⟨grown, progress.grows unused blocked kernelTables (fun other same => ?_) tree.held grows,
    cost⟩
  obtain rfl := Option.some.inj same
  exact tree

/-- Both logs of the second state continue those of the first. -/
def Later (s after : Loading) : Prop :=
  (∀ span ∈ s.image, span ∈ after.image) ∧ ∀ span ∈ s.tables, span ∈ after.tables

/-- Nothing happened. -/
theorem Later.refl (s : Loading) : Later s s :=
  ⟨fun _ member => member, fun _ member => member⟩

/-- Table code adds to its log. -/
theorem later_afterTables (s : Loading) (memory : PhysMem) : Later s (s.afterTables memory) :=
  ⟨fun _ member => member, fun _ member => List.mem_append_right _ member⟩

/-- Later states follow one another. -/
theorem Later.trans {middle : Loading} (left : Later s middle) (right : Later middle after) :
    Later s after :=
  ⟨fun span member => right.1 span (left.1 span member),
    fun span member => right.2 span (left.2 span member)⟩

/-- A section adds to the logs. -/
theorem mapSection_later (frames : FrameAllocator) (header : SectionHeader) (data : List UInt8)
    (physBase virtBase : Nat) (pageTable : Option Nat) (s : Loading) :
    Later s (mapSection frames header data physBase virtBase pageTable s).2 := by
  have copied (dest : Nat) : Later s (copySection header data dest s) := by
    unfold copySection
    split
    · exact ⟨fun span member => List.mem_cons_of_mem _ member, fun span member => member⟩
    · exact .refl _
  have cleared (dest : Nat) (s : Loading) : Later s (clearSection header dest s).2 := by
    unfold clearSection
    split
    · cases add64 dest (copySize header) with
      | error reason => exact .refl _
      | ok start => exact ⟨fun span member => List.mem_cons_of_mem _ member, fun span member => member⟩
    · exact .refl _
  have mapped (s : Loading) :
      Later s (mapSectionPage frames header physBase virtBase pageTable s).2 := by
    unfold mapSectionPage
    split
    · exact .refl _
    · split
      · exact later_afterTables _ _
      · exact .refl _
      · exact .refl _
  unfold mapSection
  cases add64 physBase header.virtualAddress with
  | error reason => exact .refl _
  | ok dest =>
    have upTo := (copied dest).trans (cleared dest (copySection header data dest s))
    dsimp only
    cases ended : clearSection header dest (copySection header data dest s) with
    | mk outcome middle =>
      rw [ended] at upTo
      cases outcome with
      | error reason => exact upTo
      | ok _ => exact upTo.trans (mapped middle)

/-- So does the loop. -/
theorem loadSections_later (indices : List Nat) (s : Loading) :
    Later s (loadSections frames image data base pageTable indices s).2 := by
  induction indices generalizing s with
  | nil => exact .refl _
  | cons i rest ih =>
    unfold loadSections
    split
    · exact .refl _
    · exact .refl _
    · rename_i header _
      have step := mapSection_later frames header data base image.imageBase pageTable s
      cases ended : mapSection frames header data base image.imageBase pageTable s with
      | mk outcome middle =>
        rw [ended] at step
        cases outcome with
        | error reason => exact step
        | ok _ => exact step.trans (ih middle)

/-- The flags of a section's page. -/
def sectionFlags : Nat := pagePresent ||| pageUser ||| pageWritable ||| pageExecute

/-- What a section inside the address space ends in: placed without a page table, placed and
mapped, or placed and stopped at a virtual address that overflows. -/
theorem mapSection_cases (frames : FrameAllocator) (data : List UInt8) (virtBase : Nat)
    (pageTable : Option Nat) (s : Loading) (destFits : base + header.virtualAddress < wordSize)
    (endFits : copySize header < header.virtualSize →
      base + header.virtualAddress + copySize header < wordSize) :
    (pageTable = none ∧ mapSection frames header data base virtBase pageTable s =
      (.ok (), placeSection header data (base + header.virtualAddress) s)) ∨
    (∃ root, pageTable = some root ∧ virtBase + header.virtualAddress < wordSize ∧
      mapSection frames header data base virtBase pageTable s =
        (.ok (), (placeSection header data (base + header.virtualAddress) s).afterTables
          (map frames (placeSection header data (base + header.virtualAddress) s).memory root
            (virtBase + header.virtualAddress) (base + header.virtualAddress) sectionFlags).2)) ∨
    (∃ root reason, pageTable = some root ∧ ¬virtBase + header.virtualAddress < wordSize ∧
      mapSection frames header data base virtBase pageTable s =
        (.error reason, placeSection header data (base + header.virtualAddress) s)) := by
  rw [mapSection_eq destFits endFits]
  cases pageTable with
  | none => exact .inl ⟨rfl, rfl⟩
  | some root =>
    have phys := add64_eq_ok.mpr ⟨destFits, rfl⟩
    by_cases virtFits : virtBase + header.virtualAddress < wordSize
    · have virt := add64_eq_ok.mpr ⟨virtFits, rfl⟩
      exact .inr (.inl ⟨root, rfl, virtFits, by simp only [mapSectionPage, virt, phys, sectionFlags]⟩)
    · cases virt : add64 virtBase header.virtualAddress with
      | ok sum => exact absurd (add64_eq_ok.mp virt).1 virtFits
      | error reason =>
        exact .inr (.inr ⟨root, reason, rfl, virtFits, by simp only [mapSectionPage, virt]⟩)

/-- The end of a section inside the image is inside the address space. -/
theorem Blocked.end_fits (blocked : Blocked frames before first pages base) (placed : frames.Placed)
    (inside : Inside header data pages) (clears : copySize header < header.virtualSize) :
    base + header.virtualAddress + copySize header < wordSize := by
  have ends := inside.2 clears
  have start : base = frames.firstFrame + first * 4096 := blocked.base_eq
  have frameInside := blocked.inside
  have fits := placed.fits
  omega

/-- Sections that fit keep every write where it may be, however the loop ends. -/
theorem loadSections_progress (placed : frames.Placed)
    (unused : KernelTables frames kernel shared before)
    (blocked : Blocked frames before first (totalPages image) base) {mapped : Prop}
    (table : pageTable.isSome = true ↔ mapped) {i count : Nat}
    (fit : SectionsFit before kernel image data mapped i count)
    (progress : Progress frames kernel shared before first (totalPages image) pageTable own s) :
    ∃ grown, Progress frames kernel shared before first (totalPages image) pageTable grown
      (loadSections frames image data base pageTable (List.range' i count) s).2 := by
  induction count generalizing i s own with
  | zero => exact ⟨own, progress⟩
  | succ count ih =>
    rw [List.range'_succ]
    unfold loadSections
    cases found : sectionHeader image data i with
    | error reason => exact ⟨own, progress⟩
    | ok result =>
      cases result with
      | none => exact ⟨own, progress⟩
      | some header =>
        obtain ⟨⟨inside, unshared⟩, rest⟩ := (everySection_cons found).mp fit
        obtain ⟨progressPlaced, _⟩ := progress.place placed.covers unused blocked inside
        by_cases destFits : base + header.virtualAddress < wordSize
        · rcases mapSection_cases frames data image.imageBase pageTable s destFits
              (blocked.end_fits placed inside) with
            ⟨none, ended⟩ | ⟨root, some_, virtFits, ended⟩ | ⟨root, reason, some_, _, ended⟩
          · simp only [ended]
            refine ih (rest fun isMapped => ?_) progressPlaced
            have isTable := table.mpr isMapped
            rw [none] at isTable
            cases isTable
          · subst some_
            obtain ⟨grown, progressMapped, _⟩ := progressPlaced.maps placed unused blocked
              (unshared (table.mp rfl) virtFits) (base + header.virtualAddress) sectionFlags
            simp only [ended]
            exact ih (rest fun _ => virtFits) progressMapped
          · simp only [ended]
            exact ⟨own, progressPlaced⟩
        · cases dest : add64 base header.virtualAddress with
          | ok sum => exact absurd (add64_eq_ok.mp dest).1 destFits
          | error reason =>
            simp only [mapSection, dest]
            exact ⟨own, progress⟩

/-! ## Back from the writes -/

/-- Physical memory ends far enough below the address space for all 32-bit offsets. -/
def Low (frames : FrameAllocator) : Prop :=
  frames.firstFrame + frames.frameCount * 4096 + 2 ^ 33 ≤ wordSize

/-- Addresses and sizes in a header have 32 bits. -/
theorem sectionHeader_small {i : Nat} (found : sectionHeader image data i = .ok (some header)) :
    header.virtualAddress < 2 ^ 32 ∧ header.virtualSize < 2 ^ 32 := by
  obtain ⟨offset, _, parsed⟩ := bind_eq_ok.mp found
  have whole := parsed
  unfold parseSectionHeader at parsed
  obtain ⟨_, sum, _⟩ := bind_eq_ok.mp parsed
  rw [parseSectionHeader_eq (add64_eq_ok.mp sum).1, Except.ok.injEq] at whole
  split at whole
  · obtain rfl := Option.some.inj whole
    exact ⟨leAt_lt data (offset + 12) 4, leAt_lt data (offset + 8) 4⟩
  · cases whole

/-- A section of the block is inside the address space, wherever it lies. -/
theorem Blocked.section_fits (blocked : Blocked frames before first pages base) (low : Low frames)
    {i : Nat} (found : sectionHeader image data i = .ok (some header)) :
    base + header.virtualAddress < wordSize ∧ (copySize header < header.virtualSize →
      base + header.virtualAddress + copySize header < wordSize) := by
  obtain ⟨addressSmall, sizeSmall⟩ := sectionHeader_small found
  have start : base = frames.firstFrame + first * 4096 := blocked.base_eq
  have blockEnd := blocked.inside
  unfold Low at low
  omega

/-- A section whose bytes were all written in the block lies inside the image. -/
theorem Blocked.inside_of_contained (blocked : Blocked frames before first pages base)
    (later : Later (placeSection header data (base + header.virtualAddress) s) after)
    (contained : Contained frames before pages after) : Inside header data pages := by
  refine (sectionSpans_inside_iff base).mp fun span member a inSpan => ?_
  have logged : span ∈ (placeSection header data (base + header.virtualAddress) s).image := by
    rw [(placeSection_logs _ _ _ _).1]
    exact List.mem_append_left _ member
  obtain ⟨range, found, inRange⟩ := contained.image span (later.1 span logged) a inSpan
  rw [blocked.found, Option.some.injEq] at found
  rw [found]
  exact inRange

/-- A load that wrote only where it may has written no page of the kernel. -/
theorem untouched_of_contained {memory : PhysMem}
    (unused : KernelTables frames kernel shared before) (later : Later (s.afterTables memory) after)
    (contained : Contained frames before pages after) : ¬Touched shared s.memory memory := by
  rintro ⟨spans, logged, span, member, a, inSpan, level, table, isShared, inPage⟩
  have inTables : span ∈ (s.afterTables memory).tables := by
    simp only [Loading.afterTables, PhysMem.since_eq logged]
    exact List.mem_append_left _ member
  rcases contained.tables span (later.2 span inTables) a inSpan with inBitmap | ⟨index, taken, inFrame⟩
  · exact Span.separate_iff.mp (unused.off_bitmap level table isShared) a inPage inBitmap
  · exact Span.separate_iff.mp (unused.off_free level table isShared index taken.1 taken.2.1) a
      inPage inFrame

/-- A mapping that wrote no page of the kernel went through an entry the kernel does not have. -/
theorem unshared_of_contained {root virt phys flags : Nat} (covers : frames.Covers)
    (unused : KernelTables frames kernel shared before)
    (tables : KernelTables frames kernel shared s.memory)
    (tree : Tree frames kernel shared s.memory root own) (left : 0 < frames.freeFrames s.memory)
    (later : Later (s.afterTables (map frames s.memory root virt phys flags).2) after)
    (contained : Contained frames before pages after) :
    present (entry s.memory kernel (pml4Index virt)) = false := by
  by_contra notAbsent
  rw [Bool.not_eq_false] at notAbsent
  exact untouched_of_contained unused later contained
    (map_shared covers tables tree left notAbsent phys flags)

/-- While frames are left, the sections of a loop that wrote only where it may all fit. -/
theorem sectionsFit_of_contained (placed : frames.Placed) (low : Low frames)
    (unused : KernelTables frames kernel shared before)
    (blocked : Blocked frames before first (totalPages image) base) {mapped : Prop}
    (table : pageTable.isSome = true ↔ mapped) {i count : Nat}
    (enough : 3 * count ≤ frames.freeFrames s.memory)
    (progress : Progress frames kernel shared before first (totalPages image) pageTable own s)
    (contained : Contained frames before (totalPages image)
      (loadSections frames image data base pageTable (List.range' i count) s).2) :
    SectionsFit before kernel image data mapped i count := by
  induction count generalizing i s own with
  | zero => exact fun j above below => absurd below (by omega)
  | succ count ih =>
    rw [List.range'_succ] at contained
    unfold loadSections at contained
    cases found : sectionHeader image data i with
    | error reason => exact everySection_missing (by simp [found])
    | ok result =>
      cases result with
      | none => exact everySection_missing (by simp [found])
      | some header =>
        obtain ⟨destFits, endFits⟩ := blocked.section_fits low found
        simp only [found] at contained
        refine (everySection_cons found).mpr ?_
        rcases mapSection_cases frames data image.imageBase pageTable s destFits endFits with
          ⟨none, ended⟩ | ⟨root, some_, virtFits, ended⟩ | ⟨root, reason, some_, overflows, ended⟩
        · simp only [ended] at contained
          have inside := blocked.inside_of_contained (loadSections_later _ _) contained
          obtain ⟨progressPlaced, sameFree⟩ := progress.place placed.covers unused blocked inside
          have unmapped : ¬mapped := by
            rw [← table, none]
            exact Bool.false_ne_true
          refine ⟨⟨inside, fun isMapped => absurd isMapped unmapped⟩, fun _ => ?_⟩
          exact ih (by omega) progressPlaced contained
        · subst some_
          simp only [ended] at contained
          have inside := blocked.inside_of_contained
            ((later_afterTables _ _).trans (loadSections_later _ _)) contained
          obtain ⟨progressPlaced, sameFree⟩ := progress.place placed.covers unused blocked inside
          have unshared := unshared_of_contained placed.covers unused progressPlaced.kernel_tables
            (progressPlaced.tree root rfl) (by omega) (loadSections_later _ _) contained
          rw [progressPlaced.kernel_same _ (pml4Index_lt _)] at unshared
          obtain ⟨grown, progressMapped, cost⟩ := progressPlaced.maps placed unused blocked unshared
            (base + header.virtualAddress) sectionFlags
          refine ⟨⟨inside, fun _ _ => unshared⟩, fun _ => ?_⟩
          exact ih (by rw [Loading.afterTables_memory]; omega) progressMapped contained
        · simp only [ended] at contained
          have inside := blocked.inside_of_contained (.refl _) contained
          refine ⟨⟨inside, fun _ virtFits => absurd virtFits overflows⟩, fun continues => ?_⟩
          refine absurd (continues (table.mp ?_)) overflows
          rw [some_]
          rfl

/-! ## The load -/

/-- The load before anything is written. -/
def Loading.start (memory : PhysMem) : Loading := ⟨memory, [], []⟩

/-- A free block has been taken. -/
theorem progress_of_granted {memory : PhysMem} (unused : KernelTables frames kernel shared before)
    (granted : Granted frames before first pages memory)
    (writes : WritesWithin frames.bitmapSpan.toSet before memory) :
    Progress frames kernel shared before first pages none (fun _ _ => False)
      ((Loading.start before).afterTables memory) := by
  have sharedSame (level table : Nat) (isShared : shared level table) (index : Nat)
      (small : index < 512) : entry memory table index = entry before table index :=
    entry_eq_of_writes writes small (Span.separate_iff.mp (unused.off_bitmap level table isShared))
  refine ⟨unused.congr sharedSame ?_, by simp, fun _ _ mine => mine.elim,
    sharedSame _ _ unused.root, ?_, ?_, ?_, ?_⟩
  · intro index inside free
    rw [Loading.afterTables_memory, granted.bits index inside, Bool.or_eq_false_iff] at free
    exact free.1
  · intro index inside marked
    rw [Loading.afterTables_memory, granted.bits index inside, marked, Bool.true_or]
  · intro index above below
    rw [Loading.afterTables_memory,
      granted.bits index (Nat.lt_of_lt_of_le below granted.inside), decide_eq_true ⟨above, below⟩,
      Bool.or_true]
  · intro span member
    cases member
  · intro span member a inSpan
    rcases List.mem_append.mp member with new | old
    · exact .inl (writes.since span new a inSpan)
    · cases old

/-- A page table has been made, if a frame was left. -/
theorem Progress.new (progress : Progress frames kernel shared before first pages none
      (fun _ _ => False) s) (placed : frames.Placed) (captured : kernel ≠ 0)
    (unused : KernelTables frames kernel shared before)
    (blocked : Blocked frames before first pages base) :
    ∃ own, Progress frames kernel shared before first pages (PageTable.new frames kernel s.memory).1
        own (s.afterTables (PageTable.new frames kernel s.memory).2) ∧
      ((PageTable.new frames kernel s.memory).1.isSome = true ↔ 0 < frames.freeFrames s.memory) ∧
      frames.freeFrames s.memory ≤
        frames.freeFrames (PageTable.new frames kernel s.memory).2 + 1 := by
  cases returned : PageTable.new frames kernel s.memory with
  | mk result memory =>
    cases result with
    | none =>
      have failed := allocateFrame_of_new_none returned
      have scanned := frames.allocateFrame_scanned placed.covers s.memory
      rw [failed] at scanned
      have none := FrameAllocator.freeFrames_allocateFrame placed.covers failed
      cases scanned with
      | full _ same writes =>
        have kernelSame (level table : Nat) (isShared : shared level table) (index : Nat)
            (small : index < 512) : entry memory table index = entry s.memory table index :=
          entry_eq_of_writes writes small
            (Span.separate_iff.mp (unused.off_bitmap level table isShared))
        refine ⟨fun _ _ => False, progress.grows unused blocked
          (progress.kernel_tables.congr kernelSame fun index inside free => ?_) (by simp)
          (fun _ _ mine => mine.elim) ⟨writes.mono fun _ member => .inl member,
            fun index inside marked => ?_, fun _ _ mine => mine, fun _ _ mine => mine.elim⟩, ?_, ?_⟩
        · rwa [same index inside] at free
        · rwa [same index inside]
        · rcases none with ⟨_, empty, _⟩ | ⟨some_, _⟩
          · simp [empty]
          · cases some_
        · rw [FrameAllocator.freeFrames_congr same]
          exact Nat.le_succ _
    | some root =>
      obtain ⟨⟨fresh, inside, _, free, bits⟩, kernelTables, tree, grows⟩ :=
        new_extends placed captured progress.kernel_tables returned
      have fewer := FrameAllocator.freeFrames_taken inside free bits
      refine ⟨_, progress.grows unused blocked kernelTables (fun other same => ?_) tree.held grows,
        ?_, fewer.ge⟩
      · obtain rfl := Option.some.inj same
        exact tree
      · simp only [Option.isSome_some, true_iff]
        omega

/-- What `load_into_process` has done when the section loop starts. -/
def prepared (frames : FrameAllocator) (kernel base pages : Nat) (before memory : PhysMem) : Loading :=
  (((Loading.start before).afterTables memory).afterTables
    (PageTable.new frames kernel memory).2).clear base (pages * 4096)

/-- The loop starts with the block taken and cleared and, if a frame was left, with a table. -/
theorem progress_prepared {memory : PhysMem} (placed : frames.Placed) (captured : kernel ≠ 0)
    (unused : KernelTables frames kernel shared before)
    (allocated : allocateContiguous frames before pages = (.ok (some base), memory)) :
    ∃ first own, Blocked frames before first pages base ∧
      Progress frames kernel shared before first pages (PageTable.new frames kernel memory).1 own
        (prepared frames kernel base pages before memory) ∧
      ((PageTable.new frames kernel memory).1.isSome = true ↔ pages < frames.freeFrames before) ∧
      frames.freeFrames before ≤
        frames.freeFrames (prepared frames kernel base pages before memory).memory + pages + 1 := by
  obtain ⟨writes, spec⟩ := allocateContiguous_spec placed.covers allocated
  obtain ⟨_, first, baseEq, granted⟩ := spec base rfl
  have fewer := granted.fewer
  have blocked : Blocked frames before first pages base :=
    ⟨granted.inside, granted.free, baseEq, by simp only [block, allocated]⟩
  obtain ⟨own, made, table, cost⟩ :=
    (progress_of_granted unused granted writes).new placed captured unused blocked
  rw [Loading.afterTables_memory] at made table cost
  have cleared : WritesWithin (⟨base, 4096 * pages⟩ : Span).toSet
      (PageTable.new frames kernel memory).2
      (prepared frames kernel base pages before memory).memory := by
    refine .fill _ 0 fun a member => ?_
    rw [Nat.mul_comm] at member
    exact member
  refine ⟨first, own, blocked, made.inBlock placed.covers unused blocked cleared rfl ?_, ?_, ?_⟩
  · intro span member
    rcases List.mem_cons.mp member with isBlock | old
    · rw [isBlock, Nat.mul_comm]
      exact .inr fun a inBlock => inBlock
    · exact .inl old
  · rw [table]
    omega
  · have sameFree : frames.freeFrames (prepared frames kernel base pages before memory).memory =
        frames.freeFrames (PageTable.new frames kernel memory).2 :=
      FrameAllocator.freeFrames_congr fun index inside =>
        blocked.used_eq placed.covers unused cleared inside
    omega

/-- After the block, the load is its section loop. -/
theorem loadIntoProcess_loading {memory : PhysMem} (process : Process)
    (allocated : allocateContiguous frames before (totalPages image) = (.ok (some base), memory)) :
    (loadIntoProcess frames kernel image process data (.start before)).2.2 =
      (loadSections frames image data base (PageTable.new frames kernel memory).1
        (List.range' 0 image.numSections)
        (prepared frames kernel base (totalPages image) before memory)).2 := by
  have start : (Loading.start before).memory = before := rfl
  simp only [loadIntoProcess, start, allocated, loadAt, Loading.afterTables_memory, prepared,
    List.range_eq_range']
  generalize loadSections frames image data base _ _ _ = ended
  obtain ⟨outcome, s⟩ := ended
  cases outcome with
  | error reason => rfl
  | ok complete =>
    cases complete with
    | false => rfl
    | true =>
      dsimp only
      cases add64 base (image.entryPoint - image.imageBase) with
      | error reason => rfl
      | ok entryPoint => rfl

/-- A block is what `allocate_contiguous` returned. -/
theorem allocated_of_block {span : Span} (found : block frames before pages = some span) :
    ∃ base memory, allocateContiguous frames before pages = (.ok (some base), memory) := by
  unfold block at found
  cases allocated : allocateContiguous frames before pages with
  | mk result memory =>
    rw [allocated] at found
    cases result with
    | error reason => cases found
    | ok result =>
      cases result with
      | none => cases found
      | some base => exact ⟨base, memory, rfl⟩

/-- Without a block, the load writes the bitmap at most. -/
theorem contained_without_block (covers : frames.Covers) (process : Process)
    (refused : block frames before (totalPages image) = none) :
    Contained frames before (totalPages image)
      (loadIntoProcess frames kernel image process data (.start before)).2.2 := by
  have start : (Loading.start before).memory = before := rfl
  cases allocated : allocateContiguous frames before (totalPages image) with
  | mk result memory =>
    have writes := (allocateContiguous_spec covers allocated).1
    have within : Contained frames before (totalPages image)
        ((Loading.start before).afterTables memory) := by
      refine ⟨fun span member => ?_, fun span member a inSpan => ?_⟩
      · cases member
      · rcases List.mem_append.mp member with new | old
        · exact .inl (writes.since span new a inSpan)
        · cases old
    unfold block at refused
    simp only [loadIntoProcess, start, allocated] at refused ⊢
    cases result with
    | error reason => exact within
    | ok result =>
      cases result with
      | none => exact within
      | some base => cases refused

/-- Sections that fit keep the load where it may write. -/
theorem contained_of_fits (placed : frames.Placed) (captured : kernel ≠ 0)
    (unused : KernelTables frames kernel shared before) (process : Process)
    (fits : Fits frames before kernel image data) :
    Contained frames before (totalPages image)
      (loadIntoProcess frames kernel image process data (.start before)).2.2 := by
  cases found : block frames before (totalPages image) with
  | none => exact contained_without_block placed.covers process found
  | some span =>
    obtain ⟨base, memory, allocated⟩ := allocated_of_block found
    obtain ⟨first, own, blocked, progress, table, _⟩ :=
      progress_prepared placed captured unused allocated
    obtain ⟨grown, loaded⟩ :=
      loadSections_progress placed unused blocked table (fits (by rw [found]; rfl)) progress
    rw [loadIntoProcess_loading process allocated]
    exact loaded.contained

/-- A load that wrote where it may had sections that fit, while frames were left. -/
theorem fits_of_contained (placed : frames.Placed) (captured : kernel ≠ 0)
    (unused : KernelTables frames kernel shared before) (process : Process) (low : Low frames)
    (enough : totalPages image + 1 + 3 * image.numSections ≤ frames.freeFrames before)
    (contained : Contained frames before (totalPages image)
      (loadIntoProcess frames kernel image process data (.start before)).2.2) :
    Fits frames before kernel image data := by
  intro isSome
  obtain ⟨span, found⟩ := Option.isSome_iff_exists.mp isSome
  obtain ⟨base, memory, allocated⟩ := allocated_of_block found
  obtain ⟨first, own, blocked, progress, table, cost⟩ :=
    progress_prepared placed captured unused allocated
  rw [loadIntoProcess_loading process allocated] at contained
  exact sectionsFit_of_contained placed low unused blocked table (by omega) progress contained

/-! ## Two files -/

/-- A file of one section of 16 bytes, at offset `top * 2^24` in an image of one page. -/
def sectionFile (top : UInt8) : List UInt8 :=
  [0x4D, 0x5A] ++ List.replicate 0x3A 0 ++ [0x40, 0, 0, 0] ++
  [0x50, 0x45, 0, 0, 0x64, 0x86, 1, 0] ++ List.replicate 12 0 ++ [60, 0, 0, 0] ++
  [0x0B, 0x02] ++ List.replicate 22 0 ++ [0, 0, 0, 0, 0x80, 0, 0, 0] ++ List.replicate 24 0 ++
  [0, 0x10, 0, 0] ++
  List.replicate 8 0x41 ++ [16, 0, 0, 0] ++ [0, 0, 0, top] ++ [16, 0, 0, 0] ++ [0, 0, 0, 0] ++
  List.replicate 16 0

/-- What `parse_pe` reads from it. -/
def sectionImage : PeImage where
  machine := .amd64
  entryPoint := 2 ^ 39
  imageBase := 2 ^ 39
  imageSize := 0x1000
  isDll := false
  numSections := 1
  sectionTableOffset := 0x94
  dataDirectoryOffset := 0xC4
  numDataDirectories := 0

/-- Its section. -/
def fileSection (top : UInt8) : SectionHeader where
  name := List.replicate 8 0x41
  virtualSize := 16
  virtualAddress := top.toNat * 2 ^ 24
  rawSize := 16
  rawOffset := 0

/-- After boot with the kernel's tables in low memory, there is a block of one page, frames for
the tables are left, the kernel has no entry for the file's addresses, and each of its pages is a
table of one level. -/
theorem kernelMemory_ready : ∃ memory,
    FrameAllocator.init kernelMemory FrameAllocator.mebibyteMap =
      .ok (FrameAllocator.mebibyteFrames, memory) ∧
    FrameAllocator.mebibyteFrames.Placed ∧
    KernelTables FrameAllocator.mebibyteFrames 0x1000 (Reaches memory 0x1000) memory ∧
    (block FrameAllocator.mebibyteFrames memory 1).isSome = true ∧
    5 ≤ FrameAllocator.mebibyteFrames.freeFrames memory ∧
    present (entry memory 0x1000 (pml4Index (2 ^ 39))) = false ∧
    ∀ left right table, Reaches memory 0x1000 left table → Reaches memory 0x1000 right table →
      left = right := by
  obtain ⟨memory, initialized, free⟩ := FrameAllocator.mebibyteMap_init kernelMemory
  obtain ⟨placed, writes, _⟩ := FrameAllocator.init_spec initialized
  have tables := kernelMemory_tables initialized
  refine ⟨memory, initialized, placed, tables.reaches, ?_, ?_, ?_, ?_⟩
  · obtain ⟨taken, next, _, _, returned, _⟩ := FrameAllocator.allocateFrame_returns placed.covers
      (show 1 < 256 by decide) (free 1 (by decide) (by decide))
    simp only [block, allocateContiguous, returned]
    rfl
  · have many := FrameAllocator.mebibyteMap_freeFrames free
    omega
  · rw [entry_eq_of_writes writes (pml4Index_lt _)
      (Span.separate_iff.mp (tables.off_bitmap _ _ tables.root))]
    decide +kernel
  · intro left right table leftReached rightReached
    have leftPage := leftReached.subset tables.closed tables.root
    have rightPage := rightReached.subset tables.closed tables.root
    unfold kernelPages at leftPage rightPage
    omega

/-- The section of the other file starts a gibibyte behind its image of one page, and is copied
there. -/
theorem loadIntoProcess_escapes : ∃ memory,
    parsePe (sectionFile 0x40) = .ok (some sectionImage) ∧
    totalPages sectionImage = 1 ∧
    sectionHeader sectionImage (sectionFile 0x40) 0 = .ok (some (fileSection 0x40)) ∧
    FrameAllocator.init kernelMemory FrameAllocator.mebibyteMap =
      .ok (FrameAllocator.mebibyteFrames, memory) ∧
    KernelTables FrameAllocator.mebibyteFrames 0x1000 (Reaches memory 0x1000) memory ∧
    ¬Contained FrameAllocator.mebibyteFrames memory 1
      (loadIntoProcess FrameAllocator.mebibyteFrames 0x1000 sectionImage ⟨0, 0, 0, 0⟩
        (sectionFile 0x40) (.start memory)).2.2 := by
  obtain ⟨memory, initialized, placed, unused, isSome, enough, _⟩ := kernelMemory_ready
  have parsed : sectionHeader sectionImage (sectionFile 0x40) 0 = .ok (some (fileSection 0x40)) := by
    decide +kernel
  refine ⟨memory, by decide +kernel, rfl, parsed, initialized, unused, fun contained => ?_⟩
  have low : Low FrameAllocator.mebibyteFrames := by
    unfold Low
    decide
  have enoughNow : totalPages sectionImage + 1 + 3 * sectionImage.numSections ≤
      FrameAllocator.mebibyteFrames.freeFrames memory := enough
  have fits := fits_of_contained placed (by decide) unused ⟨0, 0, 0, 0⟩ low enoughNow contained
    isSome
  have reached : Reached sectionImage (sectionFile 0x40)
      (totalPages sectionImage < FrameAllocator.mebibyteFrames.freeFrames memory) 0 0 := by
    refine ⟨fun j _ below => ?_, fun j _ _ below => absurd below (Nat.not_lt_zero j)⟩
    rw [Nat.le_zero.mp below]
    exact ⟨_, parsed⟩
  have inside := (fits 0 (Nat.le_refl 0) (by decide) reached _ parsed).1
  revert inside
  decide +kernel

end Aperture.Win32
