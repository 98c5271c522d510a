import Aperture.Mm.TablePages
import Aperture.Win32.Containment

/-!
# The bytes of a loaded image

After a load every byte of the block is the byte of the file that its section copies there, or
zero. Each section writes its own virtual range only, and the table code that runs between the
sections writes the bitmap and pages of tables, which are never frames of the block.
-/

namespace Aperture.Win32

open Machine Mm Pe PageTable

/-- Where a section lies in the image. -/
def virtualRange (header : SectionHeader) : Span := ⟨header.virtualAddress, header.virtualSize⟩

/-- The part of it that comes from the file. -/
def copiedRange (header : SectionHeader) : Span := ⟨header.virtualAddress, copySize header⟩

/-- Virtual ranges of different sections are disjoint. -/
def SectionsApart (image : PeImage) (data : List UInt8) : Prop :=
  ∀ i < image.numSections, ∀ j < image.numSections, i ≠ j → ∀ left right,
    sectionHeader image data i = .ok (some left) → sectionHeader image data j = .ok (some right) →
      (virtualRange left).Separate (virtualRange right)

/-- The sections of an image are apart, inside the image and backed by the file. -/
structure WellLaid (image : PeImage) (data : List UInt8) : Prop where
  /-- Virtual ranges are pairwise disjoint. -/
  apart : SectionsApart image data
  /-- They lie inside the pages of the image. -/
  inside : ∀ i < image.numSections, ∀ header, sectionHeader image data i = .ok (some header) →
    ∀ rva ∈ virtualRange header, rva < 4096 * totalPages image
  /-- The copied bytes are in the file. -/
  in_file : ∀ i < image.numSections, ∀ header, sectionHeader image data i = .ok (some header) →
    0 < copySize header → header.rawOffset + copySize header ≤ data.length

/-- What the first `count` sections say a byte of the image is. -/
structure ByteOf (image : PeImage) (data : List UInt8) (count rva : Nat) (byte : UInt8) : Prop where
  /-- A byte that a section copies is the file's. -/
  copied : ∀ i < count, ∀ header, sectionHeader image data i = .ok (some header) →
    rva ∈ copiedRange header →
      data[header.rawOffset + (rva - header.virtualAddress)]? = some byte
  /-- Every other byte is zero. -/
  cleared : (∀ i < count, ∀ header, sectionHeader image data i = .ok (some header) →
    rva ∉ copiedRange header) → byte = 0

variable {frames : FrameAllocator} {kernel base first count : Nat} {before memory after : PhysMem}
  {image : PeImage} {data : List UInt8} {header : SectionHeader} {s : Loading}
  {pageTable : Option Nat} {pages : Nat → Nat → Prop}

/-- Copied bytes lie in the virtual range. -/
theorem mem_virtualRange {rva : Nat} (member : rva ∈ copiedRange header) :
    rva ∈ virtualRange header := by
  have copies : copySize header ≤ header.virtualSize := Nat.min_le_right _ _
  simp only [copiedRange, virtualRange, Span.mem_iff] at member ⊢
  omega

/-! ## One section -/

/-- Placing a section copies its bytes from the file. -/
theorem placeSection_copied {dest offset : Nat}
    (inFile : header.rawOffset + copySize header ≤ data.length) (small : offset < copySize header) :
    data[header.rawOffset + offset]? =
      some ((placeSection header data dest s).memory.byte (dest + offset)) := by
  have length := length_copied inFile
  have copied : (copySection header data dest s).memory.byte (dest + offset) =
      data.getD (header.rawOffset + offset) 0 := by
    rw [copySection, if_pos inFile, Loading.copyIn, PhysMem.copyIn, PhysMem.store_byte_inside]
    · simp only [Nat.add_sub_cancel_left, List.getD_eq_getElem?_getD, List.getElem?_take,
        small, ↓reduceIte, List.getElem?_drop]
    · simp only [Span.mem_iff, length]
      omega
  have kept : (placeSection header data dest s).memory.byte (dest + offset) =
      (copySection header data dest s).memory.byte (dest + offset) := by
    unfold placeSection
    split
    · have before : dest + offset ∉
          (⟨dest + copySize header, header.virtualSize - copySize header⟩ : Span) := by
        simp only [Span.mem_iff]
        omega
      exact PhysMem.store_byte_outside (copySection header data dest s).memory (fun _ => 0) before
    · rfl
  have present : header.rawOffset + offset < data.length := by omega
  rw [kept, copied, List.getD_eq_getElem?_getD, List.getElem?_eq_getElem present]
  rfl

/-- It clears the rest of its virtual range. -/
theorem placeSection_cleared {dest offset : Nat} (past : copySize header ≤ offset)
    (small : offset < header.virtualSize) :
    (placeSection header data dest s).memory.byte (dest + offset) = 0 := by
  have inside : dest + offset ∈
      (⟨dest + copySize header, header.virtualSize - copySize header⟩ : Span) := by
    simp only [Span.mem_iff]
    omega
  rw [placeSection, if_pos (by omega)]
  exact PhysMem.store_byte_inside (copySection header data dest s).memory (fun _ => 0) inside

/-- It writes its virtual range only. -/
theorem placeSection_within (header : SectionHeader) (data : List UInt8) (dest : Nat) (s : Loading) :
    WritesWithin (⟨dest, header.virtualSize⟩ : Span).toSet s.memory
      (placeSection header data dest s).memory := by
  have copies : copySize header ≤ header.virtualSize := Nat.min_le_right _ _
  apply placeSection_writes
  intro span member a inSpan
  simp only [Span.mem_toSet, Span.mem_iff]
  rcases List.mem_append.mp member with cleared | copied
  · split at cleared
    · simp only [List.mem_singleton.mp cleared, Span.mem_iff] at inSpan
      omega
    · cases cleared
  · split at copied
    · simp only [List.mem_singleton.mp copied, Span.mem_iff] at inSpan
      omega
    · cases copied

/-- A section inside the image writes in the block. -/
theorem placeSection_inside (inside : ∀ rva ∈ virtualRange header, rva < 4096 * totalPages image)
    (data : List UInt8) (base : Nat) (s : Loading) :
    WritesWithin (⟨base, 4096 * totalPages image⟩ : Span).toSet s.memory
      (placeSection header data (base + header.virtualAddress) s).memory := by
  apply (placeSection_within header data _ s).mono
  intro a member
  simp only [Span.mem_toSet, Span.mem_iff] at member ⊢
  have range : header.virtualAddress + header.virtualSize - 1 ∈ virtualRange header := by
    simp only [virtualRange, Span.mem_iff]
    omega
  have bound := inside _ range
  omega

/-- One more section gives its bytes and leaves those of the others. -/
theorem WellLaid.place (laid : WellLaid image data) (next : count < image.numSections)
    (found : sectionHeader image data count = .ok (some header)) {rva : Nat}
    (soFar : ByteOf image data count rva (s.memory.byte (base + rva))) :
    ByteOf image data (count + 1) rva
      ((placeSection header data (base + header.virtualAddress) s).memory.byte (base + rva)) := by
  have copies : copySize header ≤ header.virtualSize := Nat.min_le_right _ _
  by_cases inRange : rva ∈ virtualRange header
  · have bounds := Span.mem_iff.mp inRange
    simp only [virtualRange] at bounds
    have address : base + rva = base + header.virtualAddress + (rva - header.virtualAddress) := by
      omega
    have only (i : Nat) (small : i < count + 1) (other : SectionHeader)
        (otherFound : sectionHeader image data i = .ok (some other))
        (member : rva ∈ copiedRange other) : other = header := by
      by_cases last : i = count
      · rw [last, found, Except.ok.injEq, Option.some.injEq] at otherFound
        exact otherFound.symm
      · have separate := laid.apart i (by omega) count next last other header otherFound found
        exact absurd inRange (Span.separate_iff.mp separate rva (mem_virtualRange member))
    rw [address]
    constructor
    · intro i small other otherFound member
      obtain rfl := only i small other otherFound member
      simp only [copiedRange, Span.mem_iff] at member
      exact placeSection_copied (laid.in_file count next other found (by omega)) (by omega)
    · intro uncopied
      have past := uncopied count (Nat.lt_succ_self count) header found
      simp only [copiedRange, Span.mem_iff] at past
      exact placeSection_cleared (by omega) (by omega)
  · have unchanged : (placeSection header data (base + header.virtualAddress) s).memory.byte
        (base + rva) = s.memory.byte (base + rva) := by
      apply (placeSection_within header data _ s).unchanged
      simp only [virtualRange, Span.mem_iff] at inRange
      simp only [Span.mem_toSet, Span.mem_iff]
      omega
    rw [unchanged]
    constructor
    · intro i small other otherFound member
      by_cases last : i = count
      · rw [last, found, Except.ok.injEq, Option.some.injEq] at otherFound
        rw [otherFound] at inRange
        exact absurd (mem_virtualRange member) inRange
      · exact soFar.copied i (by omega) other otherFound member
    · intro uncopied
      exact soFar.cleared fun i small => uncopied i (by omega)

/-- A section that was mapped without a panic has been placed, and then a page has been mapped if
there is a table. -/
theorem mapSection_returned {virtBase : Nat} {after : Loading}
    (returned : mapSection frames header data base virtBase pageTable s = (.ok (), after)) :
    (pageTable = none ∧ after = placeSection header data (base + header.virtualAddress) s) ∨
    ∃ root, pageTable = some root ∧ virtBase + header.virtualAddress < wordSize ∧
      base + header.virtualAddress < wordSize ∧
      after = (placeSection header data (base + header.virtualAddress) s).afterTables
        (map frames (placeSection header data (base + header.virtualAddress) s).memory root
          (virtBase + header.virtualAddress) (base + header.virtualAddress) sectionFlags).2 := by
  cases dest : add64 base header.virtualAddress with
  | error reason =>
    simp only [mapSection, dest] at returned
    cases returned
  | ok address =>
    obtain ⟨destFits, rfl⟩ := add64_eq_ok.mp dest
    have endFits : copySize header < header.virtualSize →
        base + header.virtualAddress + copySize header < wordSize := by
      intro clears
      by_contra exceeds
      have overflows : add64 (base + header.virtualAddress) (copySize header) = .error .overflow :=
        if_neg exceeds
      simp only [mapSection, dest, clearSection, if_pos clears, overflows] at returned
      cases returned
    rcases mapSection_cases frames data virtBase pageTable s destFits endFits with
      ⟨none, ended⟩ | ⟨root, some_, virtFits, ended⟩ | ⟨root, reason, some_, _, ended⟩
    · rw [ended] at returned
      exact .inl ⟨none, (Prod.mk.inj returned).2.symm⟩
    · rw [ended] at returned
      exact .inr ⟨root, some_, virtFits, destFits, (Prod.mk.inj returned).2.symm⟩
    · rw [ended] at returned
      cases returned

/-! ## The loop -/

/-- The first `count` sections are in place, and no table shares a frame with the block. -/
structure Filled (frames : FrameAllocator) (image : PeImage) (data : List UInt8) (first base : Nat)
    (pageTable : Option Nat) (count : Nat) (pages : Nat → Nat → Prop) (memory : PhysMem) : Prop where
  /-- The pages of the tables. -/
  tables : TablePages frames memory pages
  /-- The process's table is one of them. -/
  top : ∀ root, pageTable = some root → pages 3 root
  /-- They are apart from the block. -/
  off_block : ∀ level table, pages level table → ∀ index, first ≤ index →
    index < first + totalPages image → (page table).Separate (frames.frameSpan index)
  /-- The block is in use. -/
  block_used : ∀ index, first ≤ index → index < first + totalPages image →
    frames.used memory index = true
  /-- The bytes of the block. -/
  bytes : ∀ rva < 4096 * totalPages image, ByteOf image data count rva (memory.byte (base + rva))

/-- Writes in the block keep tables and bitmap. -/
theorem Filled.inBlock (filled : Filled frames image data first base pageTable count pages memory)
    (covers : frames.Covers) (unused : KernelTables frames kernel (Reaches before kernel) before)
    (blocked : Blocked frames before first (totalPages image) base) {more : Nat}
    (writes : WritesWithin (⟨base, 4096 * totalPages image⟩ : Span).toSet memory after)
    (bytes : ∀ rva < 4096 * totalPages image,
      ByteOf image data more rva (after.byte (base + rva))) :
    Filled frames image data first base pageTable more pages after := by
  have bits {index : Nat} (inside : index < frames.frameCount) :=
    blocked.used_eq covers unused writes inside
  refine ⟨filled.tables.congr ?_ ?_, filled.top, filled.off_block, ?_, bytes⟩
  · intro level table here index small
    exact entry_eq_of_writes writes small (blocked.off (filled.off_block _ _ here))
  · intro index inside free
    rwa [bits inside] at free
  · intro index above below
    rw [bits (Nat.lt_of_lt_of_le below blocked.inside)]
    exact filled.block_used index above below

/-- Table code keeps the block. -/
theorem Filled.grows (filled : Filled frames image data first base pageTable count pages memory)
    (unused : KernelTables frames kernel (Reaches before kernel) before)
    (blocked : Blocked frames before first (totalPages image) base) {grown : Nat → Nat → Prop}
    {later : Option Nat} (tables : TablePages frames after grown)
    (grows : Grows frames memory pages after grown)
    (top : ∀ root, later = some root → grown 3 root) :
    Filled frames image data first base later count grown after := by
  have offBlock (level table : Nat) (here : grown level table) (index : Nat) (above : first ≤ index)
      (below : index < first + totalPages image) :
      (page table).Separate (frames.frameSpan index) := by
    rcases grows.fresh level table here with old | ⟨frame, inside, rfl, free⟩
    · exact filled.off_block level table old index above below
    · apply FrameAllocator.frameSpan_separate
      rintro rfl
      rw [filled.block_used frame above below] at free
      cases free
  refine ⟨tables, top, offBlock, ?_, ?_⟩
  · intro index above below
    exact grows.kept index (Nat.lt_of_lt_of_le below blocked.inside)
      (filled.block_used index above below)
  · intro rva small
    have inBlock : base + rva ∈ (⟨base, 4096 * totalPages image⟩ : Span).toSet := by
      simp only [Span.mem_toSet, Span.mem_iff]
      omega
    have unchanged : after.byte (base + rva) = memory.byte (base + rva) := by
      apply grows.writes.unchanged
      rintro (inBitmap | ⟨level, table, here, inPage⟩)
      · refine blocked.off (fun index above below => ?_) _ inBitmap inBlock
        have exists_ : index < frames.frameCount := Nat.lt_of_lt_of_le below blocked.inside
        exact (unused.free_off_bitmap index exists_ (blocked.free index above below)).symm
      · exact blocked.off (offBlock level table here) _ inPage inBlock
    rw [unchanged]
    exact filled.bytes rva small

/-- One more section. -/
theorem Filled.next {last : Loading}
    (filled : Filled frames image data first base pageTable count pages s.memory)
    (placed : frames.Placed) (unused : KernelTables frames kernel (Reaches before kernel) before)
    (blocked : Blocked frames before first (totalPages image) base) (laid : WellLaid image data)
    (next : count < image.numSections)
    (found : sectionHeader image data count = .ok (some header))
    (returned : mapSection frames header data base image.imageBase pageTable s = (.ok (), last)) :
    ∃ grown, Filled frames image data first base pageTable (count + 1) grown last.memory := by
  have bytes (rva : Nat) (small : rva < 4096 * totalPages image) :=
    laid.place next found (filled.bytes rva small)
  have within := placeSection_inside (laid.inside count next header found) data base s
  have inPlace := filled.inBlock placed.covers unused blocked within bytes
  rcases mapSection_returned returned with ⟨_, rfl⟩ | ⟨root, some_, _, _, rfl⟩
  · exact ⟨pages, inPlace⟩
  · obtain ⟨grown, tables, grows⟩ := inPlace.tables.map placed (inPlace.top root some_)
      (image.imageBase + header.virtualAddress) (base + header.virtualAddress) sectionFlags
    refine ⟨grown, inPlace.grows unused blocked tables grows fun other isTable => ?_⟩
    exact grows.larger _ _ (inPlace.top other isTable)

/-- A loop that ends has placed all its sections. -/
theorem loadSections_filled (placed : frames.Placed)
    (unused : KernelTables frames kernel (Reaches before kernel) before)
    (blocked : Blocked frames before first (totalPages image) base) (laid : WellLaid image data)
    {rest : Nat} (total : count + rest = image.numSections) {last : Loading}
    (filled : Filled frames image data first base pageTable count pages s.memory)
    (returned : loadSections frames image data base pageTable (List.range' count rest) s =
      (.ok true, last)) :
    ∃ grown, Filled frames image data first base pageTable image.numSections grown last.memory := by
  induction rest generalizing count pages s with
  | zero =>
    obtain rfl : count = image.numSections := total
    obtain ⟨_, rfl⟩ := Prod.mk.inj returned
    exact ⟨pages, filled⟩
  | succ rest ih =>
    rw [List.range'_succ, loadSections] at returned
    split at returned
    · cases returned
    · cases returned
    · rename_i header found
      split at returned
      · cases returned
      · rename_i middle ended
        obtain ⟨grown, more⟩ := filled.next placed unused blocked laid (by omega) found ended
        exact ih (by omega) more returned

/-! ## The load -/

/-- When the section loop starts, the block is zero. -/
theorem filled_prepared (placed : frames.Placed) (captured : kernel ≠ 0)
    (unused : KernelTables frames kernel (Reaches before kernel) before)
    (tables : TablePages frames before (Reaches before kernel))
    (allocated : allocateContiguous frames before (totalPages image) = (.ok (some base), memory)) :
    ∃ first pages, Blocked frames before first (totalPages image) base ∧
      Filled frames image data first base (PageTable.new frames kernel memory).1 0 pages
        (prepared frames kernel base (totalPages image) before memory).memory := by
  obtain ⟨writes, spec⟩ := allocateContiguous_spec placed.covers allocated
  obtain ⟨_, first, baseEq, granted⟩ := spec base rfl
  have blocked : Blocked frames before first (totalPages image) base :=
    ⟨granted.inside, granted.free, baseEq, by simp only [block, allocated]⟩
  have taken : TablePages frames memory (Reaches before kernel) := by
    apply tables.congr
    · intro level table here index small
      exact entry_eq_of_writes writes small (Span.separate_iff.mp (tables.off_bitmap _ _ here))
    · intro index inside free
      rw [granted.bits index inside, Bool.or_eq_false_iff] at free
      exact free.1
  have used (index : Nat) (above : first ≤ index) (below : index < first + totalPages image) :
      frames.used memory index = true := by
    rw [granted.bits index (Nat.lt_of_lt_of_le below granted.inside), decide_eq_true ⟨above, below⟩,
      Bool.or_true]
  obtain ⟨grown, newTables, grows, top⟩ := taken.new placed captured unused.root
  have offBlock (level table : Nat) (here : grown level table) (index : Nat) (above : first ≤ index)
      (below : index < first + totalPages image) :
      (page table).Separate (frames.frameSpan index) := by
    rcases grows.fresh level table here with old | ⟨frame, inside, rfl, free⟩
    · exact unused.off_free level table old index (Nat.lt_of_lt_of_le below granted.inside)
        (granted.free index above below)
    · apply FrameAllocator.frameSpan_separate
      rintro rfl
      rw [used frame above below] at free
      cases free
  have cleared : WritesWithin (⟨base, 4096 * totalPages image⟩ : Span).toSet
      (PageTable.new frames kernel memory).2
      (prepared frames kernel base (totalPages image) before memory).memory := by
    apply WritesWithin.fill
    intro a member
    rw [Nat.mul_comm] at member
    exact member
  have bits {index : Nat} (inside : index < frames.frameCount) :=
    blocked.used_eq placed.covers unused cleared inside
  refine ⟨first, grown, blocked, newTables.congr ?_ ?_, top, offBlock, ?_, ?_⟩
  · intro level table here index small
    exact entry_eq_of_writes cleared small (blocked.off (offBlock _ _ here))
  · intro index inside free
    rwa [bits inside] at free
  · intro index above below
    have inside := Nat.lt_of_lt_of_le below granted.inside
    rw [bits inside]
    exact grows.kept index inside (used index above below)
  · intro rva small
    have member : base + rva ∈ (⟨base, totalPages image * 4096⟩ : Span) := by
      simp only [Span.mem_iff]
      omega
    refine ⟨fun i none => absurd none (Nat.not_lt_zero i), fun _ => ?_⟩
    exact PhysMem.store_byte_inside (PageTable.new frames kernel memory).2 (fun _ => 0) member

/-- A load that returns true took a block, went through all sections, and set the process's
table. -/
theorem loadIntoProcess_returned {process loaded : Process} {last : Loading}
    (returned : loadIntoProcess frames kernel image process data (.start before) =
      (.ok true, loaded, last)) :
    ∃ memory,
      allocateContiguous frames before (totalPages image) = (.ok (some loaded.imageBase), memory) ∧
      loaded.pageTableRoot = (PageTable.new frames kernel memory).1.getD 0 ∧
      loadSections frames image data loaded.imageBase (PageTable.new frames kernel memory).1
        (List.range' 0 image.numSections)
        (prepared frames kernel loaded.imageBase (totalPages image) before memory) =
          (.ok true, last) := by
  have start : (Loading.start before).memory = before := rfl
  cases allocated : allocateContiguous frames before (totalPages image) with
  | mk result memory =>
    cases result with
    | error reason =>
      simp only [loadIntoProcess, start, allocated] at returned
      cases returned
    | ok result =>
      cases result with
      | none =>
        simp only [loadIntoProcess, start, allocated] at returned
        cases returned
      | some base =>
        cases ended : loadSections frames image data base (PageTable.new frames kernel memory).1
            (List.range' 0 image.numSections)
            (prepared frames kernel base (totalPages image) before memory) with
        | mk outcome s =>
          have looped := ended
          unfold prepared at looped
          simp only [loadIntoProcess, start, allocated, loadAt, Loading.afterTables_memory,
            List.range_eq_range', looped] at returned
          cases outcome with
          | error reason => cases returned
          | ok complete =>
            cases complete with
            | false => cases returned
            | true =>
              dsimp only at returned
              split at returned
              · cases returned
              · obtain ⟨_, rfl, rfl⟩ := returned
                exact ⟨memory, rfl, rfl, ended⟩

/-- A loaded process has no page table exactly when its block took the last free frames: the root of
a table is a frame above the block, and so not zero. -/
theorem pageTableRoot_eq_zero_iff (covers : frames.Covers) {process loaded : Process}
    {last : Loading} (returned : loadIntoProcess frames kernel image process data (.start before) =
      (.ok true, loaded, last)) :
    loaded.pageTableRoot = 0 ↔ frames.freeFrames before = totalPages image := by
  obtain ⟨memory, allocated, root, _⟩ := loadIntoProcess_returned returned
  obtain ⟨_, spec⟩ := allocateContiguous_spec covers allocated
  obtain ⟨positive, first, baseEq, granted⟩ := spec _ rfl
  have fewer := granted.fewer
  have scanned := frames.allocateFrame_scanned covers memory
  have counted := FrameAllocator.freeFrames_allocateFrame covers
    (Prod.eta (frames.allocateFrame memory)).symm
  rw [root, PageTable.new]
  generalize frames.allocateFrame memory = result at scanned counted
  cases scanned with
  | full =>
    obtain ⟨_, nothing, _⟩ | ⟨isSome, _⟩ := counted
    · simp only [Option.getD_none, true_iff]
      omega
    · cases isSome
  | @taken after index inside _ free =>
    obtain ⟨isNone, _⟩ | ⟨_, less⟩ := counted
    · cases isNone
    rw [baseEq] at allocated
    have lowest := allocateContiguous_lowest covers allocated
    rw [granted.bits index inside, Bool.or_eq_false_iff, decide_eq_false_iff_not] at free
    have above : index ≠ 0 := by
      rintro rfl
      have notFirst : first ≠ 0 := by
        have := free.2
        omega
      rw [lowest 0 (Nat.pos_of_ne_zero notFirst)] at free
      cases free.1
    have rooted : (if kernel ≠ 0 then (some (frames.frameAddr index),
          copyEntries kernel (frames.frameAddr index)
            (after.fill (frames.frameAddr index) 4096 0) 512)
        else (some (frames.frameAddr index), after.fill (frames.frameAddr index) 4096 0)).1.getD 0 =
        frames.frameAddr index := by
      split
      · rfl
      · rfl
    have high : frames.frameAddr index ≠ 0 := by
      simp only [FrameAllocator.frameAddr, frameSize]
      omega
    simp only [rooted, high, false_iff]
    omega

/-- For every image whose sections are apart, inside the image and backed by the file, in any
number and order: when the load returns true, each byte of the block is the byte of the file that
a section copies there, and zero where no section copies. The kernel's tables are pages of one
level each, off the bitmap and the free frames. -/
theorem loadIntoProcess_bytes (placed : frames.Placed) (captured : kernel ≠ 0)
    (unused : KernelTables frames kernel (Reaches before kernel) before)
    (aligned : kernel % 4096 = 0)
    (levels : ∀ left right table, Reaches before kernel left table →
      Reaches before kernel right table → left = right)
    (laid : WellLaid image data) {process loaded : Process} {last : Loading}
    (returned : loadIntoProcess frames kernel image process data (.start before) =
      (.ok true, loaded, last)) {rva : Nat} (small : rva < 4096 * totalPages image) :
    ByteOf image data image.numSections rva (last.memory.byte (loaded.imageBase + rva)) := by
  obtain ⟨memory, allocated, _, ended⟩ := loadIntoProcess_returned returned
  have tables := KernelTables.tablePages unused aligned levels
  obtain ⟨first, pages, blocked, filled⟩ :=
    filled_prepared placed captured unused tables allocated
  obtain ⟨grown, complete⟩ :=
    loadSections_filled placed unused blocked laid (Nat.zero_add _) filled ended
  exact complete.bytes rva small

/-- While headers are there and addresses do not overflow, the loop ends. -/
theorem loadSections_returns (frames : FrameAllocator) (pageTable : Option Nat) {indices : List Nat}
    (fits : ∀ i ∈ indices, ∃ header, sectionHeader image data i = .ok (some header) ∧
      base + header.virtualAddress + header.virtualSize < wordSize ∧
      image.imageBase + header.virtualAddress < wordSize) (s : Loading) :
    ∃ last, loadSections frames image data base pageTable indices s = (.ok true, last) := by
  induction indices generalizing s with
  | nil => exact ⟨s, rfl⟩
  | cons i rest ih =>
    obtain ⟨header, found, destFits, virtFits⟩ := fits i List.mem_cons_self
    have copies : copySize header ≤ header.virtualSize := Nat.min_le_right _ _
    have later (s : Loading) := ih (fun j member => fits j (List.mem_cons_of_mem i member)) s
    rw [loadSections, found]
    dsimp only
    rcases mapSection_cases frames data image.imageBase pageTable s
        (Nat.lt_of_le_of_lt (Nat.le_add_right _ _) destFits) (by omega) with
      ⟨_, ended⟩ | ⟨root, _, _, ended⟩ | ⟨root, reason, _, overflows, _⟩
    · rw [ended]
      exact later _
    · rw [ended]
      exact later _
    · exact absurd virtFits overflows

/-- With a block, and sections whose headers are there and whose addresses do not overflow, the
load returns true. -/
theorem loadIntoProcess_returns (process : Process)
    (allocated : allocateContiguous frames before (totalPages image) = (.ok (some base), memory))
    (fits : ∀ i < image.numSections, ∃ header, sectionHeader image data i = .ok (some header) ∧
      base + header.virtualAddress + header.virtualSize < wordSize ∧
      image.imageBase + header.virtualAddress < wordSize)
    (entryFits : base + (image.entryPoint - image.imageBase) < wordSize) :
    ∃ loaded last, loadIntoProcess frames kernel image process data (.start before) =
      (.ok true, loaded, last) ∧ loaded.imageBase = base ∧
      loaded.pageTableRoot = (PageTable.new frames kernel memory).1.getD 0 := by
  have start : (Loading.start before).memory = before := rfl
  obtain ⟨last, ended⟩ := loadSections_returns frames (PageTable.new frames kernel memory).1
    (fun i member => fits i (List.mem_range.mp member))
    (prepared frames kernel base (totalPages image) before memory)
  have sum := add64_eq_ok.mpr ⟨entryFits, rfl⟩
  unfold prepared at ended
  refine ⟨⟨base, image.imageSize, base + (image.entryPoint - image.imageBase),
    (PageTable.new frames kernel memory).1.getD 0⟩, last, ?_, rfl, rfl⟩
  simp only [loadIntoProcess, start, allocated, loadAt, Loading.afterTables_memory, ended, sum]

/-- The file whose section starts the image: the load returns true, the block starts with the
file's first byte and is zero behind the section. -/
theorem loadIntoProcess_bytes_front : ∃ memory loaded last,
    KernelTables FrameAllocator.mebibyteFrames 0x1000 (Reaches memory 0x1000) memory ∧
    loadIntoProcess FrameAllocator.mebibyteFrames 0x1000 sectionImage ⟨0, 0, 0, 0⟩ (sectionFile 0)
      (.start memory) = (.ok true, loaded, last) ∧
    last.memory.byte (loaded.imageBase + 0) = 0x4D ∧
    last.memory.byte (loaded.imageBase + 16) = 0 := by
  obtain ⟨memory, _, placed, unused, isSome, _, _, levels⟩ := kernelMemory_ready
  have parsed : sectionHeader sectionImage (sectionFile 0) 0 = .ok (some (fileSection 0)) := by
    decide +kernel
  have only {i : Nat} {header : SectionHeader} (small : i < sectionImage.numSections)
      (found : sectionHeader sectionImage (sectionFile 0) i = .ok (some header)) :
      header = fileSection 0 := by
    obtain rfl : i = 0 := Nat.lt_one_iff.mp small
    rw [parsed, Except.ok.injEq, Option.some.injEq] at found
    exact found.symm
  have laid : WellLaid sectionImage (sectionFile 0) := by
    refine ⟨?_, ?_, ?_⟩
    · intro i iSmall j jSmall differ
      exact absurd ((Nat.lt_one_iff.mp iSmall).trans (Nat.lt_one_iff.mp jSmall).symm) differ
    · intro i small header found rva member
      rw [only small found] at member
      exact Nat.lt_of_lt_of_le member.2 (by decide)
    · intro i small header found _
      rw [only small found]
      decide +kernel
  obtain ⟨span, found⟩ := Option.isSome_iff_exists.mp isSome
  obtain ⟨base, taken, allocated⟩ := allocated_of_block found
  obtain ⟨_, spec⟩ := allocateContiguous_spec placed.covers allocated
  obtain ⟨_, first, baseEq, granted⟩ := spec base rfl
  have low : base + 2 ^ 12 < wordSize := by
    have inside := granted.inside
    simp only [FrameAllocator.mebibyteFrames] at inside
    simp only [baseEq, FrameAllocator.mebibyteFrames, FrameAllocator.frameAddr, frameSize, wordSize]
    omega
  have start : base + 0 + 16 < wordSize := by omega
  have entry : base + 0 < wordSize := by omega
  have returns : ∃ loaded last, loadIntoProcess FrameAllocator.mebibyteFrames 0x1000 sectionImage
      ⟨0, 0, 0, 0⟩ (sectionFile 0) (.start memory) = (.ok true, loaded, last) ∧
      loaded.imageBase = base ∧ loaded.pageTableRoot =
        (PageTable.new FrameAllocator.mebibyteFrames 0x1000 taken).1.getD 0 := by
    refine loadIntoProcess_returns _ allocated (fun i small => ?_) entry
    obtain rfl : i = 0 := Nat.lt_one_iff.mp small
    exact ⟨fileSection 0, parsed, start, by decide⟩
  obtain ⟨loaded, last, returned, _⟩ := returns
  have bytes (rva : Nat) (small : rva < 4096 * totalPages sectionImage) :
      ByteOf sectionImage (sectionFile 0) 1 rva (last.memory.byte (loaded.imageBase + rva)) :=
    loadIntoProcess_bytes placed (by decide) unused (by decide) levels laid returned small
  refine ⟨memory, loaded, last, unused, returned, ?_, ?_⟩
  · have copied := (bytes 0 (by decide)).copied 0 (by decide) (fileSection 0) parsed (by decide)
    have front : (sectionFile 0)[0]? = some 0x4D := by decide +kernel
    exact (Option.some.inj (front.symm.trans copied)).symm
  · apply (bytes 16 (by decide)).cleared
    intro i small header found
    rw [only small found]
    decide

end Aperture.Win32
