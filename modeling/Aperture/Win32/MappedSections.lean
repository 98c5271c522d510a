import Aperture.Mm.TableSupply
import Aperture.Pe.Format
import Aperture.Win32.LoadedImage

/-!
# Which pages of an image are mapped

`map_section` maps one page for each section, the one its address lies on, and does not look at
whether that worked. After a load, an address is mapped by a section that starts on its page, if
frames were left for the tables on its path, and else as the kernel's own table maps it.
-/

namespace Aperture.Win32

open Machine Mm Pe PageTable

/-- Whether the kernel has a table at a path. -/
def hadTable (before : PhysMem) (kernel : Nat) (path : List Nat) : Bool :=
  (tableAt before kernel path).isSome

/-- The tables that the first `count` sections need and the kernel does not have, in the order in
which they are needed. -/
def wantedTables (before : PhysMem) (kernel : Nat) (image : PeImage) (data : List UInt8) :
    Nat → List (List Nat)
  | 0 => []
  | count + 1 =>
    match sectionHeader image data count with
    | .ok (some header) => wantTables (hadTable before kernel)
        (wantedTables before kernel image data count) (image.imageBase + header.virtualAddress)
    | _ => wantedTables before kernel image data count

/-- The free frames that are left for them, behind the block and the top-level table. -/
def tableSupply (frames : FrameAllocator) (before : PhysMem) (image : PeImage) : Nat :=
  frames.freeFrames before - totalPages image - 1

/-- The kernel has the table at a path, or a frame is left for it. -/
def TableReady (frames : FrameAllocator) (before : PhysMem) (kernel : Nat) (image : PeImage)
    (data : List UInt8) (count : Nat) (path : List Nat) : Prop :=
  Supplied (hadTable before kernel) (tableSupply frames before image)
    (wantedTables before kernel image data count) path

variable {frames : FrameAllocator} {kernel root base first count : Nat}
  {before memory after : PhysMem} {image : PeImage} {data : List UInt8} {header : SectionHeader}
  {s : Loading}

/-- One more section asks for its tables. -/
theorem wantedTables_succ (found : sectionHeader image data count = .ok (some header)) :
    wantedTables before kernel image data (count + 1) =
      wantTables (hadTable before kernel) (wantedTables before kernel image data count)
        (image.imageBase + header.virtualAddress) := by
  rw [wantedTables, found]

/-- Tables that are ready stay ready. -/
theorem TableReady.succ {path : List Nat}
    (found : sectionHeader image data count = .ok (some header))
    (ready : TableReady frames before kernel image data count path) :
    TableReady frames before kernel image data (count + 1) path := by
  rw [TableReady, wantedTables_succ found, wantTables]
  exact ((Supplied.request ready _).request _).request _

/-- A table asked for stays in the list. -/
theorem mem_wantTables {there : List Nat → Bool} {asked : List (List Nat)} {path : List Nat}
    (member : path ∈ asked) (virt : Nat) : path ∈ wantTables there asked virt :=
  mem_request (mem_request (mem_request member _) _) _

/-- The lowest table of each section is known. -/
theorem wanted_known (complete : ∀ j < count, ∃ header, sectionHeader image data j = .ok (some header))
    {i : Nat} (small : i < count) (found : sectionHeader image data i = .ok (some header)) :
    hadTable before kernel (pathOf (image.imageBase + header.virtualAddress)) = true ∨
      pathOf (image.imageBase + header.virtualAddress) ∈
        wantedTables before kernel image data count := by
  induction count with
  | zero => exact absurd small (Nat.not_lt_zero i)
  | succ count ih =>
    obtain ⟨last, lastFound⟩ := complete count (Nat.lt_succ_self count)
    rw [wantedTables_succ lastFound]
    by_cases newest : i = count
    · rw [newest, lastFound, Except.ok.injEq, Option.some.injEq] at found
      rw [← found]
      exact known_of_request _ _ _
    · rcases ih (fun j below => complete j (by omega)) (by omega) with there | member
      · exact .inl there
      · exact .inr (mem_wantTables member _)

/-- A section whose lowest table is missing leaves nothing for later ones. -/
theorem not_ready_succ
    (complete : ∀ j < count, ∃ header, sectionHeader image data j = .ok (some header)) {i : Nat}
    (small : i < count) (found : sectionHeader image data i = .ok (some header))
    {next : SectionHeader} (nextFound : sectionHeader image data count = .ok (some next))
    (missing : ¬TableReady frames before kernel image data count
      (pathOf (image.imageBase + header.virtualAddress))) :
    ¬TableReady frames before kernel image data (count + 1)
      (pathOf (image.imageBase + header.virtualAddress)) := by
  have exhausted := exhausted_of_known (wanted_known complete small found) missing
  have keeps {asked : List (List Nat)} (path : List Nat)
      (used : tableSupply frames before image ≤ asked.length)
      (none : ¬Supplied (hadTable before kernel) (tableSupply frames before image) asked
        (pathOf (image.imageBase + header.virtualAddress))) :
      tableSupply frames before image ≤ (request (hadTable before kernel) asked path).length ∧
        ¬Supplied (hadTable before kernel) (tableSupply frames before image)
          (request (hadTable before kernel) asked path)
          (pathOf (image.imageBase + header.virtualAddress)) := by
    constructor
    · unfold request
      split
      · exact used
      · rw [List.length_append]
        omega
    · rw [supplied_request]
      rintro (supplied | ⟨_, left⟩)
      · exact none supplied
      · omega
  rw [TableReady, wantedTables_succ nextFound, wantTables]
  obtain ⟨firstUsed, firstNone⟩ := keeps _ exhausted missing
  obtain ⟨secondUsed, secondNone⟩ := keeps _ firstUsed firstNone
  exact (keeps _ secondUsed secondNone).2

/-! ## The loop -/

/-- What the leaf of an address is after the first `count` sections. -/
inductive LeafAfter (frames : FrameAllocator) (before : PhysMem) (kernel : Nat) (image : PeImage)
    (data : List UInt8) (base count virt : Nat) : Option Nat → Prop
  /-- A section that starts on the page has mapped it. -/
  | mapped {i : Nat} {header : SectionHeader} (small : i < count)
      (found : sectionHeader image data i = .ok (some header))
      (onPage : pageNumber virt = pageNumber (image.imageBase + header.virtualAddress))
      (ready : TableReady frames before kernel image data count (pathOf virt)) :
      LeafAfter frames before kernel image data base count virt
        (some (base + header.virtualAddress ||| sectionFlags ||| pagePresent))
  /-- No section has, and it is as the kernel has it. -/
  | kernel (none : ∀ i < count, ∀ header, sectionHeader image data i = .ok (some header) →
      pageNumber virt = pageNumber (image.imageBase + header.virtualAddress) →
        ¬TableReady frames before kernel image data count (pathOf virt)) :
      LeafAfter frames before kernel image data base count virt (presentLeaf before kernel virt)

/-- The first `count` sections are mapped as far as frames allowed, in a tree off the block. -/
structure Mapping (frames : FrameAllocator) (before : PhysMem) (kernel : Nat) (image : PeImage)
    (data : List UInt8) (first base root count : Nat) (memory : PhysMem) : Prop where
  /-- The process's table is a tree. -/
  shaped : TreeShaped frames memory root
  /-- Its tables are apart from the block. -/
  off_block : ∀ path table, IsPath path → tableAt memory root path = some table → ∀ index,
    first ≤ index → index < first + totalPages image →
      (page table).Separate (frames.frameSpan index)
  /-- The block is in use. -/
  block_used : ∀ index, first ≤ index → index < first + totalPages image →
    frames.used memory index = true
  /-- The tables that could be made are there. -/
  budget : Budgeted frames memory root (hadTable before kernel) (tableSupply frames before image)
    (wantedTables before kernel image data count)
  /-- The leaves. -/
  leaves : ∀ virt, LeafAfter frames before kernel image data base count virt
    (presentLeaf memory root virt)

/-- Writes in the block keep the mapping. -/
theorem Mapping.inBlock
    (mapping : Mapping frames before kernel image data first base root count memory)
    (covers : frames.Covers) (unused : KernelTables frames kernel (Reaches before kernel) before)
    (blocked : Blocked frames before first (totalPages image) base)
    (writes : WritesWithin (⟨base, 4096 * totalPages image⟩ : Span).toSet memory after) :
    Mapping frames before kernel image data first base root count after := by
  have bits (index : Nat) (inside : index < frames.frameCount) :=
    blocked.used_eq covers unused writes inside
  have entries {path : List Nat} {table index : Nat} (isPath : IsPath path)
      (found : tableAt memory root path = some table) (small : index < 512) :
      entry after table index = entry memory table index :=
    entry_eq_of_writes writes small (blocked.off (mapping.off_block path table isPath found))
  have upper : UpperSame memory after root := fun path table index isPath found =>
    entries isPath.above.1 found isPath.above.2.1
  refine ⟨mapping.shaped.congr upper ?_, ?_, ?_, ⟨?_, ?_⟩, ?_⟩
  · intro index inside marked
    rwa [bits index inside]
  · intro path table isPath found
    rw [tableAt_congr upper isPath] at found
    exact mapping.off_block path table isPath found
  · intro index above below
    rw [bits index (Nat.lt_of_lt_of_le below blocked.inside)]
    exact mapping.block_used index above below
  · intro path isPath nonempty
    rw [tableAt_congr upper isPath]
    exact mapping.budget.tables path isPath nonempty
  · rw [FrameAllocator.freeFrames_congr bits]
    exact mapping.budget.free
  · intro virt
    have same : presentLeaf after root virt = presentLeaf memory root virt := by
      rw [presentLeaf, presentLeaf, tableAt_congr upper (isPath_pathOf virt)]
      cases found : tableAt memory root (pathOf virt) with
      | none => rfl
      | some table =>
        rw [Option.bind_some, Option.bind_some,
          entries (isPath_pathOf virt) found (show ptIndex virt < 512 from index_lt _)]
    rw [same]
    exact mapping.leaves virt

/-- The flags of a section's page are a word. -/
theorem sectionFlags_lt : sectionFlags < wordSize := by decide

/-- One more page is mapped, if its tables can be made. -/
theorem Mapping.map
    (mapping : Mapping frames before kernel image data first base root count memory)
    (placed : frames.Placed) (blocked : Blocked frames before first (totalPages image) base)
    (complete : ∀ j < count, ∃ header, sectionHeader image data j = .ok (some header))
    (found : sectionHeader image data count = .ok (some header))
    (physFits : base + header.virtualAddress < wordSize) :
    Mapping frames before kernel image data first base root (count + 1)
      (map frames memory root (image.imageBase + header.virtualAddress)
        (base + header.virtualAddress) sectionFlags).2 := by
  obtain ⟨shaped, budget, leaves⟩ := mapping.budget.map mapping.shaped placed
    (image.imageBase + header.virtualAddress) physFits sectionFlags_lt
  have grows := map_grows mapping.shaped placed (image.imageBase + header.virtualAddress) physFits
    sectionFlags_lt
  rw [← wantedTables_succ found] at budget leaves
  refine ⟨shaped, ?_, ?_, budget, fun virt => ?_⟩
  · intro path table isPath tableFound index above below
    rcases grows.tables path table isPath tableFound with old | ⟨frame, inside, rfl, free⟩
    · exact mapping.off_block path table isPath old index above below
    · apply FrameAllocator.frameSpan_separate
      rintro rfl
      rw [mapping.block_used frame above below] at free
      cases free
  · intro index above below
    exact grows.kept index (Nat.lt_of_lt_of_le below blocked.inside)
      (mapping.block_used index above below)
  · obtain ⟨written, unwritten⟩ := leaves virt
    have samePath (other : Nat) (onPage : pageNumber virt = pageNumber other) :
        pathOf virt = pathOf other := ((pathOf_eq_iff virt other).mpr onPage).1
    by_cases onPage : pageNumber virt = pageNumber (image.imageBase + header.virtualAddress)
    · by_cases ready : TableReady frames before kernel image data (count + 1) (pathOf virt)
      · have supplied := ready
        rw [samePath _ onPage] at supplied
        rw [written ⟨supplied, onPage⟩]
        exact .mapped (Nat.lt_succ_self count) found onPage ready
      · rw [unwritten fun both => ready (by rw [samePath _ onPage]; exact both.1)]
        have old := mapping.leaves virt
        generalize presentLeaf memory root virt = leaf at old
        cases old with
        | mapped _ _ _ oldReady => exact absurd (oldReady.succ found) ready
        | kernel none => exact .kernel fun _ _ _ _ _ => ready
    · rw [unwritten fun both => onPage both.2]
      have old := mapping.leaves virt
      generalize presentLeaf memory root virt = leaf at old
      cases old with
      | mapped small oldFound oldPage oldReady =>
        exact .mapped (Nat.lt_succ_of_lt small) oldFound oldPage (oldReady.succ found)
      | kernel none =>
        refine .kernel fun i small other otherFound otherPage => ?_
        by_cases newest : i = count
        · rw [newest, found, Except.ok.injEq, Option.some.injEq] at otherFound
          rw [← otherFound] at otherPage
          exact absurd otherPage onPage
        · have earlier : i < count := by omega
          have missing := none i earlier other otherFound otherPage
          rw [samePath _ otherPage] at missing ⊢
          exact not_ready_succ complete earlier otherFound found missing

/-- One more header is known. -/
theorem complete_succ {i : Nat}
    (complete : ∀ j < i, ∃ header, sectionHeader image data j = .ok (some header))
    (found : sectionHeader image data i = .ok (some header)) :
    ∀ j < i + 1, ∃ header, sectionHeader image data j = .ok (some header) := by
  intro j below
  by_cases newest : j = i
  · rw [newest]
    exact ⟨header, found⟩
  · exact complete j (by omega)

/-- When the section loop starts with a table, it is the kernel's. -/
theorem mapping_prepared (placed : frames.Placed) (captured : kernel ≠ 0)
    (shaped : TreeShaped frames before kernel)
    (allocated : allocateContiguous frames before (totalPages image) = (.ok (some base), memory))
    (made : (PageTable.new frames kernel memory).1 = some root) :
    ∃ first, Blocked frames before first (totalPages image) base ∧
      Mapping frames before kernel image data first base root 0
        (prepared frames kernel base (totalPages image) before memory).memory := by
  have unused := shaped.kernelTables placed
  obtain ⟨writes, spec⟩ := allocateContiguous_spec placed.covers allocated
  obtain ⟨_, first, baseEq, granted⟩ := spec base rfl
  have blocked : Blocked frames before first (totalPages image) base :=
    ⟨granted.inside, granted.free, baseEq, by simp only [block, allocated]⟩
  have entries {path : List Nat} {table index : Nat} (isPath : IsPath path)
      (found : tableAt before kernel path = some table) (small : index < 512) :
      entry memory table index = entry before table index :=
    entry_eq_of_writes writes small
      (Span.separate_iff.mp (shaped.off_bitmap path table isPath found))
  have upper : UpperSame before memory kernel := fun path table index isPath found =>
    entries isPath.above.1 found isPath.above.2.1
  have takenShaped : TreeShaped frames memory kernel := by
    apply shaped.congr upper
    intro index inside marked
    rw [granted.bits index inside, marked, Bool.true_or]
  have takenLeaves (virt : Nat) : presentLeaf memory kernel virt = presentLeaf before kernel virt := by
    rw [presentLeaf, presentLeaf, tableAt_congr upper (isPath_pathOf virt)]
    cases found : tableAt before kernel (pathOf virt) with
    | none => rfl
    | some table =>
      rw [Option.bind_some, Option.bind_some,
        entries (isPath_pathOf virt) found (show ptIndex virt < 512 from index_lt _)]
  have blockUsed (index : Nat) (above : first ≤ index) (below : index < first + totalPages image) :
      frames.used memory index = true := by
    rw [granted.bits index (Nat.lt_of_lt_of_le below granted.inside), decide_eq_true ⟨above, below⟩,
      Bool.or_true]
  have copied : Copied frames kernel memory root (PageTable.new frames kernel memory).2 :=
    new_copied takenShaped placed captured (Prod.ext made rfl)
  have mapping : Mapping frames before kernel image data first base root 0
      (PageTable.new frames kernel memory).2 := by
    refine ⟨copied.shaped, ?_, ?_, ⟨?_, ?_⟩, ?_⟩
    · intro path table isPath found index above below
      by_cases empty : path = []
      · obtain ⟨fresh, inside, rfl, free⟩ := copied.fresh
        rw [empty] at found
        rw [← Option.some.inj found]
        apply FrameAllocator.frameSpan_separate
        rintro rfl
        rw [blockUsed fresh above below] at free
        cases free
      · rw [copied.tables path isPath empty, tableAt_congr upper isPath] at found
        exact shaped.off_free placed isPath found (Nat.lt_of_lt_of_le below granted.inside)
          (granted.free index above below)
    · intro index above below
      exact copied.kept index (Nat.lt_of_lt_of_le below granted.inside)
        (blockUsed index above below)
    · intro path isPath nonempty
      rw [copied.tables path isPath nonempty, tableAt_congr upper isPath, wantedTables, Supplied,
        List.take_nil]
      simp [hadTable]
    · have fewer := copied.fewer
      have taken := granted.fewer
      rw [wantedTables, tableSupply, List.length_nil]
      omega
    · intro virt
      rw [copied.leaves virt, takenLeaves virt]
      exact .kernel fun i small => absurd small (Nat.not_lt_zero i)
  refine ⟨first, blocked, mapping.inBlock placed.covers unused blocked ?_⟩
  apply WritesWithin.fill
  intro a member
  rw [Nat.mul_comm] at member
  exact member

/-- A section name has eight bytes. -/
theorem length_textName : [0x2E, 0x74, 0x65, 0x78, 0x74, 0, 0, (0 : UInt8)].length = 8 := rfl

/-- The rest of a section header has sixteen. -/
theorem length_unread : (List.replicate 16 (0 : UInt8)).length = 16 := rfl

/-- The minimal executable with a text section of `virtualSize` bytes in an image of three
pages. -/
def textFile (virtualSize : UInt32) : PeFile :=
  { buildPe (List.replicate 512 0xC3) with
    sizeOfImage := 0x3000
    sections := [{
      name := ⟨[0x2E, 0x74, 0x65, 0x78, 0x74, 0, 0, 0], length_textName⟩
      virtualSize := virtualSize
      virtualAddress := 0x1000
      sizeOfRawData := 512
      pointerToRawData := 0x200
      unread := ⟨List.replicate 16 0, length_unread⟩ }]
    sections_small := by simp }

/-- What the parser reads from it. -/
def textImage : PeImage where
  machine := .amd64
  entryPoint := 0x140001000
  imageBase := 0x140000000
  imageSize := 0x3000
  isDll := false
  numSections := 1
  sectionTableOffset := 0x148
  dataDirectoryOffset := 0xC4
  numDataDirectories := 0

/-- Its section. -/
def textHeader (virtualSize : Nat) : SectionHeader where
  name := [0x2E, 0x74, 0x65, 0x78, 0x74, 0, 0, 0]
  virtualSize := virtualSize
  virtualAddress := 0x1000
  rawSize := 512
  rawOffset := 0x200

/-- After boot over an empty kernel table, the file's image is loaded with a page table of its
own. -/
theorem text_loads {data : List UInt8} {virtualSize : Nat} (short : virtualSize ≤ 0x2000)
    (found : sectionHeader textImage data 0 = .ok (some (textHeader virtualSize))) :
    ∃ memory loaded last,
      FrameAllocator.init ⟨fun _ => 0, []⟩ FrameAllocator.mebibyteMap =
        .ok (FrameAllocator.mebibyteFrames, memory) ∧
      FrameAllocator.mebibyteFrames.Placed ∧
      TreeShaped FrameAllocator.mebibyteFrames memory 0x200000 ∧
      (∀ index < 512, present (entry memory 0x200000 index) = false) ∧
      200 ≤ FrameAllocator.mebibyteFrames.freeFrames memory ∧
      loadIntoProcess FrameAllocator.mebibyteFrames 0x200000 textImage ⟨0, 0, 0, 0⟩ data
        (.start memory) = (.ok true, loaded, last) ∧ loaded.pageTableRoot ≠ 0 := by
  obtain ⟨memory, initialized, free⟩ := FrameAllocator.mebibyteMap_init ⟨fun _ => 0, []⟩
  have placed := (FrameAllocator.init_spec initialized).1
  obtain ⟨empty, shaped⟩ := mebibyte_empty initialized
  have run : FreeRun FrameAllocator.mebibyteFrames memory 1 3 := by
    refine ⟨by decide, fun index below => ?_, fun index above below => free index above (by omega)⟩
    rw [Nat.lt_one_iff.mp below]
    exact FrameAllocator.mebibyteMap_first initialized
  have enough : 200 ≤ FrameAllocator.mebibyteFrames.freeFrames memory :=
    (show 200 ≤ 255 by decide).trans (FrameAllocator.mebibyteMap_freeFrames free)
  obtain ⟨taken, allocated⟩ := run.allocateContiguous placed (by decide)
  have fits (i : Nat) (small : i < textImage.numSections) : ∃ header,
      sectionHeader textImage data i = .ok (some header) ∧
      FrameAllocator.mebibyteFrames.frameAddr 1 + header.virtualAddress + header.virtualSize <
        wordSize ∧
      textImage.imageBase + header.virtualAddress < wordSize := by
    obtain rfl : i = 0 := Nat.lt_one_iff.mp small
    refine ⟨textHeader virtualSize, found, ?_, ?_⟩
    · simp only [textHeader, FrameAllocator.frameAddr, FrameAllocator.mebibyteFrames, frameSize,
        wordSize]
      omega
    · simp only [textHeader, textImage, wordSize]
      omega
  obtain ⟨loaded, last, returned, _⟩ :=
    loadIntoProcess_returns ⟨0, 0, 0, 0⟩ allocated fits (by decide)
  have pages : totalPages textImage = 3 := rfl
  have left : FrameAllocator.mebibyteFrames.freeFrames memory ≠ totalPages textImage := by omega
  exact ⟨memory, loaded, last, initialized, placed, shaped, empty, enough, returned,
    (pageTableRoot_eq_zero_iff placed.covers returned).not.mpr left⟩

end Aperture.Win32
