import Aperture.Win32.MappedSections

/-!
# Loads that run out of frames

A section below a top-level entry of the kernel is mapped in the kernel's own tables. Only when
no frame is left and a table on its path is missing does `map` give up before it writes one.
What the sections before it have asked for tells whether that is so, and with it the condition
under which a load writes only where it may is exact.
-/

namespace Aperture.Win32

open Machine Mm Pe PageTable

variable {frames : FrameAllocator} {kernel root base first pages virt : Nat}
  {shared own : Nat → Nat → Prop} {before : PhysMem} {image : PeImage} {data : List UInt8}
  {header : SectionHeader} {s : Loading} {pageTable : Option Nat}

/-- When section `i` is mapped no frame is left, and a table on its path is missing. -/
def Starved (frames : FrameAllocator) (before : PhysMem) (kernel : Nat) (image : PeImage)
    (data : List UInt8) (i : Nat) (header : SectionHeader) : Prop :=
  tableSupply frames before image ≤ (wantedTables before kernel image data i).length ∧
    ¬TableReady frames before kernel image data i
      (pathOf (image.imageBase + header.virtualAddress))

/-- A section keeps the load where it may write: it lies inside the image and, when the sections
are mapped, off the kernel's top-level entries, unless there is no table for it. -/
def Keeps (frames : FrameAllocator) (before : PhysMem) (kernel : Nat) (image : PeImage)
    (data : List UInt8) (mapped : Prop) (i : Nat) (header : SectionHeader) : Prop :=
  Inside header data (totalPages image) ∧ (mapped →
    Unshared before kernel image header ∨ Starved frames before kernel image data i header)

/-- The exact condition on an image and the state it is loaded in: if there is a block, every section
the loop reaches keeps the load where it may write. -/
def FitsExactly (frames : FrameAllocator) (before : PhysMem) (kernel : Nat) (image : PeImage)
    (data : List UInt8) : Prop :=
  (block frames before (totalPages image)).isSome = true →
    EverySection image data (totalPages image < frames.freeFrames before)
      (Keeps frames before kernel image data (totalPages image < frames.freeFrames before)) 0
      image.numSections

/-! ## One section -/

/-- Without a table for its section, `map` writes the bitmap at most. -/
theorem Progress.starved
    (progress : Progress frames kernel shared before first pages (some root) own s)
    (covers : frames.Covers) (unused : KernelTables frames kernel shared before)
    (blocked : Blocked frames before first pages base) (empty : frames.freeFrames s.memory = 0)
    (missing : tableAt s.memory root (pathOf virt) = none) (phys flags : Nat) :
    Progress frames kernel shared before first pages (some root) own
      (s.afterTables (map frames s.memory root virt phys flags).2) := by
  obtain ⟨writes, same⟩ := map_starved covers empty missing phys flags
  have tree := progress.tree root rfl
  have kernelSame (level table : Nat) (isShared : shared level table) (index : Nat)
      (small : index < 512) :
      entry (map frames s.memory root virt phys flags).2 table index =
        entry s.memory table index :=
    entry_eq_of_writes writes small (Span.separate_iff.mp (unused.off_bitmap level table isShared))
  have kept (index : Nat) (inside : index < frames.frameCount)
      (marked : frames.used s.memory index = true) :
      frames.used (map frames s.memory root virt phys flags).2 index = true := by
    rwa [same index inside]
  have later : Tree frames kernel shared (map frames s.memory root virt phys flags).2 root own :=
    tree.congr (fun level table mine index small =>
      entry_eq_of_writes writes small (Span.separate_iff.mp (tree.off_bitmap level table mine)))
      (kernelSame _ _ unused.root) kept
  refine progress.grows unused blocked
    (progress.kernel_tables.congr kernelSame fun index inside free => ?_) (fun other isRoot => ?_)
    later.held ⟨writes.mono fun _ member => .inl member, kept, fun _ _ mine => mine,
      fun _ _ mine => .inl mine⟩
  · rwa [same index inside] at free
  · obtain rfl := Option.some.inj isRoot
    exact later

/-- No frame is left for a starved section, and its table is missing. -/
theorem Starved.missing {memory : PhysMem} {i : Nat}
    (starved : Starved frames before kernel image data i header)
    (mapping : Mapping frames before kernel image data first base root i memory) :
    frames.freeFrames memory = 0 ∧
      tableAt memory root (pathOf (image.imageBase + header.virtualAddress)) = none := by
  obtain ⟨used, unready⟩ := starved
  have free := mapping.budget.free
  refine ⟨by omega, ?_⟩
  by_contra found
  exact unready ((mapping.budget.tables _ (isPath_pathOf _) (by simp [pathOf])).mp
    (Option.isSome_iff_ne_none.mpr found))

/-- A section that has no table when no frame is left is starved. -/
theorem starved_of_missing {memory : PhysMem} {i : Nat}
    (mapping : Mapping frames before kernel image data first base root i memory)
    (empty : frames.freeFrames memory = 0)
    (missing : tableAt memory root (pathOf (image.imageBase + header.virtualAddress)) = none) :
    Starved frames before kernel image data i header := by
  have free := mapping.budget.free
  refine ⟨by omega, fun ready => ?_⟩
  have there := (mapping.budget.tables _ (isPath_pathOf _) (by simp [pathOf])).mpr ready
  rw [missing] at there
  cases there

/-- A section of either kind is mapped. -/
theorem Progress.maps_kept {i : Nat}
    (progress : Progress frames kernel shared before first (totalPages image) (some root) own s)
    (placed : frames.Placed) (unused : KernelTables frames kernel shared before)
    (blocked : Blocked frames before first (totalPages image) base)
    (mapping : Mapping frames before kernel image data first base root i s.memory)
    (virtFits : image.imageBase + header.virtualAddress < wordSize)
    (keeps : Unshared before kernel image header ∨
      Starved frames before kernel image data i header) (phys flags : Nat) :
    ∃ grown, Progress frames kernel shared before first (totalPages image) (some root) grown
      (s.afterTables (map frames s.memory root (image.imageBase + header.virtualAddress) phys
        flags).2) := by
  rcases keeps with unshared | starved
  · obtain ⟨grown, mapped, _⟩ :=
      progress.maps placed unused blocked (unshared virtFits) phys flags
    exact ⟨grown, mapped⟩
  · obtain ⟨empty, missing⟩ := starved.missing mapping
    exact ⟨own, progress.starved placed.covers unused blocked empty missing phys flags⟩

/-- A mapping that wrote no page of the kernel was of a section of either kind. -/
theorem keeps_of_contained {i phys flags : Nat} {after : Loading} (covers : frames.Covers)
    (unused : KernelTables frames kernel shared before)
    (progress : Progress frames kernel shared before first (totalPages image) (some root) own s)
    (mapping : Mapping frames before kernel image data first base root i s.memory)
    (later : Later (s.afterTables
      (map frames s.memory root (image.imageBase + header.virtualAddress) phys flags).2) after)
    (contained : Contained frames before pages after) :
    Unshared before kernel image header ∨ Starved frames before kernel image data i header := by
  have untouched := untouched_of_contained unused later contained
  have tree := progress.tree root rfl
  by_cases absent : present (entry before kernel
      (pml4Index (image.imageBase + header.virtualAddress))) = false
  · exact .inl fun _ => absent
  · rw [Bool.not_eq_false, ← progress.kernel_same _ (pml4Index_lt _)] at absent
    refine .inr (starved_of_missing mapping ?_ ?_)
    · by_contra left
      exact untouched (map_shared covers progress.kernel_tables tree (Nat.pos_of_ne_zero left) absent
        phys flags)
    · by_contra present
      obtain ⟨table, found⟩ := Option.ne_none_iff_exists'.mp present
      exact untouched (map_shared_leaf progress.kernel_tables tree absent found phys flags)

/-- A section inside the image is placed. -/
theorem Mapping.place {i : Nat}
    (mapping : Mapping frames before kernel image data first base root i s.memory)
    (covers : frames.Covers) (unused : KernelTables frames kernel (Reaches before kernel) before)
    (blocked : Blocked frames before first (totalPages image) base)
    (inside : Inside header data (totalPages image)) :
    Mapping frames before kernel image data first base root i
      (placeSection header data (base + header.virtualAddress) s).memory :=
  mapping.inBlock covers unused blocked
    (placeSection_writes ((sectionSpans_inside_iff base).mpr inside))

/-! ## All sections -/

/-- Sections that keep the load where it may write do so however the loop ends. -/
theorem loadSections_kept (placed : frames.Placed)
    (unused : KernelTables frames kernel (Reaches before kernel) before)
    (blocked : Blocked frames before first (totalPages image) base) {mapped : Prop}
    (table : pageTable.isSome = true ↔ mapped) {i count : Nat}
    (keep : EverySection image data mapped (Keeps frames before kernel image data mapped) i count)
    (complete : ∀ j < i, ∃ header, sectionHeader image data j = .ok (some header))
    (progress : Progress frames kernel (Reaches before kernel) before first (totalPages image)
      pageTable own s)
    (mapping : ∀ root, pageTable = some root →
      Mapping frames before kernel image data first base root i s.memory) :
    ∃ grown, Progress frames kernel (Reaches before kernel) before first (totalPages image)
      pageTable grown (loadSections frames image data base pageTable (List.range' i count) s).2 := by
  induction count generalizing i s own with
  | zero => exact ⟨own, progress⟩
  | succ count ih =>
    rw [List.range'_succ]
    unfold loadSections
    cases found : sectionHeader image data i with
    | error reason => exact ⟨own, progress⟩
    | ok result =>
      cases result with
      | none => exact ⟨own, progress⟩
      | some header =>
        obtain ⟨⟨inside, keeps⟩, rest⟩ := (everySection_cons found).mp keep
        obtain ⟨progressPlaced, _⟩ := progress.place placed.covers unused blocked inside
        by_cases destFits : base + header.virtualAddress < wordSize
        · rcases mapSection_cases frames data image.imageBase pageTable s destFits
              (blocked.end_fits placed inside) with
            ⟨none, ended⟩ | ⟨root, some_, virtFits, ended⟩ | ⟨root, reason, some_, _, ended⟩
          · simp only [ended]
            refine ih (rest fun isMapped => ?_) (complete_succ complete found) progressPlaced
              fun root isRoot => ?_
            · have isTable := table.mpr isMapped
              rw [none] at isTable
              cases isTable
            · rw [none] at isRoot
              cases isRoot
          · subst some_
            have inPlace := (mapping root rfl).place placed.covers unused blocked inside
            obtain ⟨grown, progressMapped⟩ := progressPlaced.maps_kept placed unused blocked inPlace
              virtFits (keeps (table.mp rfl)) (base + header.virtualAddress) sectionFlags
            simp only [ended]
            refine ih (rest fun _ => virtFits) (complete_succ complete found) progressMapped
              fun other isRoot => ?_
            obtain rfl := Option.some.inj isRoot
            exact inPlace.map placed blocked complete found destFits
          · simp only [ended]
            exact ⟨own, progressPlaced⟩
        · cases dest : add64 base header.virtualAddress with
          | ok sum => exact absurd (add64_eq_ok.mp dest).1 destFits
          | error reason =>
            simp only [mapSection, dest]
            exact ⟨own, progress⟩

/-- The sections of a loop that wrote only where it may have kept it there. -/
theorem everySection_of_contained (placed : frames.Placed) (low : Low frames)
    (unused : KernelTables frames kernel (Reaches before kernel) before)
    (blocked : Blocked frames before first (totalPages image) base) {mapped : Prop}
    (table : pageTable.isSome = true ↔ mapped) {i count : Nat}
    (complete : ∀ j < i, ∃ header, sectionHeader image data j = .ok (some header))
    (progress : Progress frames kernel (Reaches before kernel) before first (totalPages image)
      pageTable own s)
    (mapping : ∀ root, pageTable = some root →
      Mapping frames before kernel image data first base root i s.memory)
    (contained : Contained frames before (totalPages image)
      (loadSections frames image data base pageTable (List.range' i count) s).2) :
    EverySection image data mapped (Keeps frames before kernel image data mapped) i count := by
  induction count generalizing i s own with
  | zero => exact fun j above below => absurd below (by omega)
  | succ count ih =>
    rw [List.range'_succ] at contained
    unfold loadSections at contained
    cases found : sectionHeader image data i with
    | error reason => exact everySection_missing (by simp [found])
    | ok result =>
      cases result with
      | none => exact everySection_missing (by simp [found])
      | some header =>
        obtain ⟨destFits, endFits⟩ := blocked.section_fits low found
        simp only [found] at contained
        refine (everySection_cons found).mpr ?_
        rcases mapSection_cases frames data image.imageBase pageTable s destFits endFits with
          ⟨none, ended⟩ | ⟨root, some_, virtFits, ended⟩ | ⟨root, reason, some_, overflows, ended⟩
        · simp only [ended] at contained
          have inside := blocked.inside_of_contained (loadSections_later _ _) contained
          obtain ⟨progressPlaced, _⟩ := progress.place placed.covers unused blocked inside
          have unmapped : ¬mapped := by
            rw [← table, none]
            exact Bool.false_ne_true
          refine ⟨⟨inside, fun isMapped => absurd isMapped unmapped⟩, fun _ => ?_⟩
          refine ih (complete_succ complete found) progressPlaced (fun root isRoot => ?_) contained
          rw [none] at isRoot
          cases isRoot
        · subst some_
          simp only [ended] at contained
          have inside := blocked.inside_of_contained
            ((later_afterTables _ _).trans (loadSections_later _ _)) contained
          obtain ⟨progressPlaced, _⟩ := progress.place placed.covers unused blocked inside
          have inPlace := (mapping root rfl).place placed.covers unused blocked inside
          have keeps := keeps_of_contained placed.covers unused progressPlaced inPlace
            (loadSections_later _ _) contained
          obtain ⟨grown, progressMapped⟩ := progressPlaced.maps_kept placed unused blocked inPlace
            virtFits keeps (base + header.virtualAddress) sectionFlags
          refine ⟨⟨inside, fun _ => keeps⟩, fun _ => ?_⟩
          refine ih (complete_succ complete found) progressMapped (fun other isRoot => ?_) contained
          obtain rfl := Option.some.inj isRoot
          exact inPlace.map placed blocked complete found destFits
        · simp only [ended] at contained
          have inside := blocked.inside_of_contained (.refl _) contained
          refine ⟨⟨inside, fun _ => .inl fun virtFits => absurd virtFits overflows⟩,
            fun continues => ?_⟩
          refine absurd (continues (table.mp ?_)) overflows
          rw [some_]
          rfl

/-! ## The load -/

/-- The section loop starts with the block, and with the kernel's table if a frame was left. -/
theorem loop_prepared {memory : PhysMem} (placed : frames.Placed) (captured : kernel ≠ 0)
    (shaped : TreeShaped frames before kernel)
    (allocated : allocateContiguous frames before (totalPages image) = (.ok (some base), memory)) :
    ∃ first own, Blocked frames before first (totalPages image) base ∧
      Progress frames kernel (Reaches before kernel) before first (totalPages image)
        (PageTable.new frames kernel memory).1 own
        (prepared frames kernel base (totalPages image) before memory) ∧
      ((PageTable.new frames kernel memory).1.isSome = true ↔
        totalPages image < frames.freeFrames before) ∧
      ∀ root, (PageTable.new frames kernel memory).1 = some root →
        Mapping frames before kernel image data first base root 0
          (prepared frames kernel base (totalPages image) before memory).memory := by
  obtain ⟨first, own, blocked, progress, table, _⟩ :=
    progress_prepared placed captured (shaped.kernelTables placed) allocated
  refine ⟨first, own, blocked, progress, table, fun root made => ?_⟩
  obtain ⟨other, otherBlocked, mapping⟩ := mapping_prepared placed captured shaped allocated made
  obtain rfl : other = first :=
    FrameAllocator.frameAddr_injective (otherBlocked.base_eq.symm.trans blocked.base_eq)
  exact mapping

/-- On a tree of kernel tables the condition is enough. -/
theorem contained_of_fitsExactly (placed : frames.Placed) (captured : kernel ≠ 0)
    (shaped : TreeShaped frames before kernel) (process : Process)
    (fits : FitsExactly frames before kernel image data) :
    Contained frames before (totalPages image)
      (loadIntoProcess frames kernel image process data (.start before)).2.2 := by
  cases found : block frames before (totalPages image) with
  | none => exact contained_without_block placed.covers process found
  | some span =>
    obtain ⟨base, memory, allocated⟩ := allocated_of_block found
    obtain ⟨first, own, blocked, progress, table, mapping⟩ :=
      loop_prepared placed captured shaped allocated
    obtain ⟨grown, loaded⟩ := loadSections_kept placed (shaped.kernelTables placed) blocked table
      (fits (by rw [found]; rfl)) (fun j none => absurd none (Nat.not_lt_zero j)) progress mapping
    rw [loadIntoProcess_loading process allocated]
    exact loaded.contained

/-- And it is necessary. -/
theorem fitsExactly_of_contained (placed : frames.Placed) (captured : kernel ≠ 0)
    (shaped : TreeShaped frames before kernel) (process : Process) (low : Low frames)
    (contained : Contained frames before (totalPages image)
      (loadIntoProcess frames kernel image process data (.start before)).2.2) :
    FitsExactly frames before kernel image data := by
  intro isSome
  obtain ⟨span, found⟩ := Option.isSome_iff_exists.mp isSome
  obtain ⟨base, memory, allocated⟩ := allocated_of_block found
  obtain ⟨first, own, blocked, progress, table, mapping⟩ :=
    loop_prepared placed captured shaped allocated
  rw [loadIntoProcess_loading process allocated] at contained
  exact everySection_of_contained placed low (shaped.kernelTables placed) blocked table
    (fun j none => absurd none (Nat.not_lt_zero j)) progress mapping contained

/-- For every file, image and process and every state whose kernel tables are off the bitmap and
the free frames: when the sections fit, the load writes only in the image it allocated, in the
bitmap and in frames it took; while frames are left for all tables, it does so only then. On a tree
of kernel tables it does so exactly when the sections fit or find no table, for any number of
frames. -/
theorem loadIntoProcess_contained_iff (placed : frames.Placed) (captured : kernel ≠ 0)
    (unused : KernelTables frames kernel (Reaches before kernel) before) (image : PeImage)
    (process : Process) (data : List UInt8) :
    (Fits frames before kernel image data →
      Contained frames before (totalPages image)
        (loadIntoProcess frames kernel image process data (.start before)).2.2) ∧
    (Low frames → totalPages image + 1 + 3 * image.numSections ≤ frames.freeFrames before →
      Contained frames before (totalPages image)
        (loadIntoProcess frames kernel image process data (.start before)).2.2 →
      Fits frames before kernel image data) ∧
    (TreeShaped frames before kernel → Low frames →
      (FitsExactly frames before kernel image data ↔
        Contained frames before (totalPages image)
          (loadIntoProcess frames kernel image process data (.start before)).2.2)) :=
  ⟨contained_of_fits placed captured unused process,
    fits_of_contained placed captured unused process,
    fun shaped low => ⟨contained_of_fitsExactly placed captured shaped process,
      fitsExactly_of_contained placed captured shaped process low⟩⟩

/-- The file whose section starts the image is loaded into the image. -/
theorem loadIntoProcess_contained_iff_front : ∃ memory,
    parsePe (sectionFile 0) = .ok (some sectionImage) ∧
    FrameAllocator.mebibyteFrames.Placed ∧
    KernelTables FrameAllocator.mebibyteFrames 0x1000 (Reaches memory 0x1000) memory ∧
    Fits FrameAllocator.mebibyteFrames memory 0x1000 sectionImage (sectionFile 0) ∧
    Contained FrameAllocator.mebibyteFrames memory 1
      (loadIntoProcess FrameAllocator.mebibyteFrames 0x1000 sectionImage ⟨0, 0, 0, 0⟩ (sectionFile 0)
        (.start memory)).2.2 := by
  obtain ⟨memory, _, placed, unused, _, _, unshared, _⟩ := kernelMemory_ready
  have fits : Fits FrameAllocator.mebibyteFrames memory 0x1000 sectionImage (sectionFile 0) := by
    intro _ i _ below _ header found
    have isFirst : i = 0 := Nat.lt_one_iff.mp below
    have parsed : sectionHeader sectionImage (sectionFile 0) 0 = .ok (some (fileSection 0)) := by
      decide +kernel
    rw [isFirst, parsed, Except.ok.injEq, Option.some.injEq] at found
    rw [← found]
    exact ⟨by decide +kernel, fun _ _ => unshared⟩
  exact ⟨memory, by decide +kernel, placed, unused, fits,
    (loadIntoProcess_contained_iff placed (by decide) unused sectionImage ⟨0, 0, 0, 0⟩
      (sectionFile 0)).1 fits⟩

end Aperture.Win32
