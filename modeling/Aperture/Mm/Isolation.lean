import Aperture.Machine.Run
import Aperture.Mm.AddressSpace
import Aperture.Mm.FrameOwnership

/-!
# Isolation of address spaces

Runs of `PageTable::new`, `map` and `map_region` on any number of tables. While every
mapping goes through a top-level entry the kernel does not have, the tables' own pages
stay apart and no table sees another's mappings. Through an entry the kernel does have,
the copied entry leads every table to the same lower tables.
-/

namespace Aperture.Mm.PageTable

open Machine

/-- Memory and the tables `PageTable::new` has returned. -/
structure Spaces where
  /-- Physical memory. -/
  memory : PhysMem
  /-- Roots of the tables, newest first. -/
  tables : List Nat

/-- Calls on page tables, and frames taken by others. -/
inductive TableOp where
  /-- `PageTable::new`. -/
  | new
  /-- `map` on the table at `root`. -/
  | map (root virt phys flags : Nat)
  /-- `map_region` on the table at `root`. -/
  | mapRegion (root virtBase physBase pages flags : Nat)
  /-- `frame_allocator::allocate` by another part of the kernel. -/
  | allocate
  deriving DecidableEq

/-- The table an operation maps in. -/
def TableOp.target : TableOp → Option Nat
  | .map root _ _ _ => some root
  | .mapRegion root _ _ _ _ => some root
  | .new => none
  | .allocate => none

namespace Spaces

/-- One call. -/
def apply (fa : FrameAllocator) (kernel : Nat) (state : Spaces) : TableOp → Spaces
  | .new =>
    match PageTable.new fa kernel state.memory with
    | (some root, memory) => ⟨memory, root :: state.tables⟩
    | (none, memory) => ⟨memory, state.tables⟩
  | .map root virt phys flags => ⟨(PageTable.map fa state.memory root virt phys flags).2, state.tables⟩
  | .mapRegion root virtBase physBase pages flags =>
    ⟨(PageTable.mapRegion fa state.memory root virtBase physBase pages flags).2, state.tables⟩
  | .allocate => ⟨(fa.allocateFrame state.memory).2, state.tables⟩

/-- Mappings are made in tables that exist. -/
def Step (fa : FrameAllocator) (kernel : Nat) (before : Spaces) (op : TableOp) (after : Spaces) :
    Prop :=
  after = before.apply fa kernel op ∧ ∀ root, op.target = some root → root ∈ before.tables

/-- The condition on a call: the kernel has no top-level entry at any address mapped. -/
def Unshared (kernel : Nat) (state : Spaces) : TableOp → Prop
  | .map _ virt _ _ => present (entry state.memory kernel (pml4Index virt)) = false
  | .mapRegion _ virtBase _ pages _ => ∀ i < pages, virtBase + i * 4096 < wordSize →
    present (entry state.memory kernel (pml4Index (virtBase + i * 4096))) = false
  | .new => True
  | .allocate => True

/-- The tables' own pages, table by table, are apart. -/
structure Isolated (fa : FrameAllocator) (kernel : Nat) (shared : Nat → Nat → Prop) (state : Spaces)
    (own : Nat → Nat → Nat → Prop) : Prop where
  /-- The kernel's pages are intact. -/
  kernelTables : KernelTables fa kernel shared state.memory
  /-- Every table is intact. -/
  trees : ∀ root ∈ state.tables, Tree fa kernel shared state.memory root (own root)
  /-- Different tables own different pages. -/
  apart : ∀ left ∈ state.tables, ∀ right ∈ state.tables, left ≠ right →
    ∀ level table otherLevel otherTable, own left level table → own right otherLevel otherTable →
      table ≠ otherTable

variable {fa : FrameAllocator} {kernel root : Nat} {shared : Nat → Nat → Prop}
  {own : Nat → Nat → Nat → Prop} {before state after : Spaces} {op : TableOp} {ops : List TableOp}

/-- The pages of a table in use are no frame that was free. -/
theorem fresh_ne_own {memory : PhysMem} {own : Nat → Nat → Prop}
    (tree : Tree fa kernel shared memory root own) {level table index : Nat}
    (mine : own level table) (free : fa.used memory index = false) :
    fa.frameAddr index ≠ table := by
  obtain ⟨ownIndex, _, rfl, marked⟩ := tree.held _ _ mine
  intro same
  rw [← FrameAllocator.frameAddr_injective same, free] at marked
  cases marked

/-- An operation on one table keeps all tables apart. -/
theorem Isolated.extend (isolated : Isolated fa kernel shared state own)
    (member : root ∈ state.tables) {memory : PhysMem} {grown : Nat → Nat → Prop}
    (extended : Extends fa kernel shared root state.memory (own root) memory grown) :
    Isolated fa kernel shared ⟨memory, state.tables⟩ (Function.update own root grown) := by
  have tree := isolated.trees root member
  have otherSame {other : Nat} (otherMember : other ∈ state.tables) (different : other ≠ root)
      (level table : Nat) (theirs : own other level table) (index : Nat) (inside : index < 512) :
      entry memory table index = entry state.memory table index := by
    refine extended.other_entry (isolated.trees other otherMember) ?_
      (isolated.apart root member other otherMember different.symm) theirs inside
    intro ownLevel ownTable mine
    obtain ⟨ownIndex, _, address, _⟩ := tree.held _ _ mine
    exact ⟨ownIndex, address⟩
  have freshApart {other : Nat} (otherMember : other ∈ state.tables) (different : other ≠ root)
      (level table otherLevel otherTable : Nat) (mine : grown level table)
      (theirs : own other otherLevel otherTable) : table ≠ otherTable := by
    rcases extended.2.2.fresh _ _ mine with old | ⟨index, _, rfl, free⟩
    · exact isolated.apart root member other otherMember different.symm _ _ _ _ old theirs
    · exact fresh_ne_own (isolated.trees other otherMember) theirs free
  refine ⟨extended.1, ?_, ?_⟩
  · intro other otherMember
    by_cases same : other = root
    · rw [same, Function.update_self]
      exact extended.2.1
    · rw [Function.update_of_ne same]
      exact (isolated.trees other otherMember).congr (otherSame otherMember same)
        (fun index inside => extended.kernel_entry isolated.kernelTables tree.off_shared
          isolated.kernelTables.root inside) extended.2.2.kept
  · intro left leftMember right rightMember different level table otherLevel otherTable mine theirs
    by_cases leftSame : left = root
    · have rightOther : right ≠ root := fun same => different (leftSame.trans same.symm)
      rw [leftSame, Function.update_self] at mine
      rw [Function.update_of_ne rightOther] at theirs
      exact freshApart rightMember rightOther _ _ _ _ mine theirs
    · rw [Function.update_of_ne leftSame] at mine
      by_cases rightSame : right = root
      · rw [rightSame, Function.update_self] at theirs
        exact (freshApart leftMember leftSame _ _ _ _ theirs mine).symm
      · rw [Function.update_of_ne rightSame] at theirs
        exact isolated.apart left leftMember right rightMember different _ _ _ _ mine theirs

/-- A mapping through an entry the kernel does not have extends its table. -/
theorem Isolated.extends_of_map (placed : fa.Placed) (isolated : Isolated fa kernel shared before own)
    (unshared : before.Unshared kernel op) (step : Step fa kernel before op after)
    (target : op.target = some root) :
    after.tables = before.tables ∧ root ∈ before.tables ∧
      ∃ grown, Extends fa kernel shared root before.memory (own root) after.memory grown := by
  obtain ⟨rfl, exists_⟩ := step
  have member := exists_ root target
  have tree := isolated.trees root member
  cases op with
  | new => cases target
  | allocate => cases target
  | map mapped virt phys flags =>
    obtain rfl := Option.some.inj target
    obtain ⟨grown, extended, _⟩ := map_extends placed isolated.kernelTables tree unshared phys flags
      (show PageTable.map fa before.memory mapped virt phys flags = (_, _) from rfl)
    exact ⟨rfl, member, grown, extended⟩
  | mapRegion mapped virtBase physBase pages flags =>
    obtain rfl := Option.some.inj target
    refine ⟨rfl, member, mapPages_extends placed isolated.kernelTables tree virtBase physBase flags
      (fun i inside => unshared i (List.mem_range.mp inside))
      (show mapPages fa mapped virtBase physBase flags (List.range pages) before.memory = (_, _)
        from rfl)⟩

/-- Taking frames without using them keeps all tables apart. -/
theorem Isolated.bitmap (isolated : Isolated fa kernel shared state own) {memory : PhysMem}
    (writes : WritesWithin fa.bitmapSpan.toSet state.memory memory)
    (kept : ∀ index < fa.frameCount, fa.used state.memory index = true →
      fa.used memory index = true) : Isolated fa kernel shared ⟨memory, state.tables⟩ own := by
  have tables := isolated.kernelTables
  have sharedSame (level table : Nat) (isShared : shared level table) (index : Nat)
      (inside : index < 512) : entry memory table index = entry state.memory table index :=
    entry_eq_of_writes writes inside (Span.separate_iff.mp (tables.off_bitmap _ _ isShared))
  refine ⟨tables.congr sharedSame ?_, ?_, isolated.apart⟩
  · intro index inside free
    by_contra marked
    rw [kept index inside (by simpa using marked)] at free
    cases free
  · intro other member
    have tree := isolated.trees other member
    refine tree.congr (fun level table mine index inside => ?_) (sharedSame _ _ tables.root) kept
    exact entry_eq_of_writes writes inside (Span.separate_iff.mp (tree.off_bitmap _ _ mine))

/-- `allocate` keeps all tables apart. -/
theorem Isolated.allocate (placed : fa.Placed) (isolated : Isolated fa kernel shared state own) :
    Isolated fa kernel shared ⟨(fa.allocateFrame state.memory).2, state.tables⟩ own := by
  have scanned := fa.allocateFrame_scanned placed.covers state.memory
  generalize fa.allocateFrame state.memory = result at scanned
  cases scanned with
  | full _ same writes =>
    exact isolated.bitmap writes fun index inside marked => by rw [same index inside, marked]
  | taken _ _ _ _ _ bits writes =>
    exact isolated.bitmap writes fun index inside marked => by
      rw [bits index inside, marked, Bool.true_or]

/-- A new table is apart from all others. -/
theorem Isolated.new (placed : fa.Placed) (captured : kernel ≠ 0)
    (isolated : Isolated fa kernel shared state own) {memory : PhysMem}
    (returned : PageTable.new fa kernel state.memory = (some root, memory)) :
    Isolated fa kernel shared ⟨memory, root :: state.tables⟩
      (Function.update own root fun level table => level = 3 ∧ table = root) := by
  obtain ⟨⟨fresh, _, address, free, _⟩, extended⟩ :=
    new_extends placed captured isolated.kernelTables returned
  have foreign {other : Nat} (member : other ∈ state.tables) {level table : Nat}
      (theirs : own other level table) : root ≠ table :=
    address ▸ fresh_ne_own (isolated.trees other member) theirs free
  have unlisted {other : Nat} (member : other ∈ state.tables) : other ≠ root :=
    (foreign member (isolated.trees other member).root_own).symm
  have kernelSame (index : Nat) (inside : index < 512) :
      entry memory kernel index = entry state.memory kernel index :=
    extended.kernel_entry isolated.kernelTables (fun _ _ impossible => impossible.elim)
      isolated.kernelTables.root inside
  refine ⟨extended.1, ?_, ?_⟩
  · intro other member
    rcases List.mem_cons.mp member with rfl | old
    · rw [Function.update_self]
      exact extended.2.1
    · rw [Function.update_of_ne (unlisted old)]
      have tree := isolated.trees other old
      refine tree.congr (fun level table theirs index inside => ?_) kernelSame extended.2.2.kept
      exact extended.other_entry tree (fun _ _ impossible => impossible.elim)
        (fun _ _ _ _ impossible => impossible.elim) theirs inside
  · intro left leftMember right rightMember different level table otherLevel otherTable mine theirs
    rcases List.mem_cons.mp leftMember with rfl | leftOld
    · rcases List.mem_cons.mp rightMember with same | rightOld
      · exact absurd same.symm different
      · rw [Function.update_self] at mine
        rw [Function.update_of_ne (unlisted rightOld)] at theirs
        rw [mine.2]
        exact foreign rightOld theirs
    · rw [Function.update_of_ne (unlisted leftOld)] at mine
      rcases List.mem_cons.mp rightMember with rfl | rightOld
      · rw [Function.update_self] at theirs
        rw [theirs.2]
        exact (foreign leftOld mine).symm
      · rw [Function.update_of_ne (unlisted rightOld)] at theirs
        exact isolated.apart left leftOld right rightOld different _ _ _ _ mine theirs

/-- Every call that meets the condition keeps the tables apart. -/
theorem Isolated.step (placed : fa.Placed) (captured : kernel ≠ 0)
    (isolated : Isolated fa kernel shared before own) (unshared : before.Unshared kernel op)
    (step : Step fa kernel before op after) : ∃ own, Isolated fa kernel shared after own := by
  cases target : op.target with
  | some root =>
    obtain ⟨sameTables, member, grown, extended⟩ :=
      isolated.extends_of_map placed unshared step target
    refine ⟨Function.update own root grown, ?_⟩
    rw [show after = ⟨after.memory, before.tables⟩ by rw [← sameTables]]
    exact isolated.extend member extended
  | none =>
    obtain ⟨rfl, _⟩ := step
    cases op with
    | map => cases target
    | mapRegion => cases target
    | allocate => exact ⟨own, isolated.allocate placed⟩
    | new =>
      unfold apply
      cases returned : PageTable.new fa kernel before.memory with
      | mk result memory =>
        cases result with
        | some root => exact ⟨_, isolated.new placed captured returned⟩
        | none =>
          refine ⟨own, ?_⟩
          have unused : memory = (fa.allocateFrame before.memory).2 := by
            rw [allocateFrame_of_new_none returned]
          simp only [unused]
          exact isolated.allocate placed

/-- Every call of a run that meets the condition on one table leaves the others' translations
and the kernel's as they were. -/
theorem Isolated.translate_eq (placed : fa.Placed) (isolated : Isolated fa kernel shared before own)
    (unshared : before.Unshared kernel op) (step : Step fa kernel before op after)
    (target : op.target = some root) (virt : Nat) :
    translate after.memory kernel virt = translate before.memory kernel virt ∧
      ∀ other ∈ before.tables, other ≠ root →
        translate after.memory other virt = translate before.memory other virt := by
  obtain ⟨_, member, grown, extended⟩ := isolated.extends_of_map placed unshared step target
  have tree := isolated.trees root member
  have tables := isolated.kernelTables
  have sharedSame (level table : Nat) (isShared : shared level table) (index : Nat)
      (inside : index < 512) : entry after.memory table index = entry before.memory table index :=
    extended.kernel_entry tables tree.off_shared isShared inside
  refine ⟨translate_congr tables.closed tables.root sharedSame virt, ?_⟩
  intro other otherMember different
  have otherTree := isolated.trees other otherMember
  refine translate_congr (otherTree.walk_closed tables) (.inl otherTree.root_own) ?_ virt
  rintro level table (theirs | isShared) index inside
  · refine extended.other_entry otherTree ?_
      (isolated.apart root member other otherMember different.symm) theirs inside
    intro ownLevel ownTable mine
    obtain ⟨ownIndex, _, address, _⟩ := tree.held _ _ mine
    exact ⟨ownIndex, address⟩
  · exact sharedSame level table isShared index inside

end Spaces

/-- A walk stays in every closed set. -/
theorem Reaches.subset {memory : PhysMem} {root : Nat} {pages : Nat → Nat → Prop}
    (closed : Closed memory pages) (rootPage : pages 3 root) {level table : Nat}
    (reached : Reaches memory root level table) : pages level table := by
  induction reached with
  | root => exact rootPage
  | next _ inside here ih => exact closed _ _ ih _ inside here

/-- Kernel tables below the memory the frame allocator manages are intact after `init`. -/
theorem kernelTables_of_init {fa : FrameAllocator} {regions : List MemoryRegion}
    {start memory : PhysMem} {kernel : Nat} {pages : Nat → Nat → Prop}
    (initialized : FrameAllocator.init start regions = .ok (fa, memory))
    (closed : Closed start pages) (rootPage : pages 3 kernel)
    (below : ∀ level table, pages level table → table + 4096 ≤ fa.firstFrame) :
    KernelTables fa kernel pages memory := by
  obtain ⟨placed, writes, bits⟩ := FrameAllocator.init_spec initialized
  have bitmapAt := placed.bitmap_eq
  have offBitmap (level table : Nat) (here : pages level table) :
      (page table).Separate fa.bitmapSpan := by
    have low := below level table here
    simp only [Span.Separate, page, FrameAllocator.bitmapSpan]
    omega
  refine ⟨rootPage, ?_, offBitmap, ?_, ?_⟩
  · intro level table here index inside isPresent
    rw [entry_eq_of_writes writes inside (Span.separate_iff.mp (offBitmap _ _ here))]
      at isPresent ⊢
    exact closed level table here index inside isPresent
  · intro level table here index _ _
    have low := below level table here
    simp only [Span.Separate, page, FrameAllocator.frameSpan, FrameAllocator.frameAddr, frameSize]
    omega
  · intro index inside free
    exact ((bits index inside).mp free).1.2

/-- A kernel whose first top-level entry leads through one table of each level: at `0x1000`,
`0x2000`, `0x3000` and `0x4000`. -/
def kernelMemory : PhysMem where
  byte a :=
    if a = 0x1000 ∨ a = 0x2000 ∨ a = 0x3000 then 7
    else if a = 0x1001 then 0x20 else if a = 0x2001 then 0x30 else if a = 0x3001 then 0x40 else 0
  log := []

/-- Its four table pages. -/
def kernelPages (level table : Nat) : Prop :=
  level = 3 ∧ table = 0x1000 ∨ level = 2 ∧ table = 0x2000 ∨ level = 1 ∧ table = 0x3000 ∨
    level = 0 ∧ table = 0x4000

/-- Its pages have no entry but the first. -/
theorem kernelMemory_behind {table index : Nat} (aligned : table % 4096 = 0) (positive : 0 < index)
    (inside : index < 512) : entry kernelMemory table index = 0 := by
  have clear (a : Nat) (off : 2 ≤ a % 4096) : kernelMemory.byte a = 0 := by
    simp only [kernelMemory]
    rw [if_neg (by omega), if_neg (by omega), if_neg (by omega), if_neg (by omega)]
  have byte (offset : Nat) (small : offset < 8) :
      kernelMemory.byte (table + 8 * index + offset) = 0 := clear _ (by omega)
  have first : kernelMemory.byte (table + 8 * index) = 0 := byte 0 (by decide)
  simp only [entry, PhysMem.readU64, first, byte 1 (by decide), byte 2 (by decide),
    byte 3 (by decide), byte 4 (by decide), byte 5 (by decide), byte 6 (by decide),
    byte 7 (by decide)]
  rfl

/-- Walks of that kernel stay in the four pages. -/
theorem kernelMemory_closed : Closed kernelMemory kernelPages := by
  have path (table : Nat) (member : table ∈ [0x1000, 0x2000, 0x3000]) (index : Nat)
      (inside : index < 512) (isPresent : present (entry kernelMemory table index) = true) :
      entryAddr (entry kernelMemory table index) = table + 0x1000 := by
    have aligned : ∀ table ∈ [0x1000, 0x2000, 0x3000], table % 4096 = 0 := by decide
    have linked : ∀ table ∈ [0x1000, 0x2000, 0x3000],
        entryAddr (entry kernelMemory table 0) = table + 0x1000 := by decide +kernel
    by_cases first : index = 0
    · rw [first]
      exact linked table member
    · rw [kernelMemory_behind (aligned table member) (Nat.pos_of_ne_zero first) inside] at isPresent
      cases isPresent
  rintro level table here index inside isPresent
  rcases here with ⟨top, rfl⟩ | ⟨middle, rfl⟩ | ⟨low, rfl⟩ | ⟨bottom, _⟩
  · exact .inr (.inl ⟨by omega, path _ (by decide) index inside isPresent⟩)
  · exact .inr (.inr (.inl ⟨by omega, path _ (by decide) index inside isPresent⟩))
  · exact .inr (.inr (.inr ⟨by omega, path _ (by decide) index inside isPresent⟩))
  · omega

/-- The four pages are intact behind `init`. -/
theorem kernelMemory_tables {memory : PhysMem}
    (initialized : FrameAllocator.init kernelMemory FrameAllocator.mebibyteMap =
      .ok (FrameAllocator.mebibyteFrames, memory)) :
    KernelTables FrameAllocator.mebibyteFrames 0x1000 kernelPages memory := by
  refine kernelTables_of_init initialized kernelMemory_closed (.inl ⟨rfl, rfl⟩) ?_
  rintro level table (⟨_, rfl⟩ | ⟨_, rfl⟩ | ⟨_, rfl⟩ | ⟨_, rfl⟩)
  all_goals decide

/-- The least set of kernel pages is intact when a larger one is. -/
theorem KernelTables.reaches {fa : FrameAllocator} {kernel : Nat} {shared : Nat → Nat → Prop}
    {memory : PhysMem} (tables : KernelTables fa kernel shared memory) :
    KernelTables fa kernel (Reaches memory kernel) memory where
  root := .root
  closed := reaches_closed memory kernel
  off_bitmap level table reached :=
    tables.off_bitmap level table (reached.subset tables.closed tables.root)
  off_free level table reached :=
    tables.off_free level table (reached.subset tables.closed tables.root)
  free_off_bitmap := tables.free_off_bitmap

end Aperture.Mm.PageTable
