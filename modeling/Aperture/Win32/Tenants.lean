import Aperture.Vfs.Footprint
import Aperture.Win32.LoaderFootprint

/-!
# Programs and files over one memory

Files, the images of loaded programs and their page tables take their frames from one bitmap. In
every order of calls on files, loads, and writes of programs to their own images, files behave as
byte strings, and each program has an image and an address space that nobody else changes.
-/

namespace Aperture.Win32

open Machine Mm Pe PageTable Vfs

/-- A loaded program: the block of its image, and its page table, 0 without one. -/
structure Tenant where
  /-- Where its image lies. -/
  block : Span
  /-- Its page table. -/
  root : Nat

/-- What a program sees. -/
structure Space where
  /-- The bytes of its image. -/
  bytes : List UInt8
  /-- Where its addresses lead. -/
  view : Nat → Option Nat

/-- What a program sees of a memory. -/
def Tenant.seen (memory : PhysMem) (tenant : Tenant) : Space where
  bytes := memory.readBytes tenant.block.start tenant.block.size
  view := fun virt => if tenant.root = 0 then none else translate memory tenant.root virt

/-- The file system, whose memory is that of all, and the programs in the order of their loads. -/
structure Tenancy where
  /-- The files. -/
  files : FileSystem
  /-- The programs. -/
  tenants : List Tenant

/-- What happens between files and programs. -/
inductive TenantEvent where
  /-- A call on files. -/
  | file (event : FileEvent)
  /-- `load_into_process`, with its result. -/
  | load (image : PeImage) (process : Process) (data : List UInt8) (done : Bool)
  /-- A program leaves this memory behind. -/
  | store (index : Nat) (memory : PhysMem)

namespace Tenancy

/-- One event. A program writes its own image only. -/
def Step (frames : FrameAllocator) (kernel : Nat) (before : Tenancy) (event : TenantEvent)
    (after : Tenancy) : Prop :=
  match event with
  | .file event => (∀ memory, event ≠ .other memory) ∧
      before.files.Step frames event after.files ∧ after.tenants = before.tenants
  | .load image process data done => ∃ loaded last,
      loadIntoProcess frames kernel image process data (.start before.files.memory) =
        (.ok done, loaded, last) ∧
      after.files = { before.files with memory := last.memory } ∧
      after.tenants = if done then before.tenants ++
        [⟨⟨loaded.imageBase, 4096 * totalPages image⟩, loaded.pageTableRoot⟩] else before.tenants
  | .store index memory => ∃ tenant, before.tenants[index]? = some tenant ∧
      WritesWithin tenant.block.toSet before.files.memory memory ∧
      after = ⟨{ before.files with memory }, before.tenants⟩

/-- The sections of what is loaded fit its image, and its addresses are not the kernel's. -/
def Fitting (frames : FrameAllocator) (kernel : Nat) (before : Tenancy) : TenantEvent → Prop
  | .load image _ data _ => Fits frames before.files.memory kernel image data
  | .file _ => True
  | .store _ _ => True

end Tenancy

/-- A store of byte strings beside programs with memories of their own. -/
structure Stores where
  /-- The files. -/
  files : FileStore
  /-- What each program sees. -/
  spaces : List Space

namespace Stores

/-- What is loaded is the image that its file lays out. -/
def Holds (image : PeImage) (data : List UInt8) (space : Space) : Prop :=
  space.bytes.length = 4096 * totalPages image ∧ (WellLaid image data →
    ∀ rva byte, space.bytes[rva]? = some byte → ByteOf image data image.numSections rva byte)

/-- A call on files changes no program, a load adds one, and a program changes its bytes only. -/
def Step (before : Stores) (event : TenantEvent) (after : Stores) : Prop :=
  match event with
  | .file event => before.files.Step event after.files ∧ after.spaces = before.spaces
  | .load image _ data true => after.files = before.files ∧
      ∃ space, Holds image data space ∧ after.spaces = before.spaces ++ [space]
  | .load _ _ _ false => after = before
  | .store index _ => after.files = before.files ∧ ∃ space bytes,
      before.spaces[index]? = some space ∧ bytes.length = space.bytes.length ∧
      after.spaces = before.spaces.set index ⟨bytes, space.view⟩

end Stores

/-! ## What a program holds -/

/-- A program with the pages of its table. -/
structure Lodger where
  /-- The program. -/
  tenant : Tenant
  /-- The pages. -/
  own : Nat → Nat → Prop

/-- The memory of a program. -/
def Lodger.land (lodger : Lodger) : Set Nat :=
  {a | a ∈ lodger.tenant.block ∨ a ∈ pagesOf lodger.own}

variable {frames : FrameAllocator} {kernel : Nat} {regions : List MemoryRegion}
  {shared : Nat → Nat → Prop} {fs : FileSystem} {lodger other : Lodger}
  {touched : Set Nat} {before after : Tenancy} {lodgers : List Lodger}

/-- A program's memory is in use, and neither the kernel's nor a file's. -/
structure Lodger.Held (frames : FrameAllocator) (kernel : Nat) (shared : Nat → Nat → Prop)
    (fs : FileSystem) (lodger : Lodger) : Prop where
  /-- It is in use. -/
  occupied : frames.Occupied fs.memory lodger.land
  /-- It is apart from files. -/
  off_files : ∀ a ∈ lodger.land, a ∉ fs.fileLand
  /-- It is apart from the kernel's tables. -/
  off_kernel : ∀ a ∈ lodger.land, a ∉ pagesOf shared
  /-- The table is not in the image. -/
  off_block : ∀ a ∈ pagesOf lodger.own, a ∉ lodger.tenant.block
  /-- The table is intact. -/
  tree : lodger.tenant.root ≠ 0 → Tree frames kernel shared fs.memory lodger.tenant.root lodger.own

/-- What does not own the tables of a program keeps what it holds, and its address space. -/
theorem Lodger.Held.survives (held : lodger.Held frames kernel shared fs) (later : FileSystem)
    (tables : KernelTables frames kernel shared fs.memory)
    (confined : frames.Confined touched fs.memory later.memory)
    (kernelForeign : ∀ a ∈ pagesOf shared, a ∉ touched)
    (foreign : ∀ a ∈ pagesOf lodger.own, a ∉ touched)
    (files : ∀ a ∈ later.fileLand, a ∈ frames.vacant fs.memory ∨ a ∈ fs.fileLand) :
    lodger.Held frames kernel shared later ∧
      (lodger.tenant.seen later.memory).view = (lodger.tenant.seen fs.memory).view := by
  constructor
  · refine ⟨held.occupied.kept confined, ?_, held.off_kernel, held.off_block, ?_⟩
    · intro a inLand inFiles
      rcases files a inFiles with isVacant | wasFile
      · exact held.occupied a inLand isVacant
      · exact held.off_files a inLand wasFile
    · intro rooted
      exact ((held.tree rooted).survives tables confined kernelForeign foreign).1
  · funext virt
    unfold Tenant.seen
    dsimp only
    by_cases rooted : lodger.tenant.root = 0
    · rw [if_pos rooted, if_pos rooted]
    · rw [if_neg rooted, if_neg rooted]
      exact ((held.tree rooted).survives tables confined kernelForeign foreign).2 virt

/-- What does not own the image either keeps all that the program sees. -/
theorem Lodger.Held.seen_eq (held : lodger.Held frames kernel shared fs) (later : FileSystem)
    (tables : KernelTables frames kernel shared fs.memory)
    (confined : frames.Confined touched fs.memory later.memory)
    (kernelForeign : ∀ a ∈ pagesOf shared, a ∉ touched) (foreign : ∀ a ∈ lodger.land, a ∉ touched)
    (files : ∀ a ∈ later.fileLand, a ∈ frames.vacant fs.memory ∨ a ∈ fs.fileLand) :
    lodger.tenant.seen later.memory = lodger.tenant.seen fs.memory := by
  have view := (held.survives later tables confined kernelForeign
    (fun a inPages => foreign a (.inr inPages)) files).2
  have bytes : (lodger.tenant.seen later.memory).bytes = (lodger.tenant.seen fs.memory).bytes := by
    apply List.map_congr_left
    intro offset small
    apply held.occupied.same confined foreign
    left
    rw [List.mem_range] at small
    rw [Span.mem_iff]
    omega
  calc lodger.tenant.seen later.memory
      = ⟨(lodger.tenant.seen later.memory).bytes, (lodger.tenant.seen later.memory).view⟩ := rfl
    _ = lodger.tenant.seen fs.memory := by rw [bytes, view]

/-! ## Loads -/

section Loads

variable {memory : PhysMem} {first pages base : Nat} {pageTable : Option Nat}
  {own : Nat → Nat → Prop} {s : Loading}

/-- The memory a load takes. -/
def taken (base pages : Nat) (own : Nat → Nat → Prop) (root : Nat) : Lodger :=
  ⟨⟨⟨base, 4096 * pages⟩, root⟩, own⟩

/-- It was vacant. -/
theorem Settled.vacant (settled : Settled frames kernel shared memory first pages base pageTable own s)
    {root a : Nat} (inLand : a ∈ (taken base pages own root).land) : a ∈ frames.vacant memory := by
  rcases inLand with inBlock | inPages
  · exact settled.blocked.vacant inBlock
  · exact settled.progress.own_vacant inPages

/-- It is in use afterwards. -/
theorem Settled.occupied
    (settled : Settled frames kernel shared memory first pages base pageTable own s)
    (tables : KernelTables frames kernel shared memory) (root : Nat) :
    frames.Occupied s.memory (taken base pages own root).land := by
  apply FrameAllocator.occupied_of_used
  rintro a (inBlock | ⟨level, table, mine, inPage⟩)
  · have start : base = frames.firstFrame + first * 4096 := settled.blocked.base_eq
    have inside := settled.blocked.inside
    have member : base ≤ a ∧ a < base + 4096 * pages := Span.mem_iff.mp inBlock
    have above : first ≤ (a - frames.firstFrame) / 4096 := by omega
    have below : (a - frames.firstFrame) / 4096 < first + pages := by omega
    refine ⟨(a - frames.firstFrame) / 4096, by omega, ?_, settled.progress.block_used _ above below,
      tables.free_off_bitmap _ (by omega) (settled.blocked.free _ above below)⟩
    simp only [Span.mem_iff, FrameAllocator.frameSpan, FrameAllocator.frameAddr, frameSize]
    omega
  · obtain ⟨index, isTaken, rfl, _⟩ := settled.progress.own_taken level table mine
    exact ⟨index, isTaken.1, inPage, isTaken.2.2,
      tables.free_off_bitmap index isTaken.1 isTaken.2.1⟩

/-- A program that is loaded holds its memory. -/
theorem Settled.held
    (settled : Settled frames kernel shared fs.memory first pages base pageTable own s)
    (tables : KernelTables frames kernel shared fs.memory)
    (consistent : fs.Consistent frames regions) :
    (taken base pages own (pageTable.getD 0)).Held frames kernel shared
      { fs with memory := s.memory } := by
  refine ⟨settled.occupied tables _, ?_, ?_, ?_, ?_⟩
  · intro a inLand inFiles
    exact consistent.occupied a inFiles (settled.vacant inLand)
  · intro a inLand inKernel
    exact tables.occupied a inKernel (settled.vacant inLand)
  · rintro a ⟨level, table, mine, inPage⟩ inBlock
    obtain ⟨index, _, rfl, outside⟩ := settled.progress.own_taken level table mine
    have start : base = frames.firstFrame + first * 4096 := settled.blocked.base_eq
    have member : base ≤ a ∧ a < base + 4096 * pages := Span.mem_iff.mp inBlock
    simp only [Span.mem_iff, page, FrameAllocator.frameAddr, frameSize] at inPage
    omega
  · intro rooted
    cases table : pageTable with
    | none =>
      rw [table] at rooted
      exact absurd rfl rooted
    | some root => exact settled.progress.tree root table

end Loads

/-! ## All programs -/

/-- Every program holds its memory, and no two share any. -/
structure Housed (frames : FrameAllocator) (kernel : Nat) (regions : List MemoryRegion)
    (shared : Nat → Nat → Prop) (tenancy : Tenancy) (lodgers : List Lodger) : Prop where
  /-- The files are consistent. -/
  consistent : tenancy.files.Consistent frames regions
  /-- The tables of the kernel are intact. -/
  tables : KernelTables frames kernel shared tenancy.files.memory
  /-- They are apart from files. -/
  off_files : ∀ a ∈ pagesOf shared, a ∉ tenancy.files.fileLand
  /-- The programs. -/
  tenants : tenancy.tenants = lodgers.map Lodger.tenant
  /-- What they hold. -/
  held : ∀ lodger ∈ lodgers, lodger.Held frames kernel shared tenancy.files
  /-- They are apart. -/
  apart : lodgers.Pairwise fun left right => ∀ a ∈ left.land, a ∉ right.land

/-- What is confined to memory that no table is in keeps all programs housed. -/
theorem Housed.survives (housed : Housed frames kernel regions shared before lodgers)
    (after : Tenancy)
    (consistent : after.files.Consistent frames regions)
    (confined : frames.Confined touched before.files.memory after.files.memory)
    (kernelForeign : ∀ a ∈ pagesOf shared, a ∉ touched)
    (foreign : ∀ lodger ∈ lodgers, ∀ a ∈ pagesOf lodger.own, a ∉ touched)
    (files : ∀ a ∈ after.files.fileLand,
      a ∈ frames.vacant before.files.memory ∨ a ∈ before.files.fileLand)
    (tenants : after.tenants = before.tenants) :
    Housed frames kernel regions shared after lodgers where
  consistent := consistent
  tables := housed.tables.survives confined kernelForeign
  off_files a inKernel inFiles := by
    rcases files a inFiles with isVacant | wasFile
    · exact housed.tables.occupied a inKernel isVacant
    · exact housed.off_files a inKernel wasFile
  tenants := tenants.trans housed.tenants
  held lodger member := ((housed.held lodger member).survives _ housed.tables confined
    kernelForeign (foreign lodger member) files).1
  apart := housed.apart

/-- What every program sees stays the same, when nobody's memory is touched. -/
theorem Housed.seen_eq (housed : Housed frames kernel regions shared before lodgers)
    (after : Tenancy)
    (confined : frames.Confined touched before.files.memory after.files.memory)
    (kernelForeign : ∀ a ∈ pagesOf shared, a ∉ touched)
    (foreign : ∀ lodger ∈ lodgers, ∀ a ∈ lodger.land, a ∉ touched)
    (files : ∀ a ∈ after.files.fileLand,
      a ∈ frames.vacant before.files.memory ∨ a ∈ before.files.fileLand) :
    before.tenants.map (Tenant.seen after.files.memory) =
      before.tenants.map (Tenant.seen before.files.memory) := by
  rw [housed.tenants, List.map_map, List.map_map]
  apply List.map_congr_left
  intro lodger member
  exact (housed.held lodger member).seen_eq _ housed.tables confined kernelForeign
    (foreign lodger member) files

/-- Two programs share no memory. -/
theorem Housed.apart_of_ne (housed : Housed frames kernel regions shared before lodgers)
    {left right : Nat} (different : left ≠ right) (found : lodgers[left]? = some lodger)
    (otherFound : lodgers[right]? = some other) : ∀ a ∈ lodger.land, a ∉ other.land := by
  obtain ⟨leftInside, rfl⟩ := List.getElem?_eq_some_iff.mp found
  obtain ⟨rightInside, rfl⟩ := List.getElem?_eq_some_iff.mp otherFound
  have pairs := List.pairwise_iff_getElem.mp housed.apart
  rcases Nat.lt_or_gt_of_ne different with above | below
  · exact pairs left right leftInside rightInside above
  · intro a inLeft inRight
    exact pairs right left rightInside leftInside below a inRight inLeft

/-- The stores stand for files and programs. -/
def Shows (frames : FrameAllocator) (kernel : Nat) (regions : List MemoryRegion)
    (shared : Nat → Nat → Prop) (tenancy : Tenancy) (stores : Stores) : Prop :=
  ∃ lodgers, ∃ housed : Housed frames kernel regions shared tenancy lodgers,
    stores = ⟨housed.consistent.store, tenancy.tenants.map (Tenant.seen tenancy.files.memory)⟩

/-- A call on files is one of the stores. -/
theorem Housed.file (covers : frames.Covers)
    (housed : Housed frames kernel regions shared before lodgers) {event : FileEvent}
    (step : Tenancy.Step frames kernel before (.file event) after) :
    ∃ next, Shows frames kernel regions shared after next ∧
      Stores.Step ⟨housed.consistent.store, before.tenants.map (Tenant.seen before.files.memory)⟩
        (.file event) next := by
  obtain ⟨ofFiles, called, tenants⟩ := step
  have footprint := housed.consistent.footprint_step covers ofFiles called
  have undisturbed : before.files.Undisturbed frames regions event := by
    cases event with
    | other memory => exact absurd rfl (ofFiles memory)
    | _ => trivial
  obtain ⟨consistent, matched⟩ := housed.consistent.step covers undisturbed called
  have kept : Housed frames kernel regions shared after lodgers := by
    apply housed.survives _ consistent footprint.confined housed.off_files _ footprint.land tenants
    intro lodger member a inPages
    exact (housed.held lodger member).off_files a (.inr inPages)
  have same := housed.seen_eq after footprint.confined housed.off_files
    (fun lodger member => (housed.held lodger member).off_files) footprint.land
  refine ⟨_, ⟨lodgers, kept, rfl⟩, matched, ?_⟩
  show after.tenants.map (Tenant.seen after.files.memory) = _
  rw [tenants, same]

/-- Code that writes vacant memory only changes nothing. -/
theorem Housed.quiet (housed : Housed frames kernel regions shared before lodgers)
    {memory : PhysMem} (confined : frames.Confined ∅ before.files.memory memory) :
    ∃ kept : Housed frames kernel regions shared
        ⟨{ before.files with memory }, before.tenants⟩ lodgers,
      kept.consistent.store = housed.consistent.store ∧
      before.tenants.map (Tenant.seen memory) =
        before.tenants.map (Tenant.seen before.files.memory) := by
  obtain ⟨consistent, same⟩ := housed.consistent.other_step
    (housed.consistent.undisturbed confined fun _ _ nothing => nothing)
  have files (a : Nat) (inFiles : a ∈ { before.files with memory }.fileLand) :
      a ∈ frames.vacant before.files.memory ∨ a ∈ before.files.fileLand := .inr inFiles
  refine ⟨housed.survives _ consistent confined (fun _ _ nothing => nothing)
    (fun _ _ _ _ nothing => nothing) files rfl, same, ?_⟩
  exact housed.seen_eq ⟨{ before.files with memory }, before.tenants⟩ confined
    (fun _ _ nothing => nothing) (fun _ _ _ _ nothing => nothing) files

/-- A program whose memory was vacant moves in. -/
theorem Housed.join (housed : Housed frames kernel regions shared before lodgers) {memory : PhysMem}
    (kept : Housed frames kernel regions shared ⟨{ before.files with memory }, before.tenants⟩ lodgers)
    (held : lodger.Held frames kernel shared { before.files with memory })
    (vacant : ∀ a ∈ lodger.land, a ∈ frames.vacant before.files.memory) :
    Housed frames kernel regions shared
      ⟨{ before.files with memory }, before.tenants ++ [lodger.tenant]⟩ (lodgers ++ [lodger]) where
  consistent := kept.consistent
  tables := kept.tables
  off_files := kept.off_files
  tenants := by
    rw [List.map_append, housed.tenants]
    rfl
  held other member := by
    rcases List.mem_append.mp member with old | new
    · exact kept.held other old
    · rw [List.mem_singleton.mp new]
      exact held
  apart := by
    apply List.pairwise_append.mpr
    refine ⟨housed.apart, List.pairwise_singleton _ _, ?_⟩
    intro other member new isNew a inLand inNew
    rw [List.mem_singleton.mp isNew] at inNew
    exact (housed.held other member).occupied a inLand (vacant a inNew)

/-- What is loaded is the image of the file. -/
theorem holds_loaded {memory : PhysMem} {image : PeImage} {data : List UInt8}
    {process loaded : Process} {last : Loading} (placed : frames.Placed) (captured : kernel ≠ 0)
    (aligned : kernel % 4096 = 0)
    (levels : ∀ left right table, shared left table → shared right table → left = right)
    (tables : KernelTables frames kernel shared memory)
    (returned : loadIntoProcess frames kernel image process data (.start memory) =
      (.ok true, loaded, last)) (root : Nat) :
    Stores.Holds image data
      (Tenant.seen last.memory ⟨⟨loaded.imageBase, 4096 * totalPages image⟩, root⟩) := by
  have length : (last.memory.readBytes loaded.imageBase (4096 * totalPages image)).length =
      4096 * totalPages image := by
    rw [PhysMem.readBytes, List.length_map, List.length_range]
  refine ⟨length, fun laid rva byte found => ?_⟩
  obtain ⟨granted, allocated, _, ended⟩ := loadIntoProcess_returned returned
  have reached (level table : Nat) (here : Reaches memory kernel level table) :
      shared level table := here.subset tables.closed tables.root
  have pages := tables.reaches.tablePages aligned fun left right table leftHere rightHere =>
    levels left right table (reached left table leftHere) (reached right table rightHere)
  obtain ⟨first, grown, blocked, filled⟩ :=
    filled_prepared placed captured tables.reaches pages allocated
  obtain ⟨_, complete⟩ :=
    loadSections_filled placed tables.reaches blocked laid (Nat.zero_add _) filled ended
  obtain ⟨inside, rfl⟩ := List.getElem?_eq_some_iff.mp found
  have small : rva < 4096 * totalPages image := by
    rw [← length]
    exact inside
  have bytes := complete.bytes rva small
  simpa only [Tenant.seen, PhysMem.readBytes, List.getElem_map, List.getElem_range] using bytes

/-- A load adds a program, or nothing. -/
theorem Housed.load (placed : frames.Placed) (captured : kernel ≠ 0) (aligned : kernel % 4096 = 0)
    (levels : ∀ left right table, shared left table → shared right table → left = right)
    (housed : Housed frames kernel regions shared before lodgers) {image : PeImage}
    {process : Process} {data : List UInt8} {done : Bool}
    (fits : Fits frames before.files.memory kernel image data)
    (step : Tenancy.Step frames kernel before (.load image process data done) after) :
    ∃ next, Shows frames kernel regions shared after next ∧
      Stores.Step ⟨housed.consistent.store, before.tenants.map (Tenant.seen before.files.memory)⟩
        (.load image process data done) next := by
  obtain ⟨loaded, last, returned, filesEq, tenantsEq⟩ := step
  obtain ⟨files, tenants⟩ := after
  dsimp only at filesEq tenantsEq
  subst filesEq
  have left : last = (loadIntoProcess frames kernel image process data
      (.start before.files.memory)).2.2 := by rw [returned]
  cases done with
  | false =>
    have confined : frames.Confined ∅ before.files.memory last.memory := by
      cases allocated : allocateContiguous frames before.files.memory (totalPages image) with
      | mk result memory =>
        rcases result with reason | _ | base
        · have start : (Loading.start before.files.memory).memory = before.files.memory := rfl
          rw [loadIntoProcess, start, allocated] at returned
          cases returned
        · exact loadIntoProcess_refused placed.covers allocated returned
        · obtain ⟨_, _, settled⟩ :=
            loadIntoProcess_settled placed captured housed.tables fits process allocated
          rw [← left] at settled
          exact settled.confined
    obtain ⟨kept, files, seen⟩ := housed.quiet confined
    subst tenantsEq
    refine ⟨_, ⟨lodgers, kept, rfl⟩, ?_⟩
    show Stores.mk _ _ = Stores.mk _ _
    rw [files]
    exact congrArg (Stores.mk _) seen
  | true =>
    obtain ⟨memory, allocated, root, _⟩ := loadIntoProcess_returned returned
    obtain ⟨first, own, settled⟩ :=
      loadIntoProcess_settled placed captured housed.tables fits process allocated
    rw [← left] at settled
    obtain ⟨kept, files, seen⟩ := housed.quiet settled.confined
    have held := settled.held housed.tables housed.consistent
    rw [← root] at held
    have joined := housed.join kept held fun a inLand => settled.vacant inLand
    subst tenantsEq
    refine ⟨_, ⟨_, joined, rfl⟩, files, _,
      holds_loaded placed captured aligned levels housed.tables returned loaded.pageTableRoot, ?_⟩
    show (before.tenants ++ [_]).map (Tenant.seen last.memory) = _
    rw [List.map_append, seen]
    rfl

/-- A program that writes its image changes its own bytes. -/
theorem Housed.store (covers : frames.Covers)
    (housed : Housed frames kernel regions shared before lodgers) {index : Nat} {memory : PhysMem}
    (step : Tenancy.Step frames kernel before (.store index memory) after) :
    ∃ next, Shows frames kernel regions shared after next ∧
      Stores.Step ⟨housed.consistent.store, before.tenants.map (Tenant.seen before.files.memory)⟩
        (.store index memory) next := by
  obtain ⟨tenant, found, writes, rfl⟩ := step
  obtain ⟨writer, writerFound, rfl⟩ : ∃ writer, lodgers[index]? = some writer ∧
      writer.tenant = tenant := by
    rw [housed.tenants, List.getElem?_map] at found
    exact Option.map_eq_some_iff.mp found
  have writerHeld := housed.held writer (List.mem_of_getElem? writerFound)
  have confined : frames.Confined writer.tenant.block.toSet before.files.memory memory := by
    apply FrameAllocator.confined_of_writes covers writes
    intro a inBitmap inBlock
    exact writerHeld.occupied a (.inl inBlock) (.inl inBitmap)
  have kernelForeign (a : Nat) (inKernel : a ∈ pagesOf shared) :
      a ∉ writer.tenant.block.toSet := fun inBlock =>
    writerHeld.off_kernel a (.inl inBlock) inKernel
  have others (j : Nat) (lodger : Lodger) (here : lodgers[j]? = some lodger) (different : j ≠ index)
      (a : Nat) (inLand : a ∈ lodger.land) : a ∉ writer.tenant.block.toSet := fun inBlock =>
    housed.apart_of_ne different here writerFound a inLand (.inl inBlock)
  have foreign (lodger : Lodger) (member : lodger ∈ lodgers) (a : Nat)
      (inPages : a ∈ pagesOf lodger.own) : a ∉ writer.tenant.block.toSet := by
    obtain ⟨j, here⟩ := List.mem_iff_getElem?.mp member
    by_cases same : j = index
    · subst same
      obtain rfl := Option.some.inj (writerFound.symm.trans here)
      exact writerHeld.off_block a inPages
    · exact others j lodger here same a (.inr inPages)
  obtain ⟨consistent, store⟩ := housed.consistent.other_step
    (housed.consistent.undisturbed confined fun a inFiles inBlock =>
      writerHeld.off_files a (.inl inBlock) inFiles)
  have files (a : Nat) (inFiles : a ∈ { before.files with memory }.fileLand) :
      a ∈ frames.vacant before.files.memory ∨ a ∈ before.files.fileLand := .inr inFiles
  have kept := housed.survives ⟨{ before.files with memory }, before.tenants⟩ consistent
    confined kernelForeign foreign files rfl
  refine ⟨_, ⟨lodgers, kept, rfl⟩, store, writer.tenant.seen before.files.memory,
    (writer.tenant.seen memory).bytes, ?_, ?_, ?_⟩
  · rw [List.getElem?_map, found]
    rfl
  · show (memory.readBytes _ _).length = (before.files.memory.readBytes _ _).length
    rw [PhysMem.readBytes, PhysMem.readBytes, List.length_map, List.length_map]
  · show before.tenants.map (Tenant.seen memory) = _
    apply List.ext_getElem?
    intro j
    rw [List.getElem?_set, List.getElem?_map, List.getElem?_map, housed.tenants, List.getElem?_map]
    by_cases same : index = j
    · subst same
      rw [writerFound, if_pos rfl]
      have inside : index < (List.map (Tenant.seen before.files.memory)
          (lodgers.map Lodger.tenant)).length := by
        rw [List.length_map, List.length_map]
        exact (List.getElem?_eq_some_iff.mp writerFound).1
      rw [if_pos inside]
      have view := (writerHeld.survives { before.files with memory } housed.tables
        confined kernelForeign (foreign writer (List.mem_of_getElem? writerFound)) files).2
      show some (writer.tenant.seen memory) = _
      rw [← view]
    · rw [if_neg same]
      cases here : lodgers[j]? with
      | none => rfl
      | some lodger =>
        have unseen := (housed.held lodger (List.mem_of_getElem? here)).seen_eq
          { before.files with memory } housed.tables confined kernelForeign
          (others j lodger here (Ne.symm same)) files
        exact congrArg some unseen

/-- Every event is one of the stores. -/
theorem Shows.step (placed : frames.Placed) (captured : kernel ≠ 0) (aligned : kernel % 4096 = 0)
    (levels : ∀ left right table, shared left table → shared right table → left = right)
    {stores : Stores} {event : TenantEvent}
    (shows : Shows frames kernel regions shared before stores)
    (fitting : before.Fitting frames kernel event)
    (step : Tenancy.Step frames kernel before event after) :
    ∃ next, Shows frames kernel regions shared after next ∧ stores.Step event next := by
  obtain ⟨lodgers, housed, rfl⟩ := shows
  cases event with
  | file event => exact housed.file placed.covers step
  | load image process data done => exact housed.load placed captured aligned levels fitting step
  | store index memory => exact housed.store placed.covers step

/-- For every memory map that `init` accepts and kernel tables that are pages of one level each, off
the bitmap and the free frames: in every order of calls on files, loads of images whose sections fit,
and writes of programs to their images, files are byte strings, each program sees the image that its
file lays out with the bytes it wrote since, and its own address space, and images do not overlap. -/
theorem tenancy_of_run {memory booted : PhysMem}
    (initialized : FrameAllocator.init memory regions = .ok (frames, booted))
    (captured : kernel ≠ 0) (aligned : kernel % 4096 = 0)
    (unused : KernelTables frames kernel (Reaches booted kernel) booted)
    (levels : ∀ left right table, Reaches booted kernel left table →
      Reaches booted kernel right table → left = right)
    {events : List TenantEvent} {last : Tenancy}
    (run : Run (Guarded (Tenancy.Fitting frames kernel) (Tenancy.Step frames kernel))
      ⟨FileSystem.init booted, []⟩ events last) :
    ∃ stores : Stores, Run Stores.Step ⟨.empty, []⟩ events stores ∧
      stores.files.content = last.files.content ∧ stores.files.files = last.files.openFiles ∧
      stores.spaces = last.tenants.map (Tenant.seen last.files.memory) ∧
      last.tenants.Pairwise fun left right => left.block.Separate right.block := by
  obtain ⟨placed, _, bits⟩ := FrameAllocator.init_spec initialized
  have consistent : (FileSystem.init booted).Consistent frames regions :=
    FileSystem.consistent_init fun index inside clear => ((bits index inside).mp clear).1
  have start : Housed frames kernel regions (Reaches booted kernel)
      ⟨FileSystem.init booted, []⟩ [] := by
    refine ⟨consistent, unused, ?_, rfl, ?_, .nil⟩
    · rintro a _ ⟨node, slot, frame, found, _⟩
      cases found
    · intro lodger none
      cases none
  have simulated := run.simulates (Shows frames kernel regions (Reaches booted kernel))
    (fun _ _ _ _ shows guarded =>
      shows.step placed captured aligned levels guarded.1 guarded.2) ⟨[], start, rfl⟩
  obtain ⟨stores, ⟨lodgers, housed, rfl⟩, matched⟩ := simulated
  refine ⟨_, matched, rfl, rfl, rfl, ?_⟩
  rw [housed.tenants]
  apply List.pairwise_map.mpr
  apply housed.apart.imp
  intro left right apart
  apply Span.separate_iff.mpr
  intro a inLeft inRight
  exact apart a (.inl inLeft) (.inl inRight)

/-- A file is created, a program is loaded, and it writes the first byte of its image. -/
theorem tenancy_of_run_loaded : ∃ booted events last, ∃ stores : Stores,
    Run (Guarded (Tenancy.Fitting FrameAllocator.mebibyteFrames 0x1000)
      (Tenancy.Step FrameAllocator.mebibyteFrames 0x1000))
      ⟨FileSystem.init booted, []⟩ events last ∧ events.length = 3 ∧ last.tenants ≠ [] ∧
    Run Stores.Step ⟨.empty, []⟩ events stores ∧
    stores.spaces = last.tenants.map (Tenant.seen last.files.memory) := by
  obtain ⟨booted, initialized, placed, unused, isSome, _, unshared, levels⟩ := kernelMemory_ready
  obtain ⟨created, creates, _⟩ := FileSystem.create_first booted
  have same : created.memory = booted := by
    have kept := (FileSystem.create_same (FileSystem.init booted) 0 [0x61] .file).1
    rw [creates] at kept
    exact kept
  have parsed : sectionHeader sectionImage (sectionFile 0) 0 = .ok (some (fileSection 0)) := by
    decide +kernel
  have fits : Fits FrameAllocator.mebibyteFrames created.memory 0x1000 sectionImage
      (sectionFile 0) := by
    rw [same]
    intro _ i _ below _ header found
    have isFirst : i = 0 := Nat.lt_one_iff.mp below
    rw [isFirst, parsed, Except.ok.injEq, Option.some.injEq] at found
    rw [← found]
    exact ⟨by decide +kernel, fun _ _ => unshared⟩
  obtain ⟨span, found⟩ := Option.isSome_iff_exists.mp isSome
  obtain ⟨base, taken, allocated⟩ := allocated_of_block found
  obtain ⟨_, spec⟩ := allocateContiguous_spec placed.covers allocated
  obtain ⟨_, first, baseEq, granted⟩ := spec base rfl
  have low : base + 2 ^ 12 < wordSize := by
    have inside := granted.inside
    simp only [FrameAllocator.mebibyteFrames] at inside
    simp only [baseEq, FrameAllocator.mebibyteFrames, FrameAllocator.frameAddr, frameSize, wordSize]
    omega
  have sectionFits : base + 0 + 16 < wordSize := by omega
  have entryFits : base + 0 < wordSize := by omega
  have returns : ∃ loaded last, loadIntoProcess FrameAllocator.mebibyteFrames 0x1000 sectionImage
      ⟨0, 0, 0, 0⟩ (sectionFile 0) (.start created.memory) = (.ok true, loaded, last) ∧
      loaded.imageBase = base ∧ loaded.pageTableRoot =
        (PageTable.new FrameAllocator.mebibyteFrames 0x1000 taken).1.getD 0 := by
    rw [same]
    refine loadIntoProcess_returns _ allocated (fun i small => ?_) entryFits
    obtain rfl : i = 0 := Nat.lt_one_iff.mp small
    exact ⟨fileSection 0, parsed, sectionFits, by decide⟩
  obtain ⟨loaded, last, returned, _⟩ := returns
  obtain ⟨tenant, isTenant⟩ : ∃ tenant : Tenant,
      tenant = ⟨⟨loaded.imageBase, 4096 * totalPages sectionImage⟩, loaded.pageTableRoot⟩ := ⟨_, rfl⟩
  have fileStep : Tenancy.Step FrameAllocator.mebibyteFrames 0x1000 ⟨FileSystem.init booted, []⟩
      (.file (.create 0 [0x61] .file (some 1))) ⟨created, []⟩ := ⟨fun _ => by simp, creates, rfl⟩
  have loadStep : Tenancy.Step FrameAllocator.mebibyteFrames 0x1000 ⟨created, []⟩
      (.load sectionImage ⟨0, 0, 0, 0⟩ (sectionFile 0) true)
      ⟨{ created with memory := last.memory }, [tenant]⟩ := by
    rw [isTenant]
    exact ⟨loaded, last, returned, rfl, rfl⟩
  have storeStep : Tenancy.Step FrameAllocator.mebibyteFrames 0x1000
      ⟨{ created with memory := last.memory }, [tenant]⟩
      (.store 0 (last.memory.copyIn loaded.imageBase [1]))
      ⟨{ created with memory := last.memory.copyIn loaded.imageBase [1] }, [tenant]⟩ := by
    refine ⟨tenant, rfl, WritesWithin.copyIn _ fun a member => ?_, rfl⟩
    have bounds : loaded.imageBase ≤ a ∧ a < loaded.imageBase + 1 := Span.mem_iff.mp member
    have pages : 4096 * totalPages sectionImage = 4096 := rfl
    rw [isTenant]
    simp only [Span.mem_toSet, Span.mem_iff, pages]
    omega
  have run : Run (Guarded (Tenancy.Fitting FrameAllocator.mebibyteFrames 0x1000)
      (Tenancy.Step FrameAllocator.mebibyteFrames 0x1000)) ⟨FileSystem.init booted, []⟩
      [.file (.create 0 [0x61] .file (some 1)),
        .load sectionImage ⟨0, 0, 0, 0⟩ (sectionFile 0) true,
        .store 0 (last.memory.copyIn loaded.imageBase [1])] _ :=
    .cons ⟨trivial, fileStep⟩ (.cons ⟨fits, loadStep⟩ (.cons ⟨trivial, storeStep⟩ (.nil _)))
  obtain ⟨stores, matched, _, _, spaces, _⟩ :=
    tenancy_of_run initialized (by decide) (by decide) unused levels run
  exact ⟨booted, _, _, stores, run, rfl, List.cons_ne_nil _ _, matched, spaces⟩

end Aperture.Win32
