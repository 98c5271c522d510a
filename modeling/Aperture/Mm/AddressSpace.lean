import Aperture.Mm.PageTable

/-!
# Address spaces

The pages of one page table split into the kernel's, which every table shares, and its
own: the root and every table linked below an entry the kernel does not have. Its own
pages are frames taken from the allocator. Every operation on a table writes only its own
pages, frames that were free, and the bitmap, and keeps that shape.
-/

namespace Aperture.Mm.PageTable

open Machine

/-- The kernel's table and the pages below it, each at its level. -/
structure KernelTables (fa : FrameAllocator) (kernel : Nat) (shared : Nat → Nat → Prop)
    (memory : PhysMem) : Prop where
  /-- `KERNEL_CR3` is the top-level page. -/
  root : shared 3 kernel
  /-- Walks stay in these pages. -/
  closed : Closed memory shared
  /-- They avoid the bitmap. -/
  off_bitmap : ∀ level table, shared level table → (page table).Separate fa.bitmapSpan
  /-- No free frame is one of them. -/
  off_free : ∀ level table, shared level table → ∀ index < fa.frameCount,
    fa.used memory index = false → (page table).Separate (fa.frameSpan index)
  /-- No free frame holds the bitmap. -/
  free_off_bitmap : ∀ index < fa.frameCount, fa.used memory index = false →
    (fa.frameSpan index).Separate fa.bitmapSpan

/-- The table at `root` with its own pages, each at its level. -/
structure Tree (fa : FrameAllocator) (kernel : Nat) (shared : Nat → Nat → Prop) (memory : PhysMem)
    (root : Nat) (own : Nat → Nat → Prop) : Prop where
  /-- The root is its own. -/
  root_own : own 3 root
  /-- It is the only top-level page. -/
  root_only : ∀ table, own 3 table → table = root
  /-- There are four levels. -/
  level_le : ∀ level table, own level table → level ≤ 3
  /-- Present entries lead to own pages, or below the root to the kernel's. -/
  closed : ∀ level table, own (level + 1) table → ∀ index < 512,
    present (entry memory table index) = true →
      own level (entryAddr (entry memory table index)) ∨
        level = 2 ∧ present (entry memory kernel index) = true
  /-- The kernel's top-level entries are copied. -/
  copied : ∀ index < 512, present (entry memory kernel index) = true →
    entry memory root index = entry memory kernel index
  /-- A page is a table of one level. -/
  level_unique : ∀ left right table, own left table → own right table → left = right
  /-- Own pages are frames in use. -/
  held : ∀ level table, own level table →
    ∃ index < fa.frameCount, table = fa.frameAddr index ∧ fa.used memory index = true
  /-- They avoid the bitmap. -/
  off_bitmap : ∀ level table, own level table → (page table).Separate fa.bitmapSpan
  /-- They avoid the kernel's pages. -/
  off_shared : ∀ level table, own level table → ∀ sharedLevel sharedTable,
    shared sharedLevel sharedTable → (page table).Separate (page sharedTable)

/-- Where an operation on a table may write: the bitmap and the table's own pages. -/
def reach (fa : FrameAllocator) (own : Nat → Nat → Prop) : Set Nat :=
  {a | a ∈ fa.bitmapSpan ∨ ∃ level table, own level table ∧ a ∈ page table}

/-- What an operation on a table does to memory and to the table's own pages. -/
structure Grows (fa : FrameAllocator) (memory : PhysMem) (own : Nat → Nat → Prop) (after : PhysMem)
    (grown : Nat → Nat → Prop) : Prop where
  /-- It writes the bitmap and own pages, new ones included. -/
  writes : WritesWithin (reach fa grown) memory after
  /-- Frames in use stay in use. -/
  kept : ∀ index < fa.frameCount, fa.used memory index = true → fa.used after index = true
  /-- Own pages stay. -/
  larger : ∀ level table, own level table → grown level table
  /-- New pages were free frames. -/
  fresh : ∀ level table, grown level table → own level table ∨
    ∃ index < fa.frameCount, table = fa.frameAddr index ∧ fa.used memory index = false

variable {fa : FrameAllocator} {kernel root : Nat} {shared own grown final : Nat → Nat → Prop}
  {memory middle after : PhysMem}

/-- Doing nothing. -/
theorem Grows.refl (fa : FrameAllocator) (memory : PhysMem) (own : Nat → Nat → Prop) :
    Grows fa memory own memory own :=
  ⟨.refl _ _, fun _ _ used => used, fun _ _ mine => mine, fun _ _ mine => .inl mine⟩

/-- A frame free later was free before. -/
theorem Grows.free_before (grows : Grows fa memory own after grown) {index : Nat}
    (inside : index < fa.frameCount) (free : fa.used after index = false) :
    fa.used memory index = false := by
  by_contra marked
  rw [Bool.not_eq_false] at marked
  rw [grows.kept index inside marked] at free
  cases free

/-- Operations compose. -/
theorem Grows.trans (first : Grows fa memory own middle grown)
    (second : Grows fa middle grown after final) : Grows fa memory own after final := by
  refine ⟨(first.writes.mono ?_).trans second.writes, ?_, ?_, ?_⟩
  · rintro a (inBitmap | ⟨level, table, mine, inPage⟩)
    · exact .inl inBitmap
    · exact .inr ⟨level, table, second.larger level table mine, inPage⟩
  · intro index inside marked
    exact second.kept index inside (first.kept index inside marked)
  · intro level table mine
    exact second.larger level table (first.larger level table mine)
  · intro level table mine
    rcases second.fresh level table mine with old | ⟨index, inside, address, free⟩
    · exact first.fresh level table old
    · exact .inr ⟨index, inside, address, first.free_before inside free⟩

/-- A filled page has empty entries. -/
theorem entry_fill (memory : PhysMem) (table : Nat) {index : Nat} (inside : index < 512) :
    entry (memory.fill table 4096 0) table index = 0 := by
  have zero (offset : Nat) (short : offset < 8) :
      ((memory.fill table 4096 0).byte (table + 8 * index + offset)).toNat = 0 := by
    unfold PhysMem.fill
    rw [PhysMem.store_byte_inside]
    · rfl
    · rw [Span.mem_iff]
      simp only
      omega
  have first : ((memory.fill table 4096 0).byte (table + 8 * index)).toNat = 0 :=
    zero 0 (by decide)
  simp only [entry, PhysMem.readU64, first, zero 1 (by decide), zero 2 (by decide),
    zero 3 (by decide), zero 4 (by decide), zero 5 (by decide), zero 6 (by decide),
    zero 7 (by decide)]
  rfl

/-- A missing table has been taken from the free frame `fresh`, zeroed and linked at an entry
of `table`. -/
structure Linked (fa : FrameAllocator) (memory : PhysMem) (table index fresh : Nat)
    (after : PhysMem) : Prop where
  /-- The new table was a frame. -/
  inside : fresh < fa.frameCount
  /-- It was free. -/
  free : fa.used memory fresh = false
  /-- It is the only frame taken. -/
  bits : ∀ other < fa.frameCount, fa.used after other = (fa.used memory other || decide (other = fresh))
  /-- The entry refers to it. -/
  link : entryAddr (entry after table index) = fa.frameAddr fresh
  /-- It has no present entry. -/
  empty : ∀ other < 512, present (entry after (fa.frameAddr fresh) other) = false
  /-- Entries of other pages are unchanged. -/
  elsewhere : ∀ other, (page other).Separate fa.bitmapSpan →
    (page other).Separate (fa.frameSpan fresh) → (page other).Separate (page table) →
      ∀ entryIndex < 512, entry after other entryIndex = entry memory other entryIndex
  /-- So are the table's other entries. -/
  beside : ∀ other < 512, other ≠ index → entry after table other = entry memory table other
  /-- Only the bitmap, the frame and the table were written. -/
  writes : WritesWithin {a | a ∈ fa.bitmapSpan ∨ a ∈ page table ∨ a ∈ fa.frameSpan fresh} memory after

/-- What `next_table` can do. -/
inductive Stepped (fa : FrameAllocator) (memory : PhysMem) (table index : Nat) :
    Option Nat × PhysMem → Prop
  /-- The table exists. -/
  | found (here : present (entry memory table index) = true) :
      Stepped fa memory table index (some (entryAddr (entry memory table index)), memory)
  /-- No frame is left. -/
  | full {after : PhysMem} (absent : present (entry memory table index) = false)
      (same : ∀ other < fa.frameCount, fa.used after other = fa.used memory other)
      (writes : WritesWithin fa.bitmapSpan.toSet memory after) :
      Stepped fa memory table index (none, after)
  /-- A new table is linked. -/
  | linked {after : PhysMem} (fresh : Nat) (absent : present (entry memory table index) = false)
      (linked : Linked fa memory table index fresh after) :
      Stepped fa memory table index (some (fa.frameAddr fresh), after)

/-- Frame addresses of a placed allocator are aligned words. -/
theorem frameAddr_placed (placed : fa.Placed) {index : Nat} (inside : index < fa.frameCount) :
    fa.frameAddr index % 4096 = 0 ∧ fa.frameAddr index < wordSize := by
  have aligned := placed.aligned
  have fits := placed.fits
  unfold FrameAllocator.frameAddr frameSize
  omega

/-- Zeroing a taken frame and linking it. -/
theorem linked_of_taken (placed : fa.Placed) {table index fresh : Nat} (short : index < 512)
    (offBitmap : (page table).Separate fa.bitmapSpan)
    (offFrame : (page table).Separate (fa.frameSpan fresh))
    (frameOff : (fa.frameSpan fresh).Separate fa.bitmapSpan) (inside : fresh < fa.frameCount)
    (free : fa.used memory fresh = false)
    (bits : ∀ other < fa.frameCount,
      fa.used middle other = (fa.used memory other || decide (other = fresh)))
    (taken : WritesWithin fa.bitmapSpan.toSet memory middle) :
    Linked fa memory table index fresh
      ((middle.fill (fa.frameAddr fresh) 4096 0).writeU64 (table + 8 * index)
        (fa.frameAddr fresh ||| pagePresent ||| pageWritable ||| pageUser)) := by
  obtain ⟨aligned, fits⟩ := frameAddr_placed placed inside
  have value : fa.frameAddr fresh ||| pagePresent ||| pageWritable ||| pageUser =
      fa.frameAddr fresh ||| 7 := by
    rw [Nat.or_assoc, Nat.or_assoc]
    rfl
  have valueFits : fa.frameAddr fresh ||| 7 < wordSize := Nat.or_lt_two_pow fits (by decide)
  rw [value]
  have filled : WritesWithin (fa.frameSpan fresh).toSet middle
      (middle.fill (fa.frameAddr fresh) 4096 0) := .store _ _ fun _ member => member
  have written : WritesWithin (page table).toSet (middle.fill (fa.frameAddr fresh) 4096 0)
      ((middle.fill (fa.frameAddr fresh) 4096 0).writeU64 (table + 8 * index)
        (fa.frameAddr fresh ||| 7)) := .writeU64 _ _ (entry_inside short)
  have unchanged {other entryIndex : Nat} (small : entryIndex < 512)
      (offBits : (page other).Separate fa.bitmapSpan)
      (offFresh : (page other).Separate (fa.frameSpan fresh)) :
      entry (middle.fill (fa.frameAddr fresh) 4096 0) other entryIndex =
        entry memory other entryIndex := by
    rw [entry_eq_of_writes filled small (Span.separate_iff.mp offFresh),
      entry_eq_of_writes taken small (Span.separate_iff.mp offBits)]
  refine ⟨inside, free, ?_, ?_, ?_, ?_, ?_, ?_⟩
  · intro other otherInside
    rw [FrameAllocator.used_eq_of_writes placed.covers written
        (Span.separate_iff.mp offBitmap.symm) otherInside,
      FrameAllocator.used_eq_of_writes placed.covers filled
        (Span.separate_iff.mp frameOff.symm) otherInside, bits other otherInside]
  · rw [entry, PhysMem.readU64_writeU64 _ _ valueFits]
    exact entryAddr_or aligned fits (by decide)
  · intro other small
    rw [entry_eq_of_writes written small (Span.separate_iff.mp offFrame.symm),
      entry_fill middle _ small]
    rfl
  · intro other offBits offFresh offTable entryIndex small
    rw [entry_eq_of_writes written small (Span.separate_iff.mp offTable),
      unchanged small offBits offFresh]
  · intro other small different
    rw [entry, PhysMem.readU64_writeU64_separate _ _ (by omega), ← entry]
    exact unchanged small offBitmap offFrame
  · refine (taken.mono fun _ member => .inl member).trans
      ((filled.mono fun _ member => .inr (.inr member)).trans ?_)
    exact written.mono fun _ member => .inr (.inl member)

/-- `next_table` on a page that avoids the bitmap and the free frames. -/
theorem nextTable_stepped (placed : fa.Placed) {table index : Nat} (inside : index < 512)
    (offBitmap : (page table).Separate fa.bitmapSpan)
    (offFree : ∀ other < fa.frameCount, fa.used memory other = false →
      (page table).Separate (fa.frameSpan other))
    (freeOff : ∀ other < fa.frameCount, fa.used memory other = false →
      (fa.frameSpan other).Separate fa.bitmapSpan) :
    Stepped fa memory table index (nextTable fa memory table index) := by
  cases found : presentTable memory table index with
  | some next =>
    obtain ⟨here, rfl⟩ := presentTable_eq_some.mp found
    simp only [nextTable, found]
    exact .found here
  | none =>
    have absent : present (entry memory table index) = false := by
      by_contra here
      rw [Bool.not_eq_false] at here
      rw [presentTable, if_pos here] at found
      cases found
    have scanned := fa.allocateFrame_scanned placed.covers memory
    simp only [nextTable, found]
    generalize fa.allocateFrame memory = result at scanned
    cases scanned with
    | full _ same writes => exact .full absent same writes
    | @taken taken fresh freshInside _ free _ bits writes =>
      dsimp only
      exact .linked fresh absent (linked_of_taken placed inside offBitmap
        (offFree fresh freshInside free) (freeOff fresh freshInside free) freshInside free bits writes)

/-- The kernel's pages survive writes elsewhere while no frame is released. -/
theorem KernelTables.congr (tables : KernelTables fa kernel shared memory)
    (same : ∀ level table, shared level table → ∀ index < 512,
      entry after table index = entry memory table index)
    (released : ∀ index < fa.frameCount, fa.used after index = false →
      fa.used memory index = false) : KernelTables fa kernel shared after where
  root := tables.root
  closed level table here index inside isPresent := by
    rw [same _ _ here index inside] at isPresent ⊢
    exact tables.closed level table here index inside isPresent
  off_bitmap := tables.off_bitmap
  off_free level table here index inside free :=
    tables.off_free level table here index inside (released index inside free)
  free_off_bitmap index inside free := tables.free_off_bitmap index inside (released index inside free)

/-- A table survives writes elsewhere while its frames stay in use. -/
theorem Tree.congr (tree : Tree fa kernel shared memory root own)
    (same : ∀ level table, own level table → ∀ index < 512,
      entry after table index = entry memory table index)
    (kernelSame : ∀ index < 512, entry after kernel index = entry memory kernel index)
    (kept : ∀ index < fa.frameCount, fa.used memory index = true → fa.used after index = true) :
    Tree fa kernel shared after root own where
  root_own := tree.root_own
  root_only := tree.root_only
  level_le := tree.level_le
  closed level table here index inside isPresent := by
    rw [same _ _ here index inside] at isPresent ⊢
    rw [kernelSame index inside]
    exact tree.closed level table here index inside isPresent
  copied index inside isPresent := by
    rw [kernelSame index inside] at isPresent ⊢
    rw [same _ _ tree.root_own index inside]
    exact tree.copied index inside isPresent
  level_unique := tree.level_unique
  held level table here := by
    obtain ⟨index, inside, address, marked⟩ := tree.held level table here
    exact ⟨index, inside, address, kept index inside marked⟩
  off_bitmap := tree.off_bitmap
  off_shared := tree.off_shared

/-- An own page is no free frame. -/
theorem Tree.off_free (tree : Tree fa kernel shared memory root own) {level table : Nat}
    (here : own level table) {index : Nat} (free : fa.used memory index = false) :
    (page table).Separate (fa.frameSpan index) := by
  obtain ⟨mine, _, rfl, marked⟩ := tree.held level table here
  apply FrameAllocator.frameSpan_separate
  rintro rfl
  rw [free] at marked
  cases marked

/-- Own pages are equal or apart. -/
theorem Tree.eq_or_separate (tree : Tree fa kernel shared memory root own)
    {leftLevel rightLevel left right : Nat} (leftHere : own leftLevel left)
    (rightHere : own rightLevel right) : left = right ∨ (page left).Separate (page right) := by
  obtain ⟨leftIndex, _, rfl, _⟩ := tree.held _ _ leftHere
  obtain ⟨rightIndex, _, rfl, _⟩ := tree.held _ _ rightHere
  by_cases same : leftIndex = rightIndex
  · exact .inl (by rw [same])
  · exact .inr (FrameAllocator.frameSpan_separate same)

/-- A new table linked below an own page becomes an own page, one level down. -/
theorem Tree.linked (tables : KernelTables fa kernel shared memory)
    (tree : Tree fa kernel shared memory root own) {level table index fresh : Nat}
    (here : own (level + 1) table)
    (unshared : level = 2 → present (entry memory kernel index) = false)
    (linked : Linked fa memory table index fresh after) :
    KernelTables fa kernel shared after ∧
      Tree fa kernel shared after root
        (fun pageLevel other => own pageLevel other ∨ pageLevel = level ∧ other = fa.frameAddr fresh) ∧
      Grows fa memory own after
        (fun pageLevel other => own pageLevel other ∨ pageLevel = level ∧ other = fa.frameAddr fresh) := by
  have kernelSame (sharedLevel other : Nat) (isShared : shared sharedLevel other) :=
    linked.elsewhere other (tables.off_bitmap _ _ isShared)
      (tables.off_free _ _ isShared _ linked.inside linked.free)
      (tree.off_shared _ _ here _ _ isShared).symm
  have kept (other : Nat) (inside : other < fa.frameCount) (marked : fa.used memory other = true) :
      fa.used after other = true := by
    rw [linked.bits other inside, marked, Bool.true_or]
  have released (other : Nat) (inside : other < fa.frameCount) (free : fa.used after other = false) :
      fa.used memory other = false := by
    rw [linked.bits other inside, Bool.or_eq_false_iff] at free
    exact free.1
  have ownSame {pageLevel other : Nat} (mine : own pageLevel other) (entryIndex : Nat)
      (small : entryIndex < 512) (differs : ¬(other = table ∧ entryIndex = index)) :
      entry after other entryIndex = entry memory other entryIndex := by
    rcases tree.eq_or_separate mine here with rfl | apart
    · exact linked.beside entryIndex small fun same => differs ⟨rfl, same⟩
    · exact linked.elsewhere other (tree.off_bitmap _ _ mine) (tree.off_free mine linked.free) apart
        entryIndex small
  have levelLe := tree.level_le _ _ here
  have notFresh {pageLevel other : Nat} (mine : own pageLevel other) :
      other ≠ fa.frameAddr fresh := by
    obtain ⟨mineIndex, _, rfl, marked⟩ := tree.held _ _ mine
    intro same
    rw [FrameAllocator.frameAddr_injective same, linked.free] at marked
    cases marked
  refine ⟨tables.congr kernelSame released, ⟨.inl tree.root_own, ?_, ?_, ?_, ?_, ?_, ?_, ?_, ?_⟩,
    linked.writes.mono ?_, kept, fun _ _ mine => .inl mine, ?_⟩
  · rintro other (mine | ⟨top, _⟩)
    · exact tree.root_only other mine
    · omega
  · rintro pageLevel other (mine | ⟨rfl, _⟩)
    · exact tree.level_le _ _ mine
    · omega
  · rintro pageLevel other (mine | ⟨_, rfl⟩) entryIndex small isPresent
    · by_cases changed : other = table ∧ entryIndex = index
      · obtain ⟨rfl, rfl⟩ := changed
        have sameLevel := tree.level_unique _ _ _ mine here
        exact .inl (.inr ⟨by omega, linked.link⟩)
      · rw [ownSame mine entryIndex small changed] at isPresent ⊢
        rw [kernelSame _ _ tables.root entryIndex small]
        rcases tree.closed _ _ mine entryIndex small isPresent with below | top
        · exact .inl (.inl below)
        · exact .inr top
    · rw [linked.empty entryIndex small] at isPresent
      cases isPresent
  · intro entryIndex small isPresent
    rw [kernelSame _ _ tables.root entryIndex small] at isPresent ⊢
    rw [ownSame tree.root_own entryIndex small]
    · exact tree.copied entryIndex small isPresent
    · rintro ⟨rfl, rfl⟩
      have top := tree.level_unique _ _ _ tree.root_own here
      rw [unshared (by omega)] at isPresent
      cases isPresent
  · rintro left right other (mine | ⟨rfl, rfl⟩) (alsoMine | ⟨rfl, same⟩)
    · exact tree.level_unique _ _ _ mine alsoMine
    · exact absurd same (notFresh mine)
    · exact absurd rfl (notFresh alsoMine)
    · rfl
  · rintro pageLevel other (mine | ⟨_, rfl⟩)
    · obtain ⟨mineIndex, inside, address, marked⟩ := tree.held _ _ mine
      exact ⟨mineIndex, inside, address, kept _ inside marked⟩
    · exact ⟨fresh, linked.inside, rfl, by rw [linked.bits _ linked.inside]; simp⟩
  · rintro pageLevel other (mine | ⟨_, rfl⟩)
    · exact tree.off_bitmap _ _ mine
    · exact tables.free_off_bitmap _ linked.inside linked.free
  · rintro pageLevel other (mine | ⟨_, rfl⟩) sharedLevel sharedTable isShared
    · exact tree.off_shared _ _ mine _ _ isShared
    · exact (tables.off_free _ _ isShared _ linked.inside linked.free).symm
  · rintro a (inBitmap | inTable | inFrame)
    · exact .inl inBitmap
    · exact .inr ⟨_, _, .inl here, inTable⟩
    · exact .inr ⟨_, _, .inr ⟨rfl, rfl⟩, inFrame⟩
  · rintro pageLevel other (mine | ⟨_, rfl⟩)
    · exact .inl mine
    · exact .inr ⟨fresh, linked.inside, rfl, linked.free⟩

/-- An operation on the table at `root` ended in `after`: the kernel's pages and the table are
intact, and the table's own pages have grown. -/
def Extends (fa : FrameAllocator) (kernel : Nat) (shared : Nat → Nat → Prop) (root : Nat)
    (memory : PhysMem) (own : Nat → Nat → Prop) (after : PhysMem) (grown : Nat → Nat → Prop) : Prop :=
  KernelTables fa kernel shared after ∧ Tree fa kernel shared after root grown ∧
    Grows fa memory own after grown

/-- Operations on one table compose. -/
theorem Extends.trans (first : Extends fa kernel shared root memory own middle grown)
    (second : Extends fa kernel shared root middle grown after final) :
    Extends fa kernel shared root memory own after final :=
  ⟨second.1, second.2.1, first.2.2.trans second.2.2⟩

/-- Writes to the bitmap that release nothing. -/
theorem extends_of_bitmap (tables : KernelTables fa kernel shared memory)
    (tree : Tree fa kernel shared memory root own)
    (same : ∀ index < fa.frameCount, fa.used after index = fa.used memory index)
    (writes : WritesWithin fa.bitmapSpan.toSet memory after) :
    Extends fa kernel shared root memory own after own := by
  have kernelSame (level table : Nat) (isShared : shared level table) (index : Nat)
      (small : index < 512) : entry after table index = entry memory table index :=
    entry_eq_of_writes writes small (Span.separate_iff.mp (tables.off_bitmap _ _ isShared))
  have ownSame (level table : Nat) (mine : own level table) (index : Nat) (small : index < 512) :
      entry after table index = entry memory table index :=
    entry_eq_of_writes writes small (Span.separate_iff.mp (tree.off_bitmap _ _ mine))
  have kept (index : Nat) (inside : index < fa.frameCount) (marked : fa.used memory index = true) :
      fa.used after index = true := by rw [same index inside, marked]
  have released (index : Nat) (inside : index < fa.frameCount) (free : fa.used after index = false) :
      fa.used memory index = false := by rw [← same index inside, free]
  exact ⟨tables.congr kernelSame released, tree.congr ownSame (kernelSame _ _ tables.root) kept,
    writes.mono fun _ member => .inl member, kept, fun _ _ mine => mine, fun _ _ mine => .inl mine⟩

/-- `next_table` from an own page, at an entry below which the kernel has nothing, leads to an
own page. -/
theorem nextTable_extends (placed : fa.Placed) (tables : KernelTables fa kernel shared memory)
    (tree : Tree fa kernel shared memory root own) {level table index : Nat} (inside : index < 512)
    (here : own (level + 1) table)
    (unshared : level = 2 → present (entry memory kernel index) = false) {result : Option Nat}
    (returned : nextTable fa memory table index = (result, after)) :
    ∃ grown, Extends fa kernel shared root memory own after grown ∧
      (∀ next, result = some next → grown level next) ∧
      fa.freeFrames memory ≤ fa.freeFrames after + 1 := by
  have stepped := nextTable_stepped placed inside (tree.off_bitmap _ _ here)
    (fun _ _ free => tree.off_free here free) tables.free_off_bitmap
  rw [returned] at stepped
  cases stepped with
  | found isPresent =>
    refine ⟨own, ⟨tables, tree, .refl fa memory own⟩, ?_, Nat.le_succ _⟩
    intro next same
    obtain rfl := Option.some.inj same
    rcases tree.closed _ _ here index inside isPresent with below | ⟨top, kernelPresent⟩
    · exact below
    · rw [unshared top] at kernelPresent
      cases kernelPresent
  | full _ same writes =>
    refine ⟨own, extends_of_bitmap tables tree same writes, ?_, ?_⟩
    · intro next none
      cases none
    · rw [FrameAllocator.freeFrames_congr same]
      exact Nat.le_succ _
  | linked fresh _ linked =>
    refine ⟨_, tree.linked tables here unshared linked, ?_, ?_⟩
    · intro next same
      exact .inr ⟨rfl, (Option.some.inj same).symm⟩
    · exact (FrameAllocator.freeFrames_taken linked.inside linked.free linked.bits).ge

/-- Writing an entry of a lowest own page keeps everything. -/
theorem extends_of_leaf (placed : fa.Placed) (tables : KernelTables fa kernel shared memory)
    (tree : Tree fa kernel shared memory root own) {table index : Nat} (inside : index < 512)
    (here : own 0 table) (value : Nat) :
    Extends fa kernel shared root memory own (memory.writeU64 (table + 8 * index) value) own ∧
      fa.freeFrames (memory.writeU64 (table + 8 * index) value) = fa.freeFrames memory := by
  have writes : WritesWithin (page table).toSet memory (memory.writeU64 (table + 8 * index) value) :=
    .writeU64 _ _ (entry_inside inside)
  have kernelSame (level other : Nat) (isShared : shared level other) (entryIndex : Nat)
      (small : entryIndex < 512) := entry_eq_of_writes writes small
    (Span.separate_iff.mp (tree.off_shared _ _ here _ _ isShared).symm)
  have bits (other : Nat) (otherInside : other < fa.frameCount) :=
    FrameAllocator.used_eq_of_writes placed.covers writes
      (Span.separate_iff.mp (tree.off_bitmap _ _ here).symm) otherInside
  have upper {level other : Nat} (mine : own (level + 1) other) (entryIndex : Nat)
      (small : entryIndex < 512) : entry (memory.writeU64 (table + 8 * index) value) other entryIndex =
        entry memory other entryIndex := by
    rcases tree.eq_or_separate mine here with rfl | apart
    · exact absurd (tree.level_unique _ _ _ mine here) (by omega)
    · exact entry_eq_of_writes writes small (Span.separate_iff.mp apart)
  have kept (other : Nat) (otherInside : other < fa.frameCount)
      (marked : fa.used memory other = true) :
      fa.used (memory.writeU64 (table + 8 * index) value) other = true := by
    rw [bits other otherInside, marked]
  refine ⟨⟨tables.congr kernelSame fun other otherInside free => by
      rw [← bits other otherInside, free], ⟨tree.root_own, tree.root_only, tree.level_le, ?_, ?_,
      tree.level_unique, ?_, tree.off_bitmap, tree.off_shared⟩, writes.mono ?_, kept,
      fun _ _ mine => mine, fun _ _ mine => .inl mine⟩, FrameAllocator.freeFrames_congr bits⟩
  · intro level other mine entryIndex small isPresent
    rw [upper mine entryIndex small] at isPresent ⊢
    rw [kernelSame _ _ tables.root entryIndex small]
    exact tree.closed level other mine entryIndex small isPresent
  · intro entryIndex small isPresent
    rw [kernelSame _ _ tables.root entryIndex small] at isPresent ⊢
    rw [upper tree.root_own entryIndex small]
    exact tree.copied entryIndex small isPresent
  · intro level other mine
    obtain ⟨mineIndex, mineInside, address, marked⟩ := tree.held _ _ mine
    exact ⟨mineIndex, mineInside, address, kept _ mineInside marked⟩
  · intro a member
    exact .inr ⟨0, table, here, member⟩

/-- `map` at an address whose top-level entry the kernel does not have; it takes at most three
frames. -/
theorem map_extends (placed : fa.Placed) (tables : KernelTables fa kernel shared memory)
    (tree : Tree fa kernel shared memory root own) {virt : Nat}
    (unshared : present (entry memory kernel (pml4Index virt)) = false) (phys flags : Nat)
    {result : Bool} (returned : map fa memory root virt phys flags = (result, after)) :
    ∃ grown, Extends fa kernel shared root memory own after grown ∧
      fa.freeFrames memory ≤ fa.freeFrames after + 3 := by
  unfold map at returned
  cases first : nextTable fa memory root (pml4Index virt) with
  | mk pdpt memory₁ =>
    obtain ⟨own₁, extends₁, below₁, cost₁⟩ := nextTable_extends placed tables tree (index_lt _)
      tree.root_own (fun _ => unshared) first
    simp only [first] at returned
    cases pdpt with
    | none =>
      obtain ⟨_, rfl⟩ := Prod.mk.inj returned
      exact ⟨own₁, extends₁, by omega⟩
    | some pdpt =>
      cases second : nextTable fa memory₁ pdpt (pdptIndex virt) with
      | mk pd memory₂ =>
        obtain ⟨own₂, extends₂, below₂, cost₂⟩ := nextTable_extends placed extends₁.1 extends₁.2.1
          (index_lt _) (below₁ pdpt rfl) (fun top => by cases top) second
        simp only [second] at returned
        cases pd with
        | none =>
          obtain ⟨_, rfl⟩ := Prod.mk.inj returned
          exact ⟨own₂, extends₁.trans extends₂, by omega⟩
        | some pd =>
          cases third : nextTable fa memory₂ pd (pdIndex virt) with
          | mk pt memory₃ =>
            obtain ⟨own₃, extends₃, below₃, cost₃⟩ := nextTable_extends placed extends₂.1
              extends₂.2.1 (index_lt _) (below₂ pd rfl) (fun top => by cases top) third
            simp only [third] at returned
            have upTo := (extends₁.trans extends₂).trans extends₃
            cases pt with
            | none =>
              obtain ⟨_, rfl⟩ := Prod.mk.inj returned
              exact ⟨own₃, upTo, by omega⟩
            | some pt =>
              obtain ⟨_, rfl⟩ := Prod.mk.inj returned
              obtain ⟨leaf, leafCost⟩ := extends_of_leaf placed upTo.1 upTo.2.1 (index_lt _)
                (below₃ pt rfl) (phys ||| flags ||| pagePresent)
              exact ⟨own₃, upTo.trans leaf, by rw [ptIndex, leafCost]; omega⟩

/-- Kernel entries stay through operations on other tables. -/
theorem Extends.kernel_entry (extended : Extends fa kernel shared root memory own after grown)
    (tables : KernelTables fa kernel shared memory)
    (offShared : ∀ level table, own level table → ∀ sharedLevel sharedTable,
      shared sharedLevel sharedTable → (page table).Separate (page sharedTable))
    {level table index : Nat} (isShared : shared level table) (inside : index < 512) :
    entry after table index = entry memory table index := by
  apply entry_eq_of_writes extended.2.2.writes inside
  rintro a inPage (inBitmap | ⟨grownLevel, grownTable, theirs, inGrown⟩)
  · exact Span.separate_iff.mp (tables.off_bitmap _ _ isShared) a inPage inBitmap
  · rcases extended.2.2.fresh _ _ theirs with mine | ⟨frame, frameInside, rfl, free⟩
    · exact Span.separate_iff.mp (offShared _ _ mine _ _ isShared) a inGrown inPage
    · exact Span.separate_iff.mp (tables.off_free _ _ isShared _ frameInside free) a inPage inGrown

/-- `map_region` at addresses whose top-level entries the kernel does not have. -/
theorem mapPages_extends (placed : fa.Placed) (tables : KernelTables fa kernel shared memory)
    (tree : Tree fa kernel shared memory root own) (virtBase physBase flags : Nat)
    {indices : List Nat}
    (unshared : ∀ i ∈ indices, virtBase + i * 4096 < wordSize →
      present (entry memory kernel (pml4Index (virtBase + i * 4096))) = false)
    {result : Except Panic Bool}
    (returned : mapPages fa root virtBase physBase flags indices memory = (result, after)) :
    ∃ grown, Extends fa kernel shared root memory own after grown := by
  induction indices generalizing memory own with
  | nil =>
    obtain ⟨_, rfl⟩ := Prod.mk.inj returned
    exact ⟨own, tables, tree, .refl fa memory own⟩
  | cons i rest ih =>
    have stopped {after : PhysMem} (same : memory = after) :
        ∃ grown, Extends fa kernel shared root memory own after grown := by
      subst same
      exact ⟨own, tables, tree, .refl fa memory own⟩
    unfold mapPages at returned
    cases virtSum : add64 virtBase (i * 4096) with
    | error reason =>
      simp only [virtSum] at returned
      exact stopped (Prod.mk.inj returned).2
    | ok virt =>
      cases physSum : add64 physBase (i * 4096) with
      | error reason =>
        simp only [virtSum, physSum] at returned
        exact stopped (Prod.mk.inj returned).2
      | ok phys =>
        simp only [virtSum, physSum] at returned
        obtain ⟨fits, rfl⟩ := add64_eq_ok.mp virtSum
        cases mapped : map fa memory root (virtBase + i * 4096) phys flags with
        | mk done next =>
          simp only [mapped] at returned
          obtain ⟨grown, extended, _⟩ := map_extends placed tables tree
            (unshared i List.mem_cons_self fits) phys flags mapped
          cases done with
          | false =>
            obtain ⟨_, rfl⟩ := Prod.mk.inj returned
            exact ⟨grown, extended⟩
          | true =>
            have restUnshared (j : Nat) (member : j ∈ rest)
                (restFits : virtBase + j * 4096 < wordSize) :
                present (entry next kernel (pml4Index (virtBase + j * 4096))) = false := by
              rw [extended.kernel_entry tables tree.off_shared tables.root (pml4Index_lt _)]
              exact unshared j (List.mem_cons_of_mem _ member) restFits
            obtain ⟨final, further⟩ := ih extended.1 extended.2.1 restUnshared returned
            exact ⟨final, extended.trans further⟩

/-- The copy loop gives the root the kernel's entries and writes nothing else. -/
theorem copyEntries_spec (apart : (page root).Separate (page kernel)) (memory : PhysMem)
    {count : Nat} (short : count ≤ 512) :
    WritesWithin (page root).toSet memory (copyEntries kernel root memory count) ∧
      ∀ index < count, entry (copyEntries kernel root memory count) root index =
        entry memory kernel index := by
  induction count with
  | zero => exact ⟨.refl _ _, by simp⟩
  | succ count ih =>
    obtain ⟨writes, copied⟩ := ih (by omega)
    have last : copyEntries kernel root memory (count + 1) =
        (copyEntries kernel root memory count).writeU64 (root + 8 * count)
          (entry (copyEntries kernel root memory count) kernel count) := by
      rw [copyEntries, List.range_succ, List.foldl_append]
      rfl
    have source : entry (copyEntries kernel root memory count) kernel count =
        entry memory kernel count :=
      entry_eq_of_writes writes (by omega) (Span.separate_iff.mp apart.symm)
    rw [last, source]
    refine ⟨writes.trans (.writeU64 _ _ (entry_inside (by omega))), fun index below => ?_⟩
    by_cases newest : index = count
    · rw [newest]
      exact PhysMem.readU64_writeU64 _ _ (memory.readU64_lt _)
    · rw [entry, PhysMem.readU64_writeU64_separate _ _ (by omega), ← entry]
      exact copied index (by omega)

/-- A table from `PageTable::new` is one free frame; it owns its root alone and has the
kernel's entries. -/
theorem new_extends (placed : fa.Placed) (captured : kernel ≠ 0)
    (tables : KernelTables fa kernel shared memory)
    (returned : new fa kernel memory = (some root, after)) :
    (∃ fresh < fa.frameCount, root = fa.frameAddr fresh ∧ fa.used memory fresh = false ∧
      ∀ other < fa.frameCount,
        fa.used after other = (fa.used memory other || decide (other = fresh))) ∧
      Extends fa kernel shared root memory (fun _ _ => False) after
        (fun level table => level = 3 ∧ table = root) := by
  have scanned := fa.allocateFrame_scanned placed.covers memory
  unfold new at returned
  generalize fa.allocateFrame memory = result at scanned returned
  cases scanned with
  | full _ _ _ => cases returned
  | @taken middle fresh inside _ free _ bits writes =>
    simp only [captured, ne_eq, not_false_eq_true, ↓reduceIte, Prod.mk.injEq, Option.some.injEq]
      at returned
    obtain ⟨rfl, rfl⟩ := returned
    have frameOff := tables.free_off_bitmap fresh inside free
    have kernelOff := tables.off_free _ _ tables.root fresh inside free
    have filled : WritesWithin (fa.frameSpan fresh).toSet middle
        (middle.fill (fa.frameAddr fresh) 4096 0) := .store _ _ fun _ member => member
    obtain ⟨copying, copied⟩ := copyEntries_spec kernelOff.symm
      (middle.fill (fa.frameAddr fresh) 4096 0) (Nat.le_refl 512)
    generalize copyEntries kernel (fa.frameAddr fresh) (middle.fill (fa.frameAddr fresh) 4096 0) 512 =
      after at copying copied
    have frameWrites : WritesWithin (fa.frameSpan fresh).toSet middle after := filled.trans copying
    have kernelSame (level table : Nat) (isShared : shared level table) (index : Nat)
        (small : index < 512) : entry after table index = entry memory table index := by
      rw [entry_eq_of_writes frameWrites small
          (Span.separate_iff.mp (tables.off_free _ _ isShared _ inside free)),
        entry_eq_of_writes writes small (Span.separate_iff.mp (tables.off_bitmap _ _ isShared))]
    have rootSame (index : Nat) (small : index < 512) :
        entry after (fa.frameAddr fresh) index = entry memory kernel index := by
      rw [copied index small, entry_eq_of_writes filled small (Span.separate_iff.mp kernelOff),
        entry_eq_of_writes writes small (Span.separate_iff.mp (tables.off_bitmap _ _ tables.root))]
    have finalBits (other : Nat) (otherInside : other < fa.frameCount) :
        fa.used after other = (fa.used memory other || decide (other = fresh)) := by
      rw [FrameAllocator.used_eq_of_writes placed.covers frameWrites
        (Span.separate_iff.mp frameOff.symm) otherInside, bits other otherInside]
    have kept (other : Nat) (otherInside : other < fa.frameCount)
        (marked : fa.used memory other = true) : fa.used after other = true := by
      rw [finalBits other otherInside, marked, Bool.true_or]
    refine ⟨⟨fresh, inside, rfl, free, finalBits⟩, tables.congr kernelSame ?_,
      ⟨⟨rfl, rfl⟩, fun _ mine => mine.2, ?_, ?_, ?_, ?_, ?_, ?_, ?_⟩,
      (writes.mono fun _ member => .inl member).trans (frameWrites.mono fun _ member =>
        .inr ⟨3, _, ⟨rfl, rfl⟩, member⟩), kept, fun _ _ mine => mine.elim, ?_⟩
    · intro other otherInside clear
      rw [finalBits other otherInside, Bool.or_eq_false_iff] at clear
      exact clear.1
    · rintro level table ⟨rfl, _⟩
      exact Nat.le_refl 3
    · rintro level table ⟨top, rfl⟩ index small isPresent
      rw [rootSame index small] at isPresent
      rw [kernelSame _ _ tables.root index small]
      exact .inr ⟨by omega, isPresent⟩
    · intro index small _
      rw [rootSame index small, kernelSame _ _ tables.root index small]
    · rintro left right table ⟨rfl, _⟩ ⟨rfl, _⟩
      rfl
    · rintro level table ⟨_, rfl⟩
      exact ⟨fresh, inside, rfl, by rw [finalBits fresh inside]; simp⟩
    · rintro level table ⟨_, rfl⟩
      exact frameOff
    · rintro level table ⟨_, rfl⟩ sharedLevel sharedTable isShared
      exact (tables.off_free _ _ isShared _ inside free).symm
    · rintro level table ⟨_, rfl⟩
      exact .inr ⟨fresh, inside, rfl, free⟩

/-- `PageTable::new` fails only for want of a frame. -/
theorem allocateFrame_of_new_none (returned : new fa kernel memory = (none, after)) :
    fa.allocateFrame memory = (none, after) := by
  unfold new at returned
  cases taken : fa.allocateFrame memory with
  | mk frame next =>
    rw [taken] at returned
    cases frame with
    | none => exact returned
    | some frame =>
      dsimp only at returned
      split at returned
      · cases returned
      · cases returned

/-- An operation on one table leaves the entries of a disjoint table alone. -/
theorem Extends.other_entry (extended : Extends fa kernel shared root memory own after grown)
    {otherRoot : Nat} {other : Nat → Nat → Prop}
    (otherTree : Tree fa kernel shared memory otherRoot other)
    (held : ∀ level table, own level table → ∃ index, table = fa.frameAddr index)
    (apart : ∀ level table otherLevel otherTable, own level table → other otherLevel otherTable →
      table ≠ otherTable) {level table index : Nat} (theirs : other level table)
    (inside : index < 512) : entry after table index = entry memory table index := by
  apply entry_eq_of_writes extended.2.2.writes inside
  rintro a inPage (inBitmap | ⟨grownLevel, grownTable, here, inGrown⟩)
  · exact Span.separate_iff.mp (otherTree.off_bitmap _ _ theirs) a inPage inBitmap
  · rcases extended.2.2.fresh _ _ here with mine | ⟨frame, _, rfl, free⟩
    · have different := apart _ _ _ _ mine theirs
      obtain ⟨ownIndex, rfl⟩ := held _ _ mine
      obtain ⟨theirIndex, _, rfl, _⟩ := otherTree.held _ _ theirs
      have separate : (fa.frameSpan theirIndex).Separate (fa.frameSpan ownIndex) :=
        FrameAllocator.frameSpan_separate fun same => different (by rw [same])
      exact Span.separate_iff.mp separate a inPage inGrown
    · exact Span.separate_iff.mp (otherTree.off_free theirs free) a inPage inGrown

/-- A walk from a table stays in its own pages and the kernel's. -/
theorem Tree.walk_closed (tables : KernelTables fa kernel shared memory)
    (tree : Tree fa kernel shared memory root own) :
    Closed memory fun level table => own level table ∨ shared level table := by
  rintro level table (mine | isShared) index inside isPresent
  · rcases tree.closed level table mine index inside isPresent with below | ⟨top, kernelPresent⟩
    · exact .inl below
    · subst top
      obtain rfl := tree.root_only table mine
      rw [tree.copied index inside kernelPresent]
      exact .inr (tables.closed _ _ tables.root index inside kernelPresent)
  · exact .inr (tables.closed level table isShared index inside isPresent)

/-! ## Mapping where the kernel has an entry -/

/-- `next_table` only adds to the log of writes. -/
theorem nextTable_log (covers : fa.Covers) {table index : Nat} {result : Option Nat}
    (returned : nextTable fa memory table index = (result, after)) : memory.log <:+ after.log := by
  unfold nextTable at returned
  split at returned
  · rw [(Prod.mk.inj returned).2]
  · cases scanned : fa.allocateFrame memory with
    | mk found taken =>
      obtain ⟨spans, logged, _⟩ := (FrameAllocator.allocateFrame_takes covers scanned).1.logged
      rw [scanned] at returned
      cases found with
      | none =>
        rw [← (Prod.mk.inj returned).2]
        exact ⟨spans, logged.symm⟩
      | some frame =>
        rw [← (Prod.mk.inj returned).2]
        exact ⟨_ :: _ :: spans, congrArg (fun log => _ :: _ :: log) logged.symm⟩

/-- A page of `shared` has been written since `memory`. -/
def Touched (shared : Nat → Nat → Prop) (memory after : PhysMem) : Prop :=
  ∃ spans, after.log = spans ++ memory.log ∧
    ∃ span ∈ spans, ∃ a ∈ span, ∃ level table, shared level table ∧ a ∈ page table

/-- Later writes do not undo it. -/
theorem Touched.later (touched : Touched shared memory middle) (longer : middle.log <:+ after.log) :
    Touched shared memory after := by
  obtain ⟨spans, logged, span, member, written⟩ := touched
  obtain ⟨more, longer⟩ := longer
  refine ⟨more ++ spans, ?_, span, List.mem_append_right _ member, written⟩
  rw [← longer, logged, List.append_assoc]

/-- Writing an entry of such a page. -/
theorem touched_entry {level table index : Nat} (isShared : shared level table)
    (small : index < 512) (spans : List Span)
    (logged : after.log = ⟨table + 8 * index, 8⟩ :: spans ++ memory.log) :
    Touched shared memory after := by
  have start : table + 8 * index ∈ (⟨table + 8 * index, 8⟩ : Span) :=
    Span.mem_iff.mpr ⟨Nat.le_refl _, by simp⟩
  exact ⟨_, logged, _, List.mem_cons_self, _, start, level, table, isShared,
    entry_inside small _ start⟩

/-- `next_table` from a page of the kernel, while a frame is free: it finds a page of the kernel
below, or writes a new entry. -/
theorem KernelTables.nextTable (covers : fa.Covers) (tables : KernelTables fa kernel shared memory)
    (left : 0 < fa.freeFrames memory) {level table index : Nat} (isShared : shared (level + 1) table)
    (inside : index < 512) :
    (∃ next, shared level next ∧ PageTable.nextTable fa memory table index = (some next, memory)) ∨
      Touched shared memory (PageTable.nextTable fa memory table index).2 := by
  cases found : presentTable memory table index with
  | some next =>
    have below := presentTable_eq_some.mp found
    refine .inl ⟨next, ?_, by simp only [PageTable.nextTable, found]⟩
    rw [← below.2]
    exact tables.closed level table isShared index inside below.1
  | none =>
    cases returned : fa.allocateFrame memory with
    | mk result taken =>
      obtain ⟨spans, logged, _⟩ := (FrameAllocator.allocateFrame_takes covers returned).1.logged
      rcases FrameAllocator.freeFrames_allocateFrame covers returned with ⟨_, nothing, _⟩ | ⟨some_, _⟩
      · omega
      · obtain ⟨frame, rfl⟩ := Option.isSome_iff_exists.mp some_
        refine .inr (touched_entry isShared inside (⟨frame, 4096⟩ :: spans) ?_)
        simp only [PageTable.nextTable, found, returned]
        exact congrArg (fun log => _ :: _ :: log) logged

/-- `map` at an address whose top-level entry the kernel has writes a page of the kernel, unless
no frame is left. -/
theorem map_shared (covers : fa.Covers) (tables : KernelTables fa kernel shared memory)
    (tree : Tree fa kernel shared memory root own) (left : 0 < fa.freeFrames memory) {virt : Nat}
    (isPresent : present (entry memory kernel (pml4Index virt)) = true) (phys flags : Nat) :
    Touched shared memory (map fa memory root virt phys flags).2 := by
  have small := pml4Index_lt virt
  have top := tree.copied _ small isPresent
  have pdptShared := tables.closed 2 kernel tables.root _ small isPresent
  have first : PageTable.nextTable fa memory root (pml4Index virt) =
      (some (entryAddr (entry memory kernel (pml4Index virt))), memory) := by
    have found : presentTable memory root (pml4Index virt) =
        some (entryAddr (entry memory kernel (pml4Index virt))) :=
      presentTable_eq_some.mpr ⟨by rw [top, isPresent], by rw [top]⟩
    simp only [PageTable.nextTable, found]
  have leaf (middle : PhysMem) (pt value : Nat) :
      middle.log <:+ (middle.writeU64 (pt + 8 * ptIndex virt) value).log := ⟨[_], rfl⟩
  simp only [map, first]
  rcases tables.nextTable covers left pdptShared (index_lt (virt >>> 30)) with
    ⟨pd, pdShared, second⟩ | touched
  · rw [← pdptIndex] at second
    simp only [second]
    rcases tables.nextTable covers left pdShared (index_lt (virt >>> 21)) with
      ⟨pt, ptShared, third⟩ | touched
    · rw [← pdIndex] at third
      simp only [third]
      exact touched_entry ptShared (index_lt (virt >>> 12)) [] rfl
    · rw [← pdIndex] at touched
      cases third : PageTable.nextTable fa memory pd (pdIndex virt) with
      | mk result middle =>
        rw [third] at touched
        cases result with
        | none => exact touched
        | some pt => exact touched.later (leaf middle pt _)
  · rw [← pdptIndex] at touched
    cases second : PageTable.nextTable fa memory (entryAddr (entry memory kernel (pml4Index virt)))
        (pdptIndex virt) with
    | mk result middle =>
      rw [second] at touched
      cases result with
      | none => exact touched
      | some pd =>
        cases third : PageTable.nextTable fa middle pd (pdIndex virt) with
        | mk result last =>
          have longer := touched.later (nextTable_log covers third)
          simp only [third]
          cases result with
          | none => exact longer
          | some pt => exact longer.later (leaf last pt _)

end Aperture.Mm.PageTable
