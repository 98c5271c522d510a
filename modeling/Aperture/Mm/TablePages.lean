import Aperture.Mm.MapExact

/-!
# Pages of tables

A set of pages that walks do not leave, each a table of one level, none of them free. Every
operation on a table of the set writes the bitmap and pages of the set, which grows by frames
that were free. Nothing is said about what is mapped, so this also covers a mapping that goes
through the kernel's own tables.
-/

namespace Aperture.Mm.PageTable

open Machine

/-- Pages of tables, each at one level, off the bitmap and the free frames. -/
structure TablePages (fa : FrameAllocator) (memory : PhysMem) (pages : Nat → Nat → Prop) : Prop where
  /-- Walks stay in these pages. -/
  closed : Closed memory pages
  /-- They are page-aligned. -/
  aligned : ∀ level table, pages level table → table % 4096 = 0
  /-- A page is a table of one level. -/
  level_unique : ∀ left right table, pages left table → pages right table → left = right
  /-- They avoid the bitmap. -/
  off_bitmap : ∀ level table, pages level table → (page table).Separate fa.bitmapSpan
  /-- No free frame is one of them. -/
  off_free : ∀ level table, pages level table → ∀ index < fa.frameCount,
    fa.used memory index = false → (page table).Separate (fa.frameSpan index)
  /-- No free frame holds the bitmap. -/
  free_off_bitmap : ∀ index < fa.frameCount, fa.used memory index = false →
    (fa.frameSpan index).Separate fa.bitmapSpan

variable {fa : FrameAllocator} {memory after : PhysMem} {pages grown : Nat → Nat → Prop}

/-- The pages survive a step that leaves the entries above the lowest level and releases no
frame. -/
theorem TablePages.congr (tables : TablePages fa memory pages)
    (same : ∀ level table, pages (level + 1) table → ∀ index < 512,
      entry after table index = entry memory table index)
    (released : ∀ index < fa.frameCount, fa.used after index = false →
      fa.used memory index = false) : TablePages fa after pages where
  closed level table here index inside isPresent := by
    rw [same _ _ here index inside] at isPresent ⊢
    exact tables.closed level table here index inside isPresent
  aligned := tables.aligned
  level_unique := tables.level_unique
  off_bitmap := tables.off_bitmap
  off_free level table here index inside free :=
    tables.off_free level table here index inside (released index inside free)
  free_off_bitmap index inside free :=
    tables.free_off_bitmap index inside (released index inside free)

/-- Writes to the bitmap that release nothing. -/
theorem TablePages.bitmap (tables : TablePages fa memory pages)
    (same : ∀ index < fa.frameCount, fa.used after index = fa.used memory index)
    (writes : WritesWithin fa.bitmapSpan.toSet memory after) :
    TablePages fa after pages ∧ Grows fa memory pages after pages := by
  constructor
  · apply tables.congr
    · intro level table here index inside
      exact entry_eq_of_writes writes inside
        (Span.separate_iff.mp (tables.off_bitmap _ _ here))
    · intro index inside free
      rwa [same index inside] at free
  · refine ⟨writes.mono fun _ member => .inl member, ?_, fun _ _ here => here, fun _ _ here => .inl here⟩
    intro index inside marked
    rwa [same index inside]

/-- A page of the set is no free frame. -/
theorem TablePages.ne_free (tables : TablePages fa memory pages) {level table index : Nat}
    (here : pages level table) (inside : index < fa.frameCount)
    (free : fa.used memory index = false) : table ≠ fa.frameAddr index := by
  rintro rfl
  have apart := tables.off_free level _ here index inside free
  simp only [Span.Separate, page, FrameAllocator.frameSpan, frameSize] at apart
  omega

/-- The set with one more page. -/
def withPage (pages : Nat → Nat → Prop) (level table : Nat) (otherLevel other : Nat) : Prop :=
  pages otherLevel other ∨ otherLevel = level ∧ other = table

/-- A linked table joins the set. -/
theorem TablePages.linked (tables : TablePages fa memory pages) (placed : fa.Placed)
    {level table index fresh : Nat} (here : pages (level + 1) table)
    (linked : Linked fa memory table index fresh after) :
    TablePages fa after (withPage pages level (fa.frameAddr fresh)) ∧
      Grows fa memory pages after (withPage pages level (fa.frameAddr fresh)) := by
  have freeBefore (frame : Nat) (inside : frame < fa.frameCount)
      (free : fa.used after frame = false) : fa.used memory frame = false ∧ frame ≠ fresh := by
    rw [linked.bits frame inside, Bool.or_eq_false_iff] at free
    exact ⟨free.1, of_decide_eq_false free.2⟩
  have isNew {otherLevel : Nat} (old : pages otherLevel (fa.frameAddr fresh)) : False :=
    tables.ne_free old linked.inside linked.free rfl
  refine ⟨⟨?_, ?_, ?_, ?_, ?_, ?_⟩, ?_, ?_, fun _ _ old => .inl old, ?_⟩
  · rintro otherLevel other (old | ⟨_, rfl⟩) entryIndex small isPresent
    · by_cases same : other = table
      · subst same
        have sameLevel : otherLevel = level :=
          Nat.succ.inj (tables.level_unique _ _ _ old here)
        by_cases changed : entryIndex = index
        · rw [changed, linked.link]
          exact .inr ⟨sameLevel, rfl⟩
        · rw [linked.beside entryIndex small changed] at isPresent ⊢
          exact .inl (tables.closed otherLevel other old entryIndex small isPresent)
      · have apart := page_separate (tables.aligned _ _ old) (tables.aligned _ _ here) same
        rw [linked.elsewhere other (tables.off_bitmap _ _ old)
          (tables.off_free _ _ old fresh linked.inside linked.free) apart entryIndex small]
          at isPresent ⊢
        exact .inl (tables.closed otherLevel other old entryIndex small isPresent)
    · rw [linked.empty entryIndex small] at isPresent
      cases isPresent
  · rintro otherLevel other (old | ⟨_, rfl⟩)
    · exact tables.aligned _ _ old
    · exact (frameAddr_placed placed linked.inside).1
  · rintro left right other (old | ⟨rfl, rfl⟩) (also | ⟨rightLevel, same⟩)
    · exact tables.level_unique left right other old also
    · rw [same] at old
      exact (isNew old).elim
    · exact (isNew also).elim
    · exact rightLevel.symm
  · rintro otherLevel other (old | ⟨_, rfl⟩)
    · exact tables.off_bitmap _ _ old
    · exact tables.free_off_bitmap fresh linked.inside linked.free
  · rintro otherLevel other (old | ⟨_, rfl⟩) frame inside free
    · exact tables.off_free _ _ old frame inside (freeBefore frame inside free).1
    · exact FrameAllocator.frameSpan_separate (freeBefore frame inside free).2.symm
  · intro frame inside free
    exact tables.free_off_bitmap frame inside (freeBefore frame inside free).1
  · apply linked.writes.mono
    rintro a (inBitmap | inTable | inFresh)
    · exact .inl inBitmap
    · exact .inr ⟨_, _, .inl here, inTable⟩
    · exact .inr ⟨_, _, .inr ⟨rfl, rfl⟩, inFresh⟩
  · intro frame inside marked
    rw [linked.bits frame inside, marked, Bool.true_or]
  · rintro otherLevel other (old | ⟨_, rfl⟩)
    · exact .inl old
    · exact .inr ⟨fresh, linked.inside, rfl, linked.free⟩

/-- `next_table` on a page of the set leads to one of the grown set. -/
theorem TablePages.nextTable (tables : TablePages fa memory pages) (placed : fa.Placed)
    {level table index : Nat} (here : pages (level + 1) table) (small : index < 512) :
    ∃ grown, TablePages fa (nextTable fa memory table index).2 grown ∧
      Grows fa memory pages (nextTable fa memory table index).2 grown ∧
      ∀ next, (nextTable fa memory table index).1 = some next → grown level next := by
  have stepped := nextTable_stepped placed small (tables.off_bitmap _ _ here)
    (tables.off_free _ _ here) tables.free_off_bitmap
  generalize PageTable.nextTable fa memory table index = result at stepped
  cases stepped with
  | found isPresent =>
    refine ⟨pages, tables, .refl _ _ _, fun next same => ?_⟩
    rw [← Option.some.inj same]
    exact tables.closed level table here index small isPresent
  | full _ same writes =>
    obtain ⟨kept, grows⟩ := tables.bitmap same writes
    exact ⟨pages, kept, grows, fun next failed => by cases failed⟩
  | linked fresh _ linked =>
    obtain ⟨kept, grows⟩ := tables.linked placed here linked
    refine ⟨_, kept, grows, fun next same => ?_⟩
    exact .inr ⟨rfl, (Option.some.inj same).symm⟩

/-- Writing an entry of a lowest table. -/
theorem TablePages.leaf (tables : TablePages fa memory pages) (covers : fa.Covers)
    {table index : Nat} (here : pages 0 table) (small : index < 512) (value : Nat) :
    TablePages fa (memory.writeU64 (table + 8 * index) value) pages ∧
      Grows fa memory pages (memory.writeU64 (table + 8 * index) value) pages := by
  have writes : WritesWithin (page table).toSet memory (memory.writeU64 (table + 8 * index) value) :=
    .writeU64 _ _ (entry_inside small)
  have bits (frame : Nat) (inside : frame < fa.frameCount) :=
    FrameAllocator.used_eq_of_writes covers writes
      (Span.separate_iff.mp (tables.off_bitmap _ _ here).symm) inside
  constructor
  · apply tables.congr
    · intro level other upper entryIndex entrySmall
      have differ : other ≠ table := by
        rintro rfl
        have levels := tables.level_unique _ _ _ upper here
        omega
      exact entry_eq_of_writes writes entrySmall (Span.separate_iff.mp
        (page_separate (tables.aligned _ _ upper) (tables.aligned _ _ here) differ))
    · intro frame inside free
      rwa [bits frame inside] at free
  · refine ⟨writes.mono fun a member => .inr ⟨0, table, here, member⟩, ?_, fun _ _ old => old,
      fun _ _ old => .inl old⟩
    intro frame inside marked
    rwa [bits frame inside]

/-- `map` from a top-level page of the set stays in the grown set. -/
theorem TablePages.map (tables : TablePages fa memory pages) (placed : fa.Placed) {root : Nat}
    (top : pages 3 root) (virt phys flags : Nat) :
    ∃ grown, TablePages fa (map fa memory root virt phys flags).2 grown ∧
      Grows fa memory pages (map fa memory root virt phys flags).2 grown := by
  obtain ⟨first, firstTables, firstGrows, firstNext⟩ :=
    tables.nextTable placed top (pml4Index_lt virt)
  unfold PageTable.map
  generalize PageTable.nextTable fa memory root (pml4Index virt) = result
    at firstTables firstGrows firstNext ⊢
  obtain ⟨next, middle⟩ := result
  cases next with
  | none => exact ⟨first, firstTables, firstGrows⟩
  | some pdpt =>
    obtain ⟨second, secondTables, secondGrows, secondNext⟩ :=
      firstTables.nextTable placed (firstNext pdpt rfl) (index_lt (virt >>> 30))
    have soFar := firstGrows.trans secondGrows
    dsimp only at secondTables soFar secondNext ⊢
    rw [← pdptIndex] at secondTables soFar secondNext
    generalize PageTable.nextTable fa middle pdpt (pdptIndex virt) = result
      at secondTables soFar secondNext ⊢
    obtain ⟨next, later⟩ := result
    cases next with
    | none => exact ⟨second, secondTables, soFar⟩
    | some pd =>
      obtain ⟨third, thirdTables, thirdGrows, thirdNext⟩ :=
        secondTables.nextTable placed (secondNext pd rfl) (index_lt (virt >>> 21))
      have soFar := soFar.trans thirdGrows
      dsimp only at thirdTables soFar thirdNext ⊢
      rw [← pdIndex] at thirdTables soFar thirdNext
      generalize PageTable.nextTable fa later pd (pdIndex virt) = result
        at thirdTables soFar thirdNext ⊢
      obtain ⟨next, last⟩ := result
      cases next with
      | none => exact ⟨third, thirdTables, soFar⟩
      | some pt =>
        obtain ⟨leafTables, leafGrows⟩ := thirdTables.leaf placed.covers (thirdNext pt rfl)
          (index_lt (virt >>> 12)) (phys ||| flags ||| pagePresent)
        exact ⟨third, leafTables, soFar.trans leafGrows⟩

/-- `PageTable::new` adds its root to the set, if a frame is left. -/
theorem TablePages.new (tables : TablePages fa memory pages) (placed : fa.Placed) {kernel : Nat}
    (captured : kernel ≠ 0) (top : pages 3 kernel) :
    ∃ grown, TablePages fa (new fa kernel memory).2 grown ∧
      Grows fa memory pages (new fa kernel memory).2 grown ∧
      ∀ root, (new fa kernel memory).1 = some root → grown 3 root := by
  cases returned : PageTable.new fa kernel memory with
  | mk result later =>
    cases result with
    | none =>
      have scanned := fa.allocateFrame_scanned placed.covers memory
      rw [allocateFrame_of_new_none returned] at scanned
      cases scanned with
      | full _ same writes =>
        obtain ⟨kept, grows⟩ := tables.bitmap same writes
        exact ⟨pages, kept, grows, fun root failed => by cases failed⟩
    | some root =>
      have kernelTables : KernelTables fa kernel pages memory :=
        ⟨top, tables.closed, tables.off_bitmap, tables.off_free, tables.free_off_bitmap⟩
      obtain ⟨⟨fresh, inside, rfl, free, bits⟩, kernelLater, tree, grows⟩ :=
        new_extends placed captured kernelTables returned
      have isNew {level : Nat} (old : pages level (fa.frameAddr fresh)) : False :=
        tables.ne_free old inside free rfl
      refine ⟨withPage pages 3 (fa.frameAddr fresh), ⟨?_, ?_, ?_, ?_, ?_, ?_⟩, ⟨?_, grows.kept,
        fun _ _ old => .inl old, ?_⟩, fun other same => .inr ⟨rfl, (Option.some.inj same).symm⟩⟩
      · intro level table here index small isPresent
        have walks := tree.walk_closed kernelLater level table here.symm index small isPresent
        exact walks.symm
      · rintro level table (old | ⟨_, rfl⟩)
        · exact tables.aligned _ _ old
        · exact (frameAddr_placed placed inside).1
      · rintro left right table (old | ⟨rfl, rfl⟩) (also | ⟨rightLevel, same⟩)
        · exact tables.level_unique left right table old also
        · rw [same] at old
          exact (isNew old).elim
        · exact (isNew also).elim
        · exact rightLevel.symm
      · rintro level table (old | mine)
        · exact tables.off_bitmap _ _ old
        · exact tree.off_bitmap _ _ mine
      · rintro level table (old | mine) index indexInside indexFree
        · exact kernelLater.off_free _ _ old index indexInside indexFree
        · exact tree.off_free mine indexFree
      · exact kernelLater.free_off_bitmap
      · apply grows.writes.mono
        rintro a (inBitmap | ⟨level, table, mine, inPage⟩)
        · exact .inl inBitmap
        · exact .inr ⟨level, table, .inr mine, inPage⟩
      · rintro level table (old | ⟨_, rfl⟩)
        · exact .inl old
        · exact .inr ⟨fresh, inside, rfl, free⟩

/-- The kernel's reachable pages, when each is a table of one level. -/
theorem KernelTables.tablePages {kernel : Nat}
    (unused : KernelTables fa kernel (Reaches memory kernel) memory) (aligned : kernel % 4096 = 0)
    (levels : ∀ left right table, Reaches memory kernel left table →
      Reaches memory kernel right table → left = right) :
    TablePages fa memory (Reaches memory kernel) where
  closed := unused.closed
  aligned level table here := by
    cases here with
    | root => exact aligned
    | next _ _ _ => exact (entryAddr_aligned (memory.readU64_lt _)).1
  level_unique := levels
  off_bitmap := unused.off_bitmap
  off_free := unused.off_free
  free_off_bitmap := unused.free_off_bitmap

end Aperture.Mm.PageTable
