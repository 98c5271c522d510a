import Aperture.Mm.AddressSpace
import Aperture.Mm.FrameOwnership

/-!
# Exact mappings

A table is named by the path of indices that leads to it from the root. In a tree-shaped table
different paths name different pages, so linking a table adds one path and writing a leaf changes
the translation of one page. `map_region` is that, page after page, until frames run out.
-/

namespace Aperture.Mm.PageTable

open Machine

/-- The table at a path, given with its last index first. -/
def tableAt (memory : PhysMem) (root : Nat) : List Nat → Option Nat
  | [] => some root
  | index :: above => (tableAt memory root above).bind fun table => presentTable memory table index

/-- Paths of tables: up to three nine-bit indices. -/
def IsPath (path : List Nat) : Prop := path.length ≤ 3 ∧ ∀ index ∈ path, index < 512

/-- The path of the lowest table of an address. -/
def pathOf (virt : Nat) : List Nat := [pdIndex virt, pdptIndex virt, pml4Index virt]

/-- A four-level table whose paths lead to different pages, none of them free and none holding
the bitmap; no entry above the lowest level maps a huge page. -/
structure TreeShaped (fa : FrameAllocator) (memory : PhysMem) (root : Nat) : Prop where
  /-- The root is a page. -/
  aligned : root % 4096 = 0
  /-- Different paths lead to different tables. -/
  distinct : ∀ left right table, IsPath left → IsPath right →
    tableAt memory root left = some table → tableAt memory root right = some table → left = right
  /-- No present entry above the lowest level has the page-size bit. -/
  small : ∀ path table index, IsPath (index :: path) → tableAt memory root path = some table →
    present (entry memory table index) = true → (entry memory table index).testBit 7 = false
  /-- Tables in frames are marked used. -/
  held : ∀ path table index, IsPath path → tableAt memory root path = some table →
    index < fa.frameCount → table = fa.frameAddr index → fa.used memory index = true
  /-- Tables avoid the bitmap. -/
  off_bitmap : ∀ path table, IsPath path → tableAt memory root path = some table →
    (page table).Separate fa.bitmapSpan
  /-- No free frame holds the bitmap. -/
  free_off_bitmap : ∀ index < fa.frameCount, fa.used memory index = false →
    (fa.frameSpan index).Separate fa.bitmapSpan

/-- Bits 12 to 47 of an address. -/
def pageNumber (virt : Nat) : Nat := virt / 4096 % 2 ^ 36

variable {fa : FrameAllocator} {memory after : PhysMem} {root : Nat}

/-! ## Paths -/

/-- The path of an address. -/
theorem isPath_pathOf (virt : Nat) : IsPath (pathOf virt) := by
  refine ⟨by simp [pathOf], ?_⟩
  simp only [pathOf, List.mem_cons, List.not_mem_nil, or_false, forall_eq_or_imp, forall_eq]
  exact ⟨index_lt _, index_lt _, index_lt _⟩

/-- The path above an index. -/
theorem IsPath.above {index : Nat} {path : List Nat} (isPath : IsPath (index :: path)) :
    IsPath path ∧ index < 512 ∧ path.length ≤ 2 := by
  obtain ⟨short, small⟩ := isPath
  rw [List.length_cons] at short
  refine ⟨⟨by omega, fun other member => small other (List.mem_cons_of_mem _ member)⟩,
    small index List.mem_cons_self, by omega⟩

/-- Translation reads an entry of the table at the path of the address. -/
theorem translate_eq (memory : PhysMem) (root virt : Nat) :
    translate memory root virt = (tableAt memory root (pathOf virt)).bind fun table =>
      leafAddr (entry memory table (ptIndex virt)) virt := by
  simp only [translate, pathOf, tableAt, Option.bind_eq_bind, Option.bind_some, Option.bind_assoc]

/-- The present leaf entry of an address. -/
def presentLeaf (memory : PhysMem) (root virt : Nat) : Option Nat :=
  (tableAt memory root (pathOf virt)).bind fun table =>
    if present (entry memory table (ptIndex virt)) then some (entry memory table (ptIndex virt))
    else none

/-- Translation adds the offset to the frame of the leaf. -/
theorem translate_eq_leaf (memory : PhysMem) (root virt : Nat) :
    translate memory root virt =
      (presentLeaf memory root virt).map fun leaf => entryAddr leaf ||| (virt &&& 0xFFF) := by
  rw [translate_eq, presentLeaf]
  cases tableAt memory root (pathOf virt) with
  | none => rfl
  | some table =>
    simp only [Option.bind_some, leafAddr]
    split
    · rfl
    · rfl

/-- Two addresses have the same path and the same leaf exactly when they agree on bits 12 to
47. -/
theorem pathOf_eq_iff (left right : Nat) :
    pathOf left = pathOf right ∧ ptIndex left = ptIndex right ↔
      pageNumber left = pageNumber right := by
  simp only [pathOf, List.cons.injEq, and_true, pml4Index, pdptIndex, pdIndex, ptIndex, index_eq,
    pageNumber]
  omega

/-- Translation does not look at the bits of an address from 48 on. -/
theorem translate_add_high (memory : PhysMem) (root virt : Nat) :
    translate memory root (virt + 2 ^ 48) = translate memory root virt := by
  have samePage : pageNumber (virt + 2 ^ 48) = pageNumber virt := by
    unfold pageNumber
    omega
  have sameOffset : (virt + 2 ^ 48) &&& 0xFFF = virt &&& 0xFFF := by
    rw [show (0xFFF : Nat) = 2 ^ 12 - 1 from rfl, Nat.and_two_pow_sub_one_eq_mod,
      Nat.and_two_pow_sub_one_eq_mod]
    omega
  obtain ⟨samePath, sameIndex⟩ := (pathOf_eq_iff _ _).mpr samePage
  simp only [translate_eq, samePath, sameIndex, leafAddr, sameOffset]

/-- So some address never translates to itself. -/
theorem exists_translate_ne (memory : PhysMem) (root : Nat) :
    ∃ virt, virt ≠ 0 ∧ virt < wordSize ∧ translate memory root virt ≠ some virt := by
  by_contra identity
  push Not at identity
  have low := identity 0x1000 (by decide) (by decide)
  have high := identity (0x1000 + 2 ^ 48) (by decide) (by decide)
  rw [translate_add_high, low] at high
  exact absurd (Option.some.inj high) (by decide)

/-- Pages are equal or apart. -/
theorem page_separate {left right : Nat} (leftAligned : left % 4096 = 0)
    (rightAligned : right % 4096 = 0) (differ : left ≠ right) :
    (page left).Separate (page right) := by
  apply Span.separate_iff.mpr
  intro a inside alsoInside
  simp only [page, Span.mem_iff] at inside alsoInside
  omega

/-- Below an aligned root, tables are pages. -/
theorem tableAt_aligned {path : List Nat} {table : Nat} (aligned : root % 4096 = 0)
    (found : tableAt memory root path = some table) : table % 4096 = 0 := by
  cases path with
  | nil =>
    obtain rfl := Option.some.inj found
    exact aligned
  | cons index above =>
    obtain ⟨upper, _, next⟩ := Option.bind_eq_some_iff.mp found
    obtain ⟨_, rfl⟩ := presentTable_eq_some.mp next
    exact (entryAddr_aligned (memory.readU64_lt _)).1

/-- Tables are pages. -/
theorem TreeShaped.table_aligned (shaped : TreeShaped fa memory root) {path : List Nat}
    {table : Nat} (found : tableAt memory root path = some table) : table % 4096 = 0 :=
  tableAt_aligned shaped.aligned found

/-- Tables at different paths are apart. -/
theorem TreeShaped.separate (shaped : TreeShaped fa memory root) {left right : List Nat}
    {table other : Nat} (leftPath : IsPath left) (rightPath : IsPath right)
    (found : tableAt memory root left = some table) (also : tableAt memory root right = some other)
    (differ : left ≠ right) : (page table).Separate (page other) := by
  refine page_separate (shaped.table_aligned found) (shaped.table_aligned also) ?_
  rintro rfl
  exact differ (shaped.distinct _ _ _ leftPath rightPath found also)

/-- A table is no free frame. -/
theorem TreeShaped.off_free (shaped : TreeShaped fa memory root) (placed : fa.Placed)
    {path : List Nat} {table index : Nat} (isPath : IsPath path)
    (found : tableAt memory root path = some table) (inside : index < fa.frameCount)
    (free : fa.used memory index = false) : (page table).Separate (fa.frameSpan index) := by
  refine page_separate (shaped.table_aligned found) (frameAddr_placed placed inside).1 ?_
  intro same
  rw [shaped.held path table index isPath found inside same] at free
  cases free

/-! ## What a step changes -/

/-- Entries above the lowest level are unchanged. -/
def UpperSame (memory after : PhysMem) (root : Nat) : Prop :=
  ∀ path table index, IsPath (index :: path) → tableAt memory root path = some table →
    entry after table index = entry memory table index

/-- The same entries lead to the same tables. -/
theorem tableAt_congr (same : UpperSame memory after root) {path : List Nat} (isPath : IsPath path) :
    tableAt after root path = tableAt memory root path := by
  induction path with
  | nil => rfl
  | cons index above ih =>
    simp only [tableAt, ih isPath.above.1]
    cases found : tableAt memory root above with
    | none => rfl
    | some table => exact presentTable_congr (same above table index isPath found)

/-- Such a step keeps the tree, while no frame is released. -/
theorem TreeShaped.congr (shaped : TreeShaped fa memory root) (same : UpperSame memory after root)
    (kept : ∀ index < fa.frameCount, fa.used memory index = true → fa.used after index = true) :
    TreeShaped fa after root where
  aligned := shaped.aligned
  distinct left right table leftPath rightPath found also := by
    rw [tableAt_congr same leftPath] at found
    rw [tableAt_congr same rightPath] at also
    exact shaped.distinct left right table leftPath rightPath found also
  small path table index isPath found here := by
    rw [tableAt_congr same isPath.above.1] at found
    rw [same path table index isPath found] at here ⊢
    exact shaped.small path table index isPath found here
  held path table index isPath found inside address := by
    rw [tableAt_congr same isPath] at found
    exact kept index inside (shaped.held path table index isPath found inside address)
  off_bitmap path table isPath found := by
    rw [tableAt_congr same isPath] at found
    exact shaped.off_bitmap path table isPath found
  free_off_bitmap index inside free := by
    apply shaped.free_off_bitmap index inside
    by_contra marked
    rw [kept index inside (Bool.not_eq_false _ ▸ marked)] at free
    cases free

/-- The entry that `next_table` links. -/
theorem nextTable_entry {table index next : Nat} (fits : next < wordSize)
    (absent : present (entry memory table index) = false)
    (linked : nextTable fa memory table index = (some next, after)) :
    entry after table index = next ||| 7 := by
  have missing : presentTable memory table index = none := by
    rw [presentTable, absent]
    rfl
  simp only [nextTable, missing] at linked
  cases taken : fa.allocateFrame memory with
  | mk frame middle =>
    rw [taken] at linked
    cases frame with
    | none => cases linked
    | some frame =>
      simp only [Prod.mk.injEq, Option.some.injEq] at linked
      obtain ⟨rfl, rfl⟩ := linked
      have value : frame ||| pagePresent ||| pageWritable ||| pageUser = frame ||| 7 := by
        rw [Nat.or_assoc, Nat.or_assoc]
        rfl
      rw [value, entry, PhysMem.readU64_writeU64 _ _ (Nat.or_lt_two_pow fits (by decide))]

section Linking

variable {path : List Nat} {table index fresh : Nat}

/-- Linking a table changes one entry of the tables there are. -/
theorem Linked.entry_same (linked : Linked fa memory table index fresh after)
    (shaped : TreeShaped fa memory root) (placed : fa.Placed) (isPath : IsPath path)
    (found : tableAt memory root path = some table) {other : List Nat} {otherTable entryIndex : Nat}
    (otherPath : IsPath other) (small : entryIndex < 512)
    (otherFound : tableAt memory root other = some otherTable)
    (differ : ¬(other = path ∧ entryIndex = index)) :
    entry after otherTable entryIndex = entry memory otherTable entryIndex := by
  by_cases same : other = path
  · rw [same, found, Option.some.injEq] at otherFound
    rw [← otherFound]
    exact linked.beside entryIndex small fun equal => differ ⟨same, equal⟩
  · exact linked.elsewhere otherTable (shaped.off_bitmap other otherTable otherPath otherFound)
      (shaped.off_free placed otherPath otherFound linked.inside linked.free)
      (shaped.separate otherPath isPath otherFound found same) entryIndex small

/-- Linking a table adds one path. -/
theorem Linked.tableAt_eq (linked : Linked fa memory table index fresh after)
    (shaped : TreeShaped fa memory root) (placed : fa.Placed) (isPath : IsPath (index :: path))
    (found : tableAt memory root path = some table)
    (absent : present (entry memory table index) = false)
    (written : entry after table index = fa.frameAddr fresh ||| 7) {other : List Nat}
    (otherPath : IsPath other) :
    tableAt after root other =
      if other = index :: path then some (fa.frameAddr fresh) else tableAt memory root other := by
  have isHere : present (entry after table index) = true := by
    rw [written, present, pagePresent]
    have low : (fa.frameAddr fresh ||| 7) &&& 2 ^ 0 = 1 := by
      rw [Nat.and_two_pow, Nat.testBit_or]
      simp
    rw [low]
    rfl
  have missing : tableAt memory root (index :: path) = none := by
    rw [tableAt, found, Option.bind_some, presentTable, absent]
    rfl
  induction other with
  | nil => simp [tableAt]
  | cons last above ih =>
    obtain ⟨abovePath, lastSmall, _⟩ := otherPath.above
    rw [tableAt, ih abovePath]
    by_cases below : above = index :: path
    · have longer : last :: above ≠ index :: path := by
        rintro equal
        have lengths := congrArg List.length below
        rw [(List.cons.inj equal).2] at lengths
        simp at lengths
      rw [if_pos below, if_neg longer, tableAt, below, missing, Option.bind_some, presentTable,
        linked.empty last lastSmall]
      rfl
    · rw [if_neg below]
      cases aboveFound : tableAt memory root above with
      | none =>
        have elsewhere : last :: above ≠ index :: path := by
          rintro equal
          rw [(List.cons.inj equal).2, found] at aboveFound
          cases aboveFound
        rw [if_neg elsewhere, tableAt, aboveFound]
        rfl
      | some upper =>
        rw [Option.bind_some]
        by_cases changed : last :: above = index :: path
        · obtain ⟨rfl, rfl⟩ := List.cons.inj changed
          rw [found, Option.some.injEq] at aboveFound
          rw [if_pos rfl, ← aboveFound]
          exact presentTable_eq_some.mpr ⟨isHere, linked.link⟩
        · rw [if_neg changed, tableAt, aboveFound, Option.bind_some]
          refine presentTable_congr (linked.entry_same shaped placed isPath.above.1 found abovePath
            lastSmall aboveFound ?_)
          rintro ⟨rfl, rfl⟩
          exact changed rfl

/-- The linked table keeps the tree. -/
theorem TreeShaped.linked (shaped : TreeShaped fa memory root) (placed : fa.Placed)
    (linked : Linked fa memory table index fresh after) (isPath : IsPath (index :: path))
    (found : tableAt memory root path = some table)
    (absent : present (entry memory table index) = false)
    (written : entry after table index = fa.frameAddr fresh ||| 7) : TreeShaped fa after root := by
  have paths {other : List Nat} (otherPath : IsPath other) :=
    linked.tableAt_eq shaped placed isPath found absent written otherPath
  have isNew {other : List Nat} (otherPath : IsPath other)
      (old : tableAt memory root other = some (fa.frameAddr fresh)) : False := by
    have marked := shaped.held other _ fresh otherPath old linked.inside rfl
    rw [linked.free] at marked
    cases marked
  refine ⟨shaped.aligned, ?_, ?_, ?_, ?_, ?_⟩
  · intro left right other leftPath rightPath leftFound rightFound
    rw [paths leftPath] at leftFound
    rw [paths rightPath] at rightFound
    by_cases leftNew : left = index :: path
    · by_cases rightNew : right = index :: path
      · rw [leftNew, rightNew]
      · rw [if_pos leftNew, Option.some.injEq] at leftFound
        rw [if_neg rightNew, ← leftFound] at rightFound
        exact (isNew rightPath rightFound).elim
    · rw [if_neg leftNew] at leftFound
      by_cases rightNew : right = index :: path
      · rw [if_pos rightNew, Option.some.injEq] at rightFound
        rw [← rightFound] at leftFound
        exact (isNew leftPath leftFound).elim
      · rw [if_neg rightNew] at rightFound
        exact shaped.distinct left right other leftPath rightPath leftFound rightFound
  · intro other otherTable entryIndex entryPath otherFound here
    obtain ⟨otherPath, entrySmall, _⟩ := entryPath.above
    rw [paths otherPath] at otherFound
    by_cases new : other = index :: path
    · rw [if_pos new, Option.some.injEq] at otherFound
      rw [← otherFound, linked.empty entryIndex entrySmall] at here
      cases here
    · rw [if_neg new] at otherFound
      by_cases changed : other = path ∧ entryIndex = index
      · obtain ⟨rfl, rfl⟩ := changed
        rw [found, Option.some.injEq] at otherFound
        rw [← otherFound, written, Nat.testBit_or]
        have multiple : fa.frameAddr fresh = 2 ^ 12 * (fa.frameAddr fresh / 4096) := by
          have aligned := (frameAddr_placed placed linked.inside).1
          omega
        rw [multiple, Nat.testBit_two_pow_mul]
        rfl
      · have unchanged := linked.entry_same shaped placed isPath.above.1 found otherPath entrySmall
          otherFound changed
        rw [unchanged] at here ⊢
        exact shaped.small other otherTable entryIndex entryPath otherFound here
  · intro other otherTable frame otherPath otherFound inside address
    rw [linked.bits frame inside]
    rw [paths otherPath] at otherFound
    by_cases new : other = index :: path
    · rw [if_pos new, Option.some.injEq] at otherFound
      rw [address] at otherFound
      simp [FrameAllocator.frameAddr_injective otherFound]
    · rw [if_neg new] at otherFound
      rw [shaped.held other otherTable frame otherPath otherFound inside address, Bool.true_or]
  · intro other otherTable otherPath otherFound
    rw [paths otherPath] at otherFound
    by_cases new : other = index :: path
    · rw [if_pos new, Option.some.injEq] at otherFound
      rw [← otherFound]
      exact shaped.free_off_bitmap fresh linked.inside linked.free
    · rw [if_neg new] at otherFound
      exact shaped.off_bitmap other otherTable otherPath otherFound
  · intro frame inside free
    rw [linked.bits frame inside, Bool.or_eq_false_iff] at free
    exact shaped.free_off_bitmap frame inside free.1

/-- An empty table maps nothing, so no leaf changes. -/
theorem Linked.presentLeaf_eq (linked : Linked fa memory table index fresh after)
    (shaped : TreeShaped fa memory root) (placed : fa.Placed) (isPath : IsPath (index :: path))
    (found : tableAt memory root path = some table)
    (absent : present (entry memory table index) = false)
    (written : entry after table index = fa.frameAddr fresh ||| 7) (virt : Nat) :
    presentLeaf after root virt = presentLeaf memory root virt := by
  have isPathOf := isPath_pathOf virt
  have leafSmall : ptIndex virt < 512 := index_lt _
  rw [presentLeaf, presentLeaf,
    linked.tableAt_eq shaped placed isPath found absent written isPathOf]
  by_cases new : pathOf virt = index :: path
  · have missing : tableAt memory root (pathOf virt) = none := by
      rw [new, tableAt, found, Option.bind_some, presentTable, absent]
      rfl
    rw [if_pos new, missing, Option.bind_some, linked.empty _ leafSmall]
    rfl
  · rw [if_neg new]
    cases leafFound : tableAt memory root (pathOf virt) with
    | none => rfl
    | some leaf =>
      have lowest : ¬(pathOf virt = path ∧ ptIndex virt = index) := by
        rintro ⟨rfl, _⟩
        exact absurd isPath.above.2.2 (by simp [pathOf])
      rw [Option.bind_some, Option.bind_some, linked.entry_same shaped placed isPath.above.1 found
        isPathOf leafSmall leafFound lowest]

end Linking

/-- `next_table` finds no frame only when none is free. -/
theorem nextTable_full (covers : fa.Covers) {table index : Nat}
    (absent : present (entry memory table index) = false)
    (failed : nextTable fa memory table index = (none, after)) : fa.freeFrames memory = 0 := by
  have missing : presentTable memory table index = none := by
    rw [presentTable, absent]
    rfl
  simp only [nextTable, missing] at failed
  cases taken : fa.allocateFrame memory with
  | mk frame middle =>
    rw [taken] at failed
    cases frame with
    | none =>
      rcases FrameAllocator.freeFrames_allocateFrame covers taken with ⟨_, nothing, _⟩ | ⟨some_, _⟩
      · exact nothing
      · cases some_
    | some frame => cases failed

/-- How `next_table` can end: the table was there, or no frame was left, or one was taken. -/
inductive TableOutcome (fa : FrameAllocator) (memory after : PhysMem) :
    Option Nat → Option Nat → Prop
  /-- The table was there. -/
  | there (table : Nat) (same : fa.freeFrames after = fa.freeFrames memory) :
      TableOutcome fa memory after (some table) (some table)
  /-- No frame is left. -/
  | full (nothing : fa.freeFrames memory = 0) (still : fa.freeFrames after = 0) :
      TableOutcome fa memory after none none
  /-- A free frame is the table. -/
  | taken {index : Nat} (inside : index < fa.frameCount) (free : fa.used memory index = false)
      (fewer : fa.freeFrames after + 1 = fa.freeFrames memory) :
      TableOutcome fa memory after none (some (fa.frameAddr index))

/-- What a call of `next_table` for the table at a path does to a tree. -/
structure TableStep (fa : FrameAllocator) (memory : PhysMem) (root : Nat) (path : List Nat)
    (result : Option Nat × PhysMem) : Prop where
  /-- It keeps the tree. -/
  shaped : TreeShaped fa result.2 root
  /-- No leaf changes. -/
  leaves : ∀ virt, presentLeaf result.2 root virt = presentLeaf memory root virt
  /-- It returns the table at the path. -/
  found : tableAt result.2 root path = result.1
  /-- The table was there or is new. -/
  outcome : TableOutcome fa memory result.2 (tableAt memory root path) result.1
  /-- No other path changes. -/
  others : ∀ other, IsPath other → other ≠ path →
    tableAt result.2 root other = tableAt memory root other
  /-- No frame is released. -/
  kept : ∀ index < fa.frameCount, fa.used memory index = true → fa.used result.2 index = true

/-- `next_table` on a tree. -/
theorem nextTable_step (shaped : TreeShaped fa memory root) (placed : fa.Placed) {path : List Nat}
    {table index : Nat} (isPath : IsPath (index :: path))
    (found : tableAt memory root path = some table) :
    TableStep fa memory root (index :: path) (nextTable fa memory table index) := by
  obtain ⟨abovePath, small, _⟩ := isPath.above
  have stepped := nextTable_stepped placed small (shaped.off_bitmap path table abovePath found)
    (fun other inside free => shaped.off_free placed abovePath found inside free)
    shaped.free_off_bitmap
  generalize resultEq : nextTable fa memory table index = result at stepped
  cases stepped with
  | found here =>
    have old : tableAt memory root (index :: path) = some (entryAddr (entry memory table index)) := by
      rw [tableAt, found, Option.bind_some, presentTable, if_pos here]
    refine ⟨shaped, fun _ => rfl, old, ?_, fun _ _ _ => rfl, fun _ _ marked => marked⟩
    rw [old]
    exact .there _ rfl
  | @full later absent same writes =>
    have entries {other : List Nat} {otherTable entryIndex : Nat} (otherPath : IsPath other)
        (entrySmall : entryIndex < 512) (otherFound : tableAt memory root other = some otherTable) :
        entry later otherTable entryIndex = entry memory otherTable entryIndex :=
      entry_eq_of_writes writes entrySmall
        (Span.separate_iff.mp (shaped.off_bitmap other otherTable otherPath otherFound))
    have upper : UpperSame memory later root := fun other otherTable entryIndex entryPath =>
      entries entryPath.above.1 entryPath.above.2.1
    have missing : tableAt memory root (index :: path) = none := by
      rw [tableAt, found, Option.bind_some, presentTable, absent]
      rfl
    have nothing : fa.freeFrames memory = 0 := nextTable_full placed.covers absent resultEq
    have kept (frame : Nat) (inside : frame < fa.frameCount) (marked : fa.used memory frame = true) :
        fa.used later frame = true := by rwa [same frame inside]
    refine ⟨shaped.congr upper kept, fun virt => ?_, ?_, ?_, fun other otherPath _ =>
      tableAt_congr upper otherPath, kept⟩
    · have isPathOf := isPath_pathOf virt
      rw [presentLeaf, presentLeaf, tableAt_congr upper isPathOf]
      cases leafFound : tableAt memory root (pathOf virt) with
      | none => rfl
      | some leaf =>
        have leafSmall : ptIndex virt < 512 := index_lt _
        rw [Option.bind_some, Option.bind_some, entries isPathOf leafSmall leafFound]
    · rw [tableAt_congr upper isPath, missing]
    · rw [missing]
      exact .full nothing ((FrameAllocator.freeFrames_congr same).trans nothing)
  | @linked later fresh absent linked =>
    have fits := (frameAddr_placed placed linked.inside).2
    have written := nextTable_entry fits absent resultEq
    have paths {other : List Nat} (otherPath : IsPath other) :=
      linked.tableAt_eq shaped placed isPath found absent written otherPath
    have missing : tableAt memory root (index :: path) = none := by
      rw [tableAt, found, Option.bind_some, presentTable, absent]
      rfl
    refine ⟨shaped.linked placed linked isPath found absent written,
      linked.presentLeaf_eq shaped placed isPath found absent written, ?_, ?_,
      fun other otherPath differ => ?_, fun frame inside marked => ?_⟩
    · rw [paths isPath, if_pos rfl]
    · rw [missing]
      exact .taken linked.inside linked.free
        (FrameAllocator.freeFrames_taken linked.inside linked.free linked.bits)
    · rw [paths otherPath, if_neg differ]
    · rw [linked.bits frame inside, marked, Bool.true_or]

/-- Writing a leaf changes the leaf of one page. -/
theorem leaf_exact (shaped : TreeShaped fa memory root) (placed : fa.Placed) {virt table leaf : Nat}
    (found : tableAt memory root (pathOf virt) = some table) (fits : leaf < wordSize) :
    TreeShaped fa (memory.writeU64 (table + 8 * ptIndex virt) leaf) root ∧
      (∀ other, presentLeaf (memory.writeU64 (table + 8 * ptIndex virt) leaf) root other =
        if pageNumber other = pageNumber virt then (if present leaf then some leaf else none)
        else presentLeaf memory root other) ∧
      (∀ other, IsPath other → tableAt (memory.writeU64 (table + 8 * ptIndex virt) leaf) root other =
        tableAt memory root other) ∧
      ∀ frame < fa.frameCount, fa.used (memory.writeU64 (table + 8 * ptIndex virt) leaf) frame =
        fa.used memory frame := by
  have isPathOf := isPath_pathOf virt
  have leafSmall : ptIndex virt < 512 := index_lt _
  have writes : WritesWithin (page table).toSet memory
      (memory.writeU64 (table + 8 * ptIndex virt) leaf) :=
    .writeU64 _ _ (entry_inside leafSmall)
  have elsewhere {other : List Nat} {otherTable entryIndex : Nat} (otherPath : IsPath other)
      (entrySmall : entryIndex < 512) (otherFound : tableAt memory root other = some otherTable)
      (differ : other ≠ pathOf virt) :
      entry (memory.writeU64 (table + 8 * ptIndex virt) leaf) otherTable entryIndex =
        entry memory otherTable entryIndex :=
    entry_eq_of_writes writes entrySmall (Span.separate_iff.mp
      (shaped.separate otherPath isPathOf otherFound found differ))
  have upper : UpperSame memory (memory.writeU64 (table + 8 * ptIndex virt) leaf) root := by
    intro other otherTable entryIndex entryPath otherFound
    refine elsewhere entryPath.above.1 entryPath.above.2.1 otherFound ?_
    rintro rfl
    exact absurd entryPath.above.2.2 (by simp [pathOf])
  have bits (frame : Nat) (inside : frame < fa.frameCount) :=
    FrameAllocator.used_eq_of_writes placed.covers writes
      (Span.separate_iff.mp (shaped.off_bitmap _ table isPathOf found).symm) inside
  refine ⟨shaped.congr upper fun frame inside marked => ?_, fun other => ?_,
    fun other => tableAt_congr upper, bits⟩
  · rwa [bits frame inside]
  have otherSmall : ptIndex other < 512 := index_lt _
  rw [presentLeaf, presentLeaf, tableAt_congr upper (isPath_pathOf other)]
  by_cases samePath : pathOf other = pathOf virt
  · rw [samePath, found, Option.bind_some, Option.bind_some]
    by_cases sameLeaf : ptIndex other = ptIndex virt
    · rw [if_pos ((pathOf_eq_iff other virt).mp ⟨samePath, sameLeaf⟩), sameLeaf, entry,
        PhysMem.readU64_writeU64 _ _ fits]
    · rw [if_neg fun same => sameLeaf ((pathOf_eq_iff other virt).mpr same).2, entry,
        PhysMem.readU64_writeU64_separate _ _ (by omega), ← entry]
  · rw [if_neg fun same => samePath ((pathOf_eq_iff other virt).mpr same).1]
    cases otherFound : tableAt memory root (pathOf other) with
    | none => rfl
    | some otherTable =>
      rw [Option.bind_some, Option.bind_some,
        elsewhere (isPath_pathOf other) otherSmall otherFound samePath]

/-! ## Mapping -/

/-- What `map` does: map one page, or nothing when no frame is left. -/
inductive MapsPage (fa : FrameAllocator) (memory : PhysMem) (root virt leaf : Nat) :
    Bool × PhysMem → Prop
  /-- The page is mapped. -/
  | mapped {after : PhysMem} (shaped : TreeShaped fa after root)
      (translates : ∀ other, translate after root other =
        if pageNumber other = pageNumber virt then leafAddr leaf other
        else translate memory root other) : MapsPage fa memory root virt leaf (true, after)
  /-- No frame is left for a table. -/
  | full {after : PhysMem} (shaped : TreeShaped fa after root)
      (translates : ∀ other, translate after root other = translate memory root other)
      (all : ∀ frame < fa.frameCount, fa.used after frame = true) :
      MapsPage fa memory root virt leaf (false, after)

/-- The paths of the three tables above the leaf of an address. -/
theorem isPath_upper (virt : Nat) :
    IsPath [pml4Index virt] ∧ IsPath [pdptIndex virt, pml4Index virt] := by
  obtain ⟨_, small⟩ := isPath_pathOf virt
  have pdptSmall := small (pdptIndex virt) (by simp [pathOf])
  have pml4Small := small (pml4Index virt) (by simp [pathOf])
  exact ⟨⟨by simp, by simpa using pml4Small⟩, ⟨by simp, by simpa using ⟨pdptSmall, pml4Small⟩⟩⟩

/-- The calls of `map`: up to three of `next_table`, each where the last one led, and then the
write of the leaf. -/
inductive MapSteps (fa : FrameAllocator) (memory : PhysMem) (root virt leaf : Nat) :
    Bool × PhysMem → Prop
  /-- No frame for the first table. -/
  | first {last : PhysMem} (one : TableStep fa memory root [pml4Index virt] (none, last)) :
      MapSteps fa memory root virt leaf (false, last)
  /-- No frame for the second. -/
  | second {pdpt : Nat} {middle last : PhysMem}
      (one : TableStep fa memory root [pml4Index virt] (some pdpt, middle))
      (two : TableStep fa middle root [pdptIndex virt, pml4Index virt] (none, last)) :
      MapSteps fa memory root virt leaf (false, last)
  /-- No frame for the third. -/
  | third {pdpt pd : Nat} {middle later last : PhysMem}
      (one : TableStep fa memory root [pml4Index virt] (some pdpt, middle))
      (two : TableStep fa middle root [pdptIndex virt, pml4Index virt] (some pd, later))
      (three : TableStep fa later root (pathOf virt) (none, last)) :
      MapSteps fa memory root virt leaf (false, last)
  /-- The leaf is written. -/
  | mapped {pdpt pd pt : Nat} {middle later last : PhysMem}
      (one : TableStep fa memory root [pml4Index virt] (some pdpt, middle))
      (two : TableStep fa middle root [pdptIndex virt, pml4Index virt] (some pd, later))
      (three : TableStep fa later root (pathOf virt) (some pt, last)) :
      MapSteps fa memory root virt leaf (true, last.writeU64 (pt + 8 * ptIndex virt) leaf)

/-- The four levels of `map`. -/
theorem map_steps (shaped : TreeShaped fa memory root) (placed : fa.Placed)
    (virt phys flags : Nat) :
    MapSteps fa memory root virt (phys ||| flags ||| pagePresent)
      (map fa memory root virt phys flags) := by
  obtain ⟨firstPath, secondPath⟩ := isPath_upper virt
  unfold map
  have one := nextTable_step shaped placed firstPath rfl
  generalize nextTable fa memory root (pml4Index virt) = result at one
  obtain ⟨next, middle⟩ := result
  cases next with
  | none => exact .first one
  | some pdpt =>
    have two := nextTable_step one.shaped placed secondPath one.found
    dsimp only at two ⊢
    generalize nextTable fa middle pdpt (pdptIndex virt) = result at two
    obtain ⟨next, later⟩ := result
    cases next with
    | none => exact .second one two
    | some pd =>
      have three := nextTable_step two.shaped placed (isPath_pathOf virt) two.found
      dsimp only at three ⊢
      generalize nextTable fa later pd (pdIndex virt) = result at three
      obtain ⟨next, last⟩ := result
      cases next with
      | none => exact .third one two three
      | some pt => exact .mapped one two three

/-- A leaf written by `map` is present. -/
theorem present_leaf (phys flags : Nat) : present (phys ||| flags ||| pagePresent) = true := by
  have low : (phys ||| flags ||| pagePresent) &&& pagePresent = pagePresent := by
    rw [pagePresent, Nat.and_two_pow, Nat.testBit_or]
    simp
  rw [present, low]
  rfl

/-- A call that finds no table leaves no frame free. -/
theorem TableStep.all_used {path : List Nat} {last : PhysMem}
    (step : TableStep fa memory root path (none, last)) :
    ∀ frame < fa.frameCount, fa.used last frame = true := by
  have outcome := step.outcome
  generalize tableAt memory root path = before at outcome
  cases outcome with
  | full _ still => exact FrameAllocator.used_of_freeFrames_eq_zero still

/-- `map` on a tree, as translation sees it. -/
theorem map_mapsPage (shaped : TreeShaped fa memory root) (placed : fa.Placed)
    {virt phys flags : Nat} (physFits : phys < wordSize) (flagsFit : flags < wordSize) :
    MapsPage fa memory root virt (phys ||| flags ||| pagePresent)
      (map fa memory root virt phys flags) := by
  have leafFits : phys ||| flags ||| pagePresent < wordSize :=
    Nat.or_lt_two_pow (Nat.or_lt_two_pow physFits flagsFit) (by decide)
  have same {later : PhysMem} (other : Nat)
      (leaves : presentLeaf later root other = presentLeaf memory root other) :
      translate later root other = translate memory root other := by
    rw [translate_eq_leaf, translate_eq_leaf, leaves]
  have steps := map_steps shaped placed virt phys flags
  generalize map fa memory root virt phys flags = result at steps
  cases steps with
  | first one => exact .full one.shaped (fun other => same other (one.leaves other)) one.all_used
  | second one two =>
    exact .full two.shaped (fun other => same other ((two.leaves other).trans (one.leaves other)))
      two.all_used
  | third one two three =>
    exact .full three.shaped (fun other => same other
      ((three.leaves other).trans ((two.leaves other).trans (one.leaves other)))) three.all_used
  | mapped one two three =>
    obtain ⟨kept, leaves, _⟩ := leaf_exact three.shaped placed three.found leafFits
    refine .mapped kept fun other => ?_
    rw [translate_eq_leaf, leaves other, if_pos (present_leaf phys flags)]
    by_cases samePage : pageNumber other = pageNumber virt
    · rw [if_pos samePage, if_pos samePage, leafAddr, if_pos (present_leaf phys flags)]
      rfl
    · rw [if_neg samePage, if_neg samePage, ← translate_eq_leaf]
      exact same other ((three.leaves other).trans ((two.leaves other).trans (one.leaves other)))

/-- A call takes one frame at most, and finds no table only when none is free. -/
theorem TableStep.freeFrames_le {path : List Nat} {result : Option Nat × PhysMem}
    (step : TableStep fa memory root path result) :
    (result.1 = none → fa.freeFrames memory = 0) ∧
      fa.freeFrames memory ≤ fa.freeFrames result.2 + 1 := by
  have outcome := step.outcome
  generalize tableAt memory root path = before at outcome
  generalize result.1 = found at outcome
  cases outcome with
  | there table same => exact ⟨nofun, by omega⟩
  | full nothing still => exact ⟨fun _ => nothing, by omega⟩
  | taken inside free fewer => exact ⟨nofun, by omega⟩

/-- With three free frames `map` succeeds. -/
theorem map_returns_true (shaped : TreeShaped fa memory root) (placed : fa.Placed)
    (virt phys flags : Nat) (enough : 3 ≤ fa.freeFrames memory) :
    (map fa memory root virt phys flags).1 = true := by
  have steps := map_steps shaped placed virt phys flags
  generalize map fa memory root virt phys flags = result at steps
  cases steps with
  | first one =>
    have nothing := one.freeFrames_le.1 rfl
    omega
  | second one two =>
    have left := one.freeFrames_le.2
    have nothing := two.freeFrames_le.1 rfl
    dsimp only at left
    omega
  | third one two three =>
    have left := one.freeFrames_le.2
    have leftAgain := two.freeFrames_le.2
    have nothing := three.freeFrames_le.1 rfl
    dsimp only at left leftAgain
    omega
  | mapped one two three => rfl

/-- The first pages of a region are mapped and nothing else has changed. -/
structure MappedUpTo (fa : FrameAllocator) (memory : PhysMem) (root virtBase physBase count : Nat)
    (after : PhysMem) : Prop where
  /-- The table is a tree. -/
  shaped : TreeShaped fa after root
  /-- The pages are mapped, each to its frame. -/
  mapped : ∀ i < count, ∀ offset < 4096,
    translate after root (virtBase + 4096 * i + offset) = some (physBase + 4096 * i + offset)
  /-- Other pages translate as before. -/
  unchanged : ∀ virt, (∀ i < count, pageNumber virt ≠ pageNumber (virtBase + 4096 * i)) →
    translate after root virt = translate memory root virt

/-- A leaf gives an address in its frame. -/
theorem leafAddr_eq {phys flags virt : Nat} (aligned : phys % 4096 = 0) (fits : phys < wordSize)
    (small : flags < 4096) :
    leafAddr (phys ||| flags ||| pagePresent) virt = some (phys + virt % 4096) := by
  have marked : flags ||| pagePresent < 4096 := @Nat.or_lt_two_pow _ _ 12 small (by decide)
  have leafFits : phys ||| (flags ||| pagePresent) < wordSize :=
    Nat.or_lt_two_pow fits (marked.trans (by decide))
  rw [leafAddr_offset (by rwa [Nat.or_assoc]), if_pos (present_leaf phys flags), Nat.or_assoc,
    entryAddr_or aligned fits marked]

/-- One more page. -/
theorem MappedUpTo.next {virtBase physBase count flags : Nat} {middle : PhysMem}
    (upTo : MappedUpTo fa memory root virtBase physBase count middle)
    (virtAligned : virtBase % 4096 = 0) (physAligned : physBase % 4096 = 0)
    (few : count < 2 ^ 36) (physFits : physBase + 4096 * count < wordSize) (small : flags < 4096)
    (shaped : TreeShaped fa after root)
    (translates : ∀ other, translate after root other =
      if pageNumber other = pageNumber (virtBase + 4096 * count) then
        leafAddr (physBase + 4096 * count ||| flags ||| pagePresent) other
      else translate middle root other) :
    MappedUpTo fa memory root virtBase physBase (count + 1) after := by
  refine ⟨shaped, fun i inside offset short => ?_, fun virt differs => ?_⟩
  · rw [translates]
    by_cases last : i = count
    · have samePage : pageNumber (virtBase + 4096 * i + offset) =
          pageNumber (virtBase + 4096 * count) := by
        unfold pageNumber
        omega
      rw [if_pos samePage, leafAddr_eq (by omega) physFits small, last]
      congr 1
      omega
    · have otherPage : pageNumber (virtBase + 4096 * i + offset) ≠
          pageNumber (virtBase + 4096 * count) := by
        unfold pageNumber
        omega
      rw [if_neg otherPage]
      exact upTo.mapped i (by omega) offset short
  · rw [translates, if_neg (differs count (Nat.lt_succ_self count))]
    exact upTo.unchanged virt fun i inside => differs i (Nat.lt_succ_of_lt inside)

/-- How mapping a region can end. -/
inductive MapsRegion (fa : FrameAllocator) (memory : PhysMem) (root virtBase physBase pages : Nat) :
    Except Panic Bool × PhysMem → Prop
  /-- Every page is mapped. -/
  | complete {after : PhysMem} (upTo : MappedUpTo fa memory root virtBase physBase pages after) :
      MapsRegion fa memory root virtBase physBase pages (.ok true, after)
  /-- Some first pages are mapped, and no frame is left. -/
  | full {after : PhysMem} (count : Nat) (fewer : count < pages)
      (upTo : MappedUpTo fa memory root virtBase physBase count after)
      (all : ∀ frame < fa.frameCount, fa.used after frame = true) :
      MapsRegion fa memory root virtBase physBase pages (.ok false, after)

/-- The remaining pages, once the first ones are mapped. -/
theorem mapPages_mapsRegion (placed : fa.Placed) {virtBase physBase pages flags : Nat}
    (virtAligned : virtBase % 4096 = 0) (physAligned : physBase % 4096 = 0)
    (few : pages ≤ 2 ^ 36) (virtFits : virtBase + 4096 * pages ≤ wordSize)
    (physFits : physBase + 4096 * pages ≤ wordSize) (small : flags < 4096) (count rest : Nat)
    (total : count + rest = pages) {middle : PhysMem}
    (upTo : MappedUpTo fa memory root virtBase physBase count middle) :
    MapsRegion fa memory root virtBase physBase pages
      (mapPages fa root virtBase physBase flags (List.range' count rest) middle) := by
  induction rest generalizing count middle with
  | zero =>
    obtain rfl : count = pages := by omega
    exact .complete upTo
  | succ rest ih =>
    have virtSum : add64 virtBase (count * 4096) = .ok (virtBase + 4096 * count) :=
      add64_eq_ok.mpr ⟨by omega, by omega⟩
    have physSum : add64 physBase (count * 4096) = .ok (physBase + 4096 * count) :=
      add64_eq_ok.mpr ⟨by omega, by omega⟩
    have flagsFit : flags < wordSize := Nat.lt_trans small (by decide)
    have maps := @map_mapsPage fa middle root upTo.shaped placed (virtBase + 4096 * count)
      (physBase + 4096 * count) flags (by omega) flagsFit
    simp only [List.range'_succ, mapPages, virtSum, physSum]
    generalize map fa middle root (virtBase + 4096 * count) (physBase + 4096 * count) flags = result
      at maps
    cases maps with
    | mapped shaped translates =>
      exact ih (count + 1) (by omega) (upTo.next virtAligned physAligned (by omega) (by omega) small
        shaped translates)
    | full shaped translates all =>
      refine .full count (by omega) ⟨shaped, fun i inside offset short => ?_, fun virt differs => ?_⟩
        all
      · rw [translates]
        exact upTo.mapped i inside offset short
      · rw [translates]
        exact upTo.unchanged virt differs

/-- `map_region` maps exactly its pages, or exactly the first ones when frames run out, and keeps
the tree. -/
theorem mapRegion_exact (placed : fa.Placed) (shaped : TreeShaped fa memory root)
    {virtBase physBase pages flags : Nat} (virtAligned : virtBase % 4096 = 0)
    (physAligned : physBase % 4096 = 0) (few : pages ≤ 2 ^ 36)
    (virtFits : virtBase + 4096 * pages ≤ wordSize) (physFits : physBase + 4096 * pages ≤ wordSize)
    (small : flags < 4096) :
    MapsRegion fa memory root virtBase physBase pages
      (mapRegion fa memory root virtBase physBase pages flags) := by
  rw [mapRegion, List.range_eq_range']
  refine mapPages_mapsRegion placed virtAligned physAligned few virtFits physFits small 0 pages
    (Nat.zero_add pages) ⟨shaped, ?_, fun _ _ => rfl⟩
  intro i inside
  exact absurd inside (Nat.not_lt_zero i)

/-- An empty table is a tree. -/
theorem treeShaped_of_empty (aligned : root % 4096 = 0)
    (empty : ∀ index < 512, present (entry memory root index) = false)
    (held : ∀ index < fa.frameCount, root = fa.frameAddr index → fa.used memory index = true)
    (offBitmap : (page root).Separate fa.bitmapSpan)
    (freeOff : ∀ index < fa.frameCount, fa.used memory index = false →
      (fa.frameSpan index).Separate fa.bitmapSpan) : TreeShaped fa memory root := by
  have only {path : List Nat} {table : Nat} (isPath : IsPath path)
      (found : tableAt memory root path = some table) : path = [] ∧ table = root := by
    induction path generalizing table with
    | nil => exact ⟨rfl, (Option.some.inj found).symm⟩
    | cons index above ih =>
      obtain ⟨upper, upperFound, next⟩ := Option.bind_eq_some_iff.mp found
      obtain ⟨_, rfl⟩ := ih isPath.above.1 upperFound
      have here := (presentTable_eq_some.mp next).1
      rw [empty index isPath.above.2.1] at here
      cases here
  refine ⟨aligned, ?_, ?_, ?_, ?_, freeOff⟩
  · intro left right table leftPath rightPath found also
    rw [(only leftPath found).1, (only rightPath also).1]
  · intro path table index isPath found here
    rw [(only isPath.above.1 found).2, empty index isPath.above.2.1] at here
    cases here
  · intro path table index isPath found inside address
    rw [(only isPath found).2] at address
    exact held index inside address
  · intro path table isPath found
    rw [(only isPath found).2]
    exact offBitmap

/-- After boot from zeroed memory, the page above the mebibyte of frames is an empty table. -/
theorem mebibyte_empty
    (initialized : FrameAllocator.init ⟨fun _ => 0, []⟩ FrameAllocator.mebibyteMap =
      .ok (FrameAllocator.mebibyteFrames, memory)) :
    (∀ index < 512, present (entry memory 0x200000 index) = false) ∧
      TreeShaped FrameAllocator.mebibyteFrames memory 0x200000 := by
  obtain ⟨_, writes, free⟩ := FrameAllocator.init_spec initialized
  have offBitmap : (page 0x200000).Separate FrameAllocator.mebibyteFrames.bitmapSpan := by decide
  have empty (index : Nat) (small : index < 512) :
      present (entry memory 0x200000 index) = false := by
    rw [entry_eq_of_writes writes small (Span.separate_iff.mp offBitmap)]
    simp [entry, PhysMem.readU64, present]
  refine ⟨empty, treeShaped_of_empty (by decide) empty (fun index inside address => ?_) offBitmap
    fun index inside isFree => ((free index inside).mp isFree).1.2⟩
  simp only [FrameAllocator.mebibyteFrames, FrameAllocator.frameAddr, frameSize] at inside address
  omega

/-- An empty table above the mebibyte of frames. -/
theorem mebibyte_empty_table : ∃ memory,
    FrameAllocator.init ⟨fun _ => 0, []⟩ FrameAllocator.mebibyteMap =
      .ok (FrameAllocator.mebibyteFrames, memory) ∧
    FrameAllocator.mebibyteFrames.Placed ∧
    TreeShaped FrameAllocator.mebibyteFrames memory 0x200000 ∧
    3 ≤ FrameAllocator.mebibyteFrames.freeFrames memory := by
  obtain ⟨memory, initialized, free⟩ := FrameAllocator.mebibyteMap_init ⟨fun _ => 0, []⟩
  have many := FrameAllocator.mebibyteMap_freeFrames free
  exact ⟨memory, initialized, (FrameAllocator.init_spec initialized).1,
    (mebibyte_empty initialized).2, by omega⟩

/-- Three pages in an empty table, with a mebibyte of frames. -/
theorem mapRegion_exact_mebibyte : ∃ memory,
    FrameAllocator.init ⟨fun _ => 0, []⟩ FrameAllocator.mebibyteMap =
      .ok (FrameAllocator.mebibyteFrames, memory) ∧
    MapsRegion FrameAllocator.mebibyteFrames memory 0x200000 0x7FF000 0x150000 3
      (mapRegion FrameAllocator.mebibyteFrames memory 0x200000 0x7FF000 0x150000 3 7) := by
  obtain ⟨memory, initialized, placed, shaped, _⟩ := mebibyte_empty_table
  exact ⟨memory, initialized, mapRegion_exact placed shaped (by decide) (by decide) (by decide)
    (by decide) (by decide) (by decide)⟩

end Aperture.Mm.PageTable
