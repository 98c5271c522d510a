import Aperture.Mm.FrameUsers

/-!
# A region below one lowest table

`map` walks to the lowest table of an address, making the tables that are missing, and writes one
entry there. Pages that no allocation recycles keep their present entries when tables are made, so
a region mapped through such pages stays mapped until somebody writes its leaves.
-/

namespace Aperture.Mm.PageTable

open Machine

variable {fa : FrameAllocator} {memory middle after : PhysMem} {root table : Nat} {path : List Nat}

/-! ## Pages that stay -/

/-- A page that avoids the bitmap and the free frames. -/
structure Held (fa : FrameAllocator) (memory : PhysMem) (table : Nat) : Prop where
  /-- It is page-aligned. -/
  aligned : table % 4096 = 0
  /-- It avoids the bitmap. -/
  off_bitmap : (page table).Separate fa.bitmapSpan
  /-- It avoids the free frames. -/
  off_free : ∀ index < fa.frameCount, fa.used memory index = false →
    (page table).Separate (fa.frameSpan index)

/-- The free frames avoid the bitmap. -/
def FreeOff (fa : FrameAllocator) (memory : PhysMem) : Prop :=
  ∀ index < fa.frameCount, fa.used memory index = false →
    (fa.frameSpan index).Separate fa.bitmapSpan

/-- While nothing is released, a page stays held. -/
theorem Held.keeps (held : Held fa memory table) (keeps : fa.Keeps memory after) :
    Held fa after table :=
  ⟨held.aligned, held.off_bitmap, fun index inside free =>
    held.off_free index inside (keeps.free inside free)⟩

/-- While nothing is released, the free frames avoid the bitmap. -/
theorem FreeOff.keeps (freeOff : FreeOff fa memory) (keeps : fa.Keeps memory after) :
    FreeOff fa after :=
  fun index inside free => freeOff index inside (keeps.free inside free)

/-- Every table on the way along a path is held. -/
def WalkHeld (fa : FrameAllocator) (memory : PhysMem) (root : Nat) (path : List Nat) : Prop :=
  ∀ above, above <:+ path → ∀ table, tableAt memory root above = some table → Held fa memory table

/-- Present entries of held pages are as they were. -/
def PresentKept (fa : FrameAllocator) (memory after : PhysMem) : Prop :=
  ∀ table index, Held fa memory table → index < 512 →
    present (entry memory table index) = true → entry after table index = entry memory table index

/-- One after the other. -/
theorem PresentKept.trans (first : PresentKept fa memory middle) (keeps : fa.Keeps memory middle)
    (second : PresentKept fa middle after) : PresentKept fa memory after := by
  intro table index held small here
  have same := first table index held small here
  exact (second table index (held.keeps keeps) small (by rw [same, here])).trans same

/-- Making a table keeps every frame in use. -/
theorem Linked.keeps {index fresh : Nat} (linked : Linked fa memory table index fresh after) :
    fa.Keeps memory after := by
  intro other inside marked
  rw [linked.bits other inside, marked, Bool.true_or]

/-- Making a table changes no present entry of a held page. -/
theorem Linked.presentKept {index fresh : Nat} (linked : Linked fa memory table index fresh after)
    (held : Held fa memory table) (absent : present (entry memory table index) = false) :
    PresentKept fa memory after := by
  intro other otherIndex otherHeld small here
  by_cases same : other = table
  · subst same
    refine linked.beside otherIndex small ?_
    rintro rfl
    rw [here] at absent
    cases absent
  · exact linked.elsewhere other otherHeld.off_bitmap
      (otherHeld.off_free fresh linked.inside linked.free)
      (page_separate otherHeld.aligned held.aligned same) otherIndex small

/-- A new table is held. -/
theorem Linked.held {index fresh : Nat} (linked : Linked fa memory table index fresh after)
    (placed : fa.Placed) (freeOff : FreeOff fa memory) : Held fa after (fa.frameAddr fresh) := by
  refine ⟨(frameAddr_placed placed linked.inside).1, freeOff fresh linked.inside linked.free,
    fun other inside free => FrameAllocator.frameSpan_separate ?_⟩
  rintro rfl
  rw [linked.bits _ inside] at free
  simp at free

/-! ## Walking with missing tables made -/

/-- The calls of `next_table` along a path. -/
def walkTo (fa : FrameAllocator) (root : Nat) : List Nat → PhysMem → Option Nat × PhysMem
  | [], memory => (some root, memory)
  | index :: above, memory =>
    match walkTo fa root above memory with
    | (none, memory) => (none, memory)
    | (some table, memory) => nextTable fa memory table index

/-- `map` walks to the lowest table of the address and writes the leaf. -/
theorem map_eq_walkTo (fa : FrameAllocator) (memory : PhysMem) (root virt phys flags : Nat) :
    map fa memory root virt phys flags =
      match walkTo fa root (pathOf virt) memory with
      | (none, memory) => (false, memory)
      | (some table, memory) =>
        (true, memory.writeU64 (table + 8 * ptIndex virt) (phys ||| flags ||| pagePresent)) := by
  simp only [map, pathOf, walkTo]
  rcases nextTable fa memory root (pml4Index virt) with ⟨_ | pdpt, first⟩
  · rfl
  · dsimp only
    rcases nextTable fa first pdpt (pdptIndex virt) with ⟨_ | pd, second⟩
    · rfl
    · rfl

/-- The number of tables along a path that are missing. -/
def missingTables (memory : PhysMem) (root : Nat) : List Nat → Nat
  | [] => 0
  | index :: above => missingTables memory root above +
    if tableAt memory root (index :: above) = none then 1 else 0

/-- A walk has come to a table. -/
structure WalkMade (fa : FrameAllocator) (memory : PhysMem) (root : Nat) (path : List Nat)
    (table : Nat) (after : PhysMem) : Prop where
  /-- The path leads there now. -/
  found : tableAt after root path = some table
  /-- Nothing was released. -/
  keeps : fa.Keeps memory after
  /-- Present entries of held pages are as they were. -/
  kept : PresentKept fa memory after
  /-- The tables on the way are held. -/
  held : WalkHeld fa after root path
  /-- The table was there and nothing was written, or it was a free frame and is empty. -/
  origin : after = memory ∨ tableAt memory root path = none ∧
    (∃ fresh < fa.frameCount, fa.used memory fresh = false ∧ table = fa.frameAddr fresh) ∧
    ∀ index < 512, present (entry after table index) = false
  /-- A frame was taken for every missing table. -/
  supply : fa.freeFrames memory = fa.freeFrames after + missingTables memory root path

/-- The tables on the way to a table above. -/
theorem WalkHeld.above {index : Nat} (held : WalkHeld fa memory root (index :: path)) :
    WalkHeld fa memory root path :=
  fun above suffix => held above (suffix.trans (List.suffix_cons index path))

/-- The tables on the way to one level further. -/
theorem WalkHeld.cons {index : Nat} (held : WalkHeld fa memory root path)
    (last : ∀ table, tableAt memory root (index :: path) = some table → Held fa memory table) :
    WalkHeld fa memory root (index :: path) := by
  intro above suffix table found
  rcases List.suffix_cons_iff.mp suffix with rfl | further
  · exact last table found
  · exact held above further table found

/-- A path survives when its entries do. -/
theorem tableAt_kept (held : WalkHeld fa memory root path) (kept : PresentKept fa memory after)
    (small : ∀ index ∈ path, index < 512) {table : Nat}
    (found : tableAt memory root path = some table) : tableAt after root path = some table := by
  induction path generalizing table with
  | nil => exact found
  | cons index above ih =>
    obtain ⟨upper, upperFound, next⟩ := Option.bind_eq_some_iff.mp found
    obtain ⟨here, rfl⟩ := presentTable_eq_some.mp next
    rw [tableAt, ih held.above (fun other member => small other (List.mem_cons_of_mem _ member))
      upperFound, Option.bind_some]
    have same := kept upper index (held above (List.suffix_cons _ _) upper upperFound)
      (small index List.mem_cons_self) here
    rw [presentTable_congr same, next]

/-- Where a path leads on, its beginnings lead. -/
theorem tableAt_suffix (found : tableAt memory root path = some table) {above : List Nat}
    (suffix : above <:+ path) : ∃ upper, tableAt memory root above = some upper := by
  induction path generalizing table with
  | nil =>
    rw [List.suffix_nil.mp suffix]
    exact ⟨table, found⟩
  | cons index rest ih =>
    rcases List.suffix_cons_iff.mp suffix with rfl | further
    · exact ⟨table, found⟩
    · obtain ⟨upper, upperFound, _⟩ := Option.bind_eq_some_iff.mp found
      exact ih upperFound further

/-- The tables on the way of a path that leads to a table stay the same and held. -/
theorem WalkHeld.kept (held : WalkHeld fa memory root path)
    (found : tableAt memory root path = some table) (kept : PresentKept fa memory after)
    (keeps : fa.Keeps memory after) (small : ∀ index ∈ path, index < 512) :
    WalkHeld fa after root path := by
  intro above suffix upper upperFound
  obtain ⟨old, oldFound⟩ := tableAt_suffix found suffix
  have same := tableAt_kept (fun other further => held other (further.trans suffix)) kept
    (fun index member => small index (suffix.subset member)) oldFound
  obtain rfl := Option.some.inj (upperFound.symm.trans same)
  exact (held above suffix upper oldFound).keeps keeps

/-- The entry of a new table is present. -/
theorem present_link (address : Nat) : present (address ||| 7) = true := by
  have leaf := present_leaf address 6
  rwa [Nat.or_assoc, show 6 ||| pagePresent = 7 from rfl] at leaf

/-- With a frame for every missing table, the walk comes to a table. -/
theorem walkTo_made (placed : fa.Placed) (freeOff : FreeOff fa memory)
    (held : WalkHeld fa memory root path) (small : ∀ index ∈ path, index < 512)
    (enough : missingTables memory root path ≤ fa.freeFrames memory) :
    ∃ table after, walkTo fa root path memory = (some table, after) ∧
      WalkMade fa memory root path table after := by
  induction path with
  | nil =>
    exact ⟨root, memory, rfl, rfl, .refl fa memory, fun _ _ _ _ _ => rfl, held, .inl rfl, rfl⟩
  | cons index above ih =>
    have aboveSmall : ∀ other ∈ above, other < 512 :=
      fun other member => small other (List.mem_cons_of_mem _ member)
    have indexSmall := small index List.mem_cons_self
    rw [missingTables] at enough
    obtain ⟨upper, middle, walked, made⟩ := ih held.above aboveSmall (by omega)
    have upperHeld : Held fa middle upper := made.held above (List.suffix_refl _) upper made.found
    have stepped := nextTable_stepped placed indexSmall upperHeld.off_bitmap upperHeld.off_free
      (freeOff.keeps made.keeps)
    have supply := made.supply
    have missing (absent : present (entry middle upper index) = false) :
        tableAt memory root (index :: above) = none := by
      rcases made.origin with rfl | ⟨nowhere, _⟩
      · rw [tableAt, made.found, Option.bind_some, presentTable, absent]
        rfl
      · rw [tableAt, nowhere]
        rfl
    rw [walkTo, walked]
    dsimp only
    cases returned : nextTable fa middle upper index with
    | mk result after =>
      rw [returned] at stepped
      cases stepped with
      | found here =>
        have next : tableAt middle root (index :: above) =
            some (entryAddr (entry middle upper index)) := by
          rw [tableAt, made.found, Option.bind_some, presentTable, if_pos here]
        rcases made.origin with rfl | ⟨_, _, empty⟩
        · refine ⟨_, middle, rfl, next, made.keeps, made.kept, held, .inl rfl, ?_⟩
          rw [missingTables, if_neg (by rw [next]; simp), Nat.add_zero]
          exact supply
        · rw [empty index indexSmall] at here
          cases here
      | full absent same writes =>
        have nothing := nextTable_full placed.covers absent returned
        have missing := missing absent
        rw [if_pos missing] at enough
        omega
      | linked fresh absent linked =>
        have keeps := linked.keeps
        have kept := linked.presentKept upperHeld absent
        have written := nextTable_entry (frameAddr_placed placed linked.inside).2 absent returned
        have upperFound : tableAt after root above = some upper :=
          tableAt_kept made.held kept aboveSmall made.found
        have next : tableAt after root (index :: above) = some (fa.frameAddr fresh) := by
          rw [tableAt, upperFound, Option.bind_some, presentTable_eq_some]
          refine ⟨?_, linked.link⟩
          rw [written, present_link]
        have missing := missing absent
        have freshHeld := linked.held placed (freeOff.keeps made.keeps)
        refine ⟨_, after, rfl, next, made.keeps.trans keeps, made.kept.trans made.keeps kept, ?_,
          .inr ⟨missing, ⟨fresh, linked.inside, made.keeps.free linked.inside linked.free, rfl⟩,
            linked.empty⟩, ?_⟩
        · refine (made.held.kept made.found kept keeps aboveSmall).cons fun other found => ?_
          obtain rfl := Option.some.inj (found.symm.trans next)
          exact freshHeld
        · have taken := FrameAllocator.freeFrames_taken linked.inside linked.free linked.bits
          rw [missingTables, if_pos missing]
          omega

/-! ## The leaves of a region -/

/-- The pages of a region have their leaves side by side in the table at a path, off the indices
of the path. -/
structure InTable (virtBase count : Nat) (path : List Nat) (first : Nat) : Prop where
  /-- The region starts at a page. -/
  aligned : virtBase % 4096 = 0
  /-- It ends inside the address space. -/
  fits : virtBase + count * 4096 ≤ wordSize
  /-- Every page has its leaf in the table at the path. -/
  path_eq : ∀ i < count, pathOf (virtBase + i * 4096) = path
  /-- The leaves are side by side. -/
  slot : ∀ i < count, ptIndex (virtBase + i * 4096) = first + i
  /-- They are in one table. -/
  inside : first + count ≤ 512
  /-- The path does not go through them. -/
  clear : ∀ index ∈ path, index < first ∨ first + count ≤ index
  /-- The indices of the path have nine bits. -/
  small : ∀ index ∈ path, index < 512

/-- The leaf of a page of a region. -/
def regionLeaf (physBase flags i : Nat) : Nat := physBase + i * 4096 ||| flags ||| pagePresent

/-- A region is mapped through held tables. -/
structure RegionMapped (fa : FrameAllocator) (memory : PhysMem) (root : Nat) (path : List Nat)
    (first count physBase flags table : Nat) : Prop where
  /-- The lowest table. -/
  found : tableAt memory root path = some table
  /-- The tables on the way are held. -/
  held : WalkHeld fa memory root path
  /-- The leaves refer to the frames. -/
  leaves : ∀ i < count, entry memory table (first + i) = regionLeaf physBase flags i

/-- Some leaves of a table have been written, from one index up to another. -/
structure LeafWrites (memory : PhysMem) (table first physBase flags lo hi : Nat)
    (after : PhysMem) : Prop where
  /-- They refer to the frames. -/
  leaf : ∀ i, lo ≤ i → i < hi → entry after table (first + i) = regionLeaf physBase flags i
  /-- Other entries of tables are as they were. -/
  other : ∀ page index, page % 4096 = 0 → index < 512 →
    (page = table → index < first + lo ∨ first + hi ≤ index) →
      entry after page index = entry memory page index
  /-- Only the table was written. -/
  writes : WritesWithin (page table).toSet memory after

variable {virtBase physBase flags first count : Nat}

/-- The entries that a walk along a path reads are the same. -/
def WalkSame (memory after : PhysMem) (root : Nat) (path : List Nat) : Prop :=
  ∀ index above, index :: above <:+ path → ∀ table, tableAt memory root above = some table →
    entry after table index = entry memory table index

/-- A path leads where it led while its entries are the same. -/
theorem tableAt_same (same : WalkSame memory after root path) :
    tableAt after root path = tableAt memory root path := by
  induction path with
  | nil => rfl
  | cons index above ih =>
    rw [tableAt, tableAt,
      ih fun other rest suffix => same other rest (suffix.trans (List.suffix_cons _ _))]
    cases found : tableAt memory root above with
    | none => rfl
    | some table => exact presentTable_congr (same index above (List.suffix_refl _) table found)

/-- The tables on the way stay held while its entries are the same. -/
theorem WalkHeld.of_same (held : WalkHeld fa memory root path) (keeps : fa.Keeps memory after)
    (same : WalkSame memory after root path) : WalkHeld fa after root path := by
  intro above suffix upper found
  rw [tableAt_same fun index rest further => same index rest (further.trans suffix)] at found
  exact (held above suffix upper found).keeps keeps

/-- A region stays mapped while the entries that lead to its frames are the same. -/
theorem RegionMapped.of_same {physBase flags first count : Nat}
    (mapped : RegionMapped fa memory root path first count physBase flags table)
    (keeps : fa.Keeps memory after) (same : WalkSame memory after root path)
    (leaves : ∀ i < count, entry after table (first + i) = entry memory table (first + i)) :
    RegionMapped fa after root path first count physBase flags table :=
  ⟨(tableAt_same same).trans mapped.found, mapped.held.of_same keeps same,
    fun i below => (leaves i below).trans (mapped.leaves i below)⟩

/-- Where a path leads to a table, walking makes nothing. -/
theorem walkTo_found (fa : FrameAllocator) (found : tableAt memory root path = some table) :
    walkTo fa root path memory = (some table, memory) := by
  induction path generalizing table with
  | nil =>
    obtain rfl := Option.some.inj found
    rfl
  | cons index above ih =>
    obtain ⟨upper, upperFound, next⟩ := Option.bind_eq_some_iff.mp found
    rw [walkTo, ih upperFound]
    simp only [nextTable, next]

/-- Leaves that were written are on no walk along the path. -/
theorem LeafWrites.walkSame {lo hi : Nat} (region : InTable virtBase count path first)
    (writes : LeafWrites memory table first physBase flags lo hi after) (below : hi ≤ count)
    (aligned : root % 4096 = 0) : WalkSame memory after root path := by
  intro index above suffix upper found
  have member : index ∈ path := suffix.subset List.mem_cons_self
  have clear := region.clear index member
  exact writes.other upper index (tableAt_aligned aligned found) (region.small index member)
    fun _ => by omega

/-- One leaf. -/
theorem leafWrites_one (tableAligned : table % 4096 = 0) {i : Nat} (inside : first + i < 512)
    (fits : regionLeaf physBase flags i < wordSize) :
    LeafWrites memory table first physBase flags i (i + 1)
      (memory.writeU64 (table + 8 * (first + i)) (regionLeaf physBase flags i)) := by
  refine ⟨fun j above below => ?_, fun other index aligned small apart => ?_, ?_⟩
  · obtain rfl : j = i := by omega
    exact PhysMem.readU64_writeU64 _ _ fits
  · rw [entry, PhysMem.readU64_writeU64_separate _ _ (by omega), ← entry]
  · exact .writeU64 _ _ (entry_inside inside)

/-- Leaves one after the other. -/
theorem LeafWrites.trans {lo mid hi : Nat}
    (left : LeafWrites memory table first physBase flags lo mid middle)
    (right : LeafWrites middle table first physBase flags mid hi after) (lower : lo ≤ mid)
    (upper : mid ≤ hi) (tableAligned : table % 4096 = 0) (inside : first + hi ≤ 512) :
    LeafWrites memory table first physBase flags lo hi after := by
  refine ⟨fun i above below => ?_, fun other index aligned small apart => ?_,
    left.writes.trans right.writes⟩
  · by_cases early : i < mid
    · rw [right.other table (first + i) tableAligned (by omega) fun _ => by omega]
      exact left.leaf i above early
    · exact right.leaf i (by omega) below
  · rw [right.other other index aligned small fun same => by have := apart same; omega,
      left.other other index aligned small fun same => by have := apart same; omega]

/-- Mapping the pages of a region whose lowest table is there writes their leaves. -/
theorem mapPages_leaves (fa : FrameAllocator) (region : InTable virtBase count path first)
    (physFits : physBase + count * 4096 ≤ wordSize) (flagsFit : flags < wordSize)
    (aligned : root % 4096 = 0) (lo rest : Nat) (within : lo + rest ≤ count)
    (found : tableAt memory root path = some table) :
    ∃ after, mapPages fa root virtBase physBase flags (List.range' lo rest) memory =
        (.ok true, after) ∧
      LeafWrites memory table first physBase flags lo (lo + rest) after := by
  induction rest generalizing lo memory with
  | zero =>
    exact ⟨memory, rfl, fun i above below => by omega, fun _ _ _ _ _ => rfl, .refl _ _⟩
  | succ rest ih =>
    have virtFits := region.fits
    have virtSum := add64_eq_ok.mpr ⟨show virtBase + lo * 4096 < wordSize by omega, rfl⟩
    have physSum := add64_eq_ok.mpr ⟨show physBase + lo * 4096 < wordSize by omega, rfl⟩
    have leafFits : regionLeaf physBase flags lo < wordSize :=
      Nat.or_lt_two_pow (Nat.or_lt_two_pow (show physBase + lo * 4096 < wordSize by omega) flagsFit)
        (by decide)
    have inside := region.inside
    have tableAligned := tableAt_aligned aligned found
    have one : LeafWrites memory table first physBase flags lo (lo + 1)
        (memory.writeU64 (table + 8 * (first + lo)) (regionLeaf physBase flags lo)) :=
      leafWrites_one tableAligned (show first + lo < 512 by omega) leafFits
    have stays := tableAt_same (one.walkSame region (by omega) aligned)
    obtain ⟨after, mapped, more⟩ := ih (lo + 1) (by omega) (stays.trans found)
    refine ⟨after, ?_, ?_⟩
    · rw [List.range'_succ, mapPages, virtSum, physSum]
      dsimp only
      rw [map_eq_walkTo, region.path_eq lo (by omega), walkTo_found fa found]
      dsimp only
      rw [region.slot lo (by omega)]
      exact mapped
    · rw [← Nat.add_assoc, Nat.add_right_comm]
      exact one.trans more (by omega) (by omega) tableAligned (by omega)

/-! ## Mapping a region -/

/-- Mapping starts with the walk, so it is mapping where the walk has been made. -/
theorem mapPages_walk {i : Nat} (rest : List Nat)
    (walked : walkTo fa root path memory = (some table, middle))
    (found : tableAt middle root path = some table) (path_eq : pathOf (virtBase + i * 4096) = path)
    (virtFits : virtBase + i * 4096 < wordSize) (physFits : physBase + i * 4096 < wordSize) :
    mapPages fa root virtBase physBase flags (i :: rest) memory =
      mapPages fa root virtBase physBase flags (i :: rest) middle := by
  have virtSum := add64_eq_ok.mpr ⟨virtFits, rfl⟩
  have physSum := add64_eq_ok.mpr ⟨physFits, rfl⟩
  rw [mapPages, mapPages, virtSum, physSum]
  dsimp only
  rw [map_eq_walkTo, map_eq_walkTo, path_eq, walked, walkTo_found fa found]

/-- What mapping a region leaves: the walk has been made, then the leaves have been written. -/
structure RegionMade (fa : FrameAllocator) (memory : PhysMem) (root : Nat) (path : List Nat)
    (first count physBase flags table : Nat) (middle after : PhysMem) : Prop where
  /-- The walk. -/
  walk : WalkMade fa memory root path table middle
  /-- The leaves. -/
  leaves : LeafWrites middle table first physBase flags 0 count after
  /-- The table is a page. -/
  aligned : table % 4096 = 0

/-- With a frame for every missing table, a region is mapped. -/
theorem mapRegion_made (placed : fa.Placed) (region : InTable virtBase count path first)
    (nonempty : 0 < count) (freeOff : FreeOff fa memory) (held : WalkHeld fa memory root path)
    (enough : missingTables memory root path ≤ fa.freeFrames memory)
    (physFits : physBase + count * 4096 ≤ wordSize) (flagsFit : flags < wordSize) :
    ∃ table middle after, mapRegion fa memory root virtBase physBase count flags =
        (.ok true, after) ∧
      RegionMade fa memory root path first count physBase flags table middle after := by
  obtain ⟨table, middle, walked, made⟩ := walkTo_made placed freeOff held region.small enough
  have aligned : root % 4096 = 0 := (held [] List.nil_suffix root rfl).aligned
  obtain ⟨after, mapped, writes⟩ := mapPages_leaves fa region physFits flagsFit aligned 0 count
    (by omega) made.found
  rw [Nat.zero_add] at writes
  refine ⟨table, middle, after, ?_, made, writes, tableAt_aligned aligned made.found⟩
  rw [mapRegion, List.range_eq_range']
  obtain ⟨pages, rfl⟩ := Nat.exists_eq_succ_of_ne_zero (Nat.pos_iff_ne_zero.mp nonempty)
  rw [List.range'_succ] at mapped ⊢
  have virtFits := region.fits
  rw [mapPages_walk _ walked made.found (region.path_eq 0 nonempty) (by omega) (by omega)]
  exact mapped

section Made

variable {otherRoot otherBase otherTable : Nat}

/-- Mapping a region releases nothing. -/
theorem RegionMade.keeps (made : RegionMade fa memory root path first count physBase flags table
    middle after) (placed : fa.Placed) : fa.Keeps memory after := by
  have held := made.walk.held path (List.suffix_refl _) table made.walk.found
  exact made.walk.keeps.trans
    (FrameAllocator.keeps_of_span placed.covers made.leaves.writes held.off_bitmap)

/-- The region is mapped. -/
theorem RegionMade.mapped (made : RegionMade fa memory root path first count physBase flags table
    middle after) (placed : fa.Placed) (region : InTable virtBase count path first) :
    RegionMapped fa after root path first count physBase flags table := by
  have held := made.walk.held path (List.suffix_refl _) table made.walk.found
  have keeps := FrameAllocator.keeps_of_span placed.covers made.leaves.writes held.off_bitmap
  have aligned : root % 4096 = 0 := (made.walk.held [] List.nil_suffix root rfl).aligned
  have same := made.leaves.walkSame region (Nat.le_refl _) aligned
  exact ⟨(tableAt_same same).trans made.walk.found, made.walk.held.of_same keeps same,
    fun i below => made.leaves.leaf i (Nat.zero_le _) below⟩

/-- A region mapped through another lowest table, by the same path and indices, stays mapped. -/
theorem RegionMade.kept (made : RegionMade fa memory root path first count physBase flags table
    middle after) (placed : fa.Placed) (region : InTable virtBase count path first)
    (other : RegionMapped fa memory otherRoot path first count otherBase flags otherTable)
    (apart : tableAt memory root path ≠ some otherTable) :
    RegionMapped fa after otherRoot path first count otherBase flags otherTable := by
  have otherHeld := other.held path (List.suffix_refl _) otherTable other.found
  have otherAligned : otherRoot % 4096 = 0 := (other.held [] List.nil_suffix otherRoot rfl).aligned
  have inside := region.inside
  have differ : otherTable ≠ table := by
    rintro rfl
    rcases made.walk.origin with rfl | ⟨_, ⟨fresh, freshInside, free, rfl⟩, _⟩
    · exact apart made.walk.found
    · have separate := otherHeld.off_free fresh freshInside free
      simp only [Span.Separate, page, FrameAllocator.frameSpan, frameSize] at separate
      omega
  have atMiddle : RegionMapped fa middle otherRoot path first count otherBase flags otherTable := by
    refine other.of_same made.walk.keeps (fun index above suffix upper found => ?_)
      fun i below => ?_
    · have member : index ∈ path := suffix.subset List.mem_cons_self
      obtain ⟨next, nextFound⟩ := tableAt_suffix other.found suffix
      rw [tableAt, found, Option.bind_some] at nextFound
      exact made.walk.kept upper index (other.held above ((List.suffix_cons _ _).trans suffix) upper
        found) (region.small index member) (presentTable_eq_some.mp nextFound).1
    · refine made.walk.kept otherTable (first + i) otherHeld (by omega) ?_
      rw [other.leaves i below]
      exact present_leaf _ _
  have held := made.walk.held path (List.suffix_refl _) table made.walk.found
  have keeps := FrameAllocator.keeps_of_span placed.covers made.leaves.writes held.off_bitmap
  exact atMiddle.of_same keeps (made.leaves.walkSame region (Nat.le_refl _) otherAligned)
    fun i below => made.leaves.other otherTable (first + i) otherHeld.aligned (by omega)
      fun same => absurd same differ

end Made

/-- A mapped region translates to its frames. -/
theorem RegionMapped.translate_eq
    (mapped : RegionMapped fa memory root path first count physBase flags table)
    (region : InTable virtBase count path first) (physAligned : physBase % 4096 = 0)
    (physFits : physBase + count * 4096 ≤ wordSize) (flagsSmall : flags < 4096) {offset : Nat}
    (inside : offset < count * 4096) :
    translate memory root (virtBase + offset) = some (physBase + offset) := by
  have below : offset / 4096 < count := by omega
  have virtAligned := region.aligned
  have samePage : pageNumber (virtBase + offset) = pageNumber (virtBase + offset / 4096 * 4096) := by
    unfold pageNumber
    omega
  obtain ⟨samePath, sameIndex⟩ := (pathOf_eq_iff _ _).mpr samePage
  rw [PageTable.translate_eq, samePath, region.path_eq _ below, mapped.found, Option.bind_some,
    sameIndex, region.slot _ below, mapped.leaves _ below, regionLeaf,
    leafAddr_eq (by omega) (by omega) flagsSmall]
  congr 1
  omega

/-- A span meets none of the entries that translate a region: those of the walk and the leaves. -/
structure EntriesOff (span : Span) (memory : PhysMem) (root : Nat) (path : List Nat)
    (first count : Nat) : Prop where
  /-- The entries of the walk. -/
  walk : ∀ index above, index :: above <:+ path → ∀ table,
    tableAt memory root above = some table → span.Separate ⟨table + 8 * index, 8⟩
  /-- The leaves. -/
  leaves : ∀ table, tableAt memory root path = some table →
    span.Separate ⟨table + 8 * first, 8 * count⟩

/-- Writes off those entries and off the bitmap leave a region mapped. -/
theorem RegionMapped.of_writes
    (mapped : RegionMapped fa memory root path first count physBase flags table)
    (placed : fa.Covers) {span : Span} (writes : WritesWithin span.toSet memory after)
    (offBitmap : span.Separate fa.bitmapSpan) (off : EntriesOff span memory root path first count) :
    RegionMapped fa after root path first count physBase flags table := by
  refine mapped.of_same (FrameAllocator.keeps_of_span placed writes offBitmap)
    (fun index above suffix upper found => ?_) fun i below => ?_
  · exact writes.readU64 (Span.separate_iff.mp (off.walk index above suffix upper found).symm)
  · refine writes.readU64 fun a member inSpan => ?_
    refine Span.separate_iff.mp (off.leaves table mapped.found) a inSpan ?_
    simp only [Span.mem_iff] at member ⊢
    omega

end Aperture.Mm.PageTable
