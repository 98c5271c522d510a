import Aperture.Machine.Supply
import Aperture.Mm.MapExact

/-!
# Tables from a limited supply of frames

Each mapping asks for the three tables on the path of its address, and free frames are the
supply for those that are missing. A mapping is made exactly when the path is supplied, so what
a sequence of mappings leaves is known from the addresses, the tables and the free frames at the
start. A table from `PageTable::new` starts with the kernel's paths and leaves.
-/

namespace Aperture.Mm.PageTable

open Machine

/-- The tables asked for after one more mapping. -/
def wantTables (there : List Nat → Bool) (asked : List (List Nat)) (virt : Nat) :
    List (List Nat) :=
  request there (request there (request there asked [pml4Index virt])
    [pdptIndex virt, pml4Index virt]) (pathOf virt)

/-- The tables of a tree are those that were supplied, and the free frames are what is left. -/
structure Budgeted (fa : FrameAllocator) (memory : PhysMem) (root : Nat) (there : List Nat → Bool)
    (supply : Nat) (asked : List (List Nat)) : Prop where
  /-- Tables are there exactly when supplied. -/
  tables : ∀ path, IsPath path → path ≠ [] →
    ((tableAt memory root path).isSome = true ↔ Supplied there supply asked path)
  /-- The free frames are the rest of the supply. -/
  free : fa.freeFrames memory = supply - asked.length

variable {fa : FrameAllocator} {memory after : PhysMem} {root supply : Nat} {path : List Nat}
  {there : List Nat → Bool} {asked : List (List Nat)}

/-- A call of `next_table` is a request for the path. -/
theorem Budgeted.step (budget : Budgeted fa memory root there supply asked)
    {result : Option Nat × PhysMem} (step : TableStep fa memory root path result)
    (isPath : IsPath path) (nonempty : path ≠ []) :
    Budgeted fa result.2 root there supply (request there asked path) := by
  have free := budget.free
  have here := budget.tables path isPath nonempty
  have found := step.found
  have outcome := step.outcome
  have others (other : List Nat) (otherPath : IsPath other) (otherNonempty : other ≠ [])
      (differ : other ≠ path) : (tableAt result.2 root other).isSome = true ↔
        Supplied there supply (request there asked path) other := by
    rw [step.others other otherPath differ, budget.tables other otherPath otherNonempty,
      supplied_request]
    simp [differ]
  generalize tableAt memory root path = before at outcome here
  generalize result.1 = next at outcome found
  refine ⟨fun other otherPath otherNonempty => ?_, ?_⟩
  · by_cases differ : other = path
    · rw [differ, found, supplied_request]
      cases outcome with
      | there table _ => exact ⟨fun _ => .inl (here.mp rfl), fun _ => rfl⟩
      | full nothing _ =>
        constructor
        · intro absurd_
          cases absurd_
        · rintro (supplied | ⟨_, left⟩)
          · exact here.mpr supplied
          · omega
      | taken _ _ fewer => exact ⟨fun _ => .inr ⟨rfl, by omega⟩, fun _ => rfl⟩
    · exact others other otherPath otherNonempty differ
  · cases outcome with
    | there table same => rw [request_of_supplied (here.mp rfl), same, free]
    | full nothing still =>
      have missing : ¬Supplied there supply asked path := fun supplied => by
        have absurd_ := here.mpr supplied
        cases absurd_
      rw [left_request missing, still]
      omega
    | taken _ _ fewer =>
      have missing : ¬Supplied there supply asked path := fun supplied => by
        have absurd_ := here.mpr supplied
        cases absurd_
      rw [left_request missing]
      omega

/-- Once the supply is used up, requests change nothing. -/
theorem Budgeted.exhausted (budget : Budgeted fa memory root there supply asked)
    (nothing : fa.freeFrames memory = 0) (path : List Nat) :
    Budgeted fa memory root there supply (request there asked path) := by
  have free := budget.free
  refine ⟨fun other otherPath otherNonempty => ?_, ?_⟩
  · rw [budget.tables other otherPath otherNonempty, supplied_request]
    constructor
    · exact .inl
    · rintro (supplied | ⟨_, left⟩)
      · exact supplied
      · omega
  · by_cases supplied : Supplied there supply asked path
    · rw [request_of_supplied supplied, free]
    · rw [left_request supplied]
      omega

/-- A call that finds no table leaves no frame free. -/
theorem TableStep.nothing_left {last : PhysMem}
    (step : TableStep fa memory root path (none, last)) : fa.freeFrames last = 0 := by
  have outcome := step.outcome
  generalize tableAt memory root path = before at outcome
  cases outcome with
  | full _ still => exact still

/-- `map` asks for the tables of its address, and writes its leaf exactly when they are supplied. -/
theorem Budgeted.map (budget : Budgeted fa memory root there supply asked)
    (shaped : TreeShaped fa memory root) (placed : fa.Placed) (virt : Nat) {phys flags : Nat}
    (physFits : phys < wordSize) (flagsFit : flags < wordSize) :
    TreeShaped fa (map fa memory root virt phys flags).2 root ∧
      Budgeted fa (map fa memory root virt phys flags).2 root there supply
        (wantTables there asked virt) ∧
      ∀ other, (Supplied there supply (wantTables there asked virt) (pathOf virt) ∧
          pageNumber other = pageNumber virt →
          presentLeaf (map fa memory root virt phys flags).2 root other =
            some (phys ||| flags ||| pagePresent)) ∧
        (¬(Supplied there supply (wantTables there asked virt) (pathOf virt) ∧
          pageNumber other = pageNumber virt) →
          presentLeaf (map fa memory root virt phys flags).2 root other =
            presentLeaf memory root other) := by
  have leafFits : phys ||| flags ||| pagePresent < wordSize :=
    Nat.or_lt_two_pow (Nat.or_lt_two_pow physFits flagsFit) (by decide)
  obtain ⟨firstPath, secondPath⟩ := isPath_upper virt
  have thirdPath := isPath_pathOf virt
  have steps := map_steps shaped placed virt phys flags
  generalize PageTable.map fa memory root virt phys flags = result at steps
  have refused {last : PhysMem}
      (final : Budgeted fa last root there supply (wantTables there asked virt))
      (absent : tableAt last root (pathOf virt) = none) :
      ¬Supplied there supply (wantTables there asked virt) (pathOf virt) := by
    rw [← final.tables _ thirdPath (by simp [pathOf]), absent]
    exact Bool.false_ne_true
  cases steps with
  | @first last one =>
    have asked := (budget.step one firstPath (by simp)).exhausted one.nothing_left
      [pdptIndex virt, pml4Index virt]
    have final := asked.exhausted one.nothing_left (pathOf virt)
    have missing : tableAt last root [pml4Index virt] = none := one.found
    have absent : tableAt last root (pathOf virt) = none := by
      rw [pathOf, tableAt, tableAt, missing]
      rfl
    refine ⟨one.shaped, final, fun other => ⟨fun supplied => ?_, fun _ => one.leaves other⟩⟩
    exact absurd supplied.1 (refused final absent)
  | @second _ _ last one two =>
    have asked := (budget.step one firstPath (by simp)).step two secondPath (by simp)
    have final := asked.exhausted two.nothing_left (pathOf virt)
    have missing : tableAt last root [pdptIndex virt, pml4Index virt] = none := two.found
    have absent : tableAt last root (pathOf virt) = none := by
      rw [pathOf, tableAt, missing]
      rfl
    refine ⟨two.shaped, final, fun other => ⟨fun supplied => ?_,
      fun _ => (two.leaves other).trans (one.leaves other)⟩⟩
    exact absurd supplied.1 (refused final absent)
  | third one two three =>
    have final := ((budget.step one firstPath (by simp)).step two secondPath (by simp)).step three
      thirdPath (by simp [pathOf])
    refine ⟨three.shaped, final, fun other => ⟨fun supplied => ?_,
      fun _ => (three.leaves other).trans ((two.leaves other).trans (one.leaves other))⟩⟩
    exact absurd supplied.1 (refused final three.found)
  | @mapped _ _ pt _ _ last one two three =>
    have final := ((budget.step one firstPath (by simp)).step two secondPath (by simp)).step three
      thirdPath (by simp [pathOf])
    obtain ⟨kept, leaves, paths, bits⟩ := leaf_exact three.shaped placed three.found leafFits
    have supplied : Supplied there supply (wantTables there asked virt) (pathOf virt) := by
      apply (final.tables _ thirdPath (by simp [pathOf])).mp
      rw [three.found]
      rfl
    refine ⟨kept, ⟨fun other otherPath nonempty => ?_, ?_⟩, fun other => ⟨?_, ?_⟩⟩
    · rw [paths other otherPath]
      exact final.tables other otherPath nonempty
    · rw [FrameAllocator.freeFrames_congr bits]
      exact final.free
    · rintro ⟨_, samePage⟩
      rw [leaves other, if_pos samePage, if_pos (present_leaf phys flags)]
    · intro notBoth
      rw [leaves other, if_neg fun samePage => notBoth ⟨supplied, samePage⟩]
      exact (three.leaves other).trans ((two.leaves other).trans (one.leaves other))

/-! ## Without a frame left -/

/-- `next_table` then finds the table, or changes spare bits of the bitmap at most. -/
theorem nextTable_starved (covers : fa.Covers) (empty : fa.freeFrames memory = 0)
    (table index : Nat) :
    (∃ next, presentTable memory table index = some next ∧
      nextTable fa memory table index = (some next, memory)) ∨
    presentTable memory table index = none ∧ ∃ last,
      nextTable fa memory table index = (none, last) ∧
      WritesWithin fa.bitmapSpan.toSet memory last ∧
      ∀ other < fa.frameCount, fa.used last other = fa.used memory other := by
  cases found : presentTable memory table index with
  | some next => exact .inl ⟨next, rfl, by simp only [nextTable, found]⟩
  | none =>
    cases returned : fa.allocateFrame memory with
    | mk result taken =>
      rcases FrameAllocator.freeFrames_allocateFrame covers returned with
        ⟨rfl, _, _⟩ | ⟨_, fewer⟩
      · have scanned := fa.allocateFrame_scanned covers memory
        rw [returned] at scanned
        cases scanned with
        | full _ same writes =>
          exact .inr ⟨rfl, taken, by simp only [nextTable, found, returned], writes, same⟩
      · omega

/-- So does `map` of an address with a missing table. -/
theorem map_starved (covers : fa.Covers) (empty : fa.freeFrames memory = 0) {virt : Nat}
    (missing : tableAt memory root (pathOf virt) = none) (phys flags : Nat) :
    WritesWithin fa.bitmapSpan.toSet memory (PageTable.map fa memory root virt phys flags).2 ∧
      ∀ index < fa.frameCount,
        fa.used (PageTable.map fa memory root virt phys flags).2 index = fa.used memory index := by
  unfold PageTable.map
  rcases nextTable_starved covers empty root (pml4Index virt) with
    ⟨pdpt, pdptThere, first⟩ | ⟨_, last, first, writes, same⟩
  · simp only [first]
    rcases nextTable_starved covers empty pdpt (pdptIndex virt) with
      ⟨pd, pdThere, second⟩ | ⟨_, last, second, writes, same⟩
    · simp only [second]
      rcases nextTable_starved covers empty pd (pdIndex virt) with
        ⟨pt, ptThere, _⟩ | ⟨_, last, third, writes, same⟩
      · simp only [pathOf, tableAt, Option.bind_some, pdptThere, pdThere, ptThere] at missing
        cases missing
      · simp only [third]
        exact ⟨writes, same⟩
    · simp only [second]
      exact ⟨writes, same⟩
  · simp only [first]
    exact ⟨writes, same⟩

/-- Below an entry of the kernel `map` writes its leaf in a page of the kernel when all tables of
the address are there. -/
theorem map_shared_leaf {kernel : Nat} {shared own : Nat → Nat → Prop}
    (tables : KernelTables fa kernel shared memory)
    (tree : Tree fa kernel shared memory root own) {virt table : Nat}
    (isPresent : present (entry memory kernel (pml4Index virt)) = true)
    (found : tableAt memory root (pathOf virt) = some table) (phys flags : Nat) :
    Touched shared memory (PageTable.map fa memory root virt phys flags).2 := by
  obtain ⟨pd, pdFound, third⟩ := Option.bind_eq_some_iff.mp found
  obtain ⟨pdpt, pdptFound, second⟩ := Option.bind_eq_some_iff.mp pdFound
  have first : presentTable memory root (pml4Index virt) = some pdpt := pdptFound
  have below {level upper index next : Nat} (isShared : shared (level + 1) upper)
      (small : index < 512) (isNext : presentTable memory upper index = some next) :
      shared level next := by
    obtain ⟨here, rfl⟩ := presentTable_eq_some.mp isNext
    exact tables.closed level upper isShared index small here
  have pdptShared : shared 2 pdpt := by
    rw [← (presentTable_eq_some.mp first).2, tree.copied _ (pml4Index_lt virt) isPresent]
    exact tables.closed 2 kernel tables.root _ (pml4Index_lt virt) isPresent
  have pdShared : shared 1 pd := below pdptShared (index_lt (virt >>> 30)) second
  have ptShared : shared 0 table := below pdShared (index_lt (virt >>> 21)) third
  simp only [PageTable.map, nextTable, first, second, third]
  exact touched_entry ptShared (index_lt (virt >>> 12)) [] rfl

/-! ## Where new tables come from -/

/-- Tables are old ones or were free frames, and no frame was released. -/
structure TablesGrow (fa : FrameAllocator) (root : Nat) (memory after : PhysMem) : Prop where
  /-- New tables were free frames. -/
  tables : ∀ path table, IsPath path → tableAt after root path = some table →
    tableAt memory root path = some table ∨
      ∃ index < fa.frameCount, table = fa.frameAddr index ∧ fa.used memory index = false
  /-- Frames in use stay in use. -/
  kept : ∀ index < fa.frameCount, fa.used memory index = true → fa.used after index = true

/-- Growing twice. -/
theorem TablesGrow.trans {middle : PhysMem} (first : TablesGrow fa root memory middle)
    (second : TablesGrow fa root middle after) : TablesGrow fa root memory after := by
  refine ⟨fun path table isPath found => ?_, fun index inside marked => ?_⟩
  · rcases second.tables path table isPath found with old | ⟨index, inside, address, free⟩
    · exact first.tables path table isPath old
    · refine .inr ⟨index, inside, address, ?_⟩
      by_contra marked
      rw [Bool.not_eq_false] at marked
      rw [first.kept index inside marked] at free
      cases free
  · exact second.kept index inside (first.kept index inside marked)

/-- One call of `next_table`. -/
theorem TableStep.grows {result : Option Nat × PhysMem}
    (step : TableStep fa memory root path result) : TablesGrow fa root memory result.2 := by
  refine ⟨fun other table isPath found => ?_, step.kept⟩
  by_cases same : other = path
  · have outcome := step.outcome
    rw [same, step.found] at found
    rw [found] at outcome
    generalize before : tableAt memory root path = old at outcome
    cases outcome with
    | there table _ =>
      rw [same]
      exact .inl before
    | taken inside free _ => exact .inr ⟨_, inside, rfl, free⟩
  · rw [step.others other isPath same] at found
    exact .inl found

/-- `map`. -/
theorem map_grows (shaped : TreeShaped fa memory root) (placed : fa.Placed) (virt : Nat)
    {phys flags : Nat} (physFits : phys < wordSize) (flagsFit : flags < wordSize) :
    TablesGrow fa root memory (map fa memory root virt phys flags).2 := by
  have leafFits : phys ||| flags ||| pagePresent < wordSize :=
    Nat.or_lt_two_pow (Nat.or_lt_two_pow physFits flagsFit) (by decide)
  have steps := map_steps shaped placed virt phys flags
  generalize PageTable.map fa memory root virt phys flags = result at steps
  cases steps with
  | first one => exact one.grows
  | second one two => exact one.grows.trans two.grows
  | third one two three => exact one.grows.trans (two.grows.trans three.grows)
  | mapped one two three =>
    obtain ⟨_, _, paths, bits⟩ := leaf_exact three.shaped placed three.found leafFits
    refine one.grows.trans (two.grows.trans (three.grows.trans ⟨?_, ?_⟩))
    · intro other table isPath found
      rw [paths other isPath] at found
      exact .inl found
    · intro index inside marked
      rwa [bits index inside]

/-! ## A new table -/

/-- Pages that a walk reaches are at paths. -/
theorem Reaches.at_path {level table : Nat} (reached : Reaches memory root level table) :
    ∃ path, IsPath path ∧ path.length + level = 3 ∧ tableAt memory root path = some table := by
  induction reached with
  | root => exact ⟨[], ⟨by simp, by simp⟩, rfl, rfl⟩
  | @next level table index above inside here ih =>
    obtain ⟨path, isPath, length, found⟩ := ih
    refine ⟨index :: path, ⟨?_, ?_⟩, ?_, ?_⟩
    · rw [List.length_cons]
      omega
    · intro other member
      rcases List.mem_cons.mp member with rfl | old
      · exact inside
      · exact isPath.2 other old
    · rw [List.length_cons]
      omega
    · rw [tableAt, found, Option.bind_some, presentTable, if_pos here]

/-- Tables at paths are reached. -/
theorem reaches_of_tableAt {table : Nat} (isPath : IsPath path)
    (found : tableAt memory root path = some table) :
    ∃ level, Reaches memory root level table := by
  have bound (path : List Nat) (table : Nat) (isPath : IsPath path)
      (found : tableAt memory root path = some table) :
      Reaches memory root (3 - path.length) table := by
    induction path generalizing table with
    | nil =>
      obtain rfl := Option.some.inj found
      exact .root
    | cons index above ih =>
      obtain ⟨abovePath, small, short⟩ := isPath.above
      obtain ⟨upper, upperFound, next⟩ := Option.bind_eq_some_iff.mp found
      obtain ⟨here, rfl⟩ := presentTable_eq_some.mp next
      have reached := ih upper abovePath upperFound
      rw [List.length_cons]
      rw [show 3 - above.length = 3 - (above.length + 1) + 1 by omega] at reached
      exact .next reached small here
  exact ⟨_, bound path table isPath found⟩

/-- A tree is a set of kernel tables. -/
theorem TreeShaped.kernelTables (shaped : TreeShaped fa memory root) (placed : fa.Placed) :
    KernelTables fa root (Reaches memory root) memory where
  root := .root
  closed := reaches_closed memory root
  off_bitmap level table reached := by
    obtain ⟨path, isPath, _, found⟩ := reached.at_path
    exact shaped.off_bitmap path table isPath found
  off_free level table reached index inside free := by
    obtain ⟨path, isPath, _, found⟩ := reached.at_path
    exact shaped.off_free placed isPath found inside free
  free_off_bitmap := shaped.free_off_bitmap

/-- What a table from `PageTable::new` starts with. -/
structure Copied (fa : FrameAllocator) (kernel : Nat) (memory : PhysMem) (root : Nat)
    (after : PhysMem) : Prop where
  /-- It is a tree. -/
  shaped : TreeShaped fa after root
  /-- It has the kernel's tables. -/
  tables : ∀ path, IsPath path → path ≠ [] → tableAt after root path = tableAt memory kernel path
  /-- It has the kernel's leaves. -/
  leaves : ∀ virt, presentLeaf after root virt = presentLeaf memory kernel virt
  /-- It was a free frame. -/
  fresh : ∃ index < fa.frameCount, root = fa.frameAddr index ∧ fa.used memory index = false
  /-- There is one free frame less. -/
  fewer : fa.freeFrames after + 1 = fa.freeFrames memory
  /-- No frame is released. -/
  kept : ∀ index < fa.frameCount, fa.used memory index = true → fa.used after index = true

/-- A root with the top tables of another, over the same entries below, leads to the same tables. -/
theorem tableAt_eq_of_top {kernel : Nat}
    (top : ∀ index < 512, presentTable after root index = presentTable memory kernel index)
    (entries : ∀ level table index, Reaches memory kernel level table → index < 512 →
      entry after table index = entry memory table index)
    {path : List Nat} (isPath : IsPath path) (nonempty : path ≠ []) :
    tableAt after root path = tableAt memory kernel path := by
  induction path with
  | nil => exact absurd rfl nonempty
  | cons index above ih =>
    obtain ⟨abovePath, small, _⟩ := isPath.above
    cases above with
    | nil => exact top index small
    | cons next rest =>
      have aboveSame := ih abovePath (by simp)
      change (tableAt after root (next :: rest)).bind (fun table => presentTable after table index) =
        (tableAt memory kernel (next :: rest)).bind fun table => presentTable memory table index
      rw [aboveSame]
      cases found : tableAt memory kernel (next :: rest) with
      | none => rfl
      | some table =>
        obtain ⟨level, reached⟩ := reaches_of_tableAt abovePath found
        exact presentTable_congr (entries level table index reached small)

/-- It has the same leaves. -/
theorem presentLeaf_eq_of_top {kernel : Nat}
    (top : ∀ index < 512, presentTable after root index = presentTable memory kernel index)
    (entries : ∀ level table index, Reaches memory kernel level table → index < 512 →
      entry after table index = entry memory table index) (virt : Nat) :
    presentLeaf after root virt = presentLeaf memory kernel virt := by
  rw [presentLeaf, presentLeaf, tableAt_eq_of_top top entries (isPath_pathOf virt) (by simp [pathOf])]
  cases found : tableAt memory kernel (pathOf virt) with
  | none => rfl
  | some table =>
    obtain ⟨level, reached⟩ := reaches_of_tableAt (isPath_pathOf virt) found
    rw [Option.bind_some, Option.bind_some,
      entries level table _ reached (show ptIndex virt < 512 from index_lt _)]

/-- A root in a free frame with the tables of a well-shaped one is well-shaped. -/
theorem TreeShaped.in_frame {kernel fresh : Nat} (shaped : TreeShaped fa memory kernel)
    (placed : fa.Placed) (inside : fresh < fa.frameCount) (free : fa.used memory fresh = false)
    (bits : ∀ index < fa.frameCount,
      fa.used after index = (fa.used memory index || decide (index = fresh)))
    (top : ∀ index < 512,
      presentTable after (fa.frameAddr fresh) index = presentTable memory kernel index)
    (entries : ∀ level table index, Reaches memory kernel level table → index < 512 →
      entry after table index = entry memory table index)
    (small : ∀ index < 512, present (entry after (fa.frameAddr fresh) index) = true →
      (entry after (fa.frameAddr fresh) index).testBit 7 = false) :
    TreeShaped fa after (fa.frameAddr fresh) := by
  have isNew {path : List Nat} (isPath : IsPath path)
      (old : tableAt memory kernel path = some (fa.frameAddr fresh)) : False := by
    have marked := shaped.held path _ fresh isPath old inside rfl
    rw [free] at marked
    cases marked
  have newTable {path : List Nat} {table : Nat} (isPath : IsPath path)
      (found : tableAt after (fa.frameAddr fresh) path = some table) :
      (path = [] ∧ table = fa.frameAddr fresh) ∨
        path ≠ [] ∧ tableAt memory kernel path = some table := by
    by_cases empty : path = []
    · rw [empty] at found
      exact .inl ⟨empty, (Option.some.inj found).symm⟩
    · rw [tableAt_eq_of_top top entries isPath empty] at found
      exact .inr ⟨empty, found⟩
  refine ⟨(frameAddr_placed placed inside).1, ?_, ?_, ?_, ?_, ?_⟩
  · intro left right table leftPath rightPath leftFound rightFound
    rcases newTable leftPath leftFound with ⟨leftEmpty, isRoot⟩ | ⟨_, leftOld⟩
    · rcases newTable rightPath rightFound with ⟨rightEmpty, _⟩ | ⟨_, rightOld⟩
      · rw [leftEmpty, rightEmpty]
      · rw [isRoot] at rightOld
        exact (isNew rightPath rightOld).elim
    · rcases newTable rightPath rightFound with ⟨_, isRoot⟩ | ⟨_, rightOld⟩
      · rw [isRoot] at leftOld
        exact (isNew leftPath leftOld).elim
      · exact shaped.distinct left right table leftPath rightPath leftOld rightOld
  · intro path table index isPath found here
    obtain ⟨abovePath, indexSmall, _⟩ := isPath.above
    rcases newTable abovePath found with ⟨_, isRoot⟩ | ⟨_, old⟩
    · rw [isRoot] at here ⊢
      exact small index indexSmall here
    · obtain ⟨level, reached⟩ := reaches_of_tableAt abovePath old
      rw [entries level table index reached indexSmall] at here ⊢
      exact shaped.small path table index isPath old here
  · intro path table index isPath found indexInside address
    rw [bits index indexInside]
    rcases newTable isPath found with ⟨_, isRoot⟩ | ⟨_, old⟩
    · rw [isRoot] at address
      rw [FrameAllocator.frameAddr_injective address]
      simp
    · rw [shaped.held path table index isPath old indexInside address, Bool.true_or]
  · intro path table isPath found
    rcases newTable isPath found with ⟨_, isRoot⟩ | ⟨_, old⟩
    · rw [isRoot]
      exact shaped.free_off_bitmap fresh inside free
    · exact shaped.off_bitmap path table isPath old
  · intro index indexInside isFree
    rw [bits index indexInside, Bool.or_eq_false_iff] at isFree
    exact shaped.free_off_bitmap index indexInside isFree.1

/-- `PageTable::new` copies the kernel's tree. -/
theorem new_copied {kernel : Nat} (shaped : TreeShaped fa memory kernel) (placed : fa.Placed)
    (captured : kernel ≠ 0) (returned : new fa kernel memory = (some root, after)) :
    Copied fa kernel memory root after := by
  have kernelTables := shaped.kernelTables placed
  obtain ⟨⟨fresh, inside, rfl, free, bits⟩, extended⟩ :=
    new_extends placed captured kernelTables returned
  obtain ⟨kernelLater, tree, grows⟩ := extended
  have entries (level table index : Nat) (reached : Reaches memory kernel level table)
      (small : index < 512) : entry after table index = entry memory table index :=
    Extends.kernel_entry ⟨kernelLater, tree, grows⟩ kernelTables (fun _ _ mine => mine.elim) reached
      small
  have kernelHere {index : Nat} (small : index < 512)
      (isPresent : present (entry after (fa.frameAddr fresh) index) = true) :
      present (entry after kernel index) = true := by
    rcases tree.closed 2 _ ⟨rfl, rfl⟩ index small isPresent with ⟨level, _⟩ | ⟨_, kernelHere⟩
    · cases level
    · exact kernelHere
  have top (index : Nat) (small : index < 512) :
      presentTable after (fa.frameAddr fresh) index = presentTable memory kernel index := by
    have kernelSame := entries _ _ index .root small
    by_cases here : present (entry memory kernel index) = true
    · have same := tree.copied index small (by rw [kernelSame]; exact here)
      simp only [presentTable, same, kernelSame]
    · have absent : present (entry after (fa.frameAddr fresh) index) ≠ true := by
        intro isPresent
        have there := kernelHere small isPresent
        rw [kernelSame] at there
        exact here there
      rw [presentTable, if_neg absent, presentTable, if_neg here]
  have rootSmall (index : Nat) (small : index < 512)
      (here : present (entry after (fa.frameAddr fresh) index) = true) :
      (entry after (fa.frameAddr fresh) index).testBit 7 = false := by
    have same := tree.copied index small (kernelHere small here)
    rw [same, entries _ _ index .root small] at here ⊢
    exact shaped.small [] kernel index ⟨by simp, by simpa using small⟩ rfl here
  have kept (index : Nat) (indexInside : index < fa.frameCount)
      (marked : fa.used memory index = true) : fa.used after index = true := by
    rw [bits index indexInside, marked, Bool.true_or]
  exact ⟨shaped.in_frame placed inside free bits top entries rootSmall,
    fun _ isPath nonempty => tableAt_eq_of_top top entries isPath nonempty,
    presentLeaf_eq_of_top top entries, ⟨fresh, inside, rfl, free⟩,
    FrameAllocator.freeFrames_taken inside free bits, kept⟩

end Aperture.Mm.PageTable
