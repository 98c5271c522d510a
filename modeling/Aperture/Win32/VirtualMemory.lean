import Aperture.Win32.KernelFrames

/-!
# Blocks of virtual memory

`allocate_virtual_memory` takes the lowest free frames one by one and reports the first of them;
`free_virtual_memory` walks a contiguous range from the reported base. The two agree on the blocks
that are runs of free frames, and neither this loop nor the one of `allocate_contiguous` gives back
what it has taken when it fails.
-/

namespace Aperture.Win32

open Machine Mm

variable {frames : FrameAllocator} {memory after : PhysMem}

/-! ## Frames one by one -/

/-- Taking a run of free frames marks it and nothing else. -/
theorem FreeRun.allocateFrames (covers : frames.Covers) {first count : Nat} (base : Nat)
    (run : FreeRun frames memory first count) :
    ∃ last after, Nt.allocateFrames frames count base memory = (some last, after) ∧
      ∀ index, frames.used after index =
        (frames.used memory index || decide (first ≤ index ∧ index < first + count)) := by
  induction count generalizing first base memory with
  | zero =>
    refine ⟨base, memory, rfl, fun index => ?_⟩
    rw [decide_eq_false (by omega), Bool.or_false]
  | succ count ih =>
    obtain ⟨next, returned, rest⟩ := run.allocateFrame covers
    obtain ⟨index, _, address, rfl, _⟩ := FrameAllocator.allocateFrame_marks covers returned
    obtain rfl := FrameAllocator.frameAddr_injective address
    obtain ⟨last, after, looped, bits⟩ :=
      ih (if base = 0 then frames.frameAddr first else base) rest
    refine ⟨last, after, ?_, fun index => ?_⟩
    · unfold Nt.allocateFrames
      rw [returned]
      exact looped
    · rw [bits, FrameAllocator.used_mark]
      by_cases here : index = first
      · simp [here]
      · have shifted : (first + 1 ≤ index ∧ index < first + 1 + count) ↔
            (first ≤ index ∧ index < first + (count + 1)) := by omega
        simp only [if_neg here, shifted]

/-- A run of free frames starts at the lowest of them. -/
theorem FreeRun.first_eq {start first count : Nat} (run : FreeRun frames memory start count)
    (nonempty : 0 < count) (free : frames.used memory first = false)
    (lowest : ∀ lower < first, frames.used memory lower = true) : start = first := by
  rcases Nat.lt_trichotomy start first with below | same | above
  · have startFree := run.free start (Nat.le_refl start) (by omega)
    rw [lowest start below] at startFree
    cases startFree
  · exact same
  · have firstUsed := run.taken first above
    rw [free] at firstUsed
    cases firstUsed

/-- A base that is already set is the one returned. -/
theorem allocateFrames_base {count base last : Nat} (set : base ≠ 0)
    (returned : Nt.allocateFrames frames count base memory = (some last, after)) : last = base := by
  induction count generalizing memory with
  | zero => exact (Option.some.inj (Prod.mk.inj returned).1).symm
  | succ count ih =>
    unfold Nt.allocateFrames at returned
    split at returned
    · cases returned
    · rw [if_neg set] at returned
      exact ih returned

/-- The loop reports the lowest free frame, unless that frame is at address zero and others
follow: then it reports a later one. -/
theorem allocateFrames_first (covers : frames.Covers) {count last : Nat}
    (returned : Nt.allocateFrames frames (count + 1) 0 memory = (some last, after)) :
    ∃ first < frames.frameCount, frames.used memory first = false ∧
      (∀ lower < first, frames.used memory lower = true) ∧ frames.used after first = true ∧
      (frames.frameAddr first ≠ 0 ∨ count = 0 → last = frames.frameAddr first) ∧
      (frames.frameAddr first = 0 → count ≠ 0 → 0 < last) := by
  unfold Nt.allocateFrames at returned
  split at returned
  · cases returned
  · rename_i frame middle taken
    obtain ⟨first, inside, rfl, rfl, free, lowest⟩ :=
      FrameAllocator.allocateFrame_marks covers taken
    have firstMarked : frames.used (frames.mark memory first true) first = true := by
      rw [FrameAllocator.used_mark, if_pos rfl]
    rw [if_pos rfl] at returned
    have kept := (Holding.keeps_allocateFrames covers count (frames.frameAddr first)
      (frames.mark memory first true)).1 first inside firstMarked
    rw [returned] at kept
    refine ⟨first, inside, free, lowest, kept, fun reported => ?_, fun zero more => ?_⟩
    · rcases reported with nonzero | alone
      · exact allocateFrames_base nonzero returned
      · rw [alone] at returned
        exact (Option.some.inj (Prod.mk.inj returned).1).symm
    · obtain ⟨count, rfl⟩ := Nat.exists_eq_succ_of_ne_zero more
      rw [zero] at returned
      unfold Nt.allocateFrames at returned
      split at returned
      · cases returned
      · rename_i next further takenNext
        obtain ⟨second, _, rfl, rfl, secondFree, _⟩ :=
          FrameAllocator.allocateFrame_marks covers takenNext
        have differs : second ≠ first := by
          rintro rfl
          rw [firstMarked] at secondFree
          cases secondFree
        have above : first < second := by
          by_contra notAbove
          rw [FrameAllocator.used_mark, if_neg differs, lowest second (by omega)] at secondFree
          cases secondFree
        have positive : 0 < frames.frameAddr second := by
          unfold FrameAllocator.frameAddr frameSize
          omega
        rw [if_pos rfl] at returned
        rw [allocateFrames_base positive.ne' returned]
        exact positive

/-- Releasing frames from a base that is a frame clears their bits and no others. -/
theorem freeFrames_run (placed : frames.Placed) {first : Nat} (pages : List Nat)
    (inside : ∀ i ∈ pages, first + i < frames.frameCount) (memory : PhysMem) :
    ∃ last, Nt.freeFrames frames (frames.frameAddr first) pages memory = .ok last ∧
      ∀ index, frames.used last index =
        (frames.used memory index && decide (∀ i ∈ pages, index ≠ first + i)) := by
  induction pages generalizing memory with
  | nil => exact ⟨memory, rfl, fun index => by simp⟩
  | cons i pages ih =>
    have here := inside i List.mem_cons_self
    have sum : add64 (frames.frameAddr first) (i * 4096) = .ok (frames.frameAddr (first + i)) := by
      rw [add64_eq_ok, ← FrameAllocator.frameAddr_add]
      exact ⟨(PageTable.frameAddr_placed placed here).2, rfl⟩
    obtain ⟨last, freed, bits⟩ := ih (fun j member => inside j (List.mem_cons_of_mem i member))
      (frames.freeFrame memory (frames.frameAddr (first + i)))
    refine ⟨last, ?_, fun index => ?_⟩
    · unfold Nt.freeFrames
      rw [sum, ok_bind]
      exact freed
    · rw [bits, FrameAllocator.freeFrame_frameAddr here, FrameAllocator.used_mark]
      by_cases same : index = first + i
      · simp [same]
      · simp [same]

namespace Nt

variable {nt next : Nt} {size base : Nat}

/-- The block from a base is what `allocate_virtual_memory` took, and `free_virtual_memory` of it
restores the bitmap. -/
structure Inverse (nt : Nt) (size base : Nat) (next : Nt) : Prop where
  /-- The frames of the block were free. -/
  free : ∀ i < Holding.pagesOf size, ∃ index < nt.frames.frameCount,
    nt.frames.frameAddr index = base + i * 4096 ∧ nt.frames.used nt.files.memory index = false
  /-- They are the ones taken. -/
  taken : ∀ index < nt.frames.frameCount, nt.frames.used next.files.memory index = true ↔
    nt.frames.used nt.files.memory index = true ∨
      ∃ i < Holding.pagesOf size, nt.frames.frameAddr index = base + i * 4096
  /-- Every bit of the bitmap is restored. -/
  restored : ∃ freed, next.freeVirtualMemory base size = .ok freed ∧
    ∀ index, nt.frames.used freed.files.memory index = nt.frames.used nt.files.memory index

/-- `free_virtual_memory` with a size that does not overflow. -/
theorem freeVirtualMemory_eq {memory : PhysMem} (fits : size + 4095 < wordSize)
    (freed : freeFrames nt.frames base (List.range (Holding.pagesOf size)) nt.files.memory =
      .ok memory) : nt.freeVirtualMemory base size = .ok (nt.withMemory memory) := by
  have rounded : add64 size 4095 = .ok (size + 4095) := add64_eq_ok.mpr ⟨fits, rfl⟩
  unfold freeVirtualMemory
  rw [rounded, ok_bind]
  exact bind_eq_ok.mpr ⟨memory, freed, rfl⟩

/-- A size that `allocate_virtual_memory` returns for does not overflow. -/
theorem allocateVirtualMemory_fits {result : Option Nat}
    (returned : nt.allocateVirtualMemory size = .ok (result, next)) : size + 4095 < wordSize := by
  obtain ⟨rounded, sum, _⟩ := bind_eq_ok.mp returned
  exact (add64_eq_ok.mp sum).1

/-- A run of free frames is a block with an inverse. -/
theorem inverse_of_run (placed : nt.frames.Placed) {first : Nat} {memory : PhysMem}
    (fits : size + 4095 < wordSize)
    (run : FreeRun nt.frames nt.files.memory first (Holding.pagesOf size))
    (bits : ∀ index, nt.frames.used memory index = (nt.frames.used nt.files.memory index ||
      decide (first ≤ index ∧ index < first + Holding.pagesOf size))) :
    nt.Inverse size (nt.frames.frameAddr first) (nt.withMemory memory) := by
  have inside := run.inside
  refine ⟨fun i below => ⟨first + i, by omega, FrameAllocator.frameAddr_add _ _ _,
    run.free _ (by omega) (by omega)⟩, fun index below => ?_, ?_⟩
  · show nt.frames.used memory index = true ↔ _
    rw [bits, Bool.or_eq_true, decide_eq_true_eq]
    refine or_congr_right ⟨fun range => ⟨index - first, by omega, ?_⟩, ?_⟩
    · rw [← FrameAllocator.frameAddr_add, Nat.add_sub_cancel' range.1]
    · rintro ⟨i, belowPages, same⟩
      have equal := FrameAllocator.eq_add_of_frameAddr same
      omega
  · have listedInside : ∀ i ∈ List.range (Holding.pagesOf size),
        first + i < nt.frames.frameCount := by
      intro i member
      have below := List.mem_range.mp member
      omega
    obtain ⟨last, freed, cleared⟩ := freeFrames_run placed _ listedInside memory
    have released : (nt.withMemory memory).freeVirtualMemory (nt.frames.frameAddr first) size =
        .ok ((nt.withMemory memory).withMemory last) := freeVirtualMemory_eq fits freed
    refine ⟨_, released, fun index => ?_⟩
    show nt.frames.used last index = _
    rw [cleared, bits]
    by_cases range : first ≤ index ∧ index < first + Holding.pagesOf size
    · have listed : ¬∀ i ∈ List.range (Holding.pagesOf size), index ≠ first + i := by
        intro others
        exact others (index - first) (List.mem_range.mpr (by omega)) (by omega)
      rw [decide_eq_false listed, Bool.and_false, run.free index range.1 range.2]
    · have unlisted : ∀ i ∈ List.range (Holding.pagesOf size), index ≠ first + i := by
        intro i member
        have below := List.mem_range.mp member
        omega
      rw [decide_eq_true unlisted, decide_eq_false range, Bool.or_false, Bool.and_true]

/-- A block of no pages has an inverse at any base. -/
theorem inverse_of_no_pages (nt : Nt) (base : Nat) (fits : size + 4095 < wordSize)
    (empty : Holding.pagesOf size = 0) : nt.Inverse size base (nt.withMemory nt.files.memory) := by
  have freed : freeFrames nt.frames base (List.range (Holding.pagesOf size)) nt.files.memory =
      .ok nt.files.memory := by
    rw [empty]
    rfl
  have released : (nt.withMemory nt.files.memory).freeVirtualMemory base size =
      .ok ((nt.withMemory nt.files.memory).withMemory nt.files.memory) :=
    freeVirtualMemory_eq fits freed
  refine ⟨fun i below => by omega, fun index _ => ⟨.inl, ?_⟩, ⟨_, released, fun _ => rfl⟩⟩
  rintro (marked | ⟨i, below, _⟩)
  · exact marked
  · omega

/-- A block with an inverse starts at the lowest free frame, once that frame is taken, and its
frames are a run. -/
theorem Inverse.run_of_lowest {first : Nat} (inverse : nt.Inverse size base next)
    (nonempty : 0 < Holding.pagesOf size) (inside : first < nt.frames.frameCount)
    (free : nt.frames.used nt.files.memory first = false)
    (lowest : ∀ lower < first, nt.frames.used nt.files.memory lower = true)
    (marked : nt.frames.used next.files.memory first = true) :
    base = nt.frames.frameAddr first ∧
      FreeRun nt.frames nt.files.memory first (Holding.pagesOf size) := by
  have taken := (inverse.taken first inside).mp marked
  rw [free] at taken
  obtain ⟨i, _, address⟩ := taken.resolve_left Bool.false_ne_true
  obtain ⟨index, _, atBase, indexFree⟩ := inverse.free 0 nonempty
  rw [Nat.zero_mul, Nat.add_zero] at atBase
  rw [← atBase] at address
  have above : first ≤ index := by
    by_contra below
    rw [lowest index (by omega)] at indexFree
    cases indexFree
  have atFirst : index = first := by
    have behind := FrameAllocator.eq_add_of_frameAddr address
    omega
  rw [atFirst] at atBase
  have frame (i : Nat) (below : i < Holding.pagesOf size) :
      first + i < nt.frames.frameCount ∧ nt.frames.used nt.files.memory (first + i) = false := by
    obtain ⟨other, otherInside, otherAddress, otherFree⟩ := inverse.free i below
    rw [← atBase] at otherAddress
    rw [← FrameAllocator.eq_add_of_frameAddr otherAddress]
    exact ⟨otherInside, otherFree⟩
  refine ⟨atBase.symm, ?_, lowest, fun index above below => ?_⟩
  · have lastFrame := (frame (Holding.pagesOf size - 1) (by omega)).1
    omega
  · rw [← Nat.add_sub_cancel' above]
    exact (frame (index - first) (by omega)).2

/-- For every bitmap and every block that `allocate_virtual_memory` returns: its frames are the
ones taken and `free_virtual_memory` restores the bitmap exactly when the lowest free frames are as
many in a row as the size needs, and the first of several is not at address zero. -/
theorem allocateVirtualMemory_inverse_iff (placed : nt.frames.Placed)
    (returned : nt.allocateVirtualMemory size = .ok (some base, next)) :
    nt.Inverse size base next ↔
      ∃ first, FreeRun nt.frames nt.files.memory first (Holding.pagesOf size) ∧
        (2 ≤ Holding.pagesOf size → nt.frames.frameAddr first ≠ 0) := by
  have covers := placed.covers
  have fits := allocateVirtualMemory_fits returned
  obtain ⟨baseEq, rfl⟩ := Holding.allocateVirtualMemory_eq returned
  cases pages : Holding.pagesOf size with
  | zero =>
    have looped : allocateFrames nt.frames (Holding.pagesOf size) 0 nt.files.memory =
        (some 0, nt.files.memory) := by
      rw [pages]
      rfl
    rw [pages] at looped
    rw [looped]
    refine ⟨fun _ => ⟨0, ⟨by omega, fun _ below => by omega, fun _ _ below => by omega⟩,
      fun several => by omega⟩, fun _ => nt.inverse_of_no_pages base fits pages⟩
  | succ count =>
    rw [pages] at baseEq
    have looped : allocateFrames nt.frames (count + 1) 0 nt.files.memory =
        (some base, (allocateFrames nt.frames (count + 1) 0 nt.files.memory).2) :=
      Prod.ext baseEq.symm rfl
    obtain ⟨first, inside, free, lowest, marked, reported, later⟩ :=
      allocateFrames_first covers looped
    constructor
    · intro inverse
      obtain ⟨atFirst, run⟩ := inverse.run_of_lowest (by omega) inside free lowest marked
      rw [pages] at run
      refine ⟨first, run, fun several zero => ?_⟩
      have positive := later zero (by omega)
      omega
    · rintro ⟨start, run, nonzero⟩
      obtain rfl := run.first_eq (Nat.succ_pos count) free lowest
      have baseAt : base = nt.frames.frameAddr start := by
        by_cases alone : count = 0
        · exact reported (.inr alone)
        · exact reported (.inl (nonzero (by omega)))
      obtain ⟨last, after, ended, bits⟩ := run.allocateFrames covers 0
      rw [baseAt, ended]
      rw [← pages] at run bits
      exact inverse_of_run placed fits run bits

/-- A kernel with four frames, whose bits are given. -/
def fourFramesNt (bits : UInt8) : Nt :=
  { Holding.mebibyteNt ⟨fun address => if address = 0x100000 then bits else 0, []⟩ with
    frames := FrameAllocator.fourFrames }

/-- An allocation from these frames. -/
theorem fourFramesNt_allocates (bits : UInt8) {size : Nat} {base : Option Nat}
    (fits : size + 4095 < wordSize)
    (looped : (allocateFrames FrameAllocator.fourFrames (Holding.pagesOf size) 0
      (fourFramesNt bits).files.memory).1 = base) :
    ∃ next, (fourFramesNt bits).allocateVirtualMemory size = .ok (base, next) := by
  have rounded : add64 size 4095 = .ok (size + 4095) := add64_eq_ok.mpr ⟨fits, rfl⟩
  refine ⟨(fourFramesNt bits).withMemory (allocateFrames FrameAllocator.fourFrames
    (Holding.pagesOf size) 0 (fourFramesNt bits).files.memory).2, ?_⟩
  rw [← looped]
  unfold allocateVirtualMemory
  rw [rounded, ok_bind]
  rfl

/-- With the bitmap's frame alone in use, two pages are taken and given back. -/
theorem allocateVirtualMemory_inverse_iff_fourFrames :
    ∃ next, (fourFramesNt 1).allocateVirtualMemory 8192 = .ok (some 0x101000, next) ∧
      (fourFramesNt 1).Inverse 8192 0x101000 next := by
  obtain ⟨next, returned⟩ := fourFramesNt_allocates 1 (show 8192 + 4095 < wordSize by decide)
    (show _ = some 0x101000 by decide +kernel)
  have run : FreeRun FrameAllocator.fourFrames (fourFramesNt 1).files.memory 1
      (Holding.pagesOf 8192) := by
    refine ⟨by decide, fun index below => ?_, fun index above below => ?_⟩
    · rw [Nat.lt_one_iff.mp below]
      decide +kernel
    · have pages : Holding.pagesOf 8192 = 2 := rfl
      rcases show index = 1 ∨ index = 2 by omega with rfl | rfl
      · decide +kernel
      · decide +kernel
  have inverse := (allocateVirtualMemory_inverse_iff FrameAllocator.fourFrames_placed returned).mpr
    ⟨1, run, fun _ => by decide⟩
  exact ⟨next, returned, inverse⟩

/-- With frames 0 and 2 in use, an allocation of two pages takes frames 1 and 3 and reports frame
1, whose next frame was in use. -/
theorem allocateVirtualMemory_inverse_counterexample :
    ∃ next, (fourFramesNt 5).allocateVirtualMemory 8192 = .ok (some 0x101000, next) ∧
      FrameAllocator.fourFrames.frameAddr 2 = 0x102000 ∧
      FrameAllocator.fourFrames.used (fourFramesNt 5).files.memory 2 = true ∧
      ¬(fourFramesNt 5).Inverse 8192 0x101000 next := by
  obtain ⟨next, returned⟩ := fourFramesNt_allocates 5 (show 8192 + 4095 < wordSize by decide)
    (show _ = some 0x101000 by decide +kernel)
  have inUse : FrameAllocator.fourFrames.used (fourFramesNt 5).files.memory 2 = true := by
    decide +kernel
  refine ⟨next, returned, rfl, inUse, fun inverse => ?_⟩
  obtain ⟨index, _, address, free⟩ := inverse.free 1 (by decide)
  have sameAddress : FrameAllocator.fourFrames.frameAddr index =
      FrameAllocator.fourFrames.frameAddr 2 := address
  have second : index = 2 := FrameAllocator.frameAddr_injective sameAddress
  have free : FrameAllocator.fourFrames.used (fourFramesNt 5).files.memory index = false := free
  rw [second, inUse] at free
  cases free

end Nt

/-! ## Failed allocations -/

/-- The same frames are free. -/
def SameFree (frames : FrameAllocator) (memory after : PhysMem) : Prop :=
  ∀ index < frames.frameCount, frames.used after index = frames.used memory index

/-- A loop of `allocate_virtual_memory` that fails has taken every free frame. -/
theorem allocateFrames_exhausts (covers : frames.Covers) {count base : Nat}
    (returned : Nt.allocateFrames frames count base memory = (none, after)) :
    frames.freeFrames after = 0 := by
  induction count generalizing base memory with
  | zero => cases returned
  | succ count ih =>
    unfold Nt.allocateFrames at returned
    split at returned
    · rename_i middle failed
      obtain ⟨_, rfl⟩ := Prod.mk.inj returned
      rcases FrameAllocator.freeFrames_allocateFrame covers failed with ⟨_, _, empty⟩ | ⟨found, _⟩
      · exact empty
      · cases found
    · exact ih returned

/-- A failed `allocate_virtual_memory` leaves the same frames free exactly when none was. -/
theorem allocateFrames_sameFree_iff (covers : frames.Covers) {count base : Nat}
    (returned : Nt.allocateFrames frames count base memory = (none, after)) :
    SameFree frames memory after ↔ frames.freeFrames memory = 0 := by
  constructor
  · intro same
    rw [← FrameAllocator.freeFrames_congr same]
    exact allocateFrames_exhausts covers returned
  · intro empty
    obtain ⟨left, failed, same, _⟩ := FrameAllocator.allocateFrame_empty covers empty
    cases count with
    | zero => cases returned
    | succ count =>
      unfold Nt.allocateFrames at returned
      rw [failed] at returned
      obtain ⟨_, rfl⟩ := Prod.mk.inj returned
      exact same

/-- A failed `allocate_contiguous` leaves the same frames free exactly when it was asked for no
pages or no frame was free. -/
theorem allocateContiguous_sameFree_iff (covers : frames.Covers) {pages : Nat}
    (returned : allocateContiguous frames memory pages = (.ok none, after)) :
    SameFree frames memory after ↔ pages = 0 ∨ frames.freeFrames memory = 0 := by
  by_cases none : pages = 0
  · have unchanged : allocateContiguous frames memory pages = (.ok .none, memory) := if_pos none
    obtain ⟨_, rfl⟩ := Prod.mk.inj (unchanged.symm.trans returned)
    exact ⟨fun _ => .inl none, fun _ _ _ => rfl⟩
  · unfold allocateContiguous at returned
    rw [if_neg none] at returned
    cases allocated : frames.allocateFrame memory with
    | mk result middle =>
      rw [allocated] at returned
      cases result with
      | none =>
        obtain ⟨_, rfl⟩ := Prod.mk.inj returned
        have empty : frames.freeFrames memory = 0 := by
          rcases FrameAllocator.freeFrames_allocateFrame covers allocated with
            ⟨_, zero, _⟩ | ⟨found, _⟩
          · exact zero
          · cases found
        obtain ⟨left, failed, same, _⟩ := FrameAllocator.allocateFrame_empty covers empty
        obtain ⟨_, rfl⟩ := Prod.mk.inj (allocated.symm.trans failed)
        exact ⟨fun _ => .inr empty, fun _ => same⟩
      | some first =>
        obtain ⟨index, inside, _, rfl, free, _⟩ :=
          FrameAllocator.allocateFrame_marks covers allocated
        have kept := Holding.keeps_allocateFollowing covers (pages - 1) first
          (frames.mark memory index true) index inside
            (by rw [FrameAllocator.used_mark, if_pos rfl])
        have last : after = (allocateFollowing frames (pages - 1) first
            (frames.mark memory index true)).2 := by
          dsimp only at returned
          split at returned
          · cases returned
          · rename_i followed
            rw [followed]
            exact (Prod.mk.inj returned).2.symm
          · cases returned
        constructor
        · intro same
          rw [← last, same index inside, free] at kept
          cases kept
        · rintro (zero | empty)
          · exact absurd zero none
          · rw [FrameAllocator.used_of_freeFrames_eq_zero empty index inside] at free
            cases free

/-- For every bitmap: a failed allocation leaves the same frames free exactly when it takes none,
that is, when no frame is free at its start or, for `allocate_contiguous`, no page is asked for. -/
theorem failedAllocation_sameFree_iff {nt : Nt} (placed : nt.frames.Placed) :
    (∀ size next, nt.allocateVirtualMemory size = .ok (none, next) →
      (SameFree nt.frames nt.files.memory next.files.memory ↔
        nt.frames.freeFrames nt.files.memory = 0)) ∧
    ∀ pages after, allocateContiguous nt.frames nt.files.memory pages = (.ok none, after) →
      (SameFree nt.frames nt.files.memory after ↔
        pages = 0 ∨ nt.frames.freeFrames nt.files.memory = 0) := by
  have covers := placed.covers
  refine ⟨fun size next returned => ?_, fun pages after => allocateContiguous_sameFree_iff covers⟩
  obtain ⟨noBase, rfl⟩ := Holding.allocateVirtualMemory_eq returned
  exact allocateFrames_sameFree_iff covers (Prod.ext noBase.symm rfl)

/-- With every frame in use, an allocation of one page fails and changes nothing. -/
theorem failedAllocation_sameFree_iff_full :
    ∃ next, (Nt.fourFramesNt 15).allocateVirtualMemory 4096 = .ok (none, next) ∧
      SameFree FrameAllocator.fourFrames (Nt.fourFramesNt 15).files.memory next.files.memory := by
  obtain ⟨next, returned⟩ := Nt.fourFramesNt_allocates 15 (show 4096 + 4095 < wordSize by decide)
    (show _ = none by decide +kernel)
  have placed : (Nt.fourFramesNt 15).frames.Placed := FrameAllocator.fourFrames_placed
  exact ⟨next, returned, ((failedAllocation_sameFree_iff placed).1 4096 next returned).mpr
    (by decide +kernel)⟩

/-- With frames 0 and 2 in use, three pages of virtual memory and two pages in a row are refused,
and each refusal leaves frames 1 and 3 in use. -/
theorem failedAllocation_counterexample :
    (∃ next, (Nt.fourFramesNt 5).allocateVirtualMemory 12288 = .ok (none, next) ∧
      ¬SameFree FrameAllocator.fourFrames (Nt.fourFramesNt 5).files.memory next.files.memory) ∧
    ∃ after, allocateContiguous FrameAllocator.fourFrames (Nt.fourFramesNt 5).files.memory 2 =
        (.ok none, after) ∧
      ¬SameFree FrameAllocator.fourFrames (Nt.fourFramesNt 5).files.memory after := by
  have covers : FrameAllocator.fourFrames.Covers := FrameAllocator.fourFrames_placed.covers
  have someFree : FrameAllocator.fourFrames.freeFrames (Nt.fourFramesNt 5).files.memory ≠ 0 := by
    decide +kernel
  constructor
  · obtain ⟨next, returned⟩ := Nt.fourFramesNt_allocates 5
      (show 12288 + 4095 < wordSize by decide) (show _ = none by decide +kernel)
    obtain ⟨noBase, rfl⟩ := Holding.allocateVirtualMemory_eq returned
    refine ⟨_, returned, fun same => someFree ?_⟩
    exact (allocateFrames_sameFree_iff covers (Prod.ext noBase.symm rfl)).mp same
  · have refused : (allocateContiguous FrameAllocator.fourFrames
        (Nt.fourFramesNt 5).files.memory 2).1 = .ok none := by decide +kernel
    refine ⟨_, Prod.ext refused rfl, fun same => ?_⟩
    rcases (allocateContiguous_sameFree_iff covers (Prod.ext refused rfl)).mp same with none | empty
    · cases none
    · exact someFree empty

end Aperture.Win32
