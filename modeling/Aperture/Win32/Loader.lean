import Aperture.Mm.AddressSpace
import Aperture.Pe.Parser

/-!
# The PE loader

`load_into_process` takes a block of frames for the image, makes a page table, clears the
block and then copies, clears and maps section after section. A panic keeps what was done
before it, so every function returns the state it leaves also when it stops. Two ghost
logs tell the loader's own writes from those of the frame allocator and the page tables.
-/

namespace Aperture.Win32

open Machine Mm Pe

/-- The fields of a process that loading writes. -/
structure Process where
  /-- Where the image lies. -/
  imageBase : Nat
  /-- Size of the image. -/
  imageSize : Nat
  /-- Absolute entry point. -/
  entryPoint : Nat
  /-- Top-level page table, 0 without one. -/
  pageTableRoot : Nat
  deriving DecidableEq, Repr

/-- Memory while an image is loaded, with the spans written so far. -/
structure Loading where
  /-- Physical memory. -/
  memory : PhysMem
  /-- Spans the loader itself wrote, newest first. -/
  image : List Span
  /-- Spans that frame allocation and page-table code wrote, newest first. -/
  tables : List Span

namespace Loading

/-- Frame allocation or page-table code has run. -/
def afterTables (s : Loading) (memory : PhysMem) : Loading where
  memory := memory
  image := s.image
  tables := memory.since s.memory ++ s.tables

/-- The memory is the one that was left. -/
@[simp]
theorem afterTables_memory (s : Loading) (memory : PhysMem) :
    (s.afterTables memory).memory = memory := rfl

/-- `copy_nonoverlapping` to an address. -/
def copyIn (s : Loading) (start : Nat) (bytes : List UInt8) : Loading where
  memory := s.memory.copyIn start bytes
  image := ⟨start, bytes.length⟩ :: s.image
  tables := s.tables

/-- `write_bytes` of zeros. -/
def clear (s : Loading) (start size : Nat) : Loading where
  memory := s.memory.fill start size 0
  image := ⟨start, size⟩ :: s.image
  tables := s.tables

end Loading

/-- Whether a frame starts where the last one ends. -/
@[irreducible]
def isNext (last frame : Nat) : Except Panic Bool := do
  let next ← add64 last 4096
  return frame = next

/-- The loop of `allocate_contiguous`: each frame must follow the last one. -/
def allocateFollowing (frames : FrameAllocator) :
    Nat → Nat → PhysMem → Except Panic Bool × PhysMem
  | 0, _, memory => (.ok true, memory)
  | remaining + 1, last, memory =>
    match frames.allocateFrame memory with
    | (none, memory) => (.ok false, memory)
    | (some frame, memory) =>
      match isNext last frame with
      | .error reason => (.error reason, memory)
      | .ok false => (.ok false, memory)
      | .ok true => allocateFollowing frames remaining frame memory

/-- `allocate_contiguous`. -/
def allocateContiguous (frames : FrameAllocator) (memory : PhysMem) (pages : Nat) :
    Except Panic (Option Nat) × PhysMem :=
  if pages = 0 then (.ok none, memory)
  else
    match frames.allocateFrame memory with
    | (none, memory) => (.ok none, memory)
    | (some first, memory) =>
      match allocateFollowing frames (pages - 1) first memory with
      | (.error reason, memory) => (.error reason, memory)
      | (.ok false, memory) => (.ok none, memory)
      | (.ok true, memory) => (.ok (some first), memory)

/-- Bytes of a section that come from the file. -/
def copySize (header : SectionHeader) : Nat := min header.rawSize header.virtualSize

/-- A file that has all bytes of a section gives as many as are copied. -/
theorem length_copied {header : SectionHeader} {data : List UInt8}
    (inFile : header.rawOffset + copySize header ≤ data.length) :
    ((data.drop header.rawOffset).take (copySize header)).length = copySize header := by
  rw [List.length_take, List.length_drop]
  omega

/-- The copy of `map_section`, when the file has the bytes. -/
def copySection (header : SectionHeader) (data : List UInt8) (dest : Nat) (s : Loading) : Loading :=
  if header.rawOffset + copySize header ≤ data.length then
    s.copyIn dest ((data.drop header.rawOffset).take (copySize header))
  else s

/-- The zeroed remainder of `map_section`. -/
def clearSection (header : SectionHeader) (dest : Nat) (s : Loading) :
    Except Panic Unit × Loading :=
  if copySize header < header.virtualSize then
    match add64 dest (copySize header) with
    | .error reason => (.error reason, s)
    | .ok start => (.ok (), s.clear start (header.virtualSize - copySize header))
  else (.ok (), s)

/-- The page mapped by `map_section`, if the process has a page table. -/
def mapSectionPage (frames : FrameAllocator) (header : SectionHeader) (physBase virtBase : Nat)
    (pageTable : Option Nat) (s : Loading) : Except Panic Unit × Loading :=
  match pageTable with
  | none => (.ok (), s)
  | some root =>
    match add64 virtBase header.virtualAddress, add64 physBase header.virtualAddress with
    | .ok virt, .ok phys =>
      (.ok (), s.afterTables (PageTable.map frames s.memory root virt phys
        (pagePresent ||| pageUser ||| pageWritable ||| pageExecute)).2)
    | .error reason, _ => (.error reason, s)
    | .ok _, .error reason => (.error reason, s)

/-- `map_section`. -/
def mapSection (frames : FrameAllocator) (header : SectionHeader) (data : List UInt8)
    (physBase virtBase : Nat) (pageTable : Option Nat) (s : Loading) :
    Except Panic Unit × Loading :=
  match add64 physBase header.virtualAddress with
  | .error reason => (.error reason, s)
  | .ok dest =>
    match clearSection header dest (copySection header data dest s) with
    | (.error reason, s) => (.error reason, s)
    | (.ok _, s) => mapSectionPage frames header physBase virtBase pageTable s

/-- The header of section `i`. -/
def sectionHeader (image : PeImage) (data : List UInt8) (i : Nat) :
    Except Panic (Option SectionHeader) := do
  let offset ← add64 image.sectionTableOffset (i * 40)
  parseSectionHeader data offset

/-- The section loop of `load_into_process`; false when a header is missing. -/
def loadSections (frames : FrameAllocator) (image : PeImage) (data : List UInt8) (base : Nat)
    (pageTable : Option Nat) : List Nat → Loading → Except Panic Bool × Loading
  | [], s => (.ok true, s)
  | i :: rest, s =>
    match sectionHeader image data i with
    | .error reason => (.error reason, s)
    | .ok none => (.ok false, s)
    | .ok (some header) =>
      match mapSection frames header data base image.imageBase pageTable s with
      | (.error reason, s) => (.error reason, s)
      | (.ok _, s) => loadSections frames image data base pageTable rest s

/-- Pages of an image. -/
def totalPages (image : PeImage) : Nat := (image.imageSize + 4095) / 4096

/-- The part of `load_into_process` after the block is allocated. -/
def loadAt (frames : FrameAllocator) (kernelCr3 : Nat) (image : PeImage) (data : List UInt8)
    (base : Nat) (process : Process) (s : Loading) :
    Except Panic Bool × Process × Loading :=
  let (pageTable, memory) := PageTable.new frames kernelCr3 s.memory
  let cleared := (s.afterTables memory).clear base (totalPages image * 4096)
  match loadSections frames image data base pageTable (List.range image.numSections) cleared with
  | (.error reason, s) => (.error reason, process, s)
  | (.ok false, s) => (.ok false, process, s)
  | (.ok true, s) =>
    let rooted := { process with pageTableRoot := pageTable.getD 0 }
    match add64 base (image.entryPoint - image.imageBase) with
    | .error reason => (.error reason, rooted, s)
    | .ok entryPoint => (.ok true, { rooted with entryPoint }, s)

/-- `load_into_process`: whether the image was loaded, the process record and the memory. -/
def loadIntoProcess (frames : FrameAllocator) (kernelCr3 : Nat) (image : PeImage)
    (process : Process) (data : List UInt8) (s : Loading) :
    Except Panic Bool × Process × Loading :=
  match allocateContiguous frames s.memory (totalPages image) with
  | (.error reason, memory) => (.error reason, process, s.afterTables memory)
  | (.ok none, memory) => (.ok false, process, s.afterTables memory)
  | (.ok (some base), memory) =>
    loadAt frames kernelCr3 image data base
      { process with imageBase := base, imageSize := image.imageSize } (s.afterTables memory)

/-! ## The block -/

variable {frames : FrameAllocator} {memory after : PhysMem}

/-- What the check for the next frame accepts. -/
theorem eq_of_isNext {last frame : Nat} (accepted : isNext last frame = .ok true) :
    frame = last + 4096 := by
  unfold isNext at accepted
  obtain ⟨next, summed, same⟩ := bind_eq_ok.mp accepted
  have total := (add64_eq_ok.mp summed).2
  have equal : frame = next := of_decide_eq_true (pure_eq_ok.mp same)
  rw [equal, total]

/-- A run of frames was free and is marked, and nothing else changed. -/
structure Granted (frames : FrameAllocator) (memory : PhysMem) (first count : Nat)
    (after : PhysMem) : Prop where
  /-- The frames exist. -/
  inside : first + count ≤ frames.frameCount
  /-- They were free. -/
  free : ∀ index, first ≤ index → index < first + count → frames.used memory index = false
  /-- They are marked. -/
  bits : ∀ index < frames.frameCount, frames.used after index =
    (frames.used memory index || decide (first ≤ index ∧ index < first + count))
  /-- There are so many free frames less. -/
  fewer : frames.freeFrames after + count = frames.freeFrames memory

/-- One more frame behind a run. -/
theorem Granted.next {middle : PhysMem} {first count index : Nat}
    (granted : Granted frames memory first count middle) (inside : index < frames.frameCount)
    (follows : index = first + count) (free : frames.used middle index = false)
    (bits : ∀ other < frames.frameCount,
      frames.used after other = (frames.used middle other || decide (other = index)))
    (fewer : frames.freeFrames after + 1 = frames.freeFrames middle) :
    Granted frames memory first (count + 1) after := by
  refine ⟨by omega, ?_, ?_, ?_⟩
  · intro other above below
    by_cases last : other = index
    · rw [granted.bits index inside, Bool.or_eq_false_iff] at free
      rw [last]
      exact free.1
    · exact granted.free other above (by omega)
  · intro other below
    rw [bits other below, granted.bits other below, Bool.or_assoc]
    congr 1
    rw [← Bool.decide_or]
    congr 1
    apply propext
    omega
  · have sum := granted.fewer
    omega

/-- The loop writes only the bitmap. -/
theorem allocateFollowing_writes (covers : frames.Covers) (remaining last : Nat)
    (memory : PhysMem) : WritesWithin frames.bitmapSpan.toSet memory
      (allocateFollowing frames remaining last memory).2 := by
  induction remaining generalizing last memory with
  | zero => exact .refl _ _
  | succ remaining ih =>
    unfold allocateFollowing
    cases returned : frames.allocateFrame memory with
    | mk result middle =>
      have writes := (FrameAllocator.allocateFrame_takes covers returned).1
      cases result with
      | none => exact writes
      | some frame =>
        simp only
        split
        · exact writes
        · exact writes
        · exact writes.trans (ih frame middle)

/-- When the loop ends, the frames follow one another. -/
theorem allocateFollowing_granted (covers : frames.Covers) {first count remaining last : Nat}
    {middle : PhysMem} (granted : Granted frames memory first count middle)
    (newest : last + 4096 = frames.frameAddr (first + count))
    (returned : allocateFollowing frames remaining last middle = (.ok true, after)) :
    Granted frames memory first (count + remaining) after := by
  induction remaining generalizing count last middle with
  | zero =>
    obtain ⟨_, rfl⟩ := Prod.mk.inj returned
    exact granted
  | succ remaining ih =>
    have scanned := frames.allocateFrame_scanned covers middle
    unfold allocateFollowing at returned
    generalize frames.allocateFrame middle = result at scanned returned
    cases scanned with
    | full => cases returned
    | @taken next index inside _ free _ bits _ =>
      simp only at returned
      split at returned
      · cases returned
      · cases returned
      · rename_i follows
        have address := (eq_of_isNext follows).trans newest
        have following := FrameAllocator.frameAddr_injective address
        have more := granted.next inside following free bits
          (FrameAllocator.freeFrames_taken inside free bits)
        have newestNow : frames.frameAddr index + 4096 =
            frames.frameAddr (first + (count + 1)) := by
          rw [following]
          simp only [FrameAllocator.frameAddr, frameSize]
          omega
        have rest := ih more newestNow returned
        rwa [Nat.add_assoc, Nat.add_comm 1] at rest

/-- `allocate_contiguous` writes only the bitmap; a block it returns is a run of frames that
were free. -/
theorem allocateContiguous_spec (covers : frames.Covers) {pages : Nat}
    {result : Except Panic (Option Nat)}
    (returned : allocateContiguous frames memory pages = (result, after)) :
    WritesWithin frames.bitmapSpan.toSet memory after ∧
      ∀ base, result = .ok (some base) → 0 < pages ∧
        ∃ first, base = frames.frameAddr first ∧ Granted frames memory first pages after := by
  unfold allocateContiguous at returned
  split at returned
  · obtain ⟨rfl, rfl⟩ := Prod.mk.inj returned
    exact ⟨.refl _ _, by simp⟩
  · rename_i positive
    have scanned := frames.allocateFrame_scanned covers memory
    generalize frames.allocateFrame memory = allocation at scanned returned
    cases scanned with
    | full _ _ writes =>
      obtain ⟨rfl, rfl⟩ := Prod.mk.inj returned
      exact ⟨writes, by simp⟩
    | @taken middle index inside _ free _ bits writes =>
      simp only at returned
      have followed := allocateFollowing_writes covers (pages - 1) (frames.frameAddr index) middle
      cases following : allocateFollowing frames (pages - 1) (frames.frameAddr index) middle with
      | mk outcome last =>
        rw [following] at followed returned
        have lastWrites := writes.trans followed
        cases outcome with
        | error reason =>
          obtain ⟨rfl, rfl⟩ := Prod.mk.inj returned
          exact ⟨lastWrites, by simp⟩
        | ok complete =>
          cases complete with
          | false =>
            obtain ⟨rfl, rfl⟩ := Prod.mk.inj returned
            exact ⟨lastWrites, by simp⟩
          | true =>
            obtain ⟨rfl, rfl⟩ := Prod.mk.inj returned
            refine ⟨lastWrites, fun base same => ⟨Nat.pos_of_ne_zero positive, index, ?_, ?_⟩⟩
            · exact (Option.some.inj (Except.ok.inj same)).symm
            · have one : Granted frames memory index 1 middle := by
                refine ⟨inside, fun other above below => ?_, fun other below => ?_,
                  FrameAllocator.freeFrames_taken inside free bits⟩
                · rw [show other = index by omega, free]
                · rw [bits other below]
                  congr 2
                  apply propext
                  omega
              have newest : frames.frameAddr index + 4096 = frames.frameAddr (index + 1) := by
                simp only [FrameAllocator.frameAddr, frameSize]
                omega
              have all := allocateFollowing_granted covers one newest following
              rwa [Nat.add_sub_cancel' (Nat.pos_of_ne_zero positive)] at all

/-- A block starts at the lowest free frame. -/
theorem allocateContiguous_lowest (covers : frames.Covers) {pages first : Nat}
    (returned : allocateContiguous frames memory pages =
      (.ok (some (frames.frameAddr first)), after)) :
    ∀ index < first, frames.used memory index = true := by
  unfold allocateContiguous at returned
  split at returned
  · cases returned
  · have scanned := frames.allocateFrame_scanned covers memory
    generalize frames.allocateFrame memory = allocation at scanned returned
    cases scanned with
    | full => cases returned
    | @taken middle lowest _ _ _ least =>
      simp only at returned
      split at returned
      · cases returned
      · cases returned
      · have same := (Prod.mk.inj returned).1
        obtain rfl := FrameAllocator.frameAddr_injective (Option.some.inj (Except.ok.inj same))
        exact fun index below => least index (Nat.zero_le index) below

/-- The check for the next frame accepts it. -/
theorem isNext_eq {last frame : Nat} (follows : frame = last + 4096) (fits : frame < wordSize) :
    isNext last frame = .ok true := by
  have next : add64 last 4096 = .ok frame := add64_eq_ok.mpr ⟨by omega, follows⟩
  unfold isNext
  rw [next, ok_bind, decide_eq_true rfl]
  rfl

/-- The free frames start with a run of so many. -/
structure FreeRun (frames : FrameAllocator) (memory : PhysMem) (first count : Nat) : Prop where
  /-- The frames exist. -/
  inside : first + count ≤ frames.frameCount
  /-- Those before are in use. -/
  taken : ∀ index < first, frames.used memory index = true
  /-- They are free. -/
  free : ∀ index, first ≤ index → index < first + count → frames.used memory index = false

/-- A frame is taken off the front of the run. -/
theorem FreeRun.allocateFrame {first count : Nat} (run : FreeRun frames memory first (count + 1))
    (covers : frames.Covers) :
    ∃ next, frames.allocateFrame memory = (some (frames.frameAddr first), next) ∧
      FreeRun frames next (first + 1) count := by
  have inside := run.inside
  obtain ⟨index, next, low, indexFree, returned, bits⟩ :=
    FrameAllocator.allocateFrame_returns covers (show first < frames.frameCount by omega)
      (run.free first (Nat.le_refl first) (by omega))
  have lowest : index = first := by
    by_contra differ
    rw [run.taken index (by omega)] at indexFree
    cases indexFree
  rw [lowest] at returned bits
  refine ⟨next, returned, by omega, fun other below => ?_, fun other above below => ?_⟩
  · rw [bits other (by omega)]
    by_cases isFirst : other = first
    · rw [decide_eq_true isFirst, Bool.or_true]
    · rw [run.taken other (by omega), Bool.true_or]
  · rw [bits other (by omega), run.free other (by omega) (by omega), decide_eq_false (by omega)]
    rfl

/-- The loop goes through a run. -/
theorem FreeRun.allocateFollowing (placed : frames.Placed) {first remaining last : Nat}
    (run : FreeRun frames memory first remaining) (newest : frames.frameAddr first = last + 4096) :
    ∃ after, allocateFollowing frames remaining last memory = (.ok true, after) := by
  induction remaining generalizing first last memory with
  | zero => exact ⟨memory, rfl⟩
  | succ remaining ih =>
    have inside := run.inside
    obtain ⟨next, returned, rest⟩ := run.allocateFrame placed.covers
    have follows := isNext_eq newest
      (PageTable.frameAddr_placed placed (show first < frames.frameCount by omega)).2
    have nextNewest : frames.frameAddr (first + 1) = frames.frameAddr first + 4096 := by
      simp only [FrameAllocator.frameAddr, frameSize]
      omega
    unfold Win32.allocateFollowing
    simp only [returned, follows]
    exact ih rest nextNewest

/-- A run of enough pages is the block. -/
theorem FreeRun.allocateContiguous (placed : frames.Placed) {first pages : Nat}
    (run : FreeRun frames memory first pages) (positive : 0 < pages) :
    ∃ after, allocateContiguous frames memory pages =
      (.ok (some (frames.frameAddr first)), after) := by
  obtain ⟨count, rfl⟩ : ∃ count, pages = count + 1 := ⟨pages - 1, by omega⟩
  obtain ⟨next, returned, rest⟩ := run.allocateFrame placed.covers
  have nextNewest : frames.frameAddr (first + 1) = frames.frameAddr first + 4096 := by
    simp only [FrameAllocator.frameAddr, frameSize]
    omega
  obtain ⟨after, followed⟩ := rest.allocateFollowing placed nextNewest
  refine ⟨after, ?_⟩
  rw [Win32.allocateContiguous, if_neg (Nat.succ_ne_zero count), returned]
  dsimp only
  rw [Nat.add_sub_cancel, followed]

end Aperture.Win32
