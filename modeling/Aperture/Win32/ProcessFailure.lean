import Aperture.Vfs.LiveBuffers
import Aperture.Win32.FileCreation
import Aperture.Win32.InterpretedGuests
import Aperture.Win32.VirtualMemory

/-!
# Failed calls of `create_user_process`

A call opens the file, takes heap for its bytes, reads and closes it, takes heap for the process,
then frames for the image and for page tables, and last a handle. Nothing is taken back: the open
files stay as they are once the file is closed again, the frames only until the first is taken.
-/

namespace Aperture.Win32.Nt

open Machine Mm Pe Vfs PageTable

variable {nt next : Nt} {fs : FileSystem} {path : List UInt8} {node : Nat}
  {layout : Nat → Process → List UInt8} {kernelCr3 : Nat}

/-- The open files, the free frames and the handle table are as before. -/
structure SameShared (nt next : Nt) : Prop where
  /-- The open files. -/
  openFiles : next.files.openFiles = nt.files.openFiles
  /-- The frames. -/
  frames : SameFree nt.frames nt.files.memory next.files.memory
  /-- The handles. -/
  objects : next.objects = nt.objects

/-- A path names a file, and there is a slot to open it with. -/
structure OpensFile (nt : Nt) (path : List UInt8) (node : Nat) : Prop where
  /-- The node of the path. -/
  found : nt.files.lookup path = some node
  /-- It is a file. -/
  isFile : ∃ above name, nt.files.nodes node = some ⟨.file, above, name⟩
  /-- A slot is free. -/
  slot : ¬OpenFull nt.files

/-- The early heap behind the buffer for a file. -/
def heapBehind (nt : Nt) (node : Nat) : BumpAllocator :=
  { nt.scheduler.heap with
    next := nt.scheduler.heap.aligned 1 + nt.files.fileSizes node }

/-- The kernel with a file in the early heap, closed again. -/
def buffered (nt : Nt) (node : Nat) : Nt :=
  { nt with
    files := { nt.files with
      memory := FileSystem.copies (nt.files.fileData node) (nt.files.fileSizes node) 0
        (nt.scheduler.heap.aligned 1) (nt.files.fileSizes node) nt.files.memory }
    scheduler := { nt.scheduler with heap := nt.heapBehind node } }

/-- The bytes that lie in the buffer then: those of the file, unless the buffer is on its frames. -/
def bufferedBytes (nt : Nt) (node : Nat) : List UInt8 :=
  (nt.buffered node).files.memory.readBytes (nt.scheduler.heap.aligned 1) (nt.files.fileSizes node)

/-- Memory with a new process, when its image is loaded. -/
def loadStart (layout : Nat → Process → List UInt8) (nt : Nt) (pid : Nat) : PhysMem :=
  nt.files.memory.copyIn (nt.scheduler.heap.aligned processAlign) (layout pid ⟨0, 0, 0, 0⟩)

/-- Creating a process of a file comes to its end before a frame is taken: the file fits in the
heap, and is no image, or there is no heap for the process, or no frame for the image. Neither the
file nor the process changes a bit of the bitmap, in case the heap lies over it. -/
structure FailsEarly (layout : Nat → Process → List UInt8) (nt : Nt) (node : Nat) : Prop where
  /-- The file fits. -/
  buffer : nt.scheduler.heap.Fits (nt.files.fileSizes node) 1
  /-- Its bytes change no frame. -/
  kept : SameFree nt.frames nt.files.memory (nt.buffered node).files.memory
  /-- An image is given up at once. -/
  gives_up : ∀ image, parsePe (nt.bufferedBytes node) = .ok (some image) →
    ¬(nt.heapBehind node).Fits processSize processAlign ∨
      (totalPages image = 0 ∨ nt.frames.freeFrames nt.files.memory = 0) ∧
        SameFree nt.frames nt.files.memory (loadStart layout (nt.buffered node) 1)

/-! ## Reading -/

/-- A size that is read is the one of the table. -/
theorem sizeAt_eq {size : Nat} (sized : fs.sizeAt node = .ok size) : size = fs.fileSizes node := by
  unfold FileSystem.sizeAt at sized
  split at sized
  · cases sized
  · exact (Except.ok.inj sized).symm

/-- The size of an open file. -/
theorem fileSize_open {slot : Nat} {file : OpenFile} {size : Option Nat}
    (isOpen : fs.openAt slot = .ok (some file)) (returned : fs.fileSize slot = .ok size) :
    size = some (fs.fileSizes file.node) := by
  rw [FileSystem.fileSize, isOpen, ok_bind] at returned
  obtain ⟨value, sized, returned⟩ := bind_eq_ok.mp returned
  obtain rfl := pure_eq_ok.mp returned
  rw [sizeAt_eq sized]

/-- From its start a file is read whole, into a buffer of its size. -/
theorem readInto_whole {slot target : Nat} {count : Option Nat} {after : FileSystem}
    (isOpen : fs.openAt slot = .ok (some ⟨node, 0, false⟩))
    (returned : fs.readInto slot target (fs.fileSizes node) = .ok (count, after)) :
    count = some (fs.fileSizes node) ∧ ∃ position,
      after = { fs.seek slot ⟨node, 0, false⟩ position with
        memory := FileSystem.copies (fs.fileData node) (fs.fileSizes node) 0 target
          (fs.fileSizes node) fs.memory } := by
  rw [FileSystem.readInto, isOpen, ok_bind] at returned
  obtain ⟨size, sizing, returned⟩ := bind_eq_ok.mp returned
  obtain ⟨⟨position, middle⟩, looping, returned⟩ := bind_eq_ok.mp returned
  obtain rfl := sizeAt_eq sizing
  obtain ⟨last, rfl⟩ := FileSystem.readLoopInto_eq looping
  obtain ⟨rfl, rfl⟩ := Prod.mk.inj (pure_eq_ok.mp returned)
  refine ⟨?_, position, rfl⟩
  dsimp only at last ⊢
  congr 1
  omega

/-! ## Up to the image -/

/-- Without a file to open, `open_vfs_file` leaves the file system as it was; otherwise it opens
the file in an empty slot. -/
theorem openVfsFile_opens {result : Except NtStatus Nat} {files : FileSystem}
    (returned : openVfsFile nt.files path false false = .ok (result, files)) :
    ((∀ node, ¬OpensFile nt path node) ∧ (∃ status, result = .error status) ∧ files = nt.files) ∨
    ∃ node slot, OpensFile nt path node ∧ result = .ok slot ∧ slot < maxOpenFiles ∧
      nt.files.openFiles slot = none ∧
      files = { nt.files with
        openFiles := Function.update nt.files.openFiles slot (some ⟨node, 0, false⟩) } := by
  obtain ⟨⟨status, rfl, _⟩, rfl, refuses⟩ | ⟨node, resolved, opened, resolves, opening, rfl⟩ :=
    openVfsFile_cases returned
  · exact .inl ⟨fun node opens => refuses node _ (.found opens.found), ⟨status, rfl⟩, rfl⟩
  cases resolves with
  | found isFound =>
    obtain ⟨rfl, rfl, reason⟩ | ⟨slot, above, name, rfl, isFile, small, empty, rfl⟩ :=
      FileSystem.openFile_cases opening
    · refine .inl ⟨fun other opens => ?_, ⟨_, rfl⟩, rfl⟩
      obtain rfl := Option.some.inj (isFound.symm.trans opens.found)
      obtain ⟨above, name, isFile⟩ := opens.isFile
      rcases reason with noFile | full
      · exact noFile above name isFile
      · exact opens.slot full
    · exact .inr ⟨node, slot, ⟨isFound, ⟨above, name, isFile⟩, fun full => full slot small empty⟩,
        rfl, small, empty, rfl⟩

/-- A call finds no file, or leaves it open for want of heap, or hands it to `load_pe`. -/
theorem createUserProcess_cases {result : Option (Handle × Bool)}
    (returned : nt.createUserProcess layout kernelCr3 path = .ok (result, next)) :
    ((∀ node, ¬OpensFile nt path node) ∧ next = nt) ∨
    ∃ node, OpensFile nt path node ∧
      ((¬nt.scheduler.heap.Fits (nt.files.fileSizes node) 1 ∧
          next.files.openFiles ≠ nt.files.openFiles) ∨
        (nt.scheduler.heap.Fits (nt.files.fileSizes node) 1 ∧
          (nt.buffered node).loadPe layout kernelCr3 (nt.bufferedBytes node) 1 =
            .ok (result, next))) := by
  obtain ⟨⟨opened, files⟩, opening, returned⟩ := bind_eq_ok.mp returned
  obtain ⟨none, ⟨status, rfl⟩, rfl⟩ | ⟨node, slot, opens, rfl, small, empty, rfl⟩ :=
    openVfsFile_opens opening
  · obtain ⟨rfl, rfl⟩ := Prod.mk.inj (pure_eq_ok.mp returned)
    exact .inl ⟨none, rfl⟩
  refine .inr ⟨node, opens, ?_⟩
  have isOpen (fs : FileSystem) (stored : fs.openFiles slot = some ⟨node, 0, false⟩) :
      fs.openAt slot = .ok (some ⟨node, 0, false⟩) := by
    rw [FileSystem.openAt, if_neg (by omega), stored]
  have opened := isOpen { nt.files with
    openFiles := Function.update nt.files.openFiles slot (some ⟨node, 0, false⟩) }
    (Function.update_self _ _ _)
  obtain ⟨size, sizing, returned⟩ := bind_eq_ok.mp returned
  obtain rfl := fileSize_open opened sizing
  obtain ⟨⟨buf, middle⟩, allocating, returned⟩ := bind_eq_ok.mp returned
  obtain ⟨⟨place, heap⟩, allocated, same⟩ := bind_eq_ok.mp allocating
  obtain ⟨rfl, rfl⟩ := Prod.mk.inj (pure_eq_ok.mp same)
  cases place with
  | none =>
    obtain ⟨_, rfl⟩ := Prod.mk.inj (pure_eq_ok.mp returned)
    exact .inl ⟨(BumpAllocator.allocate_eq_none allocated).2, openFiles_update_ne empty⟩
  | some buf =>
    obtain ⟨fits, rfl, rfl⟩ := BumpAllocator.allocate_eq_some.mp allocated
    refine .inr ⟨fits, ?_⟩
    obtain ⟨_, _, returned⟩ := bind_eq_ok.mp returned
    obtain ⟨⟨count, files⟩, reading, returned⟩ := bind_eq_ok.mp returned
    obtain ⟨rfl, position, rfl⟩ := readInto_whole opened reading
    dsimp only at returned
    rw [if_neg (not_not.mpr rfl)] at returned
    obtain ⟨⟨closed, files⟩, closing, returned⟩ := bind_eq_ok.mp returned
    rw [FileSystem.close, FileSystem.openAt, if_neg (by omega), ok_bind] at closing
    simp only [withFiles, FileSystem.seek, Function.update_self] at closing
    obtain ⟨rfl, rfl⟩ := Prod.mk.inj (pure_eq_ok.mp closing)
    have emptied : Function.update nt.files.openFiles slot none = nt.files.openFiles := by
      rw [← empty, Function.update_eq_self]
    simp only [withFiles, Function.update_idem, emptied] at returned
    exact returned

/-! ## The image -/

/-- A `load_pe` that fails leaves open files and handles alone. It ends at the parser, for want of
heap, or after a load. -/
theorem loadPe_none {data : List UInt8} {pid : Nat}
    (returned : nt.loadPe layout kernelCr3 data pid = .ok (none, next)) :
    next.files.openFiles = nt.files.openFiles ∧ next.objects = nt.objects ∧
      ((parsePe data = .ok none ∧ next.files.memory = nt.files.memory) ∨
        ∃ image, parsePe data = .ok (some image) ∧
          ((¬nt.scheduler.heap.Fits processSize processAlign ∧
              next.files.memory = nt.files.memory) ∨
            (nt.scheduler.heap.Fits processSize processAlign ∧ ∃ loaded process last,
              loadIntoProcess nt.frames kernelCr3 image ⟨0, 0, 0, 0⟩ data
                (.start (loadStart layout nt pid)) = (.ok loaded, process, last) ∧
              next.files.memory = last.memory.copyIn (nt.scheduler.heap.aligned processAlign)
                (layout pid process)))) := by
  obtain ⟨parsed, parses, returned⟩ := bind_eq_ok.mp returned
  cases parsed with
  | none =>
    obtain ⟨_, rfl⟩ := Prod.mk.inj (pure_eq_ok.mp returned)
    exact ⟨rfl, rfl, .inl ⟨parses, rfl⟩⟩
  | some image =>
    obtain ⟨⟨pointer, middle⟩, allocating, returned⟩ := bind_eq_ok.mp returned
    obtain ⟨⟨place, heap⟩, allocated, same⟩ := bind_eq_ok.mp allocating
    obtain ⟨rfl, rfl⟩ := Prod.mk.inj (pure_eq_ok.mp same)
    cases place with
    | none =>
      obtain ⟨_, rfl⟩ := Prod.mk.inj (pure_eq_ok.mp returned)
      exact ⟨rfl, rfl,
        .inr ⟨image, parses, .inl ⟨(BumpAllocator.allocate_eq_none allocated).2, rfl⟩⟩⟩
    | some pointer =>
      obtain ⟨fits, rfl, rfl⟩ := BumpAllocator.allocate_eq_some.mp allocated
      obtain ⟨_, _, returned⟩ := bind_eq_ok.mp returned
      dsimp only at returned
      split at returned
      · cases returned
      · rename_i loaded process last loads
        split at returned
        · obtain ⟨_, rfl⟩ := Prod.mk.inj (pure_eq_ok.mp returned)
          exact ⟨rfl, rfl, .inr ⟨image, parses, .inr ⟨fits, loaded, process, last, loads, rfl⟩⟩⟩
        · split at returned
          · rename_i objects storing
            obtain ⟨_, rfl⟩ := Prod.mk.inj (pure_eq_ok.mp returned)
            obtain ⟨_, same, _⟩ | ⟨_, isSome, _⟩ := Objects.allocate_cases storing
            · exact ⟨rfl, same,
                .inr ⟨image, parses, .inr ⟨fits, loaded, process, last, loads, rfl⟩⟩⟩
            · cases isSome
          · cases pure_eq_ok.mp returned

section Load

variable {frames : FrameAllocator} {before memory : PhysMem} {image : PeImage}
  {data : List UInt8} {created process : Process} {loaded : Bool} {last : Loading} {base : Nat}

/-- Without a block, the load leaves the process, and what the search for one has left. -/
theorem loadIntoProcess_without_block
    (allocated : allocateContiguous frames before (totalPages image) = (.ok none, memory))
    (returned : loadIntoProcess frames kernelCr3 image created data (.start before) =
      (.ok loaded, process, last)) : last.memory = memory ∧ process = created := by
  have start : (Loading.start before).memory = before := rfl
  rw [loadIntoProcess, start, allocated] at returned
  obtain ⟨_, rest⟩ := Prod.mk.inj returned
  obtain ⟨rfl, rfl⟩ := Prod.mk.inj rest
  exact ⟨rfl, rfl⟩

/-- With a block, a load whose sections fit leaves the block in use. -/
theorem loadIntoProcess_takes (placed : frames.Placed) (captured : kernelCr3 ≠ 0)
    (unused : KernelTables frames kernelCr3 (Reaches before kernelCr3) before)
    (fits : Fits frames before kernelCr3 image data)
    (allocated : allocateContiguous frames before (totalPages image) = (.ok (some base), memory)) :
    ∃ index < frames.frameCount, frames.used before index = false ∧ frames.used
      (loadIntoProcess frames kernelCr3 image created data (.start before)).2.2.memory index =
        true := by
  obtain ⟨positive, _⟩ := (allocateContiguous_spec placed.covers allocated).2 base rfl
  obtain ⟨first, own, blocked, progress, table, _⟩ :=
    progress_prepared placed captured unused allocated
  obtain ⟨grown, kept⟩ := loadSections_progress placed unused blocked table
    (fits (by rw [blocked.found]; rfl)) progress
  have inside := blocked.inside
  rw [loadIntoProcess_loading created allocated]
  exact ⟨first, by omega, blocked.free first (Nat.le_refl first) (by omega),
    kept.block_used first (Nat.le_refl first) (by omega)⟩

/-- A load that returns has asked for the frames of its image. -/
theorem loadIntoProcess_asks
    (returned : loadIntoProcess frames kernelCr3 image created data (.start before) =
      (.ok loaded, process, last)) :
    ∃ result memory, allocateContiguous frames before (totalPages image) = (.ok result, memory) := by
  have start : (Loading.start before).memory = before := rfl
  cases allocated : allocateContiguous frames before (totalPages image) with
  | mk result memory =>
    cases result with
    | error reason =>
      rw [loadIntoProcess, start, allocated] at returned
      cases returned
    | ok result => exact ⟨result, memory, rfl⟩

/-- A load that finds no frame for its image changes neither a frame nor the process. -/
theorem loadIntoProcess_sameFree (covers : frames.Covers)
    (nothing : totalPages image = 0 ∨ frames.freeFrames before = 0)
    (returned : loadIntoProcess frames kernelCr3 image created data (.start before) =
      (.ok loaded, process, last)) : SameFree frames before last.memory ∧ process = created := by
  obtain ⟨result, memory, allocated⟩ := loadIntoProcess_asks returned
  cases result with
  | none =>
    obtain ⟨same, unchanged⟩ := loadIntoProcess_without_block allocated returned
    rw [same]
    exact ⟨(allocateContiguous_sameFree_iff covers allocated).mpr nothing, unchanged⟩
  | some base =>
    obtain ⟨positive, first, _, granted⟩ := (allocateContiguous_spec covers allocated).2 base rfl
    have fewer := granted.fewer
    omega

/-- When its sections fit, a load changes no frame only then. -/
theorem no_frame_of_sameFree (placed : frames.Placed) (captured : kernelCr3 ≠ 0)
    (unused : KernelTables frames kernelCr3 (Reaches before kernelCr3) before)
    (fits : Fits frames before kernelCr3 image data)
    (returned : loadIntoProcess frames kernelCr3 image created data (.start before) =
      (.ok loaded, process, last)) (same : SameFree frames before last.memory) :
    totalPages image = 0 ∨ frames.freeFrames before = 0 := by
  obtain ⟨result, memory, allocated⟩ := loadIntoProcess_asks returned
  cases result with
  | none =>
    rw [(loadIntoProcess_without_block allocated returned).1] at same
    exact (allocateContiguous_sameFree_iff placed.covers allocated).mp same
  | some base =>
    obtain ⟨index, inside, free, marked⟩ := @loadIntoProcess_takes kernelCr3 frames before
      memory image data created base placed captured unused fits allocated
    rw [returned, same index inside, free] at marked
    cases marked

end Load

/-! ## The whole call -/

/-- Bytes that have changed no frame change none when they are written again. -/
theorem sameFree_copyIn_again {frames : FrameAllocator} {memory later : PhysMem} {target : Nat}
    {bytes : List UInt8} (first : SameFree frames memory (memory.copyIn target bytes))
    (between : SameFree frames (memory.copyIn target bytes) later) :
    SameFree frames memory (later.copyIn target bytes) := by
  intro index inside
  rw [← first index inside]
  by_cases written : frames.bitmap + index / 8 ∈ (⟨target, bytes.length⟩ : Span)
  · rw [FrameAllocator.used_byte, FrameAllocator.used_byte]
    simp only [PhysMem.copyIn, PhysMem.store, if_pos written]
  · rw [← between index inside, FrameAllocator.used_byte, FrameAllocator.used_byte, PhysMem.copyIn,
      PhysMem.store_byte_outside _ _ written]

/-- Bytes off the bitmap change no frame. -/
theorem sameFree_copyIn {frames : FrameAllocator} (covers : frames.Covers) (memory : PhysMem)
    {target : Nat} {bytes : List UInt8}
    (off : (⟨target, bytes.length⟩ : Span).Separate frames.bitmapSpan) :
    SameFree frames memory (memory.copyIn target bytes) := by
  intro index inside
  have writes : WritesWithin (⟨target, bytes.length⟩ : Span).toSet memory
      (memory.copyIn target bytes) := .copyIn memory fun a member => member
  exact FrameAllocator.used_eq_of_writes covers writes (Span.separate_iff.mp off.symm) inside

/-- The kernel with a file in its heap is one for which the loader keeps its writes to the image,
the bitmap and frames it takes, and neither the file nor the process lies there. -/
structure Loads (layout : Nat → Process → List UInt8) (kernelCr3 : Nat) (nt : Nt) (node : Nat)
    (image : PeImage) : Prop where
  /-- The allocator is placed. -/
  placed : nt.frames.Placed
  /-- The kernel has a table. -/
  captured : kernelCr3 ≠ 0
  /-- Its pages are apart from the bitmap and the free frames. -/
  unused : KernelTables nt.frames kernelCr3
    (Reaches (loadStart layout (nt.buffered node) 1) kernelCr3)
    (loadStart layout (nt.buffered node) 1)
  /-- The sections fit. -/
  fits : Fits nt.frames (loadStart layout (nt.buffered node) 1) kernelCr3 image
    (nt.bufferedBytes node)
  /-- From the file to the end of the process, the heap is apart from all of these. -/
  apart : ∀ a, nt.scheduler.heap.aligned 1 ≤ a →
    a < (nt.heapBehind node).aligned processAlign + processSize →
      a ∉ nt.frames.vacant nt.files.memory ∧
        ∀ level table, Reaches (loadStart layout (nt.buffered node) 1) kernelCr3 level table →
          a ∉ page table

/-- Where the process lies then is off the bitmap. -/
theorem Loads.process_off {image : PeImage} (loads : Loads layout kernelCr3 nt node image)
    (fits : (nt.heapBehind node).Fits processSize processAlign) :
    (⟨(nt.heapBehind node).aligned processAlign, processSize⟩ : Span).Separate
      nt.frames.bitmapSpan := by
  rw [Span.separate_iff]
  intro a inside inBitmap
  rw [Span.mem_iff] at inside
  dsimp only at inside
  have above : (nt.heapBehind node).next ≤ (nt.heapBehind node).aligned processAlign :=
    (nt.heapBehind node).next_le_aligned (show 3 ≤ 64 by decide) fits.2.1
  have start : (nt.heapBehind node).next =
      nt.scheduler.heap.aligned 1 + nt.files.fileSizes node := rfl
  exact (loads.apart a (by omega) inside.2).1 (.inl inBitmap)

/-- So is the file. -/
theorem Loads.kept {image : PeImage} (loads : Loads layout kernelCr3 nt node image)
    (fits : (nt.heapBehind node).Fits processSize processAlign) :
    SameFree nt.frames nt.files.memory (nt.buffered node).files.memory := by
  intro index inside
  have writes := FileSystem.copies_writes (nt.files.fileData node) (nt.files.fileSizes node) 0
    (nt.scheduler.heap.aligned 1) (nt.files.fileSizes node) nt.files.memory
  refine FrameAllocator.used_eq_of_writes loads.placed.covers writes ?_ inside
  intro a inBitmap inFile
  rw [Span.mem_toSet, Span.mem_iff] at inFile
  dsimp only at inFile
  have above : (nt.heapBehind node).next ≤ (nt.heapBehind node).aligned processAlign :=
    (nt.heapBehind node).next_le_aligned (show 3 ≤ 64 by decide) fits.2.1
  have start : (nt.heapBehind node).next =
      nt.scheduler.heap.aligned 1 + nt.files.fileSizes node := rfl
  exact (loads.apart a inFile.1 (by omega)).1 (.inl inBitmap)

/-- A `load_pe` of the buffered file that fails changes no frame when it gives up early. -/
theorem loadPe_none_sameFree (covers : nt.frames.Covers) (early : FailsEarly layout nt node)
    (returned : (nt.buffered node).loadPe layout kernelCr3 (nt.bufferedBytes node) 1 =
      .ok (none, next)) : SameFree nt.frames nt.files.memory next.files.memory := by
  obtain ⟨_, _, ⟨_, same⟩ | ⟨image, parsed, ⟨_, same⟩ | ⟨fits, loaded, process, last, loads,
    same⟩⟩⟩ := loadPe_none returned
  · rw [same]
    exact early.kept
  · rw [same]
    exact early.kept
  · obtain ⟨nothing, started⟩ := (early.gives_up image parsed).resolve_left (not_not.mpr fits)
    rw [← FrameAllocator.freeFrames_congr started] at nothing
    obtain ⟨unchanged, rfl⟩ := @loadIntoProcess_sameFree kernelCr3 nt.frames _ image _ _ _ _ _ covers
      nothing loads
    have written : SameFree nt.frames (nt.buffered node).files.memory
        (loadStart layout (nt.buffered node) 1) := fun index inside =>
      (started index inside).trans (early.kept index inside).symm
    rw [same]
    intro index inside
    rw [← early.kept index inside]
    exact sameFree_copyIn_again written unchanged index inside

/-- It gives up early when it changes no frame and the loader keeps its writes where they may be. -/
theorem failsEarly_of_sameFree
    (sized : ∀ pid process, (layout pid process).length = processSize)
    (buffer : nt.scheduler.heap.Fits (nt.files.fileSizes node) 1)
    (returned : (nt.buffered node).loadPe layout kernelCr3 (nt.bufferedBytes node) 1 =
      .ok (none, next))
    (orderly : ∀ image, parsePe (nt.bufferedBytes node) = .ok (some image) →
      (nt.heapBehind node).Fits processSize processAlign → Loads layout kernelCr3 nt node image)
    (unchanged : SameFree nt.frames nt.files.memory next.files.memory) :
    FailsEarly layout nt node := by
  obtain ⟨_, _, ⟨noImage, same⟩ | ⟨image, parsed, ⟨noHeap, same⟩ | ⟨fits, loaded, process, last,
    loads, same⟩⟩⟩ := loadPe_none returned
  · rw [same] at unchanged
    refine ⟨buffer, unchanged, fun image parsed => ?_⟩
    cases noImage.symm.trans parsed
  · rw [same] at unchanged
    exact ⟨buffer, unchanged, fun _ _ => .inl noHeap⟩
  · have runs := orderly image parsed fits
    have covers := runs.placed.covers
    have kept := runs.kept fits
    have off (pid : Nat) (process : Process) : (⟨(nt.heapBehind node).aligned processAlign,
        (layout pid process).length⟩ : Span).Separate nt.frames.bitmapSpan := by
      rw [sized]
      exact runs.process_off fits
    have started : SameFree nt.frames (nt.buffered node).files.memory
        (loadStart layout (nt.buffered node) 1) := sameFree_copyIn covers _ (off 1 _)
    have stored : SameFree nt.frames last.memory next.files.memory := by
      rw [same]
      exact sameFree_copyIn covers _ (off 1 process)
    have begun : SameFree nt.frames nt.files.memory (loadStart layout (nt.buffered node) 1) :=
      fun index inside => (started index inside).trans (kept index inside)
    refine ⟨buffer, kept, fun other isImage => ?_⟩
    obtain rfl := Option.some.inj (Except.ok.inj (parsed.symm.trans isImage))
    refine .inr ⟨?_, begun⟩
    rw [← FrameAllocator.freeFrames_congr begun]
    apply no_frame_of_sameFree runs.placed runs.captured runs.unused runs.fits loads
    intro index inside
    rw [← stored index inside, unchanged index inside, begun index inside]

/-- For every state and path: a `create_user_process` that fails leaves the open files, the frames
and the handles as they were when there is no file to open, or it gives up early. It does so only
then for every file that is no image, or has no heap for its process, and for an image when the loader
keeps its writes where they may be. -/
theorem createUserProcess_failed (covers : nt.frames.Covers)
    (sized : ∀ pid process, (layout pid process).length = processSize)
    (returned : nt.createUserProcess layout kernelCr3 path = .ok (none, next)) :
    ((∀ node, OpensFile nt path node → FailsEarly layout nt node) → SameShared nt next) ∧
    ((∀ node image, OpensFile nt path node →
        parsePe (nt.bufferedBytes node) = .ok (some image) →
        (nt.heapBehind node).Fits processSize processAlign →
          Loads layout kernelCr3 nt node image) →
      SameShared nt next → ∀ node, OpensFile nt path node → FailsEarly layout nt node) := by
  obtain ⟨none, rfl⟩ | ⟨node, opens, ⟨noHeap, leaks⟩ | ⟨fits, loading⟩⟩ :=
    createUserProcess_cases returned
  · exact ⟨fun _ => ⟨rfl, fun _ _ => rfl, rfl⟩, fun _ _ node opens => absurd opens (none node)⟩
  · exact ⟨fun early => absurd (early node opens).buffer noHeap,
      fun _ same => absurd same.openFiles leaks⟩
  · obtain ⟨openFiles, objects, _⟩ := loadPe_none loading
    constructor
    · intro early
      exact ⟨openFiles, loadPe_none_sameFree covers (early node opens) loading, objects⟩
    · intro orderly same other alsoOpens
      obtain rfl := Option.some.inj (opens.found.symm.trans alsoOpens.found)
      exact failsEarly_of_sameFree sized fits loading (fun image => orderly node image opens)
        same.frames

/-- A kernel at boot with one file, closed, and so much of the heap used. -/
def shelved (size used : Nat) : Nt :=
  let boot := bootWith 3
  { boot with
    files := { boot.files with
      nodes := Function.update boot.files.nodes 1 (some ⟨.file, some 0, [0x66]⟩)
      fileSizes := fun _ => size }
    scheduler := { boot.scheduler with heap := ⟨0x100000, used, 0x180000⟩ } }

/-- Its file is there. -/
theorem shelved_lookup (size used : Nat) : (shelved size used).files.lookup [0x66] = some 1 := by
  have found : (shelved 0 0).files.lookup [0x66] = some 1 := by decide +kernel
  exact found

/-- It can be opened. -/
theorem shelved_opens (size used : Nat) : OpensFile (shelved size used) [0x66] 1 where
  found := shelved_lookup size used
  isFile := ⟨some 0, [0x66], rfl⟩
  slot full := full 0 (by decide) rfl

/-- The same kernel with its file open. -/
def shelvedOpen (size used : Nat) : Nt :=
  (shelved size used).withFiles { (shelved size used).files with
    openFiles := Function.update (fun _ => none) 0 (some ⟨1, 0, false⟩) }

/-- It opens through the first slot. -/
theorem shelved_opening (size used : Nat) :
    openVfsFile (shelved size used).files [0x66] false false =
      .ok (.ok 0, (shelvedOpen size used).files) := by
  have slot : (position maxOpenFiles fun slot =>
      ((shelved size used).files.openFiles slot).isNone) = some 0 :=
    position_eq_some.mpr ⟨by decide, rfl, fun other below => absurd below (Nat.not_lt_zero other)⟩
  have opened : (shelved size used).files.openFile 1 false =
      .ok (some 0, (shelvedOpen size used).files) := by
    have isFile : (shelved size used).files.nodes 1 = some ⟨.file, some 0, [0x66]⟩ := rfl
    rw [FileSystem.openFile, if_neg (by decide), isFile, slot]
    rfl
  unfold openVfsFile
  simp only [shelved_lookup, Bool.false_eq_true, if_false, opened]
  rfl

/-- Its size is read. -/
theorem shelved_size (size used : Nat) :
    (shelvedOpen size used).files.fileSize 0 = .ok (some size) := rfl

/-- An empty file is no image, and its process is given up before a frame is taken. -/
theorem createUserProcess_failed_empty : OpensFile (shelved 0 0x100000) [0x66] 1 ∧ ∃ next,
    (shelved 0 0x100000).createUserProcess processWords 0x180000 [0x66] = .ok (none, next) ∧
      SameShared (shelved 0 0x100000) next := by
  have allocating : (shelvedOpen 0 0x100000).allocEarly 0 1 =
      .ok (some 0x100000, shelvedOpen 0 0x100000) := rfl
  have nothing : (shelvedOpen 0 0x100000).files.readLoopInto 1 0 0 0x100000 0 =
      .ok (0, (shelvedOpen 0 0x100000).files) := by
    rw [FileSystem.readLoopInto]
    rfl
  have opened : (shelvedOpen 0 0x100000).files.openAt 0 = .ok (some ⟨1, 0, false⟩) := rfl
  have sizing : (shelvedOpen 0 0x100000).files.sizeAt 1 = .ok 0 := rfl
  have reading : (shelvedOpen 0 0x100000).files.readInto 0 0x100000 0 =
      .ok (some 0, (shelvedOpen 0 0x100000).files.seek 0 ⟨1, 0, false⟩ 0) := by
    rw [FileSystem.readInto, opened, ok_bind]
    dsimp only
    rw [sizing, ok_bind, nothing]
    rfl
  have placed : checkSlice 0x100000 0 = .ok () := by decide
  have noImage : parsePe [] = .ok none := by decide
  have returned : ∃ next,
      (shelved 0 0x100000).createUserProcess processWords 0x180000 [0x66] = .ok (none, next) := by
    rw [createUserProcess, shelved_opening, ok_bind]
    dsimp only
    rw [shelved_size, ok_bind]
    dsimp only
    have same : (shelved 0 0x100000).withFiles (shelvedOpen 0 0x100000).files =
      shelvedOpen 0 0x100000 := rfl
    rw [same, allocating, ok_bind]
    dsimp only
    rw [placed, ok_bind, reading, ok_bind]
    dsimp only
    rw [if_neg (not_not.mpr rfl)]
    exact ⟨_, rfl⟩
  obtain ⟨next, returned⟩ := returned
  refine ⟨shelved_opens 0 0x100000, next, returned,
    (createUserProcess_failed ?_ ?_ returned).1 fun node opens => ?_⟩
  · exact (bootWith_placed (show 0 < 3 by decide) (by decide)).covers
  · intro pid process
    simp [processWords, processSize]
  · obtain rfl := Option.some.inj ((shelved_lookup _ _).symm.trans opens.found)
    have unread : ((shelved 0 0x100000).buffered 1).files.memory =
        (shelved 0 0x100000).files.memory := by
      unfold buffered FileSystem.copies
      rfl
    refine ⟨by decide, fun index inside => ?_, fun image parsed => ?_⟩
    · rw [unread]
    · have empty : (shelved 0 0x100000).bufferedBytes 1 = [] := rfl
      rw [empty, noImage] at parsed
      cases parsed

/-- With the heap used up, a file of one byte stays open. -/
theorem createUserProcess_failed_counterexample : ∃ next,
    (shelved 1 0x180000).createUserProcess processWords 0x180000 [0x66] = .ok (none, next) ∧
      ¬SameShared (shelved 1 0x180000) next := by
  have allocating : (shelvedOpen 1 0x180000).allocEarly 1 1 =
      .ok (none, shelvedOpen 1 0x180000) := rfl
  have returned : (shelved 1 0x180000).createUserProcess processWords 0x180000 [0x66] =
      .ok (none, shelvedOpen 1 0x180000) := by
    rw [createUserProcess, shelved_opening, ok_bind]
    dsimp only
    rw [shelved_size, ok_bind]
    dsimp only
    have same : (shelved 1 0x180000).withFiles (shelvedOpen 1 0x180000).files =
      shelvedOpen 1 0x180000 := rfl
    rw [same, allocating]
    rfl
  refine ⟨_, returned, fun same => ?_⟩
  have emptied : (shelvedOpen 1 0x180000).files.openFiles 0 = none := by
    rw [same.openFiles]
    rfl
  cases emptied

end Aperture.Win32.Nt
