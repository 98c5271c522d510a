import Aperture.Win32.NamedFiles
import Aperture.Win32.PathIdentity
import Aperture.Win32.ProcessFailure

/-!
# Installed programs

A program is installed by creating a file and writing it, and started by its path. What is started
is read through an open file of its own, so it is the byte string that the names of the path lead
to, whatever calls have made it so and through whatever handles, unless the early heap lies over the
frames of files.
-/

namespace Aperture.Win32.Nt

open Machine Mm Vfs

variable {frames : FrameAllocator} {regions : List MemoryRegion} {nt : Nt} {store : NamedFiles}
  {layout : Nat → Process → List UInt8} {kernelCr3 : Nat}

/-- The kernel with this memory, and so many bytes of the early heap taken. -/
def holding (nt : Nt) (memory : PhysMem) (length : Nat) : Nt :=
  { nt with
    files := { nt.files with memory }
    scheduler := { nt.scheduler with heap :=
      { nt.scheduler.heap with next := nt.scheduler.heap.aligned 1 + length } } }

/-- What starting a program does: only a file is started, through a free slot, with its bytes in
the early heap. For want of heap the file stays open, which nothing stands for. -/
structure Starts (layout : Nat → Process → List UInt8) (kernelCr3 : Nat) (frames : FrameAllocator)
    (regions : List MemoryRegion) (nt : Nt) (store : NamedFiles) (path : List UInt8) : Prop where
  /-- No file, no process. -/
  noFile : (∀ bytes, store.entries (components slash path) ≠ some (.file bytes)) →
    nt.createUserProcess layout kernelCr3 path = .ok (none, nt)
  /-- Without a slot there is none either. -/
  noSlot : OpenFull nt.files → nt.createUserProcess layout kernelCr3 path = .ok (none, nt)
  /-- Without heap there is none, and the named files stay. -/
  noHeap : ∀ bytes, store.entries (components slash path) = some (.file bytes) →
    ¬nt.scheduler.heap.Fits bytes.length 1 →
    ∃ next, nt.createUserProcess layout kernelCr3 path = .ok (none, next) ∧
      next.Stands frames regions store
  /-- Otherwise the bytes of the file are loaded, if their place is off the frames of files. -/
  loads : ∀ bytes, store.entries (components slash path) = some (.file bytes) →
    ¬OpenFull nt.files → nt.scheduler.heap.Fits bytes.length 1 →
    nt.scheduler.heap.aligned 1 ≠ 0 →
    (∀ a ∈ nt.files.fileLand, a ∉ (⟨nt.scheduler.heap.aligned 1, bytes.length⟩ : Span)) →
    ∃ memory, memory.readBytes (nt.scheduler.heap.aligned 1) bytes.length = bytes ∧
      WritesWithin (⟨nt.scheduler.heap.aligned 1, bytes.length⟩ : Span).toSet nt.files.memory
        memory ∧
      nt.createUserProcess layout kernelCr3 path =
        (nt.holding memory bytes.length).loadPe layout kernelCr3 bytes 1

namespace Stands

/-- A file's entry has a node. -/
theorem file_node (stands : nt.Stands frames regions store) {path bytes : List UInt8}
    (entry : store.entries (components slash path) = some (.file bytes)) :
    ∃ node above name, nt.files.lookup path = some node ∧
      nt.files.nodes node = some ⟨.file, above, name⟩ ∧ nt.files.content node = bytes := by
  obtain ⟨node, named, isEntry⟩ := (stands.entries _ _).mp entry
  have found := (lookup_iff stands.tree).mpr named
  unfold entryOf at isEntry
  obtain ⟨⟨kind, above, name⟩, stored, shown⟩ := Option.map_eq_some_iff.mp isEntry
  cases kind with
  | directory => cases shown
  | file => exact ⟨node, above, name, found, stored, Entry.file.inj shown⟩

/-- Without a file to open nothing is read. -/
theorem createUserProcess_refused (stands : nt.Stands frames regions store) {path : List UInt8}
    (closed : ∀ node, ¬OpensFile nt path node) :
    nt.createUserProcess layout kernelCr3 path = .ok (none, nt) := by
  obtain ⟨result, files, returned⟩ := openVfsFile_returns stands.tree.tree path false false
  obtain ⟨_, ⟨status, rfl⟩, rfl⟩ | ⟨node, _, opens, _⟩ := openVfsFile_opens returned
  · rw [createUserProcess, returned]
    rfl
  · exact absurd opens (closed node)

/-- A file is opened in a free slot, at its start. -/
theorem opensFile (stands : nt.Stands frames regions store) {path : List UInt8} {node : Nat}
    (opens : OpensFile nt path node) :
    ∃ slot files, openVfsFile nt.files path false false = .ok (.ok slot, files) ∧
      (nt.withFiles files).Stands frames regions store ∧
      files.fileSize slot = .ok (some (nt.files.content node).length) ∧ slot < maxOpenFiles ∧
      nt.files.openFiles slot = none ∧ files = { nt.files with
        openFiles := Function.update nt.files.openFiles slot (some ⟨node, 0, false⟩) } := by
  obtain ⟨result, files, returned⟩ := openVfsFile_returns stands.tree.tree path false false
  obtain ⟨closed, _⟩ | ⟨other, slot, also, rfl, small, empty, opened⟩ := openVfsFile_opens returned
  · exact absurd opens (closed node)
  obtain rfl := Option.some.inj (opens.found.symm.trans also.found)
  have next : (nt.withFiles files).Stands frames regions store := by
    obtain ⟨⟨_, isError, _⟩, _⟩ | ⟨found, resolved, answer, resolves, opening, isOk⟩ :=
      openVfsFile_cases returned
    · cases isError
    · cases resolves with
      | found isFound =>
        cases answer with
        | none => cases isOk
        | some index => exact (stands.opens opening).1
  refine ⟨slot, files, returned, next, ?_, small, empty, opened⟩
  have consistent : files.Consistent frames regions := next.consistent
  have isOpen : files.openFiles slot = some ⟨node, 0, false⟩ := by
    rw [opened]
    exact Function.update_self ..
  have isNode : node < maxNodes := (consistent.opened slot _ isOpen).2.1
  have size : files.fileSizes node = (nt.files.content node).length := by
    rw [FileSystem.length_content, opened]
  rw [FileSystem.fileSize, consistent.openAt_eq isOpen, ok_bind]
  dsimp only
  rw [FileSystem.sizeAt, if_neg (Nat.not_le.mpr isNode), ok_bind, size]
  rfl

/-- A file that is read whole is closed again. -/
theorem close_opened {nodes : Nat → Option Node} {fileData : Nat → Nat → Option Nat}
    {fileSizes : Nat → Nat} {openFiles : Nat → Option OpenFile} {memory : PhysMem} {slot : Nat}
    {file : OpenFile} (small : slot < maxOpenFiles) (empty : openFiles slot = none) :
    FileSystem.close ⟨nodes, fileData, fileSizes, Function.update openFiles slot (some file),
      memory⟩ slot = .ok (true, ⟨nodes, fileData, fileSizes, openFiles, memory⟩) := by
  have emptied : Function.update openFiles slot none = openFiles := by
    rw [← empty, Function.update_eq_self]
  rw [FileSystem.close, FileSystem.openAt, if_neg (Nat.not_le.mpr small), ok_bind]
  simp only [Function.update_self, Function.update_idem, emptied]
  rfl

/-- A request for bytes that do not fit is refused. -/
theorem allocate_refused {heap : BumpAllocator} {size : Nat} (word : heap.next < wordSize)
    (noRoom : ¬heap.Fits size 1) : heap.allocate size 1 = .ok (none, heap) := by
  have sum : add64 heap.next 0 = .ok heap.next := add64_eq_ok.mpr ⟨word, rfl⟩
  cases returned : heap.allocate size 1 with
  | error reason =>
    rw [BumpAllocator.allocate, sub64_eq_ok.mpr ⟨Nat.le_refl 1, rfl⟩, ok_bind, sum, ok_bind]
      at returned
    dsimp only at returned
    split_ifs at returned
    all_goals cases returned
  | ok outcome =>
    obtain ⟨place, after⟩ := outcome
    cases place with
    | none => rw [(BumpAllocator.allocate_eq_none returned).1]
    | some place => exact absurd (BumpAllocator.allocate_eq_some.mp returned).1 noRoom

/-- A program whose bytes have room in the heap, off the frames of files, is loaded from them. -/
theorem createUserProcess_loads (stands : nt.Stands frames regions store) {path : List UInt8}
    {node : Nat} (opens : OpensFile nt path node)
    (fits : nt.scheduler.heap.Fits (nt.files.content node).length 1)
    (nonnull : nt.scheduler.heap.aligned 1 ≠ 0)
    (off : ∀ a ∈ nt.files.fileLand,
      a ∉ (⟨nt.scheduler.heap.aligned 1, (nt.files.content node).length⟩ : Span)) :
    nt.bufferedBytes node = nt.files.content node ∧
      nt.createUserProcess layout kernelCr3 path =
        (nt.buffered node).loadPe layout kernelCr3 (nt.files.content node) 1 := by
  obtain ⟨slot, files, returned, next, sized, small, empty, opened⟩ := stands.opensFile opens
  have consistent : files.Consistent frames regions := next.consistent
  have isOpen : files.openFiles slot = some ⟨node, 0, false⟩ := by
    rw [opened]
    exact Function.update_self ..
  have length := FileSystem.length_content nt.files node
  rw [length] at fits off sized
  have bytes : nt.bufferedBytes node = nt.files.content node := by
    have received := @FileSystem.readBytes_copies (nt.files.fileSizes node)
      (nt.files.fileData node) nt.files.memory 0 (nt.scheduler.heap.aligned 1)
      (nt.files.fileSizes node) fun slot frame found a inFrame => by
        rw [Nat.sub_zero, Nat.min_self]
        exact off a ⟨node, slot, frame, found, inFrame⟩
    rw [Nat.sub_zero, Nat.min_self, ← FileSystem.content_eq_bytesAt] at received
    exact received
  refine ⟨bytes, ?_⟩
  have allocated := BumpAllocator.allocate_eq_some.mpr ⟨fits, rfl, rfl⟩
  have bounded : nt.files.fileSizes node ≤ 65536 := stands.consistent.bounded node
  have placed : checkSlice (nt.scheduler.heap.aligned 1) (nt.files.fileSizes node) = .ok () :=
    checkSlice_eq_ok.mpr ⟨nonnull, by omega⟩
  have size : files.fileSizes node = nt.files.fileSizes node := by rw [opened]
  have land : files.fileLand = nt.files.fileLand := by rw [opened]; rfl
  obtain ⟨⟨count, after⟩, reading⟩ := consistent.readInto_returns isOpen (land ▸ off)
  have whole := @readInto_whole files node slot (nt.scheduler.heap.aligned 1) count after
    (consistent.openAt_eq isOpen)
  rw [size] at whole
  obtain ⟨rfl, position, rfl⟩ := whole reading
  rw [createUserProcess, returned, ok_bind]
  dsimp only
  rw [sized, ok_bind]
  dsimp only [allocEarly, withFiles]
  rw [allocated, ok_bind]
  dsimp only [pure, Except.pure, ok_bind, Bind.bind, Except.bind]
  rw [placed]
  dsimp only
  rw [reading]
  dsimp only
  rw [if_neg (not_not.mpr rfl)]
  subst opened
  simp only [FileSystem.seek, Function.update_idem]
  rw [close_opened small empty]
  rw [← bytes]
  rfl

/-- A program whose bytes have no room is not loaded. -/
theorem createUserProcess_noRoom (stands : nt.Stands frames regions store) {path : List UInt8}
    {node : Nat} (opens : OpensFile nt path node) (word : nt.scheduler.heap.next < wordSize)
    (noRoom : ¬nt.scheduler.heap.Fits (nt.files.content node).length 1) :
    ∃ next, nt.createUserProcess layout kernelCr3 path = .ok (none, next) ∧
      next.Stands frames regions store := by
  obtain ⟨slot, files, returned, next, sized, _⟩ := stands.opensFile opens
  refine ⟨nt.withFiles files, ?_, next⟩
  rw [createUserProcess, returned, ok_bind]
  dsimp only
  rw [sized, ok_bind]
  dsimp only [allocEarly, withFiles]
  rw [allocate_refused word noRoom]
  rfl

/-- What is started is what the names of the path lead to. -/
theorem starts (stands : nt.Stands frames regions store)
    (word : nt.scheduler.heap.next < wordSize) (path : List UInt8) :
    nt.Starts layout kernelCr3 frames regions store path where
  noFile missing := by
    apply stands.createUserProcess_refused
    intro node opens
    obtain ⟨above, name, isFile⟩ := opens.isFile
    refine missing (nt.files.content node) ?_
    rw [stands.entries_eq ((lookup_iff stands.tree).mp opens.found), entryOf, isFile]
    rfl
  noSlot full := stands.createUserProcess_refused fun node opens => opens.slot full
  noHeap bytes entry noRoom := by
    obtain ⟨node, above, name, found, isFile, rfl⟩ := stands.file_node entry
    by_cases full : OpenFull nt.files
    · exact ⟨nt, stands.createUserProcess_refused fun node opens => opens.slot full, stands⟩
    · exact stands.createUserProcess_noRoom ⟨found, ⟨above, name, isFile⟩, full⟩ word noRoom
  loads bytes entry free fits nonnull off := by
    obtain ⟨node, above, name, found, isFile, rfl⟩ := stands.file_node entry
    obtain ⟨same, loads⟩ :=
      stands.createUserProcess_loads ⟨found, ⟨above, name, isFile⟩, free⟩ fits nonnull off
    have length := FileSystem.length_content nt.files node
    have writes := FileSystem.copies_writes (nt.files.fileData node) (nt.files.fileSizes node) 0
      (nt.scheduler.heap.aligned 1) (nt.files.fileSizes node) nt.files.memory
    rw [Nat.sub_zero, Nat.min_self] at writes
    refine ⟨(nt.buffered node).files.memory, ?_, ?_, ?_⟩
    · rw [length]
      exact same
    · rw [length]
      exact writes
    · rw [loads, length]
      rfl

end Stands

/-- After every run of the file calls, starting a program loads the bytes that the calls have left
under the names of its path, if the heap is off the frames of files, or none. -/
theorem createUserProcess_of_run {memory booted : PhysMem}
    (initialized : FrameAllocator.init memory regions = .ok (frames, booted)) {first last : Nt}
    (files : first.files = .init booted) (objects : first.objects = .init)
    (allocator : first.frames = frames) {events : List NamedEvent}
    (run : Run (Guarded (NamedEvent.Allowed frames regions) NamedEvent.Step) first events last)
    (word : last.scheduler.heap.next < wordSize) (layout : Nat → Process → List UInt8)
    (kernelCr3 : Nat) :
    ∃ store, Run NamedFiles.Step .empty events store ∧
      ∀ path, last.Starts layout kernelCr3 frames regions store path := by
  obtain ⟨store, stands, matched⟩ := stands_of_run initialized files objects allocator run
  exact ⟨store, matched, fun path => stands.starts word path⟩

/-- The scheduler with an early heap of a page behind the usable mebibyte. -/
def pageOfHeap : Scheduler := { Win32.booted.scheduler with heap := ⟨0x200000, 0x200000, 0x201000⟩ }

/-- A new file on the usable mebibyte is started as an empty program. -/
theorem createUserProcess_of_run_empty : ∃ booted last,
    FrameAllocator.init ⟨fun _ => 0, []⟩ FrameAllocator.mebibyteMap =
      .ok (FrameAllocator.mebibyteFrames, booted) ∧
    NamedEvent.Step ⟨.init booted, .init, FrameAllocator.mebibyteFrames, pageOfHeap⟩
      (.create [slash] [0x61] .file ⟨true, true, true⟩ true) last ∧
    ∃ memory, last.createUserProcess (fun _ _ => []) 0 [0x61] =
      (last.holding memory 0).loadPe (fun _ _ => []) 0 [] 1 := by
  obtain ⟨booted, last, initialized, taken, scheduler, closed⟩ := exists_created pageOfHeap
  have inner : components slash [0x61] = [[0x61]] := by decide +kernel
  have word : last.scheduler.heap.next < wordSize := by
    rw [scheduler]
    decide
  obtain ⟨store, run, starts⟩ := createUserProcess_of_run initialized rfl rfl rfl
    (.cons taken (.nil last)) word (fun _ _ => []) 0
  have loads := (starts [0x61]).loads [] (by rw [inner]; exact entries_created run)
    (fun full => full 0 (by decide) (closed 0)) (by rw [scheduler]; decide)
    (by rw [scheduler]; decide) fun a _ inside => by
      rw [Span.mem_iff] at inside
      dsimp only [List.length_nil] at inside
      omega
  obtain ⟨memory, _, _, started⟩ := loads
  exact ⟨booted, last, initialized, taken.2, memory, started⟩

end Aperture.Win32.Nt
