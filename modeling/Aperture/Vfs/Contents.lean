import Aperture.Machine.Bytes
import Aperture.Mm.FrameInit
import Aperture.Vfs.FileSystem

/-!
# File contents

The bytes of a file are the bytes of its frames below its size. `Consistent` is what the
operations keep: every byte below a size has a frame, no frame belongs to two files, and
every position lies inside its file. The loops of `read` and `write` are then reading and
overwriting a byte string.
-/

namespace Aperture.Vfs

open Machine Mm

namespace FileSystem

/-- `FILE_DATA_FRAMES` frames of bytes. -/
def maxFileSize : Nat := 65536

/-- The byte of a file at an offset. -/
def byteAt (fs : FileSystem) (node offset : Nat) : UInt8 :=
  match fs.fileData node (offset / 4096) with
  | none => 0
  | some frame => fs.memory.byte (frame + offset % 4096)

/-- An offset with a frame. -/
theorem byteAt_of_frame {fs : FileSystem} {node offset frame : Nat}
    (found : fs.fileData node (offset / 4096) = some frame) :
    fs.byteAt node offset = fs.memory.byte (frame + offset % 4096) := by
  rw [byteAt, found]

/-- The bytes of a file. -/
def content (fs : FileSystem) (node : Nat) : List UInt8 :=
  (List.range (fs.fileSizes node)).map (fs.byteAt node)

/-- A content is as long as the file's size. -/
@[simp]
theorem length_content (fs : FileSystem) (node : Nat) :
    (fs.content node).length = fs.fileSizes node := by
  simp [content]

/-- Each byte of a content. -/
theorem getElem?_content (fs : FileSystem) (node i : Nat) :
    (fs.content node)[i]? = if i < fs.fileSizes node then some (fs.byteAt node i) else none := by
  unfold content
  rw [List.getElem?_map]
  by_cases inside : i < fs.fileSizes node
  · rw [if_pos inside, List.getElem?_range inside]
    rfl
  · rw [if_neg inside, List.getElem?_eq_none (by simpa using inside)]
    rfl

/-- What every operation keeps. -/
structure Consistent (frames : FrameAllocator) (regions : List MemoryRegion) (fs : FileSystem) :
    Prop where
  /-- Only frames of usable memory off the bitmap are free. -/
  free : ∀ index < frames.frameCount, frames.used fs.memory index = false →
    frames.Allocatable regions index
  /-- Frames with file data are such frames and are marked. -/
  owned : ∀ node slot frame, fs.fileData node slot = some frame →
    ∃ index < frames.frameCount, frame = frames.frameAddr index ∧
      frames.used fs.memory index = true ∧ frames.Allocatable regions index
  /-- No frame holds data twice. -/
  apart : ∀ node slot otherNode otherSlot frame, fs.fileData node slot = some frame →
    fs.fileData otherNode otherSlot = some frame → node = otherNode ∧ slot = otherSlot
  /-- Every byte below a size has a frame. -/
  backed : ∀ node slot, slot * 4096 < fs.fileSizes node → ∃ frame, fs.fileData node slot = some frame
  /-- No file exceeds its frames. -/
  bounded : ∀ node, fs.fileSizes node ≤ maxFileSize
  /-- Nodes not created yet have no bytes. -/
  empty : ∀ node, fs.nodes node = none → fs.fileSizes node = 0
  /-- Open files are nodes, and their position lies inside the file. -/
  opened : ∀ handle file, fs.openFiles handle = some file → handle < maxOpenFiles ∧
    file.node < maxNodes ∧ fs.nodes file.node ≠ none ∧ file.position ≤ fs.fileSizes file.node

variable {frames : FrameAllocator} {regions : List MemoryRegion} {fs after : FileSystem}

/-- The file system at start-up is consistent. -/
theorem consistent_init {memory : PhysMem}
    (free : ∀ index < frames.frameCount, frames.used memory index = false →
      frames.Allocatable regions index) : (init memory).Consistent frames regions where
  free := free
  owned := by simp [init]
  apart := by simp [init]
  backed := by simp [init]
  bounded := by simp [init]
  empty := by simp [init]
  opened := by simp [init]

/-- Addresses inside a data frame are words. -/
theorem Consistent.frame_fits (consistent : fs.Consistent frames regions) {node slot frame : Nat}
    (found : fs.fileData node slot = some frame) {offset : Nat} (inside : offset < 4096) :
    add64 frame offset = .ok (frame + offset) := by
  obtain ⟨index, _, rfl, _, ⟨region, _, _, _, ends⟩, _⟩ := consistent.owned node slot frame found
  have stop := region.stop_lt
  refine add64_eq_ok.mpr ⟨?_, rfl⟩
  unfold frameSize at ends
  omega

/-! ## Reading -/

/-- A chunk inside one frame and below the size is that part of the content. -/
theorem Consistent.readChunk_eq (consistent : fs.Consistent frames regions)
    {node : Nat} (isNode : node < maxNodes) (position count : Nat) (positive : 0 < count)
    (inFrame : position % 4096 + count ≤ 4096) (inFile : position + count ≤ fs.fileSizes node) :
    fs.readChunk node (position / 4096) (position % 4096) count =
      .ok (((fs.content node).drop position).take count) := by
  have bounded := consistent.bounded node
  obtain ⟨frame, found⟩ := consistent.backed node (position / 4096) (by omega)
  have slot : fs.frameAt node (position / 4096) = .ok (some frame) := by
    rw [frameAt, if_neg, found]
    unfold fileDataFrames
    unfold maxFileSize at bounded
    omega
  have fits := consistent.frame_fits found (show position % 4096 < 4096 by omega)
  simp only [readChunk, slot, ok_bind, fits]
  refine congrArg Except.ok (List.ext_getElem? fun i => ?_)
  by_cases inside : i < count
  · have sameFrame : (position + i) / 4096 = position / 4096 := by omega
    have sameOffset : frame + (position + i) % 4096 = frame + position % 4096 + i := by omega
    rw [List.getElem?_take_of_lt inside, List.getElem?_drop, getElem?_content,
      if_pos (by omega), byteAt_of_frame (by rw [sameFrame, found]), sameOffset]
    simp [PhysMem.readBytes, inside]
  · rw [List.getElem?_eq_none (by simpa [PhysMem.readBytes] using inside),
      List.getElem?_eq_none (by rw [List.length_take]; omega)]

/-- The loop of `read` returns the content from the position on, as much as is wanted. -/
theorem Consistent.readLoop_eq (consistent : fs.Consistent frames regions) {node : Nat}
    (isNode : node < maxNodes) (position wanted : Nat) (inside : position ≤ fs.fileSizes node) :
    fs.readLoop node (fs.fileSizes node) position wanted =
      .ok (((fs.content node).drop position).take wanted,
        position + min wanted (fs.fileSizes node - position)) := by
  rw [readLoop]
  by_cases more : 0 < wanted ∧ position < fs.fileSizes node
  · rw [if_pos more]
    generalize count : min wanted (min (4096 - position % 4096) (fs.fileSizes node - position)) =
      toRead
    have chunk := consistent.readChunk_eq isNode position toRead (by omega) (by omega) (by omega)
    have rest := consistent.readLoop_eq isNode (position + toRead) (wanted - toRead) (by omega)
    simp only [chunk, ok_bind, rest]
    have split : wanted = toRead + (wanted - toRead) := by omega
    refine congrArg Except.ok (Prod.ext ?_ ?_)
    · simp only
      rw [← List.drop_drop, ← List.take_add, ← split]
    · simp only
      omega
  · rw [if_neg more]
    have nothing : ((fs.content node).drop position).take wanted = [] := by
      rw [List.take_eq_nil_iff, List.drop_eq_nil_iff, length_content]
      omega
    rw [nothing]
    refine congrArg Except.ok (Prod.ext rfl ?_)
    simp only
    omega
termination_by wanted
decreasing_by omega

/-- In any state, a chunk that is read is the bytes of the file from the position on. -/
theorem readChunk_bytes {node position count : Nat} {chunk : List UInt8}
    (returned : fs.readChunk node (position / 4096) (position % 4096) count = .ok chunk)
    (inFrame : position % 4096 + count ≤ 4096) :
    chunk = (List.range count).map fun i => fs.byteAt node (position + i) := by
  obtain ⟨found, located, returned⟩ := bind_eq_ok.mp returned
  have isFound : fs.fileData node (position / 4096) = found := by
    unfold frameAt at located
    split at located
    · cases located
    · exact Except.ok.inj located
  have frame (i : Nat) (inside : i < count) : (position + i) / 4096 = position / 4096 := by omega
  cases found with
  | none =>
    obtain rfl := pure_eq_ok.mp returned
    refine List.ext_getElem (by simp) fun i inside _ => ?_
    rw [List.length_replicate] at inside
    simp [byteAt, frame i inside, isFound]
  | some start =>
    obtain ⟨source, sum, returned⟩ := bind_eq_ok.mp returned
    obtain ⟨_, rfl⟩ := add64_eq_ok.mp sum
    obtain rfl := pure_eq_ok.mp returned
    refine List.ext_getElem (by simp [PhysMem.readBytes]) fun i inside _ => ?_
    simp only [PhysMem.readBytes, List.length_map, List.length_range] at inside
    have offset : start + (position + i) % 4096 = start + position % 4096 + i := by omega
    simp [PhysMem.readBytes, byteAt, frame i inside, isFound, offset]

/-- Those bytes are part of the content when the file has them. -/
theorem take_drop_content {node position count : Nat}
    (inFile : position + count ≤ fs.fileSizes node) :
    ((fs.content node).drop position).take count =
      (List.range count).map fun i => fs.byteAt node (position + i) := by
  refine List.ext_getElem ?_ fun i _ inside => ?_
  · rw [List.length_take, List.length_drop, length_content, List.length_map, List.length_range]
    omega
  · simp [content]

/-- So a chunk that is read is that part of the content. -/
theorem readChunk_content {node position count : Nat} {chunk : List UInt8}
    (returned : fs.readChunk node (position / 4096) (position % 4096) count = .ok chunk)
    (inFrame : position % 4096 + count ≤ 4096) (inFile : position + count ≤ fs.fileSizes node) :
    chunk = ((fs.content node).drop position).take count := by
  rw [readChunk_bytes returned inFrame, take_drop_content inFile]

/-- In any state, what the loop of `read` returns is the content from the position on. -/
theorem readLoop_content {node position wanted last : Nat} {bytes : List UInt8}
    (returned : fs.readLoop node (fs.fileSizes node) position wanted = .ok (bytes, last)) :
    bytes = ((fs.content node).drop position).take wanted := by
  rw [readLoop] at returned
  by_cases more : 0 < wanted ∧ position < fs.fileSizes node
  · rw [if_pos more] at returned
    generalize count : min wanted (min (4096 - position % 4096) (fs.fileSizes node - position)) =
      toRead at returned
    obtain ⟨chunk, reading, returned⟩ := bind_eq_ok.mp returned
    obtain ⟨⟨rest, final⟩, continues, returned⟩ := bind_eq_ok.mp returned
    obtain ⟨rfl, rfl⟩ := Prod.mk.inj (pure_eq_ok.mp returned)
    have split : wanted = toRead + (wanted - toRead) := by omega
    rw [readChunk_content reading (by omega) (by omega), readLoop_content continues,
      ← List.drop_drop, ← List.take_add, ← split]
  · rw [if_neg more] at returned
    obtain ⟨rfl, rfl⟩ := Prod.mk.inj (Except.ok.inj returned)
    symm
    rw [List.take_eq_nil_iff, List.drop_eq_nil_iff, length_content]
    omega
termination_by wanted
decreasing_by omega

/-! ## Writing -/

/-- `bytes` were written at an open file's position, and nothing else changed. -/
structure Written (fs : FileSystem) (handle : Nat) (file : OpenFile) (bytes : List UInt8)
    (after : FileSystem) : Prop where
  /-- The tree is unchanged. -/
  nodes : after.nodes = fs.nodes
  /-- The handle moved past the bytes. -/
  openFiles : after.openFiles = Function.update fs.openFiles handle
    (some { file with position := file.position + bytes.length })
  /-- The bytes are in place. -/
  written : after.content file.node = overwrite (fs.content file.node) file.position bytes
  /-- Other files are unchanged. -/
  others : ∀ node, node ≠ file.node → after.content node = fs.content node

/-- Writing in two parts is writing once. -/
theorem Written.append {handle : Nat} {file : OpenFile} {left right : List UInt8}
    {middle : FileSystem} (inside : file.position ≤ fs.fileSizes file.node)
    (first : Written fs handle file left middle)
    (second : Written middle handle { file with position := file.position + left.length } right
      after) : Written fs handle file (left ++ right) after where
  nodes := second.nodes.trans first.nodes
  openFiles := by
    rw [second.openFiles, first.openFiles, Function.update_idem, List.length_append,
      Nat.add_assoc]
  written := by
    rw [second.written, first.written]
    exact overwrite_append (by simpa using inside) right
  others := fun node different =>
    (second.others node different).trans (first.others node different)

/-- The frame table after one entry changed. -/
theorem update_frame (table : Nat → Nat → Option Nat) (node slot : Nat) (frame : Option Nat)
    (otherNode otherSlot : Nat) :
    Function.update table node (Function.update (table node) slot frame) otherNode otherSlot =
      if otherNode = node ∧ otherSlot = slot then frame else table otherNode otherSlot := by
  by_cases sameNode : otherNode = node
  · subst sameNode
    rw [Function.update_self]
    by_cases sameSlot : otherSlot = slot
    · rw [sameSlot, Function.update_self, if_pos ⟨rfl, rfl⟩]
    · rw [Function.update_of_ne sameSlot, if_neg (fun both => sameSlot both.2)]
  · rw [Function.update_of_ne sameNode, if_neg (fun both => sameNode both.1)]

/-- Bytes of data frames do not lie in the bitmap. -/
theorem Consistent.byte_off_bitmap (consistent : fs.Consistent frames regions)
    {memory : PhysMem} (writes : WritesWithin frames.bitmapSpan.toSet fs.memory memory)
    {node slot frame : Nat} (found : fs.fileData node slot = some frame) {offset : Nat}
    (inside : offset < 4096) : memory.byte (frame + offset) = fs.memory.byte (frame + offset) := by
  obtain ⟨index, _, rfl, _, _, off⟩ := consistent.owned node slot frame found
  refine writes.unchanged _ fun member => ?_
  refine Span.separate_iff.mp off _ ?_ member
  rw [Span.mem_iff]
  simp only [FrameAllocator.frameSpan, frameSize]
  omega

/-- A file's content depends on the bytes of its frames below its size. -/
theorem content_congr {node : Nat} (sizes : after.fileSizes node = fs.fileSizes node)
    (same : ∀ i < fs.fileSizes node, after.byteAt node i = fs.byteAt node i) :
    after.content node = fs.content node := by
  unfold content
  rw [sizes]
  exact List.map_congr_left fun i member => same i (List.mem_range.mp member)

/-- Taking a frame for a missing entry keeps consistency. -/
theorem Consistent.withFrame (covers : frames.Covers) (consistent : fs.Consistent frames regions)
    {node slot : Nat} (missing : fs.fileData node slot = none) {result : Option Nat}
    {memory : PhysMem} (returned : frames.allocateFrame fs.memory = (result, memory)) :
    (fs.withFrame node slot result memory).Consistent frames regions := by
  obtain ⟨_, marks, takes⟩ := FrameAllocator.allocateFrame_takes covers returned
  have wasFree (index : Nat) (inside : index < frames.frameCount)
      (clear : frames.used memory index = false) : frames.used fs.memory index = false := by
    by_contra marked
    rw [marks index inside (by simpa using marked)] at clear
    cases clear
  have old (frame otherNode otherSlot : Nat)
      (fresh : ∃ index < frames.frameCount, frame = frames.frameAddr index ∧
        frames.used fs.memory index = false ∧ frames.used memory index = true) :
      fs.fileData otherNode otherSlot ≠ some frame := by
    intro found
    obtain ⟨index, _, rfl, free, _⟩ := fresh
    obtain ⟨owner, _, same, marked, _⟩ := consistent.owned otherNode otherSlot _ found
    rw [← FrameAllocator.frameAddr_injective same, free] at marked
    cases marked
  refine ⟨?_, ?_, ?_, ?_, consistent.bounded, consistent.empty, consistent.opened⟩
  · exact fun index inside clear => consistent.free index inside (wasFree index inside clear)
  · intro otherNode otherSlot frame found
    simp only [FileSystem.withFrame, update_frame] at found ⊢
    split at found
    · obtain ⟨index, inside, address, free, marked⟩ := takes frame found
      exact ⟨index, inside, address, marked, consistent.free index inside free⟩
    · obtain ⟨index, inside, address, marked, fit⟩ := consistent.owned otherNode otherSlot frame found
      exact ⟨index, inside, address, marks index inside marked, fit⟩
  · intro leftNode leftSlot rightNode rightSlot frame left right
    simp only [FileSystem.withFrame, update_frame] at left right
    split at left
    · split at right
      · rename_i leftHere rightHere
        exact ⟨leftHere.1.trans rightHere.1.symm, leftHere.2.trans rightHere.2.symm⟩
      · exact absurd right (old frame rightNode rightSlot (takes frame left))
    · split at right
      · exact absurd left (old frame leftNode leftSlot (takes frame right))
      · exact consistent.apart leftNode leftSlot rightNode rightSlot frame left right
  · intro otherNode otherSlot below
    obtain ⟨frame, found⟩ := consistent.backed otherNode otherSlot below
    refine ⟨frame, ?_⟩
    simp only [FileSystem.withFrame, update_frame]
    rw [if_neg, found]
    rintro ⟨rfl, rfl⟩
    rw [missing] at found
    cases found

/-- Taking a frame for a missing entry changes no content. -/
theorem Consistent.content_withFrame (covers : frames.Covers)
    (consistent : fs.Consistent frames regions) {node slot : Nat}
    (missing : fs.fileData node slot = none) {result : Option Nat} {memory : PhysMem}
    (returned : frames.allocateFrame fs.memory = (result, memory)) (other : Nat) :
    (fs.withFrame node slot result memory).content other = fs.content other := by
  obtain ⟨writes, _, _⟩ := FrameAllocator.allocateFrame_takes covers returned
  refine content_congr rfl fun i inside => ?_
  obtain ⟨frame, found⟩ := consistent.backed other (i / 4096) (by omega)
  have kept : (fs.withFrame node slot result memory).fileData other (i / 4096) = some frame := by
    simp only [FileSystem.withFrame, update_frame]
    rw [if_neg, found]
    rintro ⟨rfl, rfl⟩
    rw [missing] at found
    cases found
  rw [byteAt_of_frame kept, byteAt_of_frame found]
  exact consistent.byte_off_bitmap writes found (Nat.mod_lt _ (by decide))

/-- The frame of a chunk: there already, newly taken from the allocator, or none is left.
No content changes. -/
theorem Consistent.ensureFrame_spec (covers : frames.Covers)
    (consistent : fs.Consistent frames regions) {node slot : Nat} (isNode : node < maxNodes)
    (isSlot : slot < fileDataFrames) :
    ∃ result after, fs.ensureFrame frames node slot = .ok (result, after) ∧
      after.Consistent frames regions ∧ after.fileData node slot = result ∧
      after.nodes = fs.nodes ∧ after.openFiles = fs.openFiles ∧
      ∀ other, after.content other = fs.content other := by
  have entry : fs.frameAt node slot = .ok (fs.fileData node slot) := by
    rw [frameAt, if_neg (by omega)]
  unfold ensureFrame
  rw [entry]
  cases found : fs.fileData node slot with
  | some frame => exact ⟨_, _, rfl, consistent, found, rfl, rfl, fun _ => rfl⟩
  | none =>
    cases returned : frames.allocateFrame fs.memory with
    | mk result memory =>
      simp only [ok_bind]
      refine ⟨result, fs.withFrame node slot result memory, rfl,
        consistent.withFrame covers found returned, ?_, rfl, rfl,
        consistent.content_withFrame covers found returned⟩
      simp only [FileSystem.withFrame, update_frame, and_self, ↓reduceIte]

/-- The file system after a chunk is in place. -/
def withChunk (fs : FileSystem) (handle : Nat) (file : OpenFile) (frame : Nat)
    (chunk : List UInt8) : FileSystem where
  nodes := fs.nodes
  fileData := fs.fileData
  fileSizes := Function.update fs.fileSizes file.node
    (max (fs.fileSizes file.node) (file.position + chunk.length))
  openFiles := Function.update fs.openFiles handle
    (some { file with position := file.position + chunk.length })
  memory := fs.memory.copyIn (frame + file.position % 4096) chunk

section Chunk

variable (handle : Nat) {file : OpenFile} {frame : Nat} {chunk : List UInt8}

/-- A chunk is put into its frame. -/
theorem Consistent.putChunk_eq (consistent : fs.Consistent frames regions)
    (found : fs.fileData file.node (file.position / 4096) = some frame) (chunk : List UInt8) :
    fs.putChunk handle file frame chunk = .ok (fs.withChunk handle file frame chunk) := by
  have fits := consistent.frame_fits found (Nat.mod_lt file.position (by decide))
  simp only [putChunk, fits, ok_bind]
  rfl

/-- Each byte after a chunk is in place: the chunk's bytes, and everything else as before. -/
theorem Consistent.byteAt_withChunk (consistent : fs.Consistent frames regions)
    (found : fs.fileData file.node (file.position / 4096) = some frame)
    (inFrame : file.position % 4096 + chunk.length ≤ 4096) (node i : Nat) :
    (fs.withChunk handle file frame chunk).byteAt node i =
      if node = file.node ∧ file.position ≤ i ∧ i < file.position + chunk.length then
        chunk.getD (i - file.position) 0
      else fs.byteAt node i := by
  by_cases same : node = file.node ∧ i / 4096 = file.position / 4096
  · obtain ⟨rfl, sameSlot⟩ := same
    rw [← sameSlot] at found
    have kept : (fs.withChunk handle file frame chunk).fileData file.node (i / 4096) = some frame :=
      found
    rw [byteAt_of_frame kept, byteAt_of_frame found]
    simp only [withChunk, PhysMem.copyIn, PhysMem.store, Span.mem_iff]
    by_cases inside : file.position ≤ i ∧ i < file.position + chunk.length
    · rw [if_pos (by omega), if_pos ⟨trivial, inside⟩]
      congr 1
      omega
    · rw [if_neg (by omega), if_neg (fun all => inside all.2)]
  · rw [if_neg (fun inside => same ⟨inside.1, by omega⟩)]
    unfold byteAt
    cases other : fs.fileData node (i / 4096) with
    | none => simp only [withChunk, other]
    | some otherFrame =>
      simp only [withChunk, other]
      refine PhysMem.store_byte_outside _ _ fun member => ?_
      obtain ⟨index, _, rfl, _⟩ := consistent.owned _ _ _ found
      obtain ⟨otherIndex, _, rfl, _⟩ := consistent.owned _ _ _ other
      have different : otherIndex ≠ index := by
        rintro rfl
        exact same (consistent.apart _ _ _ _ _ other found)
      simp only [Span.mem_iff, FrameAllocator.frameAddr, frameSize] at member
      omega

/-- A chunk in place is a write of its bytes. -/
theorem Consistent.withChunk_written (consistent : fs.Consistent frames regions)
    (found : fs.fileData file.node (file.position / 4096) = some frame)
    (inFrame : file.position % 4096 + chunk.length ≤ 4096)
    (inside : file.position ≤ fs.fileSizes file.node) :
    Written fs handle file chunk (fs.withChunk handle file frame chunk) where
  nodes := rfl
  openFiles := rfl
  written := by
    apply List.ext_getElem?
    intro i
    rw [getElem?_overwrite (by simpa using inside), getElem?_content, getElem?_content,
      consistent.byteAt_withChunk handle found inFrame]
    simp only [withChunk, Function.update_self, true_and]
    by_cases chunked : file.position ≤ i ∧ i < file.position + chunk.length
    · rw [if_pos (by omega), if_pos chunked, if_pos chunked]
      have below : i - file.position < chunk.length := by omega
      rw [List.getD_eq_getElem?_getD, List.getElem?_eq_getElem below, Option.getD_some]
    · rw [if_neg chunked, if_neg chunked]
      by_cases below : i < fs.fileSizes file.node
      · rw [if_pos (by omega), if_pos below]
      · rw [if_neg (by omega), if_neg below]
  others := by
    intro node different
    refine content_congr (by simp [withChunk, different]) fun i _ => ?_
    rw [consistent.byteAt_withChunk handle found inFrame, if_neg (fun all => different all.1)]

/-- A chunk in place changes no bit of the allocator. -/
theorem Consistent.used_withChunk (covers : frames.Covers)
    (consistent : fs.Consistent frames regions)
    (found : fs.fileData file.node (file.position / 4096) = some frame)
    (inFrame : file.position % 4096 + chunk.length ≤ 4096) {index : Nat}
    (below : index < frames.frameCount) :
    frames.used (fs.withChunk handle file frame chunk).memory index =
      frames.used fs.memory index := by
  obtain ⟨owner, _, address, _, _, off⟩ := consistent.owned _ _ _ found
  have writes : WritesWithin (frames.frameSpan owner).toSet fs.memory
      (fs.withChunk handle file frame chunk).memory := by
    refine WritesWithin.copyIn _ fun a member => ?_
    rw [address] at member
    simp only [Span.mem_iff, Span.mem_toSet, FrameAllocator.frameSpan, frameSize] at member ⊢
    omega
  exact FrameAllocator.used_eq_of_writes covers writes (Span.separate_iff.mp off.symm) below

/-- A chunk in place keeps consistency. -/
theorem Consistent.withChunk {handle : Nat} (covers : frames.Covers)
    (consistent : fs.Consistent frames regions) (isOpen : fs.openFiles handle = some file)
    (found : fs.fileData file.node (file.position / 4096) = some frame)
    (inFrame : file.position % 4096 + chunk.length ≤ 4096)
    (small : file.position / 4096 < fileDataFrames) :
    (fs.withChunk handle file frame chunk).Consistent frames regions := by
  obtain ⟨isHandle, isNode, created, inside⟩ := consistent.opened handle file isOpen
  have bits {index : Nat} (below : index < frames.frameCount) :
      frames.used (fs.withChunk handle file frame chunk).memory index =
        frames.used fs.memory index := consistent.used_withChunk handle covers found inFrame below
  have bounded := consistent.bounded file.node
  refine ⟨?_, ?_, consistent.apart, ?_, ?_, ?_, ?_⟩
  · intro index below clear
    rw [bits below] at clear
    exact consistent.free index below clear
  · intro node slot other owned
    obtain ⟨index, below, address, marked, fit⟩ := consistent.owned node slot other owned
    exact ⟨index, below, address, (bits below).trans marked, fit⟩
  · intro node slot below
    simp only [FileSystem.withChunk] at below ⊢
    by_cases same : node = file.node
    · subst same
      rw [Function.update_self] at below
      by_cases old : slot * 4096 < fs.fileSizes file.node
      · exact consistent.backed _ slot old
      · refine ⟨frame, ?_⟩
        rw [← found]
        congr 1
        omega
    · rw [Function.update_of_ne same] at below
      exact consistent.backed node slot below
  · intro node
    simp only [FileSystem.withChunk]
    by_cases same : node = file.node
    · rw [same, Function.update_self]
      unfold maxFileSize fileDataFrames at *
      omega
    · rw [Function.update_of_ne same]
      exact consistent.bounded node
  · intro node missing
    simp only [FileSystem.withChunk] at missing ⊢
    have same : node ≠ file.node := by
      rintro rfl
      exact created missing
    rw [Function.update_of_ne same]
    exact consistent.empty node missing
  · intro other otherFile otherOpen
    simp only [FileSystem.withChunk] at otherOpen ⊢
    by_cases sameHandle : other = handle
    · rw [sameHandle, Function.update_self, Option.some.injEq] at otherOpen
      rw [sameHandle, ← otherOpen, Function.update_self]
      exact ⟨isHandle, isNode, created, le_max_right _ _⟩
    · rw [Function.update_of_ne sameHandle] at otherOpen
      obtain ⟨otherHandle, otherNode, otherCreated, otherInside⟩ :=
        consistent.opened other otherFile otherOpen
      refine ⟨otherHandle, otherNode, otherCreated, ?_⟩
      by_cases sameNode : otherFile.node = file.node
      · rw [sameNode, Function.update_self]
        rw [sameNode] at otherInside
        omega
      · rw [Function.update_of_ne sameNode]
        exact otherInside

end Chunk

/-- A state with the same tree, handles and contents is reached by writing nothing. -/
theorem written_nil {handle : Nat} {file : OpenFile} (isOpen : fs.openFiles handle = some file)
    (nodes : after.nodes = fs.nodes) (openFiles : after.openFiles = fs.openFiles)
    (contents : ∀ other, after.content other = fs.content other) :
    Written fs handle file [] after where
  nodes := nodes
  openFiles := by
    rw [openFiles, List.length_nil, Nat.add_zero, ← isOpen, Function.update_eq_self]
  written := by rw [contents, overwrite_nil]
  others := fun other _ => contents other

/-- Without a frame for a chunk there is no free frame. -/
theorem ensureFrame_none (covers : frames.Covers) {node slot : Nat}
    (returned : fs.ensureFrame frames node slot = .ok (none, after)) :
    frames.freeFrames after.memory = 0 := by
  obtain ⟨found, _, returned⟩ := bind_eq_ok.mp returned
  cases found with
  | some frame => cases returned
  | none =>
    cases scanned : frames.allocateFrame fs.memory with
    | mk taken memory =>
      simp only [scanned] at returned
      obtain ⟨rfl, rfl⟩ := Prod.mk.inj (Except.ok.inj returned)
      rcases FrameAllocator.freeFrames_allocateFrame covers scanned with ⟨_, _, empty⟩ | ⟨some, _⟩
      · exact empty
      · cases some

/-- The loop of `write` writes a prefix of the buffer. When it returns a number, that is the
prefix's length, and the whole of the buffer that fits the file; when it returns none, the prefix is
shorter and no frame is free. -/
theorem Consistent.writeLoop_spec (covers : frames.Covers) {fs : FileSystem}
    (consistent : fs.Consistent frames regions) {handle : Nat} {file : OpenFile}
    (isOpen : fs.openFiles handle = some file) (buf : List UInt8) :
    ∃ result after count, fs.writeLoop frames handle file buf = .ok (result, after) ∧
      after.Consistent frames regions ∧ count ≤ buf.length ∧
      Written fs handle file (buf.take count) after ∧
      (∀ written, result = some written →
        written = count ∧ count = min buf.length (maxFileSize - file.position)) ∧
      (result = none → count < min buf.length (maxFileSize - file.position) ∧
        frames.freeFrames after.memory = 0) := by
  obtain ⟨_, isNode, _, inside⟩ := consistent.opened handle file isOpen
  have bounded := consistent.bounded file.node
  rw [writeLoop]
  by_cases more : 0 < buf.length ∧ file.position / 4096 < fileDataFrames
  · rw [if_pos more]
    have room : file.position < maxFileSize := by
      unfold fileDataFrames at more
      unfold maxFileSize
      omega
    obtain ⟨slot, taken, ensured, takenConsistent, found, nodes, openFiles, contents⟩ :=
      consistent.ensureFrame_spec covers isNode more.2
    have same := written_nil isOpen nodes openFiles contents
    simp only [ensured, ok_bind]
    cases slot with
    | none =>
      exact ⟨none, taken, 0, rfl, takenConsistent, Nat.zero_le _, same, by simp,
        fun _ => ⟨by omega, ensureFrame_none covers ensured⟩⟩
    | some frame =>
      generalize size : min buf.length (4096 - file.position % 4096) = toWrite
      have length : (buf.take toWrite).length = toWrite := by
        rw [List.length_take]
        omega
      have inFrame : file.position % 4096 + (buf.take toWrite).length ≤ 4096 := by omega
      have takenOpen : taken.openFiles handle = some file := by rw [openFiles, isOpen]
      have takenInside := (takenConsistent.opened handle file takenOpen).2.2.2
      have put := takenConsistent.putChunk_eq handle found (buf.take toWrite)
      have chunkWritten := takenConsistent.withChunk_written handle found inFrame takenInside
      have chunkConsistent := takenConsistent.withChunk covers takenOpen found inFrame more.2
      generalize taken.withChunk handle file frame (buf.take toWrite) = middle at *
      have written := same.append inside chunkWritten
      have middleOpen : middle.openFiles handle =
          some { file with position := file.position + toWrite } := by
        rw [chunkWritten.openFiles, Function.update_self, length]
      obtain ⟨rest, last, count, looped, lastConsistent, below, lastWritten, whole, starved⟩ :=
        chunkConsistent.writeLoop_spec covers middleOpen (buf.drop toWrite)
      rw [List.length_drop] at below whole starved
      dsimp only at whole starved
      simp only [put, ok_bind, looped]
      refine ⟨_, last, toWrite + count, rfl, lastConsistent, by omega, ?_, ?_, ?_⟩
      · have joined : buf.take (toWrite + count) = buf.take toWrite ++ (buf.drop toWrite).take count :=
          List.take_add
        rw [joined]
        refine written.append inside ?_
        rw [length]
        exact lastWritten
      · intro total returned
        obtain ⟨restTotal, rfl, rfl⟩ := Option.map_eq_some_iff.mp returned
        obtain ⟨counted, fits⟩ := whole restTotal rfl
        unfold fileDataFrames at more
        unfold maxFileSize at *
        exact ⟨by omega, by omega⟩
      · intro returned
        obtain ⟨short, empty⟩ := starved (Option.map_eq_none_iff.mp returned)
        exact ⟨by omega, empty⟩
  · rw [if_neg more]
    refine ⟨some 0, fs, 0, rfl, consistent, Nat.zero_le _,
      written_nil isOpen rfl rfl fun _ => rfl, ?_, by simp⟩
    intro written same
    rw [Option.some.injEq] at same
    unfold fileDataFrames at more
    unfold maxFileSize at bounded ⊢
    omega
termination_by buf.length
decreasing_by
  rw [List.length_drop]
  omega

end FileSystem

end Aperture.Vfs
