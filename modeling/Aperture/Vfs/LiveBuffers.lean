import Aperture.Vfs.Footprint

/-!
# Buffers that overlap files

System calls hand over a buffer as an address, so a chunk of a read can land where a later chunk is
read from, and a frame that a write takes can be the buffer itself. Away from the frames of files and
from vacant memory neither happens, and the calls do what they do with buffers of their own.
-/

namespace Aperture.Vfs.FileSystem

open Machine Mm

variable {frames : FrameAllocator} {regions : List MemoryRegion} {fs after : FileSystem}
  {node size last : Nat}

/-! ## Reading -/

/-- A chunk that is read into memory is the chunk that is read. -/
theorem readChunkInto_eq {index offset target count : Nat}
    (returned : fs.readChunkInto node index offset target count = .ok after) :
    ∃ chunk, fs.readChunk node index offset count = .ok chunk ∧ chunk.length = count ∧
      after = { fs with memory := fs.memory.copyIn target chunk } := by
  unfold readChunkInto at returned
  unfold readChunk
  obtain ⟨found, located, returned⟩ := bind_eq_ok.mp returned
  rw [located, ok_bind]
  cases found with
  | none =>
    obtain rfl := pure_eq_ok.mp returned
    exact ⟨_, rfl, by simp, rfl⟩
  | some frame =>
    obtain ⟨src, sum, returned⟩ := bind_eq_ok.mp returned
    obtain ⟨_, _, returned⟩ := bind_eq_ok.mp returned
    obtain rfl := pure_eq_ok.mp returned
    dsimp only
    rw [sum]
    exact ⟨_, rfl, by simp [PhysMem.readBytes], rfl⟩

/-- The bytes of a file whose frames are these, from a position on. -/
def bytesAt (frameOf : Nat → Option Nat) (memory : PhysMem) (position count : Nat) : List UInt8 :=
  (List.range count).map fun i =>
    match frameOf ((position + i) / 4096) with
    | none => 0
    | some frame => memory.byte (frame + (position + i) % 4096)

/-- The memory that a read leaves: chunk by chunk, each copied from what the ones in front of it have
left. -/
def copies (frameOf : Nat → Option Nat) (size position target wanted : Nat) (memory : PhysMem) :
    PhysMem :=
  if 0 < wanted ∧ position < size then
    let toRead := min wanted (min (4096 - position % 4096) (size - position))
    copies frameOf size (position + toRead) (target + toRead) (wanted - toRead)
      (memory.copyIn target (bytesAt frameOf memory position toRead))
  else memory
termination_by wanted
decreasing_by omega

/-- As many bytes as are asked for. -/
@[simp]
theorem length_bytesAt (frameOf : Nat → Option Nat) (memory : PhysMem) (position count : Nat) :
    (bytesAt frameOf memory position count).length = count := by
  simp [bytesAt]

/-- The bytes come in parts. -/
theorem bytesAt_add (frameOf : Nat → Option Nat) (memory : PhysMem) (position front back : Nat) :
    bytesAt frameOf memory position (front + back) =
      bytesAt frameOf memory position front ++ bytesAt frameOf memory (position + front) back := by
  simp only [bytesAt, List.range_add, List.map_append, List.map_map, Function.comp_def,
    Nat.add_assoc]

/-- The loop of a read that returns leaves the copies of its chunks. -/
theorem readLoopInto_eq {fs : FileSystem} {position target wanted : Nat}
    (returned : fs.readLoopInto node size position target wanted = .ok (last, after)) :
    last = position + min wanted (size - position) ∧ after = { fs with
      memory := copies (fs.fileData node) size position target wanted fs.memory } := by
  rw [readLoopInto] at returned
  rw [copies]
  by_cases more : 0 < wanted ∧ position < size
  · rw [if_pos more] at returned ⊢
    generalize count : min wanted (min (4096 - position % 4096) (size - position)) = toRead
      at returned ⊢
    obtain ⟨middle, copied, returned⟩ := bind_eq_ok.mp returned
    obtain ⟨chunk, reading, _, rfl⟩ := readChunkInto_eq copied
    obtain ⟨rfl, rfl⟩ := readLoopInto_eq returned
    obtain rfl := readChunk_bytes reading (by omega)
    exact ⟨by omega, rfl⟩
  · rw [if_neg more] at returned ⊢
    obtain ⟨rfl, rfl⟩ := Prod.mk.inj (Except.ok.inj returned)
    exact ⟨by omega, rfl⟩
termination_by wanted
decreasing_by omega

/-- The copies lie in the buffer, in front of its unread part. -/
theorem copies_writes (frameOf : Nat → Option Nat) (size position target wanted : Nat)
    (memory : PhysMem) :
    WritesWithin (⟨target, min wanted (size - position)⟩ : Span).toSet memory
      (copies frameOf size position target wanted memory) := by
  rw [copies]
  by_cases more : 0 < wanted ∧ position < size
  · rw [if_pos more]
    dsimp only
    generalize count : min wanted (min (4096 - position % 4096) (size - position)) = toRead
    refine .trans (.copyIn _ fun a inside => ?_) ((copies_writes frameOf size (position + toRead)
      (target + toRead) (wanted - toRead) _).mono fun a inside => ?_)
    · simp only [length_bytesAt, Span.mem_iff, Span.mem_toSet] at inside ⊢
      omega
    · simp only [Span.mem_iff, Span.mem_toSet] at inside ⊢
      omega
  · rw [if_neg more]
    exact .refl _ _
termination_by wanted
decreasing_by omega

/-- Writes off the frames leave the bytes of the file. -/
theorem bytesAt_congr {frameOf : Nat → Option Nat} {memory later : PhysMem} {region : Set Nat}
    (writes : WritesWithin region memory later)
    (off : ∀ slot frame, frameOf slot = some frame → ∀ a ∈ (⟨frame, 4096⟩ : Span), a ∉ region)
    (position count : Nat) :
    bytesAt frameOf later position count = bytesAt frameOf memory position count := by
  unfold bytesAt
  apply List.map_congr_left
  intro i _
  cases found : frameOf ((position + i) / 4096) with
  | none => rfl
  | some frame =>
    apply writes.unchanged
    apply off _ frame found
    rw [Span.mem_iff]
    dsimp only
    omega

/-- Off the frames of the file, the buffer receives its bytes. -/
theorem readBytes_copies {frameOf : Nat → Option Nat} {memory : PhysMem}
    {position target wanted : Nat}
    (off : ∀ slot frame, frameOf slot = some frame → ∀ a ∈ (⟨frame, 4096⟩ : Span),
      a ∉ (⟨target, min wanted (size - position)⟩ : Span)) :
    (copies frameOf size position target wanted memory).readBytes target
        (min wanted (size - position)) =
      bytesAt frameOf memory position (min wanted (size - position)) := by
  rw [copies]
  by_cases more : 0 < wanted ∧ position < size
  · rw [if_pos more]
    dsimp only
    generalize count : min wanted (min (4096 - position % 4096) (size - position)) = toRead
    have split : min wanted (size - position) =
        toRead + min (wanted - toRead) (size - (position + toRead)) := by omega
    generalize rest : min (wanted - toRead) (size - (position + toRead)) = back at split
    rw [split] at off ⊢
    have first : WritesWithin (⟨target, toRead⟩ : Span).toSet memory
        (memory.copyIn target (bytesAt frameOf memory position toRead)) := by
      refine .copyIn _ fun a inside => ?_
      rwa [length_bytesAt] at inside
    have second := copies_writes frameOf size (position + toRead) (target + toRead)
      (wanted - toRead) (memory.copyIn target (bytesAt frameOf memory position toRead))
    rw [rest] at second
    have later := @readBytes_copies frameOf
      (memory.copyIn target (bytesAt frameOf memory position toRead)) (position + toRead)
      (target + toRead) (wanted - toRead) (by
        intro slot frame found a inFrame inBuffer
        rw [rest] at inBuffer
        refine off slot frame found a inFrame ?_
        rw [Span.mem_iff] at inBuffer ⊢
        dsimp only at inBuffer ⊢
        omega)
    rw [rest] at later
    rw [PhysMem.readBytes_add, bytesAt_add, later, bytesAt_congr first (fun slot frame found a
      inFrame inBuffer => off slot frame found a inFrame (by
        rw [Span.mem_toSet, Span.mem_iff] at inBuffer
        rw [Span.mem_iff]
        dsimp only at inBuffer ⊢
        omega))]
    congr 1
    have front : (memory.copyIn target (bytesAt frameOf memory position toRead)).readBytes target
        toRead = bytesAt frameOf memory position toRead := by
      have read := memory.readBytes_copyIn target (bytesAt frameOf memory position toRead)
      rwa [length_bytesAt] at read
    refine (second.readBytes fun a inside behind => ?_).trans front
    simp only [Span.mem_toSet, Span.mem_iff] at inside behind
    omega
  · rw [if_neg more]
    have nothing : min wanted (size - position) = 0 := by omega
    rw [nothing]
    rfl
termination_by wanted
decreasing_by omega

/-- Whether a chunk can be read does not depend on the bytes. -/
theorem readChunk_returns {index offset count : Nat} {memory : PhysMem} {chunk : List UInt8}
    (returned : { fs with memory }.readChunk node index offset count = .ok chunk) :
    ∃ other, fs.readChunk node index offset count = .ok other := by
  obtain ⟨found, located, returned⟩ := bind_eq_ok.mp returned
  have located : fs.frameAt node index = .ok found := located
  rw [readChunk, located, ok_bind]
  cases found with
  | none => exact ⟨_, rfl⟩
  | some frame =>
    obtain ⟨src, sum, _⟩ := bind_eq_ok.mp returned
    dsimp only
    rw [sum]
    exact ⟨_, rfl⟩

/-- A read into memory that returns is one that returns with a buffer of its own. -/
theorem readLoop_of_into {fs : FileSystem} {memory : PhysMem} {position target wanted : Nat}
    (returned : { fs with memory }.readLoopInto node size position target wanted =
      .ok (last, after)) :
    fs.readLoop node size position wanted =
      .ok (bytesAt (fs.fileData node) fs.memory position (min wanted (size - position)), last) := by
  rw [readLoopInto] at returned
  rw [readLoop]
  by_cases more : 0 < wanted ∧ position < size
  · rw [if_pos more] at returned ⊢
    generalize count : min wanted (min (4096 - position % 4096) (size - position)) = toRead
      at returned ⊢
    obtain ⟨middle, copied, returned⟩ := bind_eq_ok.mp returned
    obtain ⟨_, reading, _, rfl⟩ := readChunkInto_eq copied
    obtain ⟨chunk, reads⟩ := readChunk_returns reading
    obtain rfl := readChunk_bytes reads (by omega)
    have rest : fs.readLoop node size (position + toRead) (wanted - toRead) = .ok (bytesAt
        (fs.fileData node) fs.memory (position + toRead)
        (min (wanted - toRead) (size - (position + toRead))), last) := readLoop_of_into returned
    have split : min wanted (size - position) =
        toRead + min (wanted - toRead) (size - (position + toRead)) := by omega
    dsimp only
    rw [reads, ok_bind, rest, split, bytesAt_add]
    rfl
  · rw [if_neg more] at returned ⊢
    obtain ⟨rfl, rfl⟩ := Prod.mk.inj (Except.ok.inj returned)
    have nothing : min wanted (size - position) = 0 := by omega
    rw [nothing]
    rfl
termination_by wanted
decreasing_by omega

/-- Into a buffer off the frames of files a read puts what it reads into one of its own. -/
theorem read_of_into {handle target len : Nat} {result : Option Nat}
    (off : ∀ a ∈ fs.fileLand, a ∉ (⟨target, len⟩ : Span))
    (returned : fs.readInto handle target len = .ok (result, after)) :
    ∃ filled middle memory,
      fs.read handle (fs.memory.readBytes target len) = .ok (result, filled, middle) ∧
      after = { middle with memory } ∧ middle.memory = fs.memory ∧
      WritesWithin (⟨target, len⟩ : Span).toSet fs.memory memory ∧
      memory.readBytes target len = filled := by
  unfold readInto at returned
  unfold read
  obtain ⟨found, looked, returned⟩ := bind_eq_ok.mp returned
  rw [looked, ok_bind]
  cases found with
  | none =>
    obtain ⟨rfl, rfl⟩ := Prod.mk.inj (pure_eq_ok.mp returned)
    exact ⟨_, fs, fs.memory, rfl, rfl, rfl, .refl _ _, rfl⟩
  | some file =>
    obtain ⟨size, sized, returned⟩ := bind_eq_ok.mp returned
    obtain ⟨⟨position, middle⟩, looped, returned⟩ := bind_eq_ok.mp returned
    obtain ⟨rfl, rfl⟩ := Prod.mk.inj (pure_eq_ok.mp returned)
    obtain ⟨isLast, rfl⟩ := readLoopInto_eq looped
    have reads : fs.readLoop file.node size file.position len = .ok (bytesAt
        (fs.fileData file.node) fs.memory file.position (min len (size - file.position)),
        position) := readLoop_of_into looped
    have writes := copies_writes (fs.fileData file.node) size file.position target len fs.memory
    have apart (slot frame : Nat) (isFrame : fs.fileData file.node slot = some frame) (a : Nat)
        (inFrame : a ∈ (⟨frame, 4096⟩ : Span)) :
        a ∉ (⟨target, min len (size - file.position)⟩ : Span) := by
      intro inBuffer
      apply off a ⟨file.node, slot, frame, isFrame, inFrame⟩
      rw [Span.mem_iff] at inBuffer ⊢
      dsimp only at inBuffer ⊢
      omega
    have received := @readBytes_copies size _ fs.memory file.position target len apart
    have counted : position - file.position = min len (size - file.position) := by omega
    rw [counted]
    generalize isCount : min len (size - file.position) = count at reads writes received
    have few : count ≤ len := by omega
    refine ⟨bytesAt (fs.fileData file.node) fs.memory file.position count ++
      (fs.memory.readBytes target len).drop count, fs.seek handle file position, _, ?_, rfl, rfl,
      writes.mono fun a inside => ?_, ?_⟩
    · dsimp only
      rw [sized, ok_bind, PhysMem.length_readBytes, reads, ok_bind]
      dsimp only
      rw [length_bytesAt]
      rfl
    · simp only [Span.mem_toSet, Span.mem_iff] at inside ⊢
      omega
    · have behind : (copies (fs.fileData file.node) size file.position target len
          fs.memory).readBytes (target + count) (len - count) =
            fs.memory.readBytes (target + count) (len - count) := by
        refine writes.readBytes fun a inside written => ?_
        simp only [Span.mem_toSet, Span.mem_iff] at inside written
        omega
      rw [PhysMem.readBytes_drop _ _ few, ← received, ← behind, ← PhysMem.readBytes_add,
        Nat.add_sub_cancel' few]

/-- The bytes of a whole file. -/
theorem content_eq_bytesAt (fs : FileSystem) (node : Nat) :
    fs.content node = bytesAt (fs.fileData node) fs.memory 0 (fs.fileSizes node) := by
  unfold content bytesAt
  apply List.map_congr_left
  intro i _
  cases found : fs.fileData node (i / 4096) with
  | none => simp only [byteAt, Nat.zero_add, found]
  | some frame => simp only [byteAt, Nat.zero_add, found]

/-- Into a buffer off the frames of its file the loop of a read returns. -/
theorem readLoopInto_returns {fs : FileSystem} {position target wanted : Nat}
    (isNode : node < maxNodes) (bounded : size ≤ maxFileSize)
    (fits : ∀ slot frame, fs.fileData node slot = some frame → ∀ offset < 4096,
      add64 frame offset = .ok (frame + offset))
    (off : ∀ slot frame, fs.fileData node slot = some frame → ∀ a ∈ (⟨frame, 4096⟩ : Span),
      a ∉ (⟨target, wanted⟩ : Span)) :
    ∃ result, fs.readLoopInto node size position target wanted = .ok result := by
  rw [readLoopInto]
  by_cases more : 0 < wanted ∧ position < size
  · rw [if_pos more]
    generalize count : min wanted (min (4096 - position % 4096) (size - position)) = toRead
    have slot : fs.frameAt node (position / 4096) =
        .ok (fs.fileData node (position / 4096)) := by
      rw [frameAt, if_neg]
      unfold maxFileSize at bounded
      unfold fileDataFrames
      omega
    have copied : ∃ memory, fs.readChunkInto node (position / 4096) (position % 4096) target
        toRead = .ok { fs with memory } := by
      rw [readChunkInto, slot, ok_bind]
      cases found : fs.fileData node (position / 4096) with
      | none => exact ⟨_, rfl⟩
      | some frame =>
        have apart : checkApart (frame + position % 4096) target toRead = .ok () := by
          rw [checkApart, if_pos]
          by_contra together
          refine off _ frame found (max (frame + position % 4096) target) ?_ ?_
          · rw [Span.mem_iff]
            dsimp only
            omega
          · rw [Span.mem_iff]
            dsimp only
            omega
        dsimp only
        rw [fits _ frame found _ (Nat.mod_lt position (by decide)), ok_bind, apart, ok_bind]
        exact ⟨_, rfl⟩
    obtain ⟨memory, copied⟩ := copied
    have within (slot frame : Nat) (found : fs.fileData node slot = some frame) (a : Nat)
        (inFrame : a ∈ (⟨frame, 4096⟩ : Span)) :
        a ∉ (⟨target + toRead, wanted - toRead⟩ : Span) := by
      intro inBuffer
      apply off slot frame found a inFrame
      rw [Span.mem_iff] at inBuffer ⊢
      dsimp only at inBuffer ⊢
      omega
    dsimp only
    rw [copied, ok_bind]
    exact @readLoopInto_returns { fs with memory } (position + toRead) (target + toRead)
      (wanted - toRead) isNode bounded fits within
  · rw [if_neg more]
    exact ⟨_, rfl⟩
termination_by wanted
decreasing_by omega

/-- So does the whole call. -/
theorem Consistent.readInto_returns (consistent : fs.Consistent frames regions) {handle : Nat}
    {file : OpenFile} (isOpen : fs.openFiles handle = some file) {target len : Nat}
    (off : ∀ a ∈ fs.fileLand, a ∉ (⟨target, len⟩ : Span)) :
    ∃ result, fs.readInto handle target len = .ok result := by
  obtain ⟨_, isNode, _, _⟩ := consistent.opened handle file isOpen
  have sized : fs.sizeAt file.node = .ok (fs.fileSizes file.node) := by
    rw [sizeAt, if_neg (by omega)]
  obtain ⟨⟨position, after⟩, looped⟩ := @readLoopInto_returns file.node
    (fs.fileSizes file.node) fs file.position target len isNode (consistent.bounded file.node)
    (fun slot frame found offset => consistent.frame_fits found)
    (fun slot frame found a inFrame => off a ⟨file.node, slot, frame, found, inFrame⟩)
  rw [readInto, consistent.openAt_eq isOpen, ok_bind]
  dsimp only
  rw [sized, ok_bind, looped]
  exact ⟨_, rfl⟩

/-! ## Writing -/

/-- The buffer of a write is neither vacant nor file data. -/
def Foreign (frames : FrameAllocator) (fs : FileSystem) (place : Span) : Prop :=
  ∀ a ∈ place, a ∉ frames.vacant fs.memory ∧ a ∉ fs.fileLand

/-- A footprint leaves such a buffer alone. -/
theorem Footprint.readBytes (footprint : Footprint frames fs after) {source wanted : Nat}
    (foreign : Foreign frames fs ⟨source, wanted⟩) :
    after.memory.readBytes source wanted = fs.memory.readBytes source wanted := by
  refine footprint.confined.writes.readBytes fun a inside => ?_
  rintro (isVacant | isFile)
  · exact (foreign a inside).1 isVacant
  · exact (foreign a inside).2 isFile

/-- Behind it any part of the buffer is such a buffer again. -/
theorem Footprint.foreign (footprint : Footprint frames fs after) {place part : Span}
    (foreign : Foreign frames fs place) (within : ∀ a ∈ part, a ∈ place) :
    Foreign frames after part := by
  intro a inside
  obtain ⟨occupied, outside⟩ := foreign a (within a inside)
  refine ⟨fun isVacant => occupied (footprint.confined.vacant isVacant), fun isFile => ?_⟩
  rcases footprint.land a isFile with isVacant | isFile
  · exact occupied isVacant
  · exact outside isFile

/-- From such a buffer a write takes what it takes from one of its own. -/
theorem Consistent.writeLoopFrom_eq (covers : frames.Covers) {fs : FileSystem}
    (consistent : fs.Consistent frames regions) {handle : Nat} {file : OpenFile}
    (isOpen : fs.openFiles handle = some file) {source wanted : Nat}
    (foreign : Foreign frames fs ⟨source, wanted⟩) :
    fs.writeLoopFrom frames handle file source wanted =
      fs.writeLoop frames handle file (fs.memory.readBytes source wanted) := by
  obtain ⟨_, isNode, _, _⟩ := consistent.opened handle file isOpen
  rw [writeLoopFrom, writeLoop, PhysMem.length_readBytes]
  by_cases more : 0 < wanted ∧ file.position / 4096 < fileDataFrames
  · rw [if_pos more, if_pos more]
    obtain ⟨slot, taken, ensured, takenConsistent, found, _, openFiles, _⟩ :=
      consistent.ensureFrame_spec covers isNode more.2
    have first := footprint_ensureFrame covers ensured
    simp only [ensured, ok_bind]
    cases slot with
    | none => rfl
    | some frame =>
      generalize size : min wanted (4096 - file.position % 4096) = toWrite
      have split : wanted = toWrite + (wanted - toWrite) := by omega
      have takenOpen : taken.openFiles handle = some file := by rw [openFiles, isOpen]
      have takenForeign := first.foreign foreign fun a inside => inside
      have bytes := first.readBytes foreign
      have chunk : taken.memory.readBytes source toWrite =
          (fs.memory.readBytes source wanted).take toWrite := by
        rw [← bytes, split, PhysMem.readBytes_add, List.take_left' (PhysMem.length_readBytes _ _ _)]
      have length : (taken.memory.readBytes source toWrite).length = toWrite := by simp
      have inFrame : file.position % 4096 +
          (taken.memory.readBytes source toWrite).length ≤ 4096 := by omega
      have fits := takenConsistent.frame_fits found (Nat.mod_lt file.position (by decide))
      have apart : checkApart source (frame + file.position % 4096) toWrite = .ok () := by
        rw [checkApart, if_pos]
        by_contra together
        refine (takenForeign (max source (frame + file.position % 4096)) ?_).2
          ⟨file.node, file.position / 4096, frame, found, ?_⟩
        · rw [Span.mem_iff]
          dsimp only
          omega
        · rw [Span.mem_iff]
          dsimp only
          omega
      have put := takenConsistent.putChunk_eq handle found (taken.memory.readBytes source toWrite)
      have chunkConsistent := takenConsistent.withChunk covers takenOpen found inFrame more.2
      have second := takenConsistent.footprint_withChunk covers handle found inFrame
      have within (a : Nat) (inside : a ∈ (⟨source + toWrite, wanted - toWrite⟩ : Span)) :
          a ∈ (⟨source, wanted⟩ : Span) := by
        rw [Span.mem_iff] at inside ⊢
        dsimp only at inside ⊢
        omega
      have movedOpen : (taken.withChunk handle file frame
          (taken.memory.readBytes source toWrite)).openFiles handle =
            some { file with position := file.position + toWrite } := by
        simp only [FileSystem.withChunk, Function.update_self, length]
      have both := first.trans second
      have rest := chunkConsistent.writeLoopFrom_eq covers movedOpen (both.foreign foreign within)
      have behind := both.readBytes fun a inside => foreign a (within a inside)
      rw [behind, ← PhysMem.readBytes_drop _ _ (by omega : toWrite ≤ wanted)] at rest
      dsimp only
      rw [fits, ok_bind, apart, ok_bind, put, ok_bind, rest, ← chunk, put]
      rfl
  · rw [if_neg more, if_neg more]
termination_by wanted
decreasing_by omega

/-- The same of the whole call. -/
theorem Consistent.writeFrom_eq (covers : frames.Covers) (consistent : fs.Consistent frames regions)
    {handle source len : Nat} (foreign : Foreign frames fs ⟨source, len⟩) :
    fs.writeFrom frames handle source len =
      fs.write frames handle (fs.memory.readBytes source len) := by
  unfold writeFrom write openAt
  split
  · rfl
  · cases isOpen : fs.openFiles handle with
    | none => rfl
    | some file =>
      simp only [ok_bind, consistent.writeLoopFrom_eq covers isOpen foreign]

end Aperture.Vfs.FileSystem
