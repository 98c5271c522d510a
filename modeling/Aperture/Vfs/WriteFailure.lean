import Aperture.Mm.FrameOwnership
import Aperture.Vfs.Contents
import Aperture.Vfs.Operations

/-!
# Writes that fail

`write` goes through its buffer in chunks and returns nothing when a chunk finds no frame. The
chunks before it stay in the file, with the size and the position they led to, so a failed write
leaves the file alone exactly when it fails at its first chunk.
-/

namespace Aperture.Vfs.FileSystem

open Machine Mm

variable {frames : FrameAllocator} {fs after : FileSystem} {handle : Nat} {file : OpenFile}
  {buf : List UInt8}

/-- The handle and its file are as before. -/
structure SameFile (fs : FileSystem) (handle : Nat) (after : FileSystem) : Prop where
  /-- The position of the handle. -/
  position : after.openFiles handle = fs.openFiles handle
  /-- The size of the file. -/
  size : ∀ file, fs.openFiles handle = some file →
    after.fileSizes file.node = fs.fileSizes file.node
  /-- The bytes of the file. -/
  content : ∀ file, fs.openFiles handle = some file → after.content file.node = fs.content file.node

/-- The frames with file data lie off the bitmap, as the frames that `allocate_frame` returns do. -/
def OffBitmap (frames : FrameAllocator) (fs : FileSystem) : Prop :=
  ∀ node slot frame, fs.fileData node slot = some frame →
    (⟨frame, 4096⟩ : Span).Separate frames.bitmapSpan

/-- So they do in every state that the operations keep consistent. -/
theorem Consistent.offBitmap {regions : List MemoryRegion}
    (consistent : fs.Consistent frames regions) : OffBitmap frames fs := by
  intro node slot frame found
  obtain ⟨index, _, rfl, _, _, off⟩ := consistent.owned node slot frame found
  exact off

/-- The next chunk of an open file has no frame, and none is free. -/
def Blocked (frames : FrameAllocator) (fs : FileSystem) (file : OpenFile) : Prop :=
  fs.fileData file.node (file.position / 4096) = none ∧ frames.freeFrames fs.memory = 0

instance (frames : FrameAllocator) (fs : FileSystem) (file : OpenFile) :
    Decidable (Blocked frames fs file) := inferInstanceAs (Decidable (_ ∧ _))

/-- The entry read by a chunk is that of the table. -/
theorem frameAt_eq {node slot : Nat} {found : Option Nat}
    (looked : fs.frameAt node slot = .ok found) : fs.fileData node slot = found := by
  unfold frameAt at looked
  split at looked
  · cases looked
  · exact Except.ok.inj looked

/-- A chunk finds a frame exactly when it is not blocked; a blocked one writes to the bitmap at
most. -/
theorem ensureFrame_cases (covers : frames.Covers) {result : Option Nat}
    (returned : fs.ensureFrame frames file.node (file.position / 4096) = .ok (result, after)) :
    (Blocked frames fs file ∧ result = none ∧ ∃ memory,
      after = fs.withFrame file.node (file.position / 4096) none memory ∧
      WritesWithin frames.bitmapSpan.toSet fs.memory memory) ∨
    ¬Blocked frames fs file ∧ ∃ frame, result = some frame := by
  obtain ⟨found, looked, returned⟩ := bind_eq_ok.mp returned
  have entry := frameAt_eq looked
  cases found with
  | some frame =>
    obtain ⟨rfl, rfl⟩ := Prod.mk.inj (Except.ok.inj returned)
    refine .inr ⟨fun blocked => ?_, frame, rfl⟩
    rw [blocked.1] at entry
    cases entry
  | none =>
    by_cases empty : frames.freeFrames fs.memory = 0
    · obtain ⟨memory, failed, _, writes⟩ := FrameAllocator.allocateFrame_empty covers empty
      simp only [failed] at returned
      obtain ⟨rfl, rfl⟩ := Prod.mk.inj (Except.ok.inj returned)
      exact .inl ⟨⟨entry, empty⟩, rfl, memory, rfl, writes⟩
    · cases allocated : frames.allocateFrame fs.memory with
      | mk frame memory =>
        rw [allocated] at returned
        obtain ⟨rfl, rfl⟩ := Prod.mk.inj (Except.ok.inj returned)
        refine .inr ⟨fun blocked => empty blocked.2, ?_⟩
        rcases FrameAllocator.freeFrames_allocateFrame covers allocated with
          ⟨_, zero, _⟩ | ⟨some, _⟩
        · exact absurd zero empty
        · exact Option.isSome_iff_exists.mp some

/-- A chunk in its frame moves the handle. -/
theorem putChunk_openFiles {frame : Nat} {chunk : List UInt8}
    (returned : fs.putChunk handle file frame chunk = .ok after) :
    after.openFiles handle = some { file with position := file.position + chunk.length } := by
  obtain ⟨dst, _, returned⟩ := bind_eq_ok.mp returned
  obtain rfl := Except.ok.inj returned
  exact Function.update_self ..

/-- The loop of `write` ends, or fails at a blocked chunk, or goes on with the handle moved. -/
theorem writeLoop_cases (covers : frames.Covers) {result : Option Nat}
    (returned : fs.writeLoop frames handle file buf = .ok (result, after)) :
    (result ≠ none ∧ after = fs) ∨
    (Blocked frames fs file ∧ result = none ∧ ∃ memory,
      after = fs.withFrame file.node (file.position / 4096) none memory ∧
      WritesWithin frames.bitmapSpan.toSet fs.memory memory) ∨
    ¬Blocked frames fs file ∧ ∃ (count : Nat) (middle : FileSystem) (rest : Option Nat),
      0 < count ∧ count ≤ buf.length ∧
      middle.openFiles handle = some { file with position := file.position + count } ∧
      middle.writeLoop frames handle { file with position := file.position + count }
        (buf.drop count) = .ok (rest, after) := by
  rw [writeLoop] at returned
  by_cases more : 0 < buf.length ∧ file.position / 4096 < fileDataFrames
  · rw [if_pos more] at returned
    obtain ⟨⟨slot, taken⟩, ensured, returned⟩ := bind_eq_ok.mp returned
    right
    obtain ⟨blocked, rfl, failed⟩ | ⟨first, frame, rfl⟩ := ensureFrame_cases covers ensured
    · obtain ⟨rfl, rfl⟩ := Prod.mk.inj (Except.ok.inj returned)
      exact .inl ⟨blocked, rfl, failed⟩
    · obtain ⟨middle, put, returned⟩ := bind_eq_ok.mp returned
      obtain ⟨⟨rest, last⟩, looped, returned⟩ := bind_eq_ok.mp returned
      obtain ⟨rfl, rfl⟩ := Prod.mk.inj (Except.ok.inj returned)
      have moved := putChunk_openFiles put
      have length : (buf.take (min buf.length (4096 - file.position % 4096))).length =
          min buf.length (4096 - file.position % 4096) := by
        rw [List.length_take]
        omega
      rw [length] at moved
      exact .inr ⟨first, min buf.length (4096 - file.position % 4096), middle, rest, by omega,
        by omega, moved, looped⟩
  · rw [if_neg more] at returned
    obtain ⟨rfl, rfl⟩ := Prod.mk.inj (Except.ok.inj returned)
    exact .inl ⟨Option.some_ne_none 0, rfl⟩

/-- The loop of `write` does not move the handle back. -/
theorem writeLoop_moves {fs after : FileSystem} {file : OpenFile} {buf : List UInt8}
    {result : Option Nat} (covers : frames.Covers) (isOpen : fs.openFiles handle = some file)
    (returned : fs.writeLoop frames handle file buf = .ok (result, after)) :
    ∃ position, file.position ≤ position ∧
      after.openFiles handle = some { file with position } := by
  obtain ⟨_, rfl⟩ | ⟨_, _, memory, rfl, _⟩ |
    ⟨_, count, middle, rest, positive, fits, moved, looped⟩ := writeLoop_cases covers returned
  · exact ⟨file.position, Nat.le_refl _, isOpen⟩
  · exact ⟨file.position, Nat.le_refl _, isOpen⟩
  · obtain ⟨position, forward, ended⟩ := writeLoop_moves covers moved looped
    exact ⟨position, (Nat.le_add_right _ _).trans forward, ended⟩
termination_by buf.length
decreasing_by
  rw [List.length_drop]
  omega

/-- A failed allocation for a missing frame leaves every file as it was. -/
theorem OffBitmap.sameFile (offBitmap : OffBitmap frames fs) {node slot : Nat} {memory : PhysMem}
    (missing : fs.fileData node slot = none)
    (writes : WritesWithin frames.bitmapSpan.toSet fs.memory memory) :
    SameFile fs handle (fs.withFrame node slot none memory) := by
  have tables : (fs.withFrame node slot none memory).fileData = fs.fileData := by
    funext otherNode otherSlot
    simp only [withFrame, update_frame]
    split
    · rename_i here
      rw [here.1, here.2, missing]
    · rfl
  refine ⟨rfl, fun _ _ => rfl, fun file _ => content_congr rfl fun i _ => ?_⟩
  unfold byteAt
  rw [tables]
  cases found : fs.fileData file.node (i / 4096) with
  | none => rfl
  | some frame =>
    refine writes.unchanged _ fun member => ?_
    have apart := Span.separate_iff.mp (offBitmap _ _ _ found)
    exact apart (frame + i % 4096) (by rw [Span.mem_iff]; dsimp only; omega) member

/-- A loop that fails at its first chunk leaves the file as it was. -/
theorem writeLoop_blocked (covers : frames.Covers) (offBitmap : OffBitmap frames fs)
    (blocked : Blocked frames fs file)
    (returned : fs.writeLoop frames handle file buf = .ok (none, after)) :
    SameFile fs handle after := by
  obtain ⟨ended, _⟩ | ⟨_, _, memory, rfl, writes⟩ | ⟨first, _⟩ := writeLoop_cases covers returned
  · exact absurd rfl ended
  · exact offBitmap.sameFile blocked.1 writes
  · exact absurd blocked first

/-- A loop that fails at a later chunk has moved the handle. -/
theorem writeLoop_moved (covers : frames.Covers) (first : ¬Blocked frames fs file)
    (returned : fs.writeLoop frames handle file buf = .ok (none, after)) :
    ∃ position, file.position < position ∧
      after.openFiles handle = some { file with position } := by
  obtain ⟨ended, _⟩ | ⟨blocked, _⟩ | ⟨_, count, middle, rest, positive, _, moved, looped⟩ :=
    writeLoop_cases covers returned
  · exact absurd rfl ended
  · exact absurd blocked first
  · obtain ⟨position, forward, ended⟩ := writeLoop_moves covers moved looped
    dsimp only at forward
    exact ⟨position, by omega, ended⟩

/-- For every state of the file system, handle and buffer: a `write` that fails leaves the
contents, the size and the position as they were exactly when the handle is not open, is not
writable, or its next chunk has no frame and none is free. -/
theorem write_failed_iff (placed : frames.Placed) (offBitmap : OffBitmap frames fs)
    (returned : fs.write frames handle buf = .ok (none, after)) :
    SameFile fs handle after ↔ ∀ file, fs.openFiles handle = some file → file.writable = true →
      Blocked frames fs file := by
  have covers := placed.covers
  obtain ⟨found, looked, returned⟩ := bind_eq_ok.mp returned
  have stored := Steady.openAt_eq looked
  cases found with
  | none =>
    obtain ⟨-, rfl⟩ := Prod.mk.inj (Except.ok.inj returned)
    refine ⟨fun _ file isOpen => ?_, fun _ => ⟨rfl, fun _ _ => rfl, fun _ _ => rfl⟩⟩
    rw [stored] at isOpen
    cases isOpen
  | some file =>
    dsimp only at returned
    by_cases writable : file.writable = true
    · rw [if_pos writable] at returned
      constructor
      · intro same other isOpen _
        obtain rfl := Option.some.inj (stored.symm.trans isOpen)
        by_contra first
        obtain ⟨position, forward, moved⟩ := writeLoop_moved covers first returned
        rw [same.position, stored, Option.some.injEq] at moved
        have stays := congrArg OpenFile.position moved
        dsimp only at stays
        omega
      · intro blocked
        exact writeLoop_blocked covers offBitmap (blocked file stored writable) returned
    · rw [if_neg writable] at returned
      obtain ⟨-, rfl⟩ := Prod.mk.inj (Except.ok.inj returned)
      refine ⟨fun _ other isOpen isWritable => ?_, fun _ => ⟨rfl, fun _ _ => rfl, fun _ _ => rfl⟩⟩
      obtain rfl := Option.some.inj (stored.symm.trans isOpen)
      exact absurd isWritable writable

/-- A loop with bytes to write and room in the file fails when its first chunk is blocked. -/
theorem writeLoop_fails (covers : frames.Covers) (isNode : file.node < maxNodes)
    (more : 0 < buf.length ∧ file.position / 4096 < fileDataFrames)
    (blocked : Blocked frames fs file) :
    ∃ after, fs.writeLoop frames handle file buf = .ok (none, after) := by
  have entry : fs.frameAt file.node (file.position / 4096) = .ok none := by
    rw [frameAt, if_neg (by omega), blocked.1]
  obtain ⟨memory, failed, _⟩ := FrameAllocator.allocateFrame_empty covers blocked.2
  have ensured : fs.ensureFrame frames file.node (file.position / 4096) =
      .ok (none, fs.withFrame file.node (file.position / 4096) none memory) := by
    simp only [ensureFrame, entry, ok_bind, failed]
    rfl
  refine ⟨fs.withFrame file.node (file.position / 4096) none memory, ?_⟩
  rw [writeLoop, if_pos more, ensured]
  rfl

/-- Four frames in use, the last with a file that is open for writing at its end. -/
def lastFrameFile (size : Nat) : FileSystem where
  nodes := fun node => if node = 1 then some ⟨.file, some 0, [0x61]⟩ else none
  fileData := fun node slot => if node = 1 ∧ slot = 0 then some 0x103000 else none
  fileSizes := fun node => if node = 1 then size else 0
  openFiles := fun handle => if handle = 0 then some ⟨1, size, true⟩ else none
  memory := ⟨fun address => if address = 0x100000 then 15 else 0, []⟩

/-- The frame of that file is off the bitmap. -/
theorem lastFrameFile_offBitmap (size : Nat) :
    OffBitmap FrameAllocator.fourFrames (lastFrameFile size) := by
  intro node slot frame found
  simp only [lastFrameFile] at found
  split at found
  · obtain rfl := Option.some.inj found
    decide
  · cases found

/-- A write behind a full page fails at its first chunk and leaves the file alone. -/
theorem write_failed_iff_full : ∃ after,
    (lastFrameFile 4096).write FrameAllocator.fourFrames 0 [1, 2] = .ok (none, after) ∧
      SameFile (lastFrameFile 4096) 0 after := by
  have covers := FrameAllocator.fourFrames_placed.covers
  have blocked : Blocked FrameAllocator.fourFrames (lastFrameFile 4096) ⟨1, 4096, true⟩ :=
    ⟨by decide, by decide +kernel⟩
  obtain ⟨after, failed⟩ := @writeLoop_fails _ _ 0 _ [1, 2] covers (by decide) (by decide) blocked
  have returned : (lastFrameFile 4096).write FrameAllocator.fourFrames 0 [1, 2] =
      .ok (none, after) := failed
  have placed := FrameAllocator.fourFrames_placed
  refine ⟨after, returned, (write_failed_iff placed (lastFrameFile_offBitmap 4096) returned).mpr ?_⟩
  intro file isOpen _
  obtain rfl := Option.some.inj isOpen
  exact blocked

/-- A write of two bytes at the last byte of a page, with every frame in use: the first byte is
written, the second finds no frame, and the write fails with the position and the size moved. -/
theorem write_failed_counterexample : ∃ after,
    (lastFrameFile 4095).write FrameAllocator.fourFrames 0 [1, 2] = .ok (none, after) ∧
      ¬SameFile (lastFrameFile 4095) 0 after := by
  have covers := FrameAllocator.fourFrames_placed.covers
  have inFrame : ¬Blocked FrameAllocator.fourFrames (lastFrameFile 4095) ⟨1, 4095, true⟩ := by
    rintro ⟨missing, _⟩
    exact absurd missing (by decide)
  have blocked : Blocked FrameAllocator.fourFrames
      ((lastFrameFile 4095).withChunk 0 ⟨1, 4095, true⟩ 0x103000 [1]) ⟨1, 4096, true⟩ :=
    ⟨by decide, by decide +kernel⟩
  obtain ⟨after, failed⟩ := @writeLoop_fails _ _ 0 _ [2] covers (by decide) (by decide) blocked
  have looped : (lastFrameFile 4095).writeLoop FrameAllocator.fourFrames 0 ⟨1, 4095, true⟩ [1, 2] =
      .ok (none, after) := by
    rw [writeLoop, if_pos (by decide)]
    exact bind_eq_ok.mpr ⟨_, rfl, bind_eq_ok.mpr ⟨_, rfl, bind_eq_ok.mpr ⟨_, failed, rfl⟩⟩⟩
  refine ⟨after, looped, fun same => ?_⟩
  obtain ⟨position, forward, moved⟩ := writeLoop_moved covers inFrame looped
  rw [same.position] at moved
  have stays := congrArg OpenFile.position (Option.some.inj moved)
  dsimp only at stays forward
  omega

end Aperture.Vfs.FileSystem
