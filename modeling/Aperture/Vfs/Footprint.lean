import Aperture.Mm.Occupied
import Aperture.Vfs.FileFrames
import Aperture.Vfs.Refinement

/-!
# What calls on files write

The calls on files write the frames of files, and frames that nobody has when they take them. So
whatever else is in use survives every call, and the frames that files come to have are such frames.
-/

namespace Aperture.Vfs.FileSystem

open Machine Mm

variable {frames : FrameAllocator} {regions : List MemoryRegion} {fs middle after : FileSystem}

/-- The memory with file data. -/
def fileLand (fs : FileSystem) : Set Nat :=
  {a | ∃ node slot frame, fs.fileData node slot = some frame ∧ a ∈ (⟨frame, 4096⟩ : Span)}

/-- A call writes file data and vacant memory only, and file data goes nowhere else. -/
structure Footprint (frames : FrameAllocator) (fs after : FileSystem) : Prop where
  /-- What it writes. -/
  confined : frames.Confined fs.fileLand fs.memory after.memory
  /-- Where file data is afterwards. -/
  land : ∀ a ∈ after.fileLand, a ∈ frames.vacant fs.memory ∨ a ∈ fs.fileLand

/-- A call that leaves memory and frames alone. -/
theorem footprint_of_same (memory : after.memory = fs.memory) (fileData : after.fileData = fs.fileData) :
    Footprint frames fs after := by
  refine ⟨?_, ?_⟩
  · rw [memory]
    exact .refl _ _ _
  · intro a inLand
    right
    unfold fileLand at inLand ⊢
    rwa [fileData] at inLand

/-- Footprints compose. -/
theorem Footprint.trans (first : Footprint frames fs middle) (second : Footprint frames middle after) :
    Footprint frames fs after := by
  refine ⟨first.confined.trans second.confined first.land, ?_⟩
  intro a inLand
  rcases second.land a inLand with isVacant | inFiles
  · exact .inl (first.confined.vacant isVacant)
  · exact first.land a inFiles

/-- The frame for a chunk is one of the file, or was free. -/
theorem footprint_ensureFrame (covers : frames.Covers) {node slot : Nat} {result : Option Nat}
    (returned : fs.ensureFrame frames node slot = .ok (result, after)) :
    Footprint frames fs after := by
  obtain ⟨found, _, returned⟩ := bind_eq_ok.mp returned
  cases found with
  | some frame =>
    obtain ⟨rfl, rfl⟩ := Prod.mk.inj (Except.ok.inj returned)
    exact footprint_of_same rfl rfl
  | none =>
    cases scanned : frames.allocateFrame fs.memory with
    | mk taken memory =>
      simp only [scanned] at returned
      obtain ⟨rfl, rfl⟩ := Prod.mk.inj (Except.ok.inj returned)
      obtain ⟨_, _, takes⟩ := FrameAllocator.allocateFrame_takes covers scanned
      refine ⟨(FrameAllocator.confined_allocateFrame covers scanned).mono fun _ nothing =>
        nothing.elim, ?_⟩
      rintro a ⟨otherNode, otherSlot, frame, here, inFrame⟩
      simp only [withFrame, update_frame] at here
      split at here
      · obtain ⟨index, inside, rfl, free, _⟩ := takes frame here
        exact .inl (.inr ⟨index, inside, free, inFrame⟩)
      · exact .inr ⟨otherNode, otherSlot, frame, here, inFrame⟩

/-- A chunk goes into a frame of its file. -/
theorem Consistent.footprint_withChunk (covers : frames.Covers)
    (consistent : fs.Consistent frames regions) (handle : Nat) {frame : Nat} {file : OpenFile}
    {chunk : List UInt8} (found : fs.fileData file.node (file.position / 4096) = some frame)
    (inFrame : file.position % 4096 + chunk.length ≤ 4096) :
    Footprint frames fs (fs.withChunk handle file frame chunk) := by
  obtain ⟨index, _, rfl, _, _, off⟩ := consistent.owned _ _ _ found
  have writes : WritesWithin (frames.frameSpan index).toSet fs.memory
      (fs.withChunk handle file (frames.frameAddr index) chunk).memory := by
    refine WritesWithin.copyIn _ fun a member => ?_
    simp only [Span.mem_iff, Span.mem_toSet, FrameAllocator.frameSpan, frameSize] at member ⊢
    omega
  refine ⟨(FrameAllocator.confined_of_writes covers writes
    (Span.separate_iff.mp off.symm)).mono fun a inFrame => ?_, fun a inLand => .inr inLand⟩
  exact .inr ⟨file.node, file.position / 4096, frames.frameAddr index, found, inFrame⟩

/-- The loop of `write` does so chunk by chunk. -/
theorem Consistent.footprint_writeLoop (covers : frames.Covers) {fs after : FileSystem}
    (consistent : fs.Consistent frames regions) {handle : Nat} {file : OpenFile}
    (isOpen : fs.openFiles handle = some file) {buf : List UInt8} {result : Option Nat}
    (returned : fs.writeLoop frames handle file buf = .ok (result, after)) :
    Footprint frames fs after := by
  obtain ⟨_, isNode, _, _⟩ := consistent.opened handle file isOpen
  rw [writeLoop] at returned
  by_cases more : 0 < buf.length ∧ file.position / 4096 < fileDataFrames
  · rw [if_pos more] at returned
    obtain ⟨slot, taken, ensured, takenConsistent, found, _, openFiles, _⟩ :=
      consistent.ensureFrame_spec covers isNode more.2
    have first := footprint_ensureFrame covers ensured
    simp only [ensured, ok_bind] at returned
    cases slot with
    | none =>
      obtain ⟨_, rfl⟩ := Prod.mk.inj (Except.ok.inj returned)
      exact first
    | some frame =>
      have inFrame : file.position % 4096 +
          (buf.take (min buf.length (4096 - file.position % 4096))).length ≤ 4096 := by
        rw [List.length_take]
        omega
      have takenOpen : taken.openFiles handle = some file := by rw [openFiles, isOpen]
      have put := takenConsistent.putChunk_eq handle found
        (buf.take (min buf.length (4096 - file.position % 4096)))
      have chunkConsistent := takenConsistent.withChunk covers takenOpen found inFrame more.2
      have second := takenConsistent.footprint_withChunk covers handle found inFrame
      have length : (buf.take (min buf.length (4096 - file.position % 4096))).length =
          min buf.length (4096 - file.position % 4096) := by
        rw [List.length_take]
        omega
      obtain ⟨moved, placed, returned⟩ := bind_eq_ok.mp returned
      obtain rfl := Except.ok.inj (put.symm.trans placed)
      obtain ⟨⟨rest, last⟩, looped, returned⟩ := bind_eq_ok.mp returned
      obtain ⟨_, rfl⟩ := Prod.mk.inj (Except.ok.inj returned)
      have movedOpen : (taken.withChunk handle file frame
          (buf.take (min buf.length (4096 - file.position % 4096)))).openFiles handle =
            some { file with position :=
              file.position + min buf.length (4096 - file.position % 4096) } := by
        simp only [FileSystem.withChunk, Function.update_self, length]
      exact (first.trans second).trans
        (chunkConsistent.footprint_writeLoop covers movedOpen looped)
  · rw [if_neg more] at returned
    obtain ⟨_, rfl⟩ := Prod.mk.inj (Except.ok.inj returned)
    exact footprint_of_same rfl rfl
termination_by buf.length
decreasing_by
  rw [List.length_drop]
  omega

/-- Every call on files has its footprint. -/
theorem Consistent.footprint_step (covers : frames.Covers)
    (consistent : fs.Consistent frames regions) {event : FileEvent}
    (ofFiles : ∀ memory, event ≠ .other memory) (step : fs.Step frames event after) :
    Footprint frames fs after := by
  cases event with
  | create parent name kind result =>
    have same := create_same fs parent name kind
    have returned : fs.create parent name kind = (result, after) := step
    rw [returned] at same
    exact footprint_of_same same.1 same.2
  | openFile node writable result =>
    obtain ⟨memory, fileData⟩ := openFile_same step
    exact footprint_of_same memory fileData
  | close handle result =>
    obtain ⟨found, _, returned⟩ := bind_eq_ok.mp step
    cases found with
    | none =>
      obtain ⟨_, rfl⟩ := Prod.mk.inj (Except.ok.inj returned)
      exact footprint_of_same rfl rfl
    | some file =>
      obtain ⟨_, rfl⟩ := Prod.mk.inj (Except.ok.inj returned)
      exact footprint_of_same rfl rfl
  | read handle buf result filled =>
    obtain ⟨found, _, returned⟩ := bind_eq_ok.mp step
    cases found with
    | none =>
      obtain ⟨_, rest⟩ := Prod.mk.inj (Except.ok.inj returned)
      obtain ⟨_, rfl⟩ := Prod.mk.inj rest
      exact footprint_of_same rfl rfl
    | some file =>
      obtain ⟨size, _, returned⟩ := bind_eq_ok.mp returned
      obtain ⟨chunks, _, returned⟩ := bind_eq_ok.mp returned
      obtain ⟨_, rest⟩ := Prod.mk.inj (Except.ok.inj returned)
      obtain ⟨_, rfl⟩ := Prod.mk.inj rest
      exact footprint_of_same rfl rfl
  | write handle buf result free =>
    obtain ⟨found, looked, returned⟩ := bind_eq_ok.mp step.1
    cases found with
    | none =>
      obtain ⟨_, rfl⟩ := Prod.mk.inj (Except.ok.inj returned)
      exact footprint_of_same rfl rfl
    | some file =>
      have isOpen : fs.openFiles handle = some file := by
        unfold openAt at looked
        split at looked
        · cases looked
        · exact Except.ok.inj looked
      dsimp only at returned
      split at returned
      · exact consistent.footprint_writeLoop covers isOpen returned
      · obtain ⟨_, rfl⟩ := Prod.mk.inj (Except.ok.inj returned)
        exact footprint_of_same rfl rfl
  | other memory => exact absurd rfl (ofFiles memory)

/-- The frames of files are occupied. -/
theorem Consistent.occupied (consistent : fs.Consistent frames regions) :
    frames.Occupied fs.memory fs.fileLand := by
  apply FrameAllocator.occupied_of_used
  rintro a ⟨node, slot, frame, found, inFrame⟩
  obtain ⟨index, inside, rfl, marked, _, off⟩ := consistent.owned node slot frame found
  exact ⟨index, inside, inFrame, marked, off⟩

/-- Other code that is confined to what is no file leaves the files alone. -/
theorem Consistent.undisturbed (consistent : fs.Consistent frames regions) {touched : Set Nat}
    {memory : PhysMem} (confined : frames.Confined touched fs.memory memory)
    (foreign : ∀ a ∈ fs.fileLand, a ∉ touched) : fs.Undisturbed frames regions (.other memory) := by
  refine ⟨fun node slot frame found => ⟨?_, ?_⟩, ?_⟩
  · intro a inFrame
    exact consistent.occupied.same confined foreign a ⟨node, slot, frame, found, inFrame⟩
  · intro index inside address
    obtain ⟨other, otherInside, same, marked, _⟩ := consistent.owned node slot frame found
    have marks := confined.kept other otherInside marked
    obtain rfl : other = index := by
      simp only [address, FrameAllocator.frameAddr, frameSize] at same
      omega
    exact marks
  · intro index inside free
    exact consistent.free index inside (confined.kept.free inside free)

end Aperture.Vfs.FileSystem
