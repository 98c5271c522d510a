import Aperture.Mm.FrameUsers
import Aperture.Vfs.Contents
import Aperture.Vfs.Operations

/-!
# Frames with file data

`write` takes frames that are free and puts bytes into frames it took, so no frame in use
becomes free.
-/

namespace Aperture.Vfs.FileSystem

open Machine Mm

variable {frames : FrameAllocator} {regions : List MemoryRegion} {fs after : FileSystem}

/-- File data lies in frames that may be handed out. -/
def InFrames (frames : FrameAllocator) (regions : List MemoryRegion) (fs : FileSystem) : Prop :=
  ∀ node slot frame, fs.fileData node slot = some frame →
    ∃ index < frames.frameCount, frame = frames.frameAddr index ∧ frames.Allocatable regions index

/-- Only such frames are free. -/
def FreeAllocatable (frames : FrameAllocator) (regions : List MemoryRegion) (memory : PhysMem) :
    Prop :=
  ∀ index < frames.frameCount, frames.used memory index = false → frames.Allocatable regions index

/-- The frame for a chunk. -/
theorem InFrames.ensureFrame (inFrames : fs.InFrames frames regions) (covers : frames.Covers)
    (allocatable : FreeAllocatable frames regions fs.memory) {node slot : Nat} {result : Option Nat}
    (returned : fs.ensureFrame frames node slot = .ok (result, after)) :
    after.InFrames frames regions ∧ frames.Keeps fs.memory after.memory ∧
      ∀ frame, result = some frame → ∃ index < frames.frameCount,
        frame = frames.frameAddr index ∧ frames.Allocatable regions index := by
  obtain ⟨found, looked, returned⟩ := bind_eq_ok.mp returned
  have entry : found = fs.fileData node slot := by
    unfold frameAt at looked
    split at looked
    · cases looked
    · exact (Except.ok.inj looked).symm
  cases found with
  | some frame =>
    obtain ⟨rfl, rfl⟩ := Prod.mk.inj (Except.ok.inj returned)
    refine ⟨inFrames, .refl _ _, fun other same => ?_⟩
    obtain rfl := Option.some.inj same
    exact inFrames node slot frame entry.symm
  | none =>
    cases scanned : frames.allocateFrame fs.memory with
    | mk taken memory =>
      simp only [scanned] at returned
      obtain ⟨rfl, rfl⟩ := Prod.mk.inj (Except.ok.inj returned)
      obtain ⟨_, keeps, takes⟩ := FrameAllocator.allocateFrame_takes covers scanned
      have inUsable (frame : Nat) (same : taken = some frame) : ∃ index < frames.frameCount,
          frame = frames.frameAddr index ∧ frames.Allocatable regions index := by
        obtain ⟨index, inside, address, free, _⟩ := takes frame same
        exact ⟨index, inside, address, allocatable index inside free⟩
      refine ⟨fun otherNode otherSlot frame here => ?_, keeps, inUsable⟩
      simp only [withFrame, update_frame] at here
      split at here
      · exact inUsable frame here
      · exact inFrames otherNode otherSlot frame here

/-- A chunk goes into its frame. -/
theorem keeps_putChunk (covers : frames.Covers) {handle frame : Nat} {file : OpenFile}
    {chunk : List UInt8} (inFrame : file.position % 4096 + chunk.length ≤ 4096)
    (usable : ∃ index < frames.frameCount,
      frame = frames.frameAddr index ∧ frames.Allocatable regions index)
    (returned : fs.putChunk handle file frame chunk = .ok after) :
    frames.Keeps fs.memory after.memory ∧ after.fileData = fs.fileData := by
  obtain ⟨dst, sum, returned⟩ := bind_eq_ok.mp returned
  obtain ⟨_, rfl⟩ := add64_eq_ok.mp sum
  obtain rfl := Except.ok.inj returned
  obtain ⟨index, _, rfl, _, apart⟩ := usable
  refine ⟨FrameAllocator.keeps_of_span covers (WritesWithin.copyIn _ fun a member => ?_) apart, rfl⟩
  simp only [Span.mem_toSet, Span.mem_iff, FrameAllocator.frameSpan, frameSize] at member ⊢
  omega

/-- The loop of `write` releases nothing. -/
theorem InFrames.writeLoop {fs after : FileSystem} (inFrames : fs.InFrames frames regions)
    (covers : frames.Covers) (allocatable : FreeAllocatable frames regions fs.memory) {handle : Nat}
    {file : OpenFile} {buf : List UInt8} {result : Option Nat}
    (returned : fs.writeLoop frames handle file buf = .ok (result, after)) :
    after.InFrames frames regions ∧ frames.Keeps fs.memory after.memory := by
  rw [FileSystem.writeLoop] at returned
  by_cases more : 0 < buf.length ∧ file.position / 4096 < fileDataFrames
  · rw [if_pos more] at returned
    obtain ⟨⟨slot, taken⟩, ensured, returned⟩ := bind_eq_ok.mp returned
    obtain ⟨takenFrames, takenKeeps, usable⟩ := inFrames.ensureFrame covers allocatable ensured
    cases slot with
    | none =>
      obtain ⟨_, rfl⟩ := Prod.mk.inj (Except.ok.inj returned)
      exact ⟨takenFrames, takenKeeps⟩
    | some frame =>
      obtain ⟨middle, put, returned⟩ := bind_eq_ok.mp returned
      obtain ⟨⟨rest, last⟩, looped, returned⟩ := bind_eq_ok.mp returned
      obtain ⟨_, rfl⟩ := Prod.mk.inj (Except.ok.inj returned)
      have inFrame : file.position % 4096 +
          (buf.take (min buf.length (4096 - file.position % 4096))).length ≤ 4096 := by
        rw [List.length_take]
        omega
      obtain ⟨putKeeps, sameData⟩ := keeps_putChunk covers inFrame (usable frame rfl) put
      have keeps := takenKeeps.trans putKeeps
      have middleFrames : middle.InFrames frames regions := by
        intro node slot other here
        rw [sameData] at here
        exact takenFrames node slot other here
      have middleFree : FreeAllocatable frames regions middle.memory :=
        fun index inside free => allocatable index inside (keeps.free inside free)
      obtain ⟨lastFrames, lastKeeps⟩ := middleFrames.writeLoop covers middleFree looped
      exact ⟨lastFrames, keeps.trans lastKeeps⟩
  · rw [if_neg more] at returned
    obtain ⟨_, rfl⟩ := Prod.mk.inj (Except.ok.inj returned)
    exact ⟨inFrames, .refl _ _⟩
termination_by buf.length
decreasing_by
  rw [List.length_drop]
  omega

/-- So does `write`. -/
theorem InFrames.write (inFrames : fs.InFrames frames regions) (covers : frames.Covers)
    (allocatable : FreeAllocatable frames regions fs.memory) {handle : Nat} {buf : List UInt8}
    {result : Option Nat} (returned : fs.write frames handle buf = .ok (result, after)) :
    after.InFrames frames regions ∧ frames.Keeps fs.memory after.memory := by
  obtain ⟨found, _, returned⟩ := bind_eq_ok.mp returned
  cases found with
  | none =>
    obtain ⟨_, rfl⟩ := Prod.mk.inj (Except.ok.inj returned)
    exact ⟨inFrames, .refl _ _⟩
  | some file =>
    dsimp only at returned
    split at returned
    · exact inFrames.writeLoop covers allocatable returned
    · obtain ⟨_, rfl⟩ := Prod.mk.inj (Except.ok.inj returned)
      exact ⟨inFrames, .refl _ _⟩

/-- The tree and the open files are apart from memory and frames. -/
theorem create_same (fs : FileSystem) (parent : Nat) (name : List UInt8) (kind : NodeKind) :
    (fs.create parent name kind).2.memory = fs.memory ∧
      (fs.create parent name kind).2.fileData = fs.fileData := by
  cases created : fs.create parent name kind with
  | mk result after =>
    obtain ⟨-, rfl, -⟩ | ⟨slot, -, -, -, -, rfl⟩ := create_cases created
    · exact ⟨rfl, rfl⟩
    · exact ⟨rfl, rfl⟩

/-- So is opening. -/
theorem openFile_same {node : Nat} {writable : Bool} {result : Option Nat}
    (returned : fs.openFile node writable = .ok (result, after)) :
    after.memory = fs.memory ∧ after.fileData = fs.fileData := by
  obtain ⟨-, rfl, -⟩ | ⟨slot, above, name, -, -, -, -, rfl⟩ := openFile_cases returned
  · exact ⟨rfl, rfl⟩
  · exact ⟨rfl, rfl⟩

end Aperture.Vfs.FileSystem
