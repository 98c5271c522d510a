import Aperture.Mm.AddressSpace
import Aperture.Mm.FrameUsers

/-!
# Occupied memory

Code that takes frames writes the bitmap and frames that nobody has, so what is in use stays as it is
whoever runs. Memory is vacant when such code may write it, an operation is confined when it writes
vacant memory and memory of its own, and occupied memory survives every confined operation that
does not own it.
-/

namespace Aperture.Mm

open Machine PageTable

namespace FrameAllocator

variable {fa : FrameAllocator} {before middle after : PhysMem} {touched more land : Set Nat}

/-- Memory that is written when frames are taken: the bitmap and the frames that are free. -/
def vacant (fa : FrameAllocator) (memory : PhysMem) : Set Nat :=
  {a | a ∈ fa.bitmapSpan ∨
    ∃ index < fa.frameCount, fa.used memory index = false ∧ a ∈ fa.frameSpan index}

/-- An operation writes vacant memory and what it may touch besides, and releases no frame. -/
structure Confined (fa : FrameAllocator) (touched : Set Nat) (before after : PhysMem) : Prop where
  /-- Nothing else is written. -/
  writes : WritesWithin {a | a ∈ fa.vacant before ∨ a ∈ touched} before after
  /-- Frames in use stay in use. -/
  kept : fa.Keeps before after

/-- Memory that is not vacant. -/
def Occupied (fa : FrameAllocator) (memory : PhysMem) (land : Set Nat) : Prop :=
  ∀ a ∈ land, a ∉ fa.vacant memory

/-- Doing nothing is confined. -/
theorem Confined.refl (fa : FrameAllocator) (touched : Set Nat) (memory : PhysMem) :
    fa.Confined touched memory memory := ⟨.refl _ _, .refl _ _⟩

/-- What is vacant behind a confined operation was vacant before. -/
theorem Confined.vacant (confined : fa.Confined touched before after) {a : Nat}
    (isVacant : a ∈ fa.vacant after) : a ∈ fa.vacant before := by
  rcases isVacant with inBitmap | ⟨index, inside, free, inFrame⟩
  · exact .inl inBitmap
  · exact .inr ⟨index, inside, confined.kept.free inside free, inFrame⟩

/-- Confined operations compose, as the second one may touch what has been taken by the first. -/
theorem Confined.trans (first : fa.Confined touched before middle)
    (second : fa.Confined more middle after)
    (covered : ∀ a ∈ more, a ∈ fa.vacant before ∨ a ∈ touched) :
    fa.Confined touched before after := by
  refine ⟨first.writes.trans (second.writes.mono ?_), first.kept.trans second.kept⟩
  rintro a (isVacant | isTouched)
  · exact .inl (first.vacant isVacant)
  · exact covered a isTouched

/-- An operation that touches less is confined, too. -/
theorem Confined.mono (confined : fa.Confined touched before after)
    (covered : ∀ a ∈ touched, a ∈ fa.vacant before ∨ a ∈ more) : fa.Confined more before after :=
  (Confined.refl fa more before).trans confined covered

/-- Taking a frame is confined. -/
theorem confined_allocateFrame (covers : fa.Covers) {result : Option Nat}
    (returned : fa.allocateFrame before = (result, after)) : fa.Confined ∅ before after := by
  obtain ⟨writes, keeps, _⟩ := allocateFrame_takes covers returned
  exact ⟨writes.mono fun _ inBitmap => .inl (.inl inBitmap), keeps⟩

/-- Writing off the bitmap is confined to what is written. -/
theorem confined_of_writes (covers : fa.Covers) (writes : WritesWithin touched before after)
    (off : ∀ a ∈ fa.bitmapSpan, a ∉ touched) : fa.Confined touched before after :=
  ⟨writes.mono fun _ isTouched => .inr isTouched, keeps_of_writes covers writes off⟩

/-- Occupied memory stays occupied. -/
theorem Occupied.kept (occupied : fa.Occupied before land)
    (confined : fa.Confined touched before after) : fa.Occupied after land := by
  intro a inLand isVacant
  exact occupied a inLand (confined.vacant isVacant)

/-- Where an operation does not own it, it keeps its bytes. -/
theorem Occupied.same (occupied : fa.Occupied before land)
    (confined : fa.Confined touched before after) (foreign : ∀ a ∈ land, a ∉ touched) :
    ∀ a ∈ land, after.byte a = before.byte a := by
  intro a inLand
  apply confined.writes.unchanged
  rintro (isVacant | isTouched)
  · exact occupied a inLand isVacant
  · exact foreign a inLand isTouched

/-- Frames in use off the bitmap are occupied. -/
theorem occupied_of_used (used : ∀ a ∈ land, ∃ index < fa.frameCount, a ∈ fa.frameSpan index ∧
    fa.used before index = true ∧ (fa.frameSpan index).Separate fa.bitmapSpan) :
    fa.Occupied before land := by
  intro a inLand isVacant
  obtain ⟨index, _, inFrame, marked, off⟩ := used a inLand
  rcases isVacant with inBitmap | ⟨other, _, free, inOther⟩
  · exact Span.separate_iff.mp off a inFrame inBitmap
  · have different : index ≠ other := by
      rintro rfl
      rw [marked] at free
      cases free
    exact Span.separate_iff.mp (frameSpan_separate different) a inFrame inOther

end FrameAllocator

namespace PageTable

variable {fa : FrameAllocator} {kernel root : Nat} {shared own : Nat → Nat → Prop}
  {before after : PhysMem} {touched : Set Nat}

/-- The memory of table pages. -/
def pagesOf (own : Nat → Nat → Prop) : Set Nat :=
  {a | ∃ level table, own level table ∧ a ∈ page table}

/-- The pages of the kernel are occupied. -/
theorem KernelTables.occupied (tables : KernelTables fa kernel shared before) :
    fa.Occupied before (pagesOf shared) := by
  rintro a ⟨level, table, isShared, inPage⟩ (inBitmap | ⟨index, inside, free, inFrame⟩)
  · exact Span.separate_iff.mp (tables.off_bitmap level table isShared) a inPage inBitmap
  · exact Span.separate_iff.mp (tables.off_free level table isShared index inside free) a inPage
      inFrame

/-- So are those of a table. -/
theorem Tree.occupied (tree : Tree fa kernel shared before root own) :
    fa.Occupied before (pagesOf own) := by
  rintro a ⟨level, table, mine, inPage⟩ (inBitmap | ⟨index, inside, free, inFrame⟩)
  · exact Span.separate_iff.mp (tree.off_bitmap level table mine) a inPage inBitmap
  · exact Span.separate_iff.mp (tree.off_free mine free) a inPage inFrame

/-- A confined operation leaves the entries of pages that it does not own. -/
theorem entry_survives (confined : fa.Confined touched before after)
    (occupied : fa.Occupied before (pagesOf own)) (foreign : ∀ a ∈ pagesOf own, a ∉ touched)
    {level table : Nat} (mine : own level table) {index : Nat} (inside : index < 512) :
    entry after table index = entry before table index := by
  refine entry_eq_of_writes confined.writes inside fun a inPage => ?_
  have inPages : a ∈ pagesOf own := ⟨level, table, mine, inPage⟩
  rintro (isVacant | isTouched)
  · exact occupied a inPages isVacant
  · exact foreign a inPages isTouched

/-- The tables of the kernel survive it. -/
theorem KernelTables.survives (tables : KernelTables fa kernel shared before)
    (confined : fa.Confined touched before after) (foreign : ∀ a ∈ pagesOf shared, a ∉ touched) :
    KernelTables fa kernel shared after := by
  apply tables.congr
  · intro level table isShared index inside
    exact entry_survives confined tables.occupied foreign isShared inside
  · intro index inside free
    exact confined.kept.free inside free

/-- A table survives it, and so do its translations. -/
theorem Tree.survives (tables : KernelTables fa kernel shared before)
    (tree : Tree fa kernel shared before root own) (confined : fa.Confined touched before after)
    (kernelForeign : ∀ a ∈ pagesOf shared, a ∉ touched) (foreign : ∀ a ∈ pagesOf own, a ∉ touched) :
    Tree fa kernel shared after root own ∧
      ∀ virt, translate after root virt = translate before root virt := by
  have kernelSame (level table : Nat) (isShared : shared level table) (index : Nat)
      (inside : index < 512) : entry after table index = entry before table index :=
    entry_survives confined tables.occupied kernelForeign isShared inside
  have ownSame (level table : Nat) (mine : own level table) (index : Nat) (inside : index < 512) :
      entry after table index = entry before table index :=
    entry_survives confined tree.occupied foreign mine inside
  constructor
  · exact tree.congr ownSame (kernelSame 3 kernel tables.root) confined.kept
  · apply translate_congr (tree.walk_closed tables) (.inl tree.root_own)
    rintro level table (mine | isShared) index inside
    · exact ownSame level table mine index inside
    · exact kernelSame level table isShared index inside

end PageTable

end Aperture.Mm
