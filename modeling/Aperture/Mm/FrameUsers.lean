import Aperture.Mm.Isolation
import Aperture.Mm.MapExact

/-!
# Users of frames

What `allocate_frame`, `free_frame`, `PageTable::new` and `map` do to the bits of the bitmap.
Only `free_frame` clears one. A mapping writes entries of the tables it walks, so it leaves the
bitmap alone while those tables avoid the bitmap and the free frames.
-/

namespace Aperture.Mm

open Machine

namespace FrameAllocator

variable {fa : FrameAllocator} {memory middle after : PhysMem}

/-- Frames in use stay in use. -/
def Keeps (fa : FrameAllocator) (memory after : PhysMem) : Prop :=
  ∀ index < fa.frameCount, fa.used memory index = true → fa.used after index = true

/-- Nothing happened. -/
theorem Keeps.refl (fa : FrameAllocator) (memory : PhysMem) : fa.Keeps memory memory :=
  fun _ _ marked => marked

/-- One after the other. -/
theorem Keeps.trans (first : fa.Keeps memory middle) (second : fa.Keeps middle after) :
    fa.Keeps memory after :=
  fun index inside marked => second index inside (first index inside marked)

/-- What is free then was free before. -/
theorem Keeps.free (keeps : fa.Keeps memory after) {index : Nat} (inside : index < fa.frameCount)
    (free : fa.used after index = false) : fa.used memory index = false := by
  by_contra marked
  rw [Bool.not_eq_false] at marked
  rw [keeps index inside marked] at free
  cases free

/-- Writes off the bitmap. -/
theorem keeps_of_writes (covers : fa.Covers) {region : Set Nat}
    (writes : WritesWithin region memory after) (off : ∀ a ∈ fa.bitmapSpan, a ∉ region) :
    fa.Keeps memory after := by
  intro index inside marked
  rw [used_eq_of_writes covers writes off inside, marked]

/-- Writes in a span off the bitmap. -/
theorem keeps_of_span (covers : fa.Covers) {span : Span}
    (writes : WritesWithin span.toSet memory after) (apart : span.Separate fa.bitmapSpan) :
    fa.Keeps memory after :=
  keeps_of_writes covers writes (Span.separate_iff.mp apart.symm)

/-- An allocation. -/
theorem keeps_allocateFrame (covers : fa.Covers) {result : Option Nat}
    (returned : fa.allocateFrame memory = (result, after)) : fa.Keeps memory after :=
  (allocateFrame_takes covers returned).2.1

/-- The frame whose bit `free_frame` clears for an address. -/
def freedIndex (fa : FrameAllocator) (frame : Nat) : Option Nat :=
  if frame < fa.firstFrame then none
  else if fa.frameCount ≤ (frame - fa.firstFrame) / frameSize then none
  else some ((frame - fa.firstFrame) / frameSize)

/-- The other bits stay. -/
theorem used_freeFrame (fa : FrameAllocator) (memory : PhysMem) {frame index : Nat}
    (other : fa.freedIndex frame ≠ some index) :
    fa.used (fa.freeFrame memory frame) index = fa.used memory index := by
  unfold freeFrame
  unfold freedIndex at other
  split
  · rfl
  · rename_i above
    rw [if_neg above] at other
    dsimp only
    split
    · rfl
    · rename_i inside
      rw [if_neg inside] at other
      rw [used_mark, if_neg fun same => other (congrArg some same.symm)]

end FrameAllocator

/-! ## Page tables -/

namespace PageTable

variable {fa : FrameAllocator} {memory middle after : PhysMem} {root : Nat}

/-- The copy of the kernel's entries writes the root. -/
theorem copyEntries_writes (kernel root : Nat) (memory : PhysMem) {count : Nat}
    (short : count ≤ 512) :
    WritesWithin (page root).toSet memory (copyEntries kernel root memory count) := by
  induction count with
  | zero => exact .refl _ _
  | succ count ih =>
    have last : copyEntries kernel root memory (count + 1) =
        (copyEntries kernel root memory count).writeU64 (root + 8 * count)
          (entry (copyEntries kernel root memory count) kernel count) := by
      rw [copyEntries, List.range_succ, List.foldl_append]
      rfl
    rw [last]
    exact (ih (by omega)).trans (.writeU64 _ _ (entry_inside (by omega)))

/-- `PageTable::new` releases nothing. -/
theorem keeps_new (covers : fa.Covers) (kernel : Nat)
    (freeOff : ∀ index < fa.frameCount, fa.used memory index = false →
      (fa.frameSpan index).Separate fa.bitmapSpan) :
    fa.Keeps memory (new fa kernel memory).2 := by
  unfold new
  cases returned : fa.allocateFrame memory with
  | mk result taken =>
    have marks := FrameAllocator.keeps_allocateFrame covers returned
    cases result with
    | none => exact marks
    | some frame =>
      obtain ⟨index, inside, rfl, free, _⟩ :=
        (FrameAllocator.allocateFrame_takes covers returned).2.2 frame rfl
      have zeroed : WritesWithin (page (fa.frameAddr index)).toSet taken
          (taken.fill (fa.frameAddr index) 4096 0) := .fill _ _ fun _ member => member
      have apart := freeOff index inside free
      dsimp only
      split
      · have copied := copyEntries_writes kernel (fa.frameAddr index)
          (taken.fill (fa.frameAddr index) 4096 0) (Nat.le_refl 512)
        generalize copyEntries kernel (fa.frameAddr index)
          (taken.fill (fa.frameAddr index) 4096 0) 512 = after at copied ⊢
        exact marks.trans (FrameAllocator.keeps_of_span covers (zeroed.trans copied) apart)
      · exact marks.trans (FrameAllocator.keeps_of_span covers zeroed apart)

/-- A walk has come to `table`: it is the one the path leads to, or one made on the way. -/
structure WalkedTo (fa : FrameAllocator) (memory : PhysMem) (root : Nat) (path : List Nat)
    (after : PhysMem) (table : Nat) : Prop where
  /-- Nothing was released. -/
  keeps : fa.Keeps memory after
  /-- The table avoids the bitmap. -/
  off_bitmap : (page table).Separate fa.bitmapSpan
  /-- No free frame is the table. -/
  off_free : ∀ index < fa.frameCount, fa.used after index = false →
    (page table).Separate (fa.frameSpan index)
  /-- Nothing was written yet, or the table is new. -/
  origin : after = memory ∧ tableAt memory root path = some table ∨
    ∀ index < 512, present (entry after table index) = false

/-- The tables of a walk that exist avoid the bitmap and the free frames. -/
def WalksOff (fa : FrameAllocator) (memory : PhysMem) (root virt : Nat) : Prop :=
  ∀ path, path <:+ pathOf virt → ∀ table, tableAt memory root path = some table →
    (page table).Separate fa.bitmapSpan ∧ ∀ index < fa.frameCount, fa.used memory index = false →
      (page table).Separate (fa.frameSpan index)

/-- One level of a walk. -/
theorem WalkedTo.next (placed : fa.Placed) {virt : Nat} (walks : WalksOff fa memory root virt)
    (freeOff : ∀ index < fa.frameCount, fa.used memory index = false →
      (fa.frameSpan index).Separate fa.bitmapSpan) {path : List Nat} {table index : Nat}
    (walked : WalkedTo fa memory root path middle table) (small : index < 512)
    (onPath : index :: path <:+ pathOf virt) {result : Option Nat}
    (returned : nextTable fa middle table index = (result, after)) :
    fa.Keeps memory after ∧
      ∀ next, result = some next → WalkedTo fa memory root (index :: path) after next := by
  have stepped := nextTable_stepped placed small walked.off_bitmap walked.off_free
    fun other inside free => freeOff other inside (walked.keeps.free inside free)
  rw [returned] at stepped
  cases stepped with
  | found here =>
    refine ⟨walked.keeps, fun next same => ?_⟩
    obtain rfl := Option.some.inj same
    rcases walked.origin with ⟨rfl, at_⟩ | empty
    · have found : tableAt middle root (index :: path) =
          some (entryAddr (entry middle table index)) := by
        rw [tableAt, at_, Option.bind_some, presentTable, if_pos here]
      obtain ⟨offBitmap, offFree⟩ := walks _ onPath _ found
      exact ⟨walked.keeps, offBitmap, offFree, .inl ⟨rfl, found⟩⟩
    · rw [empty index small] at here
      cases here
  | full _ same writes =>
    refine ⟨walked.keeps.trans fun other inside marked => ?_, fun next none => ?_⟩
    · rw [same other inside, marked]
    · cases none
  | linked fresh absent linked =>
    have keeps : fa.Keeps memory after := walked.keeps.trans fun other inside marked => by
      rw [linked.bits other inside, marked, Bool.true_or]
    refine ⟨keeps, fun next same => ?_⟩
    obtain rfl := Option.some.inj same
    refine ⟨keeps, freeOff fresh linked.inside (walked.keeps.free linked.inside linked.free),
      fun other inside free => FrameAllocator.frameSpan_separate ?_, .inr linked.empty⟩
    rintro rfl
    rw [linked.bits _ inside] at free
    simp at free

/-- `map` releases nothing when the tables it walks avoid the bitmap and the free frames. -/
theorem keeps_map (placed : fa.Placed) {virt : Nat} (walks : WalksOff fa memory root virt)
    (freeOff : ∀ index < fa.frameCount, fa.used memory index = false →
      (fa.frameSpan index).Separate fa.bitmapSpan) (phys flags : Nat) :
    fa.Keeps memory (map fa memory root virt phys flags).2 := by
  have start : WalkedTo fa memory root [] memory root := by
    obtain ⟨offBitmap, offFree⟩ := walks [] (List.nil_suffix) root rfl
    exact ⟨.refl fa memory, offBitmap, offFree, .inl ⟨rfl, rfl⟩⟩
  unfold map
  cases first : nextTable fa memory root (pml4Index virt) with
  | mk pdpt memory₁ =>
    obtain ⟨keeps₁, walked₁⟩ := start.next placed walks freeOff (pml4Index_lt virt)
      ⟨[pdIndex virt, pdptIndex virt], rfl⟩ first
    cases pdpt with
    | none => exact keeps₁
    | some pdpt =>
      dsimp only
      cases second : nextTable fa memory₁ pdpt (pdptIndex virt) with
      | mk pd memory₂ =>
        obtain ⟨keeps₂, walked₂⟩ := (walked₁ pdpt rfl).next placed walks freeOff (index_lt _)
          ⟨[pdIndex virt], rfl⟩ second
        cases pd with
        | none => exact keeps₂
        | some pd =>
          dsimp only
          cases third : nextTable fa memory₂ pd (pdIndex virt) with
          | mk pt memory₃ =>
            obtain ⟨keeps₃, walked₃⟩ := (walked₂ pd rfl).next placed walks freeOff (index_lt _)
              ⟨[], rfl⟩ third
            cases pt with
            | none => exact keeps₃
            | some pt =>
              refine keeps₃.trans (FrameAllocator.keeps_of_span placed.covers ?_
                (walked₃ pt rfl).off_bitmap)
              exact .writeU64 _ _ (entry_inside (index_lt _))

end PageTable

end Aperture.Mm
