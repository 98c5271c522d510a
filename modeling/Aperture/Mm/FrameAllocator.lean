import Aperture.BootInfo
import Aperture.Machine.Memory
import Aperture.Machine.Slots

/-!
# Bitmap frame allocator

`mm::frame_allocator` with its bitmap in physical memory: a set bit marks a
used 4 KiB frame. Every operation is given by its effect on memory and, over
that, on the used bits (`used`). The allocator is called with its mutex held,
so `compare_exchange_weak` always sees the value just loaded and its retry
(also after a spurious failure) repeats the same exchange; the model makes the
exchange once. Sums that the checks of `init` already bound are plain sums.
-/

namespace Aperture.Mm

open Machine

/-- `FRAME_SIZE`. -/
def frameSize : Nat := 4096

/-- `BITMAP_WORD_BITS`. -/
def bitmapWordBits : Nat := 64

/-- `FrameAllocator` — the bitmap pointer is a physical address. -/
structure FrameAllocator where
  /-- Address of frame 0, a multiple of the frame size. -/
  firstFrame : Nat
  /-- Number of managed frames. -/
  frameCount : Nat
  /-- Address of the bitmap. -/
  bitmap : Nat
  /-- Number of 64-bit words in the bitmap. -/
  bitmapWords : Nat
  deriving DecidableEq, Repr

/-- `align_up`. -/
def alignUp (addr align : Nat) : Except Panic Nat := do
  let sum ← add64 addr align
  let last ← sub64 sum 1
  pure (last &&& not64 (align - 1))

/-- `align_down`. -/
def alignDown (addr align : Nat) : Nat := addr &&& not64 (align - 1)

/-- One region of `compute_usable_range`. -/
def usableRangeStep (range : Nat × Nat × Nat) (region : MemoryRegion) :
    Except Panic (Nat × Nat × Nat) :=
  if region.kind = .usable then do
    let start := if region.start < range.1 then region.start else range.1
    let stop := if range.2.1 < region.stop then region.stop else range.2.1
    let size ← sub64 region.stop region.start
    let total ← add64 range.2.2 size
    pure (start, stop, total)
  else pure range

/-- `compute_usable_range`: lowest start, highest end and total size of the
usable regions. -/
def computeUsableRange (regions : List MemoryRegion) : Except Panic (Nat × Nat × Nat) :=
  regions.foldlM usableRangeStep (wordSize - 1, 0, 0)

/-- `(first..last).step_by(step)`. -/
def stepBy (first last step : Nat) : List Nat :=
  (List.range ((last - first + step - 1) / step)).map fun i => first + i * step

namespace FrameAllocator

/-- The address of frame `index`. -/
def frameAddr (fa : FrameAllocator) (index : Nat) : Nat := fa.firstFrame + index * frameSize

/-- The bytes of frame `index`. -/
def frameSpan (fa : FrameAllocator) (index : Nat) : Span := ⟨fa.frameAddr index, frameSize⟩

/-- The address of bitmap word `word`. -/
def cell (fa : FrameAllocator) (word : Nat) : Nat := fa.bitmap + 8 * word

/-- The storage of the bitmap. -/
def bitmapSpan (fa : FrameAllocator) : Span := ⟨fa.bitmap, 8 * fa.bitmapWords⟩

/-- `FrameAllocator::is_bitmap_frame`. -/
def isBitmapFrame (fa : FrameAllocator) (index : Nat) : Bool :=
  decide (fa.bitmap ≤ fa.frameAddr index) &&
    decide (fa.frameAddr index < fa.bitmap + fa.bitmapWords * 8)

/-- `FrameAllocator::mark`. -/
def mark (fa : FrameAllocator) (memory : PhysMem) (index : Nat) (used : Bool) : PhysMem :=
  let cell := fa.cell (index / bitmapWordBits)
  let mask := 2 ^ (index % bitmapWordBits)
  let value := memory.readU64 cell
  if used then memory.writeU64 cell (value ||| mask)
  else memory.writeU64 cell (value &&& not64 mask)

/-- The bit of frame `index`. -/
def used (fa : FrameAllocator) (memory : PhysMem) (index : Nat) : Bool :=
  (memory.readU64 (fa.cell (index / bitmapWordBits))).testBit (index % bitmapWordBits)

/-- First loop of `init`: zero the bitmap. -/
def zeroBitmap (fa : FrameAllocator) (memory : PhysMem) : PhysMem :=
  (List.range fa.bitmapWords).foldl (fun memory word => memory.writeU64 (fa.cell word) 0) memory

/-- Second loop of `init`: mark all frames as allocated. -/
def markAll (fa : FrameAllocator) (memory : PhysMem) : PhysMem :=
  (List.range fa.frameCount).foldl (fun memory index => fa.mark memory index true) memory

/-- One frame of the third loop of `init`. -/
def freeUsableFrame (fa : FrameAllocator) (memory : PhysMem) (frame : Nat) : PhysMem :=
  if fa.firstFrame ≤ frame then
    let index := (frame - fa.firstFrame) / frameSize
    if index < fa.frameCount ∧ fa.isBitmapFrame index = false then fa.mark memory index false
    else memory
  else memory

/-- One region of the third loop of `init`: free its whole frames. -/
def freeRegion (fa : FrameAllocator) (memory : PhysMem) (region : MemoryRegion) :
    Except Panic PhysMem :=
  if region.kind = .usable then do
    let regionFirst ← alignUp region.start frameSize
    let regionLast := alignDown region.stop frameSize
    pure ((stepBy regionFirst regionLast frameSize).foldl fa.freeUsableFrame memory)
  else pure memory

/-- Last loop of `init`: reserve the frames occupied by the bitmap itself. -/
def reserveBitmap (fa : FrameAllocator) (memory : PhysMem) : PhysMem :=
  let bitmapFirst := (fa.bitmap - fa.firstFrame) / frameSize
  let bitmapLast := (fa.bitmap + fa.bitmapWords * 8 - fa.firstFrame) / frameSize + 1
  (List.range' bitmapFirst (min bitmapLast fa.frameCount - bitmapFirst)).foldl
    (fun memory index => fa.mark memory index true) memory

/-- The placement part of `init`: the record it fills in before it marks frames. -/
def place (regions : List MemoryRegion) : Except Panic FrameAllocator := do
  let (usableStart, usableEnd, _) ← computeUsableRange regions
  let firstFrame ← alignUp usableStart frameSize
  let lastFrame := alignDown usableEnd frameSize
  let size ← sub64 lastFrame firstFrame
  let frameCount := size / frameSize
  let bitmapWords := (frameCount + bitmapWordBits - 1) / bitmapWordBits
  let bitmap ← alignUp firstFrame 8
  pure { firstFrame, frameCount, bitmap, bitmapWords }

/-- `core::ptr::write` refuses the null pointer. -/
def checkBitmap (fa : FrameAllocator) : Except Panic Unit :=
  if fa.bitmap = 0 ∧ 0 < fa.bitmapWords then .error .null else .ok ()

/-- `FrameAllocator::init`. -/
def init (memory : PhysMem) (regions : List MemoryRegion) :
    Except Panic (FrameAllocator × PhysMem) := do
  let fa ← place regions
  fa.checkBitmap
  let memory := fa.markAll (fa.zeroBitmap memory)
  let memory ← regions.foldlM fa.freeRegion memory
  pure (fa, fa.reserveBitmap memory)

/-- The word loop of `allocate_frame`, from word `word` with `remaining` words to go. A
bit past the last frame is set and the scan moves on. -/
def allocateScan (fa : FrameAllocator) (memory : PhysMem) (word : Nat) :
    Nat → Option Nat × PhysMem
  | 0 => (none, memory)
  | remaining + 1 =>
    let value := memory.readU64 (fa.cell word)
    if value = wordSize - 1 then fa.allocateScan memory (word + 1) remaining
    else
      let bit := trailingOnes value
      let memory := memory.writeU64 (fa.cell word) (value ||| 2 ^ bit)
      let index := word * bitmapWordBits + bit
      if index < fa.frameCount then (some (fa.frameAddr index), memory)
      else fa.allocateScan memory (word + 1) remaining

/-- `FrameAllocator::allocate_frame` of a record whose frames lie in the address space, as those of
`init` do. -/
def allocateFrame (fa : FrameAllocator) (memory : PhysMem) : Option Nat × PhysMem :=
  fa.allocateScan memory 0 fa.bitmapWords

/-- The word loop for any record: the address of the frame is a checked sum. -/
def allocateScanChecked (fa : FrameAllocator) (memory : PhysMem) (word : Nat) :
    Nat → Except Panic (Option Nat × PhysMem)
  | 0 => .ok (none, memory)
  | remaining + 1 =>
    let value := memory.readU64 (fa.cell word)
    if value = wordSize - 1 then fa.allocateScanChecked memory (word + 1) remaining
    else
      let bit := trailingOnes value
      let memory := memory.writeU64 (fa.cell word) (value ||| 2 ^ bit)
      let index := word * bitmapWordBits + bit
      if index < fa.frameCount then do
        let offset ← mul64 index frameSize
        let frame ← add64 fa.firstFrame offset
        return (some frame, memory)
      else fa.allocateScanChecked memory (word + 1) remaining

/-- `FrameAllocator::allocate_frame` of any record. -/
def allocateFrameChecked (fa : FrameAllocator) (memory : PhysMem) :
    Except Panic (Option Nat × PhysMem) :=
  fa.allocateScanChecked memory 0 fa.bitmapWords

/-- `FrameAllocator::free_frame`. -/
def freeFrame (fa : FrameAllocator) (memory : PhysMem) (frame : Nat) : PhysMem :=
  if frame < fa.firstFrame then memory
  else
    let index := (frame - fa.firstFrame) / frameSize
    if fa.frameCount ≤ index then memory else fa.mark memory index false

end FrameAllocator

/-! ## Alignment -/

/-- Rounding down to a power of two. -/
theorem alignDown_eq {addr : Nat} (shift : Nat) (small : shift ≤ 64) (fits : addr < wordSize) :
    alignDown addr (2 ^ shift) = addr / 2 ^ shift * 2 ^ shift :=
  and_not64_low shift small fits

/-- Rounding up to a power of two succeeds exactly without overflow. -/
theorem alignUp_eq_ok {addr result : Nat} (shift : Nat) (small : shift ≤ 64) :
    alignUp addr (2 ^ shift) = .ok result ↔
      addr + 2 ^ shift < wordSize ∧ result = (addr + 2 ^ shift - 1) / 2 ^ shift * 2 ^ shift := by
  have positive : 0 < 2 ^ shift := Nat.two_pow_pos shift
  simp only [alignUp, bind_eq_ok, pure_eq_ok, add64_eq_ok, sub64_eq_ok]
  constructor
  · rintro ⟨sum, ⟨fits, rfl⟩, last, ⟨_, rfl⟩, rfl⟩
    exact ⟨fits, and_not64_low shift small (by omega)⟩
  · rintro ⟨fits, rfl⟩
    exact ⟨_, ⟨fits, rfl⟩, _, ⟨by omega, rfl⟩, and_not64_low shift small (by omega)⟩

/-- Frame rounding, with the frame size as a number. -/
theorem alignDown_frame {addr : Nat} (fits : addr < wordSize) :
    alignDown addr frameSize = addr / 4096 * 4096 :=
  alignDown_eq 12 (by decide) fits

/-- Frame rounding, with the frame size as a number. -/
theorem alignUp_frame {addr result : Nat} :
    alignUp addr frameSize = .ok result ↔
      addr + 4096 < wordSize ∧ result = (addr + 4095) / 4096 * 4096 :=
  alignUp_eq_ok 12 (by decide)

/-- The listed addresses are the multiples of the step from the first on. -/
theorem mem_stepBy (first last : Nat) {step address : Nat} (positive : 0 < step) :
    address ∈ stepBy first last step ↔ ∃ i, address = first + i * step ∧ address < last := by
  simp only [stepBy, List.mem_map, List.mem_range]
  constructor
  · rintro ⟨i, below, rfl⟩
    refine ⟨i, rfl, ?_⟩
    have scaled := (Nat.lt_div_iff_mul_lt positive).mp below
    omega
  · rintro ⟨i, rfl, below⟩
    refine ⟨i, (Nat.lt_div_iff_mul_lt positive).mpr ?_, rfl⟩
    omega

namespace FrameAllocator

variable {fa : FrameAllocator} {memory : PhysMem}

/-! ## One bit -/

/-- Marking changes exactly one bit. -/
theorem used_mark (fa : FrameAllocator) (memory : PhysMem) (index : Nat) (value : Bool)
    (other : Nat) :
    fa.used (fa.mark memory index value) other =
      if other = index then value else fa.used memory other := by
  have wordFits := memory.readU64_lt (fa.cell (index / bitmapWordBits))
  have bitInside : index % bitmapWordBits < 64 := Nat.mod_lt _ (by decide)
  by_cases sameWord : other / bitmapWordBits = index / bitmapWordBits
  · have sameBit : other % bitmapWordBits = index % bitmapWordBits ↔ other = index := by
      have left := Nat.div_add_mod other bitmapWordBits
      have right := Nat.div_add_mod index bitmapWordBits
      rw [sameWord] at left
      constructor
      · intro same
        exact left.symm.trans (same ▸ right)
      · intro same
        rw [same]
    unfold used mark
    cases value with
    | true =>
      simp only [↓reduceIte, sameWord]
      rw [PhysMem.readU64_writeU64 _ _ (or_bit_lt wordFits bitInside), testBit_or_bit]
      by_cases same : other = index <;> simp [same, sameBit]
    | false =>
      simp only [Bool.false_eq_true, ↓reduceIte, sameWord]
      rw [PhysMem.readU64_writeU64 _ _ (and_lt_word _ wordFits),
        testBit_and_not_bit wordFits bitInside]
      by_cases same : other = index <;> simp [same, sameBit]
  · have different : other ≠ index := by
      rintro rfl
      exact sameWord rfl
    have apart : fa.cell (other / bitmapWordBits) + 8 ≤ fa.cell (index / bitmapWordBits) ∨
        fa.cell (index / bitmapWordBits) + 8 ≤ fa.cell (other / bitmapWordBits) := by
      unfold cell
      omega
    unfold used mark
    cases value <;>
      simp only [Bool.false_eq_true, ↓reduceIte, different,
        PhysMem.readU64_writeU64_separate _ _ apart]

/-- A bitmap word inside the bitmap lies in its storage. -/
theorem cell_covered (fa : FrameAllocator) {word : Nat} (inside : word < fa.bitmapWords) :
    ∀ a ∈ (⟨fa.cell word, 8⟩ : Span), a ∈ fa.bitmapSpan.toSet := by
  intro a
  simp only [Span.mem_toSet, Span.mem_iff, cell, bitmapSpan]
  omega

/-- Marking a frame the bitmap has a word for writes only the bitmap. -/
theorem mark_writes (fa : FrameAllocator) (memory : PhysMem) {index : Nat} (value : Bool)
    (inside : index / bitmapWordBits < fa.bitmapWords) :
    WritesWithin fa.bitmapSpan.toSet memory (fa.mark memory index value) := by
  unfold mark
  cases value with
  | true => exact WritesWithin.writeU64 _ _ (fa.cell_covered inside)
  | false => exact WritesWithin.writeU64 _ _ (fa.cell_covered inside)

/-- The bit of a frame is in its byte of the bitmap. -/
theorem used_byte (fa : FrameAllocator) (memory : PhysMem) (index : Nat) :
    fa.used memory index = (memory.byte (fa.bitmap + index / 8)).toNat.testBit (index % 8) := by
  have place : fa.cell (index / bitmapWordBits) + index % bitmapWordBits / 8 =
      fa.bitmap + index / 8 := by
    unfold cell bitmapWordBits
    omega
  have bit : index % bitmapWordBits % 8 = index % 8 := by
    unfold bitmapWordBits
    omega
  have inside : index % bitmapWordBits < 64 := Nat.mod_lt index (by decide)
  rw [used, PhysMem.testBit_readU64 _ _ inside, place, bit]

/-- The used bits depend only on the bitmap's storage. -/
theorem used_congr {other : PhysMem} {index : Nat}
    (inside : index / bitmapWordBits < fa.bitmapWords)
    (same : ∀ a ∈ fa.bitmapSpan, other.byte a = memory.byte a) :
    fa.used other index = fa.used memory index := by
  unfold used
  rw [PhysMem.readU64_congr fun a inCell => same a (fa.cell_covered inside a inCell)]

/-! ## Allocation and release -/

/-- The bitmap has a bit for every frame. -/
def Covers (fa : FrameAllocator) : Prop := fa.frameCount ≤ fa.bitmapWords * bitmapWordBits

/-- Every frame's bit lies in a word of the bitmap. -/
theorem Covers.word_lt (covers : fa.Covers) {index : Nat} (inside : index < fa.frameCount) :
    index / bitmapWordBits < fa.bitmapWords := by
  unfold Covers at covers
  exact (Nat.div_lt_iff_lt_mul (by decide)).mpr (Nat.lt_of_lt_of_le inside covers)

/-- What a scan for a free frame from index `start` on can return. -/
inductive Scanned (fa : FrameAllocator) (memory : PhysMem) (start : Nat) :
    Option Nat × PhysMem → Prop
  /-- Every frame was used; no frame's bit changed. -/
  | full {after : PhysMem}
      (all : ∀ i, start ≤ i → i < fa.frameCount → fa.used memory i = true)
      (same : ∀ i < fa.frameCount, fa.used after i = fa.used memory i)
      (writes : WritesWithin fa.bitmapSpan.toSet memory after) : Scanned fa memory start (none, after)
  /-- The lowest free frame was taken; only its bit changed. -/
  | taken {after : PhysMem} (index : Nat) (inside : index < fa.frameCount) (above : start ≤ index)
      (free : fa.used memory index = false)
      (lowest : ∀ i, start ≤ i → i < index → fa.used memory i = true)
      (bits : ∀ i < fa.frameCount, fa.used after i = (fa.used memory i || decide (i = index)))
      (writes : WritesWithin fa.bitmapSpan.toSet memory after) :
      Scanned fa memory start (some (fa.frameAddr index), after)

/-- The word and the bit of a frame. -/
theorem word_and_bit (word : Nat) {bit : Nat} (inside : bit < 64) :
    (word * bitmapWordBits + bit) / bitmapWordBits = word ∧
      (word * bitmapWordBits + bit) % bitmapWordBits = bit := by
  unfold bitmapWordBits
  omega

/-- A frame of word `word` has that word's bit. -/
theorem used_of_word (fa : FrameAllocator) (memory : PhysMem) {word bit : Nat} (inside : bit < 64) :
    fa.used memory (word * bitmapWordBits + bit) = (memory.readU64 (fa.cell word)).testBit bit := by
  obtain ⟨quotient, remainder⟩ := word_and_bit word inside
  unfold used
  rw [quotient, remainder]

/-- The exchange in `allocate_frame` is `mark`. -/
theorem exchange_eq_mark (fa : FrameAllocator) (memory : PhysMem) {word bit : Nat}
    (inside : bit < 64) :
    memory.writeU64 (fa.cell word) (memory.readU64 (fa.cell word) ||| 2 ^ bit) =
      fa.mark memory (word * bitmapWordBits + bit) true := by
  obtain ⟨quotient, remainder⟩ := word_and_bit word inside
  simp only [mark, quotient, remainder, ↓reduceIte]

/-- Frames of a word whose bits below `bit` are set are used. -/
theorem used_below (fa : FrameAllocator) (memory : PhysMem) (word : Nat) {bit : Nat} (inside : bit ≤ 64)
    (set : ∀ i < bit, (memory.readU64 (fa.cell word)).testBit i = true) (index : Nat)
    (above : word * bitmapWordBits ≤ index) (below : index < word * bitmapWordBits + bit) :
    fa.used memory index = true := by
  obtain ⟨offset, rfl⟩ := Nat.exists_eq_add_of_le above
  rw [fa.used_of_word memory (by omega)]
  exact set offset (by omega)

/-- The word loop returns the lowest free frame from its word on. -/
theorem allocateScan_scanned (covers : fa.Covers) (memory : PhysMem) (word remaining : Nat)
    (shape : word + remaining = fa.bitmapWords) :
    Scanned fa memory (word * bitmapWordBits) (fa.allocateScan memory word remaining) := by
  induction remaining generalizing word memory with
  | zero =>
    refine .full (fun i above below => ?_) (fun _ _ => rfl) (.refl _ _)
    unfold Covers at covers
    rw [← shape, Nat.add_zero] at covers
    omega
  | succ remaining ih =>
    have wordFits := memory.readU64_lt (fa.cell word)
    have next : (word + 1) * bitmapWordBits = word * bitmapWordBits + 64 := by
      unfold bitmapWordBits
      omega
    unfold allocateScan
    by_cases fullWord : memory.readU64 (fa.cell word) = wordSize - 1
    · simp only [fullWord, ↓reduceIte]
      have usedHere := fa.used_below memory word (Nat.le_refl 64) (by
        intro i inside
        rw [fullWord]
        exact (Nat.testBit_two_pow_sub_one 64 i).trans (by simpa using inside))
      have extend (bound : Nat) (rest : ∀ i, (word + 1) * bitmapWordBits ≤ i → i < bound →
          fa.used memory i = true) : ∀ i, word * bitmapWordBits ≤ i → i < bound →
          fa.used memory i = true := by
        intro i above below
        by_cases here : i < (word + 1) * bitmapWordBits
        · exact usedHere i above (by omega)
        · exact rest i (by omega) below
      have rest := ih memory (word + 1) (by omega)
      generalize fa.allocateScan memory (word + 1) remaining = result at rest ⊢
      cases rest with
      | full all same writes => exact .full (extend _ all) same writes
      | taken index inside above free lowest bits writes =>
        exact .taken index inside (by omega) free (extend _ lowest) bits writes
    · simp only [fullWord, ↓reduceIte]
      obtain ⟨bitInside, clear, lower⟩ := trailingOnes_spec wordFits fullWord
      rw [fa.exchange_eq_mark memory bitInside]
      have usedBelow := fa.used_below memory word bitInside.le lower
      split
      · rename_i inside
        refine .taken _ inside (Nat.le_add_right _ _) ?_ usedBelow ?_
          (fa.mark_writes memory true (covers.word_lt inside))
        · rw [fa.used_of_word memory bitInside]
          exact clear
        · intro i _
          rw [fa.used_mark]
          by_cases same : i = word * bitmapWordBits + trailingOnes (memory.readU64 (fa.cell word))
          · simp [same]
          · simp [same]
      · rename_i past
        have marked : WritesWithin fa.bitmapSpan.toSet memory
            (fa.mark memory (word * bitmapWordBits +
              trailingOnes (memory.readU64 (fa.cell word))) true) := by
          rw [← fa.exchange_eq_mark memory bitInside]
          exact WritesWithin.writeU64 _ _ (fa.cell_covered (by omega))
        have rest := ih (fa.mark memory (word * bitmapWordBits +
          trailingOnes (memory.readU64 (fa.cell word))) true) (word + 1) (by omega)
        generalize fa.allocateScan _ (word + 1) remaining = result at rest ⊢
        cases rest with
        | full _ same writes =>
          refine .full (fun i above below => usedBelow i above (by omega)) (fun i below => ?_)
            (marked.trans writes)
          rw [same i below, fa.used_mark]
          simp [show i ≠ word * bitmapWordBits +
            trailingOnes (memory.readU64 (fa.cell word)) by omega]
        | taken index inside above _ _ _ _ => omega

/-- `allocate_frame` takes the lowest free frame, or fails when all are used. -/
theorem allocateFrame_scanned (covers : fa.Covers) (memory : PhysMem) :
    Scanned fa memory 0 (fa.allocateFrame memory) := by
  simpa [allocateFrame] using allocateScan_scanned covers memory 0 fa.bitmapWords (by omega)

/-- The check stops the loop where it has found a frame behind the address space, and nowhere
else. -/
theorem allocateScanChecked_eq (fa : FrameAllocator) (memory : PhysMem) (word remaining : Nat) :
    fa.allocateScanChecked memory word remaining =
      if (fa.allocateScan memory word remaining).1.getD 0 < wordSize then
        .ok (fa.allocateScan memory word remaining)
      else .error .overflow := by
  induction remaining generalizing word memory with
  | zero => rfl
  | succ remaining ih =>
    unfold allocateScanChecked allocateScan
    by_cases fullWord : memory.readU64 (fa.cell word) = wordSize - 1
    · simp only [fullWord, ↓reduceIte]
      exact ih memory (word + 1)
    · simp only [fullWord, ↓reduceIte]
      generalize word * bitmapWordBits + trailingOnes (memory.readU64 (fa.cell word)) = index
      by_cases inside : index < fa.frameCount
      · simp only [inside, ↓reduceIte, Option.getD_some, frameAddr]
        by_cases fits : fa.firstFrame + index * frameSize < wordSize
        · have offset : mul64 index frameSize = .ok (index * frameSize) :=
            mul64_eq_ok.mpr ⟨Nat.lt_of_le_of_lt (Nat.le_add_left _ _) fits, rfl⟩
          have frame := add64_eq_ok.mpr ⟨fits, rfl⟩
          rw [offset, ok_bind, frame, if_pos fits]
          rfl
        · rw [if_neg fits, mul64]
          split
          · rw [ok_bind, add64, if_neg fits]
            rfl
          · rfl
      · simp only [inside, ↓reduceIte]
        exact ih _ (word + 1)

/-- For every content of the bitmap, also behind the last frame, `allocate_frame` returns the lowest
free frame and marks it alone when its address fits in 64 bits, and stops when it does not; it
returns nothing exactly when no frame is free. -/
theorem allocateFrame_lowest (covers : fa.Covers) (memory : PhysMem) :
    (∀ index < fa.frameCount, fa.used memory index = false →
      (∀ i < index, fa.used memory i = true) →
      (fa.firstFrame + 4096 * index < wordSize → ∃ after,
        fa.allocateFrameChecked memory = .ok (some (fa.firstFrame + 4096 * index), after) ∧
        ∀ i < fa.frameCount, fa.used after i = if i = index then true else fa.used memory i) ∧
      (wordSize ≤ fa.firstFrame + 4096 * index →
        fa.allocateFrameChecked memory = .error .overflow)) ∧
    ((∃ after, fa.allocateFrameChecked memory = .ok (none, after)) ↔
      ∀ i < fa.frameCount, fa.used memory i = true) ∧
    ∀ after, fa.allocateFrameChecked memory = .ok (none, after) →
      ∀ i < fa.frameCount, fa.used after i = fa.used memory i := by
  have scanned := fa.allocateFrame_scanned covers memory
  have checked := fa.allocateScanChecked_eq memory 0 fa.bitmapWords
  rw [← allocateFrameChecked, ← allocateFrame] at checked
  generalize fa.allocateFrame memory = result at scanned checked
  generalize fa.allocateFrameChecked memory = returned at checked ⊢
  cases scanned with
  | @full after all same writes =>
    dsimp only [Option.getD_none] at checked
    rw [if_pos (by decide : 0 < wordSize)] at checked
    have allUsed : ∀ i < fa.frameCount, fa.used memory i = true :=
      fun i inside => all i (Nat.zero_le _) inside
    refine ⟨fun index inside free _ => ?_, ⟨fun _ => allUsed, fun _ => ⟨after, checked⟩⟩, ?_⟩
    · rw [allUsed index inside] at free
      contradiction
    · intro other same'
      rw [checked, Except.ok.injEq, Prod.mk.injEq] at same'
      rw [← same'.2]
      exact same
  | @taken after taken takenInside above takenFree lowest bits writes =>
    rw [Option.getD_some, frameAddr, frameSize, Nat.mul_comm] at checked
    have found : ∀ after, returned ≠ .ok (none, after) := by
      rintro other rfl
      split at checked <;> simp at checked
    refine ⟨fun index inside free lower => ?_,
      ⟨fun ⟨other, nothing⟩ => absurd nothing (found other), fun allUsed => ?_⟩,
      fun other nothing => absurd nothing (found other)⟩
    · have same : taken = index := by
        rcases Nat.lt_trichotomy taken index with below | same | behind
        · rw [lower taken below] at takenFree
          contradiction
        · exact same
        · rw [lowest index (Nat.zero_le _) behind] at free
          contradiction
      subst same
      constructor
      · intro fits
        rw [if_pos fits] at checked
        refine ⟨after, checked, fun i below => ?_⟩
        rw [bits i below]
        by_cases isTaken : i = taken <;> simp [isTaken]
      · intro outside
        rw [checked, if_neg (Nat.not_lt.mpr outside)]
    · rw [allUsed taken takenInside] at takenFree
      contradiction

/-- Of seventy frames whose first bitmap word is full, frame 64 is the lowest free one. -/
theorem allocateFrame_lowest_seventy : ∃ after,
    allocateFrameChecked ⟨0x100000, 70, 0x100000, 2⟩
      ⟨fun a => if a < 0x100008 then 0xFF else 0xFE, []⟩ = .ok (some 0x140000, after) := by
  have covers : Covers ⟨0x100000, 70, 0x100000, 2⟩ := by
    unfold Covers
    decide
  obtain ⟨after, returned, _⟩ := ((allocateFrame_lowest covers
    ⟨fun a => if a < 0x100008 then 0xFF else 0xFE, []⟩).1 64 (by decide) (by decide +kernel)
      (by decide +kernel)).1 (by decide)
  exact ⟨after, returned⟩

/-- Of two frames at the end of the address space the second one is free, and its address is no
64-bit number. -/
theorem allocateFrame_overflows :
    used ⟨2 ^ 64 - 4096, 2, 0x100000, 1⟩ ⟨fun _ => 1, []⟩ 0 = true ∧
    used ⟨2 ^ 64 - 4096, 2, 0x100000, 1⟩ ⟨fun _ => 1, []⟩ 1 = false ∧
    allocateFrameChecked ⟨2 ^ 64 - 4096, 2, 0x100000, 1⟩ ⟨fun _ => 1, []⟩ = .error .overflow := by
  refine ⟨by decide +kernel, by decide +kernel, ?_⟩
  rw [allocateFrameChecked, allocateScanChecked_eq, if_neg (by decide +kernel)]

/-- While some frame is free, allocation returns one at or below it. -/
theorem allocateFrame_returns (covers : fa.Covers) {index : Nat} (inside : index < fa.frameCount)
    (free : fa.used memory index = false) :
    ∃ taken next, taken ≤ index ∧ fa.used memory taken = false ∧
      fa.allocateFrame memory = (some (fa.frameAddr taken), next) ∧
      ∀ i < fa.frameCount, fa.used next i = (fa.used memory i || decide (i = taken)) := by
  have scanned := fa.allocateFrame_scanned covers memory
  generalize fa.allocateFrame memory = result at scanned
  cases scanned with
  | full all _ _ =>
    rw [all index (Nat.zero_le _) inside] at free
    contradiction
  | @taken next taken _ _ clear lowest bits _ =>
    refine ⟨taken, next, ?_, clear, rfl, bits⟩
    by_contra above
    rw [lowest index (Nat.zero_le _) (by omega)] at free
    contradiction

/-- Allocation writes only the bitmap and clears no bit; a frame it returns was free and is
marked. -/
theorem allocateFrame_takes (covers : fa.Covers) {result : Option Nat} {after : PhysMem}
    (returned : fa.allocateFrame memory = (result, after)) :
    WritesWithin fa.bitmapSpan.toSet memory after ∧
      (∀ i < fa.frameCount, fa.used memory i = true → fa.used after i = true) ∧
      ∀ frame, result = some frame → ∃ index < fa.frameCount, frame = fa.frameAddr index ∧
        fa.used memory index = false ∧ fa.used after index = true := by
  have scanned := fa.allocateFrame_scanned covers memory
  rw [returned] at scanned
  cases scanned with
  | full all same writes =>
    exact ⟨writes, fun i below marked => (same i below).trans marked, by simp⟩
  | taken index inside above free lowest bits writes =>
    refine ⟨writes, fun i below marked => by rw [bits i below, marked, Bool.true_or], ?_⟩
    intro frame same
    exact ⟨index, inside, (Option.some.inj same).symm, free, by simp [bits index inside]⟩

/-- Frame addresses determine their index. -/
theorem frameAddr_injective {left right : Nat} (same : fa.frameAddr left = fa.frameAddr right) :
    left = right := by
  unfold frameAddr frameSize at same
  omega

/-- The address of a later frame. -/
theorem frameAddr_add (fa : FrameAllocator) (index count : Nat) :
    fa.frameAddr (index + count) = fa.frameAddr index + count * 4096 := by
  unfold frameAddr frameSize
  omega

/-- A frame so many pages behind another is that many frames later. -/
theorem eq_add_of_frameAddr {index other count : Nat}
    (address : fa.frameAddr index = fa.frameAddr other + count * 4096) :
    index = other + count := by
  rw [← frameAddr_add] at address
  exact frameAddr_injective address

/-- A frame found by the word loop is marked, and that is all that is written. -/
theorem allocateScan_marks (covers : fa.Covers) {after : PhysMem} {word remaining frame : Nat}
    (shape : word + remaining = fa.bitmapWords)
    (returned : fa.allocateScan memory word remaining = (some frame, after)) :
    ∃ index, frame = fa.frameAddr index ∧ after = fa.mark memory index true := by
  induction remaining generalizing word memory with
  | zero => cases returned
  | succ remaining ih =>
    unfold allocateScan at returned
    by_cases full : memory.readU64 (fa.cell word) = wordSize - 1
    · simp only [full, ↓reduceIte] at returned
      exact ih (by omega) returned
    · simp only [full, ↓reduceIte] at returned
      have bitInside := (trailingOnes_spec (memory.readU64_lt (fa.cell word)) full).1
      rw [fa.exchange_eq_mark memory bitInside] at returned
      split at returned
      · obtain ⟨same, rfl⟩ := Prod.mk.inj returned
        exact ⟨_, (Option.some.inj same).symm, rfl⟩
      · rename_i past
        have rest := allocateScan_scanned covers (fa.mark memory (word *
          bitmapWordBits + trailingOnes (memory.readU64 (fa.cell word))) true) (word + 1)
            remaining (by omega)
        rw [returned] at rest
        cases rest with
        | taken index inside above =>
          unfold bitmapWordBits at above past
          omega

/-- A frame returned by `allocate_frame` is the lowest free one; it is marked, and that is all that
is written. -/
theorem allocateFrame_marks (covers : fa.Covers) {frame : Nat} {after : PhysMem}
    (returned : fa.allocateFrame memory = (some frame, after)) :
    ∃ index < fa.frameCount, frame = fa.frameAddr index ∧
      after = fa.mark memory index true ∧ fa.used memory index = false ∧
      ∀ lower < index, fa.used memory lower = true := by
  obtain ⟨marked, address, rfl⟩ := allocateScan_marks covers (Nat.zero_add _) returned
  have scanned := fa.allocateFrame_scanned covers memory
  rw [returned, address] at scanned
  generalize found : (some (fa.frameAddr marked), fa.mark memory marked true) = result
    at scanned
  cases scanned with
  | full => cases found
  | taken index inside _ free lowest =>
    obtain rfl := frameAddr_injective (Option.some.inj (Prod.mk.inj found).1)
    exact ⟨marked, inside, address, rfl, free, fun lower below => lowest lower (Nat.zero_le _) below⟩

/-- Different frames share no byte. -/
theorem frameSpan_separate {left right : Nat} (different : left ≠ right) :
    (fa.frameSpan left).Separate (fa.frameSpan right) := by
  simp only [Span.Separate, frameSpan, frameAddr, frameSize]
  omega

/-- Writes off the bitmap keep the used bits. -/
theorem used_eq_of_writes (covers : fa.Covers) {after : PhysMem} {region : Set Nat}
    (writes : WritesWithin region memory after) (off : ∀ a ∈ fa.bitmapSpan, a ∉ region)
    {index : Nat} (inside : index < fa.frameCount) :
    fa.used after index = fa.used memory index :=
  used_congr (covers.word_lt inside) fun a member => writes.unchanged a (off a member)

/-- The number of free frames. -/
def freeFrames (fa : FrameAllocator) (memory : PhysMem) : Nat :=
  ((Finset.range fa.frameCount).filter fun index => fa.used memory index = false).card

/-- The number only depends on the bits. -/
theorem freeFrames_congr {after : PhysMem}
    (same : ∀ index < fa.frameCount, fa.used after index = fa.used memory index) :
    fa.freeFrames after = fa.freeFrames memory := by
  unfold freeFrames
  congr 1
  refine Finset.filter_congr fun index member => ?_
  rw [same index (Finset.mem_range.mp member)]

/-- Without a free frame every frame is in use. -/
theorem used_of_freeFrames_eq_zero (nothing : fa.freeFrames memory = 0) :
    ∀ index < fa.frameCount, fa.used memory index = true := by
  intro index inside
  by_contra notUsed
  rw [Bool.not_eq_true] at notUsed
  have member : index ∈ (Finset.range fa.frameCount).filter fun index =>
      fa.used memory index = false :=
    Finset.mem_filter.mpr ⟨Finset.mem_range.mpr inside, notUsed⟩
  rw [Finset.card_eq_zero.mp nothing] at member
  cases member

/-- An allocation without a free frame leaves the bits of the frames. -/
theorem allocateFrame_empty (covers : fa.Covers) (empty : fa.freeFrames memory = 0) :
    ∃ after, fa.allocateFrame memory = (none, after) ∧
      (∀ index < fa.frameCount, fa.used after index = fa.used memory index) ∧
      WritesWithin fa.bitmapSpan.toSet memory after := by
  have scanned := fa.allocateFrame_scanned covers memory
  generalize fa.allocateFrame memory = result at scanned
  cases scanned with
  | full _ same writes => exact ⟨_, rfl, same, writes⟩
  | taken index inside _ free =>
    rw [used_of_freeFrames_eq_zero empty index inside] at free
    cases free

/-- Taking a free frame leaves one less. -/
theorem freeFrames_taken {after : PhysMem} {fresh : Nat} (inside : fresh < fa.frameCount)
    (free : fa.used memory fresh = false)
    (bits : ∀ index < fa.frameCount,
      fa.used after index = (fa.used memory index || decide (index = fresh))) :
    fa.freeFrames after + 1 = fa.freeFrames memory := by
  have remaining : ((Finset.range fa.frameCount).filter fun index => fa.used after index = false) =
      ((Finset.range fa.frameCount).filter fun index => fa.used memory index = false).erase
        fresh := by
    ext index
    simp only [Finset.mem_filter, Finset.mem_range, Finset.mem_erase]
    constructor
    · rintro ⟨below, clear⟩
      rw [bits index below, Bool.or_eq_false_iff, decide_eq_false_iff_not] at clear
      exact ⟨clear.2, below, clear.1⟩
    · rintro ⟨different, below, clear⟩
      rw [bits index below, clear, decide_eq_false different]
      exact ⟨below, rfl⟩
  have member : fresh ∈ (Finset.range fa.frameCount).filter fun index =>
      fa.used memory index = false :=
    Finset.mem_filter.mpr ⟨Finset.mem_range.mpr inside, free⟩
  unfold freeFrames
  rw [remaining]
  exact Finset.card_erase_add_one member

/-- Allocation fails exactly when no frame is free, and otherwise leaves one less. -/
theorem freeFrames_allocateFrame (covers : fa.Covers) {result : Option Nat} {after : PhysMem}
    (returned : fa.allocateFrame memory = (result, after)) :
    (result = none ∧ fa.freeFrames memory = 0 ∧ fa.freeFrames after = 0) ∨
      result.isSome = true ∧ fa.freeFrames after + 1 = fa.freeFrames memory := by
  have scanned := fa.allocateFrame_scanned covers memory
  rw [returned] at scanned
  cases scanned with
  | full all same _ =>
    have none_free : fa.freeFrames memory = 0 := by
      refine Finset.card_eq_zero.mpr (Finset.filter_eq_empty_iff.mpr fun index member clear => ?_)
      rw [all index (Nat.zero_le _) (Finset.mem_range.mp member)] at clear
      cases clear
    exact .inl ⟨rfl, none_free, (freeFrames_congr same).trans none_free⟩
  | taken index inside _ free _ bits _ => exact .inr ⟨rfl, freeFrames_taken inside free bits⟩

/-- Releasing a managed frame clears its bit. -/
theorem freeFrame_frameAddr {index : Nat} (inside : index < fa.frameCount) :
    fa.freeFrame memory (fa.frameAddr index) = fa.mark memory index false := by
  have quotient : (fa.frameAddr index - fa.firstFrame) / frameSize = index := by
    unfold frameAddr frameSize
    omega
  unfold freeFrame
  rw [if_neg (by unfold frameAddr; omega)]
  simp only [quotient]
  rw [if_neg (by omega)]

end FrameAllocator

end Aperture.Mm
