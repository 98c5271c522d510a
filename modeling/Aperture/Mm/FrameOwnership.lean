import Aperture.Machine.Run
import Aperture.Mm.FrameInit

/-!
# Exclusive frame ownership

A run of the frame allocator after `init`: frames are taken, held frames are
given back, and any other code writes memory away from the bitmap. `Owned`
ties each bit to the frame's owner, and every step keeps it.
-/

namespace Aperture.Mm

open Machine

/-- Memory and the frames handed out and not given back. -/
structure Frames where
  /-- Physical memory, the bitmap included. -/
  memory : PhysMem
  /-- Frames currently held, newest first. -/
  held : List Nat

/-- What can happen between `init` and the next allocation. -/
inductive FrameOp where
  /-- `allocate_frame`. -/
  | allocate
  /-- `free_frame`. -/
  | free (frame : Nat)
  /-- Any other code leaves this memory behind. -/
  | other (memory : PhysMem)

namespace FrameAllocator

variable {fa : FrameAllocator} {regions : List MemoryRegion} {state : Frames}

/-- One step of the allocator or of its environment. -/
def frameStep (fa : FrameAllocator) (state : Frames) : FrameOp → Frames
  | .allocate =>
    match fa.allocateFrame state.memory with
    | (some frame, memory) => ⟨memory, frame :: state.held⟩
    | (none, memory) => ⟨memory, state.held⟩
  | .free frame => ⟨fa.freeFrame state.memory frame, state.held.erase frame⟩
  | .other memory => ⟨memory, state.held⟩

/-- Only held frames are freed, and nobody else writes the bitmap's storage. -/
def Lawful (fa : FrameAllocator) (state : Frames) : FrameOp → Prop
  | .allocate => True
  | .free frame => frame ∈ state.held
  | .other memory => ∀ a ∈ fa.bitmapSpan, memory.byte a = state.memory.byte a

/-- Runs of lawful steps. -/
def FrameRun (fa : FrameAllocator) : Frames → List FrameOp → Frames → Prop :=
  Run (Guarded fa.Lawful fun before op after => after = fa.frameStep before op)

/-- Each bit tells its frame's owner: free frames may be handed out, held frames are marked. -/
structure Owned (fa : FrameAllocator) (regions : List MemoryRegion) (state : Frames) : Prop where
  /-- Only frames of usable memory off the bitmap are free. -/
  free : ∀ index < fa.frameCount, fa.used state.memory index = false → fa.Allocatable regions index
  /-- Held frames are managed, marked and fit to be freed. -/
  held : ∀ frame ∈ state.held, ∃ index < fa.frameCount, frame = fa.frameAddr index ∧
    fa.used state.memory index = true ∧ fa.Allocatable regions index
  /-- No frame is held twice. -/
  nodup : state.held.Nodup

/-- Allocation returns an allocatable frame nobody holds. -/
theorem Owned.allocated (covers : fa.Covers) (owned : fa.Owned regions state) {frame : Nat}
    {memory : PhysMem} (returned : fa.allocateFrame state.memory = (some frame, memory)) :
    (∃ index < fa.frameCount, frame = fa.frameAddr index ∧ fa.Allocatable regions index) ∧
      frame ∉ state.held ∧ fa.Owned regions ⟨memory, frame :: state.held⟩ := by
  have scanned := fa.allocateFrame_scanned covers state.memory
  rw [returned] at scanned
  cases scanned with
  | taken index inside _ free _ bits _ =>
    have allocatable := owned.free index inside free
    have unheld : fa.frameAddr index ∉ state.held := by
      intro member
      obtain ⟨other, _, same, marked, _⟩ := owned.held _ member
      rw [← frameAddr_injective same, free] at marked
      contradiction
    refine ⟨⟨index, inside, rfl, allocatable⟩, unheld, ⟨?_, ?_, ?_⟩⟩
    · intro other otherInside clear
      rw [bits other otherInside, Bool.or_eq_false_iff] at clear
      exact owned.free other otherInside clear.1
    · intro held member
      rcases List.mem_cons.mp member with rfl | earlier
      · exact ⟨index, inside, rfl, by simp [bits index inside], allocatable⟩
      · obtain ⟨other, otherInside, same, marked, fit⟩ := owned.held held earlier
        exact ⟨other, otherInside, same, by simp [bits other otherInside, marked], fit⟩
    · exact List.nodup_cons.mpr ⟨unheld, owned.nodup⟩

/-- Giving back a held frame keeps the others' bits. -/
theorem Owned.freed (owned : fa.Owned regions state) {frame : Nat} (member : frame ∈ state.held) :
    fa.Owned regions ⟨fa.freeFrame state.memory frame, state.held.erase frame⟩ := by
  obtain ⟨index, inside, rfl, _, allocatable⟩ := owned.held frame member
  rw [freeFrame_frameAddr inside]
  refine ⟨?_, ?_, owned.nodup.erase _⟩
  · intro other otherInside clear
    rw [fa.used_mark] at clear
    by_cases same : other = index
    · rw [same]
      exact allocatable
    · rw [if_neg same] at clear
      exact owned.free other otherInside clear
  · intro held heldMember
    rw [owned.nodup.mem_erase_iff] at heldMember
    obtain ⟨other, otherInside, rfl, marked, fit⟩ := owned.held held heldMember.2
    refine ⟨other, otherInside, rfl, ?_, fit⟩
    rw [fa.used_mark, if_neg (fun same => heldMember.1 (by rw [same])), marked]

/-- Ownership only depends on the frames' bits. -/
theorem Owned.congr (owned : fa.Owned regions state) {memory : PhysMem}
    (same : ∀ index < fa.frameCount, fa.used memory index = fa.used state.memory index) :
    fa.Owned regions ⟨memory, state.held⟩ := by
  refine ⟨fun index inside clear => owned.free index inside (same index inside ▸ clear),
    fun frame member => ?_, owned.nodup⟩
  obtain ⟨index, inside, address, marked, fit⟩ := owned.held frame member
  exact ⟨index, inside, address, (same index inside).trans marked, fit⟩

/-- Every lawful step keeps ownership. -/
theorem Owned.step (covers : fa.Covers) (owned : fa.Owned regions state) {op : FrameOp}
    (lawful : fa.Lawful state op) : fa.Owned regions (fa.frameStep state op) := by
  cases op with
  | allocate =>
    simp only [frameStep]
    split
    · rename_i frame memory returned
      exact (owned.allocated covers returned).2.2
    · rename_i memory returned
      have scanned := fa.allocateFrame_scanned covers state.memory
      rw [returned] at scanned
      cases scanned with
      | full _ same _ => exact owned.congr same
  | free frame => exact owned.freed lawful
  | other memory =>
    exact owned.congr fun index inside => used_congr (covers.word_lt inside) lawful

/-- Ownership holds after `init` and in every state a lawful run reaches. -/
theorem owned_of_run {memory after : PhysMem} (initialized : init memory regions = .ok (fa, after))
    {ops : List FrameOp} (run : fa.FrameRun ⟨after, []⟩ ops state) : fa.Owned regions state := by
  obtain ⟨placed, _, bits⟩ := init_spec initialized
  refine Run.invariant (fa.Owned regions) ?_ run ⟨?_, by simp, List.nodup_nil⟩
  · rintro before op _ owned ⟨lawful, rfl⟩
    exact owned.step placed.covers lawful
  · intro index inside clear
    exact ((bits index inside).mp clear).1

/-- For every well-formed memory map, `init` returns unless usable memory starts at address 0, and in
every lawful run after it each frame `allocate_frame` returns is aligned, lies in one usable region
and off the bitmap, and is held by nobody. -/
theorem allocateFrame_exclusive {regions : List MemoryRegion} (wf : WellFormedMap regions)
    (memory : PhysMem) :
    (StartsAtNull regions → init memory regions = .error .null) ∧
    (¬StartsAtNull regions → ∃ fa after, init memory regions = .ok (fa, after) ∧
      ∀ ops state, fa.FrameRun ⟨after, []⟩ ops state →
        ∀ frame next, fa.allocateFrame state.memory = (some frame, next) →
          frame % 4096 = 0 ∧
          (∃ region ∈ regions, region.kind = .usable ∧ region.start ≤ frame ∧
            frame + 4096 ≤ region.stop) ∧
          (⟨frame, 4096⟩ : Span).Separate fa.bitmapSpan ∧
          ∀ held ∈ state.held, held ≠ frame) := by
  refine ⟨init_null wf memory, fun nonnull => ?_⟩
  obtain ⟨fa, after, initialized⟩ := init_returns wf memory nonnull
  refine ⟨fa, after, initialized, fun ops state run frame next returned => ?_⟩
  have placed := (init_spec initialized).1
  have owned := owned_of_run initialized run
  obtain ⟨⟨index, _, rfl, inRegion, offBitmap⟩, unheld, _⟩ := owned.allocated placed.covers returned
  have aligned := placed.aligned
  refine ⟨?_, inRegion, offBitmap, fun held member same => unheld (same ▸ member)⟩
  unfold frameAddr frameSize
  omega

/-- The end of the first mebibyte is a word. -/
theorem mebibyte_lt : 0x100000 < wordSize := by decide

/-- One usable mebibyte. -/
def mebibyteMap : List MemoryRegion := [⟨0x100000, 0x200000, .usable, by decide, by decide⟩]

/-- The single region is a well-formed map. -/
theorem mebibyteMap_wellFormed : WellFormedMap mebibyteMap where
  ordered := by decide
  bounded := by decide
  apart := by decide
  page := ⟨_, List.mem_cons_self, rfl, 0x100, by decide, by decide⟩

/-- Where `init` places the allocator for the single region. -/
theorem mebibyteMap_place : place mebibyteMap = .ok ⟨0x100000, 256, 0x100000, 4⟩ := by rfl

/-- The allocator of the single region. -/
def mebibyteFrames : FrameAllocator := ⟨0x100000, 256, 0x100000, 4⟩

/-- Four frames behind the first mebibyte. -/
def fourFrames : FrameAllocator := ⟨0x100000, 4, 0x100000, 1⟩

/-- The four frames start with their bitmap. -/
theorem fourFrames_placed : fourFrames.Placed := ⟨rfl, rfl, rfl, by decide⟩

/-- `init` on the single region leaves every frame free but the first. -/
theorem mebibyteMap_init (memory : PhysMem) :
    ∃ after, init memory mebibyteMap = .ok (mebibyteFrames, after) ∧
      ∀ index, 1 ≤ index → index < 256 → mebibyteFrames.used after index = false := by
  obtain ⟨fa, after, initialized⟩ := init_returns mebibyteMap_wellFormed memory (by decide)
  have placing := place_of_init initialized
  rw [mebibyteMap_place, Except.ok.injEq] at placing
  subst placing
  refine ⟨after, initialized, fun index first inside => ?_⟩
  refine ((init_spec initialized).2.2 index inside).mpr ⟨⟨⟨_, List.mem_cons_self, rfl, ?_, ?_⟩, ?_⟩,
    ?_⟩
  · simp only [frameAddr, frameSize]
    omega
  · simp only [frameAddr, frameSize]
    omega
  · simp only [Span.Separate, frameSpan, bitmapSpan, frameAddr, frameSize]
    omega
  · simp only [reservedFrames]
    omega

/-- The bitmap's own frame is in use. -/
theorem mebibyteMap_first {memory after : PhysMem}
    (initialized : init memory mebibyteMap = .ok (mebibyteFrames, after)) :
    mebibyteFrames.used after 0 = true := by
  by_contra clear
  rw [Bool.not_eq_true] at clear
  have apart := (((init_spec initialized).2.2 0 (by decide)).mp clear).2
  exact absurd apart (by decide)

/-- So there are 255 free frames. -/
theorem mebibyteMap_freeFrames {after : PhysMem}
    (free : ∀ index, 1 ≤ index → index < 256 → mebibyteFrames.used after index = false) :
    255 ≤ mebibyteFrames.freeFrames after := by
  have listed : Finset.Icc 1 255 ⊆ (Finset.range 256).filter fun index =>
      mebibyteFrames.used after index = false := by
    intro index member
    obtain ⟨low, high⟩ := Finset.mem_Icc.mp member
    exact Finset.mem_filter.mpr ⟨Finset.mem_range.mpr (by omega), free index low (by omega)⟩
  have counted := Finset.card_le_card listed
  rw [Nat.card_Icc] at counted
  exact counted

/-- In the run with one frame already taken from the mebibyte, a second one is returned and
differs from the first. -/
theorem allocateFrame_exclusive_mebibyte :
    ∃ fa after state frame next,
      init ⟨fun _ => 0, []⟩ mebibyteMap = .ok (fa, after) ∧
      fa.FrameRun ⟨after, []⟩ [.allocate] state ∧ state.held ≠ [] ∧
      fa.allocateFrame state.memory = (some frame, next) ∧ frame % 4096 = 0 ∧
      ∀ held ∈ state.held, held ≠ frame := by
  obtain ⟨fa, after, initialized, exclusive⟩ :=
    (allocateFrame_exclusive mebibyteMap_wellFormed ⟨fun _ => 0, []⟩).2 (by decide)
  obtain ⟨same, initializedAgain, free⟩ := mebibyteMap_init ⟨fun _ => 0, []⟩
  rw [initialized, Except.ok.injEq, Prod.mk.injEq] at initializedAgain
  obtain ⟨rfl, rfl⟩ := initializedAgain
  have covers := (init_spec initialized).1.covers
  obtain ⟨first, middle, firstLe, _, firstReturned, firstBits⟩ :=
    allocateFrame_returns covers (by decide) (free 1 (by decide) (by decide))
  have stillFree : mebibyteFrames.used middle 2 = false := by
    rw [firstBits 2 (by decide), free 2 (by decide) (by decide)]
    simp [show 2 ≠ first by omega]
  obtain ⟨second, next, _, _, secondReturned, _⟩ :=
    allocateFrame_returns covers (by decide) stillFree
  have run : mebibyteFrames.FrameRun ⟨after, []⟩ [.allocate]
      ⟨middle, [mebibyteFrames.frameAddr first]⟩ :=
    .cons ⟨trivial, by simp only [frameStep, firstReturned]⟩ (.nil _)
  have conclusion := exclusive _ _ run _ _ secondReturned
  exact ⟨_, after, _, _, next, initialized, run, by simp, secondReturned, conclusion.1,
    conclusion.2.2.2⟩

end FrameAllocator

end Aperture.Mm
