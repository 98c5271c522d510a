import Aperture.Machine.Word

/-!
# Byte-addressed physical memory

Memory is a total map from addresses to bytes together with the log of every
span a program has written, newest first. The log is a ghost: no operation
reads it, but it makes "which bytes were written" a statement of the model and
not only "which bytes changed". Every write primitive is one `store`, so the
frame rules are proved once.
-/

namespace Aperture.Machine

/-- A half-open range of addresses. -/
structure Span where
  /-- First address. -/
  start : Nat
  /-- Number of bytes. -/
  size : Nat
  deriving DecidableEq, Repr

namespace Span

instance : Membership Nat Span where
  mem span address := span.start ≤ address ∧ address < span.start + span.size

/-- Membership is the two bounds. -/
theorem mem_iff {address : Nat} {span : Span} :
    address ∈ span ↔ span.start ≤ address ∧ address < span.start + span.size := Iff.rfl

instance (address : Nat) (span : Span) : Decidable (address ∈ span) :=
  inferInstanceAs (Decidable (_ ∧ _))

/-- The addresses of a span as a set. -/
def toSet (span : Span) : Set Nat := {address | address ∈ span}

/-- Membership in the set is membership in the span. -/
@[simp]
theorem mem_toSet {address : Nat} {span : Span} : address ∈ span.toSet ↔ address ∈ span := Iff.rfl

/-- Two spans without a common address. -/
def Separate (left right : Span) : Prop :=
  left.size = 0 ∨ right.size = 0 ∨ left.start + left.size ≤ right.start ∨
    right.start + right.size ≤ left.start

instance (left right : Span) : Decidable (left.Separate right) :=
  inferInstanceAs (Decidable (_ ∨ _ ∨ _ ∨ _))

/-- Separation is exactly the absence of a common address. -/
theorem separate_iff {left right : Span} :
    left.Separate right ↔ ∀ address ∈ left, address ∉ right := by
  simp only [Separate, mem_iff]
  constructor
  · intro apart address inside
    omega
  · intro apart
    by_contra together
    have witness := apart (max left.start right.start)
    omega

/-- Separation is symmetric. -/
theorem Separate.symm {left right : Span} (apart : left.Separate right) :
    right.Separate left := by
  simp only [Separate] at apart ⊢
  omega

/-- Spans that are pairwise separate and end below a bound have at most that many bytes:
separation makes the listing of all their bytes duplicate-free. -/
theorem total_le {spans : List Span} (apart : spans.Pairwise Separate) (bound : Nat)
    (below : ∀ span ∈ spans, span.start + span.size ≤ bound) :
    (spans.map size).sum ≤ bound := by
  have listed : (spans.flatMap fun span => List.range' span.start span.size).Nodup := by
    rw [List.nodup_flatMap]
    refine ⟨fun span _ => List.nodup_range', apart.imp fun {left right} separate => ?_⟩
    simp only [Function.onFun, List.disjoint_left, List.mem_range'_1]
    intro address inside
    exact Span.separate_iff.mp separate address inside
  have inside : (spans.flatMap fun span => List.range' span.start span.size) ⊆ List.range bound := by
    intro address member
    obtain ⟨span, spanMember, inSpan⟩ := List.mem_flatMap.mp member
    have ends := below span spanMember
    simp only [List.mem_range'_1] at inSpan
    simp only [List.mem_range]
    omega
  have counted := (List.subperm_of_subset listed inside).length_le
  simpa [List.length_flatMap] using counted

end Span

/-- Memory content and the ghost log of writes. -/
structure PhysMem where
  /-- The byte at every address. -/
  byte : Nat → UInt8
  /-- Every span written so far, newest first. -/
  log : List Span

namespace PhysMem

/-- Write the bytes `content 0 .. content (size - 1)` over a span. -/
def store (memory : PhysMem) (span : Span) (content : Nat → UInt8) : PhysMem where
  byte address := if address ∈ span then content (address - span.start) else memory.byte address
  log := span :: memory.log

/-- A store leaves every byte outside its span as it was. -/
theorem store_byte_outside (memory : PhysMem) {span : Span} (content : Nat → UInt8)
    {address : Nat} (outside : address ∉ span) :
    (memory.store span content).byte address = memory.byte address := by
  simp [store, outside]

/-- A store puts its content at the matching offset. -/
theorem store_byte_inside (memory : PhysMem) {span : Span} (content : Nat → UInt8)
    {address : Nat} (inside : address ∈ span) :
    (memory.store span content).byte address = content (address - span.start) := by
  simp [store, inside]

/-- Set `size` bytes to one value. -/
def fill (memory : PhysMem) (start size : Nat) (value : UInt8) : PhysMem :=
  memory.store ⟨start, size⟩ fun _ => value

/-- Copy a byte string to an address. -/
def copyIn (memory : PhysMem) (start : Nat) (bytes : List UInt8) : PhysMem :=
  memory.store ⟨start, bytes.length⟩ fun offset => bytes.getD offset 0

/-- Read `count` consecutive bytes. -/
def readBytes (memory : PhysMem) (start count : Nat) : List UInt8 :=
  (List.range count).map fun offset => memory.byte (start + offset)

/-- A read in two parts. -/
theorem readBytes_add (memory : PhysMem) (start front back : Nat) :
    memory.readBytes start (front + back) =
      memory.readBytes start front ++ memory.readBytes (start + front) back := by
  simp only [readBytes, List.range_add, List.map_append, List.map_map, Function.comp_def,
    Nat.add_assoc]

/-- As many bytes as are asked for. -/
@[simp]
theorem length_readBytes (memory : PhysMem) (start size : Nat) :
    (memory.readBytes start size).length = size := by
  simp [readBytes]

/-- The rest of a read is a read further on. -/
theorem readBytes_drop (memory : PhysMem) (start : Nat) {count size : Nat} (few : count ≤ size) :
    (memory.readBytes start size).drop count = memory.readBytes (start + count) (size - count) := by
  have split := memory.readBytes_add start count (size - count)
  rw [Nat.add_sub_cancel' few] at split
  rw [split]
  exact List.drop_left' (length_readBytes memory start count)

/-- A copied byte string reads back. -/
theorem readBytes_copyIn (memory : PhysMem) (start : Nat) (bytes : List UInt8) :
    (memory.copyIn start bytes).readBytes start bytes.length = bytes := by
  refine List.ext_getElem (by simp [readBytes]) fun index _ inside => ?_
  have member : start + index ∈ Span.mk start bytes.length :=
    ⟨Nat.le_add_right _ _, Nat.add_lt_add_left inside _⟩
  simp only [readBytes, List.getElem_map, List.getElem_range, copyIn]
  rw [store_byte_inside _ _ member, Nat.add_sub_cancel_left, List.getD_eq_getElem?_getD,
    List.getElem?_eq_getElem inside, Option.getD_some]

/-- The spans logged since an earlier state. -/
def since (memory before : PhysMem) : List Span :=
  memory.log.take (memory.log.length - before.log.length)

/-- They are what was put in front of the earlier log. -/
theorem since_eq {memory before : PhysMem} {spans : List Span}
    (logged : memory.log = spans ++ before.log) : memory.since before = spans := by
  rw [since, logged, List.length_append, Nat.add_sub_cancel, List.take_left]

/-- Read a little-endian 64-bit word. -/
def readU64 (memory : PhysMem) (address : Nat) : Nat :=
  (memory.byte address).toNat + 2 ^ 8 * (memory.byte (address + 1)).toNat +
    2 ^ 16 * (memory.byte (address + 2)).toNat + 2 ^ 24 * (memory.byte (address + 3)).toNat +
    2 ^ 32 * (memory.byte (address + 4)).toNat + 2 ^ 40 * (memory.byte (address + 5)).toNat +
    2 ^ 48 * (memory.byte (address + 6)).toNat + 2 ^ 56 * (memory.byte (address + 7)).toNat

/-- Write a little-endian 64-bit word. -/
def writeU64 (memory : PhysMem) (address value : Nat) : PhysMem :=
  memory.store ⟨address, 8⟩ fun offset => UInt8.ofNat (value / 2 ^ (8 * offset))

/-- Every word read fits the word range. -/
theorem readU64_lt (memory : PhysMem) (address : Nat) : memory.readU64 address < wordSize := by
  have b0 := (memory.byte address).toNat_lt
  have b1 := (memory.byte (address + 1)).toNat_lt
  have b2 := (memory.byte (address + 2)).toNat_lt
  have b3 := (memory.byte (address + 3)).toNat_lt
  have b4 := (memory.byte (address + 4)).toNat_lt
  have b5 := (memory.byte (address + 5)).toNat_lt
  have b6 := (memory.byte (address + 6)).toNat_lt
  have b7 := (memory.byte (address + 7)).toNat_lt
  unfold readU64 wordSize
  omega

/-- The bits of a word are those of its bytes. -/
theorem testBit_readU64 (memory : PhysMem) (address : Nat) {bit : Nat} (inside : bit < 64) :
    (memory.readU64 address).testBit bit =
      (memory.byte (address + bit / 8)).toNat.testBit (bit % 8) := by
  have small (a : Nat) := (memory.byte a).toNat_lt
  have byteOf : memory.readU64 address / 2 ^ (8 * (bit / 8)) % 2 ^ 8 =
      (memory.byte (address + bit / 8)).toNat := by
    have first := small address
    have second := small (address + 1)
    have third := small (address + 2)
    have fourth := small (address + 3)
    have fifth := small (address + 4)
    have sixth := small (address + 5)
    have seventh := small (address + 6)
    have eighth := small (address + 7)
    unfold readU64
    have slot : bit / 8 < 8 := by omega
    generalize bit / 8 = slotOf at slot ⊢
    interval_cases slotOf
    · simp only [Nat.add_zero, Nat.mul_zero, Nat.pow_zero, Nat.div_one]
      omega
    all_goals omega
  rw [← byteOf, Nat.testBit_mod_two_pow, Nat.testBit_div_two_pow, Nat.mod_add_div,
    decide_eq_true (Nat.mod_lt bit (by decide)), Bool.true_and]

/-- A word depends only on its own eight bytes. -/
theorem readU64_congr {left right : PhysMem} {address : Nat}
    (same : ∀ a ∈ (⟨address, 8⟩ : Span), left.byte a = right.byte a) :
    left.readU64 address = right.readU64 address := by
  have at_offset (offset : Nat) (inside : offset < 8) :
      left.byte (address + offset) = right.byte (address + offset) :=
    same _ (Span.mem_iff.mpr ⟨by simp, by simpa using inside⟩)
  have first : left.byte address = right.byte address := at_offset 0 (by decide)
  simp only [readU64, first, at_offset 1 (by decide), at_offset 2 (by decide),
    at_offset 3 (by decide), at_offset 4 (by decide), at_offset 5 (by decide),
    at_offset 6 (by decide), at_offset 7 (by decide)]

/-- A store elsewhere does not change a word. -/
theorem readU64_store_separate (memory : PhysMem) {span : Span} (content : Nat → UInt8)
    {address : Nat} (apart : (⟨address, 8⟩ : Span).Separate span) :
    (memory.store span content).readU64 address = memory.readU64 address :=
  readU64_congr fun a inside =>
    memory.store_byte_outside content (Span.separate_iff.mp apart a inside)

/-- A written word reads back. -/
theorem readU64_writeU64 (memory : PhysMem) (address : Nat) {value : Nat}
    (fits : value < wordSize) : (memory.writeU64 address value).readU64 address = value := by
  have at_offset (offset : Nat) (inside : offset < 8) :
      ((memory.writeU64 address value).byte (address + offset)).toNat =
        value / 2 ^ (8 * offset) % 2 ^ 8 := by
    unfold writeU64
    rw [store_byte_inside]
    · simp
    · exact Span.mem_iff.mpr ⟨by simp, by simpa using inside⟩
  have first : ((memory.writeU64 address value).byte address).toNat = value % 2 ^ 8 := by
    simpa using at_offset 0 (by decide)
  simp only [readU64, first, at_offset 1 (by decide), at_offset 2 (by decide),
    at_offset 3 (by decide), at_offset 4 (by decide), at_offset 5 (by decide),
    at_offset 6 (by decide), at_offset 7 (by decide)]
  unfold wordSize at fits
  omega

/-- A word written elsewhere does not change a word. -/
theorem readU64_writeU64_separate (memory : PhysMem) {address other : Nat} (value : Nat)
    (apart : other + 8 ≤ address ∨ address + 8 ≤ other) :
    (memory.writeU64 address value).readU64 other = memory.readU64 other :=
  memory.readU64_store_separate _ (by simp only [Span.Separate]; omega)

end PhysMem

/-- The second memory is the first after writes that all lie in `region`. -/
structure WritesWithin (region : Set Nat) (before after : PhysMem) : Prop where
  /-- Only spans inside the region were logged. -/
  logged : ∃ spans, after.log = spans ++ before.log ∧ ∀ span ∈ spans, ∀ a ∈ span, a ∈ region
  /-- Bytes outside the region are unchanged. -/
  unchanged : ∀ a ∉ region, after.byte a = before.byte a

namespace WritesWithin

variable {region larger : Set Nat} {first second third : PhysMem}

/-- Doing nothing writes nowhere. -/
theorem refl (region : Set Nat) (memory : PhysMem) : WritesWithin region memory memory :=
  ⟨⟨[], rfl, by simp⟩, fun _ _ => rfl⟩

/-- Writes inside a region compose. -/
theorem trans (left : WritesWithin region first second)
    (right : WritesWithin region second third) : WritesWithin region first third := by
  obtain ⟨⟨earlier, earlierLog, earlierInside⟩, earlierSame⟩ := left
  obtain ⟨⟨later, laterLog, laterInside⟩, laterSame⟩ := right
  refine ⟨⟨later ++ earlier, by rw [laterLog, earlierLog, List.append_assoc], ?_⟩, ?_⟩
  · intro span member
    rcases List.mem_append.mp member with inLater | inEarlier
    · exact laterInside span inLater
    · exact earlierInside span inEarlier
  · intro a outside
    rw [laterSame a outside, earlierSame a outside]

/-- A larger region allows the same writes. -/
theorem mono (within : WritesWithin region first second) (subset : region ⊆ larger) :
    WritesWithin larger first second := by
  obtain ⟨⟨spans, log, inside⟩, same⟩ := within
  exact ⟨⟨spans, log, fun span member a inSpan => subset (inside span member a inSpan)⟩,
    fun a outside => same a fun inRegion => outside (subset inRegion)⟩

/-- A store writes within any region that covers its span. -/
theorem store (memory : PhysMem) {span : Span} (content : Nat → UInt8)
    (covered : ∀ a ∈ span, a ∈ region) : WritesWithin region memory (memory.store span content) :=
  ⟨⟨[span], rfl, by simpa using covered⟩,
    fun a outside => memory.store_byte_outside content fun inside => outside (covered a inside)⟩

/-- So does setting bytes to one value. -/
theorem fill (memory : PhysMem) {start size : Nat} (value : UInt8)
    (covered : ∀ a ∈ (⟨start, size⟩ : Span), a ∈ region) :
    WritesWithin region memory (memory.fill start size value) :=
  store memory _ covered

/-- So does copying a byte string. -/
theorem copyIn (memory : PhysMem) {start : Nat} {bytes : List UInt8}
    (covered : ∀ a ∈ (⟨start, bytes.length⟩ : Span), a ∈ region) :
    WritesWithin region memory (memory.copyIn start bytes) :=
  store memory _ covered

/-- A word write stays within any region that covers its eight bytes. -/
theorem writeU64 (memory : PhysMem) {address : Nat} (value : Nat)
    (covered : ∀ a ∈ (⟨address, 8⟩ : Span), a ∈ region) :
    WritesWithin region memory (memory.writeU64 address value) :=
  store memory _ covered

/-- Every span logged on the way lies in the region. -/
theorem since (within : WritesWithin region first second) :
    ∀ span ∈ second.since first, ∀ a ∈ span, a ∈ region := by
  obtain ⟨spans, logged, inside⟩ := within.logged
  rw [PhysMem.since_eq logged]
  exact inside

/-- A word outside the region keeps its value. -/
theorem readU64 (within : WritesWithin region first second) {address : Nat}
    (outside : ∀ a ∈ (⟨address, 8⟩ : Span), a ∉ region) :
    second.readU64 address = first.readU64 address :=
  PhysMem.readU64_congr fun a inside => within.unchanged a (outside a inside)

/-- So do bytes outside the region. -/
theorem readBytes (within : WritesWithin region first second) {start count : Nat}
    (outside : ∀ a ∈ (⟨start, count⟩ : Span), a ∉ region) :
    second.readBytes start count = first.readBytes start count := by
  unfold PhysMem.readBytes
  apply List.map_congr_left
  intro offset inside
  rw [List.mem_range] at inside
  apply within.unchanged
  apply outside
  rw [Span.mem_iff]
  dsimp only
  omega

end WritesWithin

end Aperture.Machine
