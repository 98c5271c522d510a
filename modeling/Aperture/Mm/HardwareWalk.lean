import Aperture.Machine.Mmu
import Aperture.Mm.MapExact

/-!
# `translate` against the processor

`translate` clears the low twelve bits of an entry and takes the rest for an address. The processor
takes bits 12 to 51, and stops at an entry that maps a large page. So `translate` is right exactly
on walks whose entries have no attribute above the address and no page-size bit, and `map` is
undone exactly for flags without `PAGE_EXECUTE`, which is such an attribute.
-/

namespace Aperture.Mm.PageTable

open Machine

variable {memory : PhysMem} {fa : FrameAllocator} {root : Nat}

/-! ## Mapping with every flag -/

/-- A combination of the exported flags. -/
def flagBits (isPresent writable user execute : Bool) : Nat :=
  (if isPresent then pagePresent else 0) ||| (if writable then pageWritable else 0) |||
    (if user then pageUser else 0) ||| (if execute then pageExecute else 0)

/-- Flags are a word, below a page without `PAGE_EXECUTE` and with the top bit otherwise. -/
theorem flagBits_spec (isPresent writable user execute : Bool) :
    flagBits isPresent writable user execute < wordSize ∧
      (execute = false → flagBits isPresent writable user execute < 4096) ∧
      (flagBits isPresent writable user execute).testBit 63 = execute := by
  revert isPresent writable user execute
  decide

/-- `PAGE_EXECUTE` stays in the address of an entry. -/
theorem leafAddr_execute_iff {phys virt : Nat} (aligned : phys % 4096 = 0) (fits : phys < 2 ^ 52)
    (isPresent writable user execute : Bool) :
    leafAddr (phys ||| flagBits isPresent writable user execute ||| pagePresent) virt =
      some (phys + virt % 4096) ↔ execute = false := by
  obtain ⟨flagsFit, small, top⟩ := flagBits_spec isPresent writable user execute
  cases execute with
  | false => exact iff_of_true (leafAddr_eq aligned (fits.trans (by decide)) (small rfl)) rfl
  | true =>
    refine iff_of_false (fun same => ?_) (by decide)
    have leafFits : phys ||| flagBits isPresent writable user true ||| pagePresent < wordSize :=
      Nat.or_lt_two_pow (Nat.or_lt_two_pow (fits.trans (by decide)) flagsFit) (by decide)
    have high : 2 ^ 63 ≤ phys ||| flagBits isPresent writable user true ||| pagePresent := by
      refine Nat.ge_two_pow_of_testBit ?_
      rw [Nat.testBit_or, Nat.testBit_or, top, Bool.or_true, Bool.true_or]
    rw [leafAddr_offset leafFits, if_pos (present_leaf _ _), Option.some.injEq,
      entryAddr_eq leafFits] at same
    omega

/-- `translate` undoes a `map` that returns true exactly when the flags leave out
`PAGE_EXECUTE`. -/
theorem translate_map_iff (shaped : TreeShaped fa memory root) (placed : fa.Placed)
    {virt phys : Nat} (aligned : phys % 4096 = 0) (fits : phys < 2 ^ 52)
    (isPresent writable user execute : Bool)
    (mapped : (map fa memory root virt phys (flagBits isPresent writable user execute)).1 = true) :
    (∀ v, v / 4096 = virt / 4096 →
        translate (map fa memory root virt phys (flagBits isPresent writable user execute)).2 root v =
          some (phys + v % 4096)) ↔
      execute = false := by
  have flagsFit := (flagBits_spec isPresent writable user execute).1
  have maps := @map_mapsPage fa memory root shaped placed virt phys
    (flagBits isPresent writable user execute) (fits.trans (by decide)) flagsFit
  generalize map fa memory root virt phys (flagBits isPresent writable user execute) = result
    at maps mapped ⊢
  cases maps with
  | full => cases mapped
  | mapped _ translates =>
    constructor
    · intro undone
      have here := undone virt rfl
      rw [translates, if_pos rfl] at here
      exact (leafAddr_execute_iff aligned fits isPresent writable user execute).mp here
    · intro off v same
      rw [translates, if_pos (by rw [pageNumber, pageNumber, same])]
      exact (leafAddr_execute_iff aligned fits isPresent writable user execute).mpr off

/-- A writable user page in the empty table comes back. -/
theorem translate_map_iff_writable : ∃ memory,
    translate (map FrameAllocator.mebibyteFrames memory 0x200000 0x7FF000 0x150000
      (flagBits true true true false)).2 0x200000 0x7FF010 = some 0x150010 := by
  obtain ⟨memory, _, placed, shaped, enough⟩ := mebibyte_empty_table
  have mapped := map_returns_true shaped placed 0x7FF000 0x150000 (flagBits true true true false)
    enough
  exact ⟨memory, (translate_map_iff shaped placed (by decide) (by decide) true true true false
    mapped).mpr rfl 0x7FF010 (by decide)⟩

/-- With `PAGE_EXECUTE`, as the loader maps sections, the address comes back with bit 63 set. -/
theorem translate_map_execute : ∃ memory,
    TreeShaped FrameAllocator.mebibyteFrames memory 0x200000 ∧
    (map FrameAllocator.mebibyteFrames memory 0x200000 0x7FF000 0x150000
      (flagBits true true true true)).1 = true ∧
    translate (map FrameAllocator.mebibyteFrames memory 0x200000 0x7FF000 0x150000
      (flagBits true true true true)).2 0x200000 0x7FF000 = some 0x8000000000150000 := by
  obtain ⟨memory, _, placed, shaped, enough⟩ := mebibyte_empty_table
  have mapped := map_returns_true shaped placed 0x7FF000 0x150000 (flagBits true true true true)
    enough
  refine ⟨memory, shaped, mapped, ?_⟩
  have maps := @map_mapsPage _ memory _ shaped placed 0x7FF000 0x150000 (flagBits true true true true)
    (by decide) (by decide)
  generalize map FrameAllocator.mebibyteFrames memory 0x200000 0x7FF000 0x150000
    (flagBits true true true true) = result at maps mapped ⊢
  cases maps with
  | full => cases mapped
  | mapped _ translates =>
    rw [translates, if_pos rfl]
    decide

/-! ## The walk -/

/-- The walk of `translate` from a table of a level. -/
def follow (memory : PhysMem) (virt : Nat) : Nat → Nat → Option Nat
  | 0, table => leafAddr (entry memory table (Mmu.index virt 0)) virt
  | level + 1, table =>
    (presentTable memory table (Mmu.index virt (level + 1))).bind (follow memory virt level)

/-- What the processor's walk promises about a translation; a reserved bit is an error of its own. -/
def Agrees : Mmu.Outcome → Option Nat → Prop
  | .mapped phys, translated => translated = some phys
  | .notPresent, translated => translated = none
  | .reserved, _ => True

/-- `PAGE_PRESENT` is bit 0. -/
theorem present_eq (value : Nat) : present value = value.testBit 0 := by
  rw [present, pagePresent, Nat.and_two_pow, Nat.pow_zero, Nat.mul_one]
  cases value.testBit 0 <;> rfl

/-- A step of the code's walk, in terms of bit 0. -/
theorem presentTable_eq (memory : PhysMem) (table index : Nat) :
    presentTable memory table index =
      if (memory.readU64 (table + 8 * index)).testBit 0 = true then
        some (entryAddr (memory.readU64 (table + 8 * index))) else none := by
  simp only [presentTable, present_eq]
  rfl

/-- Without attributes above it, the address in an entry is the processor's. -/
theorem entryAddr_plain {value : Nat} (plain : value < 2 ^ 52) :
    entryAddr value = Mmu.pageAddress value := by
  rw [entryAddr_eq (plain.trans (by decide)), Mmu.pageAddress]
  omega

/-- Some memory has a walk of `spread` through the entries that misleads `translate`. -/
def Misleads (features : Mmu.Features) (level planted : Nat) (entries : List Nat) : Prop :=
  ∃ words, Mmu.Placeable level words ∧ ∀ other, Mmu.Holds other words →
    (Mmu.walk features other Mmu.spread level planted).entries = entries ∧
    ¬Agrees (Mmu.walk features other Mmu.spread level planted).outcome
      (follow other Mmu.spread level planted)

section Misled

variable {features : Mmu.Features} {level planted value : Nat}

/-- A placed entry is the one both walks read. -/
theorem read_planted (low : level + 1 ≤ 3) (here : value.testBit 0 = true) {other : PhysMem}
    {words : Mmu.Words}
    (holds : Mmu.Holds other ((planted + 8 * (3 - (level + 1)), value) :: words)) :
    other.readU64 (planted + 8 * Mmu.index Mmu.spread (level + 1)) = value ∧
      presentTable other planted (Mmu.index Mmu.spread (level + 1)) = some (entryAddr value) ∧
      Mmu.Holds other words := by
  have same : other.readU64 (planted + 8 * Mmu.index Mmu.spread (level + 1)) = value := by
    rw [Mmu.index_spread low]
    exact holds (planted + 8 * (3 - (level + 1)), value) List.mem_cons_self
  rw [presentTable_eq, same, here, if_pos rfl]
  exact ⟨rfl, rfl, fun word member => holds word (List.mem_cons_of_mem _ member)⟩

/-- Below a plain entry a misleading walk misleads. -/
theorem Misleads.above {entries : List Nat}
    (misleads : Misleads features level (Mmu.pageAddress value) entries) (low : level + 1 ≤ 3)
    (aligned : planted % 4096 = 0) (fits : value < wordSize) (here : value.testBit 0 = true)
    (allowed : ¬Mmu.violates features (level + 1) value = true) (small : ¬value.testBit 7 = true)
    (plain : value < 2 ^ 52) : Misleads features (level + 1) planted (value :: entries) := by
  obtain ⟨words, placeable, misled⟩ := misleads
  refine ⟨_, placeable.cons low aligned fits, fun other holds => ?_⟩
  obtain ⟨same, next, below⟩ := read_planted low here holds
  obtain ⟨sameEntries, disagrees⟩ := misled other below
  simp only [Mmu.walk, follow, same, here, Bool.not_true, Bool.false_eq_true, ↓reduceIte, allowed,
    small, next, Option.bind_some, sameEntries]
  rw [entryAddr_plain plain]
  exact ⟨trivial, disagrees⟩

end Misled

end Aperture.Mm.PageTable
