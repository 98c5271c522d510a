import Aperture.Machine.Memory

/-!
# The x86-64 page walk

Four levels of tables with 512 entries each, as the processor walks them. An entry above the lowest
level maps a large page when its page-size bit is set; attribute bits are no part of an address. A
walk is given with the entries it reads, because they decide how it ends.
-/

namespace Aperture.Machine.Mmu

/-- What a walk depends on besides memory. -/
structure Features where
  /-- No-execute is enabled; otherwise bit 63 is reserved. -/
  nxe : Bool
  /-- Width of a physical address; bits from there to 51 are reserved. -/
  physBits : Nat

/-- How a walk ends. -/
inductive Outcome where
  /-- At a physical address. -/
  | mapped (phys : Nat)
  /-- At an entry that is not present. -/
  | notPresent
  /-- At an entry with a reserved bit set. -/
  | reserved
  deriving DecidableEq, Repr

/-- Whether a walk ends at an address, when no reserved bit stops it. -/
def Outcome.found : Outcome → Option Bool
  | .mapped _ => some true
  | .notPresent => some false
  | .reserved => none

/-- A walk: the entries it reads from the top down, and how it ends. -/
structure Walk where
  /-- The entries. -/
  entries : List Nat
  /-- The end. -/
  outcome : Outcome
  deriving DecidableEq, Repr

/-- The index of an address in a table; the lowest level is 0. -/
def index (virt level : Nat) : Nat := virt / 2 ^ (12 + 9 * level) % 512

/-- Bits 12 to 51 of an entry, the address of a page. -/
def pageAddress (entry : Nat) : Nat := entry / 2 ^ 12 % 2 ^ 40 * 2 ^ 12

/-- The address in the page an entry of a level maps. -/
def frameAddress (level entry virt : Nat) : Nat :=
  entry / 2 ^ (12 + 9 * level) % 2 ^ (40 - 9 * level) * 2 ^ (12 + 9 * level) +
    virt % 2 ^ (12 + 9 * level)

/-- Whether an entry of a level has a reserved bit set: bit 63 without no-execute, bits past the
physical address, the page-size bit at the top, low address bits of a large page. -/
def violates (features : Features) (level entry : Nat) : Bool :=
  (entry.testBit 63 && !features.nxe) ||
    entry / 2 ^ features.physBits % 2 ^ (52 - features.physBits) != 0 ||
    (entry.testBit 7 && (level == 3 ||
      (level != 0 && entry / 2 ^ 13 % 2 ^ (9 * level - 1) != 0)))

/-- Walk from a table of a level. -/
def walk (features : Features) (memory : PhysMem) (virt : Nat) : Nat → Nat → Walk
  | 0, table =>
    let entry := memory.readU64 (table + 8 * index virt 0)
    if !entry.testBit 0 then ⟨[entry], .notPresent⟩
    else if violates features 0 entry then ⟨[entry], .reserved⟩
    else ⟨[entry], .mapped (frameAddress 0 entry virt)⟩
  | level + 1, table =>
    let entry := memory.readU64 (table + 8 * index virt (level + 1))
    if !entry.testBit 0 then ⟨[entry], .notPresent⟩
    else if violates features (level + 1) entry then ⟨[entry], .reserved⟩
    else if entry.testBit 7 then ⟨[entry], .mapped (frameAddress (level + 1) entry virt)⟩
    else
      let rest := walk features memory virt level (pageAddress entry)
      ⟨entry :: rest.entries, rest.outcome⟩

/-- Entries without attributes above the address and, above the lowest level, without the page-size
bit; entries that are not present may be anything. -/
def Plain : Nat → List Nat → Prop
  | _, [] => True
  | level, entry :: rest =>
    (entry.testBit 0 = true → entry < 2 ^ 52 ∧ (0 < level → entry.testBit 7 = false)) ∧
      Plain (level - 1) rest

/-! ## Planting a walk -/

/-- An address with index `3 - level` at every level. -/
def spread : Nat := 2 ^ 30 + 2 * 2 ^ 21 + 3 * 2 ^ 12

/-- Its indices. -/
theorem index_spread {level : Nat} (low : level ≤ 3) : index spread level = 3 - level := by
  interval_cases level <;> decide

/-- Words placed in memory: where, and what. -/
abbrev Words := List (Nat × Nat)

/-- Memory has the words. -/
def Holds (memory : PhysMem) (words : Words) : Prop :=
  ∀ word ∈ words, memory.readU64 word.1 = word.2

/-- The words can be placed: each is a word of the entry of some level, and they do not overlap. -/
structure Placeable (level : Nat) (words : Words) : Prop where
  /-- Each lies where `spread` indexes a table of the level or a lower one. -/
  slot : ∀ word ∈ words, ∃ lower ≤ level, word.1 % 4096 = 8 * (3 - lower)
  /-- Each is a machine word. -/
  fits : ∀ word ∈ words, word.2 < wordSize
  /-- No two overlap. -/
  apart : words.Pairwise fun left right => left.1 + 8 ≤ right.1 ∨ right.1 + 8 ≤ left.1

/-- Words of lower levels leave room for one of a higher level. -/
theorem Placeable.cons {level : Nat} {words : Words} (placeable : Placeable level words)
    (low : level + 1 ≤ 3) {table value : Nat} (aligned : table % 4096 = 0)
    (fits : value < wordSize) :
    Placeable (level + 1) ((table + 8 * (3 - (level + 1)), value) :: words) := by
  refine ⟨fun word member => ?_, fun word member => ?_, List.pairwise_cons.mpr ⟨?_, placeable.apart⟩⟩
  · rcases List.mem_cons.mp member with rfl | later
    · exact ⟨level + 1, le_refl _, by dsimp only; omega⟩
    · obtain ⟨lower, below, slot⟩ := placeable.slot word later
      exact ⟨lower, Nat.le_succ_of_le below, slot⟩
  · rcases List.mem_cons.mp member with rfl | later
    · exact fits
    · exact placeable.fits word later
  · intro word member
    obtain ⟨lower, below, slot⟩ := placeable.slot word member
    dsimp only
    omega

/-- Words in different ranges of addresses can be placed together. -/
theorem Placeable.append {level bound : Nat} {front back : Words}
    (frontPlaceable : Placeable level front) (backPlaceable : Placeable level back)
    (below : ∀ word ∈ front, word.1 + 8 ≤ bound) (above : ∀ word ∈ back, bound ≤ word.1) :
    Placeable level (front ++ back) where
  slot word member := (List.mem_append.mp member).elim (frontPlaceable.slot word)
    (backPlaceable.slot word)
  fits word member := (List.mem_append.mp member).elim (frontPlaceable.fits word)
    (backPlaceable.fits word)
  apart := by
    refine List.pairwise_append.mpr ⟨frontPlaceable.apart, backPlaceable.apart, ?_⟩
    intro left leftMember right rightMember
    exact .inl ((below left leftMember).trans (above right rightMember))

variable (features : Features) (memory : PhysMem) (virt : Nat)

end Aperture.Machine.Mmu
