import Aperture.Mm.FrameInit

/-!
# Four-level page tables

`next_table`, `map`, `map_region`, `translate` and `PageTable::new` over physical
memory and the frame allocator. A walk reads only table pages, so two tables whose
private pages are disjoint cannot see each other's mappings; the pages they do share
are the kernel's, reached through the top-level entries that `new` copies.
-/

namespace Aperture.Mm

open Machine

/-- `PAGE_PRESENT`. -/
def pagePresent : Nat := 2 ^ 0

/-- `PAGE_WRITABLE`. -/
def pageWritable : Nat := 2 ^ 1

/-- `PAGE_USER`. -/
def pageUser : Nat := 2 ^ 2

/-- `PAGE_EXECUTE`. -/
def pageExecute : Nat := 2 ^ 63

/-- The table or frame address in an entry. -/
def entryAddr (entry : Nat) : Nat := entry &&& not64 0xFFF

namespace PageTable

/-- Entry `index` of a table. -/
def entry (memory : PhysMem) (table index : Nat) : Nat := memory.readU64 (table + 8 * index)

/-- Whether an entry has `PAGE_PRESENT`. -/
def present (value : Nat) : Bool := value &&& pagePresent != 0

/-- `next_table` without `create`: the table an entry refers to. -/
def presentTable (memory : PhysMem) (table index : Nat) : Option Nat :=
  if present (entry memory table index) then some (entryAddr (entry memory table index)) else none

/-- `next_table` with `create`: a missing table is allocated, zeroed and linked. -/
def nextTable (fa : FrameAllocator) (memory : PhysMem) (table index : Nat) : Option Nat × PhysMem :=
  match presentTable memory table index with
  | some next => (some next, memory)
  | none =>
    match fa.allocateFrame memory with
    | (none, memory) => (none, memory)
    | (some frame, memory) =>
      (some frame, (memory.fill frame 4096 0).writeU64 (table + 8 * index)
        (frame ||| pagePresent ||| pageWritable ||| pageUser))

/-- Index of an address in the top-level table. -/
def pml4Index (virt : Nat) : Nat := virt >>> 39 &&& 0x1FF

/-- Index of an address in the third-level table. -/
def pdptIndex (virt : Nat) : Nat := virt >>> 30 &&& 0x1FF

/-- Index of an address in the second-level table. -/
def pdIndex (virt : Nat) : Nat := virt >>> 21 &&& 0x1FF

/-- Index of an address in the lowest table. -/
def ptIndex (virt : Nat) : Nat := virt >>> 12 &&& 0x1FF

/-- Map a 4 KiB physical frame to a virtual address. -/
def map (fa : FrameAllocator) (memory : PhysMem) (root virt phys flags : Nat) : Bool × PhysMem :=
  match nextTable fa memory root (pml4Index virt) with
  | (none, memory) => (false, memory)
  | (some pdpt, memory) =>
    match nextTable fa memory pdpt (pdptIndex virt) with
    | (none, memory) => (false, memory)
    | (some pd, memory) =>
      match nextTable fa memory pd (pdIndex virt) with
      | (none, memory) => (false, memory)
      | (some pt, memory) =>
        (true, memory.writeU64 (pt + 8 * ptIndex virt) (phys ||| flags ||| pagePresent))

/-- The pages of a region one after the other. -/
def mapPages (fa : FrameAllocator) (root virtBase physBase flags : Nat) :
    List Nat → PhysMem → Except Panic Bool × PhysMem
  | [], memory => (.ok true, memory)
  | i :: rest, memory =>
    match add64 virtBase (i * 4096), add64 physBase (i * 4096) with
    | .ok virt, .ok phys =>
      match map fa memory root virt phys flags with
      | (false, memory) => (.ok false, memory)
      | (true, memory) => mapPages fa root virtBase physBase flags rest memory
    | .error reason, _ => (.error reason, memory)
    | .ok _, .error reason => (.error reason, memory)

/-- Map `pages` contiguous physical frames. -/
def mapRegion (fa : FrameAllocator) (memory : PhysMem) (root virtBase physBase pages flags : Nat) :
    Except Panic Bool × PhysMem :=
  mapPages fa root virtBase physBase flags (List.range pages) memory

/-- The physical address a leaf entry gives an address. -/
def leafAddr (leaf virt : Nat) : Option Nat :=
  if present leaf then some (entryAddr leaf ||| (virt &&& 0xFFF)) else none

/-- Translate a virtual address. -/
def translate (memory : PhysMem) (root virt : Nat) : Option Nat := do
  let pdpt ← presentTable memory root (pml4Index virt)
  let pd ← presentTable memory pdpt (pdptIndex virt)
  let pt ← presentTable memory pd (pdIndex virt)
  leafAddr (entry memory pt (ptIndex virt)) virt

/-- The copy of the kernel's 512 top-level entries. -/
def copyEntries (kernelCr3 root : Nat) (memory : PhysMem) (count : Nat) : PhysMem :=
  (List.range count).foldl (fun memory i =>
    memory.writeU64 (root + 8 * i) (entry memory kernelCr3 i)) memory

/-- `PageTable::new`: a zeroed frame with the kernel's entries. -/
def new (fa : FrameAllocator) (kernelCr3 : Nat) (memory : PhysMem) : Option Nat × PhysMem :=
  match fa.allocateFrame memory with
  | (none, memory) => (none, memory)
  | (some root, memory) =>
    if kernelCr3 ≠ 0 then (some root, copyEntries kernelCr3 root (memory.fill root 4096 0) 512)
    else (some root, memory.fill root 4096 0)

variable {memory after : PhysMem} {fa : FrameAllocator}

/-- Mapping pages inside the address space does not panic. -/
theorem mapPages_returns (fa : FrameAllocator) (root virtBase physBase flags : Nat)
    (indices : List Nat)
    (fits : ∀ i ∈ indices, virtBase + i * 4096 < wordSize ∧ physBase + i * 4096 < wordSize)
    (memory : PhysMem) : ∃ done after,
      mapPages fa root virtBase physBase flags indices memory = (.ok done, after) := by
  induction indices generalizing memory with
  | nil => exact ⟨true, memory, rfl⟩
  | cons i rest ih =>
    obtain ⟨virtFits, physFits⟩ := fits i List.mem_cons_self
    have virtSum := add64_eq_ok.mpr ⟨virtFits, rfl⟩
    have physSum := add64_eq_ok.mpr ⟨physFits, rfl⟩
    simp only [mapPages, virtSum, physSum]
    cases map fa memory root (virtBase + i * 4096) (physBase + i * 4096) flags with
    | mk done next =>
      cases done with
      | false => exact ⟨false, next, rfl⟩
      | true => exact ih (fun j member => fits j (List.mem_cons_of_mem _ member)) next

/-- A table index has nine bits. -/
theorem index_lt (bits : Nat) : bits &&& 0x1FF < 512 := by
  have below : bits &&& 0x1FF ≤ 0x1FF := Nat.and_le_right
  omega

/-- An index is a part of the address. -/
theorem index_eq (virt shift : Nat) : virt >>> shift &&& 0x1FF = virt / 2 ^ shift % 512 := by
  rw [Nat.shiftRight_eq_div_pow]
  exact Nat.and_two_pow_sub_one_eq_mod _ 9

/-- The top-level index too. -/
theorem pml4Index_lt (virt : Nat) : pml4Index virt < 512 := index_lt _

/-- The address in an entry is the entry without its low twelve bits. -/
theorem entryAddr_eq {value : Nat} (fits : value < wordSize) :
    entryAddr value = value / 4096 * 4096 := and_not64_low 12 (by decide) fits

/-- A page-aligned word keeps its address under flags. -/
theorem entryAddr_or {address flags : Nat} (aligned : address % 4096 = 0)
    (fits : address < wordSize) (small : flags < 4096) : entryAddr (address ||| flags) = address := by
  have shape : address ||| flags = address + flags := by
    have multiple : address = 2 ^ 12 * (address / 4096) := by omega
    rw [multiple]
    exact (Nat.two_pow_add_eq_or_of_lt small _).symm
  have sumFits : address ||| flags < wordSize := by
    rw [shape]
    unfold wordSize at fits ⊢
    omega
  rw [entryAddr_eq sumFits, shape]
  omega

/-- Entry addresses are page-aligned words. -/
theorem entryAddr_aligned {value : Nat} (fits : value < wordSize) :
    entryAddr value % 4096 = 0 ∧ entryAddr value < wordSize := by
  rw [entryAddr_eq fits]
  unfold wordSize at fits ⊢
  omega

/-- An address inside a page is at its offset in the frame. -/
theorem leafAddr_offset {leaf : Nat} (fits : leaf < wordSize) (virt : Nat) :
    leafAddr leaf virt =
      if present leaf then some (entryAddr leaf + virt % 4096) else none := by
  have offset : virt &&& 0xFFF = virt % 4096 := Nat.and_two_pow_sub_one_eq_mod virt 12
  have aligned := (entryAddr_aligned fits).1
  have multiple : entryAddr leaf = 2 ^ 12 * (entryAddr leaf / 4096) := by omega
  have below : virt % 4096 < 2 ^ 12 := Nat.mod_lt _ (by decide)
  have sum : entryAddr leaf ||| virt % 4096 = entryAddr leaf + virt % 4096 := by
    rw [multiple]
    exact (Nat.two_pow_add_eq_or_of_lt below _).symm
  rw [leafAddr, offset, sum]

/-- A walk step depends on one page. -/
theorem presentTable_congr {table index : Nat}
    (same : entry after table index = entry memory table index) :
    presentTable after table index = presentTable memory table index := by
  simp only [presentTable, same]

/-- What a walk step returns. -/
theorem presentTable_eq_some {table index next : Nat} :
    presentTable memory table index = some next ↔
      present (entry memory table index) = true ∧ entryAddr (entry memory table index) = next := by
  unfold presentTable
  split
  · rename_i here
    simp [here]
  · rename_i absent
    simp [absent]

/-- A set of pages with their levels is closed when present entries lead to pages one level
down. -/
def Closed (memory : PhysMem) (pages : Nat → Nat → Prop) : Prop :=
  ∀ level table, pages (level + 1) table → ∀ index < 512, present (entry memory table index) →
    pages level (entryAddr (entry memory table index))

/-- The table pages a walk from a root can read, with their levels. -/
inductive Reaches (memory : PhysMem) (root : Nat) : Nat → Nat → Prop
  /-- The root. -/
  | root : Reaches memory root 3 root
  /-- A page a present entry refers to. -/
  | next {level table index : Nat} (above : Reaches memory root (level + 1) table)
      (inside : index < 512) (here : present (entry memory table index)) :
      Reaches memory root level (entryAddr (entry memory table index))

/-- The reachable pages are closed. -/
theorem reaches_closed (memory : PhysMem) (root : Nat) : Closed memory (Reaches memory root) :=
  fun _ _ above _ inside here => .next above inside here

/-- A page of a table. -/
def page (table : Nat) : Span := ⟨table, 4096⟩

/-- Every entry lies in its page. -/
theorem entry_inside {table index : Nat} (inside : index < 512) :
    ∀ a ∈ (⟨table + 8 * index, 8⟩ : Span), a ∈ page table := by
  intro a member
  simp only [Span.mem_iff, page] at member ⊢
  omega

/-- Writes off a page leave its entries alone. -/
theorem entry_eq_of_writes {region : Set Nat} (writes : WritesWithin region memory after)
    {table index : Nat} (inside : index < 512) (off : ∀ a ∈ page table, a ∉ region) :
    entry after table index = entry memory table index :=
  writes.readU64 fun a member => off a (entry_inside inside a member)

/-- Translation depends only on the pages of a closed set. -/
theorem translate_congr {pages : Nat → Nat → Prop} (closed : Closed memory pages) {root : Nat}
    (rootPage : pages 3 root)
    (same : ∀ level table, pages level table → ∀ index < 512,
      entry after table index = entry memory table index) (virt : Nat) :
    translate after root virt = translate memory root virt := by
  have step {level table : Nat} (here : pages (level + 1) table) (bits : Nat) :
      presentTable after table (bits &&& 0x1FF) = presentTable memory table (bits &&& 0x1FF) ∧
        ∀ next, presentTable memory table (bits &&& 0x1FF) = some next → pages level next := by
    refine ⟨presentTable_congr (same _ _ here _ (index_lt bits)), fun next found => ?_⟩
    obtain ⟨isPresent, rfl⟩ := presentTable_eq_some.mp found
    exact closed _ _ here _ (index_lt bits) isPresent
  unfold translate
  obtain ⟨pdptSame, pdptPage⟩ := step rootPage (virt >>> 39)
  simp only [pml4Index, pdptIndex, pdIndex, ptIndex, pdptSame]
  cases pdptFound : presentTable memory root (virt >>> 39 &&& 0x1FF) with
  | none => rfl
  | some pdpt =>
    obtain ⟨pdSame, pdPage⟩ := step (pdptPage pdpt pdptFound) (virt >>> 30)
    simp only [Option.bind_eq_bind, Option.bind_some, pdSame]
    cases pdFound : presentTable memory pdpt (virt >>> 30 &&& 0x1FF) with
    | none => rfl
    | some pd =>
      obtain ⟨ptSame, ptPage⟩ := step (pdPage pd pdFound) (virt >>> 21)
      simp only [Option.bind_some, ptSame]
      cases ptFound : presentTable memory pd (virt >>> 21 &&& 0x1FF) with
      | none => rfl
      | some pt =>
        simp only [Option.bind_some, same 0 pt (ptPage pt ptFound) _ (index_lt _)]

end PageTable

end Aperture.Mm
