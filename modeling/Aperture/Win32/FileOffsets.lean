import Aperture.Pe.Format
import Aperture.Win32.LoadedImage

/-!
# What backs an offset of an image

The loader copies as many bytes of a section as both its raw and its virtual size allow. The
parser resolves an offset by the first section whose raw size alone covers it. The two differ
where raw data reaches past the virtual range of an earlier section.
-/

namespace Aperture.Win32

open Machine Pe

/-- The offsets that a section's raw size covers. -/
def rawWindow (header : SectionHeader) : Span := ⟨header.virtualAddress, header.rawSize⟩

/-- Raw data of a section reaches an offset past the section's virtual range. -/
def Overhangs (header : SectionHeader) (rva : Nat) : Prop :=
  header.virtualAddress + header.virtualSize ≤ rva ∧ rva < header.virtualAddress + header.rawSize

/-- The file offset whose byte `map_section` copies to an offset of the image, for one section. -/
def backing (header : SectionHeader) (data : List UInt8) (rva : Nat) : Option Nat :=
  if rva ∈ copiedRange header ∧ header.rawOffset + copySize header ≤ data.length then
    some (header.rawOffset + (rva - header.virtualAddress))
  else none

variable {image : PeImage} {data : List UInt8} {header : SectionHeader} {rva offset j : Nat}

/-- What `backing` returns. -/
theorem backing_eq_some :
    backing header data rva = some offset ↔
      (rva ∈ copiedRange header ∧ header.rawOffset + copySize header ≤ data.length) ∧
        header.rawOffset + (rva - header.virtualAddress) = offset := by
  unfold backing
  split
  · rename_i holds
    simp [holds]
  · rename_i fails
    simp [fails]

/-- The byte at that offset is the one that placing the section puts there. -/
theorem placeSection_backing (backed : backing header data rva = some offset) (base : Nat)
    (s : Loading) :
    data[offset]? = some
      ((placeSection header data (base + header.virtualAddress) s).memory.byte (base + rva)) := by
  obtain ⟨⟨member, inFile⟩, rfl⟩ := backing_eq_some.mp backed
  simp only [copiedRange, Span.mem_iff] at member
  have address : base + rva = base + header.virtualAddress + (rva - header.virtualAddress) := by
    omega
  rw [address]
  exact placeSection_copied inFile (by omega)

/-! ## Section headers -/

/-- A section header is found exactly when it ends inside the file. -/
theorem sectionHeader_eq (fits : image.sectionTableOffset + j * 40 + 40 < wordSize) :
    sectionHeader image data j =
      .ok (if image.sectionTableOffset + j * 40 + 40 ≤ data.length then
        some (sectionAt data (image.sectionTableOffset + j * 40)) else none) := by
  have sum : add64 image.sectionTableOffset (j * 40) = .ok (image.sectionTableOffset + j * 40) :=
    add64_eq_ok.mpr ⟨by omega, rfl⟩
  rw [sectionHeader, sum, ok_bind, parseSectionHeader_eq fits]

/-- The parser's bounds on the section table. -/
structure TableFits (image : PeImage) : Prop where
  /-- The table starts below 2^34. -/
  offset : image.sectionTableOffset < 2 ^ 34
  /-- It has fewer than 2^16 entries. -/
  count : image.numSections < 2 ^ 16

/-- A parsed image is within them. -/
theorem tableFits_of_parsed (parsed : parsePe data = .ok (some image)) : TableFits image := by
  obtain ⟨_, offset, count, _⟩ := parsePe_bounds parsed
  exact ⟨offset, count⟩

/-- All headers before one that is found are found. -/
theorem TableFits.found_before (table : TableFits image) (inside : j < image.numSections)
    (found : sectionHeader image data j = .ok (some header)) {i : Nat} (below : i ≤ j) :
    ∃ other, sectionHeader image data i = .ok (some other) := by
  have offset := table.offset
  have count := table.count
  have fits (k : Nat) (small : k ≤ j) : image.sectionTableOffset + k * 40 + 40 < wordSize := by
    unfold wordSize
    omega
  rw [sectionHeader_eq (fits j (Nat.le_refl j)), Except.ok.injEq] at found
  split at found
  · rename_i inFile
    rw [sectionHeader_eq (fits i below), if_pos (by omega)]
    exact ⟨_, rfl⟩
  · cases found

/-- A header's fields have 32 bits. -/
theorem TableFits.fields_small (table : TableFits image) (inside : j < image.numSections)
    (found : sectionHeader image data j = .ok (some header)) :
    header.virtualAddress < 2 ^ 32 ∧ header.rawSize < 2 ^ 32 ∧ header.rawOffset < 2 ^ 32 := by
  have offset := table.offset
  have count := table.count
  rw [sectionHeader_eq (by unfold wordSize; omega), Except.ok.injEq] at found
  split at found
  · obtain rfl := Option.some.inj found
    exact ⟨leAt_lt data _ 4, leAt_lt data _ 4, leAt_lt data _ 4⟩
  · cases found

/-! ## The parser's search -/

/-- One section of the search. -/
theorem TableFits.search_step (table : TableFits image) (inside : j < image.numSections)
    (found : sectionHeader image data j = .ok (some header)) (remaining : Nat) :
    rvaToFileOffsetFrom data image rva j (remaining + 1) =
      if rva ∈ rawWindow header then
        .ok (some (header.rawOffset + (rva - header.virtualAddress)))
      else rvaToFileOffsetFrom data image rva (j + 1) remaining := by
  obtain ⟨addressSmall, sizeSmall, offsetSmall⟩ := table.fields_small inside found
  have offset := table.offset
  have count := table.count
  have product : mul64 j 40 = .ok (j * 40) := mul64_eq_ok.mpr ⟨by unfold wordSize; omega, rfl⟩
  have sum : add64 image.sectionTableOffset (j * 40) = .ok (image.sectionTableOffset + j * 40) :=
    add64_eq_ok.mpr ⟨by unfold wordSize; omega, rfl⟩
  have last : add64 header.virtualAddress header.rawSize =
      .ok (header.virtualAddress + header.rawSize) :=
    add64_eq_ok.mpr ⟨by unfold wordSize; omega, rfl⟩
  have parsed : parseSectionHeader data (image.sectionTableOffset + j * 40) = .ok (some header) := by
    rw [sectionHeader, sum, ok_bind] at found
    exact found
  rw [rvaToFileOffsetFrom, product, ok_bind, sum, ok_bind, parsed, ok_bind]
  dsimp only
  rw [last, ok_bind]
  by_cases member : rva ∈ rawWindow header
  · have bounds := Span.mem_iff.mp member
    simp only [rawWindow] at bounds
    have within : sub64 rva header.virtualAddress = .ok (rva - header.virtualAddress) :=
      sub64_eq_ok.mpr ⟨bounds.1, rfl⟩
    have total : add64 (rva - header.virtualAddress) header.rawOffset =
        .ok (rva - header.virtualAddress + header.rawOffset) :=
      add64_eq_ok.mpr ⟨by unfold wordSize; omega, rfl⟩
    rw [if_pos bounds, if_pos member, within, ok_bind, total, ok_bind, Nat.add_comm]
    rfl
  · have outside : ¬(rva ≥ header.virtualAddress ∧
        rva < header.virtualAddress + header.rawSize) := member
    rw [if_neg outside, if_neg member]

/-- The search returns what the first section says whose raw size covers the offset. -/
theorem TableFits.search (table : TableFits image) (inside : j < image.numSections)
    (found : sectionHeader image data j = .ok (some header)) (covers : rva ∈ rawWindow header)
    (before : ∀ i < j, ∀ other, sectionHeader image data i = .ok (some other) →
      rva ∉ rawWindow other) :
    rvaToFileOffset data image rva =
      .ok (some (header.rawOffset + (rva - header.virtualAddress))) := by
  have from_ (distance : Nat) (near : distance ≤ j) :
      rvaToFileOffsetFrom data image rva (j - distance) (image.numSections - (j - distance)) =
        .ok (some (header.rawOffset + (rva - header.virtualAddress))) := by
    induction distance with
    | zero =>
      obtain ⟨remaining, total⟩ := Nat.exists_eq_add_of_lt inside
      rw [Nat.sub_zero, show image.numSections - j = remaining + 1 by omega,
        table.search_step inside found, if_pos covers]
    | succ distance ih =>
      have here : j - (distance + 1) < image.numSections := by omega
      obtain ⟨other, otherFound⟩ := table.found_before inside found (Nat.sub_le j (distance + 1))
      have more : image.numSections - (j - (distance + 1)) =
          (image.numSections - (j - distance)) + 1 := by omega
      rw [more, table.search_step here otherFound,
        if_neg (before _ (by omega) other otherFound),
        show j - (distance + 1) + 1 = j - distance by omega]
      exact ih (by omega)
  have whole := from_ j (Nat.le_refl j)
  rw [Nat.sub_self, Nat.sub_zero] at whole
  exact whole

/-- Among sections apart from the one that loads an offset, covering it by raw size is overhanging
it. -/
theorem rawWindow_iff_overhangs {other : SectionHeader}
    (apart : (virtualRange other).Separate (virtualRange header)) (member : rva ∈ copiedRange header) :
    rva ∈ rawWindow other ↔ Overhangs other rva := by
  have outside := Span.separate_iff.mp apart rva
  have inside := mem_virtualRange member
  simp only [virtualRange, rawWindow, Overhangs, Span.mem_iff] at outside inside ⊢
  constructor
  · intro covers
    by_contra within
    exact outside (by omega) inside
  · intro overhangs
    omega

/-- Some first section below `j` has a property, or none. -/
theorem exists_first_or_none (property : Nat → Prop) (j : Nat) :
    (∃ i < j, property i ∧ ∀ k < i, ¬property k) ∨ ∀ i < j, ¬property i := by
  induction j with
  | zero => exact .inr fun i none => absurd none (Nat.not_lt_zero i)
  | succ j ih =>
    rcases ih with ⟨i, below, holds, least⟩ | none
    · exact .inl ⟨i, by omega, holds, least⟩
    · by_cases here : property j
      · exact .inl ⟨j, Nat.lt_succ_self j, here, none⟩
      · refine .inr fun i below => ?_
        by_cases last : i = j
        · rw [last]
          exact here
        · exact none i (by omega)

/-- For every parsed image with disjoint virtual ranges and every offset that section `j` copies
from the file: what the loader places there is the byte at a file offset, and the parser returns that
file offset exactly when the first earlier section whose raw data overhangs the offset, if there is
one, has it at the same file offset. -/
theorem rvaToFileOffset_agrees_iff (parsed : parsePe data = .ok (some image))
    (apart : SectionsApart image data) (inside : j < image.numSections)
    (found : sectionHeader image data j = .ok (some header))
    (backed : backing header data rva = some offset) :
    (∀ base s, data[offset]? = some
      ((placeSection header data (base + header.virtualAddress) s).memory.byte (base + rva))) ∧
    (rvaToFileOffset data image rva = .ok (some offset) ↔
      ∀ i < j, ∀ other, sectionHeader image data i = .ok (some other) → Overhangs other rva →
        (∀ k < i, ∀ earlier, sectionHeader image data k = .ok (some earlier) →
          ¬Overhangs earlier rva) →
        other.rawOffset + (rva - other.virtualAddress) = offset) := by
  refine ⟨fun base s => placeSection_backing backed base s, ?_⟩
  have table := tableFits_of_parsed parsed
  obtain ⟨⟨member, _⟩, backs⟩ := backing_eq_some.mp backed
  have window {i : Nat} (below : i < j) {other : SectionHeader}
      (otherFound : sectionHeader image data i = .ok (some other)) :
      rva ∈ rawWindow other ↔ Overhangs other rva :=
    rawWindow_iff_overhangs (apart i (by omega) j inside (by omega) other header otherFound found)
      member
  have covers : rva ∈ rawWindow header := by
    have copies : copySize header ≤ header.rawSize := Nat.min_le_left _ _
    simp only [copiedRange, rawWindow, Span.mem_iff] at member ⊢
    omega
  have firstResult {i : Nat} (below : i < j) {other : SectionHeader}
      (otherFound : sectionHeader image data i = .ok (some other)) (overhangs : Overhangs other rva)
      (least : ∀ k < i, ∀ earlier, sectionHeader image data k = .ok (some earlier) →
        ¬Overhangs earlier rva) :
      rvaToFileOffset data image rva =
        .ok (some (other.rawOffset + (rva - other.virtualAddress))) := by
    apply table.search (by omega) otherFound ((window below otherFound).mpr overhangs)
    intro k early earlier earlierFound
    rw [window (Nat.lt_trans early below) earlierFound]
    exact least k early earlier earlierFound
  constructor
  · intro agrees i below other otherFound overhangs least
    rw [firstResult below otherFound overhangs least, Except.ok.injEq, Option.some.injEq] at agrees
    exact agrees
  · intro same
    rcases exists_first_or_none (fun i => ∃ other,
        sectionHeader image data i = .ok (some other) ∧ Overhangs other rva) j with
      ⟨i, below, ⟨other, otherFound, overhangs⟩, least⟩ | none
    · have early (k : Nat) (before : k < i) (earlier : SectionHeader)
          (earlierFound : sectionHeader image data k = .ok (some earlier)) :
          ¬Overhangs earlier rva := fun covered => least k before ⟨earlier, earlierFound, covered⟩
      rw [firstResult below otherFound overhangs early,
        same i below other otherFound overhangs early]
    · rw [← backs]
      apply table.search inside found covers
      intro i below other otherFound
      rw [window below otherFound]
      exact fun overhangs => none i below ⟨other, otherFound, overhangs⟩

/-- A section of 16 bytes. -/
def shortSection (virtualAddress sizeOfRawData pointerToRawData : UInt32) : FileSection where
  name := ⟨List.replicate 8 0x41, by decide⟩
  virtualSize := 0x10
  virtualAddress := virtualAddress
  sizeOfRawData := sizeOfRawData
  pointerToRawData := pointerToRawData
  unread := ⟨List.replicate 16 0, by decide⟩

/-- A file with two such sections, one behind the other, the first with `rawSize` bytes of raw
data. -/
def twoSections (rawSize : UInt32) : PeFile :=
  { buildPe [] with
    sections := [shortSection 0x1000 rawSize 0x200, shortSection 0x1010 0x10 0x220]
    trailer := List.replicate 0x98 0
    sections_small := by simp }

/-- What the parser reads from it. -/
def twoSectionsImage : PeImage where
  machine := .amd64
  entryPoint := 0x140001000
  imageBase := 0x140000000
  imageSize := 0x2000
  isDll := false
  numSections := 2
  sectionTableOffset := 0x148
  dataDirectoryOffset := 0xC4
  numDataDirectories := 0

/-- Its two sections are apart. -/
theorem twoSections_apart {data : List UInt8} {first second : SectionHeader}
    (firstFound : sectionHeader twoSectionsImage data 0 = .ok (some first))
    (secondFound : sectionHeader twoSectionsImage data 1 = .ok (some second))
    (separate : (virtualRange first).Separate (virtualRange second)) :
    SectionsApart twoSectionsImage data := by
  intro i iSmall j jSmall differ left right leftFound rightFound
  have iCases : i = 0 ∨ i = 1 := by
    simp only [twoSectionsImage] at iSmall
    omega
  have jCases : j = 0 ∨ j = 1 := by
    simp only [twoSectionsImage] at jSmall
    omega
  rcases iCases with rfl | rfl
  · rcases jCases with rfl | rfl
    · exact absurd rfl differ
    · rw [firstFound, Except.ok.injEq, Option.some.injEq] at leftFound
      rw [secondFound, Except.ok.injEq, Option.some.injEq] at rightFound
      rw [← leftFound, ← rightFound]
      exact separate
  · rcases jCases with rfl | rfl
    · rw [secondFound, Except.ok.injEq, Option.some.injEq] at leftFound
      rw [firstFound, Except.ok.injEq, Option.some.injEq] at rightFound
      rw [← leftFound, ← rightFound]
      exact separate.symm
    · exact absurd rfl differ

/-- Without an overhang the parser finds the byte that the second section loads. -/
theorem rvaToFileOffset_agrees_iff_short :
    parsePe (twoSections 0x10).encode = .ok (some twoSectionsImage) ∧
    backing (shortSection 0x1010 0x10 0x220).header (twoSections 0x10).encode 0x1010 = some 0x220 ∧
    rvaToFileOffset (twoSections 0x10).encode twoSectionsImage 0x1010 = .ok (some 0x220) := by
  have parsed : parsePe (twoSections 0x10).encode = .ok (some twoSectionsImage) := by
    decide +kernel
  have firstFound : sectionHeader twoSectionsImage (twoSections 0x10).encode 0 =
      .ok (some (shortSection 0x1000 0x10 0x200).header) := by decide +kernel
  have secondFound : sectionHeader twoSectionsImage (twoSections 0x10).encode 1 =
      .ok (some (shortSection 0x1010 0x10 0x220).header) := by decide +kernel
  have backed : backing (shortSection 0x1010 0x10 0x220).header (twoSections 0x10).encode 0x1010 =
      some 0x220 := by decide +kernel
  refine ⟨parsed, backed, (rvaToFileOffset_agrees_iff parsed
    (twoSections_apart firstFound secondFound (by decide)) (by decide) secondFound backed).2.mpr ?_⟩
  intro i below other otherFound overhangs
  obtain rfl : i = 0 := Nat.lt_one_iff.mp below
  rw [firstFound, Except.ok.injEq, Option.some.injEq] at otherFound
  rw [← otherFound] at overhangs
  exact absurd overhangs.2 (by decide)

/-- With 16 bytes more raw data in the first section, the parser returns an offset in it for the
first byte of the second. -/
theorem rvaToFileOffset_overhang :
    parsePe (twoSections 0x20).encode = .ok (some twoSectionsImage) ∧
    SectionsApart twoSectionsImage (twoSections 0x20).encode ∧
    sectionHeader twoSectionsImage (twoSections 0x20).encode 1 =
      .ok (some (shortSection 0x1010 0x10 0x220).header) ∧
    backing (shortSection 0x1010 0x10 0x220).header (twoSections 0x20).encode 0x1010 = some 0x220 ∧
    (twoSections 0x20).encode.length = 0x230 ∧
    rvaToFileOffset (twoSections 0x20).encode twoSectionsImage 0x1010 = .ok (some 0x210) := by
  have firstFound : sectionHeader twoSectionsImage (twoSections 0x20).encode 0 =
      .ok (some (shortSection 0x1000 0x20 0x200).header) := by decide +kernel
  have secondFound : sectionHeader twoSectionsImage (twoSections 0x20).encode 1 =
      .ok (some (shortSection 0x1010 0x10 0x220).header) := by decide +kernel
  exact ⟨by decide +kernel, twoSections_apart firstFound secondFound (by decide), secondFound,
    by decide +kernel, by decide +kernel, by decide +kernel⟩

end Aperture.Win32
