import Aperture.Machine.Bytes

/-!
# The PE header parser

`parsePe` follows `parse_pe` read by read. Its closed form shows where it stops:
after the checks of the DOS header, the COFF header and the optional header's magic,
it reads up to 60 bytes of optional header of which only 8 have been checked, and
adds the entry point to the image base without a check.
-/

namespace Aperture.Pe

open Machine

/-- PE machine types. -/
inductive MachineType where
  /-- `IMAGE_FILE_MACHINE_I386`. -/
  | i386
  /-- `IMAGE_FILE_MACHINE_AMD64`. -/
  | amd64
  /-- `IMAGE_FILE_MACHINE_ARM64`. -/
  | arm64
  deriving DecidableEq, Repr

/-- The machine of a header word. -/
def MachineType.ofRaw (raw : Nat) : Option MachineType :=
  if raw = 0x8664 then some .amd64
  else if raw = 0xAA64 then some .arm64
  else if raw = 0x014C then some .i386
  else none

/-- Result of parsing a PE image header. -/
structure PeImage where
  /-- Machine type. -/
  machine : MachineType
  /-- Image base plus entry point. -/
  entryPoint : Nat
  /-- Preferred load address. -/
  imageBase : Nat
  /-- Size of the loaded image. -/
  imageSize : Nat
  /-- Whether the image is a library. -/
  isDll : Bool
  /-- Number of section headers. -/
  numSections : Nat
  /-- File offset of the section headers. -/
  sectionTableOffset : Nat
  /-- File offset of the data directories. -/
  dataDirectoryOffset : Nat
  /-- Number of data directories. -/
  numDataDirectories : Nat
  deriving DecidableEq, Repr

/-- The image base of the two optional header layouts; `none` for any other magic. -/
def parseImageBase (data : List UInt8) (optOffset : Nat) : Except Panic (Option Nat) := do
  let magic ← field data optOffset 0 2
  if magic = 0x20B then
    let imageBase ← field data optOffset 24 8
    return some imageBase
  else if magic = 0x10B then
    let imageBase ← field data optOffset 28 4
    return some imageBase
  else return none

/-- The number of data directories, 0 when the optional header ends before them. -/
def parseNumDataDirectories (data : List UInt8) (optOffset : Nat) : Except Panic Nat := do
  let directoriesEnd ← add64 optOffset (0x6C + 4)
  if directoriesEnd ≤ data.length then field data optOffset 0x68 4 else return 0

/-- The part of `parse_pe` after its last length check. -/
def parseOptional (data : List UInt8) (machine : MachineType) (numSections optHeaderSize : Nat)
    (isDll : Bool) (optOffset : Nat) : Except Panic (Option PeImage) := do
  match ← parseImageBase data optOffset with
  | none => return none
  | some imageBase =>
    let entryPoint ← field data optOffset 16 4
    let imageSize ← field data optOffset 56 4
    let sectionTableOffset ← add64 optOffset optHeaderSize
    let numDataDirectories ← parseNumDataDirectories data optOffset
    let dataDirectoryOffset ← add64 optOffset 0x6C
    let entryPoint ← add64 imageBase entryPoint
    return some { machine, entryPoint, imageBase, imageSize, isDll, numSections,
                  sectionTableOffset, dataDirectoryOffset, numDataDirectories }

/-- Parse a PE image in memory. Returns `none` if the header is invalid. -/
def parsePe (data : List UInt8) : Except Panic (Option PeImage) := do
  if data.length < 0x40 then return none
  let mz ← slice data 0 2
  if mz ≠ [0x4D, 0x5A] then return none
  let peOffset ← field data 0 0x3C 4
  let coffEnd ← add64 peOffset 24
  if coffEnd > data.length then return none
  let signatureEnd ← add64 peOffset 4
  let signature ← slice data peOffset signatureEnd
  if signature ≠ [0x50, 0x45, 0, 0] then return none
  let machine ← field data peOffset 4 2
  let numSections ← field data peOffset 6 2
  let optHeaderSize ← field data peOffset 20 2
  let characteristics ← field data peOffset 22 2
  match MachineType.ofRaw machine with
  | none => return none
  | some machine =>
    let optOffset ← add64 peOffset 24
    let magicEnd ← add64 optOffset 8
    if magicEnd > data.length then return none
    parseOptional data machine numSections optHeaderSize (characteristics &&& 0x2000 ≠ 0) optOffset

/-- PE section header. -/
structure SectionHeader where
  /-- Section name. -/
  name : List UInt8
  /-- Bytes in the loaded image. -/
  virtualSize : Nat
  /-- Offset in the loaded image. -/
  virtualAddress : Nat
  /-- Bytes in the file. -/
  rawSize : Nat
  /-- Offset in the file. -/
  rawOffset : Nat
  deriving DecidableEq, Repr

/-- Parse a single section header at an offset. -/
def parseSectionHeader (data : List UInt8) (offset : Nat) :
    Except Panic (Option SectionHeader) := do
  let headerEnd ← add64 offset 40
  if headerEnd > data.length then return none
  let nameEnd ← add64 offset 8
  let name ← slice data offset nameEnd
  let virtualSize ← field data offset 8 4
  let virtualAddress ← field data offset 12 4
  let rawSize ← field data offset 16 4
  let rawOffset ← field data offset 20 4
  return some { name, virtualSize, virtualAddress, rawSize, rawOffset }

/-- A single data directory entry. -/
structure DataDirectory where
  /-- Offset in the loaded image. -/
  rva : Nat
  /-- Size in bytes. -/
  size : Nat
  deriving DecidableEq, Repr

/-- Parse a single data directory at `index` (0-based). Returns `none` if the directory does not
exist or is truncated. The index is compared as a 32-bit number. -/
def dataDirectory (data : List UInt8) (image : PeImage) (index : Nat) :
    Except Panic (Option DataDirectory) := do
  if index % 2 ^ 32 ≥ image.numDataDirectories then return none
  let distance ← mul64 index 8
  let offset ← add64 image.dataDirectoryOffset distance
  let entryEnd ← add64 offset 8
  if entryEnd > data.length then return none
  let rva ← field data offset 0 4
  let size ← field data offset 4 4
  return some { rva, size }

/-- The sections from index `i` on that `rva_to_file_offset` looks at, `remaining` of them. -/
def rvaToFileOffsetFrom (data : List UInt8) (image : PeImage) (rva i : Nat) :
    Nat → Except Panic (Option Nat)
  | 0 => return none
  | remaining + 1 => do
    let distance ← mul64 i 40
    let offset ← add64 image.sectionTableOffset distance
    match ← parseSectionHeader data offset with
    | none => return none
    | some header =>
      let start := header.virtualAddress
      let last ← add64 start header.rawSize
      if rva ≥ start ∧ rva < last then
        let within ← sub64 rva start
        let found ← add64 within header.rawOffset
        return some found
      else rvaToFileOffsetFrom data image rva (i + 1) remaining

/-- Convert a virtual address to a file offset using section headers. -/
def rvaToFileOffset (data : List UInt8) (image : PeImage) (rva : Nat) :
    Except Panic (Option Nat) :=
  rvaToFileOffsetFrom data image rva 0 image.numSections

variable {data : List UInt8}

/-- `e_lfanew`. -/
def peOffset (data : List UInt8) : Nat := leAt data 0x3C 4

/-- Offset of the optional header. -/
def optOffset (data : List UInt8) : Nat := peOffset data + 24

/-- The optional header's magic. -/
def magic (data : List UInt8) : Nat := leAt data (optOffset data) 2

/-- The image base, 8 or 4 bytes by magic. -/
def imageBase (data : List UInt8) : Nat :=
  if magic data = 0x20B then leAt data (optOffset data + 24) 8 else leAt data (optOffset data + 28) 4

/-- `AddressOfEntryPoint`. -/
def entryRva (data : List UInt8) : Nat := leAt data (optOffset data + 16) 4

/-- The file passes the checks made before the optional header is read: both signatures, a
known machine and magic, and 8 bytes of optional header. -/
structure Recognised (data : List UInt8) : Prop where
  /-- The DOS header is there. -/
  dos : 0x40 ≤ data.length
  /-- It starts with `MZ`. -/
  mz : data.take 2 = [0x4D, 0x5A]
  /-- The COFF header and 8 bytes of optional header are there. -/
  coff : optOffset data + 8 ≤ data.length
  /-- The COFF header starts with `PE\0\0`. -/
  signature : (data.drop (peOffset data)).take 4 = [0x50, 0x45, 0, 0]
  /-- The machine is known. -/
  machine : (MachineType.ofRaw (leAt data (peOffset data + 4) 2)).isSome = true
  /-- The magic is PE32+ or PE32. -/
  magic : magic data = 0x20B ∨ magic data = 0x10B

/-- The checks are decided on the bytes. -/
instance (data : List UInt8) : Decidable (Recognised data) :=
  decidable_of_iff (0x40 ≤ data.length ∧ data.take 2 = [0x4D, 0x5A] ∧
      optOffset data + 8 ≤ data.length ∧
      (data.drop (peOffset data)).take 4 = [0x50, 0x45, 0, 0] ∧
      (MachineType.ofRaw (leAt data (peOffset data + 4) 2)).isSome = true ∧
      (magic data = 0x20B ∨ magic data = 0x10B))
    ⟨fun ⟨dos, mz, coff, signature, machine, magic⟩ => ⟨dos, mz, coff, signature, machine, magic⟩,
     fun checks => ⟨checks.dos, checks.mz, checks.coff, checks.signature, checks.machine,
      checks.magic⟩⟩

/-- `e_lfanew` has 32 bits. -/
theorem peOffset_lt (data : List UInt8) : peOffset data < 2 ^ 32 := leAt_lt data 0x3C 4

/-- The number of data directories is always read safely. -/
theorem parseNumDataDirectories_eq {optOffset : Nat} (small : optOffset < 2 ^ 33) :
    parseNumDataDirectories data optOffset =
      .ok (if optOffset + 0x70 ≤ data.length then leAt data (optOffset + 0x68) 4 else 0) := by
  have last : add64 optOffset (0x6C + 4) = .ok (optOffset + 0x70) :=
    add64_eq_ok.mpr ⟨by unfold wordSize; omega, rfl⟩
  simp only [parseNumDataDirectories, last, ok_bind]
  split
  · rename_i inside
    exact field_inside (by unfold wordSize; omega) (by omega)
  · rfl

/-- The image base read, with the layout's own bound. -/
theorem parseImageBase_eq {optOffset : Nat} (small : optOffset < 2 ^ 33)
    (inside : optOffset + 8 ≤ data.length) :
    parseImageBase data optOffset =
      if leAt data optOffset 2 = 0x20B then
        if optOffset + 32 ≤ data.length then .ok (some (leAt data (optOffset + 24) 8))
        else .error .outOfRange
      else if leAt data optOffset 2 = 0x10B then
        if optOffset + 32 ≤ data.length then .ok (some (leAt data (optOffset + 28) 4))
        else .error .outOfRange
      else .ok none := by
  have magic : field data optOffset 0 2 = .ok (leAt data optOffset 2) :=
    field_inside (by unfold wordSize; omega) (by omega)
  have wide := field_eq data 24 8 (show optOffset + (24 + 8) < wordSize by unfold wordSize; omega)
  have narrow := field_eq data 28 4 (show optOffset + (28 + 4) < wordSize by unfold wordSize; omega)
  simp only [parseImageBase, magic, ok_bind, wide, narrow]
  split
  · split
    · rfl
    · rfl
  · split
    · split
      · rfl
      · rfl
    · rfl

/-- What the optional header's fields amount to. -/
def optionalImage (data : List UInt8) (machine : MachineType) (numSections optHeaderSize : Nat)
    (isDll : Bool) : PeImage where
  machine := machine
  entryPoint := imageBase data + entryRva data
  imageBase := imageBase data
  imageSize := leAt data (optOffset data + 56) 4
  isDll := isDll
  numSections := numSections
  sectionTableOffset := optOffset data + optHeaderSize
  dataDirectoryOffset := optOffset data + 0x6C
  numDataDirectories :=
    if optOffset data + 0x70 ≤ data.length then leAt data (optOffset data + 0x68) 4 else 0

/-- The unchecked part in closed form: 60 bytes of optional header are read, and then the
entry point is added. -/
theorem parseOptional_eq (machine : MachineType) (numSections : Nat) {optHeaderSize : Nat}
    (isDll : Bool) (sizeSmall : optHeaderSize < 2 ^ 16) (inside : optOffset data + 8 ≤ data.length) :
    parseOptional data machine numSections optHeaderSize isDll (optOffset data) =
      if magic data = 0x20B ∨ magic data = 0x10B then
        if optOffset data + 60 ≤ data.length then
          if imageBase data + entryRva data < wordSize then
            .ok (some (optionalImage data machine numSections optHeaderSize isDll))
          else .error .overflow
        else .error .outOfRange
      else .ok none := by
  have small : optOffset data < 2 ^ 33 := by
    have := peOffset_lt data
    unfold optOffset
    omega
  have table : add64 (optOffset data) optHeaderSize = .ok (optOffset data + optHeaderSize) :=
    add64_eq_ok.mpr ⟨by unfold wordSize; omega, rfl⟩
  have directories : add64 (optOffset data) 0x6C = .ok (optOffset data + 0x6C) :=
    add64_eq_ok.mpr ⟨by unfold wordSize; omega, rfl⟩
  have entry := field_eq data 16 4
    (show optOffset data + (16 + 4) < wordSize by unfold wordSize; omega)
  have size := field_eq data 56 4
    (show optOffset data + (56 + 4) < wordSize by unfold wordSize; omega)
  have base : parseImageBase data (optOffset data) =
      if magic data = 0x20B ∨ magic data = 0x10B then
        if optOffset data + 32 ≤ data.length then .ok (some (imageBase data))
        else .error .outOfRange
      else .ok none := by
    rw [parseImageBase_eq small inside]
    simp only [magic, imageBase]
    by_cases wide : leAt data (optOffset data) 2 = 0x20B
    · simp only [wide, true_or, ↓reduceIte]
    · simp only [wide, false_or, ↓reduceIte]
  rw [parseOptional, base]
  by_cases known : magic data = 0x20B ∨ magic data = 0x10B
  · rw [if_pos known, if_pos known]
    by_cases wide : optOffset data + 32 ≤ data.length
    · rw [if_pos wide, ok_bind]
      dsimp only
      rw [entry, if_pos (by omega), ok_bind, size]
      by_cases whole : optOffset data + 60 ≤ data.length
      · rw [if_pos whole, if_pos (by omega), ok_bind, table, ok_bind,
          parseNumDataDirectories_eq small, ok_bind, directories, ok_bind, ← entryRva]
        unfold add64
        split
        · rfl
        · rfl
      · rw [if_neg whole, if_neg (by omega), error_bind]
    · rw [if_neg wide, if_neg (by omega), error_bind]
  · rw [if_neg known, if_neg known]
    rfl

/-- The image of a file that is read to the end. -/
def image (data : List UInt8) (machine : MachineType) : PeImage :=
  optionalImage data machine (leAt data (peOffset data + 6) 2) (leAt data (peOffset data + 20) 2)
    (leAt data (peOffset data + 22) 2 &&& 0x2000 ≠ 0)

/-- The checks of the signatures, then the machine, then the optional header. -/
theorem parsePe_eq (data : List UInt8) :
    parsePe data =
      if 0x40 ≤ data.length ∧ data.take 2 = [0x4D, 0x5A] ∧ peOffset data + 24 ≤ data.length ∧
          (data.drop (peOffset data)).take 4 = [0x50, 0x45, 0, 0] then
        match MachineType.ofRaw (leAt data (peOffset data + 4) 2) with
        | none => .ok none
        | some machine =>
          if optOffset data + 8 ≤ data.length then
            parseOptional data machine (leAt data (peOffset data + 6) 2)
              (leAt data (peOffset data + 20) 2) (leAt data (peOffset data + 22) 2 &&& 0x2000 ≠ 0)
              (optOffset data)
          else .ok none
      else .ok none := by
  have offsetSmall := peOffset_lt data
  have opt : add64 (peOffset data) 24 = .ok (optOffset data) :=
    add64_eq_ok.mpr ⟨by unfold wordSize; omega, rfl⟩
  have magicEnd : add64 (optOffset data) 8 = .ok (optOffset data + 8) :=
    add64_eq_ok.mpr ⟨by unfold optOffset wordSize; omega, rfl⟩
  have signatureEnd : add64 (peOffset data) 4 = .ok (peOffset data + 4) :=
    add64_eq_ok.mpr ⟨by unfold wordSize; omega, rfl⟩
  unfold parsePe
  by_cases dos : 0x40 ≤ data.length
  · have mzSlice : slice data 0 2 = .ok (data.take 2) := by
      rw [slice, if_pos ⟨by decide, by omega⟩]
      rfl
    have located : field data 0 0x3C 4 = .ok (peOffset data) :=
      field_inside (by decide) (by omega)
    rw [if_neg (by omega), mzSlice, ok_bind]
    by_cases mz : data.take 2 = [0x4D, 0x5A]
    · rw [if_neg (not_not.mpr mz), located, ok_bind, opt, ok_bind]
      by_cases coff : peOffset data + 24 ≤ data.length
      · have signatureSlice : slice data (peOffset data) (peOffset data + 4) =
            .ok ((data.drop (peOffset data)).take 4) := by
          rw [slice, if_pos ⟨by omega, by omega⟩, Nat.add_sub_cancel_left]
        have coffField (offset : Nat) (short : offset + 2 ≤ 24) :
            field data (peOffset data) offset 2 = .ok (leAt data (peOffset data + offset) 2) :=
          field_inside (by unfold wordSize; omega) (by omega)
        rw [if_neg (show ¬optOffset data > data.length by unfold optOffset; omega), signatureEnd,
          ok_bind, signatureSlice, ok_bind]
        by_cases signature : (data.drop (peOffset data)).take 4 = [0x50, 0x45, 0, 0]
        · rw [if_neg (not_not.mpr signature), if_pos ⟨dos, mz, coff, signature⟩,
            coffField 4 (by decide), ok_bind, coffField 6 (by decide), ok_bind,
            coffField 20 (by decide), ok_bind, coffField 22 (by decide), ok_bind]
          cases MachineType.ofRaw (leAt data (peOffset data + 4) 2) with
          | none => rfl
          | some machine =>
            dsimp only
            rw [ok_bind, magicEnd, ok_bind]
            by_cases inside : optOffset data + 8 ≤ data.length
            · rw [if_neg (by omega), if_pos inside]
            · rw [if_pos (by omega), if_neg inside]
              rfl
        · rw [if_pos signature, if_neg (fun checks => signature checks.2.2.2)]
          rfl
      · rw [if_pos (show optOffset data > data.length by unfold optOffset; omega),
          if_neg (fun checks => coff checks.2.2.1)]
        rfl
    · rw [if_pos mz, if_neg (fun checks => mz checks.2.1)]
      rfl
  · rw [if_pos (by omega), if_neg (fun checks => dos checks.1)]
    rfl

/-- A file that fails one of the checks is refused without a panic. -/
theorem parsePe_refused (unrecognised : ¬Recognised data) : parsePe data = .ok none := by
  rw [parsePe_eq]
  split
  · rename_i located
    obtain ⟨dos, mz, coff, signature⟩ := located
    cases machine : MachineType.ofRaw (leAt data (peOffset data + 4) 2) with
    | none => rfl
    | some kind =>
      dsimp only
      split
      · rename_i inside
        rw [parseOptional_eq _ _ _ (leAt_lt data _ 2) inside, if_neg]
        intro known
        exact unrecognised ⟨dos, mz, inside, signature, by rw [machine]; rfl, known⟩
      · rfl
  · rfl

/-- What `parse_pe` does with a file that passes the checks. -/
theorem parsePe_recognised (recognised : Recognised data) :
    ∃ machine, MachineType.ofRaw (leAt data (peOffset data + 4) 2) = some machine ∧
      parsePe data =
        if optOffset data + 60 ≤ data.length then
          if imageBase data + entryRva data < wordSize then .ok (some (image data machine))
          else .error .overflow
        else .error .outOfRange := by
  obtain ⟨dos, mz, coff, signature, known, magic⟩ := recognised
  obtain ⟨machine, raw⟩ := Option.isSome_iff_exists.mp known
  refine ⟨machine, raw, ?_⟩
  have coffInside : peOffset data + 24 ≤ data.length := by
    unfold optOffset at coff
    omega
  rw [parsePe_eq, if_pos ⟨dos, mz, coffInside, signature⟩, raw]
  dsimp only
  rw [if_pos coff, parseOptional_eq _ _ _ (leAt_lt data _ 2) coff, if_pos magic]
  rfl

/-- A header field that `parse_pe` needs lies past the end of the file. -/
def Truncated (data : List UInt8) : Prop :=
  data.length < 0x40 ∨ data.length < optOffset data + 60

/-- For every byte string, `parse_pe` returns, and returns `None` on a truncated header, if and
only if the file fails one of the early checks, or holds 60 bytes of optional header whose
image base and entry point add up within 64 bits. -/
theorem parsePe_total_iff (data : List UInt8) :
    ((∃ result, parsePe data = .ok result) ∧ (Truncated data → parsePe data = .ok none)) ↔
      (Recognised data →
        optOffset data + 60 ≤ data.length ∧ imageBase data + entryRva data < wordSize) := by
  by_cases recognised : Recognised data
  · obtain ⟨machine, _, outcome⟩ := parsePe_recognised recognised
    constructor
    · rintro ⟨⟨result, returned⟩, _⟩ _
      rw [outcome] at returned
      split at returned
      · rename_i whole
        split at returned
        · rename_i fits
          exact ⟨whole, fits⟩
        · cases returned
      · cases returned
    · intro condition
      obtain ⟨whole, fits⟩ := condition recognised
      rw [if_pos whole, if_pos fits] at outcome
      refine ⟨⟨_, outcome⟩, fun truncated => ?_⟩
      have dos := recognised.dos
      unfold Truncated at truncated
      omega
  · have refused := parsePe_refused recognised
    exact ⟨fun _ passes => absurd passes recognised, fun _ => ⟨⟨none, refused⟩, fun _ => refused⟩⟩

/-- A PE32+ header that ends 8 bytes into its optional header. -/
def shortHeader : List UInt8 :=
  [0x4D, 0x5A] ++ List.replicate 0x3A 0 ++ [0x40, 0, 0, 0] ++ [0x50, 0x45, 0, 0] ++
    [0x64, 0x86] ++ List.replicate 18 0 ++ [0x0B, 0x02] ++ List.replicate 6 0

/-- The short header is read past its end. -/
theorem parsePe_shortHeader :
    shortHeader.length = 96 ∧ Truncated shortHeader ∧
      parsePe shortHeader = .error .outOfRange := by
  refine ⟨by decide +kernel, .inr (by decide +kernel), ?_⟩
  have recognised : Recognised shortHeader := by decide +kernel
  obtain ⟨machine, _, outcome⟩ := parsePe_recognised recognised
  rw [outcome, if_neg (by decide +kernel)]

/-- A file that is parsed is read to the end. -/
theorem eq_image_of_parsed {result : PeImage} (parsed : parsePe data = .ok (some result)) :
    ∃ machine, result = image data machine := by
  by_cases recognised : Recognised data
  · obtain ⟨machine, _, outcome⟩ := parsePe_recognised recognised
    rw [parsed] at outcome
    split at outcome
    · split at outcome
      · exact ⟨machine, Option.some.inj (Except.ok.inj outcome)⟩
      · cases outcome
    · cases outcome
  · rw [parsePe_refused recognised] at parsed
    cases parsed

/-- Sizes and offsets of an image have the widths of their header fields. -/
theorem parsePe_bounds {result : PeImage} (parsed : parsePe data = .ok (some result)) :
    result.imageSize < 2 ^ 32 ∧ result.sectionTableOffset < 2 ^ 34 ∧ result.numSections < 2 ^ 16 ∧
      result.entryPoint - result.imageBase < 2 ^ 32 := by
  obtain ⟨machine, rfl⟩ := eq_image_of_parsed parsed
  have offset := peOffset_lt data
  have headerSize := leAt_lt data (peOffset data + 20) 2
  have rva := leAt_lt data (optOffset data + 16) 4
  simp only [image, optionalImage, entryRva, Nat.add_sub_cancel_left]
  refine ⟨leAt_lt data _ 4, ?_, leAt_lt data _ 2, rva⟩
  unfold optOffset
  omega

/-- The header at an offset, without the length check. -/
def sectionAt (data : List UInt8) (offset : Nat) : SectionHeader where
  name := (data.drop offset).take 8
  virtualSize := leAt data (offset + 8) 4
  virtualAddress := leAt data (offset + 12) 4
  rawSize := leAt data (offset + 16) 4
  rawOffset := leAt data (offset + 20) 4

/-- A section header is read exactly when all its 40 bytes are in the file. -/
theorem parseSectionHeader_eq {offset : Nat} (fits : offset + 40 < wordSize) :
    parseSectionHeader data offset =
      .ok (if offset + 40 ≤ data.length then some (sectionAt data offset) else none) := by
  have last : add64 offset 40 = .ok (offset + 40) := add64_eq_ok.mpr ⟨fits, rfl⟩
  have nameEnd : add64 offset 8 = .ok (offset + 8) := add64_eq_ok.mpr ⟨by omega, rfl⟩
  simp only [parseSectionHeader, last, ok_bind]
  by_cases inside : offset + 40 ≤ data.length
  · have name : slice data offset (offset + 8) = .ok ((data.drop offset).take 8) := by
      rw [slice, if_pos ⟨by omega, by omega⟩, Nat.add_sub_cancel_left]
    have word (at_ : Nat) (short : at_ + 4 ≤ 40) :
        field data offset at_ 4 = .ok (leAt data (offset + at_) 4) :=
      field_inside (by omega) (by omega)
    rw [if_neg (by omega), if_pos inside, nameEnd, ok_bind, name, ok_bind, word 8 (by decide),
      ok_bind, word 12 (by decide), ok_bind, word 16 (by decide), ok_bind, word 20 (by decide),
      ok_bind]
    rfl
  · rw [if_pos (by omega), if_neg inside]
    rfl

end Aperture.Pe
