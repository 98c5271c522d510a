import Aperture.Pe.Parser

/-!
# The PE file format

`PeFile` is a file laid out by the PE/COFF format, in either of the two optional header
layouts, and `PeFile.encode` writes it out. The fields that the parser does not read are
byte strings of their size, and the bytes behind each part are free. The parser is run on
the encoding: it returns the encoded header and every encoded section.
-/

namespace Aperture.Pe

open Machine

/-- A byte string of a fixed length. -/
abbrev Bytes (size : Nat) : Type := {bytes : List UInt8 // bytes.length = size}

/-- The header word of a machine. -/
def MachineType.raw : MachineType → Nat
  | .i386 => 0x014C
  | .amd64 => 0x8664
  | .arm64 => 0xAA64

/-- The machine of its own header word. -/
theorem MachineType.ofRaw_raw (machine : MachineType) : ofRaw machine.raw = some machine := by
  cases machine with
  | i386 => rfl
  | amd64 => rfl
  | arm64 => rfl

/-- A machine's header word has 16 bits. -/
theorem MachineType.raw_lt (machine : MachineType) : machine.raw < 256 ^ 2 := by
  cases machine with
  | i386 => decide
  | amd64 => decide
  | arm64 => decide

/-- What the two optional header layouts hold differently. -/
inductive OptionalLayout where
  /-- Magic 0x10B: 4-byte addresses, and the base of data. -/
  | pe32 (baseOfData imageBase : UInt32) (stackAndHeap : Bytes 16)
  /-- Magic 0x20B: 8-byte addresses. -/
  | pe32Plus (imageBase : UInt64) (stackAndHeap : Bytes 32)
  deriving DecidableEq, Repr

namespace OptionalLayout

/-- The layout's magic. -/
def magic : OptionalLayout → Nat
  | pe32 .. => 0x10B
  | pe32Plus .. => 0x20B

/-- The preferred load address. -/
def imageBase : OptionalLayout → Nat
  | pe32 _ imageBase _ => imageBase.toNat
  | pe32Plus imageBase _ => imageBase.toNat

/-- The 8 bytes from offset 24. -/
def baseBytes : OptionalLayout → List UInt8
  | pe32 baseOfData imageBase _ => leBytes 4 baseOfData.toNat ++ leBytes 4 imageBase.toNat
  | pe32Plus imageBase _ => leBytes 8 imageBase.toNat

/-- The reserved and committed sizes of stack and heap, from offset 72. -/
def stackAndHeap : OptionalLayout → List UInt8
  | pe32 _ _ sizes => sizes.val
  | pe32Plus _ sizes => sizes.val

/-- Offset of `LoaderFlags`, which `NumberOfRvaAndSizes` follows. -/
def loaderFlagsOffset : OptionalLayout → Nat
  | pe32 .. => 0x58
  | pe32Plus .. => 0x68

/-- Size of the fixed fields. -/
def fixedSize (layout : OptionalLayout) : Nat := layout.loaderFlagsOffset + 8

/-- The base takes 8 bytes in both layouts. -/
@[simp]
theorem length_baseBytes (layout : OptionalLayout) : layout.baseBytes.length = 8 := by
  cases layout with
  | pe32 => simp [baseBytes]
  | pe32Plus => simp [baseBytes]

/-- The sizes of stack and heap fill the bytes up to `LoaderFlags`. -/
@[simp]
theorem length_stackAndHeap (layout : OptionalLayout) :
    layout.stackAndHeap.length = layout.loaderFlagsOffset - 72 := by
  cases layout with
  | pe32 _ _ sizes => exact sizes.property
  | pe32Plus _ sizes => exact sizes.property

/-- `LoaderFlags` lies behind the common fields. -/
theorem loaderFlagsOffset_bounds (layout : OptionalLayout) :
    72 ≤ layout.loaderFlagsOffset ∧ layout.loaderFlagsOffset ≤ 0x68 := by
  cases layout with
  | pe32 => simp [loaderFlagsOffset]
  | pe32Plus => simp [loaderFlagsOffset]

/-- The magic has 16 bits. -/
theorem magic_lt (layout : OptionalLayout) : layout.magic < 256 ^ 2 := by
  cases layout with
  | pe32 => simp [magic]
  | pe32Plus => simp [magic]

end OptionalLayout

/-- A section header of a file. -/
structure FileSection where
  /-- Name. -/
  name : Bytes 8
  /-- `VirtualSize`. -/
  virtualSize : UInt32
  /-- `VirtualAddress`. -/
  virtualAddress : UInt32
  /-- `SizeOfRawData`. -/
  sizeOfRawData : UInt32
  /-- `PointerToRawData`. -/
  pointerToRawData : UInt32
  /-- Relocations, line numbers and characteristics. -/
  unread : Bytes 16
  deriving DecidableEq, Repr

namespace FileSection

/-- The 40 bytes of a section header. -/
def encode (sec : FileSection) : List UInt8 :=
  [sec.name.val, leBytes 4 sec.virtualSize.toNat, leBytes 4 sec.virtualAddress.toNat,
    leBytes 4 sec.sizeOfRawData.toNat, leBytes 4 sec.pointerToRawData.toNat,
    sec.unread.val].flatten

/-- What the parser keeps of a section header. -/
def header (sec : FileSection) : SectionHeader where
  name := sec.name.val
  virtualSize := sec.virtualSize.toNat
  virtualAddress := sec.virtualAddress.toNat
  rawSize := sec.sizeOfRawData.toNat
  rawOffset := sec.pointerToRawData.toNat

/-- A section header has 40 bytes. -/
@[simp]
theorem length_encode (sec : FileSection) : sec.encode.length = 40 := by
  simp [encode, sec.name.property, sec.unread.property]

end FileSection

/-- A file laid out by the PE/COFF format. -/
structure PeFile where
  /-- The DOS header between `MZ` and `e_lfanew`. -/
  dosFields : Bytes 58
  /-- The bytes between the DOS header and the PE signature. -/
  stub : List UInt8
  /-- `Machine`. -/
  machine : MachineType
  /-- Time stamp and symbol table of the COFF header. -/
  symbols : Bytes 12
  /-- `Characteristics`. -/
  characteristics : UInt16
  /-- The fields that depend on the layout. -/
  layout : OptionalLayout
  /-- Linker version and the sizes of code and data. -/
  sizes : Bytes 14
  /-- `AddressOfEntryPoint`. -/
  addressOfEntryPoint : UInt32
  /-- `BaseOfCode`. -/
  baseOfCode : UInt32
  /-- Alignments and versions. -/
  versions : Bytes 24
  /-- `SizeOfImage`. -/
  sizeOfImage : UInt32
  /-- Size of headers, checksum, subsystem and DLL characteristics. -/
  subsystem : Bytes 12
  /-- `LoaderFlags`. -/
  loaderFlags : UInt32
  /-- `NumberOfRvaAndSizes`. -/
  numberOfRvaAndSizes : UInt32
  /-- The optional header behind its fixed fields. -/
  optionalRest : List UInt8
  /-- The section table. -/
  sections : List FileSection
  /-- The bytes behind the section table. -/
  trailer : List UInt8
  /-- `e_lfanew` has 32 bits. -/
  stub_small : 0x40 + stub.length < 2 ^ 32
  /-- `SizeOfOptionalHeader` has 16 bits. -/
  optional_small : layout.fixedSize + optionalRest.length < 2 ^ 16
  /-- `NumberOfSections` has 16 bits. -/
  sections_small : sections.length < 2 ^ 16

namespace PeFile

/-- `e_lfanew`. -/
def lfanew (file : PeFile) : Nat := 0x40 + file.stub.length

/-- `SizeOfOptionalHeader`. -/
def sizeOfOptionalHeader (file : PeFile) : Nat :=
  file.layout.fixedSize + file.optionalRest.length

/-- The DOS header. -/
def dosHeader (file : PeFile) : List UInt8 :=
  [[0x4D, 0x5A], file.dosFields.val, leBytes 4 file.lfanew].flatten

/-- The PE signature and the COFF header. -/
def coffHeader (file : PeFile) : List UInt8 :=
  [[0x50, 0x45, 0, 0], leBytes 2 file.machine.raw, leBytes 2 file.sections.length,
    file.symbols.val, leBytes 2 file.sizeOfOptionalHeader,
    leBytes 2 file.characteristics.toNat].flatten

/-- The fixed fields of the optional header. -/
def fixedFields (file : PeFile) : List UInt8 :=
  [leBytes 2 file.layout.magic, file.sizes.val, leBytes 4 file.addressOfEntryPoint.toNat,
    leBytes 4 file.baseOfCode.toNat, file.layout.baseBytes, file.versions.val,
    leBytes 4 file.sizeOfImage.toNat, file.subsystem.val, file.layout.stackAndHeap,
    leBytes 4 file.loaderFlags.toNat, leBytes 4 file.numberOfRvaAndSizes.toNat].flatten

/-- The section table. -/
def sectionTable (file : PeFile) : List UInt8 := file.sections.flatMap FileSection.encode

/-- What follows the fixed fields: the rest of the optional header, the section table and the
rest of the file. -/
def afterFixed (file : PeFile) : List UInt8 :=
  file.optionalRest ++ (file.sectionTable ++ file.trailer)

/-- The bytes of the file. -/
def encode (file : PeFile) : List UInt8 :=
  file.dosHeader ++ (file.stub ++ (file.coffHeader ++ (file.fixedFields ++ file.afterFixed)))

variable (file : PeFile)

/-- The DOS header has 64 bytes. -/
@[simp]
theorem length_dosHeader : file.dosHeader.length = 0x40 := by
  simp [dosHeader, file.dosFields.property]

/-- Signature and COFF header have 24 bytes. -/
@[simp]
theorem length_coffHeader : file.coffHeader.length = 24 := by
  simp [coffHeader, file.symbols.property]

/-- The fixed fields end behind `NumberOfRvaAndSizes`. -/
@[simp]
theorem length_fixedFields : file.fixedFields.length = file.layout.fixedSize := by
  have bounds := file.layout.loaderFlagsOffset_bounds
  simp only [fixedFields, List.length_flatten, List.map_cons, List.map_nil, List.sum_cons,
    List.sum_nil, length_leBytes, file.sizes.property, OptionalLayout.length_baseBytes,
    file.versions.property, file.subsystem.property, OptionalLayout.length_stackAndHeap,
    OptionalLayout.fixedSize]
  omega

/-- Length of the file. -/
theorem length_encode :
    file.encode.length =
      file.lfanew + 24 + file.layout.fixedSize + file.afterFixed.length := by
  simp only [encode, List.length_append, length_dosHeader, length_coffHeader, length_fixedFields,
    lfanew]
  omega

/-! ## Where the parts lie -/

/-- The bytes from the PE signature on. -/
theorem drop_lfanew :
    file.encode.drop file.lfanew = file.coffHeader ++ (file.fixedFields ++ file.afterFixed) := by
  rw [encode, ← List.append_assoc]
  apply List.drop_left'
  rw [List.length_append, length_dosHeader, lfanew]

/-- The bytes from the optional header on. -/
theorem drop_optional :
    file.encode.drop (file.lfanew + 24) = file.fixedFields ++ file.afterFixed := by
  rw [← List.drop_drop, drop_lfanew]
  exact List.drop_left' file.length_coffHeader

/-- The bytes from the section table on. -/
theorem drop_sectionTable :
    file.encode.drop (file.lfanew + 24 + file.sizeOfOptionalHeader) =
      file.sectionTable ++ file.trailer := by
  rw [← List.drop_drop, drop_optional, sizeOfOptionalHeader, ← List.drop_drop,
    List.drop_left' file.length_fixedFields, afterFixed, List.drop_left]

/-- The bytes from a section header on. -/
theorem drop_section (i : Nat) (inside : i < file.sections.length) :
    file.encode.drop (file.lfanew + 24 + file.sizeOfOptionalHeader + 40 * i) =
      file.sections[i].encode ++
        ((file.sections.drop (i + 1)).flatMap FileSection.encode ++ file.trailer) := by
  have table := drop_flatMap FileSection.length_encode file.sections i
  have within : 40 * i ≤ file.sectionTable.length := by
    rw [sectionTable, length_flatMap_fixed FileSection.length_encode]
    omega
  rw [← List.drop_drop, drop_sectionTable, List.drop_append_of_le_length within, sectionTable,
    table, List.drop_eq_getElem_cons inside, List.flatMap_cons, List.append_assoc]

/-! ## Reading the fields back -/

/-- The parser finds the PE signature. -/
theorem peOffset_encode : peOffset file.encode = file.lfanew := by
  rw [peOffset, encode, leAt_append_left (by rw [length_dosHeader])]
  exact leAt_record [[0x4D, 0x5A], file.dosFields.val] file.stub_small
    (by simp [file.dosFields.property])

/-- The parser finds the optional header. -/
theorem optOffset_encode : optOffset file.encode = file.lfanew + 24 := by
  rw [optOffset, peOffset_encode]

/-- A number in the COFF header. -/
theorem leAt_coff {offset size : Nat} (inside : offset + size ≤ 24) :
    leAt file.encode (file.lfanew + offset) size = leAt file.coffHeader offset size := by
  rw [leAt_add, drop_lfanew, leAt_append_left (by rw [length_coffHeader]; exact inside)]

/-- A number in the fixed fields of the optional header. -/
theorem leAt_fixed {offset size : Nat} (inside : offset + size ≤ file.layout.fixedSize) :
    leAt file.encode (file.lfanew + 24 + offset) size = leAt file.fixedFields offset size := by
  rw [leAt_add, drop_optional, leAt_append_left (by rw [length_fixedFields]; exact inside)]

/-- The machine is read back. -/
theorem machine_encode :
    MachineType.ofRaw (leAt file.encode (file.lfanew + 4) 2) = some file.machine := by
  have read : leAt file.coffHeader 4 2 = file.machine.raw :=
    leAt_record [[0x50, 0x45, 0, 0]] file.machine.raw_lt rfl
  rw [leAt_coff file (by decide), read, MachineType.ofRaw_raw]

/-- The number of sections is read back. -/
theorem numSections_encode :
    leAt file.encode (file.lfanew + 6) 2 = file.sections.length := by
  rw [leAt_coff file (by decide)]
  exact leAt_record [[0x50, 0x45, 0, 0], leBytes 2 file.machine.raw] file.sections_small (by simp)

/-- The size of the optional header is read back. -/
theorem sizeOfOptionalHeader_encode :
    leAt file.encode (file.lfanew + 20) 2 = file.sizeOfOptionalHeader := by
  rw [leAt_coff file (by decide)]
  exact leAt_record [[0x50, 0x45, 0, 0], leBytes 2 file.machine.raw,
    leBytes 2 file.sections.length, file.symbols.val] file.optional_small
    (by simp [file.symbols.property])

/-- The characteristics are read back. -/
theorem characteristics_encode :
    leAt file.encode (file.lfanew + 22) 2 = file.characteristics.toNat := by
  rw [leAt_coff file (by decide)]
  exact leAt_record [[0x50, 0x45, 0, 0], leBytes 2 file.machine.raw,
    leBytes 2 file.sections.length, file.symbols.val, leBytes 2 file.sizeOfOptionalHeader]
    file.characteristics.toNat_lt (by simp [file.symbols.property])

/-- The magic is read back. -/
theorem magic_encode : magic file.encode = file.layout.magic := by
  have bounds := file.layout.loaderFlagsOffset_bounds
  rw [magic, optOffset_encode, ← Nat.add_zero (file.lfanew + 24),
    leAt_fixed file (by unfold OptionalLayout.fixedSize; omega)]
  exact leAt_record [] file.layout.magic_lt rfl

/-- The entry point is read back. -/
theorem entryRva_encode : entryRva file.encode = file.addressOfEntryPoint.toNat := by
  have bounds := file.layout.loaderFlagsOffset_bounds
  rw [entryRva, optOffset_encode, leAt_fixed file (by unfold OptionalLayout.fixedSize; omega)]
  exact leAt_record [leBytes 2 file.layout.magic, file.sizes.val]
    file.addressOfEntryPoint.toNat_lt (by simp [file.sizes.property])

/-- The size of the image is read back. -/
theorem sizeOfImage_encode :
    leAt file.encode (optOffset file.encode + 56) 4 = file.sizeOfImage.toNat := by
  have bounds := file.layout.loaderFlagsOffset_bounds
  rw [optOffset_encode, leAt_fixed file (by unfold OptionalLayout.fixedSize; omega)]
  exact leAt_record [leBytes 2 file.layout.magic, file.sizes.val,
    leBytes 4 file.addressOfEntryPoint.toNat, leBytes 4 file.baseOfCode.toNat,
    file.layout.baseBytes, file.versions.val] file.sizeOfImage.toNat_lt
    (by simp [file.sizes.property, file.versions.property])

/-- The image base is read back in either layout. -/
theorem imageBase_encode : imageBase file.encode = file.layout.imageBase := by
  have bounds := file.layout.loaderFlagsOffset_bounds
  rw [imageBase, magic_encode, optOffset_encode]
  cases layout : file.layout with
  | pe32 baseOfData base sizes =>
    have fields : file.fixedFields =
        ([leBytes 2 file.layout.magic, file.sizes.val, leBytes 4 file.addressOfEntryPoint.toNat,
          leBytes 4 file.baseOfCode.toNat, leBytes 4 baseOfData.toNat] ++
            leBytes 4 base.toNat :: [file.versions.val, leBytes 4 file.sizeOfImage.toNat,
              file.subsystem.val, file.layout.stackAndHeap, leBytes 4 file.loaderFlags.toNat,
              leBytes 4 file.numberOfRvaAndSizes.toNat]).flatten := by
      simp [fixedFields, layout, OptionalLayout.baseBytes]
    rw [if_neg (by simp [OptionalLayout.magic]),
      leAt_fixed file (by unfold OptionalLayout.fixedSize; omega), fields]
    exact leAt_record _ base.toNat_lt (by simp [file.sizes.property])
  | pe32Plus base sizes =>
    have fields : file.fixedFields =
        ([leBytes 2 file.layout.magic, file.sizes.val, leBytes 4 file.addressOfEntryPoint.toNat,
          leBytes 4 file.baseOfCode.toNat] ++
            leBytes 8 base.toNat :: [file.versions.val, leBytes 4 file.sizeOfImage.toNat,
              file.subsystem.val, file.layout.stackAndHeap, leBytes 4 file.loaderFlags.toNat,
              leBytes 4 file.numberOfRvaAndSizes.toNat]).flatten := by
      simp [fixedFields, layout, OptionalLayout.baseBytes]
    rw [if_pos (by simp [OptionalLayout.magic]),
      leAt_fixed file (by unfold OptionalLayout.fixedSize; omega), fields]
    exact leAt_record _ base.toNat_lt (by simp [file.sizes.property])

/-- A section header is read back. -/
theorem sectionAt_encode (i : Nat) (inside : i < file.sections.length) :
    sectionAt file.encode (file.lfanew + 24 + file.sizeOfOptionalHeader + 40 * i) =
      file.sections[i].header := by
  have located := file.drop_section i inside
  generalize file.lfanew + 24 + file.sizeOfOptionalHeader + 40 * i = offset at located ⊢
  generalize file.sections[i] = sec at located ⊢
  have name : (file.encode.drop offset).take 8 = sec.name.val := by
    rw [located, FileSection.encode, List.flatten_cons, List.append_assoc]
    exact List.take_left' sec.name.property
  have word (at_ : Nat) (short : at_ + 4 ≤ 40) :
      leAt file.encode (offset + at_) 4 = leAt sec.encode at_ 4 := by
    rw [leAt_add, located, leAt_append_left (by rw [FileSection.length_encode]; exact short)]
  have virtualSize : leAt sec.encode 8 4 = sec.virtualSize.toNat :=
    leAt_record [sec.name.val] sec.virtualSize.toNat_lt (by simp [sec.name.property])
  have virtualAddress : leAt sec.encode 12 4 = sec.virtualAddress.toNat :=
    leAt_record [sec.name.val, leBytes 4 sec.virtualSize.toNat] sec.virtualAddress.toNat_lt
      (by simp [sec.name.property])
  have rawSize : leAt sec.encode 16 4 = sec.sizeOfRawData.toNat :=
    leAt_record [sec.name.val, leBytes 4 sec.virtualSize.toNat, leBytes 4 sec.virtualAddress.toNat]
      sec.sizeOfRawData.toNat_lt (by simp [sec.name.property])
  have rawOffset : leAt sec.encode 20 4 = sec.pointerToRawData.toNat :=
    leAt_record [sec.name.val, leBytes 4 sec.virtualSize.toNat, leBytes 4 sec.virtualAddress.toNat,
      leBytes 4 sec.sizeOfRawData.toNat] sec.pointerToRawData.toNat_lt
      (by simp [sec.name.property])
  rw [sectionAt, name, word 8 (by decide), word 12 (by decide), word 16 (by decide),
    word 20 (by decide), virtualSize, virtualAddress, rawSize, rawOffset]
  rfl

/-! ## The parser on an encoded file -/

/-- Every encoded file passes the checks of the parser. -/
theorem recognised_encode : Recognised file.encode where
  dos := by
    rw [length_encode, lfanew]
    omega
  mz := by
    rw [encode, dosHeader, List.flatten_cons, List.append_assoc]
    rfl
  coff := by
    have bounds := file.layout.loaderFlagsOffset_bounds
    rw [length_encode, optOffset_encode, OptionalLayout.fixedSize]
    omega
  signature := by
    rw [peOffset_encode, drop_lfanew, coffHeader, List.flatten_cons, List.append_assoc]
    rfl
  machine := by
    rw [peOffset_encode, machine_encode]
    rfl
  magic := by
    rw [magic_encode]
    cases file.layout with
    | pe32 => exact .inr rfl
    | pe32Plus => exact .inl rfl

/-- The outcome on an encoded file depends on the sum of image base and entry point only. -/
theorem parsePe_encode_eq :
    parsePe file.encode =
      if file.layout.imageBase + file.addressOfEntryPoint.toNat < wordSize then
        .ok (some (image file.encode file.machine))
      else .error .overflow := by
  obtain ⟨machine, raw, outcome⟩ := parsePe_recognised file.recognised_encode
  have bounds := file.layout.loaderFlagsOffset_bounds
  have whole : optOffset file.encode + 60 ≤ file.encode.length := by
    rw [length_encode, optOffset_encode, OptionalLayout.fixedSize]
    omega
  rw [peOffset_encode, machine_encode] at raw
  obtain rfl := Option.some.inj raw
  rw [outcome, if_pos whole, imageBase_encode, entryRva_encode]

/-- Every file of the format whose image base and entry point add up within 64 bits is parsed:
the image has the encoded machine, image base, entry point, size, kind and number of sections,
and each section header is read back from its place in the section table. -/
theorem parsePe_encode
    (fits : file.layout.imageBase + file.addressOfEntryPoint.toNat < wordSize) :
    ∃ result, parsePe file.encode = .ok (some result) ∧
      result.machine = file.machine ∧
      result.imageBase = file.layout.imageBase ∧
      result.entryPoint = file.layout.imageBase + file.addressOfEntryPoint.toNat ∧
      result.imageSize = file.sizeOfImage.toNat ∧
      result.isDll = file.characteristics.toNat.testBit 13 ∧
      result.numSections = file.sections.length ∧
      ∀ (i : Nat) (inside : i < file.sections.length),
        parseSectionHeader file.encode (result.sectionTableOffset + 40 * i) =
          .ok (some file.sections[i].header) := by
  have parsed := file.parsePe_encode_eq
  rw [if_pos fits] at parsed
  refine ⟨_, parsed, rfl, file.imageBase_encode, ?_, file.sizeOfImage_encode, ?_, ?_, ?_⟩
  · change imageBase file.encode + entryRva file.encode = _
    rw [imageBase_encode, entryRva_encode]
  · change decide (leAt file.encode (peOffset file.encode + 22) 2 &&& 0x2000 ≠ 0) = _
    rw [peOffset_encode, characteristics_encode]
    change decide (_ &&& 2 ^ 13 ≠ 0) = _
    rw [Nat.and_two_pow]
    cases file.characteristics.toNat.testBit 13 with
    | false => rfl
    | true => rfl
  · change leAt file.encode (peOffset file.encode + 6) 2 = _
    rw [peOffset_encode, numSections_encode]
  · intro i inside
    have table : (image file.encode file.machine).sectionTableOffset =
        file.lfanew + 24 + file.sizeOfOptionalHeader := by
      change optOffset file.encode + leAt file.encode (peOffset file.encode + 20) 2 = _
      rw [optOffset_encode, peOffset_encode, sizeOfOptionalHeader_encode]
    have located : file.lfanew < 2 ^ 32 := file.stub_small
    have headerSmall : file.sizeOfOptionalHeader < 2 ^ 16 := file.optional_small
    have count := file.sections_small
    have tableLength : file.sectionTable.length = 40 * file.sections.length :=
      length_flatMap_fixed FileSection.length_encode file.sections
    have inFile : file.lfanew + 24 + file.sizeOfOptionalHeader + 40 * i + 40 ≤
        file.encode.length := by
      simp only [length_encode, afterFixed, List.length_append, sizeOfOptionalHeader, tableLength]
      omega
    rw [table, parseSectionHeader_eq (by unfold wordSize; omega), if_pos inFile,
      sectionAt_encode file i inside]

end PeFile

/-! ## The minimal executable -/

/-- `build_pe`: a PE32+ executable with one section, padded up to the text. -/
def buildPe (text : List UInt8) : PeFile where
  dosFields := ⟨List.replicate 58 0, by decide⟩
  stub := []
  machine := .amd64
  symbols := ⟨List.replicate 12 0, by decide⟩
  characteristics := 0x22
  layout := .pe32Plus 0x140000000
    ⟨leBytes 8 0x100000 ++ leBytes 8 0x1000 ++ leBytes 8 0x100000 ++ leBytes 8 0x1000, by decide⟩
  sizes := ⟨[0, 0] ++ leBytes 4 512 ++ leBytes 4 0 ++ leBytes 4 0, by decide⟩
  addressOfEntryPoint := 0x1000
  baseOfCode := 0x1000
  versions := ⟨leBytes 4 0x1000 ++ leBytes 4 0x200 ++ leBytes 2 6 ++ leBytes 2 0 ++ leBytes 2 0 ++
    leBytes 2 0 ++ leBytes 2 6 ++ leBytes 2 0 ++ leBytes 4 0, by decide⟩
  sizeOfImage := 0x2000
  subsystem := ⟨leBytes 4 0x200 ++ leBytes 4 0 ++ leBytes 2 1 ++ leBytes 2 0, by decide⟩
  loaderFlags := 0
  numberOfRvaAndSizes := 16
  optionalRest := List.replicate (16 * 8) 0
  sections := [{
    name := ⟨[0x2E, 0x74, 0x65, 0x78, 0x74, 0, 0, 0], by decide⟩
    virtualSize := 0x1000
    virtualAddress := 0x1000
    sizeOfRawData := 512
    pointerToRawData := 0x200
    unread := ⟨leBytes 4 0 ++ leBytes 4 0 ++ leBytes 2 0 ++ leBytes 2 0 ++ leBytes 4 0x60000020,
      by decide⟩ }]
  trailer := List.replicate (0x200 - 0x170) 0 ++ text
  stub_small := by decide
  optional_small := by decide
  sections_small := by decide

/-- The minimal executable is parsed, and its section found. -/
theorem parsePe_buildPe :
    ∃ result, parsePe (buildPe []).encode = .ok (some result) ∧
      result.machine = .amd64 ∧ result.imageBase = 0x140000000 ∧
      result.entryPoint = 0x140001000 ∧ result.imageSize = 0x2000 ∧ result.isDll = false ∧
      result.numSections = 1 ∧
      parseSectionHeader (buildPe []).encode result.sectionTableOffset =
        .ok (some ⟨[0x2E, 0x74, 0x65, 0x78, 0x74, 0, 0, 0], 0x1000, 0x1000, 512, 0x200⟩) := by
  obtain ⟨result, parsed, machine, base, entry, size, kind, count, sections⟩ :=
    (buildPe []).parsePe_encode (by decide)
  exact ⟨result, parsed, machine, base, entry, size, kind, count, sections 0 (by decide)⟩

end Aperture.Pe
