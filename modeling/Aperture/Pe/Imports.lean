import Aperture.Machine.Slots
import Aperture.Machine.Text
import Aperture.Pe.Parser

/-!
# Import accessors

The accessors of a parsed image find their bytes through the section table. An import directory that
no section backs is read from the start of the file instead, two of a descriptor's three fields are
taken for each other, and a string is cut out of the file wherever its section says it starts.
-/

namespace Aperture.Pe

open Machine

/-- Import directory descriptor. -/
structure ImportDescriptor where
  /-- Import name table. -/
  intRva : Nat
  /-- Import address table. -/
  iatRva : Nat
  /-- Name of the library. -/
  nameRva : Nat
  deriving DecidableEq, Repr

/-- `MAX_IMPORT_DESCRIPTORS`. -/
def maxImportDescriptors : Nat := 32

/-- `MAX_IMPORT_THUNKS`. -/
def maxImportThunks : Nat := 64

/-- One round of the loop over import descriptors; `none` leaves the loop. -/
def importDescriptor (data : List UInt8) (dirOffset i : Nat) :
    Except Panic (Option ImportDescriptor) := do
  let distance ← mul64 i 20
  let entryOffset ← add64 dirOffset distance
  let entryEnd ← add64 entryOffset 20
  if entryEnd > data.length then return none
  let intRva ← field data entryOffset 0 4
  let iatRva ← field data entryOffset 12 4
  let nameRva ← field data entryOffset 16 4
  if intRva = 0 ∧ iatRva = 0 ∧ nameRva = 0 then return none
  return some { intRva, iatRva, nameRva }

/-- Parse the import directory and return its slots. -/
def parseImportDirectory (data : List UInt8) (image : PeImage) :
    Except Panic (List (Option ImportDescriptor)) := do
  let out := List.replicate maxImportDescriptors none
  match ← dataDirectory data image 1 with
  | none => return out
  | some dir =>
    if dir.rva = 0 ∨ dir.size = 0 then return out
    let dirOffset ← rvaToFileOffset data image dir.rva
    fillSlots (importDescriptor data (dirOffset.getD 0)) 0 maxImportDescriptors

/-- One round of the loop over import thunks. -/
def importThunk (data : List UInt8) (offset i : Nat) : Except Panic (Option Nat) := do
  let distance ← mul64 i 8
  let entryOffset ← add64 offset distance
  let entryEnd ← add64 entryOffset 8
  if entryEnd > data.length then return none
  let value ← field data entryOffset 0 8
  if value = 0 then return none
  return some value

/-- Parse the import thunks at an offset of the image. -/
def parseImportThunks (data : List UInt8) (image : PeImage) (rva : Nat) :
    Except Panic (List (Option Nat)) := do
  let out := List.replicate maxImportThunks none
  match ← rvaToFileOffset data image rva with
  | none => return out
  | some offset => fillSlots (importThunk data offset) 0 maxImportThunks

/-- The loop over the bytes of a string, on the data from `offset + len` on. -/
def stringLength (offset : Nat) : List UInt8 → Nat → Except Panic Nat
  | [], len => do
    let _ ← add64 offset len
    return len
  | byte :: rest, len => do
    let _ ← add64 offset len
    if byte ≠ 0 then stringLength offset rest (len + 1) else return len

/-- Read a null-terminated string at an offset of the image. -/
def readRvaString (data : List UInt8) (image : PeImage) (rva : Nat) :
    Except Panic (Option (List UInt8)) := do
  match ← rvaToFileOffset data image rva with
  | none => return none
  | some offset =>
    let len ← stringLength offset (data.drop offset) 0
    let last ← add64 offset len
    let text ← slice data offset last
    return if validUtf8 text then some text else none

variable {data : List UInt8} {image : PeImage} {rva offset i : Nat}

/-! ## Rounds -/

/-- The descriptor at an offset, as the parser reads it. -/
def descriptorAt (data : List UInt8) (offset : Nat) : ImportDescriptor where
  intRva := leAt data offset 4
  iatRva := leAt data (offset + 12) 4
  nameRva := leAt data (offset + 16) 4

/-- A descriptor without a field ends the directory. -/
def ImportDescriptor.isTerminator (descriptor : ImportDescriptor) : Bool :=
  descriptor = ⟨0, 0, 0⟩

/-- A round returns the descriptor at its place in the directory, unless that is a terminator or
ends behind the file. -/
theorem importDescriptor_eq (fits : offset + i * 20 + 20 < wordSize) :
    importDescriptor data offset i =
      .ok (if offset + i * 20 + 20 ≤ data.length ∧
            (descriptorAt data (offset + i * 20)).isTerminator = false then
          some (descriptorAt data (offset + i * 20)) else none) := by
  have distance : mul64 i 20 = .ok (i * 20) := mul64_eq_ok.mpr ⟨by omega, rfl⟩
  have entryOffset : add64 offset (i * 20) = .ok (offset + i * 20) :=
    add64_eq_ok.mpr ⟨by omega, rfl⟩
  have entryEnd : add64 (offset + i * 20) 20 = .ok (offset + i * 20 + 20) :=
    add64_eq_ok.mpr ⟨fits, rfl⟩
  simp only [importDescriptor, distance, ok_bind, entryOffset, entryEnd]
  by_cases inside : offset + i * 20 + 20 ≤ data.length
  · have word (at_ : Nat) (short : at_ + 4 ≤ 20) :
        field data (offset + i * 20) at_ 4 = .ok (leAt data (offset + i * 20 + at_) 4) :=
      field_inside (by omega) (by omega)
    rw [if_neg (by omega), word 0 (by decide), ok_bind, word 12 (by decide), ok_bind,
      word 16 (by decide), ok_bind, Nat.add_zero]
    simp only [ImportDescriptor.isTerminator, descriptorAt, ImportDescriptor.mk.injEq, inside,
      true_and, decide_eq_false_iff_not]
    split
    · rfl
    · rfl
  · rw [if_pos (by omega), if_neg fun both => inside both.1]
    rfl

/-- A round over thunks returns. -/
theorem importThunk_returns (fits : offset + i * 8 + 8 < wordSize) :
    ∃ found, importThunk data offset i = .ok found := by
  have distance : mul64 i 8 = .ok (i * 8) := mul64_eq_ok.mpr ⟨by omega, rfl⟩
  have entryOffset : add64 offset (i * 8) = .ok (offset + i * 8) :=
    add64_eq_ok.mpr ⟨by omega, rfl⟩
  have entryEnd : add64 (offset + i * 8) 8 = .ok (offset + i * 8 + 8) :=
    add64_eq_ok.mpr ⟨fits, rfl⟩
  simp only [importThunk, distance, ok_bind, entryOffset, entryEnd]
  by_cases inside : offset + i * 8 + 8 ≤ data.length
  · have value : field data (offset + i * 8) 0 8 = .ok (leAt data (offset + i * 8 + 0) 8) :=
      field_inside (by omega) (by omega)
    rw [if_neg (by omega), value, ok_bind]
    split
    · exact ⟨_, rfl⟩
    · exact ⟨_, rfl⟩
  · rw [if_pos (by omega)]
    exact ⟨_, rfl⟩

/-! ## Accesses -/

/-- The data directories of a parsed image start below 2^34. -/
theorem dataDirectoryOffset_lt (parsed : parsePe data = .ok (some image)) :
    image.dataDirectoryOffset < 2 ^ 34 := by
  obtain ⟨machine, rfl⟩ := eq_image_of_parsed parsed
  have offset := peOffset_lt data
  simp only [Pe.image, optionalImage, optOffset]
  omega

/-- The search for a section returns, with an offset below 2^33 if any. -/
theorem rvaToFileOffsetFrom_returns (table : image.sectionTableOffset < 2 ^ 34) (rva : Nat)
    {remaining : Nat} (count : i + remaining ≤ 2 ^ 16) :
    ∃ result, rvaToFileOffsetFrom data image rva i remaining = .ok result ∧
      ∀ found, result = some found → found < 2 ^ 33 := by
  induction remaining generalizing i with
  | zero => exact ⟨none, rfl, fun found none => nomatch none⟩
  | succ remaining ih =>
    have product : mul64 i 40 = .ok (i * 40) := mul64_eq_ok.mpr ⟨by unfold wordSize; omega, rfl⟩
    have sum : add64 image.sectionTableOffset (i * 40) = .ok (image.sectionTableOffset + i * 40) :=
      add64_eq_ok.mpr ⟨by unfold wordSize; omega, rfl⟩
    rw [rvaToFileOffsetFrom, product, ok_bind, sum, ok_bind,
      parseSectionHeader_eq (by unfold wordSize; omega), ok_bind]
    by_cases inside : image.sectionTableOffset + i * 40 + 40 ≤ data.length
    · rw [if_pos inside]
      dsimp only
      have address := leAt_lt data (image.sectionTableOffset + i * 40 + 12) 4
      have size := leAt_lt data (image.sectionTableOffset + i * 40 + 16) 4
      have raw := leAt_lt data (image.sectionTableOffset + i * 40 + 20) 4
      unfold sectionAt
      dsimp only
      generalize leAt data (image.sectionTableOffset + i * 40 + 12) 4 = start at *
      generalize leAt data (image.sectionTableOffset + i * 40 + 16) 4 = rawSize at *
      generalize leAt data (image.sectionTableOffset + i * 40 + 20) 4 = rawOffset at *
      have last : add64 start rawSize = .ok (start + rawSize) :=
        add64_eq_ok.mpr ⟨by unfold wordSize; omega, rfl⟩
      rw [last, ok_bind]
      by_cases covers : rva ≥ start ∧ rva < start + rawSize
      · have within : sub64 rva start = .ok (rva - start) := sub64_eq_ok.mpr ⟨covers.1, rfl⟩
        have total : add64 (rva - start) rawOffset = .ok (rva - start + rawOffset) :=
          add64_eq_ok.mpr ⟨by unfold wordSize; omega, rfl⟩
        rw [if_pos covers, within, ok_bind, total, ok_bind]
        refine ⟨_, rfl, fun found same => ?_⟩
        obtain rfl := Option.some.inj same
        omega
      · rw [if_neg covers]
        exact ih (by omega)
    · rw [if_neg inside]
      exact ⟨none, rfl, fun found none => nomatch none⟩

/-- So does the conversion of an offset of a parsed image. -/
theorem rvaToFileOffset_returns (parsed : parsePe data = .ok (some image)) (rva : Nat) :
    ∃ result, rvaToFileOffset data image rva = .ok result ∧
      ∀ found, result = some found → found < 2 ^ 33 := by
  obtain ⟨_, table, count, _⟩ := parsePe_bounds parsed
  exact rvaToFileOffsetFrom_returns table rva (by omega)

/-- A directory is looked up exactly when its index is refused or its place does not overflow. -/
theorem dataDirectory_returns_iff (index : Nat) :
    (∃ result, dataDirectory data image index = .ok result) ↔
      index % 2 ^ 32 ≥ image.numDataDirectories ∨
        image.dataDirectoryOffset + index * 8 + 8 < wordSize := by
  unfold dataDirectory
  by_cases refused : index % 2 ^ 32 ≥ image.numDataDirectories
  · rw [if_pos refused]
    exact iff_of_true ⟨none, rfl⟩ (.inl refused)
  rw [if_neg refused]
  constructor
  · rintro ⟨result, returned⟩
    obtain ⟨distance, product, returned⟩ := bind_eq_ok.mp returned
    obtain ⟨offset, sum, returned⟩ := bind_eq_ok.mp returned
    obtain ⟨entryEnd, last, returned⟩ := bind_eq_ok.mp returned
    obtain ⟨_, rfl⟩ := mul64_eq_ok.mp product
    obtain ⟨_, rfl⟩ := add64_eq_ok.mp sum
    exact .inr (add64_eq_ok.mp last).1
  · rintro (other | fits)
    · exact absurd other refused
    have product : mul64 index 8 = .ok (index * 8) := mul64_eq_ok.mpr ⟨by omega, rfl⟩
    have sum : add64 image.dataDirectoryOffset (index * 8) =
        .ok (image.dataDirectoryOffset + index * 8) := add64_eq_ok.mpr ⟨by omega, rfl⟩
    have last : add64 (image.dataDirectoryOffset + index * 8) 8 =
        .ok (image.dataDirectoryOffset + index * 8 + 8) := add64_eq_ok.mpr ⟨fits, rfl⟩
    rw [product, ok_bind, sum, ok_bind, last, ok_bind]
    by_cases inside : image.dataDirectoryOffset + index * 8 + 8 ≤ data.length
    · have word (at_ : Nat) (short : at_ + 4 ≤ 8) :
          field data (image.dataDirectoryOffset + index * 8) at_ 4 =
            .ok (leAt data (image.dataDirectoryOffset + index * 8 + at_) 4) :=
        field_inside (by omega) (by omega)
      rw [if_neg (by omega), word 0 (by decide), ok_bind, word 4 (by decide), ok_bind]
      exact ⟨_, rfl⟩
    · rw [if_pos (by omega)]
      exact ⟨none, rfl⟩

/-- The loop over a string stops inside the data. -/
theorem stringLength_returns {rest : List UInt8} {len : Nat}
    (fits : offset + len + rest.length < wordSize) :
    ∃ total, stringLength offset rest len = .ok total ∧ total ≤ len + rest.length := by
  induction rest generalizing len with
  | nil =>
    have sum : add64 offset len = .ok (offset + len) := add64_eq_ok.mpr ⟨fits, rfl⟩
    rw [stringLength, sum]
    exact ⟨len, rfl, Nat.le_refl _⟩
  | cons byte rest ih =>
    rw [List.length_cons] at fits ⊢
    have sum : add64 offset len = .ok (offset + len) := add64_eq_ok.mpr ⟨by omega, rfl⟩
    rw [stringLength, sum, ok_bind]
    by_cases nonzero : byte ≠ 0
    · obtain ⟨total, returned, inside⟩ := @ih (len + 1) (by omega)
      rw [if_pos nonzero]
      exact ⟨total, returned, by omega⟩
    · rw [if_neg nonzero]
      exact ⟨len, rfl, by omega⟩

/-- A string is read exactly when it does not start behind the file. -/
theorem readRvaString_returns_iff (small : data.length < wordSize) (near : offset < 2 ^ 33)
    (located : rvaToFileOffset data image rva = .ok (some offset)) :
    (∃ result, readRvaString data image rva = .ok result) ↔ offset ≤ data.length := by
  rw [readRvaString, located, ok_bind]
  dsimp only
  by_cases inside : offset ≤ data.length
  · have behind : (data.drop offset).length = data.length - offset := List.length_drop
    obtain ⟨len, counted, short⟩ := @stringLength_returns offset (data.drop offset) 0 (by omega)
    have last : add64 offset len = .ok (offset + len) := add64_eq_ok.mpr ⟨by omega, rfl⟩
    have there : offset ≤ offset + len ∧ offset + len ≤ data.length := by omega
    rw [counted, ok_bind, last, ok_bind, slice, if_pos there, ok_bind]
    exact iff_of_true ⟨_, rfl⟩ inside
  · have empty : data.drop offset = [] := List.drop_eq_nil_of_le (by omega)
    have start : add64 offset 0 = .ok offset := add64_eq_ok.mpr ⟨by unfold wordSize; omega, rfl⟩
    have outside : ¬ (offset ≤ offset ∧ offset ≤ data.length) := fun both => inside both.2
    rw [empty, stringLength, start, ok_bind, pure_bind, start, ok_bind, slice, if_neg outside]
    refine iff_of_false ?_ inside
    rintro ⟨result, returned⟩
    cases returned

/-- The import directory of a parsed image is parsed. -/
theorem parseImportDirectory_returns (parsed : parsePe data = .ok (some image)) :
    ∃ slots, parseImportDirectory data image = .ok slots := by
  have directories := dataDirectoryOffset_lt parsed
  obtain ⟨found, lookedUp⟩ := (dataDirectory_returns_iff 1).mpr
    (.inr (show image.dataDirectoryOffset + 1 * 8 + 8 < wordSize by unfold wordSize; omega))
  rw [parseImportDirectory, lookedUp, ok_bind]
  cases found with
  | none => exact ⟨_, rfl⟩
  | some dir =>
    dsimp only
    by_cases empty : dir.rva = 0 ∨ dir.size = 0
    · rw [if_pos empty]
      exact ⟨_, rfl⟩
    · obtain ⟨result, located, bound⟩ := rvaToFileOffset_returns parsed dir.rva
      have near : result.getD 0 < 2 ^ 33 := by
        cases result with
        | none => decide
        | some offset => exact bound offset rfl
      rw [if_neg empty, located, ok_bind]
      apply fillSlots_returns
      intro k below
      unfold maxImportDescriptors at below
      exact ⟨_, importDescriptor_eq (by unfold wordSize; omega)⟩

/-- So are import thunks. -/
theorem parseImportThunks_returns (parsed : parsePe data = .ok (some image)) (rva : Nat) :
    ∃ slots, parseImportThunks data image rva = .ok slots := by
  obtain ⟨result, located, bound⟩ := rvaToFileOffset_returns parsed rva
  rw [parseImportThunks, located, ok_bind]
  cases result with
  | none => exact ⟨_, rfl⟩
  | some offset =>
    have near := bound offset rfl
    apply fillSlots_returns
    intro k below
    unfold maxImportThunks at below
    exact importThunk_returns (by unfold wordSize; omega)

/-- A section header is parsed exactly when its end does not overflow. -/
theorem parseSectionHeader_returns_iff :
    (∃ result, parseSectionHeader data offset = .ok result) ↔ offset + 40 < wordSize := by
  constructor
  · rintro ⟨result, returned⟩
    obtain ⟨headerEnd, last, _⟩ := bind_eq_ok.mp returned
    exact (add64_eq_ok.mp last).1
  · intro fits
    exact ⟨_, parseSectionHeader_eq fits⟩

/-- For every parsed image, and every index, offset of the image and offset of the file: the
accessors return exactly when the entry of the directory does not lie past the last address, no
section has the offset of the image behind the file, and the header does not end past the last
address. -/
theorem accessors_return_iff (small : data.length < wordSize)
    (parsed : parsePe data = .ok (some image)) (index rva offset : Nat) :
    ((∃ result, dataDirectory data image index = .ok result) ∧
        (∃ slots, parseImportDirectory data image = .ok slots) ∧
        (∃ slots, parseImportThunks data image rva = .ok slots) ∧
        (∃ result, readRvaString data image rva = .ok result) ∧
        ∃ result, parseSectionHeader data offset = .ok result) ↔
      (index % 2 ^ 32 ≥ image.numDataDirectories ∨
          image.dataDirectoryOffset + index * 8 + 8 < wordSize) ∧
        (∀ found, rvaToFileOffset data image rva = .ok (some found) → found ≤ data.length) ∧
        offset + 40 < wordSize := by
  have string : (∃ result, readRvaString data image rva = .ok result) ↔
      ∀ found, rvaToFileOffset data image rva = .ok (some found) → found ≤ data.length := by
    obtain ⟨result, located, bound⟩ := rvaToFileOffset_returns parsed rva
    cases result with
    | none =>
      refine iff_of_true ⟨none, ?_⟩ fun found there => ?_
      · rw [readRvaString, located]
        rfl
      · rw [located] at there
        cases there
    | some found =>
      rw [readRvaString_returns_iff small (bound found rfl) located]
      constructor
      · intro inside other there
        rw [located] at there
        obtain rfl := Option.some.inj (Except.ok.inj there)
        exact inside
      · intro each
        exact each found located
  rw [dataDirectory_returns_iff, string, parseSectionHeader_returns_iff]
  constructor
  · rintro ⟨directory, _, _, inside, header⟩
    exact ⟨directory, inside, header⟩
  · rintro ⟨directory, inside, header⟩
    exact ⟨directory, parseImportDirectory_returns parsed, parseImportThunks_returns parsed rva,
      inside, header⟩

/-- The headers of a file with sixteen directories and one section, up to its section table, which
lies over the directories but the first half of the first one. -/
def smallHeaders : List UInt8 :=
  [0x4D, 0x5A] ++ List.replicate 0x3A 0 ++ [0x40, 0, 0, 0] ++ [0x50, 0x45, 0, 0] ++
    [0x64, 0x86, 1, 0] ++ List.replicate 12 0 ++ [0x70, 0, 0, 0] ++
    [0x0B, 0x02] ++ List.replicate 0x66 0 ++ [16, 0, 0, 0] ++ List.replicate 4 0

/-- Such a file whose section has its raw data at 0x10000, behind the file. -/
def outsideFile : List UInt8 :=
  smallHeaders ++ List.replicate 12 0 ++ [0, 0x10, 0, 0] ++ [0, 0x10, 0, 0] ++ [0, 0, 1, 0] ++
    List.replicate 16 0

/-- What the parser makes of such headers. -/
def smallImage : PeImage where
  machine := .amd64
  entryPoint := 0
  imageBase := 0
  imageSize := 0
  isDll := false
  numSections := 1
  sectionTableOffset := 200
  dataDirectoryOffset := 196
  numDataDirectories := 16

/-- The accessors return on this file for the import directory, and where it has no section. -/
theorem accessors_return_iff_outsideFile :
    (∃ result, dataDirectory outsideFile smallImage 1 = .ok result) ∧
      (∃ slots, parseImportDirectory outsideFile smallImage = .ok slots) ∧
      (∃ slots, parseImportThunks outsideFile smallImage 0 = .ok slots) ∧
      (∃ result, readRvaString outsideFile smallImage 0 = .ok result) ∧
      ∃ result, parseSectionHeader outsideFile 200 = .ok result := by
  have parsed : parsePe outsideFile = .ok (some smallImage) := by decide +kernel
  have nowhere : rvaToFileOffset outsideFile smallImage 0 = .ok none := by decide +kernel
  refine (accessors_return_iff (by decide +kernel) parsed 1 0 200).mpr
    ⟨.inr (by decide), ?_, by decide⟩
  intro found there
  rw [nowhere] at there
  cases there

/-- The index 2^61 overflows, and a string of the section is cut out behind the file. -/
theorem accessors_counterexample :
    parsePe outsideFile = .ok (some smallImage) ∧
      dataDirectory outsideFile smallImage (2 ^ 61) = .error .overflow ∧
      readRvaString outsideFile smallImage 0x1000 = .error .outOfRange := by
  refine ⟨by decide +kernel, by decide +kernel, by decide +kernel⟩

end Aperture.Pe
