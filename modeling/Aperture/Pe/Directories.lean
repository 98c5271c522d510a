import Aperture.Pe.Format

/-!
# Data directories

The format puts the number of data directories behind `LoaderFlags` and the directories
behind that number. The parser reads the number 4 bytes earlier than PE32+ does and 12 bytes
later than PE32 does, and it compares an index as a 32-bit number before it multiplies it.
-/

namespace Aperture.Pe

open Machine

/-- A data directory of a file. -/
structure FileDirectory where
  /-- `VirtualAddress`. -/
  virtualAddress : UInt32
  /-- `Size`. -/
  size : UInt32
  deriving DecidableEq, Repr

namespace FileDirectory

/-- The 8 bytes of a data directory. -/
def encode (directory : FileDirectory) : List UInt8 :=
  [leBytes 4 directory.virtualAddress.toNat, leBytes 4 directory.size.toNat].flatten

/-- What a reader of the directory is to return. -/
def entry (directory : FileDirectory) : DataDirectory where
  rva := directory.virtualAddress.toNat
  size := directory.size.toNat

end FileDirectory

/-- A file of the format with its data directories, which follow the fixed fields. -/
structure DirectoryFile where
  /-- The file. -/
  file : PeFile
  /-- Its data directories. -/
  directories : List FileDirectory
  /-- The file says how many there are. -/
  count : file.numberOfRvaAndSizes.toNat = directories.length
  /-- They lie in the file, behind the fixed fields. -/
  placed : directories.flatMap FileDirectory.encode <+: file.afterFixed

namespace PeFile

/-- Where the parser looks for the number of directories there is a zero, or the file ends before:
`LoaderFlags` in PE32+, and the bytes at 8 behind the fixed fields in PE32. -/
def CountClear (file : PeFile) : Prop :=
  match file.layout with
  | .pe32Plus .. => file.loaderFlags = 0
  | .pe32 .. => 16 ≤ file.afterFixed.length → leAt file.afterFixed 8 4 = 0

variable (file : PeFile)

/-- `LoaderFlags` is read back at its offset. -/
theorem loaderFlags_encode :
    leAt file.fixedFields file.layout.loaderFlagsOffset 4 = file.loaderFlags.toNat := by
  have bounds := file.layout.loaderFlagsOffset_bounds
  apply leAt_record [leBytes 2 file.layout.magic, file.sizes.val,
    leBytes 4 file.addressOfEntryPoint.toNat, leBytes 4 file.baseOfCode.toNat,
    file.layout.baseBytes, file.versions.val, leBytes 4 file.sizeOfImage.toNat,
    file.subsystem.val, file.layout.stackAndHeap] file.loaderFlags.toNat_lt
  simp only [List.map_cons, List.map_nil, List.sum_cons, List.sum_nil, length_leBytes,
    file.sizes.property, OptionalLayout.length_baseBytes, file.versions.property,
    file.subsystem.property, OptionalLayout.length_stackAndHeap]
  omega

/-- The parser finds no directories exactly when it finds a zero in the wrong place. -/
theorem numDataDirectories_eq_zero_iff (machine : MachineType) :
    (image file.encode machine).numDataDirectories = 0 ↔ file.CountClear := by
  change (if optOffset file.encode + 0x70 ≤ file.encode.length then
    leAt file.encode (optOffset file.encode + 0x68) 4 else 0) = 0 ↔ _
  have flags := file.loaderFlags_encode
  have size := file.length_encode
  rw [optOffset_encode]
  unfold CountClear
  cases layout : file.layout with
  | pe32 baseOfData base sizes =>
    have fixed : file.layout.fixedSize = 0x60 := by rw [layout]; rfl
    have behind : leAt file.encode (file.lfanew + 24 + 0x68) 4 = leAt file.afterFixed 8 4 := by
      have skipped : (file.fixedFields ++ file.afterFixed).drop 0x60 = file.afterFixed :=
        List.drop_left' (by rw [length_fixedFields, fixed])
      rw [leAt_add, drop_optional, show 0x68 = 0x60 + 8 by rfl, leAt_add, skipped]
    rw [behind]
    split
    · rename_i inside
      exact ⟨fun clear _ => clear, fun clear => clear (by omega)⟩
    · rename_i short
      exact ⟨fun _ inside => absurd inside (by omega), fun _ => rfl⟩
  | pe32Plus base sizes =>
    have fixed : file.layout.fixedSize = 0x70 := by rw [layout]; rfl
    have offset : file.layout.loaderFlagsOffset = 0x68 := by rw [layout]; rfl
    rw [offset] at flags
    rw [if_pos (by omega), leAt_fixed file (by omega), flags]
    exact UInt32.toNat_inj (b := 0)

end PeFile

/-- The parser finds the directories that the format says are there: their number, each of them
at its index, and nothing at any other index. -/
def FollowsFormat (coded : DirectoryFile) : Prop :=
  ∃ result, parsePe coded.file.encode = .ok (some result) ∧
    result.numDataDirectories = coded.directories.length ∧
    ∀ index < wordSize, dataDirectory coded.file.encode result index =
      .ok (coded.directories[index]?.map FileDirectory.entry)

/-- Without directories there is nothing at any index. -/
theorem dataDirectory_empty {data : List UInt8} {result : PeImage}
    (empty : result.numDataDirectories = 0) (index : Nat) :
    dataDirectory data result index = .ok none := by
  rw [dataDirectory, if_pos (by omega)]
  rfl

/-- With a directory, the index `2 ^ 61` passes the check and overflows. -/
theorem dataDirectory_overflow {data : List UInt8} {result : PeImage}
    (some : 0 < result.numDataDirectories) :
    dataDirectory data result (2 ^ 61) = .error .overflow := by
  have product : mul64 (2 ^ 61) 8 = .error .overflow := by decide
  have passes : ¬2 ^ 61 % 2 ^ 32 ≥ result.numDataDirectories := by
    rw [show 2 ^ 61 % 2 ^ 32 = 0 by decide]
    omega
  rw [dataDirectory, if_neg passes, product]
  rfl

/-- The parser follows the format exactly on the files without directories that have no number
where the parser looks for it. -/
theorem followsFormat_iff (coded : DirectoryFile) :
    FollowsFormat coded ↔
      coded.file.layout.imageBase + coded.file.addressOfEntryPoint.toNat < wordSize ∧
        coded.directories = [] ∧ coded.file.CountClear := by
  have outcome := coded.file.parsePe_encode_eq
  constructor
  · rintro ⟨result, parsed, number, each⟩
    rw [parsed] at outcome
    split at outcome
    · rename_i fits
      obtain rfl := Option.some.inj (Except.ok.inj outcome)
      have none : coded.directories.length = 0 := by
        apply Nat.eq_zero_of_not_pos
        intro positive
        have lookup := each (2 ^ 61) (by decide)
        rw [dataDirectory_overflow (by omega)] at lookup
        cases lookup
      rw [none] at number
      exact ⟨fits, List.eq_nil_of_length_eq_zero none,
        (coded.file.numDataDirectories_eq_zero_iff _).mp number⟩
    · cases outcome
  · rintro ⟨fits, none, clear⟩
    have empty := (coded.file.numDataDirectories_eq_zero_iff coded.file.machine).mpr clear
    rw [if_pos fits] at outcome
    refine ⟨_, outcome, ?_, ?_⟩
    · rw [none]
      exact empty
    · intro index _
      rw [none, dataDirectory_empty empty]
      rfl

/-- The minimal executable with its 16 empty directories. -/
def minimalDirectories : DirectoryFile where
  file := buildPe []
  directories := List.replicate 16 ⟨0, 0⟩
  count := by decide
  placed := by decide +kernel

/-- The parser finds none of the 16 directories of the minimal executable. -/
theorem minimalDirectories_lost :
    minimalDirectories.directories.length = 16 ∧ ¬FollowsFormat minimalDirectories := by
  refine ⟨rfl, ?_⟩
  rintro ⟨result, parsed, number, _⟩
  have outcome := minimalDirectories.file.parsePe_encode_eq
  rw [if_pos (by decide), parsed] at outcome
  obtain rfl := Option.some.inj (Except.ok.inj outcome)
  have clear : minimalDirectories.file.CountClear := rfl
  rw [(minimalDirectories.file.numDataDirectories_eq_zero_iff _).mpr clear] at number
  cases number

end Aperture.Pe
