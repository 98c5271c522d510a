import Aperture.Pe.Imports

/-!
# The import directory

The format puts the name of a library at 12 of its descriptor and the import address table at 16;
the parser takes the one for the other. A directory that no section backs is parsed all the same,
from the start of the file.
-/

namespace Aperture.Pe

open Machine

variable {data : List UInt8} {image : PeImage} {offset i : Nat}

/-! ## Where descriptors come from -/

/-- A round that returns a descriptor has read it at its place in the directory. -/
theorem importDescriptor_some {descriptor : ImportDescriptor}
    (read : importDescriptor data offset i = .ok (some descriptor)) :
    offset + i * 20 + 20 ≤ data.length ∧ descriptor = descriptorAt data (offset + i * 20) ∧
      descriptor.isTerminator = false := by
  have fits : offset + i * 20 + 20 < wordSize := by
    obtain ⟨distance, product, checked⟩ := bind_eq_ok.mp read
    obtain ⟨entryOffset, sum, checked⟩ := bind_eq_ok.mp checked
    obtain ⟨entryEnd, last, _⟩ := bind_eq_ok.mp checked
    obtain ⟨_, rfl⟩ := mul64_eq_ok.mp product
    obtain ⟨_, rfl⟩ := add64_eq_ok.mp sum
    exact (add64_eq_ok.mp last).1
  rw [importDescriptor_eq fits, Except.ok.injEq] at read
  split at read
  · rename_i there
    obtain rfl := Option.some.inj read
    exact ⟨there.1, rfl, there.2⟩
  · cases read

/-- A round at the start of the file ends the directory exactly when the file is too short or starts
with a terminator. -/
theorem importDescriptor_start :
    importDescriptor data 0 0 = .ok none ↔
      data.length < 20 ∨ (descriptorAt data 0).isTerminator = true := by
  have round := @importDescriptor_eq data 0 0 (by decide)
  rw [Nat.zero_mul, Nat.zero_add, Nat.zero_add] at round
  rw [round, Except.ok.injEq]
  by_cases there : 20 ≤ data.length ∧ (descriptorAt data 0).isTerminator = false
  · rw [if_pos there]
    refine iff_of_false (Option.some_ne_none _) ?_
    rintro (short | terminator)
    · omega
    · exact Bool.false_ne_true (there.2.symm.trans terminator)
  · rw [if_neg there]
    refine iff_of_true rfl ?_
    by_cases short : data.length < 20
    · exact .inl short
    · refine .inr ?_
      by_contra proper
      exact there ⟨Nat.not_lt.mp short, Bool.eq_false_iff.mpr proper⟩

/-- A parsed directory has nothing in it, or is filled from its file offset, or from the start of
the file when it has none. -/
theorem parseImportDirectory_cases {slots : List (Option ImportDescriptor)}
    (returned : parseImportDirectory data image = .ok slots) :
    (slots = List.replicate maxImportDescriptors none ∧
      ∀ dir, dataDirectory data image 1 = .ok (some dir) → dir.rva = 0 ∨ dir.size = 0) ∨
    ∃ dir found, dataDirectory data image 1 = .ok (some dir) ∧ dir.rva ≠ 0 ∧ dir.size ≠ 0 ∧
      rvaToFileOffset data image dir.rva = .ok found ∧
      fillSlots (importDescriptor data (found.getD 0)) 0 maxImportDescriptors = .ok slots := by
  obtain ⟨lookedUp, directory, returned⟩ := bind_eq_ok.mp returned
  cases lookedUp with
  | none =>
    refine .inl ⟨(pure_eq_ok.mp returned).symm, fun dir there => ?_⟩
    rw [directory] at there
    cases there
  | some dir =>
    dsimp only at returned
    by_cases empty : dir.rva = 0 ∨ dir.size = 0
    · rw [if_pos empty] at returned
      refine .inl ⟨(pure_eq_ok.mp returned).symm, fun other there => ?_⟩
      rw [directory] at there
      obtain rfl := Option.some.inj (Except.ok.inj there)
      exact empty
    · rw [if_neg empty] at returned
      obtain ⟨found, located, filled⟩ := bind_eq_ok.mp returned
      obtain ⟨nonzero, sized⟩ := not_or.mp empty
      exact .inr ⟨dir, found, directory, nonzero, sized, located, filled⟩

/-- Every slot comes from the place of the import directory in the file, and without one there are
none. -/
structure FromDirectory (data : List UInt8) (image : PeImage)
    (slots : List (Option ImportDescriptor)) : Prop where
  /-- A descriptor is read at its place. -/
  backed : ∀ i descriptor, slots[i]? = some (some descriptor) →
    ∃ dir offset, dataDirectory data image 1 = .ok (some dir) ∧
      rvaToFileOffset data image dir.rva = .ok (some offset) ∧
      offset + i * 20 + 20 ≤ data.length ∧ descriptor = descriptorAt data (offset + i * 20)
  /-- A directory without a place is empty. -/
  unbacked : ∀ dir, dataDirectory data image 1 = .ok (some dir) →
    rvaToFileOffset data image dir.rva = .ok none →
    slots = List.replicate maxImportDescriptors none

/-- For every file and image: the slots come from the import directory exactly when it has a place
in the file, says that it is empty, or the file starts with a terminator or is shorter than that. -/
theorem parseImportDirectory_fromDirectory_iff {slots : List (Option ImportDescriptor)}
    (returned : parseImportDirectory data image = .ok slots) :
    FromDirectory data image slots ↔
      ∀ dir, dataDirectory data image 1 = .ok (some dir) →
        rvaToFileOffset data image dir.rva = .ok none →
        dir.rva = 0 ∨ dir.size = 0 ∨ data.length < 20 ∨
          (descriptorAt data 0).isTerminator = true := by
  rcases parseImportDirectory_cases returned with
    ⟨rfl, empty⟩ | ⟨dir, found, directory, nonzero, sized, located, filled⟩
  · refine iff_of_true ⟨fun i descriptor there => ?_, fun dir _ _ => rfl⟩ fun dir there _ => ?_
    · have nothing := List.eq_of_mem_replicate (List.mem_of_getElem? there)
      cases nothing
    · rcases empty dir there with zero | zero
      · exact .inl zero
      · exact .inr (.inl zero)
  · constructor
    · intro from_ other there unlocated
      rw [directory] at there
      obtain rfl := Option.some.inj (Except.ok.inj there)
      rw [from_.unbacked dir directory unlocated] at filled
      rw [located] at unlocated
      obtain rfl := Except.ok.inj unlocated
      exact .inr (.inr (importDescriptor_start.mp ((fillSlots_nothing_iff 31).mp filled)))
    · intro condition
      have nothing (unlocated : found = none) :
          slots = List.replicate maxImportDescriptors none := by
        rw [unlocated] at located filled
        have start : importDescriptor data 0 0 = .ok none := by
          apply importDescriptor_start.mpr
          rcases condition dir directory located with zero | zero | start
          · exact absurd zero nonzero
          · exact absurd zero sized
          · exact start
        exact Except.ok.inj (filled.symm.trans (fillSlots_missing start maxImportDescriptors))
      refine ⟨fun i descriptor there => ?_, fun other thereDir unlocated => ?_⟩
      · have read := entry_of_fillSlots filled there
        rw [Nat.zero_add] at read
        cases found with
        | none =>
          rw [nothing rfl] at there
          have missing := List.eq_of_mem_replicate (List.mem_of_getElem? there)
          cases missing
        | some offset =>
          obtain ⟨inside, same, _⟩ := importDescriptor_some read
          exact ⟨dir, offset, directory, located, inside, same⟩
      · rw [directory] at thereDir
        obtain rfl := Option.some.inj (Except.ok.inj thereDir)
        rw [located] at unlocated
        exact nothing (Except.ok.inj unlocated)

/-- A file whose import directory is at 0x3000 of the image, behind its only section. -/
def unbackedFile : List UInt8 :=
  smallHeaders ++ List.replicate 4 0 ++ [0, 0x30, 0, 0] ++ [20, 0, 0, 0] ++ [0, 0x10, 0, 0] ++
    [0, 0x10, 0, 0] ++ [0, 0, 1, 0] ++ List.replicate 16 0

/-- Every slot of its import directory comes from nowhere. -/
theorem parseImportDirectory_fromDirectory_iff_unbackedFile :
    ¬ FromDirectory unbackedFile smallImage
      (some ⟨0x5A4D, 0, 0⟩ :: List.replicate 31 none) := by
  have returned : parseImportDirectory unbackedFile smallImage =
      .ok (some ⟨0x5A4D, 0, 0⟩ :: List.replicate 31 none) := by decide +kernel
  have directory : dataDirectory unbackedFile smallImage 1 = .ok (some ⟨0x3000, 20⟩) := by
    decide +kernel
  have unlocated : rvaToFileOffset unbackedFile smallImage 0x3000 = .ok none := by decide +kernel
  intro from_
  have condition := (parseImportDirectory_fromDirectory_iff returned).mp from_ _ directory unlocated
  revert condition
  decide +kernel

/-- It is parsed with the start of the file as a descriptor, though no section backs it. -/
theorem parseImportDirectory_fromDirectory_counterexample :
    parsePe unbackedFile = .ok (some smallImage) ∧
      dataDirectory unbackedFile smallImage 1 = .ok (some ⟨0x3000, 20⟩) ∧
      rvaToFileOffset unbackedFile smallImage 0x3000 = .ok none ∧
      parseImportDirectory unbackedFile smallImage =
        .ok (some ⟨0x5A4D, 0, 0⟩ :: List.replicate 31 none) := by
  refine ⟨by decide +kernel, by decide +kernel, by decide +kernel, by decide +kernel⟩

/-! ## Descriptors of a file -/

/-- An import descriptor of a file. -/
structure FileDescriptor where
  /-- `OriginalFirstThunk`. -/
  originalFirstThunk : UInt32
  /-- `TimeDateStamp`. -/
  timeDateStamp : UInt32
  /-- `ForwarderChain`. -/
  forwarderChain : UInt32
  /-- `Name`. -/
  name : UInt32
  /-- `FirstThunk`. -/
  firstThunk : UInt32
  deriving DecidableEq, Repr

namespace FileDescriptor

/-- The terminator of a directory. -/
def zero : FileDescriptor := ⟨0, 0, 0, 0, 0⟩

/-- The 20 bytes of a descriptor. -/
def encode (descriptor : FileDescriptor) : List UInt8 :=
  [leBytes 4 descriptor.originalFirstThunk.toNat, leBytes 4 descriptor.timeDateStamp.toNat,
    leBytes 4 descriptor.forwarderChain.toNat, leBytes 4 descriptor.name.toNat,
    leBytes 4 descriptor.firstThunk.toNat].flatten

/-- What a reader of the directory is to return. -/
def entry (descriptor : FileDescriptor) : ImportDescriptor where
  intRva := descriptor.originalFirstThunk.toNat
  iatRva := descriptor.firstThunk.toNat
  nameRva := descriptor.name.toNat

/-- What the parser reads. -/
def misread (descriptor : FileDescriptor) : ImportDescriptor where
  intRva := descriptor.originalFirstThunk.toNat
  iatRva := descriptor.name.toNat
  nameRva := descriptor.firstThunk.toNat

/-- A descriptor has 20 bytes. -/
theorem length_encode (descriptor : FileDescriptor) : descriptor.encode.length = 20 := by
  simp only [encode, List.length_flatten, List.map_cons, List.map_nil, List.sum_cons, List.sum_nil,
    length_leBytes]
  rfl

/-- Its fields, as the parser takes them. -/
theorem descriptorAt_encode (descriptor : FileDescriptor) (rest : List UInt8) :
    descriptorAt (descriptor.encode ++ rest) 0 = descriptor.misread := by
  have size := descriptor.length_encode
  have int : leAt descriptor.encode 0 4 = descriptor.originalFirstThunk.toNat :=
    leAt_record [] descriptor.originalFirstThunk.toNat_lt rfl
  have name : leAt descriptor.encode 12 4 = descriptor.name.toNat := by
    apply leAt_record [leBytes 4 descriptor.originalFirstThunk.toNat,
      leBytes 4 descriptor.timeDateStamp.toNat, leBytes 4 descriptor.forwarderChain.toNat]
      descriptor.name.toNat_lt
    simp only [List.map_cons, List.map_nil, List.sum_cons, List.sum_nil, length_leBytes]
    rfl
  have thunk : leAt descriptor.encode 16 4 = descriptor.firstThunk.toNat := by
    apply leAt_record [leBytes 4 descriptor.originalFirstThunk.toNat,
      leBytes 4 descriptor.timeDateStamp.toNat, leBytes 4 descriptor.forwarderChain.toNat,
      leBytes 4 descriptor.name.toNat] descriptor.firstThunk.toNat_lt
    simp only [List.map_cons, List.map_nil, List.sum_cons, List.sum_nil, length_leBytes]
    rfl
  simp only [descriptorAt, misread, Nat.zero_add]
  rw [leAt_append_left (by omega), leAt_append_left (by omega), leAt_append_left (by omega), int,
    name, thunk]

/-- They are what a reader is to return exactly when the two swapped ones are equal. -/
theorem misread_eq_entry_iff (descriptor : FileDescriptor) :
    descriptor.misread = descriptor.entry ↔ descriptor.name = descriptor.firstThunk := by
  simp only [misread, entry, ImportDescriptor.mk.injEq, true_and, UInt32.toNat_inj]
  exact ⟨And.left, fun same => ⟨same, same.symm⟩⟩

end FileDescriptor

/-- A file and an image with an import directory: descriptors that are not zero and a terminator, at
the place in the file of the directory's offset of the image. -/
structure HasImports (data : List UInt8) (image : PeImage) (dir : DataDirectory) (offset : Nat)
    (descriptors : List FileDescriptor) : Prop where
  /-- The directory is there. -/
  directory : dataDirectory data image 1 = .ok (some dir)
  /-- It has an offset. -/
  nonzero : dir.rva ≠ 0
  /-- That is at a place in the file. -/
  located : rvaToFileOffset data image dir.rva = .ok (some offset)
  /-- The descriptors fit in the parser's array. -/
  few : descriptors.length ≤ 31
  /-- None is a terminator. -/
  proper : ∀ descriptor ∈ descriptors, descriptor ≠ .zero
  /-- They are in the file, with a terminator behind them. -/
  placed : (descriptors ++ [FileDescriptor.zero]).flatMap FileDescriptor.encode <+: data.drop offset

section Descriptors

variable {dir : DataDirectory} {descriptors : List FileDescriptor}

/-- A descriptor at an offset is at the start of the data behind it. -/
theorem descriptorAt_drop (data : List UInt8) (offset : Nat) :
    descriptorAt data offset = descriptorAt (data.drop offset) 0 := by
  have int := leAt_add data offset 0 4
  have iat := leAt_add data offset 12 4
  have name := leAt_add data offset 16 4
  rw [Nat.add_zero] at int
  simp only [descriptorAt, Nat.zero_add, int, iat, name]

/-- A descriptor that is placed in the file. -/
theorem descriptorAt_placed {table : List FileDescriptor}
    (placed : table.flatMap FileDescriptor.encode <+: data.drop offset)
    (inside : i < table.length) :
    offset + i * 20 + 20 ≤ data.length ∧
      descriptorAt data (offset + i * 20) = table[i].misread := by
  obtain ⟨rest, whole⟩ := placed
  have size := length_flatMap_fixed FileDescriptor.length_encode table
  have length := congrArg List.length whole
  rw [List.length_append, List.length_drop, size] at length
  refine ⟨by omega, ?_⟩
  have behind : data.drop (offset + i * 20) =
      table[i].encode ++ ((table.drop (i + 1)).flatMap FileDescriptor.encode ++ rest) := by
    rw [← List.drop_drop, ← whole, List.drop_append_of_le_length (by omega), Nat.mul_comm,
      drop_flatMap FileDescriptor.length_encode, List.drop_eq_getElem_cons inside,
      List.flatMap_cons, List.append_assoc]
  rw [descriptorAt_drop, behind, FileDescriptor.descriptorAt_encode]

/-- A round of the loop over placed descriptors. -/
theorem importDescriptor_placed {table : List FileDescriptor} (small : data.length < wordSize)
    (placed : table.flatMap FileDescriptor.encode <+: data.drop offset)
    (inside : i < table.length) :
    importDescriptor data offset i =
      .ok (if table[i].misread.isTerminator = false then some table[i].misread else none) := by
  obtain ⟨inFile, read⟩ := descriptorAt_placed placed inside
  rw [importDescriptor_eq (by omega), read]
  simp only [inFile, true_and]

/-- A descriptor is no terminator to the parser when one of its three fields is not zero. -/
theorem isTerminator_eq_false {descriptor : ImportDescriptor} :
    descriptor.isTerminator = false ↔ descriptor ≠ ⟨0, 0, 0⟩ :=
  decide_eq_false_iff_not

/-- For every file with an import directory: the parser returns its descriptors, and nothing behind
them, exactly when the directory has a size if it has descriptors, and every one has its name where
its import address table is, and one of these or its import name table. -/
theorem parseImportDirectory_reads_iff (small : data.length < wordSize)
    (imports : HasImports data image dir offset descriptors) :
    parseImportDirectory data image =
        .ok (descriptors.map (some ·.entry) ++
          List.replicate (maxImportDescriptors - descriptors.length) none) ↔
      (descriptors = [] ∨ dir.size ≠ 0) ∧
        ∀ descriptor ∈ descriptors, descriptor.name = descriptor.firstThunk ∧
          descriptor.entry ≠ ⟨0, 0, 0⟩ := by
  have few := imports.few
  have total : (descriptors ++ [FileDescriptor.zero]).length = descriptors.length + 1 := by simp
  have round (k : Nat) (below : k < descriptors.length) :
      importDescriptor data offset k = .ok (if descriptors[k].misread.isTerminator = false then
        some descriptors[k].misread else none) := by
    have placed := importDescriptor_placed small imports.placed (show k < _ by omega)
    rwa [List.getElem_append_left below] at placed
  rw [parseImportDirectory, imports.directory, ok_bind]
  dsimp only
  by_cases empty : dir.size = 0
  · rw [if_pos (.inr empty)]
    cases descriptors with
    | nil =>
      exact iff_of_true rfl ⟨.inl rfl, fun descriptor member => absurd member List.not_mem_nil⟩
    | cons first rest =>
      refine iff_of_false (fun same => ?_) fun condition => ?_
      · cases Except.ok.inj same
      · rcases condition.1 with none | sized
        · cases none
        · exact sized empty
  rw [if_neg (not_or.mpr ⟨imports.nonzero, empty⟩), imports.located, ok_bind, Option.getD_some]
  constructor
  · intro filled
    refine ⟨.inr empty, fun descriptor member => ?_⟩
    obtain ⟨k, below, rfl⟩ := List.getElem_of_mem member
    have there : (descriptors.map (some ·.entry) ++
        List.replicate (maxImportDescriptors - descriptors.length) none)[k]? =
          some (some descriptors[k].entry) := by
      rw [List.getElem?_append_left (by rwa [List.length_map]), List.getElem?_map,
        List.getElem?_eq_getElem below]
      rfl
    have read := entry_of_fillSlots filled there
    rw [Nat.zero_add, round k below, Except.ok.injEq] at read
    split at read
    · rename_i proper
      have same := Option.some.inj read
      rw [same] at proper
      exact ⟨descriptors[k].misread_eq_entry_iff.mp same, isTerminator_eq_false.mp proper⟩
    · cases read
  · rintro ⟨_, each⟩
    have missing : importDescriptor data offset (0 + (descriptors.map (·.entry)).length) =
        .ok none := by
      have placed := importDescriptor_placed small imports.placed
        (show descriptors.length < _ by omega)
      rw [List.getElem_concat_length rfl] at placed
      rw [Nat.zero_add, List.length_map, placed]
      rfl
    have present (k : Nat) (below : k < (descriptors.map (·.entry)).length) :
        importDescriptor data offset (0 + k) = .ok (some (descriptors.map (·.entry))[k]) := by
      rw [List.length_map] at below
      obtain ⟨same, proper⟩ := each descriptors[k] (List.getElem_mem below)
      rw [Nat.zero_add, round k below, descriptors[k].misread_eq_entry_iff.mpr same,
        if_pos (isTerminator_eq_false.mpr proper), List.getElem_map]
    have filled := fillSlots_list (descriptors.map (·.entry)) present missing
      (show _ ≤ maxImportDescriptors by rw [List.length_map]; exact Nat.le_succ_of_le few)
    rw [filled, List.length_map, List.map_map]
    rfl

/-- A file with import descriptors in its only section, which is at 0x1000 of the image. -/
def importFile (descriptors : List FileDescriptor) : List UInt8 :=
  smallHeaders ++ List.replicate 4 0 ++ [0, 0x10, 0, 0] ++ [40, 0, 0, 0] ++ [0, 0x10, 0, 0] ++
    [0, 0x10, 0, 0] ++ [240, 0, 0, 0] ++ List.replicate 16 0 ++
    (descriptors ++ [FileDescriptor.zero]).flatMap FileDescriptor.encode

/-- A descriptor whose name is where its import address table is. -/
theorem parseImportDirectory_reads_iff_same :
    parseImportDirectory (importFile [⟨0x2000, 0, 0, 0x3000, 0x3000⟩]) smallImage =
      .ok (some ⟨0x2000, 0x3000, 0x3000⟩ :: List.replicate 31 none) := by
  have imports : HasImports (importFile [⟨0x2000, 0, 0, 0x3000, 0x3000⟩]) smallImage
      ⟨0x1000, 40⟩ 240 [⟨0x2000, 0, 0, 0x3000, 0x3000⟩] := by
    refine ⟨?_, ?_, ?_, ?_, ?_, ?_⟩ <;> decide +kernel
  refine (parseImportDirectory_reads_iff (by decide +kernel) imports).mpr ⟨.inr (by decide), ?_⟩
  decide +kernel

/-- A descriptor with its name at 0x3000 and its import address table at 0x4000 is read the other
way round. -/
theorem parseImportDirectory_reads_counterexample :
    HasImports (importFile [⟨0x2000, 0, 0, 0x3000, 0x4000⟩]) smallImage ⟨0x1000, 40⟩ 240
        [⟨0x2000, 0, 0, 0x3000, 0x4000⟩] ∧
      FileDescriptor.entry ⟨0x2000, 0, 0, 0x3000, 0x4000⟩ = ⟨0x2000, 0x4000, 0x3000⟩ ∧
      parseImportDirectory (importFile [⟨0x2000, 0, 0, 0x3000, 0x4000⟩]) smallImage =
        .ok (some ⟨0x2000, 0x3000, 0x4000⟩ :: List.replicate 31 none) := by
  refine ⟨⟨?_, ?_, ?_, ?_, ?_, ?_⟩, rfl, ?_⟩ <;> decide +kernel

end Descriptors

end Aperture.Pe
