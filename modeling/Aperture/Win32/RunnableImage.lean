import Aperture.Win32.MappedSections

/-!
# Whether a loaded image can run

`load_into_process` returns true after it has gone through all section headers. A section whose
bytes end past the file is left zero, and the entry point is the image's block plus the entry of
the file, wherever that lies. So a loaded process is runnable exactly when the file says so itself.
-/

namespace Aperture.Win32

open Machine Mm Pe

/-- The bytes of a section are in the file and are copied. -/
structure Copied (data : List UInt8) (header : SectionHeader) : Prop where
  /-- They are in the file. -/
  inside : ∀ position, header.rawOffset ≤ position → position < header.rawOffset + copySize header →
    position < data.length
  /-- They are copied, wherever the section goes. -/
  bytes : ∀ dest s, (copySection header data dest s).memory.readBytes dest (copySize header) =
    (data.drop header.rawOffset).take (copySize header)

/-- Every section has been copied, and the entry point lies in the image. -/
structure Runnable (image : PeImage) (data : List UInt8) (process : Process) : Prop where
  /-- The sections have been copied. -/
  copied : ∀ i < image.numSections, ∃ header,
    sectionHeader image data i = .ok (some header) ∧ Copied data header
  /-- The entry point is not below the image. -/
  above : process.imageBase ≤ process.entryPoint
  /-- It is not behind the image. -/
  below : process.entryPoint < process.imageBase + image.imageSize

/-- The file holds what its headers name: the bytes of every section that has some, and an entry
point below the size of the image. -/
structure HoldsImage (image : PeImage) (data : List UInt8) : Prop where
  /-- The sections end inside the file. -/
  sections : ∀ i < image.numSections,
    copySize (sectionAt data (image.sectionTableOffset + i * 40)) = 0 ∨
      (sectionAt data (image.sectionTableOffset + i * 40)).rawOffset +
        copySize (sectionAt data (image.sectionTableOffset + i * 40)) ≤ data.length
  /-- The entry point is in the image. -/
  entry : entryRva data < image.imageSize

variable {frames : FrameAllocator} {kernel base : Nat} {before : PhysMem} {image : PeImage}
  {data : List UInt8} {header : SectionHeader}

/-- A section is copied exactly when its bytes are there. -/
theorem copied_iff :
    Copied data header ↔ copySize header = 0 ∨ header.rawOffset + copySize header ≤ data.length := by
  constructor
  · intro copied
    by_contra outside
    have last := copied.inside (header.rawOffset + copySize header - 1) (by omega) (by omega)
    omega
  · intro there
    refine ⟨fun position above below => by omega, ?_⟩
    intro dest s
    unfold copySection
    split_ifs with inside
    · have copied := s.memory.readBytes_copyIn dest
        ((data.drop header.rawOffset).take (copySize header))
      rwa [length_copied inside] at copied
    · have empty : copySize header = 0 := by omega
      rw [empty]
      rfl

/-- When the section loop returns true, it has found every header. -/
theorem loadSections_found {pageTable : Option Nat} {indices : List Nat} {s last : Loading}
    (returned : loadSections frames image data base pageTable indices s = (.ok true, last)) :
    ∀ i ∈ indices, ∃ header, sectionHeader image data i = .ok (some header) := by
  induction indices generalizing s with
  | nil => intro i member; cases member
  | cons first rest ih =>
    unfold loadSections at returned
    cases found : sectionHeader image data first with
    | error reason => simp only [found] at returned; cases returned
    | ok result =>
      cases result with
      | none => simp only [found] at returned; cases returned
      | some header =>
        simp only [found] at returned
        split at returned
        · cases returned
        · intro i member
          rcases List.mem_cons.mp member with isFirst | later
          · rw [isFirst]
            exact ⟨header, found⟩
          · exact ih returned i later

/-- A header that is found is the one in the file. -/
theorem sectionHeader_found {i : Nat}
    (found : sectionHeader image data i = .ok (some header))
    (small : image.sectionTableOffset + i * 40 + 40 < wordSize) :
    header = sectionAt data (image.sectionTableOffset + i * 40) := by
  have offset := add64_eq_ok.mpr ⟨show image.sectionTableOffset + i * 40 < wordSize by omega, rfl⟩
  rw [sectionHeader, offset, ok_bind, parseSectionHeader_eq small] at found
  split at found
  · exact (Option.some.inj (Except.ok.inj found)).symm
  · cases found

/-- The entry point of a loaded process is its block plus the entry of the file. -/
theorem loadIntoProcess_entryPoint {process loaded : Process} {last : Loading}
    (returned : loadIntoProcess frames kernel image process data (.start before) =
      (.ok true, loaded, last)) :
    loaded.entryPoint = loaded.imageBase + (image.entryPoint - image.imageBase) := by
  unfold loadIntoProcess at returned
  split at returned
  · cases returned
  · cases returned
  · unfold loadAt at returned
    dsimp only at returned
    split at returned
    · cases returned
    · cases returned
    · split at returned
      · cases returned
      · rename_i sum
        obtain ⟨_, total⟩ := add64_eq_ok.mp sum
        obtain ⟨_, rfl, _⟩ := returned
        exact total

/-- Of a parsed image, the entry of the file is its entry point without the base. -/
theorem parsePe_entry (parsed : parsePe data = .ok (some image)) :
    image.entryPoint - image.imageBase = entryRva data := by
  obtain ⟨machine, rfl⟩ := eq_image_of_parsed parsed
  exact Nat.add_sub_cancel_left _ _

/-- For every file that is parsed and whose load returns true, the process is runnable exactly when
the file holds the bytes of its sections and an entry point below the size of its image. -/
theorem loadIntoProcess_runnable_iff (parsed : parsePe data = .ok (some image))
    {process loaded : Process} {last : Loading}
    (returned : loadIntoProcess frames kernel image process data (.start before) =
      (.ok true, loaded, last)) :
    Runnable image data loaded ↔ HoldsImage image data := by
  obtain ⟨memory, _, _, ended⟩ := loadIntoProcess_returned returned
  have bounds := parsePe_bounds parsed
  have entry := loadIntoProcess_entryPoint returned
  rw [parsePe_entry parsed] at entry
  have headers (i : Nat) (small : i < image.numSections) :
      sectionHeader image data i =
        .ok (some (sectionAt data (image.sectionTableOffset + i * 40))) := by
    have member : i ∈ List.range' 0 image.numSections := by
      rw [List.mem_range'_1]
      omega
    obtain ⟨header, found⟩ := loadSections_found ended i member
    have fits : image.sectionTableOffset + i * 40 + 40 < wordSize := by
      unfold wordSize
      omega
    rw [found, sectionHeader_found found fits]
  constructor
  · intro runnable
    refine ⟨fun i small => ?_, ?_⟩
    · obtain ⟨header, found, copied⟩ := runnable.copied i small
      rw [headers i small, Except.ok.injEq, Option.some.injEq] at found
      rw [found]
      exact copied_iff.mp copied
    · have below := runnable.below
      omega
  · intro holds
    refine ⟨fun i small => ?_, ?_, ?_⟩
    · exact ⟨_, headers i small, copied_iff.mpr (holds.sections i small)⟩
    · omega
    · have inside := holds.entry
      omega

/-- The minimal executable with a text section is loaded and runnable. -/
theorem loadIntoProcess_runnable_iff_text : ∃ memory loaded last,
    loadIntoProcess FrameAllocator.mebibyteFrames 0x200000 textImage ⟨0, 0, 0, 0⟩
      (textFile 0x1000).encode (.start memory) = (.ok true, loaded, last) ∧
    Runnable textImage (textFile 0x1000).encode loaded := by
  have parsed : parsePe (textFile 0x1000).encode = .ok (some textImage) := by decide +kernel
  have found : sectionHeader textImage (textFile 0x1000).encode 0 =
      .ok (some (textHeader 0x1000)) := by decide +kernel
  obtain ⟨memory, loaded, last, _, _, _, _, _, returned, _⟩ := text_loads (by decide) found
  refine ⟨memory, loaded, last, returned, (loadIntoProcess_runnable_iff parsed returned).mpr ?_⟩
  refine ⟨fun i small => ?_, by decide +kernel⟩
  obtain rfl : i = 0 := Nat.lt_one_iff.mp small
  decide +kernel

/-- Cut off in the middle of its section it is loaded all the same, and is not runnable. -/
theorem loadIntoProcess_runnable_counterexample : ∃ memory loaded last,
    parsePe ((textFile 0x1000).encode.take 0x300) = .ok (some textImage) ∧
    loadIntoProcess FrameAllocator.mebibyteFrames 0x200000 textImage ⟨0, 0, 0, 0⟩
      ((textFile 0x1000).encode.take 0x300) (.start memory) = (.ok true, loaded, last) ∧
    ¬ Runnable textImage ((textFile 0x1000).encode.take 0x300) loaded := by
  have parsed : parsePe ((textFile 0x1000).encode.take 0x300) = .ok (some textImage) := by
    decide +kernel
  have found : sectionHeader textImage ((textFile 0x1000).encode.take 0x300) 0 =
      .ok (some (textHeader 0x1000)) := by decide +kernel
  have short : ((textFile 0x1000).encode.take 0x300).length ≤ 0x300 := List.length_take_le _ _
  generalize (textFile 0x1000).encode.take 0x300 = data at parsed found short ⊢
  obtain ⟨memory, loaded, last, _, _, _, _, _, returned, _⟩ := text_loads (by decide) found
  refine ⟨memory, loaded, last, parsed, returned, ?_⟩
  intro runnable
  obtain ⟨header, isFound, copied⟩ := runnable.copied 0 (by decide)
  rw [found, Except.ok.injEq, Option.some.injEq] at isFound
  have inside := copied.inside 0x300
  rw [← isFound] at inside
  exact absurd (inside (by decide) (by decide)) (by omega)

end Aperture.Win32
