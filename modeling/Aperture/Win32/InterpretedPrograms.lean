import Aperture.Win32.InterpreterLoop
import Aperture.Win32.MappedSections
import Aperture.Win32.Tenants

/-!
# Loaded programs in the interpreter

The loader places an image anywhere, and the interpreter runs it there, at its physical addresses.
While a program leaves alone the instructions that it executes, they are those of its file. So the
loop runs what the file says, from the section of the file that supplies each instruction.
-/

namespace Aperture.Win32

open Machine Mm Pe PageTable

/-- A section of the file supplies these bytes for a relative address. -/
def Supplies (image : PeImage) (data : List UInt8) (rva : Nat) (bytes : List UInt8) : Prop :=
  ∃ i < image.numSections, ∃ header, sectionHeader image data i = .ok (some header) ∧
    ∃ offset, rva = header.virtualAddress + offset ∧ offset + bytes.length ≤ copySize header ∧
      (data.drop (header.rawOffset + offset)).take bytes.length = bytes

/-- The instruction of the file at the program counter is executed. Its bytes are those that the
loader left there. -/
def Guest.FileStep {κ : Type} (syscall : SyscallEffect κ) (image : PeImage) (data : List UInt8)
    (base : Nat) (loaded : PhysMem) (before : Guest κ) (instruction : GuestInstruction)
    (after : Guest κ) : Prop :=
  ∃ rva bytes, instruction.Spelled bytes ∧ Supplies image data rva bytes ∧
    before.rip.toNat = base + rva ∧
    before.cpu.memory.readBytes (base + rva) bytes.length =
      loaded.readBytes (base + rva) bytes.length ∧
    instruction.step syscall (pcAdd before.rip bytes.length) before = .ok after

section Loaded

variable {frames : FrameAllocator} {kernel : Nat} {shared : Nat → Nat → Prop} {memory : PhysMem}
  {image : PeImage} {data : List UInt8} {process loaded : Process} {done : Loading}
  {κ : Type} {syscall : SyscallEffect κ} {first before after last : Guest κ}
  {instruction : GuestInstruction}

/-- A byte that a section supplies is loaded. -/
theorem byte_loaded (placed : frames.Placed) (captured : kernel ≠ 0) (aligned : kernel % 4096 = 0)
    (levels : ∀ left right table, shared left table → shared right table → left = right)
    (tables : KernelTables frames kernel shared memory) (laid : WellLaid image data)
    (returned : loadIntoProcess frames kernel image process data (.start memory) =
      (.ok true, loaded, done)) {i offset : Nat} {header : SectionHeader}
    (small : i < image.numSections) (found : sectionHeader image data i = .ok (some header))
    (copied : offset < copySize header) :
    data[header.rawOffset + offset]? =
      some (done.memory.byte (loaded.imageBase + (header.virtualAddress + offset))) := by
  have member : header.virtualAddress + offset ∈ copiedRange header := by
    simp only [copiedRange, Span.mem_iff]
    omega
  have inside := laid.inside i small header found _ (mem_virtualRange member)
  have seen : (Tenant.seen done.memory
      ⟨⟨loaded.imageBase, 4096 * totalPages image⟩, 0⟩).bytes[header.virtualAddress + offset]? =
        some (done.memory.byte (loaded.imageBase + (header.virtualAddress + offset))) := by
    simp only [Tenant.seen, PhysMem.readBytes, List.getElem?_map, List.getElem?_range inside,
      Option.map_some]
  have holds := (holds_loaded placed captured aligned levels tables returned 0).2 laid
  have byte := (holds _ _ seen).copied i small header found member
  rwa [Nat.add_sub_cancel_left] at byte

/-- So the bytes that a section supplies are loaded. -/
theorem readBytes_loaded (placed : frames.Placed) (captured : kernel ≠ 0)
    (aligned : kernel % 4096 = 0)
    (levels : ∀ left right table, shared left table → shared right table → left = right)
    (tables : KernelTables frames kernel shared memory) (laid : WellLaid image data)
    (returned : loadIntoProcess frames kernel image process data (.start memory) =
      (.ok true, loaded, done)) {rva : Nat} {bytes : List UInt8}
    (supplies : Supplies image data rva bytes) :
    done.memory.readBytes (loaded.imageBase + rva) bytes.length = bytes := by
  obtain ⟨i, small, header, found, offset, rfl, within, there⟩ := supplies
  apply List.ext_getElem
  · rw [PhysMem.readBytes, List.length_map, List.length_range]
  · intro index _ inside
    have copied : offset + index < copySize header := by omega
    have byte := byte_loaded placed captured aligned levels tables laid returned small found copied
    have supplied : data[header.rawOffset + (offset + index)]? = some bytes[index] := by
      rw [← List.getElem?_eq_getElem inside, ← Nat.add_assoc, ← List.getElem?_drop,
        ← List.getElem?_take_of_lt inside, there]
    simp only [PhysMem.readBytes, List.getElem_map, List.getElem_range]
    rw [Nat.add_assoc, Nat.add_assoc]
    exact Option.some.inj (byte.symm.trans supplied)

/-- The instruction of the file is the one in memory. -/
theorem Guest.FileStep.step (placed : frames.Placed) (captured : kernel ≠ 0)
    (aligned : kernel % 4096 = 0)
    (levels : ∀ left right table, shared left table → shared right table → left = right)
    (tables : KernelTables frames kernel shared memory) (laid : WellLaid image data)
    (returned : loadIntoProcess frames kernel image process data (.start memory) =
      (.ok true, loaded, done))
    (step : before.FileStep syscall image data loaded.imageBase done.memory instruction after) :
    before.Step syscall instruction after := by
  obtain ⟨rva, bytes, spelled, supplies, here, intact, stepped⟩ := step
  refine ⟨bytes, spelled, ?_, stepped⟩
  rw [Guest.Reads, here, intact]
  exact readBytes_loaded placed captured aligned levels tables laid returned supplies

/-- The tables of a tree are of one level each. -/
theorem levels_of_treeShaped (shaped : TreeShaped frames memory kernel) (left right table : Nat)
    (leftHere : Reaches memory kernel left table) (rightHere : Reaches memory kernel right table) :
    left = right := by
  obtain ⟨leftPath, isLeft, leftLength, leftFound⟩ := leftHere.at_path
  obtain ⟨rightPath, isRight, rightLength, rightFound⟩ := rightHere.at_path
  have same := shaped.distinct _ _ _ isLeft isRight leftFound rightFound
  rw [same] at leftLength
  omega

/-- The section of the minimal executable is inside its image and in its file. -/
theorem wellLaid_text (found : sectionHeader textImage data 0 = .ok (some (textHeader 0x1000)))
    (long : 0x400 ≤ data.length) : WellLaid textImage data := by
  have only {i : Nat} {header : SectionHeader} (small : i < textImage.numSections)
      (isFound : sectionHeader textImage data i = .ok (some header)) :
      i = 0 ∧ header = textHeader 0x1000 := by
    obtain rfl : i = 0 := Nat.lt_one_iff.mp small
    rw [found, Except.ok.injEq, Option.some.injEq] at isFound
    exact ⟨rfl, isFound.symm⟩
  constructor
  · intro i iSmall j jSmall differ left right leftFound rightFound
    exact absurd ((only iSmall leftFound).1.trans (only jSmall rightFound).1.symm) differ
  · intro i small header isFound rva member
    rw [(only small isFound).2] at member
    simp only [virtualRange, textHeader, Span.mem_iff] at member
    show rva < 0x3000
    omega
  · intro i small header isFound _
    rw [(only small isFound).2]
    exact long

namespace Guest

/-- For every loaded image whose sections are apart, inside the image and in the file: every run of
the file's instructions that the program leaves alone is a run of the loop, wherever the image lies.
If it comes to a return of the file to zero, the loop halts there for good. -/
theorem interpret_loaded (placed : frames.Placed) (captured : kernel ≠ 0)
    (aligned : kernel % 4096 = 0)
    (levels : ∀ left right table, shared left table → shared right table → left = right)
    (tables : KernelTables frames kernel shared memory) (laid : WellLaid image data)
    (returned : loadIntoProcess frames kernel image process data (.start memory) =
      (.ok true, loaded, done)) {instructions : List GuestInstruction}
    (run : Run (Guarded GoesOn (FileStep syscall image data loaded.imageBase done.memory)) first
      instructions last) :
    first.interpret syscall instructions.length = .ok (.running last) ∧
      ∀ next, last.FileStep syscall image data loaded.imageBase done.memory (.wide .ret) next →
        last.Halts → ∀ more,
        first.interpret syscall (instructions.length + (more + 1)) =
          .ok (.stopped ⟨last.rip, last.cpu.dropWord, last.kernel⟩) := by
  have inMemory {before after : Guest κ} {instruction : GuestInstruction}
      (step : before.FileStep syscall image data loaded.imageBase done.memory instruction after) :
      before.Step syscall instruction after :=
    step.step placed captured aligned levels tables laid returned
  have goes := interpret_run (fun _ _ _ taken => round_step taken.1 (inMemory taken.2)) run
  refine ⟨goes, fun next step halts more => ?_⟩
  exact interpret_run_stopped goes (round_return (inMemory step) halts) more

/-- A program at an address, with a stack whose words lead there and to zero. -/
def returning (code : BitVec 64) (memory : PhysMem) : Guest Unit :=
  ⟨code, ((Cpu.mk (fun _ => 0x80010) memory).pushWord 0).pushWord code, ()⟩

/-- Its stack, which lies in sixteen bytes from a multiple of 8. -/
theorem returning_stack (code : BitVec 64) (memory : PhysMem) :
    (returning code memory).cpu.top = code ∧ (returning code memory).cpu.dropWord.top = 0 ∧
      (returning code memory).cpu.regs .rsp = 0x80000 ∧
      ∀ a ≥ 0x80010, (returning code memory).cpu.memory.byte a = memory.byte a := by
  let empty : Cpu := ⟨fun _ => 0x80010, memory⟩
  have room : 8 ≤ (empty.regs .rsp).toNat := show 8 ≤ 0x80010 by decide
  have fits : (empty.regs .rsp).toNat + 8 * 0 ≤ 2 ^ 64 := show 0x80010 ≤ 2 ^ 64 by decide
  obtain ⟨rsp, zero, zeroWrites⟩ := @Cpu.pushWord_spec empty [] 0 trivial room fits
  have below : ((empty.pushWord 0).regs .rsp).toNat = 0x80008 := rsp
  obtain ⟨pointer, words, writes⟩ := Cpu.pushWord_spec code zero (by omega) (by
    rw [below]
    decide)
  rw [below] at pointer
  refine ⟨words.1, ?_, BitVec.eq_of_toNat_eq pointer, fun a above => ?_⟩
  · have next : (returning code memory).cpu.memory.load64
        ((returning code memory).cpu.regs .rsp + 8) = 0 := words.2.1
    rwa [Cpu.top, Cpu.dropWord, Cpu.set_self, Cpu.set_memory]
  · refine (writes.unchanged a fun inSpan => ?_).trans (zeroWrites.unchanged a fun inSpan => ?_)
    · simp only [Cpu.pushSpan, Span.mem_toSet, Span.mem_iff, below] at inSpan
      omega
    · have top : (empty.regs .rsp).toNat = 0x80010 := rfl
      simp only [Cpu.pushSpan, Span.mem_toSet, Span.mem_iff, top] at inSpan
      omega

/-- The text of the minimal executable returns to its first byte, and then to zero. -/
theorem interpret_loaded_text : ∃ memory loaded done, ∃ first last : Guest Unit,
    loadIntoProcess FrameAllocator.mebibyteFrames 0x200000 textImage ⟨0, 0, 0, 0⟩
      (textFile 0x1000).encode (.start memory) = (.ok true, loaded, done) ∧
    first.rip.toNat = loaded.imageBase + 0x1000 ∧
    first.interpret succeeds 1 = .ok (.running last) ∧
    first.interpret succeeds 2 = .ok (.stopped ⟨first.rip, last.cpu.dropWord, ()⟩) := by
  have found : sectionHeader textImage (textFile 0x1000).encode 0 =
      .ok (some (textHeader 0x1000)) := by decide +kernel
  have text : ((textFile 0x1000).encode.drop 0x200).take 1 = [0xC3] := by decide +kernel
  have length : 0x400 ≤ (textFile 0x1000).encode.length := by decide +kernel
  generalize (textFile 0x1000).encode = data at found text length ⊢
  obtain ⟨memory, loaded, done, _, placed, shaped, _, _, returned, _⟩ := text_loads (by decide) found
  obtain ⟨granted, allocated, _⟩ := loadIntoProcess_returned returned
  obtain ⟨_, spec⟩ := allocateContiguous_spec placed.covers allocated
  obtain ⟨_, frame, base, taken⟩ := spec _ rfl
  have address : loaded.imageBase = 0x100000 + frame * 4096 := base
  have inside : frame + 3 ≤ 256 := taken.inside
  obtain ⟨code, isCode⟩ : ∃ code : BitVec 64, code.toNat = loaded.imageBase + 0x1000 := by
    refine ⟨BitVec.ofNat 64 (loaded.imageBase + 0x1000), ?_⟩
    rw [BitVec.toNat_ofNat]
    omega
  obtain ⟨top, second, pointer, same⟩ := returning_stack code done.memory
  let first := returning code done.memory
  have present : code ≠ 0 := by
    intro absent
    rw [absent] at isCode
    cases isCode
  have step {before : Guest Unit} (here : before.rip = code)
      (untouched : before.cpu.memory = first.cpu.memory) :
      before.FileStep succeeds textImage data loaded.imageBase done.memory (.wide .ret)
        ⟨before.cpu.top, before.cpu.dropWord, ()⟩ := by
    refine ⟨0x1000, [0xC3], .wide (.ret none), ?_, ?_, ?_, rfl⟩
    · exact ⟨0, Nat.zero_lt_one, _, found, 0, rfl, by decide, text⟩
    · rw [here, isCode]
    · rw [untouched]
      simp only [PhysMem.readBytes, List.length_singleton, List.range_one, List.map_singleton]
      rw [same _ (by omega)]
  have run : Run (Guarded GoesOn (FileStep succeeds textImage data loaded.imageBase done.memory))
      first [.wide .ret] ⟨first.cpu.top, first.cpu.dropWord, ()⟩ := by
    refine .cons ⟨⟨present, fun _ => ?_, ?_⟩, step rfl rfl⟩ (.nil _)
    · rw [top]
      exact present
    · rintro bytes _ _ word ⟨⟩
      rw [pointer]
      decide
  obtain ⟨goes, halts⟩ := interpret_loaded placed (by decide) (by decide)
    (levels_of_treeShaped shaped) (shaped.kernelTables placed) (wellLaid_text found length)
    returned run
  refine ⟨memory, loaded, done, first, _, returned, isCode, goes, ?_⟩
  have below : first.cpu.dropWord.regs .rsp = 0x80008 := by
    rw [Cpu.dropWord, Cpu.set_self, pointer]
    decide
  have stopped := halts _ (step top rfl) ⟨?_, ?_, second⟩ 0
  · rwa [top] at stopped
  · rw [top]
    exact present
  · rw [below]
    decide

end Guest

end Loaded

end Aperture.Win32
