import Aperture.Mm.FrameOwnership
import Aperture.Vfs.Contents

/-!
# A store of byte strings

`FileStore` says what the file system is for: each file is a byte string, each open file a
position in one. Every run of the file system, with any other use of memory that leaves its
frames alone in between, is a run of the store with the same results.
-/

namespace Aperture.Vfs

open Machine Mm

/-- Byte strings and open files. -/
@[ext]
structure FileStore where
  /-- The bytes of each file. -/
  content : Nat → List UInt8
  /-- The open file of each handle. -/
  files : Nat → Option OpenFile
  /-- A file has at most 64 KiB. -/
  bounded : ∀ node, (content node).length ≤ FileSystem.maxFileSize
  /-- Positions lie inside their files. -/
  inside : ∀ handle file, files handle = some file → file.position ≤ (content file.node).length

/-- A call on the file system with its result, or a step of other code. -/
inductive FileEvent where
  /-- `create`. -/
  | create (parent : Nat) (name : List UInt8) (kind : NodeKind) (result : Option Nat)
  /-- `open`. -/
  | openFile (node : Nat) (writable : Bool) (result : Option Nat)
  /-- `close`. -/
  | close (handle : Nat) (result : Bool)
  /-- `read`, with the buffer before and after. -/
  | read (handle : Nat) (buf : List UInt8) (result : Option Nat) (filled : List UInt8)
  /-- `write`, with the number of frames that are free behind it. -/
  | write (handle : Nat) (buf : List UInt8) (result : Option Nat) (free : Nat)
  /-- Any other code leaves this memory behind. -/
  | other (memory : PhysMem)

namespace FileStore

/-- No files, none open. -/
def empty : FileStore where
  content := fun _ => []
  files := fun _ => none
  bounded := by simp
  inside := by simp

/-- Reading: as many bytes as the buffer holds and the file has from the position on. -/
def Read (store : FileStore) (handle : Nat) (buf : List UInt8) (result : Option Nat)
    (filled : List UInt8) (after : FileStore) : Prop :=
  match store.files handle with
  | none => result = none ∧ filled = buf ∧ after = store
  | some file =>
    let count := min buf.length ((store.content file.node).length - file.position)
    result = some count ∧
      filled = ((store.content file.node).drop file.position).take count ++ buf.drop count ∧
      after.content = store.content ∧
      after.files = Function.update store.files handle
        (some { file with position := file.position + count })

/-- Writing: a prefix of the buffer replaces the bytes at the position; when the result is a
number, it is the prefix's length and all of the buffer that fits the file. On a writable file there
is no other result but for want of frames, with a shorter prefix. -/
def Write (store : FileStore) (handle : Nat) (buf : List UInt8) (result : Option Nat) (free : Nat)
    (after : FileStore) : Prop :=
  match store.files handle with
  | none => result = none ∧ after = store
  | some file =>
    if file.writable then
      ∃ count ≤ buf.length,
        (∀ written, result = some written →
          written = count ∧ count = min buf.length (65536 - file.position)) ∧
        (result = none → count < min buf.length (65536 - file.position) ∧ free = 0) ∧
        after.content = Function.update store.content file.node
          (overwrite (store.content file.node) file.position (buf.take count)) ∧
        after.files = Function.update store.files handle
          (some { file with position := file.position + count })
    else result = none ∧ after = store

/-- What each call may return and leave behind. -/
def Step (store : FileStore) (event : FileEvent) (after : FileStore) : Prop :=
  match event with
  | .create _ _ _ result => after = store ∧ ∀ node, result = some node → store.content node = []
  | .openFile _ _ none => after = store
  | .openFile node writable (some handle) =>
    store.files handle = none ∧ after.content = store.content ∧
      after.files = Function.update store.files handle (some ⟨node, 0, writable⟩)
  | .close handle result =>
    result = (store.files handle).isSome ∧ after.content = store.content ∧
      after.files = Function.update store.files handle none
  | .read handle buf result filled => store.Read handle buf result filled after
  | .write handle buf result free => store.Write handle buf result free after
  | .other _ => after = store

end FileStore

namespace FileSystem

variable {frames : FrameAllocator} {regions : List MemoryRegion} {fs after : FileSystem}

/-- One call that returns, or a step of other code. -/
def Step (frames : FrameAllocator) (fs : FileSystem) (event : FileEvent) (after : FileSystem) :
    Prop :=
  match event with
  | .create parent name kind result => fs.create parent name kind = (result, after)
  | .openFile node writable result => fs.openFile node writable = .ok (result, after)
  | .close handle result => fs.close handle = .ok (result, after)
  | .read handle buf result filled => fs.read handle buf = .ok (result, filled, after)
  | .write handle buf result free =>
    fs.write frames handle buf = .ok (result, after) ∧ free = frames.freeFrames after.memory
  | .other memory => after = { fs with memory }

/-- Other code neither writes nor frees the file system's frames, and frees only frames of
usable memory off the bitmap. -/
def Undisturbed (frames : FrameAllocator) (regions : List MemoryRegion) (fs : FileSystem) :
    FileEvent → Prop
  | .other memory =>
    (∀ node slot frame, fs.fileData node slot = some frame →
      (∀ a ∈ (⟨frame, 4096⟩ : Span), memory.byte a = fs.memory.byte a) ∧
      ∀ index < frames.frameCount, frame = frames.frameAddr index →
        frames.used memory index = true) ∧
    ∀ index < frames.frameCount, frames.used memory index = false →
      frames.Allocatable regions index
  | .create _ _ _ _ => True
  | .openFile _ _ _ => True
  | .close _ _ => True
  | .read _ _ _ _ => True
  | .write _ _ _ _ => True

/-- The store a consistent file system stands for. -/
def Consistent.store (consistent : fs.Consistent frames regions) : FileStore where
  content := fs.content
  files := fs.openFiles
  bounded node := by
    rw [length_content]
    exact consistent.bounded node
  inside handle file isOpen := by
    rw [length_content]
    exact (consistent.opened handle file isOpen).2.2.2

/-- Only open files change. -/
theorem Consistent.withOpenFiles (consistent : fs.Consistent frames regions)
    {openFiles : Nat → Option OpenFile}
    (opened : ∀ handle file, openFiles handle = some file → handle < maxOpenFiles ∧
      file.node < maxNodes ∧ fs.nodes file.node ≠ none ∧
      file.position ≤ fs.fileSizes file.node) :
    { fs with openFiles }.Consistent frames regions :=
  { consistent with opened }

/-- Moving an open file inside its file. -/
theorem Consistent.seek (consistent : fs.Consistent frames regions) {handle : Nat}
    {file : OpenFile} (isOpen : fs.openFiles handle = some file) {position : Nat}
    (inside : position ≤ fs.fileSizes file.node) :
    (fs.seek handle file position).Consistent frames regions := by
  refine consistent.withOpenFiles fun other otherFile found => ?_
  by_cases same : other = handle
  · obtain ⟨isHandle, isNode, created, _⟩ := consistent.opened handle file isOpen
    rw [same, Function.update_self, Option.some.injEq] at found
    rw [same, ← found]
    exact ⟨isHandle, isNode, created, inside⟩
  · rw [Function.update_of_ne same] at found
    exact consistent.opened other otherFile found

/-- A handle in use is found. -/
theorem Consistent.openAt_eq (consistent : fs.Consistent frames regions) {handle : Nat}
    {file : OpenFile} (isOpen : fs.openFiles handle = some file) :
    fs.openAt handle = .ok (some file) := by
  have isHandle := (consistent.opened handle file isOpen).1
  rw [openAt, if_neg (by omega), isOpen]

/-- What `read` returns on an open file. -/
theorem Consistent.read_eq (consistent : fs.Consistent frames regions) {handle : Nat}
    {file : OpenFile} (isOpen : fs.openFiles handle = some file) (buf : List UInt8) {count : Nat}
    (counted : count = min buf.length (fs.fileSizes file.node - file.position)) :
    fs.read handle buf = .ok (some count,
      ((fs.content file.node).drop file.position).take count ++ buf.drop count,
      fs.seek handle file (file.position + count)) := by
  obtain ⟨_, isNode, _, inside⟩ := consistent.opened handle file isOpen
  have size : fs.sizeAt file.node = .ok (fs.fileSizes file.node) := by
    rw [sizeAt, if_neg (by omega)]
  have bytes : ((fs.content file.node).drop file.position).take buf.length =
      ((fs.content file.node).drop file.position).take count := by
    rw [List.take_eq_take_iff, List.length_drop, length_content]
    omega
  have length : (((fs.content file.node).drop file.position).take count).length = count := by
    rw [List.length_take, List.length_drop, length_content]
    omega
  simp only [read, consistent.openAt_eq isOpen, ok_bind, size,
    consistent.readLoop_eq isNode file.position buf.length inside, bytes, length, ← counted]
  rfl

/-- What `write` does on a writable open file. -/
theorem Consistent.write_spec (covers : frames.Covers) (consistent : fs.Consistent frames regions)
    {handle : Nat} {file : OpenFile} (isOpen : fs.openFiles handle = some file)
    (writable : file.writable = true) (buf : List UInt8) :
    ∃ result after count, fs.write frames handle buf = .ok (result, after) ∧
      after.Consistent frames regions ∧ count ≤ buf.length ∧
      Written fs handle file (buf.take count) after ∧
      (∀ written, result = some written →
        written = count ∧ count = min buf.length (maxFileSize - file.position)) ∧
      (result = none → count < min buf.length (maxFileSize - file.position) ∧
        frames.freeFrames after.memory = 0) := by
  simp only [write, consistent.openAt_eq isOpen, ok_bind, writable, ↓reduceIte]
  exact consistent.writeLoop_spec covers isOpen buf

/-- `create` takes an unused node, whose file is empty. -/
theorem Consistent.create_step (consistent : fs.Consistent frames regions) {parent : Nat}
    {name : List UInt8} {kind : NodeKind} {result : Option Nat}
    (returned : fs.create parent name kind = (result, after)) :
    ∃ next : after.Consistent frames regions,
      consistent.store.Step (.create parent name kind result) next.store := by
  have refused (eq : (none, fs) = (result, after)) : ∃ next : after.Consistent frames regions,
      consistent.store.Step (.create parent name kind result) next.store := by
    obtain ⟨rfl, rfl⟩ := Prod.mk.inj eq
    exact ⟨consistent, rfl, by simp⟩
  unfold create at returned
  split at returned
  · exact refused returned
  · split at returned
    · exact refused returned
    · split at returned
      · exact refused returned
      · rename_i index found
        obtain ⟨rfl, rfl⟩ := Prod.mk.inj returned
        have unused : fs.nodes index = none := by simpa using (position_eq_some.mp found).2.1
        have emptyFile : fs.fileSizes index = 0 := consistent.empty index unused
        refine ⟨{ consistent with
          empty := fun node missing => ?_
          opened := fun handle file isOpen => ?_ }, rfl, fun node same => ?_⟩
        · by_cases same : node = index
          · rw [same]
            exact emptyFile
          · exact consistent.empty node ((Function.update_of_ne same _ _).symm.trans missing)
        · obtain ⟨isHandle, isNode, created, inside⟩ := consistent.opened handle file isOpen
          refine ⟨isHandle, isNode, ?_, inside⟩
          by_cases same : file.node = index
          · simp [same]
          · simpa [same] using created
        · rw [← Option.some.inj same]
          exact List.length_eq_zero_iff.mp ((length_content fs index).trans emptyFile)

/-- `open` takes an unused handle. -/
theorem Consistent.openFile_step (consistent : fs.Consistent frames regions) {node : Nat}
    {writable : Bool} {result : Option Nat}
    (returned : fs.openFile node writable = .ok (result, after)) :
    ∃ next : after.Consistent frames regions,
      consistent.store.Step (.openFile node writable result) next.store := by
  have refused (eq : (none, fs) = (result, after)) : ∃ next : after.Consistent frames regions,
      consistent.store.Step (.openFile node writable result) next.store := by
    obtain ⟨rfl, rfl⟩ := Prod.mk.inj eq
    exact ⟨consistent, rfl⟩
  unfold openFile at returned
  split at returned
  · cases returned
  · rename_i isNode
    split at returned
    · exact refused (Except.ok.inj returned)
    · exact refused (Except.ok.inj returned)
    · rename_i created
      split at returned
      · exact refused (Except.ok.inj returned)
      · rename_i handle found
        obtain ⟨rfl, rfl⟩ := Prod.mk.inj (Except.ok.inj returned)
        obtain ⟨isHandle, unused, _⟩ := position_eq_some.mp found
        have free : fs.openFiles handle = none := by simpa using unused
        refine ⟨consistent.withOpenFiles fun other file isOpen => ?_, free, rfl, rfl⟩
        by_cases same : other = handle
        · rw [same, Function.update_self, Option.some.injEq] at isOpen
          rw [same, ← isOpen]
          exact ⟨isHandle, Nat.not_le.mp isNode, by simp [created], Nat.zero_le _⟩
        · rw [Function.update_of_ne same] at isOpen
          exact consistent.opened other file isOpen

/-- `close` forgets an open file. -/
theorem Consistent.close_step (consistent : fs.Consistent frames regions) {handle : Nat}
    {result : Bool} (returned : fs.close handle = .ok (result, after)) :
    ∃ next : after.Consistent frames regions,
      consistent.store.Step (.close handle result) next.store := by
  simp only [close, openAt] at returned
  split at returned
  · cases returned
  · cases isOpen : fs.openFiles handle with
    | none =>
      simp only [isOpen, ok_bind] at returned
      obtain ⟨rfl, rfl⟩ := Prod.mk.inj (pure_eq_ok.mp returned)
      refine ⟨consistent, by simp [store, isOpen], rfl, ?_⟩
      exact (Function.update_eq_self_iff.mpr isOpen.symm).symm
    | some file =>
      simp only [isOpen, ok_bind] at returned
      obtain ⟨rfl, rfl⟩ := Prod.mk.inj (pure_eq_ok.mp returned)
      refine ⟨consistent.withOpenFiles fun other otherFile found => ?_, by simp [store, isOpen],
        rfl, rfl⟩
      by_cases same : other = handle
      · rw [same, Function.update_self] at found
        cases found
      · rw [Function.update_of_ne same] at found
        exact consistent.opened other otherFile found

/-- `read` returns the bytes of the store. -/
theorem Consistent.read_step (consistent : fs.Consistent frames regions) {handle : Nat}
    {buf filled : List UInt8} {result : Option Nat}
    (returned : fs.read handle buf = .ok (result, filled, after)) :
    ∃ next : after.Consistent frames regions,
      consistent.store.Step (.read handle buf result filled) next.store := by
  cases isOpen : fs.openFiles handle with
  | none =>
    simp only [read, openAt] at returned
    split at returned
    · cases returned
    · simp only [isOpen, ok_bind, pure_eq_ok, Prod.mk.injEq] at returned
      obtain ⟨rfl, rfl, rfl⟩ := returned
      refine ⟨consistent, ?_⟩
      simp only [FileStore.Step, FileStore.Read, store, isOpen, and_self]
  | some file =>
    have inside := (consistent.opened handle file isOpen).2.2.2
    rw [consistent.read_eq isOpen buf rfl, Except.ok.injEq, Prod.mk.injEq, Prod.mk.injEq] at returned
    obtain ⟨rfl, rfl, rfl⟩ := returned
    refine ⟨consistent.seek isOpen (by omega), ?_⟩
    simp only [FileStore.Step, FileStore.Read, store, isOpen, length_content, true_and]
    exact ⟨rfl, rfl⟩

/-- `write` overwrites the bytes of the store. -/
theorem Consistent.write_step (covers : frames.Covers) (consistent : fs.Consistent frames regions)
    {handle : Nat} {buf : List UInt8} {result : Option Nat}
    (returned : fs.write frames handle buf = .ok (result, after)) :
    ∃ next : after.Consistent frames regions,
      consistent.store.Step (.write handle buf result (frames.freeFrames after.memory))
        next.store := by
  cases isOpen : fs.openFiles handle with
  | none =>
    simp only [write, openAt] at returned
    split at returned
    · cases returned
    · simp only [isOpen, ok_bind, pure_eq_ok, Prod.mk.injEq] at returned
      obtain ⟨rfl, rfl⟩ := returned
      refine ⟨consistent, ?_⟩
      simp only [FileStore.Step, FileStore.Write, store, isOpen, and_self]
  | some file =>
    cases writable : file.writable with
    | false =>
      simp only [write, consistent.openAt_eq isOpen, ok_bind, writable, Bool.false_eq_true,
        ↓reduceIte, pure_eq_ok, Prod.mk.injEq] at returned
      obtain ⟨rfl, rfl⟩ := returned
      refine ⟨consistent, ?_⟩
      simp only [FileStore.Step, FileStore.Write, store, isOpen, writable, Bool.false_eq_true,
        ↓reduceIte, and_self]
    | true =>
      obtain ⟨outcome, last, count, ended, next, below, written, whole, starved⟩ :=
        consistent.write_spec covers isOpen writable buf
      rw [ended, Except.ok.injEq, Prod.mk.injEq] at returned
      obtain ⟨rfl, rfl⟩ := returned
      have length : (buf.take count).length = count := by
        rw [List.length_take]
        omega
      refine ⟨next, ?_⟩
      simp only [FileStore.Step, FileStore.Write, store, isOpen]
      rw [if_pos writable]
      refine ⟨count, below, whole, starved, ?_, ?_⟩
      · funext node
        by_cases same : node = file.node
        · rw [same, Function.update_self, written.written]
        · rw [Function.update_of_ne same, written.others node same]
      · rw [written.openFiles, length]

/-- Other code that leaves the frames alone changes no file. -/
theorem Consistent.other_step (consistent : fs.Consistent frames regions) {memory : PhysMem}
    (undisturbed : fs.Undisturbed frames regions (.other memory)) :
    ∃ next : { fs with memory }.Consistent frames regions,
      consistent.store.Step (.other memory) next.store := by
  obtain ⟨kept, free⟩ := undisturbed
  refine ⟨{ consistent with free, owned := fun node slot frame found => ?_ }, ?_⟩
  · obtain ⟨index, inside, address, _, fit⟩ := consistent.owned node slot frame found
    exact ⟨index, inside, address, (kept node slot frame found).2 index inside address, fit⟩
  · refine FileStore.ext (funext fun node => content_congr rfl fun i _ => ?_) rfl
    cases found : fs.fileData node (i / 4096) with
    | none => simp only [byteAt, found]
    | some frame =>
      have same : { fs with memory }.fileData node (i / 4096) = some frame := found
      rw [byteAt_of_frame found, byteAt_of_frame same]
      refine (kept node _ frame found).1 _ ?_
      rw [Span.mem_iff]
      simp only
      omega

/-- Every step is one of the store. -/
theorem Consistent.step (covers : frames.Covers) (consistent : fs.Consistent frames regions)
    {event : FileEvent} (undisturbed : fs.Undisturbed frames regions event)
    (step : fs.Step frames event after) :
    ∃ next : after.Consistent frames regions, consistent.store.Step event next.store := by
  cases event with
  | create => exact consistent.create_step step
  | openFile => exact consistent.openFile_step step
  | close => exact consistent.close_step step
  | read => exact consistent.read_step step
  | write handle buf result free =>
    obtain ⟨returned, rfl⟩ := step
    exact consistent.write_step covers returned
  | other =>
    rw [step]
    exact consistent.other_step undisturbed

/-- The store stands for the file system. -/
def StandsFor (frames : FrameAllocator) (regions : List MemoryRegion) (fs : FileSystem)
    (store : FileStore) : Prop :=
  ∃ consistent : fs.Consistent frames regions, store = consistent.store

/-- Every run after `init` is simulated by the store. -/
theorem standsFor_of_run {memory booted : PhysMem}
    (initialized : FrameAllocator.init memory regions = .ok (frames, booted))
    {events : List FileEvent} {last : FileSystem}
    (run : Run (Guarded (Undisturbed frames regions) (Step frames)) (init booted) events last) :
    ∃ store, StandsFor frames regions last store ∧ Run FileStore.Step .empty events store := by
  obtain ⟨placed, _, bits⟩ := FrameAllocator.init_spec initialized
  have start : (init booted).Consistent frames regions :=
    consistent_init fun index inside clear => ((bits index inside).mp clear).1
  have emptyStore : StandsFor frames regions (init booted) .empty := ⟨start, rfl⟩
  refine run.simulates (StandsFor frames regions) ?_ emptyStore
  rintro before event after store ⟨consistent, rfl⟩ ⟨undisturbed, step⟩
  obtain ⟨next, matched⟩ := consistent.step placed.covers undisturbed step
  exact ⟨next.store, ⟨next, rfl⟩, matched⟩

/-- `write` returns on every open file. -/
theorem Consistent.write_returns (covers : frames.Covers)
    (consistent : fs.Consistent frames regions) {handle : Nat} {file : OpenFile}
    (isOpen : fs.openFiles handle = some file) (buf : List UInt8) :
    ∃ result next, fs.write frames handle buf = .ok (result, next) := by
  cases writable : file.writable with
  | true =>
    obtain ⟨result, next, _, returned, _⟩ := consistent.write_spec covers isOpen writable buf
    exact ⟨result, next, returned⟩
  | false =>
    simp only [write, consistent.openAt_eq isOpen, ok_bind, writable, Bool.false_eq_true,
      ↓reduceIte]
    exact ⟨none, fs, rfl⟩

/-- What fits one page is written whole while a frame is free. -/
theorem Consistent.write_page (covers : frames.Covers) (consistent : fs.Consistent frames regions)
    {handle : Nat} {file : OpenFile} (isOpen : fs.openFiles handle = some file)
    (writable : file.writable = true) {buf : List UInt8}
    (inPage : file.position % 4096 + buf.length ≤ 4096)
    (inFile : file.position / 4096 < fileDataFrames) {index : Nat}
    (inside : index < frames.frameCount) (free : frames.used fs.memory index = false) :
    ∃ next, fs.write frames handle buf = .ok (some buf.length, next) := by
  obtain ⟨_, isNode, _, _⟩ := consistent.opened handle file isOpen
  simp only [write, consistent.openAt_eq isOpen, ok_bind, writable, ↓reduceIte]
  rw [writeLoop]
  by_cases more : 0 < buf.length ∧ file.position / 4096 < fileDataFrames
  · rw [if_pos more]
    obtain ⟨slot, taken, ensured, takenConsistent, found, _⟩ :=
      consistent.ensureFrame_spec covers isNode inFile
    simp only [ensured, ok_bind]
    cases slot with
    | none =>
      obtain ⟨present, located, ensured⟩ := bind_eq_ok.mp ensured
      cases present with
      | some frame => cases ensured
      | none =>
        obtain ⟨lowest, memory, _, _, returned, _⟩ :=
          FrameAllocator.allocateFrame_returns covers inside free
        simp only [returned] at ensured
        cases ensured
    | some frame =>
      have whole : min buf.length (4096 - file.position % 4096) = buf.length := by omega
      simp only [whole, takenConsistent.putChunk_eq handle found, ok_bind, List.drop_length]
      rw [writeLoop, if_neg (by simp)]
      exact ⟨_, rfl⟩
  · rw [if_neg more]
    have nothing : buf.length = 0 := by omega
    rw [nothing]
    exact ⟨_, rfl⟩

/-- For every memory map `init` accepts and every run of the file system after it, in which other
code leaves the file system's frames alone, the store of byte strings has a run with the same
results. In the state reached every position is inside its file, and `read` and `write` return
on every open file. -/
theorem refines_fileStore {memory booted : PhysMem}
    (initialized : FrameAllocator.init memory regions = .ok (frames, booted))
    {events : List FileEvent} {last : FileSystem}
    (run : Run (Guarded (Undisturbed frames regions) (Step frames)) (init booted) events last) :
    (∃ store, Run FileStore.Step .empty events store ∧ store.content = last.content ∧
      store.files = last.openFiles) ∧
    ∀ handle file, last.openFiles handle = some file →
      file.position ≤ last.fileSizes file.node ∧ last.fileSizes file.node ≤ 65536 ∧
      ∀ buf, (∃ result filled next, last.read handle buf = .ok (result, filled, next)) ∧
        ∃ result next, last.write frames handle buf = .ok (result, next) := by
  have covers := (FrameAllocator.init_spec initialized).1.covers
  obtain ⟨store, ⟨consistent, rfl⟩, matched⟩ := standsFor_of_run initialized run
  refine ⟨⟨consistent.store, matched, rfl, rfl⟩, fun handle file isOpen => ?_⟩
  refine ⟨(consistent.opened handle file isOpen).2.2.2, consistent.bounded file.node, fun buf => ?_⟩
  exact ⟨⟨_, _, _, consistent.read_eq isOpen buf rfl⟩,
    consistent.write_returns covers isOpen buf⟩

/-- The first file created goes to node 1. -/
theorem create_first (booted : PhysMem) : ∃ created,
    (init booted).create 0 [0x61] .file = (some 1, created) ∧
      created.nodes 1 = some ⟨.file, some 0, [0x61]⟩ ∧ (∀ handle, created.openFiles handle = none) ∧
      created.memory = booted := by
  have free : (position maxNodes fun i => ((init booted).nodes i).isNone) = some 1 := by
    refine position_eq_some.mpr ⟨by decide, by simp [init], fun other below => ?_⟩
    rw [Nat.lt_one_iff.mp below]
    simp [init]
  have absent : (init booted).findChild 0 [0x61] = none := by
    refine position_eq_none.mpr fun index _ => ?_
    by_cases root : index = 0
    · simp [init, root]
    · simp [init, root]
  rw [create, if_neg (by decide), absent, free]
  exact ⟨_, rfl, by simp, fun _ => rfl, rfl⟩

/-- The first file opened gets handle 0. -/
theorem openFile_first {node : Nat} (isNode : node < maxNodes)
    (closed : ∀ handle, fs.openFiles handle = none) {parent : Option Nat} {name : List UInt8}
    (isFile : fs.nodes node = some ⟨.file, parent, name⟩) (writable : Bool) :
    ∃ opened, fs.openFile node writable = .ok (some 0, opened) ∧
      opened.openFiles 0 = some ⟨node, 0, writable⟩ ∧ opened.memory = fs.memory := by
  have free : (position maxOpenFiles fun i => (fs.openFiles i).isNone) = some 0 :=
    position_eq_some.mpr ⟨by decide, by simp [closed], by simp⟩
  simp only [openFile, if_neg (Nat.not_le.mpr isNode), isFile, free]
  exact ⟨_, rfl, by simp, rfl⟩

/-- Creating, opening and writing a file on the usable mebibyte: all three bytes are written. -/
theorem refines_fileStore_write : ∃ frames booted last free, ∃ store : FileStore,
    FrameAllocator.init ⟨fun _ => 0, []⟩ FrameAllocator.mebibyteMap = .ok (frames, booted) ∧
    Run (Guarded (Undisturbed frames FrameAllocator.mebibyteMap) (Step frames)) (init booted)
      [.create 0 [0x61] .file (some 1), .openFile 1 true (some 0),
        .write 0 [1, 2, 3] (some 3) free] last ∧
    Run FileStore.Step .empty
      [.create 0 [0x61] .file (some 1), .openFile 1 true (some 0),
        .write 0 [1, 2, 3] (some 3) free] store ∧
    store.content = last.content := by
  obtain ⟨booted, initialized, vacant⟩ := FrameAllocator.mebibyteMap_init ⟨fun _ => 0, []⟩
  obtain ⟨created, creates, isFile, closed, createdMemory⟩ := create_first booted
  obtain ⟨opened, opens, isOpen, openedMemory⟩ := openFile_first (by decide) closed isFile true
  have created_step : Guarded (Undisturbed FrameAllocator.mebibyteFrames FrameAllocator.mebibyteMap)
      (Step FrameAllocator.mebibyteFrames) (init booted) (.create 0 [0x61] .file (some 1)) created :=
    ⟨trivial, creates⟩
  have opened_step : Guarded (Undisturbed FrameAllocator.mebibyteFrames FrameAllocator.mebibyteMap)
      (Step FrameAllocator.mebibyteFrames) created (.openFile 1 true (some 0)) opened :=
    ⟨trivial, opens⟩
  have placed := (FrameAllocator.init_spec initialized).1
  have start : (init booted).Consistent FrameAllocator.mebibyteFrames FrameAllocator.mebibyteMap :=
    consistent_init fun index inside clear =>
      (((FrameAllocator.init_spec initialized).2.2 index inside).mp clear).1
  obtain ⟨createdConsistent, _⟩ := start.create_step creates
  obtain ⟨openedConsistent, _⟩ := createdConsistent.openFile_step opens
  have free : FrameAllocator.mebibyteFrames.used opened.memory 1 = false := by
    rw [openedMemory, createdMemory]
    exact vacant 1 (by decide) (by decide)
  obtain ⟨written, writes⟩ := openedConsistent.write_page placed.covers isOpen rfl
    (by decide : 0 % 4096 + ([1, 2, 3] : List UInt8).length ≤ 4096) (by decide) (by decide) free
  have written_step : Guarded
      (Undisturbed FrameAllocator.mebibyteFrames FrameAllocator.mebibyteMap)
      (Step FrameAllocator.mebibyteFrames) opened (.write 0 [1, 2, 3] (some 3)
        (FrameAllocator.mebibyteFrames.freeFrames written.memory)) written :=
    ⟨trivial, writes, rfl⟩
  have run := Run.cons created_step (.cons opened_step (.cons written_step (.nil written)))
  obtain ⟨store, matched, contents, _⟩ := (refines_fileStore initialized run).1
  exact ⟨_, booted, written, _, store, initialized, run, matched, contents⟩

end FileSystem

end Aperture.Vfs
