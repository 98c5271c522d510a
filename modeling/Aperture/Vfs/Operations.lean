import Aperture.Vfs.FileSystem

/-!
# What each operation does to the tables

`create`, `open` and `close` change one slot of one table or nothing; `read` and `write` move the
position of the file they are called on and leave the nodes and the set of open files as they are.
-/

namespace Aperture.Vfs.FileSystem

open Machine Mm

variable {fs after : FileSystem}

/-- What `create` does: nothing, or a new node in the first free slot. -/
theorem create_cases {above : Nat} {name : List UInt8} {kind : NodeKind} {result : Option Nat}
    (created : fs.create above name kind = (result, after)) :
    (result = none ∧ after = fs ∧ (maxNameLen < name.length ∨
      (fs.findChild above name).isSome = true ∨ ∀ i < maxNodes, (fs.nodes i).isSome = true)) ∨
    ∃ slot, result = some slot ∧ name.length ≤ maxNameLen ∧ fs.findChild above name = none ∧
      (position maxNodes fun i => (fs.nodes i).isNone) = some slot ∧
      after = { fs with nodes := Function.update fs.nodes slot (some ⟨kind, some above, name⟩) } := by
  unfold create at created
  split at created
  · rename_i long
    obtain ⟨rfl, rfl⟩ := Prod.mk.inj created
    exact .inl ⟨rfl, rfl, .inl long⟩
  rename_i short
  split at created
  · rename_i taken
    obtain ⟨rfl, rfl⟩ := Prod.mk.inj created
    exact .inl ⟨rfl, rfl, .inr (.inl taken)⟩
  rename_i free
  split at created
  · rename_i full
    obtain ⟨rfl, rfl⟩ := Prod.mk.inj created
    refine .inl ⟨rfl, rfl, .inr (.inr fun i small => ?_)⟩
    simpa using position_eq_none.mp full i small
  · rename_i slot found
    obtain ⟨rfl, rfl⟩ := Prod.mk.inj created
    exact .inr ⟨slot, rfl, Nat.not_lt.mp short, by simpa using free, found, rfl⟩

/-- What `open` does: nothing, or a handle on a file in the first free slot. -/
theorem openFile_cases {node : Nat} {writable : Bool} {result : Option Nat}
    (returned : fs.openFile node writable = .ok (result, after)) :
    (result = none ∧ after = fs ∧ ((∀ above name, fs.nodes node ≠ some ⟨.file, above, name⟩) ∨
      ∀ i < maxOpenFiles, fs.openFiles i ≠ none)) ∨
    ∃ slot above name, result = some slot ∧ fs.nodes node = some ⟨.file, above, name⟩ ∧
      slot < maxOpenFiles ∧ fs.openFiles slot = none ∧
      after = { fs with openFiles := Function.update fs.openFiles slot (some ⟨node, 0, writable⟩) } := by
  unfold openFile at returned
  split at returned
  · cases returned
  split at returned
  · rename_i missing
    obtain ⟨rfl, rfl⟩ := Prod.mk.inj (Except.ok.inj returned)
    exact .inl ⟨rfl, rfl, .inl (by simp [missing])⟩
  · rename_i isDirectory
    obtain ⟨rfl, rfl⟩ := Prod.mk.inj (Except.ok.inj returned)
    exact .inl ⟨rfl, rfl, .inl (by simp [isDirectory])⟩
  rename_i above name isFile
  split at returned
  · rename_i full
    obtain ⟨rfl, rfl⟩ := Prod.mk.inj (Except.ok.inj returned)
    refine .inl ⟨rfl, rfl, .inr fun i small => ?_⟩
    exact Option.isSome_iff_ne_none.mp (by simpa using position_eq_none.mp full i small)
  · rename_i slot found
    obtain ⟨rfl, rfl⟩ := Prod.mk.inj (Except.ok.inj returned)
    obtain ⟨small, empty, _⟩ := position_eq_some.mp found
    exact .inr ⟨slot, above, name, rfl, isFile, small, by simpa using empty, rfl⟩

/-- Opening a node of the table returns. -/
theorem openFile_returns {node : Nat} (small : node < maxNodes) (writable : Bool) :
    ∃ result after, fs.openFile node writable = .ok (result, after) := by
  unfold openFile
  rw [if_neg (Nat.not_le.mpr small)]
  split
  · exact ⟨_, _, rfl⟩
  · exact ⟨_, _, rfl⟩
  · split
    · exact ⟨_, _, rfl⟩
    · exact ⟨_, _, rfl⟩

/-- What `close` does: nothing, or free the slot. -/
theorem close_cases {handle : Nat} {result : Bool}
    (returned : fs.close handle = .ok (result, after)) :
    handle < maxOpenFiles ∧ after.nodes = fs.nodes ∧
      after.openFiles = Function.update fs.openFiles handle none := by
  obtain ⟨found, looked, returned⟩ := bind_eq_ok.mp returned
  unfold openAt at looked
  split at looked
  · cases looked
  rename_i inside
  obtain rfl := Except.ok.inj looked
  refine ⟨Nat.not_le.mp inside, ?_⟩
  cases isOpen : fs.openFiles handle with
  | none =>
    rw [isOpen] at returned
    obtain ⟨-, rfl⟩ := Prod.mk.inj (Except.ok.inj returned)
    exact ⟨rfl, by rw [← isOpen, Function.update_eq_self]⟩
  | some file =>
    rw [isOpen] at returned
    obtain ⟨-, rfl⟩ := Prod.mk.inj (Except.ok.inj returned)
    exact ⟨rfl, rfl⟩

/-! ## Reading and writing -/

/-- The nodes stay, and so does the set of open files. -/
structure Steady (fs after : FileSystem) : Prop where
  /-- The nodes stay. -/
  nodes : after.nodes = fs.nodes
  /-- Open files stay open, and no other is opened. -/
  openFiles : ∀ handle, (after.openFiles handle).isSome = (fs.openFiles handle).isSome

namespace Steady

/-- Nothing happens. -/
theorem refl (fs : FileSystem) : Steady fs fs := ⟨rfl, fun _ => rfl⟩

/-- Both happen in turn. -/
theorem trans {middle : FileSystem} (first : Steady fs middle) (second : Steady middle after) :
    Steady fs after :=
  ⟨second.nodes.trans first.nodes,
    fun handle => (second.openFiles handle).trans (first.openFiles handle)⟩

/-- An open file moves. -/
theorem seek {handle : Nat} (isOpen : (fs.openFiles handle).isSome = true) (file : OpenFile)
    (position : Nat) : Steady fs (fs.seek handle file position) := by
  refine ⟨rfl, fun other => ?_⟩
  by_cases same : other = handle
  · simp only [same, isOpen, FileSystem.seek, Function.update_self, Option.isSome_some]
  · simp only [FileSystem.seek, Function.update_of_ne same]

/-- A chunk finds its frame. -/
theorem ensureFrame {frames : FrameAllocator} {node slot : Nat} {result : Option Nat}
    (returned : fs.ensureFrame frames node slot = .ok (result, after)) : Steady fs after := by
  obtain ⟨found, _, returned⟩ := bind_eq_ok.mp returned
  cases found with
  | some frame =>
    obtain ⟨-, rfl⟩ := Prod.mk.inj (Except.ok.inj returned)
    exact refl fs
  | none =>
    obtain ⟨-, rfl⟩ := Prod.mk.inj (Except.ok.inj returned)
    exact ⟨rfl, fun _ => rfl⟩

/-- A chunk is written. -/
theorem putChunk {handle frame : Nat} {file : OpenFile} {chunk : List UInt8}
    (isOpen : (fs.openFiles handle).isSome = true)
    (returned : fs.putChunk handle file frame chunk = .ok after) : Steady fs after := by
  obtain ⟨dst, _, returned⟩ := bind_eq_ok.mp returned
  obtain rfl := Except.ok.inj returned
  have moved := seek isOpen file (file.position + chunk.length)
  exact ⟨rfl, moved.openFiles⟩

/-- The loop of `write`. -/
theorem writeLoop {fs after : FileSystem} {frames : FrameAllocator} {handle : Nat}
    {file : OpenFile} {buf : List UInt8} {result : Option Nat}
    (isOpen : (fs.openFiles handle).isSome = true)
    (returned : fs.writeLoop frames handle file buf = .ok (result, after)) : Steady fs after := by
  rw [FileSystem.writeLoop] at returned
  by_cases more : 0 < buf.length ∧ file.position / 4096 < fileDataFrames
  · rw [if_pos more] at returned
    obtain ⟨⟨slot, taken⟩, ensured, returned⟩ := bind_eq_ok.mp returned
    have found := ensureFrame ensured
    cases slot with
    | none =>
      obtain ⟨-, rfl⟩ := Prod.mk.inj (Except.ok.inj returned)
      exact found
    | some frame =>
      obtain ⟨middle, put, returned⟩ := bind_eq_ok.mp returned
      obtain ⟨⟨rest, last⟩, looped, returned⟩ := bind_eq_ok.mp returned
      obtain ⟨-, rfl⟩ := Prod.mk.inj (Except.ok.inj returned)
      have written := found.trans (putChunk (by rw [found.openFiles, isOpen]) put)
      exact written.trans (writeLoop (by rw [written.openFiles, isOpen]) looped)
  · rw [if_neg more] at returned
    obtain ⟨-, rfl⟩ := Prod.mk.inj (Except.ok.inj returned)
    exact refl fs
termination_by buf.length
decreasing_by
  rw [List.length_drop]
  omega

/-- The loop of `write` on a buffer in memory. -/
theorem writeLoopFrom {fs after : FileSystem} {frames : FrameAllocator} {handle source wanted : Nat}
    {file : OpenFile} {result : Option Nat} (isOpen : (fs.openFiles handle).isSome = true)
    (returned : fs.writeLoopFrom frames handle file source wanted = .ok (result, after)) :
    Steady fs after := by
  rw [FileSystem.writeLoopFrom] at returned
  by_cases more : 0 < wanted ∧ file.position / 4096 < fileDataFrames
  · rw [if_pos more] at returned
    obtain ⟨⟨slot, taken⟩, ensured, returned⟩ := bind_eq_ok.mp returned
    have found := ensureFrame ensured
    cases slot with
    | none =>
      obtain ⟨-, rfl⟩ := Prod.mk.inj (Except.ok.inj returned)
      exact found
    | some frame =>
      obtain ⟨dst, _, returned⟩ := bind_eq_ok.mp returned
      obtain ⟨_, _, returned⟩ := bind_eq_ok.mp returned
      obtain ⟨middle, put, returned⟩ := bind_eq_ok.mp returned
      obtain ⟨⟨rest, last⟩, looped, returned⟩ := bind_eq_ok.mp returned
      obtain ⟨-, rfl⟩ := Prod.mk.inj (Except.ok.inj returned)
      have written := found.trans (putChunk (by rw [found.openFiles, isOpen]) put)
      exact written.trans (writeLoopFrom (by rw [written.openFiles, isOpen]) looped)
  · rw [if_neg more] at returned
    obtain ⟨-, rfl⟩ := Prod.mk.inj (Except.ok.inj returned)
    exact refl fs
termination_by wanted
decreasing_by omega

/-- The loop of `read` on a buffer in memory. -/
theorem readLoopInto {fs after : FileSystem} {node size position target wanted last : Nat}
    (returned : fs.readLoopInto node size position target wanted = .ok (last, after)) :
    ∃ memory, after = { fs with memory } := by
  rw [FileSystem.readLoopInto] at returned
  by_cases more : 0 < wanted ∧ position < size
  · rw [if_pos more] at returned
    obtain ⟨middle, copied, returned⟩ := bind_eq_ok.mp returned
    have first : ∃ memory, middle = { fs with memory } := by
      obtain ⟨found, _, copied⟩ := bind_eq_ok.mp copied
      cases found with
      | none => exact ⟨_, (pure_eq_ok.mp copied).symm⟩
      | some frame =>
        obtain ⟨src, _, copied⟩ := bind_eq_ok.mp copied
        obtain ⟨_, _, copied⟩ := bind_eq_ok.mp copied
        exact ⟨_, (pure_eq_ok.mp copied).symm⟩
    obtain ⟨memory, rfl⟩ := first
    obtain ⟨later, rfl⟩ := readLoopInto returned
    exact ⟨later, rfl⟩
  · rw [if_neg more] at returned
    obtain ⟨-, rfl⟩ := Prod.mk.inj (Except.ok.inj returned)
    exact ⟨_, rfl⟩
termination_by wanted
decreasing_by omega

/-- The open file of a handle is the stored one. -/
theorem openAt_eq {handle : Nat} {found : Option OpenFile}
    (looked : fs.openAt handle = .ok found) : fs.openFiles handle = found := by
  unfold openAt at looked
  split at looked
  · cases looked
  · exact Except.ok.inj looked

/-- `write` of a buffer. -/
theorem write {frames : FrameAllocator} {handle : Nat} {buf : List UInt8} {result : Option Nat}
    (returned : fs.write frames handle buf = .ok (result, after)) : Steady fs after := by
  obtain ⟨found, looked, returned⟩ := bind_eq_ok.mp returned
  have isOpen := openAt_eq looked
  cases found with
  | none =>
    obtain ⟨-, rfl⟩ := Prod.mk.inj (Except.ok.inj returned)
    exact refl fs
  | some file =>
    dsimp only at returned
    split at returned
    · exact writeLoop (by rw [isOpen]; rfl) returned
    · obtain ⟨-, rfl⟩ := Prod.mk.inj (Except.ok.inj returned)
      exact refl fs

/-- `read` into a buffer. -/
theorem read {handle : Nat} {buf filled : List UInt8} {result : Option Nat}
    (returned : fs.read handle buf = .ok (result, filled, after)) : Steady fs after := by
  obtain ⟨found, looked, returned⟩ := bind_eq_ok.mp returned
  have isOpen := openAt_eq looked
  cases found with
  | none =>
    obtain ⟨-, rest⟩ := Prod.mk.inj (Except.ok.inj returned)
    obtain ⟨-, rfl⟩ := Prod.mk.inj rest
    exact refl fs
  | some file =>
    obtain ⟨size, _, returned⟩ := bind_eq_ok.mp returned
    obtain ⟨⟨bytes, position⟩, _, returned⟩ := bind_eq_ok.mp returned
    obtain ⟨-, rest⟩ := Prod.mk.inj (Except.ok.inj returned)
    obtain ⟨-, rfl⟩ := Prod.mk.inj rest
    exact seek (by rw [isOpen]; rfl) file position

/-- `write` of a buffer in memory. -/
theorem writeFrom {frames : FrameAllocator} {handle source len : Nat} {result : Option Nat}
    (returned : fs.writeFrom frames handle source len = .ok (result, after)) : Steady fs after := by
  obtain ⟨found, looked, returned⟩ := bind_eq_ok.mp returned
  have isOpen := openAt_eq looked
  cases found with
  | none =>
    obtain ⟨-, rfl⟩ := Prod.mk.inj (Except.ok.inj returned)
    exact refl fs
  | some file =>
    dsimp only at returned
    split at returned
    · exact writeLoopFrom (by rw [isOpen]; rfl) returned
    · obtain ⟨-, rfl⟩ := Prod.mk.inj (Except.ok.inj returned)
      exact refl fs

/-- `read` into a buffer in memory. -/
theorem readInto {handle target len : Nat} {result : Option Nat}
    (returned : fs.readInto handle target len = .ok (result, after)) : Steady fs after := by
  obtain ⟨found, looked, returned⟩ := bind_eq_ok.mp returned
  have isOpen := openAt_eq looked
  cases found with
  | none =>
    obtain ⟨-, rfl⟩ := Prod.mk.inj (Except.ok.inj returned)
    exact refl fs
  | some file =>
    obtain ⟨size, _, returned⟩ := bind_eq_ok.mp returned
    obtain ⟨⟨position, middle⟩, looped, returned⟩ := bind_eq_ok.mp returned
    obtain ⟨-, rfl⟩ := Prod.mk.inj (Except.ok.inj returned)
    obtain ⟨memory, rfl⟩ := readLoopInto looped
    have isSome : (fs.openFiles handle).isSome = true := by rw [isOpen]; rfl
    exact ⟨rfl, (seek isSome file position).openFiles⟩

end Steady

end Aperture.Vfs.FileSystem
