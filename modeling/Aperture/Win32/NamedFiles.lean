import Aperture.Vfs.Refinement
import Aperture.Win32.FileObjects

/-!
# Named files

`NamedFiles` says what the file calls are for: names lead to directories and to byte strings, and a
descriptor reads or writes one byte string at its position. Nodes, frames, open files and objects do
not occur in it. In every run of the calls, with any other use of memory that leaves the frames of
the files alone in between, the kernel answers as named files do.
-/

namespace Aperture.Win32

open Machine Mm Vfs

/-- What has a name. -/
inductive Entry where
  /-- A directory. -/
  | directory
  /-- A file with its bytes. -/
  | file (bytes : List UInt8)

/-- A new entry of a kind. -/
def Entry.new : NodeKind → Entry
  | .directory => .directory
  | .file => .file []

/-- An open file. -/
structure Descriptor where
  /-- The names that lead to it, outermost first. -/
  names : List (List UInt8)
  /-- Place of the next byte. -/
  position : Nat
  /-- Whether it may be written. -/
  writable : Bool

/-- Entries by their names and descriptors by their slots. -/
structure NamedFiles where
  /-- What the names lead to. -/
  entries : List (List UInt8) → Option Entry
  /-- The open files. -/
  opened : Nat → Option Descriptor

/-- Which of the kernel's tables have a free slot. -/
structure FreeSlots where
  /-- The nodes. -/
  node : Bool
  /-- The open files. -/
  file : Bool
  /-- The handles. -/
  object : Bool

/-- A call with its answer, or a step of other code. -/
inductive NamedEvent where
  /-- `nt::create_file`, with the slots that were free. -/
  | createFile (call : CreateFileCall) (slots : FreeSlots) (result : Except NtStatus Handle)
  /-- `nt::read_file`, with the buffer before and after. -/
  | readFile (handle : Handle) (buffer : List UInt8) (result : Except NtStatus Nat)
      (filled : List UInt8)
  /-- `nt::write_file`, with the number of frames that are free behind it. -/
  | writeFile (handle : Handle) (buffer : List UInt8) (result : Except NtStatus Nat) (free : Nat)
  /-- `nt::close`. -/
  | close (handle : Handle) (status : NtStatus)
  /-- `vfs::create` in the node of a path, with the slots that were free, and whether it creates
  one. -/
  | create (path name : List UInt8) (kind : NodeKind) (slots : FreeSlots) (created : Bool)
  /-- Any other code leaves this memory behind. -/
  | other (memory : PhysMem)

namespace NamedFiles

/-- The root directory, nothing open. -/
def empty : NamedFiles where
  entries names := if names = [] then some .directory else none
  opened _ := none

/-- Other contents of an entry, or a new one. -/
def withEntry (store : NamedFiles) (names : List (List UInt8)) (entry : Entry) : NamedFiles :=
  { store with entries := Function.update store.entries names (some entry) }

/-- Another descriptor in a slot. -/
def withOpened (store : NamedFiles) (slot : Nat) (descriptor : Option Descriptor) : NamedFiles :=
  { store with opened := Function.update store.opened slot descriptor }

/-- Opening or creating a file. With a handle comes a descriptor at the start of the file, which is
empty when it is new. Only when a table is full, a name is long or the names lead to a directory the
parameter is called invalid; for want of an open file or a handle the file is created nevertheless. -/
def CreateFile (store : NamedFiles) (call : CreateFileCall) (slots : FreeSlots)
    (result : Except NtStatus Handle) (after : NamedFiles) : Prop :=
  let names := components slash call.path
  let creates := call.create = true ∧ store.entries names = none ∧
    (store.entries (components slash (parent call.path))).isSome = true
  let fits := slots.node = true ∧ (fileName call.path).length ≤ 64
  let opens := slots.file = true ∧ slots.object = true
  match result with
  | .ok handle =>
    let descriptor : Descriptor := ⟨names, 0, call.writeAccess⟩
    opens ∧ store.opened (Objects.index handle) = none ∧
      (creates ∧ fits ∧ after = (store.withEntry names (.file [])).withOpened
          (Objects.index handle) (some descriptor) ∨
        call.create = false ∧ (∃ bytes, store.entries names = some (.file bytes)) ∧
          after = store.withOpened (Objects.index handle) (some descriptor))
  | .error .objectNameCollision =>
    call.create = true ∧ (store.entries names).isSome = true ∧ after = store
  | .error .objectNameNotFound =>
    store.entries names = none ∧ after = store ∧ (call.create = true →
      store.entries (components slash (parent call.path)) = none)
  | .error .invalidParameter =>
    creates ∧ (¬fits ∧ after = store ∨
        fits ∧ ¬opens ∧ after = store.withEntry names (.file [])) ∨
      call.create = false ∧ after = store ∧ (store.entries names = some .directory ∨
        (∃ bytes, store.entries names = some (.file bytes)) ∧ ¬opens)
  | .error _ => False

/-- Reading: as many bytes as the buffer holds and the file has from the position on. -/
def ReadFile (store : NamedFiles) (handle : Handle) (buffer : List UInt8)
    (result : Except NtStatus Nat) (filled : List UInt8) (after : NamedFiles) : Prop :=
  match store.opened (Objects.index handle) with
  | none => result = .error .invalidParameter ∧ filled = buffer ∧ after = store
  | some descriptor => ∃ bytes, store.entries descriptor.names = some (.file bytes) ∧
      let count := min buffer.length (bytes.length - descriptor.position)
      result = .ok count ∧
        filled = (bytes.drop descriptor.position).take count ++ buffer.drop count ∧
        after = store.withOpened (Objects.index handle)
          (some { descriptor with position := descriptor.position + count })

/-- Writing: a prefix of the buffer replaces the bytes at the position; when a number is returned,
it is the prefix's length and all of the buffer that fits the file. On a writable descriptor there is
no other answer but for want of frames, with a shorter prefix. -/
def WriteFile (store : NamedFiles) (handle : Handle) (buffer : List UInt8)
    (result : Except NtStatus Nat) (free : Nat) (after : NamedFiles) : Prop :=
  match store.opened (Objects.index handle) with
  | none => result = .error .invalidParameter ∧ after = store
  | some descriptor =>
    if descriptor.writable then
      ∃ bytes count, store.entries descriptor.names = some (.file bytes) ∧ count ≤ buffer.length ∧
        (result = .error .invalidParameter ∧ free = 0 ∧
            count < min buffer.length (65536 - descriptor.position) ∨
          result = .ok count ∧ count = min buffer.length (65536 - descriptor.position)) ∧
        after = (store.withEntry descriptor.names
            (.file (overwrite bytes descriptor.position (buffer.take count)))).withOpened
          (Objects.index handle)
          (some { descriptor with position := descriptor.position + count })
    else result = .error .invalidParameter ∧ after = store

/-- What each call may answer and leave behind. -/
def Step (store : NamedFiles) (event : NamedEvent) (after : NamedFiles) : Prop :=
  match event with
  | .createFile call slots result => store.CreateFile call slots result after
  | .readFile handle buffer result filled => store.ReadFile handle buffer result filled after
  | .writeFile handle buffer result free => store.WriteFile handle buffer result free after
  | .close handle status =>
    status = (if (store.opened (Objects.index handle)).isSome then .success
        else .invalidParameter) ∧
      after = store.withOpened (Objects.index handle) none
  | .create path name kind slots created =>
    (store.entries (components slash path)).isSome = true ∧
      let fits := slots.node = true ∧ name.length ≤ 64 ∧
        store.entries (components slash path ++ [name]) = none
      if created then fits ∧
        after = store.withEntry (components slash path ++ [name]) (.new kind)
      else ¬fits ∧ after = store
  | .other _ => after = store

end NamedFiles

/-- The tables of a kernel with a free slot. -/
def Nt.freeSlots (nt : Nt) : FreeSlots where
  node := (position maxNodes fun i => (nt.files.nodes i).isNone).isSome
  file := (position maxOpenFiles fun i => (nt.files.openFiles i).isNone).isSome
  object := (position maxHandles fun i => (nt.objects.table i).isNone).isSome

namespace NamedEvent

/-- The call returns, or other code has run. -/
def Step (before : Nt) (event : NamedEvent) (after : Nt) : Prop :=
  match event with
  | .createFile call slots result => slots = before.freeSlots ∧
    before.createFile call.path call.create call.writeAccess = .ok (result, after)
  | .readFile handle buffer result filled =>
    before.readFile handle buffer = .ok (result, filled, after)
  | .writeFile handle buffer result free =>
    before.writeFile handle buffer = .ok (result, after) ∧
      free = after.frames.freeFrames after.files.memory
  | .close handle status => before.close handle = .ok (status, after)
  | .create path name kind slots created => slots = before.freeSlots ∧
    ∃ above result files, before.files.lookup path = some above ∧
      before.files.create above name kind = (result, files) ∧ result.isSome = created ∧
      after = before.withFiles files
  | .other memory => after = before.withMemory memory

/-- Paths are UTF-8, and so are the names that `vfs::create` is given, which are components of
paths. Files are created while the first free slot of the handle table is the slot of the next
handle. Other code leaves the frames of the files alone. -/
def Allowed (frames : FrameAllocator) (regions : List MemoryRegion) (nt : Nt) : NamedEvent → Prop
  | .createFile call _ _ => validUtf8 call.path = true ∧ ∀ slot,
      position maxHandles (fun slot => (nt.objects.table slot).isNone) = some slot →
        slot = Objects.index nt.objects.nextHandle
  | .readFile _ _ _ _ => True
  | .writeFile _ _ _ _ => True
  | .close _ _ => True
  | .create _ name _ _ _ => name ≠ [] ∧ slash ∉ name ∧ validUtf8 name = true
  | .other memory => nt.files.Undisturbed frames regions (.other memory)

end NamedEvent

namespace Nt

/-! ## What stands for what -/

/-- What a node is as an entry. -/
def entryOf (fs : FileSystem) (node : Nat) : Option Entry :=
  (fs.nodes node).map fun stored =>
    match stored.kind with
    | .directory => .directory
    | .file => .file (fs.content node)

/-- The open file that the object in a slot holds. -/
def openedAt (nt : Nt) (slot : Nat) : Option OpenFile :=
  match nt.objects.table slot with
  | none => none
  | some header => if header.kind = .file then nt.files.openFiles header.data.toNat else none

/-- A descriptor of an open file. -/
structure Describes (fs : FileSystem) (file : OpenFile) (descriptor : Descriptor) : Prop where
  /-- The names lead to its node. -/
  named : FileSystem.Named fs descriptor.names file.node
  /-- The position is the same. -/
  position : descriptor.position = file.position
  /-- The access is the same. -/
  writable : descriptor.writable = file.writable

/-- The kernel stands for these named files. -/
structure Stands (frames : FrameAllocator) (regions : List MemoryRegion) (nt : Nt)
    (store : NamedFiles) : Prop where
  /-- Frames come from this allocator. -/
  allocator : nt.frames = frames
  /-- Files own their frames. -/
  consistent : nt.files.Consistent frames regions
  /-- The nodes are a tree. -/
  tree : Utf8Tree nt
  /-- File objects are open files of their own. -/
  objects : FileObjects nt
  /-- Open files are files. -/
  isFile : ∀ index file, nt.files.openFiles index = some file →
    ∃ above name, nt.files.nodes file.node = some ⟨.file, above, name⟩
  /-- The entries are the nodes. -/
  entries : ∀ names entry, store.entries names = some entry ↔
    ∃ node, FileSystem.Named nt.files names node ∧ entryOf nt.files node = some entry
  /-- The descriptors are the file objects. -/
  opened : ∀ slot, Option.Rel (Describes nt.files) (nt.openedAt slot) (store.opened slot)

variable {frames : FrameAllocator} {regions : List MemoryRegion} {nt after : Nt}
  {store : NamedFiles}

/-- Names lead to one node. -/
theorem node_unique (tree : Utf8Tree nt) {names : List (List UInt8)} {node other : Nat}
    (named : FileSystem.Named nt.files names node) (also : FileSystem.Named nt.files names other) :
    node = other := by
  have nonempty (name : List UInt8) (member : name ∈ names) : name ≠ [] :=
    (tree.tree.component_of_named named name member).1
  have valid := tree.valid_of_named named
  have found := (tree.tree.walk_eq_some_iff nonempty).mpr ⟨named, valid⟩
  have otherFound := (tree.tree.walk_eq_some_iff nonempty).mpr ⟨also, valid⟩
  exact Option.some.inj (found.symm.trans otherFound)

/-- A lookup finds the node that the components of its path lead to. -/
theorem lookup_iff (tree : Utf8Tree nt) {path : List UInt8} {node : Nat} :
    nt.files.lookup path = some node ↔
      FileSystem.Named nt.files (components slash path) node := by
  rw [tree.tree.lookup_eq_some_iff]
  exact ⟨And.left, fun named => ⟨named, tree.valid_of_named named⟩⟩

/-- A table with a free slot. -/
theorem isSome_position_iff {bound : Nat} {free : Nat → Bool} :
    (position bound free).isSome = true ↔ ∃ i < bound, free i = true := by
  constructor
  · intro isSome
    obtain ⟨i, found⟩ := Option.isSome_iff_exists.mp isSome
    obtain ⟨small, isFree, _⟩ := position_eq_some.mp found
    exact ⟨i, small, isFree⟩
  · rintro ⟨i, small, isFree⟩
    by_contra isNone
    rw [Bool.not_eq_true, Option.isSome_eq_false_iff, Option.isNone_iff_eq_none] at isNone
    rw [position_eq_none.mp isNone i small] at isFree
    cases isFree

/-- A node with names is an entry. -/
theorem entryOf_isSome (tree : nt.files.Tree) {names : List (List UInt8)} {node : Nat}
    (named : FileSystem.Named nt.files names node) : (entryOf nt.files node).isSome = true := by
  unfold entryOf
  rw [Option.isSome_map]
  exact tree.isSome_of_named named

/-- It is a directory if it is no file. -/
theorem entryOf_directory (tree : nt.files.Tree) {names : List (List UInt8)} {node : Nat}
    (named : FileSystem.Named nt.files names node)
    (noFile : ∀ above name, nt.files.nodes node ≠ some ⟨.file, above, name⟩) :
    entryOf nt.files node = some .directory := by
  obtain ⟨⟨kind, above, name⟩, stored⟩ := Option.isSome_iff_exists.mp (tree.isSome_of_named named)
  unfold entryOf
  cases kind with
  | directory =>
    rw [stored]
    rfl
  | file => exact absurd stored (noFile above name)

namespace Stands

/-- The entry of a node's names is the node. -/
theorem entries_eq (stands : nt.Stands frames regions store) {names : List (List UInt8)}
    {node : Nat} (named : FileSystem.Named nt.files names node) :
    store.entries names = entryOf nt.files node := by
  obtain ⟨entry, isEntry⟩ := Option.isSome_iff_exists.mp (entryOf_isSome stands.tree.tree named)
  rw [isEntry]
  exact (stands.entries names entry).mpr ⟨node, named, isEntry⟩

/-- Without a node there is no entry. -/
theorem entries_eq_none (stands : nt.Stands frames regions store) {names : List (List UInt8)}
    (missing : ∀ node, ¬FileSystem.Named nt.files names node) : store.entries names = none := by
  apply Option.eq_none_iff_forall_ne_some.mpr
  intro entry isEntry
  obtain ⟨node, named, _⟩ := (stands.entries names entry).mp isEntry
  exact missing node named

/-- A path that a lookup finds has an entry. -/
theorem entries_found (stands : nt.Stands frames regions store) {path : List UInt8} {node : Nat}
    (found : nt.files.lookup path = some node) :
    (store.entries (components slash path)).isSome = true := by
  have named := (lookup_iff stands.tree).mp found
  rw [stands.entries_eq named]
  exact entryOf_isSome stands.tree.tree named

/-- A path that a lookup misses has none. -/
theorem entries_missing (stands : nt.Stands frames regions store) {path : List UInt8}
    (missing : nt.files.lookup path = none) : store.entries (components slash path) = none := by
  apply stands.entries_eq_none
  intro node named
  rw [(lookup_iff stands.tree).mpr named] at missing
  cases missing

end Stands

/-- An empty slot has no open file. -/
theorem openedAt_none {slot : Nat} (free : nt.objects.table slot = none) :
    nt.openedAt slot = none := by
  rw [openedAt, free]

/-- A file object's open file. -/
theorem openedAt_file {slot : Nat} {data : UInt64}
    (stored : nt.objects.table slot = some ⟨.file, data⟩) :
    nt.openedAt slot = nt.files.openFiles data.toNat := by
  rw [openedAt, stored]
  exact if_pos rfl

/-- The open file of a slot depends on its object and on that file. -/
theorem openedAt_congr {slot : Nat} (table : after.objects.table slot = nt.objects.table slot)
    (files : ∀ data, nt.objects.table slot = some ⟨.file, data⟩ →
      after.files.openFiles data.toNat = nt.files.openFiles data.toNat) :
    after.openedAt slot = nt.openedAt slot := by
  unfold openedAt
  rw [table]
  cases stored : nt.objects.table slot with
  | none => rfl
  | some header =>
    obtain ⟨kind, data⟩ := header
    dsimp only
    by_cases isFile : kind = .file
    · rw [if_pos isFile, if_pos isFile]
      rw [isFile] at stored
      exact files data stored
    · rw [if_neg isFile, if_neg isFile]

/-- Descriptors stay when nodes do. -/
theorem Describes.mono {fs grown : FileSystem} {file : OpenFile} {descriptor : Descriptor}
    (describes : Describes fs file descriptor)
    (kept : ∀ i stored, fs.nodes i = some stored → grown.nodes i = some stored) :
    Describes grown file descriptor :=
  { describes with named := describes.named.mono kept }

/-- So does what stands for what. -/
theorem describes_mono {fs grown : FileSystem} {found : Option OpenFile}
    {descriptor : Option Descriptor} (describes : Option.Rel (Describes fs) found descriptor)
    (kept : ∀ i stored, fs.nodes i = some stored → grown.nodes i = some stored) :
    Option.Rel (Describes grown) found descriptor := by
  cases describes with
  | none => exact .none
  | some describes => exact .some (describes.mono kept)

/-- A new node does not change the entry of another. -/
theorem entryOf_congr {fs grown : FileSystem} {node : Nat}
    (nodes : grown.nodes node = fs.nodes node) (content : grown.content node = fs.content node) :
    entryOf grown node = entryOf fs node := by
  unfold entryOf
  rw [nodes, content]

namespace Stands

/-- A new node is a new entry. -/
theorem insert (stands : nt.Stands frames regions store) {outer : List (List UInt8)}
    {above slot : Nat} {name : List UInt8} {kind : NodeKind} {files : FileSystem}
    (within : FileSystem.Named nt.files outer above) (nonempty : name ≠ []) (free : slash ∉ name)
    (valid : validUtf8 name = true)
    (created : nt.files.create above name kind = (some slot, files)) :
    store.entries (outer ++ [name]) = none ∧
      (nt.withFiles files).Stands frames regions
        (store.withEntry (outer ++ [name]) (.new kind)) := by
  obtain ⟨next, sameStore, isEmpty⟩ := stands.consistent.create_step created
  have isNode := stands.tree.tree.isSome_of_named within
  have grown := stands.tree.tree.create_step isNode nonempty free created
  obtain ⟨isNone, _⟩ | ⟨_, isSome, _, _, first, rfl⟩ := FileSystem.create_cases created
  · cases isNone
  obtain rfl := Option.some.inj isSome
  have unused : nt.files.nodes slot = none := by simpa using (position_eq_some.mp first).2.1
  have kept (i : Nat) (stored : Node) (was : nt.files.nodes i = some stored) :
      Function.update nt.files.nodes slot (some ⟨kind, some above, name⟩) i = some stored := by
    rw [Function.update_of_ne, was]
    rintro rfl
    rw [unused] at was
    cases was
  have tree : Utf8Tree (nt.withFiles { nt.files with
      nodes := Function.update nt.files.nodes slot (some ⟨kind, some above, name⟩) }) :=
    ⟨grown, stands.tree.valid_insert rfl valid⟩
  have named : FileSystem.Named { nt.files with
      nodes := Function.update nt.files.nodes slot (some ⟨kind, some above, name⟩) }
      (outer ++ [name]) slot :=
    .child (within.mono kept) (Function.update_self ..)
  have entry : entryOf { nt.files with
      nodes := Function.update nt.files.nodes slot (some ⟨kind, some above, name⟩) } slot =
      some (.new kind) := by
    have bytes : nt.files.content slot = [] := isEmpty slot rfl
    unfold entryOf
    simp only [Function.update_self, Option.map_some]
    cases kind with
    | directory => rfl
    | file => exact congrArg (fun bytes => some (Entry.file bytes)) bytes
  have others {node : Nat} (isOther : node ≠ slot) : entryOf { nt.files with
      nodes := Function.update nt.files.nodes slot (some ⟨kind, some above, name⟩) } node =
      entryOf nt.files node :=
    entryOf_congr (Function.update_of_ne isOther ..) rfl
  constructor
  · apply stands.entries_eq_none
    intro node also
    obtain rfl := node_unique tree named (also.mono kept)
    have isSome := stands.tree.tree.isSome_of_named also
    rw [unused] at isSome
    cases isSome
  · refine {
      allocator := stands.allocator
      consistent := next
      tree
      objects := stands.objects.of_same rfl fun _ => rfl
      isFile := fun index file isOpen => ?_
      entries := fun names found => ?_
      opened := fun index => describes_mono (stands.opened index) kept }
    · obtain ⟨parent, base, stored⟩ := stands.isFile index file isOpen
      exact ⟨parent, base, kept _ _ stored⟩
    · unfold NamedFiles.withEntry
      by_cases isNew : names = outer ++ [name]
      · rw [isNew]
        simp only [Function.update_self]
        constructor
        · intro same
          exact ⟨slot, named, entry.trans same⟩
        · rintro ⟨node, also, isEntry⟩
          obtain rfl := node_unique tree named also
          exact entry.symm.trans isEntry
      · simp only [Function.update_of_ne isNew]
        rw [stands.entries]
        constructor
        · rintro ⟨node, was, isEntry⟩
          refine ⟨node, was.mono kept, (others ?_).trans isEntry⟩
          rintro rfl
          have isSome := stands.tree.tree.isSome_of_named was
          rw [unused] at isSome
          cases isSome
        · rintro ⟨node, now, isEntry⟩
          have isOther : node ≠ slot := by
            rintro rfl
            exact isNew (grown.named_unique now named)
          have isSome := grown.isSome_of_named now
          dsimp only at isSome
          rw [Function.update_of_ne isOther] at isSome
          obtain ⟨others', was⟩ := stands.tree.tree.reaches node isSome
          obtain rfl := grown.named_unique now (was.mono kept)
          exact ⟨node, was, (others isOther).symm.trans isEntry⟩

/-- When the nodes stay, the entries follow the contents and the descriptors the objects. -/
theorem rebuild (stands : nt.Stands frames regions store) {changed : NamedFiles}
    (allocator : after.frames = nt.frames) (next : after.files.Consistent frames regions)
    (nodes : after.files.nodes = nt.files.nodes) (objects : FileObjects after)
    (isFile : ∀ index file, after.files.openFiles index = some file →
      ∃ above name, nt.files.nodes file.node = some ⟨.file, above, name⟩)
    (found : ∀ names node, FileSystem.Named nt.files names node →
      changed.entries names = entryOf after.files node)
    (missing : ∀ names, store.entries names = none → changed.entries names = none)
    (opened : ∀ slot,
      Option.Rel (Describes nt.files) (after.openedAt slot) (changed.opened slot)) :
    after.Stands frames regions changed := by
  have forth (i : Nat) (stored : Node) (was : nt.files.nodes i = some stored) :
      after.files.nodes i = some stored := by
    rw [nodes, was]
  have back (i : Nat) (stored : Node) (now : after.files.nodes i = some stored) :
      nt.files.nodes i = some stored := by
    rw [← nodes, now]
  refine {
    allocator := allocator.trans stands.allocator
    consistent := next
    tree := ⟨stands.tree.tree.congr nodes, fun i node now =>
      stands.tree.valid i node (back i node now)⟩
    objects
    isFile := fun index file isOpen => ?_
    entries := fun names entry => ?_
    opened := fun slot => describes_mono (opened slot) forth }
  · obtain ⟨above, name, stored⟩ := isFile index file isOpen
    exact ⟨above, name, forth _ _ stored⟩
  · constructor
    · intro isEntry
      cases was : store.entries names with
      | none =>
        rw [missing names was] at isEntry
        cases isEntry
      | some old =>
        obtain ⟨node, named, _⟩ := (stands.entries names old).mp was
        exact ⟨node, named.mono forth, (found names node named).symm.trans isEntry⟩
    · rintro ⟨node, named, isEntry⟩
      exact (found names node (named.mono back)).trans isEntry

/-- When contents stay as well, only descriptors change. -/
theorem reopen (stands : nt.Stands frames regions store) {opened : Nat → Option Descriptor}
    (allocator : after.frames = nt.frames) (next : after.files.Consistent frames regions)
    (nodes : after.files.nodes = nt.files.nodes) (content : after.files.content = nt.files.content)
    (objects : FileObjects after)
    (isFile : ∀ index file, after.files.openFiles index = some file →
      ∃ above name, nt.files.nodes file.node = some ⟨.file, above, name⟩)
    (descriptors : ∀ slot, Option.Rel (Describes nt.files) (after.openedAt slot) (opened slot)) :
    after.Stands frames regions { store with opened } := by
  refine stands.rebuild allocator next nodes objects isFile (fun names node named => ?_)
    (fun _ missing => missing) descriptors
  apply (stands.entries_eq named).trans
  exact (entryOf_congr (congrFun nodes node) (congrFun content node)).symm

/-- One descriptor changes with the file object it stands for. -/
theorem opened_update (stands : nt.Stands frames regions store) {slot : Nat}
    {found : Option OpenFile} {descriptor : Option Descriptor}
    (here : after.openedAt slot = found)
    (others : ∀ other, other ≠ slot → after.openedAt other = nt.openedAt other)
    (describes : Option.Rel (Describes nt.files) found descriptor) (other : Nat) :
    Option.Rel (Describes nt.files) (after.openedAt other)
      ((store.withOpened slot descriptor).opened other) := by
  unfold NamedFiles.withOpened
  by_cases same : other = slot
  · rw [same, here]
    simp only [Function.update_self]
    exact describes
  · rw [others other same]
    simp only [Function.update_of_ne same]
    exact stands.opened other

/-! ## Reading and writing -/

/-- A descriptor's file object, its open file and the bytes of its entry. -/
theorem opened_some (stands : nt.Stands frames regions store) {slot : Nat} {descriptor : Descriptor}
    (isOpened : store.opened slot = some descriptor) :
    ∃ data file, nt.objects.table slot = some ⟨.file, data⟩ ∧
      nt.files.openFiles data.toNat = some file ∧ Describes nt.files file descriptor ∧
      store.entries descriptor.names = some (.file (nt.files.content file.node)) := by
  have rel := stands.opened slot
  rw [isOpened] at rel
  cases found : nt.openedAt slot with
  | none =>
    rw [found] at rel
    cases rel
  | some file =>
    rw [found] at rel
    have describes : Describes nt.files file descriptor := by
      cases rel
      assumption
    unfold openedAt at found
    cases stored : nt.objects.table slot with
    | none =>
      rw [stored] at found
      cases found
    | some header =>
      obtain ⟨kind, data⟩ := header
      rw [stored] at found
      dsimp only at found
      split at found
      · rename_i isFile
        obtain ⟨above, name, isNode⟩ := stands.isFile data.toNat file found
        refine ⟨data, file, by rw [isFile], found, describes, ?_⟩
        rw [stands.entries_eq describes.named]
        unfold entryOf
        rw [isNode]
        rfl
      · cases found

/-- Without a descriptor the slot holds no file object. -/
theorem opened_none (stands : nt.Stands frames regions store) {slot : Nat}
    (isClosed : store.opened slot = none) (data : UInt64) :
    nt.objects.table slot ≠ some ⟨.file, data⟩ := by
  intro stored
  have rel := stands.opened slot
  rw [isClosed] at rel
  obtain ⟨file, isOpen⟩ := Option.isSome_iff_exists.mp (stands.objects.isOpen slot data stored).2
  rw [openedAt_file stored, isOpen] at rel
  cases rel

/-- A file object is found by its handle. -/
theorem vfsFile_some {handle : Handle} {data : UInt64}
    (stored : nt.objects.table (Objects.index handle) = some ⟨.file, data⟩) :
    nt.vfsFileFromObject handle = .ok data.toNat := by
  unfold vfsFileFromObject Objects.lookup
  rw [stored]
  rfl

/-- Without a descriptor a handle finds no file object. -/
theorem vfsFile_none (stands : nt.Stands frames regions store) {handle : Handle}
    (isClosed : store.opened (Objects.index handle) = none) :
    nt.vfsFileFromObject handle = .error .invalidParameter := by
  unfold vfsFileFromObject Objects.lookup
  cases stored : nt.objects.table (Objects.index handle) with
  | none => rfl
  | some header =>
    obtain ⟨kind, data⟩ := header
    refine if_neg ?_
    rintro rfl
    exact stands.opened_none isClosed data stored

/-- An open file moves with its descriptor. -/
theorem moves (stands : nt.Stands frames regions store) {slot count : Nat} {data : UInt64}
    {file : OpenFile} {descriptor : Descriptor}
    (stored : nt.objects.table slot = some ⟨.file, data⟩)
    (describes : Describes nt.files file descriptor) (objects : after.objects = nt.objects)
    (files : after.files.openFiles = Function.update nt.files.openFiles data.toNat
      (some { file with position := file.position + count })) (other : Nat) :
    Option.Rel (Describes nt.files) (after.openedAt other)
      ((store.withOpened slot
        (some { descriptor with position := descriptor.position + count })).opened other) := by
  have here : after.openedAt slot = some { file with position := file.position + count } := by
    rw [openedAt_file (objects ▸ stored), files, Function.update_self]
  have moved : Describes nt.files { file with position := file.position + count }
      { descriptor with position := descriptor.position + count } :=
    ⟨describes.named, congrArg (· + count) describes.position, describes.writable⟩
  refine stands.opened_update here (fun another isOther => ?_) (.some moved) other
  apply openedAt_congr (by rw [objects])
  intro otherData otherStored
  rw [files, Function.update_of_ne]
  intro same
  rw [UInt64.toNat_inj.mp same] at otherStored
  exact isOther (stands.objects.distinct _ _ _ otherStored stored)

/-- It stays a file, and it stays open. -/
theorem isFile_moves (stands : nt.Stands frames regions store) {index position : Nat}
    {file : OpenFile} (isOpen : nt.files.openFiles index = some file)
    (files : after.files.openFiles = Function.update nt.files.openFiles index
      (some { file with position })) (other : Nat) (found : OpenFile)
    (isFound : after.files.openFiles other = some found) :
    ∃ above name, nt.files.nodes found.node = some ⟨.file, above, name⟩ := by
  rw [files] at isFound
  by_cases same : other = index
  · rw [same, Function.update_self, Option.some.injEq] at isFound
    rw [← isFound]
    exact stands.isFile index file isOpen
  · rw [Function.update_of_ne same] at isFound
    exact stands.isFile other found isFound

/-- `read_file` reads the bytes of the entry. -/
theorem readFile_step (stands : nt.Stands frames regions store) {handle : Handle}
    {buffer filled : List UInt8} {result : Except NtStatus Nat}
    (returned : nt.readFile handle buffer = .ok (result, filled, after)) :
    ∃ next, after.Stands frames regions next ∧ store.ReadFile handle buffer result filled next := by
  have objects := stands.objects.readFile returned
  unfold readFile at returned
  unfold NamedFiles.ReadFile
  cases isOpened : store.opened (Objects.index handle) with
  | none =>
    rw [stands.vfsFile_none isOpened] at returned
    obtain ⟨rfl, rest⟩ := Prod.mk.inj (Except.ok.inj returned)
    obtain ⟨rfl, rfl⟩ := Prod.mk.inj rest
    exact ⟨store, stands, rfl, rfl, rfl⟩
  | some descriptor =>
    obtain ⟨data, file, stored, isOpen, describes, entry⟩ := stands.opened_some isOpened
    have inside := (stands.consistent.opened _ file isOpen).2.2.2
    obtain ⟨count, counted⟩ : ∃ count, count =
        min buffer.length (nt.files.fileSizes file.node - file.position) := ⟨_, rfl⟩
    have same : count = min buffer.length
        ((nt.files.content file.node).length - descriptor.position) := by
      rw [FileSystem.length_content, describes.position, counted]
    have read := stands.consistent.read_eq isOpen buffer counted
    rw [vfsFile_some stored] at returned
    dsimp only at returned
    rw [read, ok_bind] at returned
    obtain ⟨rfl, rest⟩ := Prod.mk.inj (Except.ok.inj returned)
    obtain ⟨rfl, rfl⟩ := Prod.mk.inj rest
    refine ⟨store.withOpened (Objects.index handle)
      (some { descriptor with position := descriptor.position + count }), ?_, _, entry, ?_⟩
    · have within : file.position + count ≤ nt.files.fileSizes file.node := by omega
      have next := stands.consistent.seek isOpen within
      have files : (nt.files.seek data.toNat file (file.position + count)).openFiles =
          Function.update nt.files.openFiles data.toNat
            (some { file with position := file.position + count }) := rfl
      have descriptors := fun slot => @moves _ _ nt
        (nt.withFiles (nt.files.seek data.toNat file (file.position + count))) _ stands _ count _
        _ _ stored describes rfl files slot
      exact stands.reopen rfl next rfl rfl objects (stands.isFile_moves isOpen files) descriptors
    · rw [← same, describes.position]
      exact ⟨rfl, rfl, rfl⟩

/-- Writing changes the entry of the names that lead to the file, and no other. -/
theorem written (stands : nt.Stands frames regions store) {slot count : Nat} {data : UInt64}
    {file : OpenFile} {descriptor : Descriptor} {bytes : List UInt8}
    (stored : nt.objects.table slot = some ⟨.file, data⟩)
    (isOpen : nt.files.openFiles data.toNat = some file)
    (describes : Describes nt.files file descriptor) (length : bytes.length = count)
    (allocator : after.frames = nt.frames) (objects : after.objects = nt.objects)
    (next : after.files.Consistent frames regions) (hold : FileObjects after)
    (written : FileSystem.Written nt.files data.toNat file bytes after.files) :
    after.Stands frames regions ((store.withEntry descriptor.names
      (.file (overwrite (nt.files.content file.node) descriptor.position bytes))).withOpened slot
        (some { descriptor with position := descriptor.position + count })) := by
  have files := written.openFiles
  rw [length] at files
  have descriptors := stands.moves stored describes objects files
  refine stands.rebuild allocator next written.nodes hold (stands.isFile_moves isOpen files)
    (fun names node named => ?_) (fun names missing => ?_) descriptors
  · change Function.update store.entries descriptor.names _ names = _
    by_cases same : names = descriptor.names
    · obtain rfl : node = file.node := by
        rw [same] at named
        exact node_unique stands.tree named describes.named
      obtain ⟨above, name, isNode⟩ := stands.isFile data.toNat file isOpen
      rw [same, Function.update_self, describes.position, ← written.written]
      unfold entryOf
      rw [written.nodes, isNode]
      rfl
    · have isOther : node ≠ file.node := by
        rintro rfl
        exact same (stands.tree.tree.named_unique named describes.named)
      rw [Function.update_of_ne same, stands.entries_eq named]
      exact (entryOf_congr (congrFun written.nodes node) (written.others node isOther)).symm
  · change Function.update store.entries descriptor.names _ names = _
    rw [Function.update_of_ne, missing]
    rintro rfl
    rw [stands.entries_eq describes.named] at missing
    have isEntry := entryOf_isSome stands.tree.tree describes.named
    rw [missing] at isEntry
    cases isEntry

/-- `write_file` changes the bytes of the entry. -/
theorem writeFile_step (stands : nt.Stands frames regions store) (covers : frames.Covers)
    {handle : Handle} {buffer : List UInt8} {result : Except NtStatus Nat}
    (returned : nt.writeFile handle buffer = .ok (result, after)) :
    ∃ next, after.Stands frames regions next ∧
      store.WriteFile handle buffer result (after.frames.freeFrames after.files.memory) next := by
  have hold := stands.objects.writeFile returned
  unfold writeFile at returned
  unfold NamedFiles.WriteFile
  cases isOpened : store.opened (Objects.index handle) with
  | none =>
    rw [stands.vfsFile_none isOpened] at returned
    obtain ⟨rfl, rfl⟩ := Prod.mk.inj (Except.ok.inj returned)
    exact ⟨store, stands, rfl, rfl⟩
  | some descriptor =>
    obtain ⟨data, file, stored, isOpen, describes, entry⟩ := stands.opened_some isOpened
    rw [vfsFile_some stored, stands.allocator] at returned
    dsimp only at returned ⊢
    cases writable : file.writable with
    | false =>
      rw [FileSystem.write, stands.consistent.openAt_eq isOpen, ok_bind] at returned
      simp only [writable, Bool.false_eq_true, if_false] at returned
      obtain ⟨rfl, rfl⟩ := Prod.mk.inj (Except.ok.inj returned)
      refine ⟨store, stands, ?_⟩
      rw [if_neg (by rw [describes.writable, writable]; exact Bool.false_ne_true)]
      exact ⟨rfl, rfl⟩
    | true =>
      obtain ⟨answer, files, count, ended, next, below, isWritten, whole, starved⟩ :=
        stands.consistent.write_spec covers isOpen writable buffer
      have length : (buffer.take count).length = count := by
        rw [List.length_take]
        omega
      rw [ended, ok_bind] at returned
      have isAfter : after = nt.withFiles files := by
        cases answer with
        | none => exact (Prod.mk.inj (Except.ok.inj returned)).2.symm
        | some written => exact (Prod.mk.inj (Except.ok.inj returned)).2.symm
      subst isAfter
      refine ⟨_, stands.written stored isOpen describes length rfl rfl next hold isWritten, ?_⟩
      rw [if_pos (describes.writable.trans writable)]
      refine ⟨_, count, entry, below, ?_, rfl⟩
      cases answer with
      | none =>
        obtain rfl := (Prod.mk.inj (Except.ok.inj returned)).1
        obtain ⟨short, empty⟩ := starved rfl
        rw [describes.position]
        refine .inl ⟨rfl, ?_, short⟩
        rw [← stands.allocator] at empty
        exact empty
      | some written =>
        obtain rfl := (Prod.mk.inj (Except.ok.inj returned)).1
        obtain ⟨rfl, counted⟩ := whole written rfl
        rw [describes.position]
        exact .inr ⟨rfl, counted⟩

/-! ## Closing and opening -/

/-- `close` forgets a descriptor. -/
theorem close_step (stands : nt.Stands frames regions store) {handle : Handle} {status : NtStatus}
    (returned : nt.close handle = .ok (status, after)) :
    ∃ next, after.Stands frames regions next ∧ store.Step (.close handle status) next := by
  have hold := stands.objects.close returned
  unfold close Objects.lookup at returned
  dsimp only [NamedFiles.Step]
  cases isOpened : store.opened (Objects.index handle) with
  | none =>
    have unchanged : store.withOpened (Objects.index handle) none = store := by
      unfold NamedFiles.withOpened
      rw [← isOpened, Function.update_eq_self]
    have refused : status = .invalidParameter ∧ nt = after := by
      cases stored : nt.objects.table (Objects.index handle) with
      | none =>
        rw [stored] at returned
        obtain ⟨rfl, rfl⟩ := Prod.mk.inj (Except.ok.inj returned)
        exact ⟨rfl, rfl⟩
      | some header =>
        obtain ⟨kind, data⟩ := header
        have noFile : kind ≠ .file := by
          rintro rfl
          exact stands.opened_none isOpened data stored
        rw [stored] at returned
        dsimp only at returned
        rw [if_pos noFile] at returned
        obtain ⟨rfl, rfl⟩ := Prod.mk.inj (Except.ok.inj returned)
        exact ⟨rfl, rfl⟩
    obtain ⟨rfl, rfl⟩ := refused
    exact ⟨store, stands, rfl, unchanged.symm⟩
  | some descriptor =>
    obtain ⟨data, file, stored, isOpen, describes, entry⟩ := stands.opened_some isOpened
    rw [stored] at returned
    dsimp only at returned
    rw [if_neg (by simp)] at returned
    obtain ⟨⟨wasOpen, files⟩, closing, returned⟩ := bind_eq_ok.mp returned
    obtain ⟨next, _, content, _⟩ := stands.consistent.close_step closing
    obtain ⟨_, nodes, openFiles⟩ := FileSystem.close_cases closing
    have closes : nt.objects.close handle = (true, { nt.objects with
        table := Function.update nt.objects.table (Objects.index handle) none }) := by
      rw [Objects.close, stored]
      rfl
    rw [closes] at returned
    generalize Objects.index handle = slot at *
    obtain ⟨rfl, rfl⟩ := Prod.mk.inj (Except.ok.inj returned)
    have others (other : Nat) (isOther : other ≠ slot) : openedAt ⟨files, { nt.objects with
          table := Function.update nt.objects.table slot none }, nt.frames, nt.scheduler⟩ other =
        nt.openedAt other := by
      refine openedAt_congr ?_ fun otherData otherStored => ?_
      · dsimp only
        rw [Function.update_of_ne isOther]
      · dsimp only
        rw [openFiles, Function.update_of_ne]
        intro same
        rw [UInt64.toNat_inj.mp same] at otherStored
        exact isOther (stands.objects.distinct _ _ _ otherStored stored)
    have isFile (index : Nat) (found : OpenFile) (isFound : files.openFiles index = some found) :
        ∃ above name, nt.files.nodes found.node = some ⟨.file, above, name⟩ := by
      rw [openFiles] at isFound
      by_cases same : index = data.toNat
      · rw [same, Function.update_self] at isFound
        cases isFound
      · rw [Function.update_of_ne same] at isFound
        exact stands.isFile index found isFound
    have here : openedAt ⟨files, { nt.objects with
        table := Function.update nt.objects.table slot none }, nt.frames, nt.scheduler⟩ slot = none :=
      openedAt_none (Function.update_self ..)
    have descriptors := stands.opened_update here others .none
    exact ⟨_, stands.reopen rfl next nodes content hold isFile descriptors, rfl, rfl⟩

/-- A file that was not open is opened: nothing stands for it yet. -/
theorem opens (stands : nt.Stands frames regions store) {node index : Nat} {writable : Bool}
    {files : FileSystem} (opening : nt.files.openFile node writable = .ok (some index, files)) :
    (nt.withFiles files).Stands frames regions store ∧ index < maxOpenFiles ∧
      files.nodes = nt.files.nodes ∧ files.openFiles index = some ⟨node, 0, writable⟩ ∧
      ∃ above name, nt.files.nodes node = some ⟨.file, above, name⟩ := by
  obtain ⟨next, _, content, _⟩ := stands.consistent.openFile_step opening
  obtain ⟨isNone, _⟩ | ⟨slot, above, name, isSome, isNode, small, closed, opened⟩ :=
    FileSystem.openFile_cases opening
  · cases isNone
  obtain rfl := Option.some.inj isSome
  have nodes : files.nodes = nt.files.nodes := by rw [opened]
  have openFiles : files.openFiles =
      Function.update nt.files.openFiles index (some ⟨node, 0, writable⟩) := by rw [opened]
  have hold : FileObjects (nt.withFiles files) := stands.objects.of_closed closed rfl openFiles
  have isFile (other : Nat) (found : OpenFile) (isFound : files.openFiles other = some found) :
      ∃ above name, nt.files.nodes found.node = some ⟨.file, above, name⟩ := by
    rw [openFiles] at isFound
    by_cases same : other = index
    · rw [same, Function.update_self, Option.some.injEq] at isFound
      rw [← isFound]
      exact ⟨above, name, isNode⟩
    · rw [Function.update_of_ne same] at isFound
      exact stands.isFile other found isFound
  have unseen (other : Nat) : (nt.withFiles files).openedAt other = nt.openedAt other := by
    refine openedAt_congr rfl fun data stored => ?_
    change files.openFiles _ = _
    rw [openFiles, Function.update_of_ne (stands.objects.ne_of_closed stored closed)]
  refine ⟨stands.reopen rfl next nodes content hold isFile fun other => ?_, small, nodes, ?_,
    above, name, isNode⟩
  · rw [unseen]
    exact stands.opened other
  · rw [openFiles, Function.update_self]

/-- An object that is stored for an open file gives it a descriptor. -/
theorem attaches (stands : nt.Stands frames regions store) {index slot : Nat} {file : OpenFile}
    {descriptor : Descriptor} {objects : Objects} (isOpen : nt.files.openFiles index = some file)
    (small : index < maxOpenFiles) (free : nt.objects.table slot = none)
    (table : objects.table =
      Function.update nt.objects.table slot (some ⟨.file, UInt64.ofNat index⟩))
    (hold : FileObjects { nt with objects }) (describes : Describes nt.files file descriptor) :
    store.opened slot = none ∧
      Stands frames regions { nt with objects } (store.withOpened slot (some descriptor)) := by
  have data : (UInt64.ofNat index).toNat = index :=
    UInt64.toNat_ofNat_of_lt' (Nat.lt_trans small (by decide))
  have here : openedAt { nt with objects } slot = some file := by
    have stored : objects.table slot = some ⟨.file, UInt64.ofNat index⟩ := by
      rw [table, Function.update_self]
    rw [@openedAt_file { nt with objects } slot _ stored, data]
    exact isOpen
  have others (other : Nat) (isOther : other ≠ slot) :
      openedAt { nt with objects } other = nt.openedAt other := by
    refine openedAt_congr ?_ fun _ _ => rfl
    dsimp only
    rw [table, Function.update_of_ne isOther]
  have descriptors := stands.opened_update here others (.some describes)
  refine ⟨?_, stands.reopen rfl stands.consistent rfl rfl hold stands.isFile descriptors⟩
  have rel := stands.opened slot
  rw [openedAt_none free] at rel
  cases isOpened : store.opened slot with
  | none => rfl
  | some other =>
    rw [isOpened] at rel
    cases rel

end Stands

/-- Why `open_vfs_file` opens nothing. -/
theorem openVfsFile_refuses {fs left : FileSystem} {path : List UInt8} {create writeAccess : Bool}
    {status : NtStatus}
    (returned : openVfsFile fs path create writeAccess = .ok (.error status, left))
    (refuses : ∀ node resolved, ¬Resolves fs path create node resolved) :
    (status = .objectNameCollision ∧ create = true ∧ ∃ node, fs.lookup path = some node) ∨
    (status = .objectNameNotFound ∧ fs.lookup path = none ∧
      (create = true → fs.lookup (parent path) = none)) ∨
    status = .invalidParameter ∧ create = true ∧ fs.lookup path = none ∧
      ∃ above, fs.lookup (parent path) = some above := by
  unfold openVfsFile at returned
  cases found : fs.lookup path with
  | some node =>
    rw [found] at returned
    cases create with
    | true =>
      cases returned
      exact .inl ⟨rfl, rfl, node, rfl⟩
    | false => exact absurd (.found found) (refuses node fs)
  | none =>
    rw [found] at returned
    cases create with
    | false =>
      cases returned
      exact .inr (.inl ⟨rfl, rfl, Bool.false_ne_true.elim⟩)
    | true =>
      simp only [Bool.not_true, Bool.false_eq_true, if_false] at returned
      cases within : fs.lookup (parent path) with
      | none =>
        rw [within] at returned
        cases returned
        exact .inr (.inl ⟨rfl, rfl, fun _ => rfl⟩)
      | some above =>
        rw [within] at returned
        dsimp only at returned
        cases creating : fs.create above (fileName path) .file with
        | mk made files =>
          rw [creating] at returned
          cases made with
          | none =>
            cases returned
            exact .inr (.inr ⟨rfl, rfl, rfl, above, rfl⟩)
          | some slot =>
            obtain ⟨isNone, _⟩ | ⟨_, _, short, _, first, _⟩ := FileSystem.create_cases creating
            · cases isNone
            · exact absurd (.created ⟨found, within, short, first⟩) (refuses _ _)

/-- In step, a handle is allocated in its own slot. -/
theorem allocate_inStep {objects left : Objects} {kind : ObjectKind} {data : UInt64}
    {handle : Handle}
    (inStep : ∀ slot, position maxHandles (fun slot => (objects.table slot).isNone) = some slot →
      slot = Objects.index objects.nextHandle)
    (allocated : objects.allocate kind data = (some handle, left)) :
    objects.table (Objects.index handle) = none ∧
      left.table = Function.update objects.table (Objects.index handle) (some ⟨kind, data⟩) := by
  unfold Objects.allocate at allocated
  split at allocated
  · cases allocated
  · rename_i slot found
    obtain ⟨isHandle, rfl⟩ := Prod.mk.inj allocated
    obtain rfl := Option.some.inj isHandle
    have free := (position_eq_some.mp found).2.1
    rw [← inStep slot found]
    exact ⟨Option.isNone_iff_eq_none.mp free, rfl⟩

namespace Stands

/-- The node that a call opens: the names lead to it, and it is new when the call creates. -/
theorem resolves (stands : nt.Stands frames regions store) {path : List UInt8} {create : Bool}
    {node : Nat} {resolved : FileSystem} (valid : validUtf8 path = true)
    (resolves : Resolves nt.files path create node resolved) :
    ∃ next, (nt.withFiles resolved).Stands frames regions next ∧ next.opened = store.opened ∧
      FileSystem.Named resolved (components slash path) node ∧
      (create = true ∧ store.entries (components slash path) = none ∧
          (store.entries (components slash (parent path))).isSome = true ∧
          (nt.freeSlots.node = true ∧ (fileName path).length ≤ 64) ∧
          next = store.withEntry (components slash path) (.file []) ∨
        create = false ∧ (store.entries (components slash path)).isSome = true ∧ next = store) := by
  cases resolves with
  | found isFound =>
    exact ⟨store, stands, rfl, (lookup_iff stands.tree).mp isFound,
      .inr ⟨rfl, stands.entries_found isFound, rfl⟩⟩
  | @created above _ creates =>
    have named := creates.named stands.tree.tree rfl
    have names : components slash path = components slash (parent path) ++ [fileName path] := by
      rw [components_eq_parent, if_neg creates.fresh.1]
    obtain ⟨isNew, next⟩ := stands.insert ((lookup_iff stands.tree).mp creates.within)
      creates.fresh.1 (slash_not_mem_fileName path) (validUtf8_fileName valid) creates.create_eq
    rw [← names] at isNew next
    have free : nt.freeSlots.node = true := by
      rw [freeSlots, creates.free]
      rfl
    exact ⟨_, next, rfl, named,
      .inl ⟨rfl, isNew, stands.entries_found creates.within, ⟨free, creates.short⟩, rfl⟩⟩

/-- A call that opens no file has found a directory, or a table is full. -/
theorem createFile_invalid (stands : nt.Stands frames regions store) {call : CreateFileCall}
    {node : Nat} {resolved : FileSystem} {middle : NamedFiles}
    (middleStands : (nt.withFiles resolved).Stands frames regions middle)
    (named : FileSystem.Named resolved (components slash call.path) node)
    (entry : call.create = true ∧ store.entries (components slash call.path) = none ∧
          (store.entries (components slash (parent call.path))).isSome = true ∧
          (nt.freeSlots.node = true ∧ (fileName call.path).length ≤ 64) ∧
          middle = store.withEntry (components slash call.path) (.file []) ∨
        call.create = false ∧ (store.entries (components slash call.path)).isSome = true ∧
          middle = store)
    (reason : entryOf resolved node = some .directory ∨
      ¬(nt.freeSlots.file = true ∧ nt.freeSlots.object = true)) :
    store.CreateFile call nt.freeSlots (.error .invalidParameter) middle := by
  have isEntry : middle.entries (components slash call.path) = entryOf resolved node :=
    middleStands.entries_eq named
  obtain ⟨creates, missing, within, fits, rfl⟩ | ⟨noCreate, found, rfl⟩ := entry
  · refine .inl ⟨⟨creates, missing, within⟩, .inr ⟨fits, reason.resolve_left ?_, rfl⟩⟩
    rw [← isEntry]
    simp [NamedFiles.withEntry]
  · refine .inr ⟨noCreate, rfl, ?_⟩
    rcases reason with isDirectory | full
    · exact .inl (isEntry.trans isDirectory)
    · obtain ⟨known, isKnown⟩ := Option.isSome_iff_exists.mp found
      cases known with
      | directory => exact .inl isKnown
      | file bytes => exact .inr ⟨⟨bytes, isKnown⟩, full⟩

/-- `create_file` opens or creates an entry. -/
theorem createFile_step (stands : nt.Stands frames regions store) {call : CreateFileCall}
    {result : Except NtStatus Handle}
    (allowed : NamedEvent.Allowed frames regions nt (.createFile call nt.freeSlots result))
    (returned : nt.createFile call.path call.create call.writeAccess = .ok (result, after)) :
    ∃ next, after.Stands frames regions next ∧
      store.CreateFile call nt.freeSlots result next := by
  obtain ⟨valid, inStep⟩ := allowed
  have hold := stands.objects.createFile returned
  obtain ⟨⟨outcome, files⟩, opening, rest⟩ := bind_eq_ok.mp returned
  obtain ⟨⟨status, rfl, _⟩, rfl, refuses⟩ | ⟨node, resolved, opened, resolves, opens, rfl⟩ :=
    openVfsFile_cases opening
  · obtain ⟨rfl, rfl⟩ := Prod.mk.inj (Except.ok.inj rest)
    refine ⟨store, stands, ?_⟩
    obtain ⟨rfl, creates, node, found⟩ | ⟨rfl, missing, noParent⟩ |
      ⟨rfl, creates, missing, above, within⟩ := openVfsFile_refuses opening refuses
    · exact ⟨creates, stands.entries_found found, rfl⟩
    · exact ⟨stands.entries_missing missing, rfl,
        fun creates => stands.entries_missing (noParent creates)⟩
    · refine .inl ⟨⟨creates, stands.entries_missing missing, stands.entries_found within⟩,
        .inl ⟨?_, rfl⟩⟩
      rintro ⟨free, short⟩
      obtain ⟨slot, first⟩ := Option.isSome_iff_exists.mp free
      rw [creates] at refuses
      exact refuses _ _ (.created ⟨missing, within, short, first⟩)
  · obtain ⟨middle, middleStands, sameOpened, named, entry⟩ := stands.resolves valid resolves
    cases opened with
    | none =>
      obtain ⟨_, rfl, reason⟩ | ⟨_, _, _, isSome, _⟩ := FileSystem.openFile_cases opens
      · obtain ⟨rfl, rfl⟩ := Prod.mk.inj (Except.ok.inj rest)
        refine ⟨middle, middleStands, stands.createFile_invalid middleStands named entry ?_⟩
        rcases reason with noFile | full
        · exact .inl (@entryOf_directory (nt.withFiles _) middleStands.tree.tree _ _ named noFile)
        · right
          rintro ⟨free, _⟩
          obtain ⟨i, small, isFree⟩ := isSome_position_iff.mp free
          rw [← resolves.openFiles_eq] at isFree
          exact full i small (Option.isNone_iff_eq_none.mp isFree)
      · cases isSome
    | some index =>
      obtain ⟨openStands, small, nodes, isOpen, above, name, isNode⟩ := middleStands.opens opens
      have fileFree : nt.freeSlots.file = true := by
        obtain ⟨isNone, _⟩ | ⟨slot, _, _, _, _, slotSmall, empty, _⟩ :=
          FileSystem.openFile_cases opens
        · cases isNone
        · rw [resolves.openFiles_eq] at empty
          exact isSome_position_iff.mpr ⟨slot, slotSmall, Option.isNone_iff_eq_none.mpr empty⟩
      dsimp only [Option.elim] at rest
      cases allocating : nt.objects.allocate .file (UInt64.ofNat index) with
      | mk allocated objects =>
        rw [allocating] at rest
        cases allocated with
        | none =>
          obtain ⟨_, rfl, full⟩ | ⟨_, isSome, _⟩ := Objects.allocate_cases allocating
          · obtain ⟨rfl, rfl⟩ := Prod.mk.inj (Except.ok.inj rest)
            refine ⟨middle, openStands,
              stands.createFile_invalid middleStands named entry (.inr ?_)⟩
            rintro ⟨_, free⟩
            obtain ⟨i, inside, isFree⟩ := isSome_position_iff.mp free
            exact full i inside (Option.isNone_iff_eq_none.mp isFree)
          · cases isSome
        | some handle =>
          have objectFree : nt.freeSlots.object = true := by
            obtain ⟨isNone, _⟩ | ⟨slot, _, inside, empty, _⟩ := Objects.allocate_cases allocating
            · cases isNone
            · exact isSome_position_iff.mpr ⟨slot, inside, Option.isNone_iff_eq_none.mpr empty⟩
          obtain ⟨free, table⟩ := allocate_inStep inStep allocating
          obtain ⟨rfl, rfl⟩ := Prod.mk.inj (Except.ok.inj rest)
          have kept : ∀ i stored, resolved.nodes i = some stored → files.nodes i = some stored :=
            fun i stored was => (congrFun nodes i).trans was
          have describes : Describes files ⟨node, 0, call.writeAccess⟩
              ⟨components slash call.path, 0, call.writeAccess⟩ := ⟨named.mono kept, rfl, rfl⟩
          obtain ⟨unopened, last⟩ := openStands.attaches isOpen small free table hold describes
          rw [sameOpened] at unopened
          refine ⟨_, last, ⟨fileFree, objectFree⟩, unopened, ?_⟩
          obtain ⟨creates, missing, within, fits, rfl⟩ | ⟨noCreate, _, rfl⟩ := entry
          · exact .inl ⟨⟨creates, missing, within⟩, fits, rfl⟩
          · have isFile : middle.entries (components slash call.path) =
                some (.file (resolved.content node)) := by
              have stored : resolved.nodes node = some ⟨.file, above, name⟩ := isNode
              rw [middleStands.entries_eq named]
              change entryOf resolved node = _
              rw [entryOf, stored]
              rfl
            exact .inr ⟨noCreate, ⟨_, isFile⟩, rfl⟩

/-- A child by name is an entry. -/
theorem entries_child (stands : nt.Stands frames regions store) {outer : List (List UInt8)}
    {above : Nat} {name : List UInt8} (within : FileSystem.Named nt.files outer above)
    (found : (nt.files.findChild above name).isSome = true) (nonempty : name ≠ []) :
    (store.entries (outer ++ [name])).isSome = true := by
  obtain ⟨child, isChild⟩ := Option.isSome_iff_exists.mp found
  obtain ⟨_, ⟨kind, parent, known⟩, stored, isParent, shows⟩ :=
    FileSystem.findChild_eq_some isChild
  obtain rfl : parent = some above := isParent
  obtain rfl : known = name := by
    have text := Node.valid_of_nameStr (shows ▸ nonempty)
    exact (Node.nameStr_of_valid text).symm.trans shows
  have named : FileSystem.Named nt.files (outer ++ [known]) child := .child within stored
  rw [stands.entries_eq named]
  exact entryOf_isSome stands.tree.tree named

/-- `vfs::create` in the node of a path makes an entry. -/
theorem create_step (stands : nt.Stands frames regions store) {path name : List UInt8}
    {kind : NodeKind} {slots : FreeSlots} {created : Bool}
    (allowed : NamedEvent.Allowed frames regions nt (.create path name kind slots created))
    (step : NamedEvent.Step nt (.create path name kind slots created) after) :
    ∃ next, after.Stands frames regions next ∧
      store.Step (.create path name kind slots created) next := by
  obtain ⟨nonempty, free, valid⟩ := allowed
  obtain ⟨rfl, above, result, files, found, creating, rfl, rfl⟩ := step
  have within := (lookup_iff stands.tree).mp found
  cases result with
  | none =>
    obtain ⟨_, rfl, reason⟩ | ⟨_, isSome, _⟩ := FileSystem.create_cases creating
    · refine ⟨store, stands, stands.entries_found found, ?_, rfl⟩
      rintro ⟨isFree, short, missing⟩
      rcases reason with long | taken | full
      · exact Nat.not_le.mpr long short
      · have isSome := stands.entries_child within taken nonempty
        rw [missing] at isSome
        cases isSome
      · obtain ⟨i, small, unused⟩ := isSome_position_iff.mp isFree
        rw [Option.isNone_iff_eq_none] at unused
        have isSome := full i small
        rw [unused] at isSome
        cases isSome
    · cases isSome
  | some slot =>
    obtain ⟨missing, next⟩ := stands.insert within nonempty free valid creating
    obtain ⟨isNone, _⟩ | ⟨_, _, short, _, first, _⟩ := FileSystem.create_cases creating
    · cases isNone
    have isFree : nt.freeSlots.node = true := by
      rw [freeSlots, first]
      rfl
    exact ⟨_, next, stands.entries_found found, ⟨isFree, short, missing⟩, rfl⟩

/-- Other code changes no entry. -/
theorem other_step (stands : nt.Stands frames regions store) {memory : PhysMem}
    (allowed : NamedEvent.Allowed frames regions nt (.other memory)) :
    (nt.withMemory memory).Stands frames regions store := by
  obtain ⟨next, same⟩ := stands.consistent.other_step allowed
  have content : { nt.files with memory }.content = nt.files.content :=
    congrArg FileStore.content same
  exact stands.reopen rfl next rfl content (stands.objects.of_same rfl fun _ => rfl) stands.isFile
    stands.opened

/-- Every call is one on named files. -/
theorem step (stands : nt.Stands frames regions store) (covers : frames.Covers)
    {event : NamedEvent} (allowed : NamedEvent.Allowed frames regions nt event)
    (step : NamedEvent.Step nt event after) :
    ∃ next, after.Stands frames regions next ∧ store.Step event next := by
  cases event with
  | createFile call slots result =>
    obtain ⟨rfl, returned⟩ := step
    exact stands.createFile_step allowed returned
  | readFile handle buffer result filled => exact stands.readFile_step step
  | writeFile handle buffer result free =>
    obtain ⟨returned, rfl⟩ := step
    exact stands.writeFile_step covers returned
  | close handle status => exact stands.close_step step
  | create path name kind slots created => exact stands.create_step allowed step
  | other memory =>
    obtain rfl : after = nt.withMemory memory := step
    exact ⟨store, stands.other_step allowed, rfl⟩

end Stands

/-- After `vfs::init` there is the root directory, and nothing is open. -/
theorem stands_init {booted : PhysMem} (files : nt.files = .init booted)
    (objects : nt.objects = .init) (allocator : nt.frames = frames)
    (free : ∀ index < frames.frameCount, frames.used booted index = false →
      frames.Allocatable regions index) : nt.Stands frames regions .empty := by
  obtain ⟨nodes, handles, allocates, scheduler⟩ := nt
  obtain rfl : nodes = .init booted := files
  obtain rfl : handles = .init := objects
  have root : entryOf (.init booted) 0 = some .directory := rfl
  refine {
    allocator
    consistent := FileSystem.consistent_init free
    tree := .init rfl
    objects := .of_empty fun _ => rfl
    isFile := fun index file isOpen => by cases isOpen
    entries := fun names entry => ?_
    opened := fun slot => .none }
  constructor
  · intro isEntry
    unfold NamedFiles.empty at isEntry
    dsimp only at isEntry
    split at isEntry
    · rename_i isRoot
      rw [isRoot]
      exact ⟨0, .root, root.trans isEntry⟩
    · cases isEntry
  · rintro ⟨node, named, isEntry⟩
    cases named with
    | root => exact root.symm.trans isEntry
    | child _ stored =>
      have isRoot := (FileSystem.init_nodes stored).2
      cases isRoot

/-- Every run after start-up is one of named files. -/
theorem stands_of_run {memory booted : PhysMem}
    (initialized : FrameAllocator.init memory regions = .ok (frames, booted)) {first last : Nt}
    (files : first.files = .init booted) (objects : first.objects = .init)
    (allocator : first.frames = frames) {events : List NamedEvent}
    (run : Run (Guarded (NamedEvent.Allowed frames regions) NamedEvent.Step) first events last) :
    ∃ store, last.Stands frames regions store ∧ Run NamedFiles.Step .empty events store := by
  obtain ⟨placed, _, bits⟩ := FrameAllocator.init_spec initialized
  have start : first.Stands frames regions .empty :=
    stands_init files objects allocator fun index inside clear => ((bits index inside).mp clear).1
  apply run.simulates (Stands frames regions) _ start
  intro before event after store stands ⟨allowed, step⟩
  exact stands.step placed.covers allowed step

/-- A lookup finds what its components lead to. -/
theorem Stands.entries_lookup (stands : nt.Stands frames regions store) (path : List UInt8) :
    store.entries (components slash path) =
      (nt.files.lookup path).bind (entryOf nt.files) := by
  cases found : nt.files.lookup path with
  | none => exact stands.entries_missing found
  | some node => exact stands.entries_eq ((lookup_iff stands.tree).mp found)

/-- After start-up, in every run of the file calls, with any other use of memory that leaves the
frames of the files alone in between, the kernel answers as named files do. In the state reached a
lookup finds what its components lead to, and a handle reads and writes through its descriptor. -/
theorem namedFiles_of_run {memory booted : PhysMem}
    (initialized : FrameAllocator.init memory regions = .ok (frames, booted)) {first last : Nt}
    (files : first.files = .init booted) (objects : first.objects = .init)
    (allocator : first.frames = frames) {events : List NamedEvent}
    (run : Run (Guarded (NamedEvent.Allowed frames regions) NamedEvent.Step) first events last) :
    ∃ store, Run NamedFiles.Step .empty events store ∧
      (∀ path, store.entries (components slash path) =
        (last.files.lookup path).bind (entryOf last.files)) ∧
      ∀ slot, Option.Rel (Describes last.files) (last.openedAt slot) (store.opened slot) := by
  obtain ⟨store, stands, matched⟩ := stands_of_run initialized files objects allocator run
  exact ⟨store, matched, stands.entries_lookup, stands.opened⟩

/-- After `vfs::init` every table has a free slot. -/
theorem freeSlots_init {booted : PhysMem} (files : nt.files = .init booted)
    (objects : nt.objects = .init) : nt.freeSlots = ⟨true, true, true⟩ := by
  have node : (position maxNodes fun i => (nt.files.nodes i).isNone).isSome = true := by
    rw [files]
    exact isSome_position_iff.mpr ⟨1, by decide, rfl⟩
  have file : (position maxOpenFiles fun i => (nt.files.openFiles i).isNone).isSome = true := by
    rw [files]
    exact isSome_position_iff.mpr ⟨0, by decide, rfl⟩
  have object : (position maxHandles fun i => (nt.objects.table i).isNone).isSome = true := by
    rw [objects]
    exact isSome_position_iff.mpr ⟨0, by decide, rfl⟩
  rw [freeSlots, node, file, object]

/-- On the usable mebibyte the root directory may get a file, which opens nothing. -/
theorem exists_created (scheduler : Scheduler) : ∃ booted last,
    FrameAllocator.init ⟨fun _ => 0, []⟩ FrameAllocator.mebibyteMap =
      .ok (FrameAllocator.mebibyteFrames, booted) ∧
    Guarded (NamedEvent.Allowed FrameAllocator.mebibyteFrames FrameAllocator.mebibyteMap)
      NamedEvent.Step ⟨.init booted, .init, FrameAllocator.mebibyteFrames, scheduler⟩
      (.create [slash] [0x61] .file ⟨true, true, true⟩ true) last ∧
    last.scheduler = scheduler ∧ ∀ index, last.files.openFiles index = none := by
  obtain ⟨booted, initialized, _⟩ := FrameAllocator.mebibyteMap_init ⟨fun _ => 0, []⟩
  obtain ⟨created, creates, _, closed, _⟩ := FileSystem.create_first booted
  have outer : components slash [slash] = [] := by decide +kernel
  have root : (FileSystem.init booted).lookup [slash] = some 0 := by
    rw [FileSystem.lookup_eq_walk, outer]
    rfl
  have step : NamedEvent.Step
      ⟨.init booted, .init, FrameAllocator.mebibyteFrames, scheduler⟩
      (.create [slash] [0x61] .file ⟨true, true, true⟩ true) _ :=
    ⟨(freeSlots_init rfl rfl).symm, 0, some 1, created, root, creates, rfl, rfl⟩
  have allowed : NamedEvent.Allowed FrameAllocator.mebibyteFrames FrameAllocator.mebibyteMap
      ⟨.init booted, .init, FrameAllocator.mebibyteFrames, scheduler⟩
      (.create [slash] [0x61] .file ⟨true, true, true⟩ true) :=
    ⟨by decide, by decide, by decide +kernel⟩
  exact ⟨booted, _, initialized, ⟨allowed, step⟩, rfl, closed⟩

/-- The file is empty. -/
theorem entries_created {store : NamedFiles}
    (run : Run NamedFiles.Step .empty [.create [slash] [0x61] .file ⟨true, true, true⟩ true] store) :
    store.entries [[0x61]] = some (.file []) := by
  have outer : components slash [slash] = [] := by decide +kernel
  cases run with
  | cons step rest =>
    cases rest
    obtain ⟨_, _, rfl⟩ := step
    rw [outer]
    change Function.update NamedFiles.empty.entries [[0x61]] (some (.file [])) [[0x61]] = _
    rw [Function.update_self]

/-- The root directory gets a file, on the usable mebibyte. -/
theorem namedFiles_of_run_created : ∃ booted last store,
    FrameAllocator.init ⟨fun _ => 0, []⟩ FrameAllocator.mebibyteMap =
      .ok (FrameAllocator.mebibyteFrames, booted) ∧
    NamedEvent.Step ⟨.init booted, .init, FrameAllocator.mebibyteFrames, Win32.booted.scheduler⟩
      (.create [slash] [0x61] .file ⟨true, true, true⟩ true) last ∧
    Run NamedFiles.Step .empty [.create [slash] [0x61] .file ⟨true, true, true⟩ true] store ∧
    store.entries [[0x61]] = some (.file []) := by
  obtain ⟨booted, last, initialized, taken, _⟩ := exists_created Win32.booted.scheduler
  obtain ⟨store, run, _⟩ := namedFiles_of_run initialized rfl rfl rfl (.cons taken (.nil last))
  exact ⟨booted, last, store, initialized, taken.2, run, entries_created run⟩

end Nt

end Aperture.Win32
