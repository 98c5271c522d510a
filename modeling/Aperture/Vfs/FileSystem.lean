import Aperture.Machine.Slots
import Aperture.Machine.Text
import Aperture.Mm.FrameAllocator

/-!
# The in-memory file system

Nodes, file sizes and open files live in fixed tables; a file's bytes live in at most
16 frames that `write` takes from the frame allocator when it first needs them. A frame
keeps whatever it held before, so only the bytes below the file's size mean anything.
-/

namespace Aperture.Vfs

open Machine Mm

/-- `MAX_NAME_LEN`. -/
def maxNameLen : Nat := 64

/-- `MAX_NODES`. -/
def maxNodes : Nat := 256

/-- `MAX_OPEN_FILES`. -/
def maxOpenFiles : Nat := 64

/-- `FILE_DATA_FRAMES`. -/
def fileDataFrames : Nat := 16

/-- Node type in the tree. -/
inductive NodeKind where
  /-- A directory. -/
  | directory
  /-- A file. -/
  | file
  deriving DecidableEq, Repr

/-- A node. The name buffer and its length are the bytes they hold. -/
structure Node where
  /-- Node type. -/
  kind : NodeKind
  /-- Node of the directory it is in. -/
  parent : Option Nat
  /-- Name in that directory. -/
  name : List UInt8
  deriving DecidableEq, Repr

/-- `name_str`: the name, or the empty text when it is no UTF-8. -/
def Node.nameStr (node : Node) : List UInt8 := if validUtf8 node.name then node.name else []

/-- A UTF-8 name is what `name_str` shows. -/
theorem Node.nameStr_of_valid {node : Node} (valid : validUtf8 node.name = true) :
    node.nameStr = node.name := if_pos valid

/-- A name that shows is UTF-8. -/
theorem Node.valid_of_nameStr {node : Node} (shows : node.nameStr ≠ []) :
    validUtf8 node.name = true := by
  by_contra invalid
  exact shows (if_neg invalid)

/-- The separator of paths. -/
def slash : UInt8 := 0x2F

/-- Open file state. -/
structure OpenFile where
  /-- Node of the file. -/
  node : Nat
  /-- Offset of the next byte. -/
  position : Nat
  /-- Whether the handle may write. -/
  writable : Bool
  deriving DecidableEq, Repr

/-- The file system's statics, and the memory its frames lie in. -/
structure FileSystem where
  /-- `NODES`. -/
  nodes : Nat → Option Node
  /-- `FILE_DATA`: each node's frames. -/
  fileData : Nat → Nat → Option Nat
  /-- `FILE_SIZES`. -/
  fileSizes : Nat → Nat
  /-- `OPEN_FILES`. -/
  openFiles : Nat → Option OpenFile
  /-- Physical memory. -/
  memory : PhysMem

namespace FileSystem

/-- `init`: the root directory at node 0. -/
def init (memory : PhysMem) : FileSystem where
  nodes := Function.update (fun _ => none) 0 (some ⟨.directory, none, [slash]⟩)
  fileData := fun _ _ => none
  fileSizes := fun _ => 0
  openFiles := fun _ => none
  memory := memory

/-- Lookup a child node by name. -/
def findChild (fs : FileSystem) (parent : Nat) (name : List UInt8) : Option Nat :=
  position maxNodes fun i =>
    match fs.nodes i with
    | none => false
    | some node => node.parent = some parent && node.nameStr = name

/-- Create a node under `parent`. -/
def create (fs : FileSystem) (parent : Nat) (name : List UInt8) (kind : NodeKind) :
    Option Nat × FileSystem :=
  if maxNameLen < name.length then (none, fs)
  else if (fs.findChild parent name).isSome then (none, fs)
  else
    match position maxNodes fun i => (fs.nodes i).isNone with
    | none => (none, fs)
    | some index =>
      (some index,
        { fs with nodes := Function.update fs.nodes index (some ⟨kind, some parent, name⟩) })

/-- One component of a path; an empty one is skipped. -/
def lookupComponent (fs : FileSystem) (current : Nat) (component : List UInt8) : Option Nat :=
  if component = [] then some current else fs.findChild current component

/-- Lookup a path from the root. -/
def lookup (fs : FileSystem) (path : List UInt8) : Option Nat :=
  let path := trimMatches slash path
  if path = [] then some 0 else (path.splitOn slash).foldlM fs.lookupComponent 0

/-- Open a node as a file: a handle at position 0. -/
def openFile (fs : FileSystem) (node : Nat) (writable : Bool) :
    Except Panic (Option Nat × FileSystem) :=
  if maxNodes ≤ node then .error .outOfRange
  else
    match fs.nodes node with
    | none => .ok (none, fs)
    | some ⟨.directory, _, _⟩ => .ok (none, fs)
    | some ⟨.file, _, _⟩ =>
      match position maxOpenFiles fun i => (fs.openFiles i).isNone with
      | none => .ok (none, fs)
      | some index =>
        .ok (some index,
          { fs with openFiles := Function.update fs.openFiles index (some ⟨node, 0, writable⟩) })

/-- The open file of a handle. -/
def openAt (fs : FileSystem) (handle : Nat) : Except Panic (Option OpenFile) :=
  if maxOpenFiles ≤ handle then .error .outOfRange else .ok (fs.openFiles handle)

/-- The size of a node's file. -/
def sizeAt (fs : FileSystem) (node : Nat) : Except Panic Nat :=
  if maxNodes ≤ node then .error .outOfRange else .ok (fs.fileSizes node)

/-- A frame of a node's file. -/
def frameAt (fs : FileSystem) (node index : Nat) : Except Panic (Option Nat) :=
  if maxNodes ≤ node ∨ fileDataFrames ≤ index then .error .outOfRange
  else .ok (fs.fileData node index)

/-- Current size of an open file. -/
def fileSize (fs : FileSystem) (handle : Nat) : Except Panic (Option Nat) := do
  match ← fs.openAt handle with
  | none => return none
  | some file => return some (← fs.sizeAt file.node)

/-- Close an open file handle. -/
def close (fs : FileSystem) (handle : Nat) : Except Panic (Bool × FileSystem) := do
  match ← fs.openAt handle with
  | none => return (false, fs)
  | some _ => return (true, { fs with openFiles := Function.update fs.openFiles handle none })

/-- Move an open file to a position. -/
def seek (fs : FileSystem) (handle : Nat) (file : OpenFile) (position : Nat) : FileSystem :=
  { fs with openFiles := Function.update fs.openFiles handle (some { file with position }) }

/-- One chunk of `read`: bytes of one frame, zeros where the file has none. -/
def readChunk (fs : FileSystem) (node frameIndex frameOffset toRead : Nat) :
    Except Panic (List UInt8) := do
  match ← fs.frameAt node frameIndex with
  | none => return List.replicate toRead 0
  | some frame =>
    let src ← add64 frame frameOffset
    return fs.memory.readBytes src toRead

/-- The loop of `read`: the bytes read and the position after them. -/
def readLoop (fs : FileSystem) (node size position wanted : Nat) :
    Except Panic (List UInt8 × Nat) :=
  if 0 < wanted ∧ position < size then do
    let toRead := min wanted (min (4096 - position % 4096) (size - position))
    let chunk ← fs.readChunk node (position / 4096) (position % 4096) toRead
    let (rest, last) ← fs.readLoop node size (position + toRead) (wanted - toRead)
    return (chunk ++ rest, last)
  else .ok ([], position)
termination_by wanted
decreasing_by omega

/-- Read up to `buf.len()` bytes: the number of bytes and the buffer after. The buffer is the
caller's own; `readInto` takes one that may overlap the file. -/
def read (fs : FileSystem) (handle : Nat) (buf : List UInt8) :
    Except Panic (Option Nat × List UInt8 × FileSystem) := do
  match ← fs.openAt handle with
  | none => return (none, buf, fs)
  | some file =>
    let size ← fs.sizeAt file.node
    let (bytes, position) ← fs.readLoop file.node size file.position buf.length
    return (some bytes.length, bytes ++ buf.drop bytes.length, fs.seek handle file position)

/-- The file system after an allocation for one entry of the frame table. -/
def withFrame (fs : FileSystem) (node frameIndex : Nat) (frame : Option Nat) (memory : PhysMem) :
    FileSystem :=
  { fs with
    memory
    fileData := Function.update fs.fileData node (Function.update (fs.fileData node) frameIndex frame) }

/-- The frame a chunk of `write` goes to, allocated when the file has none there. -/
def ensureFrame (fs : FileSystem) (frames : FrameAllocator) (node frameIndex : Nat) :
    Except Panic (Option Nat × FileSystem) := do
  match ← fs.frameAt node frameIndex with
  | some frame => return (some frame, fs)
  | none =>
    let (frame, memory) := frames.allocateFrame fs.memory
    return (frame, fs.withFrame node frameIndex frame memory)

/-- The rest of a chunk of `write`: copy the bytes, advance the position, grow the size. -/
def putChunk (fs : FileSystem) (handle : Nat) (file : OpenFile) (frame : Nat)
    (chunk : List UInt8) : Except Panic FileSystem := do
  let dst ← add64 frame (file.position % 4096)
  let position := file.position + chunk.length
  let copied := { fs with memory := fs.memory.copyIn dst chunk }
  return { copied.seek handle file position with
    fileSizes := Function.update fs.fileSizes file.node
      (max (fs.fileSizes file.node) position) }

/-- The loop of `write`: the number of bytes written, or none when no frame is left. -/
def writeLoop (fs : FileSystem) (frames : FrameAllocator) (handle : Nat) (file : OpenFile)
    (buf : List UInt8) : Except Panic (Option Nat × FileSystem) :=
  if 0 < buf.length ∧ file.position / 4096 < fileDataFrames then do
    let toWrite := min buf.length (4096 - file.position % 4096)
    match ← fs.ensureFrame frames file.node (file.position / 4096) with
    | (none, fs) => return (none, fs)
    | (some frame, fs) =>
      let fs ← fs.putChunk handle file frame (buf.take toWrite)
      let moved := { file with position := file.position + toWrite }
      let (written, fs) ← fs.writeLoop frames handle moved (buf.drop toWrite)
      return (written.map (toWrite + ·), fs)
  else .ok (some 0, fs)
termination_by buf.length
decreasing_by
  rw [List.length_drop]
  omega

/-- Write a buffer: the number of bytes written. -/
def write (fs : FileSystem) (frames : FrameAllocator) (handle : Nat) (buf : List UInt8) :
    Except Panic (Option Nat × FileSystem) := do
  match ← fs.openAt handle with
  | none => return (none, fs)
  | some file =>
    if file.writable then fs.writeLoop frames handle file buf else return (none, fs)

/-! ## Buffers in memory -/

/-- `copy_nonoverlapping` stops at ranges that overlap, in a build with debug assertions. -/
def checkApart (src dst count : Nat) : Except Panic Unit :=
  if src + count ≤ dst ∨ dst + count ≤ src then .ok () else .error .overlap

/-- One chunk of `read`, copied to its place in the buffer. -/
def readChunkInto (fs : FileSystem) (node frameIndex frameOffset target toRead : Nat) :
    Except Panic FileSystem := do
  match ← fs.frameAt node frameIndex with
  | none => return { fs with memory := fs.memory.copyIn target (List.replicate toRead 0) }
  | some frame =>
    let src ← add64 frame frameOffset
    checkApart src target toRead
    return { fs with memory := fs.memory.copyIn target (fs.memory.readBytes src toRead) }

/-- The loop of `read` on a buffer in memory: the position after it. A later chunk is read from
memory as an earlier one has left it. -/
def readLoopInto (fs : FileSystem) (node size position target wanted : Nat) :
    Except Panic (Nat × FileSystem) :=
  if 0 < wanted ∧ position < size then do
    let toRead := min wanted (min (4096 - position % 4096) (size - position))
    let fs ← fs.readChunkInto node (position / 4096) (position % 4096) target toRead
    fs.readLoopInto node size (position + toRead) (target + toRead) (wanted - toRead)
  else .ok (position, fs)
termination_by wanted
decreasing_by omega

/-- `read` with the bytes from an address on as its buffer. -/
def readInto (fs : FileSystem) (handle target len : Nat) :
    Except Panic (Option Nat × FileSystem) := do
  match ← fs.openAt handle with
  | none => return (none, fs)
  | some file =>
    let size ← fs.sizeAt file.node
    let (position, fs) ← fs.readLoopInto file.node size file.position target len
    return (some (position - file.position), fs.seek handle file position)

/-- The loop of `write` on a buffer in memory. A chunk is read when its frame has been taken. -/
def writeLoopFrom (fs : FileSystem) (frames : FrameAllocator) (handle : Nat) (file : OpenFile)
    (source wanted : Nat) : Except Panic (Option Nat × FileSystem) :=
  if 0 < wanted ∧ file.position / 4096 < fileDataFrames then do
    let toWrite := min wanted (4096 - file.position % 4096)
    match ← fs.ensureFrame frames file.node (file.position / 4096) with
    | (none, fs) => return (none, fs)
    | (some frame, fs) =>
      let dst ← add64 frame (file.position % 4096)
      checkApart source dst toWrite
      let fs ← fs.putChunk handle file frame (fs.memory.readBytes source toWrite)
      let moved := { file with position := file.position + toWrite }
      let (written, fs) ←
        fs.writeLoopFrom frames handle moved (source + toWrite) (wanted - toWrite)
      return (written.map (toWrite + ·), fs)
  else .ok (some 0, fs)
termination_by wanted
decreasing_by omega

/-- `write` with the bytes from an address on as its buffer. -/
def writeFrom (fs : FileSystem) (frames : FrameAllocator) (handle source len : Nat) :
    Except Panic (Option Nat × FileSystem) := do
  match ← fs.openAt handle with
  | none => return (none, fs)
  | some file =>
    if file.writable then fs.writeLoopFrom frames handle file source len else return (none, fs)

end FileSystem

end Aperture.Vfs
