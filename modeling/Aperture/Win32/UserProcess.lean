import Aperture.Win32.Loader
import Aperture.Win32.Nt

/-!
# Creating a user process

`create_user_process` reads an executable from the file system into the early heap and hands it to
`load_pe`, which loads it and stores the process in an object. A step that fails returns at once:
what the steps before it took, an open file, heap or frames, stays taken.
-/

namespace Aperture.Win32

open Machine Mm Pe Vfs

/-- `size_of::<Process>()`: seven words and a handle. -/
def processSize : Nat := 64

/-- `align_of::<Process>()`. -/
def processAlign : Nat := 8

/-- `host_machine` of the x86_64 kernel. -/
def hostMachine : MachineType := .amd64

/-- `requires_translation`. -/
def requiresTranslation (guest : MachineType) : Bool := guest ≠ hostMachine

namespace Nt

/-- `alloc_early`. -/
def allocEarly (nt : Nt) (size align : Nat) : Except Panic (Option Nat × Nt) := do
  let (pointer, heap) ← nt.scheduler.heap.allocate size align
  return (pointer, { nt with scheduler := { nt.scheduler with heap } })

section Loading

variable (layout : Nat → Process → List UInt8) (kernelCr3 : Nat)

/-- `load_pe`. `layout` is the compiler's layout of a process with a process id; the process lies
in the early heap. The bytes of the image are the ones in memory when it is called, which they stay
if the loader's frames are elsewhere. -/
def loadPe (nt : Nt) (data : List UInt8) (pid : Nat) :
    Except Panic (Option (Handle × Bool) × Nt) := do
  match ← parsePe data with
  | none => return (none, nt)
  | some image =>
    match ← nt.allocEarly processSize processAlign with
    | (none, nt) => return (none, nt)
    | (some pointer, nt) =>
      checkSlice pointer processSize
      let created : Process := ⟨0, 0, 0, 0⟩
      let memory := nt.files.memory.copyIn pointer (layout pid created)
      match loadIntoProcess nt.frames kernelCr3 image created data ⟨memory, [], []⟩ with
      | (.error reason, _, _) => .error reason
      | (.ok loaded, process, last) =>
        let nt := nt.withMemory (last.memory.copyIn pointer (layout pid process))
        if !loaded then return (none, nt)
        else
          match nt.objects.allocate .process (UInt64.ofNat pointer) with
          | (none, objects) => return (none, { nt with objects })
          | (some handle, objects) =>
            return (some (handle, requiresTranslation image.machine), { nt with objects })

/-- `create_user_process`. -/
def createUserProcess (nt : Nt) (path : List UInt8) :
    Except Panic (Option (Handle × Bool) × Nt) := do
  match ← openVfsFile nt.files path false false with
  | (.error _, files) => return (none, nt.withFiles files)
  | (.ok file, files) =>
    match ← files.fileSize file with
    | none => return (none, nt.withFiles files)
    | some size =>
      match ← (nt.withFiles files).allocEarly size 1 with
      | (none, nt) => return (none, nt)
      | (some buf, nt) =>
        checkSlice buf size
        match ← nt.files.readInto file buf size with
        | (none, files) => return (none, nt.withFiles files)
        | (some read, files) =>
          if read ≠ size then return (none, nt.withFiles files)
          else
            let slice := files.memory.readBytes buf size
            let (_, files) ← files.close file
            (nt.withFiles files).loadPe layout kernelCr3 slice 1

end Loading

/-- `read_file`: the number of bytes, the buffer and the kernel after. -/
def readFile (nt : Nt) (handle : Handle) (buffer : List UInt8) :
    Except Panic (Except NtStatus Nat × List UInt8 × Nt) := do
  match nt.vfsFileFromObject handle with
  | .error status => return (.error status, buffer, nt)
  | .ok file =>
    match ← nt.files.read file buffer with
    | (none, filled, files) => return (.error .invalidParameter, filled, nt.withFiles files)
    | (some count, filled, files) => return (.ok count, filled, nt.withFiles files)

/-- `write_file`: the number of bytes and the kernel after. -/
def writeFile (nt : Nt) (handle : Handle) (buffer : List UInt8) :
    Except Panic (Except NtStatus Nat × Nt) := do
  match nt.vfsFileFromObject handle with
  | .error status => return (.error status, nt)
  | .ok file =>
    match ← nt.files.write nt.frames file buffer with
    | (none, files) => return (.error .invalidParameter, nt.withFiles files)
    | (some count, files) => return (.ok count, nt.withFiles files)

end Nt

end Aperture.Win32
