import Aperture.Arch.Characters
import Aperture.Arch.ContextSwitch
import Aperture.Arch.Keyboard
import Aperture.Arch.Mouse
import Aperture.Arch.MouseStream
import Aperture.Arch.SyscallEntry
import Aperture.Arch.SyscallReturn
import Aperture.Arch.TimerInterrupt
import Aperture.Decode.Aarch64
import Aperture.Decode.Agreement
import Aperture.Decode.X86
import Aperture.Gui.Color
import Aperture.Gui.Compositing
import Aperture.Gui.Compositor
import Aperture.Gui.Cursor
import Aperture.Gui.Desktop
import Aperture.Gui.Font
import Aperture.Gui.Frames
import Aperture.Gui.Pictures
import Aperture.Gui.Scene
import Aperture.Gui.Scripts
import Aperture.Gui.Windows
import Aperture.Machine.Encoding
import Aperture.Machine.Fifo
import Aperture.Machine.Keyed
import Aperture.Machine.Memory
import Aperture.Machine.Mmu
import Aperture.Machine.Narrow
import Aperture.Machine.Painting
import Aperture.Machine.Run
import Aperture.Machine.SlotMap
import Aperture.Machine.Slots
import Aperture.Machine.Supply
import Aperture.Machine.Text
import Aperture.MainLoop
import Aperture.Mm.BitmapPlacement
import Aperture.Mm.BootOwnership
import Aperture.Mm.FrameBudget
import Aperture.Mm.HardwareWalk
import Aperture.Mm.HeapRuns
import Aperture.Mm.Isolation
import Aperture.Mm.MapExact
import Aperture.Mm.MappedRegion
import Aperture.Mm.Occupied
import Aperture.Mm.TablePages
import Aperture.Mm.TableSupply
import Aperture.Pe.Directories
import Aperture.Pe.Format
import Aperture.Pe.ImportDirectory
import Aperture.Pe.Parser
import Aperture.Vfs.Footprint
import Aperture.Vfs.Operations
import Aperture.Vfs.Refinement
import Aperture.Vfs.Tree
import Aperture.Vfs.WriteFailure
import Aperture.Win32.Containment
import Aperture.Win32.Desktops
import Aperture.Win32.FileCreation
import Aperture.Win32.FileObjects
import Aperture.Win32.FileOffsets
import Aperture.Win32.FileSyscalls
import Aperture.Win32.FixtureDisplacements
import Aperture.Win32.GuestMemory
import Aperture.Win32.InstalledPrograms
import Aperture.Win32.InterpretedGuests
import Aperture.Win32.InterpretedPrograms
import Aperture.Win32.Interpreter
import Aperture.Win32.InterpreterLoop
import Aperture.Win32.KernelFrames
import Aperture.Win32.LoadedImage
import Aperture.Win32.Loader
import Aperture.Win32.LoaderFootprint
import Aperture.Win32.MappedSections
import Aperture.Win32.ScarceFrames
import Aperture.Win32.NamedFiles
import Aperture.Win32.Namespace
import Aperture.Win32.Nt
import Aperture.Win32.Objects
import Aperture.Win32.OperandForms
import Aperture.Win32.PathIdentity
import Aperture.Win32.Places
import Aperture.Win32.Privilege
import Aperture.Win32.ProcessFailure
import Aperture.Win32.Registry
import Aperture.Win32.Resumption
import Aperture.Win32.RoundRobin
import Aperture.Win32.RunnableImage
import Aperture.Win32.Scheduler
import Aperture.Win32.Switches
import Aperture.Win32.Tenants
import Aperture.Win32.ThreadCreation
import Aperture.Win32.TruncatedCode
import Aperture.Win32.UserProcess
import Aperture.Win32.UserStacks
import Aperture.Win32.VirtualMemory
