import Aperture.Machine.Memory

/-!
# Boot information

The bootloader-independent memory map that `kernel_main` hands to the memory
managers, and the framebuffer that it hands to the compositor. Region bounds are
64-bit words, so the bound is part of the record and no later statement has to
assume it.
-/

namespace Aperture

open Machine

/-- `boot_info::MemoryRegionKind`. -/
inductive MemoryRegionKind where
  | usable
  | reserved
  | bootloader
  | unknown
  deriving DecidableEq, Repr

/-- `boot_info::MemoryRegion` — physical addresses `start .. stop` (the source's `end`). -/
structure MemoryRegion where
  /-- First byte. -/
  start : Nat
  /-- One past the last byte. -/
  stop : Nat
  /-- What the bootloader reports the region to be. -/
  kind : MemoryRegionKind
  /-- Both bounds are machine words. -/
  start_lt : start < wordSize := by decide
  /-- Both bounds are machine words. -/
  stop_lt : stop < wordSize := by decide
  deriving DecidableEq, Repr

namespace MemoryRegion

/-- The addresses of a region. -/
def span (region : MemoryRegion) : Span := ⟨region.start, region.stop - region.start⟩

end MemoryRegion

/-- `boot_info::PixelFormat`. -/
inductive PixelFormat where
  | rgb
  | bgr
  | u8
  | unknown (redPosition greenPosition bluePosition : UInt8)
  deriving DecidableEq, Repr

/-- `boot_info::FrameBufferInfo`. -/
structure FrameBufferInfo where
  /-- Pixels of a row that are on the screen. -/
  width : Nat
  /-- Rows. -/
  height : Nat
  /-- Pixels of a row in the buffer. -/
  stride : Nat
  /-- Bytes of a pixel. -/
  bytesPerPixel : Nat
  /-- Order of the bytes of a pixel. -/
  pixelFormat : PixelFormat
  deriving DecidableEq, Repr

end Aperture
