import Aperture.BootInfo
import Aperture.Gui.Color
import Aperture.Machine.Bytes
import Aperture.Machine.Signed
import Aperture.Machine.Slots
import Aperture.Mm.Heap

/-!
# Compositor

The compositor keeps the framebuffer and 32 slots for windows, each with a backbuffer of its own.
`render` clears the screen and draws the visible windows over it in slot order. `write_pixel` and
`read_pixel` check that a pixel is on the screen; the store that `draw_window` uses does not.
-/

namespace Aperture.Gui

open Machine

/-! ## Windows -/

/-- Where a window is and how large it is. -/
structure Geometry where
  /-- Column of the left edge. -/
  x : Int
  /-- Row of the upper edge. -/
  y : Int
  /-- Pixels of a row. -/
  width : Int
  /-- Rows. -/
  height : Int
  /-- Coordinates are of type `i32`. -/
  x_fits : IsI32 x := by decide
  /-- Coordinates are of type `i32`. -/
  y_fits : IsI32 y := by decide
  /-- Sizes are of type `i32`. -/
  width_fits : IsI32 width := by decide
  /-- Sizes are of type `i32`. -/
  height_fits : IsI32 height := by decide
  deriving DecidableEq, Repr

/-- `Window`. The backbuffer stands for the `pixel_count` pixels at its address. -/
structure Window extends Geometry where
  /-- Handle. -/
  id : Nat
  /-- Title, padded with zeros. -/
  title : List UInt8
  /-- The window is drawn. -/
  visible : Bool
  /-- Pixels, row by row. -/
  backbuffer : List Color
  /-- The number of pixels is of type `i32`. -/
  count_fits : IsI32 (width * height) := by decide
  /-- There is a pixel for each place. -/
  count : (backbuffer.length : Int) = width * height := by decide
  deriving DecidableEq, Repr

/-- `Compositor`. -/
structure Compositor where
  /-- The framebuffer. -/
  buffer : List UInt8
  /-- Its format. -/
  info : FrameBufferInfo
  /-- The slots for windows. -/
  windows : List (Option Window)
  /-- Handle of the next window. -/
  nextId : Nat
  /-- There are 32 slots. -/
  windows_length : windows.length = 32

namespace Compositor

/-- `Compositor::new`. -/
def new (buffer : List UInt8) (info : FrameBufferInfo) : Compositor where
  buffer
  info
  windows := List.replicate 32 none
  nextId := 1
  windows_length := List.length_replicate

/-- The checks of `create_window` let no negative number of pixels pass. -/
theorem count_of_checks {width height count size : Int} {bytes : Nat}
    (counted : mulI32 width height = .ok count) (sized : mul64 (asUsize count) 4 = .ok bytes)
    (size_eq : size = asUsize count) : IsI32 (width * height) ∧ size = width * height := by
  obtain ⟨fits, rfl⟩ := checkedI32_eq_ok.mp counted
  have small := (mul64_eq_ok.mp sized).1
  refine ⟨fits, ?_⟩
  rw [size_eq]
  unfold IsI32 at fits
  unfold asUsize wordSize at small
  unfold asUsize
  omega

/-- `create_window`. -/
def createWindow (c : Compositor) (heap : Mm.BumpAllocator) (title : List UInt8)
    (geometry : Geometry) : Except Panic (Nat × Compositor × Mm.BumpAllocator) :=
  match add64 c.nextId 1 with
  | .error reason => .error reason
  | .ok nextId =>
    match counted : mulI32 geometry.width geometry.height with
    | .error reason => .error reason
    | .ok count =>
      match sized : mul64 (asUsize count) 4 with
      | .error reason => .error reason
      | .ok size =>
        match heap.allocate size 1 with
        | .error reason => .error reason
        | .ok (none, _) => .error .missing
        | .ok (some _, heap) =>
          match position 32 fun slot => (c.windows[slot]?.join).isNone with
          | none => .error .missing
          | some slot =>
            let len := min title.length 63
            let backbuffer := List.replicate (asUsize count) Color.white
            have checks := count_of_checks counted sized
              (congrArg Nat.cast (List.length_replicate : backbuffer.length = asUsize count))
            let window : Window := {
              geometry with
              id := c.nextId
              title := title.take len ++ List.replicate (64 - len) 0
              visible := true
              backbuffer
              count_fits := checks.1
              count := checks.2
            }
            .ok (c.nextId, {
              c with
              windows := c.windows.set slot (some window)
              nextId
              windows_length := List.length_set.trans c.windows_length
            }, heap)

end Compositor

/-! ## Pixels of the framebuffer -/

/-- The four bytes that are written for a colour. -/
def pixelBytes (format : PixelFormat) (color : Color) : List UInt8 :=
  match format with
  | .rgb => [color.r, color.g, color.b, 0]
  | .bgr => [color.b, color.g, color.r, 0]
  | .u8 => [color.r, 0, 0, 0]
  | .unknown redPosition greenPosition bluePosition =>
    let pixel := [0, 0, 0, 0]
    let pixel := pixel.set (min (redPosition.toNat / 8) 3) color.r
    let pixel := pixel.set (min (greenPosition.toNat / 8) 3) color.g
    pixel.set (min (bluePosition.toNat / 8) 3) color.b

/-- Offset of a pixel. -/
def pixelOffset (info : FrameBufferInfo) (x y : Int) : Except Panic Nat := do
  let row ← mul64 (asUsize y) info.stride
  let pixel ← add64 row (asUsize x)
  mul64 pixel info.bytesPerPixel

/-- `write_pixel_unchecked`. -/
def writePixelUnchecked (info : FrameBufferInfo) (buffer : List UInt8) (x y : Int) (color : Color) :
    Except Panic (List UInt8) := do
  let offset ← pixelOffset info x y
  let last ← add64 offset info.bytesPerPixel
  if last ≤ buffer.length ∧ info.bytesPerPixel ≤ 4 then
    return overwrite buffer offset ((pixelBytes info.pixelFormat color).take info.bytesPerPixel)
  else throw .outOfRange

/-- The check of `write_pixel` and of `read_pixel`. -/
def isOutside (info : FrameBufferInfo) (x y : Int) : Bool :=
  x < 0 || y < 0 || asI32 info.width ≤ x || asI32 info.height ≤ y

/-- `write_pixel`. -/
def writePixel (info : FrameBufferInfo) (buffer : List UInt8) (x y : Int) (color : Color) :
    Except Panic (List UInt8) :=
  if isOutside info x y then return buffer else writePixelUnchecked info buffer x y color

/-- `buf[index]`. -/
def byteAt (buffer : List UInt8) (index : Nat) : Except Panic UInt8 :=
  match buffer[index]? with
  | some byte => .ok byte
  | none => .error .outOfRange

/-- `read_pixel`. -/
def readPixel (info : FrameBufferInfo) (buffer : List UInt8) (x y : Int) : Except Panic Color :=
  if isOutside info x y then return Color.black
  else do
    let offset ← pixelOffset info x y
    match info.pixelFormat with
    | .rgb =>
      let r ← byteAt buffer offset
      let g ← byteAt buffer (← add64 offset 1)
      let b ← byteAt buffer (← add64 offset 2)
      return Color.new r g b
    | .bgr =>
      let r ← byteAt buffer (← add64 offset 2)
      let g ← byteAt buffer (← add64 offset 1)
      let b ← byteAt buffer offset
      return Color.new r g b
    | .u8 => return Color.black
    | .unknown _ _ _ => return Color.black

/-! ## Rendering -/

/-- `clear`. -/
def clear (info : FrameBufferInfo) (buffer : List UInt8) (color : Color) :
    Except Panic (List UInt8) :=
  (List.range info.height).foldlM (fun buffer y =>
    (List.range info.width).foldlM (fun buffer x =>
      writePixel info buffer (asI32 x) (asI32 y) color) buffer) buffer

/-- `backbuffer[index as usize]`. -/
def colorAt (backbuffer : List Color) (index : Int) : Except Panic Color :=
  match backbuffer[asUsize index]? with
  | some color => .ok color
  | none => .error .outOfRange

/-- One round of the loops of `draw_window`. -/
def drawPixel (info : FrameBufferInfo) (window : Window) (localY localX : Nat)
    (buffer : List UInt8) : Except Panic (List UInt8) := do
  let row ← mulI32 localY window.width
  let index ← addI32 row localX
  let src ← colorAt window.backbuffer index
  let globalX ← addI32 window.x localX
  let globalY ← addI32 window.y localY
  if src.a = 255 then writePixelUnchecked info buffer globalX globalY src
  else if src.a ≠ 0 then do
    let dst ← readPixel info buffer globalX globalY
    writePixelUnchecked info buffer globalX globalY (blend src dst)
  else return buffer

/-- `draw_window`. -/
def drawWindow (info : FrameBufferInfo) (window : Window) (buffer : List UInt8) :
    Except Panic (List UInt8) :=
  (List.range window.height.toNat).foldlM (fun buffer localY =>
    (List.range window.width.toNat).foldlM (fun buffer localX =>
      drawPixel info window localY localX buffer) buffer) buffer

/-- One round of the loop of `render`. -/
def drawSlot (info : FrameBufferInfo) (buffer : List UInt8) (slot : Option Window) :
    Except Panic (List UInt8) :=
  let visible := (slot.map Window.visible).getD false
  match slot with
  | some window => if visible then drawWindow info window buffer else return buffer
  | none => return buffer

/-- `render`. -/
def Compositor.render (c : Compositor) : Except Panic Compositor := do
  let buffer ← clear c.info c.buffer Color.darkGray
  let buffer ← c.windows.foldlM (drawSlot c.info) buffer
  return { c with buffer }

end Aperture.Gui
