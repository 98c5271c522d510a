import Aperture.Gui.Windows
import Aperture.Machine.Text

/-!
# Desktop

The desktop is a window with a taskbar and a button on it. A click on the button opens a terminal, a
second window, and characters that are typed go into its line. What has changed is drawn at once into
the backbuffers; it gets to the screen with the next frame.
-/

namespace Aperture.Gui

open Machine

/-- `TASKBAR_HEIGHT`. -/
def taskbarHeight : Int := 28

/-- `BUTTON_WIDTH`. -/
def buttonWidth : Int := 80

/-- `BUTTON_HEIGHT`. -/
def buttonHeight : Int := 22

/-- `BUTTON_X`. -/
def buttonX : Int := 8

/-- `BUTTON_Y`. -/
def buttonY : Int := 3

/-- The statics of the desktop, with the GUI that it draws on. -/
structure Desktop where
  /-- The GUI. -/
  gui : GuiState
  /-- `DESKTOP_WINDOW`. -/
  desktopWindow : Option Nat
  /-- `TERMINAL_WINDOW`. -/
  terminalWindow : Option Nat
  /-- `BUTTON_DOWN_LAST`. -/
  buttonDownLast : Bool
  /-- `TERMINAL_TEXT_LEN`. -/
  terminalTextLen : Nat
  /-- `TERMINAL_TEXT`. -/
  terminalText : List UInt8

/-! ## Shapes -/

/-- The numbers of the range `low..high`. -/
def range (low high : Int) : List Int :=
  (List.range (high - low).toNat).map fun (i : Nat) => low + i

/-- `point_in_rect`. -/
def pointInRect (x y x0 y0 x1 y1 : Int) : Bool := x0 ≤ x && x < x1 && y0 ≤ y && y < y1

/-- `desktop_bounds`. -/
def desktopBounds : Int × Int := (1280, 1024)

namespace GuiState

/-- `write_pixel`. -/
def writePixel (gui : GuiState) (window : Nat) (x y : Int) (color : Color) : Except Panic GuiState :=
  gui.onWindow window (·.setPixel x y color)

/-- `fill_rect`. -/
def fillRect (gui : GuiState) (window : Nat) (x0 y0 x1 y1 : Int) (color : Color) :
    Except Panic GuiState :=
  (range y0 y1).foldlM (fun gui y =>
    (range x0 x1).foldlM (fun gui x => gui.writePixel window x y color) gui) gui

/-- `draw_rect`. -/
def drawRect (gui : GuiState) (window : Nat) (x0 y0 x1 y1 : Int) (color : Color) :
    Except Panic GuiState := do
  let gui ← (range x0 x1).foldlM (fun gui x => do
    let gui ← gui.writePixel window x y0 color
    let lower ← subI32 y1 1
    gui.writePixel window x lower color) gui
  (range y0 y1).foldlM (fun gui y => do
    let gui ← gui.writePixel window x0 y color
    let right ← subI32 x1 1
    gui.writePixel window right y color) gui

/-- `draw_taskbar`. -/
def drawTaskbar (gui : GuiState) (desktop : Nat) : Except Panic GuiState := do
  let gui ← gui.fillRect desktop 0 0 desktopBounds.1 taskbarHeight (.new 0x10 0x10 0x10)
  let gui ← gui.fillRect desktop buttonX buttonY (buttonX + buttonWidth) (buttonY + buttonHeight)
    (.new 0x40 0x40 0x40)
  let gui ← gui.drawRect desktop buttonX buttonY (buttonX + buttonWidth) (buttonY + buttonHeight)
    .white
  gui.drawText (some desktop) "Terminal".toList (buttonX + 8) (buttonY + 7) .white

end GuiState

/-! ## The terminal -/

/-- `from_utf8`, with the characters of the text. -/
def fromUtf8 (bytes : List UInt8) : Option (List Char) := bytes.toByteArray.utf8Decode?.map Array.toList

/-- `is_ascii`. -/
def isAscii (ch : Char) : Bool := ch.toNat < 128

/-- `ch as u8`. -/
def byteOf (ch : Char) : UInt8 := UInt8.ofNat ch.toNat

namespace Desktop

/-- The statics as the kernel starts. -/
def initial (gui : GuiState) : Desktop := ⟨gui, none, none, false, 0, List.replicate 256 0⟩

/-- `draw_desktop`. -/
def drawDesktop (desktop : Desktop) : Except Panic Desktop :=
  match desktop.desktopWindow with
  | none => return desktop
  | some window => do
    let gui ← desktop.gui.clearWindow (some window) (.new 0x20 0x40 0x60)
    let gui ← gui.drawTaskbar window
    return { desktop with gui }

/-- `init`. -/
def init (desktop : Desktop) (screenWidth screenHeight : Int) (width_fits : IsI32 screenWidth)
    (height_fits : IsI32 screenHeight) : Except Panic Desktop := do
  let (window, gui) ← desktop.gui.createWindow "Desktop".toUTF8.toList
    ⟨0, 0, screenWidth, screenHeight, isI32_zero, isI32_zero, width_fits, height_fits⟩
  drawDesktop { desktop with gui, desktopWindow := window }

/-- What `kernel_main` does with the framebuffer: `init_compositor` and then `init`. -/
def boot (desktop : Desktop) (buffer : List UInt8) (info : FrameBufferInfo) :
    Except Panic Desktop := do
  let gui ← desktop.gui.initCompositor buffer info
  init { desktop with gui } (asI32 info.width) (asI32 info.height) (isI32_asI32 _) (isI32_asI32 _)

/-- `redraw_terminal`. -/
def redrawTerminal (desktop : Desktop) : Except Panic Desktop :=
  match desktop.terminalWindow with
  | none => return desktop
  | some window => do
    let gui ← desktop.gui.clearWindow (some window) .darkGray
    let gui ← gui.drawText (some window) "Aperture Terminal".toList 12 12 .white
    if desktop.terminalTextLen ≤ desktop.terminalText.length then
      let line := (fromUtf8 (desktop.terminalText.take desktop.terminalTextLen)).getD []
      let gui ← gui.drawText (some window) line 12 32 (.new 0x00 0xFF 0x00)
      return { desktop with gui }
    else throw .outOfRange

/-- `open_terminal`. -/
def openTerminal (desktop : Desktop) : Except Panic Desktop := do
  if desktop.terminalWindow.isNone then
    let (id, gui) ← desktop.gui.createWindow "Terminal".toUTF8.toList ⟨100, 100, 480, 320,
      by decide, by decide, by decide, by decide⟩
    redrawTerminal { desktop with gui, terminalWindow := id }
  else redrawTerminal desktop

/-- `handle_mouse`, with the position and the buttons that it reads. -/
def handleMouse (desktop : Desktop) (mx my : Int) (buttons : UInt8) :
    Except Panic (Bool × Desktop) := do
  let leftDown := buttons &&& 1 != 0
  if leftDown && !desktop.buttonDownLast &&
      pointInRect mx my buttonX buttonY (buttonX + buttonWidth) (buttonY + buttonHeight) then
    let opened ← desktop.openTerminal
    return (true, { opened with buttonDownLast := leftDown })
  else return (false, { desktop with buttonDownLast := leftDown })

/-- The `match` of `type_char`. -/
def editText (desktop : Desktop) (ch : Char) : Except Panic Desktop :=
  if ch = '\n' then return { desktop with terminalTextLen := 0 }
  else if ch = '\x08' then
    if 0 < desktop.terminalTextLen then do
      let terminalTextLen ← sub64 desktop.terminalTextLen 1
      return { desktop with terminalTextLen }
    else return desktop
  else if desktop.terminalTextLen < desktop.terminalText.length ∧ isAscii ch then do
    let terminalTextLen ← add64 desktop.terminalTextLen 1
    return { desktop with
      terminalText := desktop.terminalText.set desktop.terminalTextLen (byteOf ch)
      terminalTextLen }
  else return desktop

/-- `type_char`. -/
def typeChar (desktop : Desktop) (ch : Char) : Except Panic Desktop :=
  if desktop.terminalWindow.isNone then return desktop
  else do
    let desktop ← desktop.editText ch
    desktop.redrawTerminal

end Desktop

end Aperture.Gui
