import Aperture.Gui.Compositing
import Aperture.Gui.Pictures

/-!
# The desktop and its terminal

Seen from outside the desktop is a small machine: a terminal that is closed or open, the line in it,
and whether the left button was down. `Session` says what clicks and characters do to that. The
desktop serves a session when its statics hold it and the backbuffers of its windows show it, and every
call of the desktop then returns and serves what the call makes of the session.
-/

namespace Aperture.Gui

open Machine

/-! ## Sessions -/

/-- A line behind a character that is typed. -/
def editLine (line : List Char) (ch : Char) : List Char :=
  if ch = '\n' then []
  else if ch = '\x08' then line.dropLast
  else if line.length < 256 ∧ isAscii ch then line ++ [ch]
  else line

/-- The left button is down. -/
def leftDown (buttons : UInt8) : Bool := buttons &&& 1 != 0

/-- The place is on the button of the taskbar. -/
def onButton (x y : Int) : Bool :=
  pointInRect x y buttonX buttonY (buttonX + buttonWidth) (buttonY + buttonHeight)

/-- What a user of the desktop has done. -/
structure Session where
  /-- The terminal is open. -/
  isOpen : Bool
  /-- The left button was down. -/
  buttonDown : Bool
  /-- The line of the terminal. -/
  line : List Char
  deriving DecidableEq, Repr

namespace Session

/-- Nothing has been done. -/
def initial : Session := ⟨false, false, []⟩

/-- A character is typed. It goes into the line of an open terminal. -/
def typed (session : Session) (ch : Char) : Session :=
  if session.isOpen then { session with line := editLine session.line ch } else session

/-- The position and the buttons of the mouse give a click on the button. -/
def clicks (session : Session) (x y : Int) (buttons : UInt8) : Bool :=
  leftDown buttons && !session.buttonDown && onButton x y

/-- The mouse is read. A click on the button opens the terminal. -/
def pointed (session : Session) (x y : Int) (buttons : UInt8) : Session where
  isOpen := session.isOpen || session.clicks x y buttons
  buttonDown := leftDown buttons
  line := session.line

/-- The picture that the terminal has to show. -/
def picture (session : Session) : Option (Int → Int → Color) :=
  if session.isOpen then some (terminalPicture 480 session.line) else none

/-- The line is short enough for the terminal. -/
structure Fits (session : Session) : Prop where
  /-- It has at most 256 characters. -/
  short : session.line.length ≤ 256
  /-- They are ASCII. -/
  ascii : ∀ ch ∈ session.line, isAscii ch = true

/-- A character keeps it short. -/
theorem Fits.typed {session : Session} (fits : session.Fits) (ch : Char) :
    (session.typed ch).Fits := by
  unfold Session.typed
  split
  · unfold editLine
    split_ifs with enter delete room
    · exact ⟨Nat.zero_le _, fun other member => absurd member List.not_mem_nil⟩
    · refine ⟨?_, fun other member => fits.ascii other (List.mem_of_mem_dropLast member)⟩
      rw [List.length_dropLast]
      exact Nat.le_trans (Nat.sub_le _ _) fits.short
    · refine ⟨?_, fun other member => ?_⟩
      · rw [List.length_append, List.length_singleton]
        exact room.1
      · rcases List.mem_append.mp member with before | last
        · exact fits.ascii other before
        · rw [List.mem_singleton.mp last]
          exact room.2
    · exact fits
  · exact fits

end Session

/-! ## The statics -/

/-- The bytes of ASCII characters are read as these characters. -/
theorem fromUtf8_ascii {line : List Char} (ascii : ∀ ch ∈ line, isAscii ch = true) :
    fromUtf8 (line.map byteOf) = some line := by
  have bytes : line.map byteOf = line.flatMap String.utf8EncodeChar := by
    induction line with
    | nil => rfl
    | cons ch rest ih =>
      have small : ch.toNat < 128 := of_decide_eq_true (ascii ch List.mem_cons_self)
      have single : String.utf8EncodeChar ch = [byteOf ch] := by
        have value : ch.val.toNat ≤ 0x7f := Nat.le_of_lt_succ small
        unfold String.utf8EncodeChar
        simp only [value, if_pos]
        rfl
      rw [List.map_cons, List.flatMap_cons, single,
        ih fun other member => ascii other (List.mem_cons_of_mem _ member), List.singleton_append]
  have encoded : (line.map byteOf).toByteArray = line.utf8Encode := by
    rw [bytes]
    rfl
  rw [fromUtf8, encoded, List.utf8Decode?_utf8Encode]
  rfl

/-- The statics hold the line of a session. -/
structure Desktop.Holds (desktop : Desktop) (line : List Char) : Prop where
  /-- The array has 256 bytes. -/
  cells : desktop.terminalText.length = 256
  /-- As many are in use as the line has characters. -/
  count : desktop.terminalTextLen = line.length
  /-- They are its characters. -/
  bytes : desktop.terminalText.take desktop.terminalTextLen = line.map byteOf

/-! ## The windows -/

/-- A window that is drawn, with its handle, place and size. -/
structure Window.Placed (window : Window) (id : Nat) (x y width height : Int) : Prop where
  /-- The handle. -/
  id : window.id = id
  /-- It is drawn. -/
  visible : window.visible = true
  /-- Its column. -/
  x : window.x = x
  /-- Its row. -/
  y : window.y = y
  /-- Its width. -/
  width : window.width = width
  /-- Its height. -/
  height : window.height = height

/-- Drawing does not move a window. -/
theorem Window.Placed.like {window after : Window} {id : Nat} {x y width height : Int}
    (placed : window.Placed id x y width height) (like : window.Like after) :
    after.Placed id x y width height :=
  ⟨like.id.trans placed.id, like.visible.trans placed.visible,
    (congrArg Geometry.x like.geometry).trans placed.x,
    (congrArg Geometry.y like.geometry).trans placed.y,
    (congrArg Geometry.width like.geometry).trans placed.width,
    (congrArg Geometry.height like.geometry).trans placed.height⟩

/-- A drawing that leaves a picture leaves it in the window. -/
theorem Draws.shows {window : Window} {run : Window → Except Panic Window}
    {picture : Int → Int → Color}
    (draws : Draws window run fun place _ => some (picture place.1 place.2)) :
    ∃ after, run window = .ok after ∧ window.Like after ∧ after.Shows picture := by
  obtain ⟨after, returned, like, drawn⟩ := draws window (.refl window)
  refine ⟨after, returned, like, fun place inside => drawn place ?_⟩
  have width : after.width = window.width := congrArg Geometry.width like.geometry
  have height : after.height = window.height := congrArg Geometry.height like.geometry
  exact ⟨width ▸ inside.1, height ▸ inside.2⟩

/-- The windows of the compositor: a root window, the desktop over it, and over both the terminal
when it is open. -/
structure Scene (info : FrameBufferInfo) (size : Nat) (picture : Option (Int → Int → Color))
    (root desktop : Window) (terminal : Option Window) (c : Compositor) : Prop where
  /-- The format of the framebuffer. -/
  info_eq : c.info = info
  /-- Its length. -/
  length : c.buffer.length = size
  /-- The windows are in the first slots. -/
  windows : c.windows = some root :: some desktop :: terminal :: List.replicate 29 none
  /-- The root window is as large as the screen. -/
  root_placed : root.Placed 1 0 0 info.width info.height
  /-- So is the desktop. -/
  desktop_placed : desktop.Placed 2 0 0 info.width info.height
  /-- It shows its picture. -/
  desktop_shows : desktop.Shows (desktopPicture info.width)
  /-- The terminal is there when it has a picture. -/
  terminal_isSome : terminal.isSome = picture.isSome
  /-- It has its place. -/
  terminal_placed : ∀ window ∈ terminal, window.Placed 3 100 100 480 320
  /-- It shows its picture. -/
  terminal_shows : ∀ window ∈ terminal, ∀ shown ∈ picture, window.Shows shown
  /-- The next handle. -/
  nextId : c.nextId = if picture.isSome then 4 else 3

section Drawing

variable {info : FrameBufferInfo} {size : Nat} {gui : GuiState} {c : Compositor}
  {root window : Window} {terminal : Option Window}

/-- What is drawn into the terminal is shown there, and the other windows are as before. -/
theorem Scene.drawn {before picture : Int → Int → Color} {run : Window → Except Panic Window}
    (lock : gui.compositor = some c)
    (scene : Scene info size (some before) root window terminal c)
    (draws : ∀ base : Window, base.width = 480 →
      Draws base run fun place _ => some (picture place.1 place.2)) :
    ∃ after next, gui.onWindow 3 run = .ok { gui with compositor := some after } ∧
      Scene info size (some picture) root window next after := by
  obtain ⟨shown, rfl⟩ := Option.isSome_iff_exists.mp scene.terminal_isSome
  have placed := scene.terminal_placed shown rfl
  obtain ⟨drawn, returned, like, shows⟩ := (draws shown placed.width).shows
  have shape : c.windows = [some root, some window] ++ some shown :: List.replicate 29 none :=
    scene.windows
  have others (other : Window) (member : some other ∈ [some root, some window]) : other.id ≠ 3 := by
    rcases List.mem_cons.mp member with same | member
    · obtain rfl := Option.some.inj same
      rw [scene.root_placed.id]
      decide
    · obtain rfl := Option.some.inj (List.mem_singleton.mp member)
      rw [scene.desktop_placed.id]
      decide
  obtain ⟨length, changed⟩ := GuiState.onWindow_at lock shape placed.id others returned
  refine ⟨_, some drawn, changed, ?_⟩
  exact {
    info_eq := scene.info_eq
    length := scene.length
    windows := rfl
    root_placed := scene.root_placed
    desktop_placed := scene.desktop_placed
    desktop_shows := scene.desktop_shows
    terminal_isSome := rfl
    terminal_placed := fun other member => by
      obtain rfl := Option.some.inj member
      exact placed.like like
    terminal_shows := fun other member picture given => by
      obtain rfl := Option.some.inj member
      obtain rfl := Option.some.inj given
      exact shows
    nextId := scene.nextId }

/-- `redraw_terminal` shows the line that the statics hold. -/
theorem Desktop.redrawTerminal_ok {desktop : Desktop} {line : List Char}
    {before : Int → Int → Color} (isOpen : desktop.terminalWindow = some 3)
    (holds : desktop.Holds line) (short : line.length ≤ 256)
    (ascii : ∀ ch ∈ line, isAscii ch = true) (lock : desktop.gui.compositor = some c)
    (scene : Scene info size (some before) root window terminal c) :
    ∃ after next, desktop.redrawTerminal =
        .ok { desktop with gui := { desktop.gui with compositor := some after } } ∧
      Scene info size (some (terminalPicture 480 line)) root window next after := by
  have inside : desktop.terminalTextLen ≤ desktop.terminalText.length := by
    rw [holds.count, holds.cells]
    exact short
  have read : (fromUtf8 (desktop.terminalText.take desktop.terminalTextLen)).getD [] = line := by
    rw [holds.bytes, fromUtf8_ascii ascii]
    rfl
  have draws (base : Window) (wide : base.width = 480) : Draws base (Window.drawTerminal line)
      fun place _ => some (terminalPicture 480 line place.1 place.2) := by
    have drawn := @draws_drawTerminal base line short
    rwa [wide] at drawn
  obtain ⟨after, next, returned, shown⟩ := scene.drawn lock draws
  refine ⟨after, next, ?_, shown⟩
  rw [← GuiState.drawTerminal_eq] at returned
  obtain ⟨cleared, first, returned⟩ := bind_eq_ok.mp returned
  obtain ⟨headed, second, third⟩ := bind_eq_ok.mp returned
  simp only [Desktop.redrawTerminal, isOpen, first, second, ok_bind, if_pos inside, read, third]
  rfl

end Drawing

/-! ## Calls of the desktop -/

namespace Desktop

/-- The statics hold a session, and the windows show it. -/
structure Serves (info : FrameBufferInfo) (size : Nat) (session : Session) (desktop : Desktop) :
    Prop where
  /-- The terminal has a window when it is open. -/
  terminalWindow : desktop.terminalWindow = if session.isOpen then some 3 else none
  /-- The button was down or not. -/
  buttonDownLast : desktop.buttonDownLast = session.buttonDown
  /-- The line is in the array. -/
  holds : desktop.Holds session.line
  /-- It is short enough. -/
  fits : session.Fits
  /-- The windows show it. -/
  scene : ∃ c root window terminal, desktop.gui.compositor = some c ∧
    Scene info size session.picture root window terminal c
  /-- There is memory for the terminal as long as it is closed. -/
  room : session.isOpen = false → desktop.gui.heap.next + 614400 ≤ desktop.gui.heap.limit
  /-- The heap ends below the last word. -/
  word : desktop.gui.heap.limit < wordSize

variable {info : FrameBufferInfo} {size : Nat} {session : Session} {desktop : Desktop}

/-- A character changes the line in the array as it changes the line of the session. -/
theorem Holds.typed {line : List Char} (holds : desktop.Holds line) (short : line.length ≤ 256)
    (ch : Char) :
    ∃ count text, desktop.editText ch =
        .ok { desktop with terminalTextLen := count, terminalText := text } ∧
      ({ desktop with terminalTextLen := count, terminalText := text } : Desktop).Holds
        (editLine line ch) := by
  obtain ⟨cells, count, bytes⟩ := holds
  unfold editText editLine
  by_cases enter : ch = '\n'
  · simp only [if_pos enter]
    exact ⟨0, desktop.terminalText, rfl, cells, rfl, rfl⟩
  by_cases delete : ch = '\x08'
  · simp only [if_neg enter, if_pos delete]
    by_cases empty : 0 < desktop.terminalTextLen
    · have less : sub64 desktop.terminalTextLen 1 = .ok (desktop.terminalTextLen - 1) :=
        sub64_eq_ok.mpr ⟨empty, rfl⟩
      rw [if_pos empty, less]
      refine ⟨desktop.terminalTextLen - 1, desktop.terminalText, rfl, cells, ?_, ?_⟩
      · rw [List.length_dropLast, count]
      · have within : desktop.terminalTextLen ≤ desktop.terminalText.length := by omega
        have shorter : (desktop.terminalText.take desktop.terminalTextLen).dropLast =
            desktop.terminalText.take (desktop.terminalTextLen - 1) := by
          rw [List.dropLast_eq_take, List.length_take_of_le within, List.take_take,
            Nat.min_eq_left (Nat.sub_le _ _)]
        rw [bytes] at shorter
        exact shorter.symm.trans List.map_dropLast.symm
    · rw [if_neg empty]
      obtain rfl := List.eq_nil_of_length_eq_zero (by omega : line.length = 0)
      exact ⟨desktop.terminalTextLen, desktop.terminalText, rfl, cells, count, bytes⟩
  · simp only [if_neg enter, if_neg delete, cells, count]
    by_cases room : line.length < 256 ∧ isAscii ch = true
    · have more : add64 line.length 1 = .ok (line.length + 1) :=
        add64_eq_ok.mpr ⟨by unfold wordSize; omega, rfl⟩
      rw [if_pos room, if_pos room, more]
      refine ⟨line.length + 1, desktop.terminalText.set line.length (byteOf ch), rfl, ?_, ?_, ?_⟩
      · exact List.length_set.trans cells
      · rw [List.length_append, List.length_singleton]
      · have inside : line.length < (desktop.terminalText.set line.length (byteOf ch)).length := by
          rw [List.length_set, cells]
          exact room.1
        rw [count] at bytes
        change (desktop.terminalText.set line.length (byteOf ch)).take (line.length + 1) = _
        rw [List.take_succ_eq_append_getElem inside, List.getElem_set_self,
          List.take_set_of_le (Nat.le_refl _), bytes, List.map_append, List.map_singleton]
    · rw [if_neg room, if_neg room]
      exact ⟨desktop.terminalTextLen, desktop.terminalText, rfl, cells, count, bytes⟩

/-- With the terminal open and the line of a session in the statics, `redraw_terminal` serves the
session. -/
theorem serves_redrawn {before : Int → Int → Color} {c : Compositor} {root window : Window}
    {terminal : Option Window} (isOpen : session.isOpen = true)
    (shown : desktop.terminalWindow = some 3)
    (down : desktop.buttonDownLast = session.buttonDown) (holds : desktop.Holds session.line)
    (fits : session.Fits) (lock : desktop.gui.compositor = some c)
    (scene : Scene info size (some before) root window terminal c)
    (word : desktop.gui.heap.limit < wordSize) :
    ∃ after, desktop.redrawTerminal = .ok after ∧ after.Serves info size session := by
  obtain ⟨after, drawn, redrawn, painted⟩ :=
    redrawTerminal_ok shown holds fits.short fits.ascii lock scene
  have picture : session.picture = some (terminalPicture 480 session.line) := if_pos isOpen
  refine ⟨{ desktop with gui := { desktop.gui with compositor := some after } }, redrawn, ?_⟩
  exact {
    terminalWindow := shown.trans (if_pos isOpen).symm
    buttonDownLast := down
    holds := ⟨holds.cells, holds.count, holds.bytes⟩
    fits
    scene := ⟨after, root, window, drawn, rfl, picture ▸ painted⟩
    room := fun closed => by
      rw [isOpen] at closed
      cases closed
    word }

/-- `type_char` returns and serves the session behind the character. -/
theorem Serves.typeChar (serves : desktop.Serves info size session) (ch : Char) :
    ∃ after, desktop.typeChar ch = .ok after ∧ after.Serves info size (session.typed ch) := by
  obtain ⟨c, root, window, terminal, lock, scene⟩ := serves.scene
  have next := serves.fits.typed ch
  unfold Session.typed at next ⊢
  cases isOpen : session.isOpen with
  | false =>
    have closed : desktop.terminalWindow = none := by
      rw [serves.terminalWindow, isOpen]
      rfl
    refine ⟨desktop, ?_, serves⟩
    rw [Desktop.typeChar, closed]
    rfl
  | true =>
    have shown : desktop.terminalWindow = some 3 := by
      rw [serves.terminalWindow, isOpen]
      rfl
    rw [isOpen, if_pos rfl] at next
    rw [if_pos rfl]
    rw [Session.picture, isOpen] at scene
    obtain ⟨count, text, edited, holds⟩ := serves.holds.typed serves.fits.short ch
    obtain ⟨after, redrawn, served⟩ := @serves_redrawn info size
      ⟨true, session.buttonDown, editLine session.line ch⟩
      { desktop with terminalTextLen := count, terminalText := text } _ c root window terminal
      rfl shown serves.buttonDownLast holds next lock scene serves.word
    refine ⟨after, ?_, served⟩
    rw [Desktop.typeChar, shown]
    change (desktop.editText ch >>= redrawTerminal) = _
    rw [edited, ok_bind, redrawn]

/-- The terminal that `open_terminal` creates is white. -/
theorem Serves.createTerminal (serves : desktop.Serves info size session)
    (isOpen : session.isOpen = false) :
    ∃ gui c root window terminal, desktop.gui.createWindow "Terminal".toUTF8.toList
        ⟨100, 100, 480, 320, by decide, by decide, by decide, by decide⟩ = .ok (some 3, gui) ∧
      gui.compositor = some c ∧ gui.heap.limit = desktop.gui.heap.limit ∧
      Scene info size (some fun _ _ => .white) root window terminal c := by
  obtain ⟨c, root, window, terminal, lock, scene⟩ := serves.scene
  rw [Session.picture, isOpen] at scene
  have absent : terminal = none := Option.not_isSome_iff_eq_none.mp (by
    rw [scene.terminal_isSome]
    exact Bool.false_ne_true)
  have shape : c.windows = [some root, some window] ++ none :: List.replicate 29 none := by
    rw [scene.windows, absent]
    rfl
  have taken (slot : Option Window) (member : slot ∈ [some root, some window]) :
      slot.isSome = true := by
    rcases List.mem_cons.mp member with rfl | member
    · rfl
    · rw [List.mem_singleton.mp member]
      rfl
  have handle : c.nextId = 3 := scene.nextId
  obtain ⟨created, next, returned, placed, id, visible, white, windows, nextId, info_eq, buffer⟩ :=
    @Compositor.createWindow_ok c _ _ desktop.gui.heap shape taken
      (by rw [handle]; decide) "Terminal".toUTF8.toList
      ⟨100, 100, 480, 320, by decide, by decide, by decide, by decide⟩ (by decide) (by decide)
      (serves.room isOpen) serves.word
  rw [handle] at returned id nextId
  refine ⟨⟨some next, { desktop.gui.heap with next := desktop.gui.heap.next + 614400 }⟩, next, root,
    window, some created, ?_, rfl, rfl, ?_⟩
  · rw [GuiState.createWindow, lock]
    simp only [returned, ok_bind]
    rfl
  · exact {
      info_eq := info_eq.trans scene.info_eq
      length := (congrArg List.length buffer).trans scene.length
      windows
      root_placed := scene.root_placed
      desktop_placed := scene.desktop_placed
      desktop_shows := scene.desktop_shows
      terminal_isSome := rfl
      terminal_placed := fun other member => by
        obtain rfl := Option.some.inj member
        exact ⟨id, visible, congrArg Geometry.x placed, congrArg Geometry.y placed,
          congrArg Geometry.width placed, congrArg Geometry.height placed⟩
      terminal_shows := fun other member picture given place inside => by
        obtain rfl := Option.some.inj member
        obtain rfl := Option.some.inj given
        have below := place_inside inside (.refl created)
        rw [Window.colorOf, List.getElem?_eq_getElem below]
        exact congrArg some (white _ (List.getElem_mem below))
      nextId }

/-- `open_terminal` returns, with the terminal open and its line shown. -/
theorem Serves.openTerminal (serves : desktop.Serves info size session) :
    ∃ after, desktop.openTerminal = .ok after ∧
      after.Serves info size { session with isOpen := true } := by
  have fits : Session.Fits { session with isOpen := true } :=
    ⟨serves.fits.short, serves.fits.ascii⟩
  cases isOpen : session.isOpen with
  | true =>
    obtain ⟨c, root, window, terminal, lock, scene⟩ := serves.scene
    have shown : desktop.terminalWindow = some 3 := by
      rw [serves.terminalWindow, isOpen]
      rfl
    rw [Session.picture, isOpen] at scene
    obtain ⟨after, redrawn, served⟩ := @serves_redrawn info size { session with isOpen := true }
      desktop _ c root window terminal rfl shown serves.buttonDownLast serves.holds fits lock scene
      serves.word
    refine ⟨after, ?_, served⟩
    rw [Desktop.openTerminal, shown]
    exact redrawn
  | false =>
    have closed : desktop.terminalWindow = none := by
      rw [serves.terminalWindow, isOpen]
      rfl
    obtain ⟨gui, c, root, window, terminal, created, lock, limit, scene⟩ :=
      serves.createTerminal isOpen
    obtain ⟨after, redrawn, served⟩ := @serves_redrawn info size { session with isOpen := true }
      { desktop with gui, terminalWindow := some 3 } _ c root window terminal rfl rfl
      serves.buttonDownLast ⟨serves.holds.cells, serves.holds.count, serves.holds.bytes⟩ fits lock
      scene (limit ▸ serves.word)
    refine ⟨after, ?_, served⟩
    rw [Desktop.openTerminal, closed]
    simp only [Option.isNone_none, ↓reduceIte, created, ok_bind]
    exact redrawn

/-- `handle_mouse` returns whether the mouse clicks on the button, and serves the session behind
that. -/
theorem Serves.handleMouse (serves : desktop.Serves info size session) (x y : Int)
    (buttons : UInt8) :
    ∃ after, desktop.handleMouse x y buttons = .ok (session.clicks x y buttons, after) ∧
      after.Serves info size (session.pointed x y buttons) := by
  have down := serves.buttonDownLast
  cases clicks : session.clicks x y buttons with
  | true =>
    obtain ⟨opened, returned, served⟩ := serves.openTerminal
    refine ⟨{ opened with buttonDownLast := leftDown buttons }, ?_, ?_⟩
    · have pressed := clicks
      unfold Session.clicks leftDown onButton at pressed
      rw [← down] at pressed
      rw [Desktop.handleMouse, if_pos pressed, returned]
      rfl
    · have next : session.pointed x y buttons =
          { session with isOpen := true, buttonDown := leftDown buttons } := by
        rw [Session.pointed, clicks, Bool.or_true]
      rw [next]
      exact {
        terminalWindow := served.terminalWindow
        buttonDownLast := rfl
        holds := ⟨served.holds.cells, served.holds.count, served.holds.bytes⟩
        fits := ⟨served.fits.short, served.fits.ascii⟩
        scene := served.scene
        room := served.room
        word := served.word }
  | false =>
    refine ⟨{ desktop with buttonDownLast := leftDown buttons }, ?_, ?_⟩
    · have released := clicks
      unfold Session.clicks leftDown onButton at released
      rw [← down] at released
      rw [Desktop.handleMouse, if_neg (by rw [released]; exact Bool.false_ne_true)]
      rfl
    · have next : session.pointed x y buttons =
          { session with buttonDown := leftDown buttons } := by
        rw [Session.pointed, clicks, Bool.or_false]
      rw [next]
      exact {
        terminalWindow := serves.terminalWindow
        buttonDownLast := rfl
        holds := ⟨serves.holds.cells, serves.holds.count, serves.holds.bytes⟩
        fits := ⟨serves.fits.short, serves.fits.ascii⟩
        scene := serves.scene
        room := serves.room
        word := serves.word }

end Desktop

/-! ## The start -/

/-- A screen that has room for the terminal, in a format that can be read back, and a heap that has
memory for the windows. -/
structure Bootable (info : FrameBufferInfo) (size : Nat) (heap : Mm.BumpAllocator) : Prop where
  /-- The framebuffer holds the screen. -/
  supported : Supported info size
  /-- The terminal is not wider than the screen. -/
  wide : 580 ≤ info.width
  /-- Nor does it end below it. -/
  high : 420 ≤ info.height
  /-- Pixels are counted in `i32`. -/
  pixels : info.width * info.height < 2 ^ 31
  /-- There is memory for two windows as large as the screen and for the terminal. -/
  room : heap.next + 8 * (info.width * info.height) + 614400 ≤ heap.limit
  /-- The heap ends below the last word. -/
  word : heap.limit < wordSize

namespace Bootable

variable {info : FrameBufferInfo} {size : Nat} {heap : Mm.BumpAllocator}

/-- The screen is not wider than `i32` can say. -/
theorem width_lt (bootable : Bootable info size heap) : info.width < 2 ^ 31 :=
  Nat.lt_of_le_of_lt (Nat.le_mul_of_pos_right _ (Nat.lt_of_lt_of_le (by decide) bootable.high))
    bootable.pixels

/-- Nor higher. -/
theorem height_lt (bootable : Bootable info size heap) : info.height < 2 ^ 31 :=
  Nat.lt_of_le_of_lt (Nat.le_mul_of_pos_left _ (Nat.lt_of_lt_of_le (by decide) bootable.wide))
    bootable.pixels

/-- The geometry of windows as large as the screen. -/
def screenGeometry (info : FrameBufferInfo) : Geometry :=
  GuiState.fromOrigin info.width info.height

/-- `create_window` creates a window as large as the screen in the first free slot. -/
theorem createWindow (bootable : Bootable info size heap) {c : Compositor}
    {gui : GuiState} {front back : List (Option Window)} (lock : gui.compositor = some c)
    (shape : c.windows = front ++ none :: back) (taken : ∀ slot ∈ front, slot.isSome = true)
    (handle : c.nextId + 1 < wordSize)
    (room : gui.heap.next + 4 * (info.width * info.height) ≤ gui.heap.limit)
    (word : gui.heap.limit < wordSize) (title : List UInt8) :
    ∃ (window : Window) (after : Compositor), gui.createWindow title (screenGeometry info) =
        .ok (some c.nextId, ⟨some after,
          { gui.heap with next := gui.heap.next + 4 * (info.width * info.height) }⟩) ∧
      window.Placed c.nextId 0 0 info.width info.height ∧
      after.windows = front ++ some window :: back ∧ after.nextId = c.nextId + 1 ∧
      after.info = c.info ∧ after.buffer = c.buffer := by
  have width : (screenGeometry info).width = info.width := by
    dsimp only [screenGeometry, GuiState.fromOrigin]
    rw [asI32_of_lt bootable.width_lt]
  have height : (screenGeometry info).height = info.height := by
    dsimp only [screenGeometry, GuiState.fromOrigin]
    rw [asI32_of_lt bootable.height_lt]
  have product : (screenGeometry info).width * (screenGeometry info).height =
      (info.width * info.height : Nat) := by
    rw [width, height, Nat.cast_mul]
  have small := bootable.pixels
  have fits : IsI32 ((screenGeometry info).width * (screenGeometry info).height) := by
    rw [product]
    exact ⟨by omega, by omega⟩
  have count : ((screenGeometry info).width * (screenGeometry info).height).toNat * 4 =
      4 * (info.width * info.height) := by
    rw [product, Int.toNat_natCast, Nat.mul_comm]
  obtain ⟨window, after, returned, placed, id, visible, _, windows, nextId, info_eq, buffer⟩ :=
    @Compositor.createWindow_ok c front back gui.heap shape taken handle title
      (screenGeometry info) (by rw [product]; exact Int.natCast_nonneg _) fits
      (by rw [count]; exact room) word
  refine ⟨window, after, ?_, ⟨id, visible, ?_, ?_, ?_, ?_⟩, windows, nextId, info_eq, buffer⟩
  · rw [count] at returned
    simp only [GuiState.createWindow, lock, returned, ok_bind]
    rfl
  · rw [placed]
    rfl
  · rw [placed]
    rfl
  · rw [placed, width]
  · rw [placed, height]

/-- The desktop starts with its picture and with a closed terminal. -/
theorem boot (bootable : Bootable info size heap) {buffer : List UInt8}
    (length : buffer.length = size) :
    ∃ after, (Desktop.initial ⟨none, heap⟩).boot buffer info = .ok after ∧
      after.Serves info size .initial := by
  have room := bootable.room
  obtain ⟨root, first, created, rootPlaced, windows, nextId, info_eq, same⟩ :=
    @createWindow info size heap bootable (Compositor.new buffer info)
      ⟨some (.new buffer info), heap⟩ [] (List.replicate 31 none) rfl rfl
      (fun slot member => absurd member List.not_mem_nil) (show 1 + 1 < wordSize by decide)
      (by dsimp only; omega) bootable.word "Desktop".toUTF8.toList
  have handle : first.nextId = 2 := nextId
  have rootId : root.id = 1 := rootPlaced.id
  obtain ⟨window, second, again, placed, slots, next, infoAgain, sameAgain⟩ :=
    @createWindow info size heap bootable first
      ⟨some first, { heap with next := heap.next + 4 * (info.width * info.height) }⟩ [some root]
      (List.replicate 30 none) rfl windows (fun slot member => by
        rw [List.mem_singleton.mp member]
        rfl) (by rw [handle]; decide) (by dsimp only; omega) bootable.word
      "Desktop".toUTF8.toList
  rw [handle] at again placed next
  obtain ⟨drawn, returned, like, shows⟩ := (@draws_drawDesktop window).shows
  have width : window.width = info.width := placed.width
  rw [width] at shows
  have others (other : Window) (member : some other ∈ [some root]) : other.id ≠ 2 := by
    obtain rfl := Option.some.inj (List.mem_singleton.mp member)
    rw [rootId]
    decide
  obtain ⟨fits, changed⟩ := @GuiState.onWindow_at
    ⟨some second, { heap with
      next := heap.next + 4 * (info.width * info.height) + 4 * (info.width * info.height) }⟩
    2 Window.drawDesktop second rfl _ _ window drawn slots placed.id others returned
  rw [← GuiState.drawDesktop_eq] at changed
  obtain ⟨cleared, fill, taskbar⟩ := bind_eq_ok.mp changed
  refine ⟨{ Desktop.initial ⟨none, heap⟩ with
    gui := ⟨some (second.withWindows _ fits), { heap with
      next := heap.next + 4 * (info.width * info.height) + 4 * (info.width * info.height) }⟩
    desktopWindow := some 2 }, ?_, ?_⟩
  · have first : (⟨none, heap⟩ : GuiState).initCompositor buffer info = .ok ⟨some first,
        { heap with next := heap.next + 4 * (info.width * info.height) }⟩ := by
      unfold screenGeometry at created
      rw [GuiState.initCompositor]
      dsimp only
      rw [created]
      rfl
    unfold screenGeometry GuiState.fromOrigin at again
    rw [Desktop.boot, Desktop.initial, first, ok_bind, Desktop.init]
    dsimp only
    rw [again, ok_bind, Desktop.drawDesktop]
    dsimp only
    rw [fill, ok_bind, taskbar]
    rfl
  · exact {
      terminalWindow := rfl
      buttonDownLast := rfl
      holds := ⟨List.length_replicate, rfl, rfl⟩
      fits := ⟨Nat.zero_le _, fun ch member => absurd member List.not_mem_nil⟩
      scene := ⟨_, root, drawn, none, rfl, {
        info_eq := infoAgain.trans info_eq
        length := (congrArg List.length (sameAgain.trans same)).trans length
        windows := rfl
        root_placed := rootPlaced
        desktop_placed := placed.like like
        desktop_shows := shows
        terminal_isSome := rfl
        terminal_placed := fun other member => by cases member
        terminal_shows := fun other member => by cases member
        nextId := next }⟩
      room := fun _ => by dsimp only; omega
      word := bootable.word }

end Bootable

end Aperture.Gui
