import Aperture.Gui.Cursor
import Aperture.Gui.Scene

/-!
# Frames of the desktop

What the screen shows while a session is served: the picture of the desktop, over it the terminal
when that is open, and over both the cursor.
-/

namespace Aperture.Gui

open Machine

/-- The colour of the desktop at a place of the screen. -/
def sessionColor (info : FrameBufferInfo) (session : Session) (x y : Int) : Color :=
  if session.isOpen && pointInRect x y 100 100 580 420 then
    terminalPicture 480 session.line (x - 100) (y - 100)
  else desktopPicture info.width x y

/-- The colour of a frame, with the cursor where the mouse is. -/
def frameColor (info : FrameBufferInfo) (session : Session) (mx my x y : Int) : Color :=
  (cursorAt (x - mx) (y - my)).getD (sessionColor info session x y)

/-- The picture of the desktop is opaque. -/
theorem alpha_desktopPicture (width column row : Int) : (desktopPicture width column row).a = 255 := by
  unfold desktopPicture
  split_ifs <;> rfl

/-- So is the picture of the terminal. -/
theorem alpha_terminalPicture (width : Int) (line : List Char) (column row : Int) :
    (terminalPicture width line column row).a = 255 := by
  unfold terminalPicture
  split_ifs <;> rfl

/-- An opaque colour hides what is below it. -/
theorem blend_of_isOpaque {src : Color} (isOpaque : src.a = 255) (below : Color) :
    blend src below = src := if_pos isOpaque

section Windows

variable {window : Window} {id : Nat} {left upper width height : Int}

/-- The pixel of a window is the colour at its place. -/
theorem Window.Placed.pixel_eq (placed : window.Placed id left upper width height) (x y : Int) :
    window.pixel x y =
      if left ≤ x ∧ x < left + width ∧ upper ≤ y ∧ y < upper + height then
        window.colorOf ((x - left).toNat, (y - upper).toNat)
      else none := by
  rw [Window.pixel, placed.x, placed.y, placed.width, placed.height]
  split_ifs with inside
  · have wide : (width.toNat : Int) = width := Int.toNat_of_nonneg (by omega)
    have column : ((x - left).toNat : Int) = x - left := Int.toNat_of_nonneg (by omega)
    have row : ((y - upper).toNat : Int) = y - upper := Int.toNat_of_nonneg (by omega)
    have index : ((y - upper) * width + (x - left)).toNat =
        (y - upper).toNat * width.toNat + (x - left).toNat := by
      rw [← column, ← row, ← wide]
      simp only [Int.toNat_natCast]
      exact_mod_cast rfl
    rw [index, Window.colorOf, placed.width]
  · rfl

/-- A place inside the window, from a place of the screen. -/
theorem Window.Placed.isPixel (placed : window.Placed id left upper width height) {x y : Int}
    (inside : left ≤ x ∧ x < left + width ∧ upper ≤ y ∧ y < upper + height) :
    IsPixel window ((x - left).toNat, (y - upper).toNat) := by
  unfold IsPixel
  rw [placed.width, placed.height]
  exact ⟨by omega, by omega⟩

/-- A window with a picture has its pixels. -/
theorem Window.Placed.pixel_shows (placed : window.Placed id left upper width height)
    {picture : Int → Int → Color} (shows : window.Shows picture) (x y : Int) :
    window.pixel x y =
      if left ≤ x ∧ x < left + width ∧ upper ≤ y ∧ y < upper + height then
        some (picture (x - left) (y - upper))
      else none := by
  rw [placed.pixel_eq]
  split_ifs with inside
  · rw [shows _ (placed.isPixel inside)]
    have column : ((x - left).toNat : Int) = x - left := Int.toNat_of_nonneg (by omega)
    have row : ((y - upper).toNat : Int) = y - upper := Int.toNat_of_nonneg (by omega)
    rw [column, row]
  · rfl

/-- A window inside the screen can be drawn. -/
theorem Window.Placed.drawable {info : FrameBufferInfo}
    (placed : window.Placed id left upper width height) (wide : info.width < 2 ^ 31)
    (high : info.height < 2 ^ 31) (leftInside : 0 ≤ left) (upperInside : 0 ≤ upper)
    (right : left + width ≤ info.width) (lower : upper + height ≤ info.height) :
    window.Drawable info where
  fits _ _ := by
    rw [placed.x, placed.y, placed.width, placed.height]
    exact ⟨by omega, by omega⟩
  transparent x y off src pixel := by
    rw [placed.pixel_eq] at pixel
    split at pixel
    · rename_i inside
      exact absurd ⟨by omega, by omega, by omega, by omega⟩ off
    · cases pixel

end Windows

section Composite

variable {info : FrameBufferInfo} {size : Nat} {heap : Mm.BumpAllocator} {session : Session}
  {root desktop : Window} {terminal : Option Window} {c : Compositor}

/-- The windows of the desktop are drawn in order. -/
theorem Scene.shown {picture : Option (Int → Int → Color)}
    (scene : Scene info size picture root desktop terminal c) :
    c.shown = root :: desktop :: terminal.toList := by
  have hidden : (List.replicate 29 none).filterMap (Option.filter Window.visible) = [] := by
    rw [List.filterMap_eq_nil_iff]
    intro slot member
    rw [(List.mem_replicate.mp member).2]
    rfl
  have first : Option.filter Window.visible (some root) = some root := by
    rw [Option.filter_some, if_pos scene.root_placed.visible]
  have second : Option.filter Window.visible (some desktop) = some desktop := by
    rw [Option.filter_some, if_pos scene.desktop_placed.visible]
  rw [Compositor.shown, shownOf, scene.windows, List.filterMap_cons_some first,
    List.filterMap_cons_some second]
  cases isOpen : terminal with
  | none =>
    rw [List.filterMap_cons_none rfl, hidden]
    rfl
  | some window =>
    have third : Option.filter Window.visible (some window) = some window := by
      rw [Option.filter_some, if_pos (scene.terminal_placed window isOpen).visible]
    rw [List.filterMap_cons_some third, hidden]
    rfl

/-- All of them can be drawn. -/
theorem Scene.drawable {picture : Option (Int → Int → Color)}
    (scene : Scene info size picture root desktop terminal c)
    (bootable : Bootable info size heap) : ∀ window ∈ c.shown, window.Drawable c.info := by
  have wide := bootable.wide
  have high := bootable.high
  rw [scene.shown, scene.info_eq]
  intro window member
  rcases List.mem_cons.mp member with rfl | member
  · exact scene.root_placed.drawable bootable.width_lt bootable.height_lt (le_refl 0) (le_refl 0)
      (by omega) (by omega)
  · rcases List.mem_cons.mp member with rfl | member
    · exact scene.desktop_placed.drawable bootable.width_lt bootable.height_lt (le_refl 0)
        (le_refl 0) (by omega) (by omega)
    · exact (scene.terminal_placed window (Option.mem_toList.mp member)).drawable
        bootable.width_lt bootable.height_lt (by decide) (by decide) (by omega) (by omega)

/-- Their composite is the colour of the desktop. -/
theorem Scene.composite_eq (scene : Scene info size session.picture root desktop terminal c)
    {x y : Nat} (column : x < info.width) (row : y < info.height) :
    c.composite x y = sessionColor info session x y := by
  have desktopPixel : desktop.pixel x y = some (desktopPicture info.width x y) := by
    rw [scene.desktop_placed.pixel_shows scene.desktop_shows, if_pos ⟨by omega, by omega, by omega,
      by omega⟩, Int.sub_zero, Int.sub_zero]
  have below (color : Color) : blend (desktopPicture info.width x y) color =
      desktopPicture info.width x y := blend_of_isOpaque (alpha_desktopPicture _ _ _) color
  have isShown := scene.terminal_isSome
  rw [Compositor.composite, Compositor.layers, scene.shown]
  unfold Session.picture at scene isShown
  unfold sessionColor
  have front (rest : List Window) :
      ((root :: desktop :: rest).filterMap (·.pixel x y)).foldl
        (fun below src => blend src below) .darkGray =
      (rest.filterMap (·.pixel x y)).foldl (fun below src => blend src below)
        (desktopPicture info.width x y) := by
    have second : (desktop :: rest).filterMap (·.pixel x y) =
        desktopPicture info.width x y :: rest.filterMap (·.pixel x y) :=
      List.filterMap_cons_some desktopPixel
    rw [List.filterMap_cons, second]
    cases root.pixel x y with
    | none => rw [List.foldl_cons, below]
    | some color => rw [List.foldl_cons, List.foldl_cons, below]
  rw [front]
  cases isOpen : session.isOpen with
  | false =>
    rw [isOpen] at isShown
    obtain rfl : terminal = none := Option.not_isSome_iff_eq_none.mp (by
      rw [isShown]
      exact Bool.false_ne_true)
    rfl
  | true =>
    rw [isOpen] at isShown scene
    obtain ⟨window, rfl⟩ := Option.isSome_iff_exists.mp isShown
    have pixel := (scene.terminal_placed window rfl).pixel_shows
      (scene.terminal_shows window rfl _ rfl) x y
    have region : pointInRect x y 100 100 580 420 = true ↔
        (100 : Int) ≤ x ∧ (x : Int) < 100 + 480 ∧ (100 : Int) ≤ y ∧ (y : Int) < 100 + 320 := by
      simp only [pointInRect, Bool.and_eq_true, decide_eq_true_eq]
      omega
    rw [Option.toList_some, List.filterMap_cons, pixel]
    by_cases inside : pointInRect x y 100 100 580 420 = true
    · rw [if_pos (region.mp inside), inside]
      simp only [List.filterMap_nil, List.foldl_cons, List.foldl_nil, Bool.and_self, ↓reduceIte]
      exact blend_of_isOpaque (alpha_terminalPicture _ _ _ _) _
    · rw [if_neg (region.not.mp inside), if_neg]
      · rfl
      · rw [Bool.true_and]
        exact inside

end Composite

/-! ## Drawing a frame -/

/-- The screen shows these colours. -/
def GuiState.Displays (gui : GuiState) (info : FrameBufferInfo) (color : Int → Int → Color) : Prop :=
  ∃ c, gui.compositor = some c ∧ c.info = info ∧ ∀ x < info.width, ∀ y < info.height,
    shownColor info c.buffer (x, y) = color x y

namespace Desktop

variable {info : FrameBufferInfo} {size : Nat} {heap : Mm.BumpAllocator} {session : Session}
  {desktop : Desktop}

/-- Other bytes in the framebuffer do not change what the desktop serves. -/
theorem Serves.withBuffer (serves : desktop.Serves info size session) {c : Compositor}
    (lock : desktop.gui.compositor = some c) {buffer : List UInt8}
    (length : buffer.length = c.buffer.length) :
    ({ desktop with gui := { desktop.gui with compositor := some (c.withBuffer buffer) } } :
      Desktop).Serves info size session := by
  obtain ⟨other, root, window, terminal, sameLock, scene⟩ := serves.scene
  obtain rfl := Option.some.inj (lock.symm.trans sameLock)
  exact {
    terminalWindow := serves.terminalWindow
    buttonDownLast := serves.buttonDownLast
    holds := ⟨serves.holds.cells, serves.holds.count, serves.holds.bytes⟩
    fits := serves.fits
    scene := ⟨c.withBuffer buffer, root, window, terminal, rfl, {
      info_eq := scene.info_eq
      length := length.trans scene.length
      windows := scene.windows
      root_placed := scene.root_placed
      desktop_placed := scene.desktop_placed
      desktop_shows := scene.desktop_shows
      terminal_isSome := scene.terminal_isSome
      terminal_placed := scene.terminal_placed
      terminal_shows := scene.terminal_shows
      nextId := scene.nextId }⟩
    room := serves.room
    word := serves.word }

/-- The first part of a frame leaves the session on the screen. -/
theorem Serves.compose (serves : desktop.Serves info size session)
    (bootable : Bootable info size heap) :
    ∃ gui, desktop.gui.compose = .ok gui ∧
      ({ desktop with gui } : Desktop).Serves info size session ∧
      gui.Displays info (sessionColor info session) := by
  obtain ⟨c, root, window, terminal, lock, scene⟩ := serves.scene
  have format := scene.info_eq
  have supported : Supported c.info c.buffer.length := by
    rw [format, scene.length]
    exact bootable.supported
  obtain ⟨buffer, composed, length, shows⟩ := GuiState.compose_shows lock supported
    (by rw [format]; exact bootable.width_lt) (by rw [format]; exact bootable.height_lt)
    (scene.drawable bootable)
  rw [format] at shows
  refine ⟨_, composed, serves.withBuffer lock length, c.withBuffer buffer, rfl, format,
    fun x column y row => ?_⟩
  exact (shows x column y row).trans (scene.composite_eq column row)

/-- The last part leaves the cursor over it. -/
theorem Serves.overlay (serves : desktop.Serves info size session)
    (bootable : Bootable info size heap)
    (displays : desktop.gui.Displays info (sessionColor info session)) {mx my : Int}
    (left : 0 ≤ mx) (right : mx ≤ 1279) (upper : 0 ≤ my) (lower : my ≤ 1023) :
    ∃ gui, desktop.gui.overlay mx my = .ok gui ∧
      ({ desktop with gui } : Desktop).Serves info size session ∧
      gui.Displays info (frameColor info session mx my) := by
  obtain ⟨c, root, window, terminal, lock, scene⟩ := serves.scene
  obtain ⟨other, sameLock, format, shows⟩ := displays
  obtain rfl := Option.some.inj (lock.symm.trans sameLock)
  have supported : Supported c.info c.buffer.length := by
    rw [format, scene.length]
    exact bootable.supported
  obtain ⟨buffer, overlaid, length, covers⟩ := @GuiState.overlay_shows _ c mx my lock supported
    (by rw [format]; exact bootable.width_lt) (by rw [format]; exact bootable.height_lt)
    (by omega) (by omega) (by omega) (by omega)
  rw [format] at covers
  refine ⟨_, overlaid, serves.withBuffer lock length, c.withBuffer buffer, rfl, format,
    fun x column y row => ?_⟩
  have covered := covers x column y row
  rw [shows x column y row] at covered
  exact covered

end Desktop

end Aperture.Gui
