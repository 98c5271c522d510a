import Aperture.Gui.Font
import Aperture.Machine.Keyed

/-!
# Drawing into windows

The GUI finds a window by its handle each time something is drawn into it. The functions below find
it, change pixels of its backbuffer and leave everything else as it is. Drawing into one window
several times is therefore one change of that window, with all that is drawn.
-/

namespace Aperture.Gui

open Machine

/-! ## Pixels of a window -/

/-- A glyph is drawn into as many pixels. -/
theorem length_drawGlyph {window : Geometry} {rows : GlyphRows} {cursorX y : Int} {color : Color}
    {before after : List Color} (returned : drawGlyph window rows cursorX y color before = .ok after) :
    after.length = before.length := by
  have stored {index : Int} {before after : List Color}
      (returned : setColor before index color = .ok after) : after.length = before.length := by
    unfold setColor at returned
    split at returned
    · obtain rfl := Except.ok.inj returned
      exact List.length_set
    · cases returned
  have bit {row : Fin glyphHeight} {col : Fin glyphWidth} {before after : List Color}
      (returned : drawBit window rows cursorX y color row col before = .ok after) :
      after.length = before.length := by
    unfold drawBit at returned
    split at returned
    · obtain ⟨px, _, returned⟩ := bind_eq_ok.mp returned
      obtain ⟨py, _, returned⟩ := bind_eq_ok.mp returned
      split at returned
      · obtain ⟨start, _, returned⟩ := bind_eq_ok.mp returned
        obtain ⟨index, _, returned⟩ := bind_eq_ok.mp returned
        exact stored returned
      · rw [pure_eq_ok.mp returned]
    · rw [pure_eq_ok.mp returned]
  have loop {ι : Type} {items : List ι} {round : List Color → ι → Except Panic (List Color)}
      (each : ∀ item before after, round before item = .ok after → after.length = before.length)
      {before after : List Color} (returned : items.foldlM round before = .ok after) :
      after.length = before.length := by
    induction items generalizing before with
    | nil => rw [pure_eq_ok.mp returned]
    | cons item items ih =>
      rw [List.foldlM_cons] at returned
      obtain ⟨next, now, rest⟩ := bind_eq_ok.mp returned
      exact (ih rest).trans (each item _ _ now)
  exact loop (fun row before after returned => loop (fun col before after => bit) returned) returned

/-- A text is. -/
theorem length_drawChars {window : Geometry} {y : Int} {color : Color} {text : List Char} {x : Int}
    {before after : List Color} (returned : drawChars window y color text x before = .ok after) :
    after.length = before.length := by
  induction text generalizing x before with
  | nil => rw [pure_eq_ok.mp returned]
  | cons c rest ih =>
    rw [drawChars] at returned
    obtain ⟨right, _, returned⟩ := bind_eq_ok.mp returned
    split at returned
    · rw [pure_eq_ok.mp returned]
    · obtain ⟨drawn, glyph, returned⟩ := bind_eq_ok.mp returned
      obtain ⟨next, _, returned⟩ := bind_eq_ok.mp returned
      exact (ih returned).trans (length_drawGlyph glyph)

namespace Window

/-- The window with the pixels that are painted, as many as before. -/
def repaint (window : Window) (painted : Except Panic (List Color))
    (keeps : ∀ pixels, painted = .ok pixels → pixels.length = window.backbuffer.length) :
    Except Panic Window :=
  match painted, keeps with
  | .error reason, _ => .error reason
  | .ok pixels, keeps => .ok { window with
      backbuffer := pixels
      count := by rw [keeps pixels rfl]; exact window.count }

/-- What `clear_window` does to the window. -/
def fill (window : Window) (color : Color) : Except Panic Window :=
  window.repaint (.ok (List.replicate window.backbuffer.length color)) fun pixels returned => by
    rw [← Except.ok.inj returned, List.length_replicate]

/-- What `gui::draw_text` does to the window. -/
def write (window : Window) (text : List Char) (x y : Int) (color : Color) : Except Panic Window :=
  window.repaint (drawText window text x y color) fun _ => length_drawChars

/-- The pixels behind the checks of `desktop::write_pixel`. -/
def pixelsWith (window : Window) (x y : Int) (color : Color) : Except Panic (List Color) :=
  if x < 0 ∨ y < 0 ∨ window.width ≤ x ∨ window.height ≤ y then return window.backbuffer
  else do
    let row ← mulI32 y window.width
    let index ← addI32 row x
    setColor window.backbuffer index color

/-- They are as many as before. -/
theorem length_pixelsWith {window : Window} {x y : Int} {color : Color} {pixels : List Color}
    (returned : window.pixelsWith x y color = .ok pixels) :
    pixels.length = window.backbuffer.length := by
  unfold pixelsWith at returned
  split at returned
  · rw [pure_eq_ok.mp returned]
  · obtain ⟨row, _, returned⟩ := bind_eq_ok.mp returned
    obtain ⟨index, _, returned⟩ := bind_eq_ok.mp returned
    unfold setColor at returned
    split at returned
    · obtain rfl := Except.ok.inj returned
      exact List.length_set
    · cases returned

/-- What `desktop::write_pixel` does to the window. -/
def setPixel (window : Window) (x y : Int) (color : Color) : Except Panic Window :=
  window.repaint (window.pixelsWith x y color) fun _ => length_pixelsWith

/-- Windows that differ in their pixels only. -/
structure Like (base window : Window) : Prop where
  /-- They are at one place and of one size. -/
  geometry : window.toGeometry = base.toGeometry
  /-- They have one handle. -/
  id : window.id = base.id
  /-- They have one title. -/
  title : window.title = base.title
  /-- Both are drawn, or none is. -/
  visible : window.visible = base.visible

/-- Painting changes pixels only. -/
theorem like_repaint {window after : Window} {painted : Except Panic (List Color)}
    {keeps : ∀ pixels, painted = .ok pixels → pixels.length = window.backbuffer.length}
    (returned : window.repaint painted keeps = .ok after) :
    window.Like after ∧ painted = .ok after.backbuffer := by
  cases painted with
  | error reason => cases returned
  | ok pixels =>
    obtain rfl := Except.ok.inj returned
    exact ⟨⟨rfl, rfl, rfl, rfl⟩, rfl⟩

/-- What is painted is in the window. -/
theorem repaint_ok {window : Window} {painted : Except Panic (List Color)} {pixels : List Color}
    {keeps : ∀ pixels, painted = .ok pixels → pixels.length = window.backbuffer.length}
    (drawn : painted = .ok pixels) :
    ∃ after, window.repaint painted keeps = .ok after ∧ window.Like after ∧
      after.backbuffer = pixels := by
  subst drawn
  exact ⟨_, rfl, ⟨rfl, rfl, rfl, rfl⟩, rfl⟩

/-- A window is like itself. -/
theorem Like.refl (window : Window) : window.Like window := ⟨rfl, rfl, rfl, rfl⟩

/-- Likeness carries over. -/
theorem Like.trans {base window after : Window} (first : base.Like window)
    (second : window.Like after) : base.Like after :=
  ⟨second.geometry.trans first.geometry, second.id.trans first.id,
    second.title.trans first.title, second.visible.trans first.visible⟩

/-- Painting keeps handles. -/
theorem keepsKey_repaint {painted : Window → Except Panic (List Color)}
    {keeps : ∀ window pixels, painted window = .ok pixels → pixels.length = window.backbuffer.length} :
    KeepsKey Window.id fun window => window.repaint (painted window) (keeps window) :=
  fun _ _ returned => (like_repaint returned).1.id

end Window

/-! ## Windows of the compositor -/

namespace Compositor

/-- The compositor with other windows. -/
def withWindows (c : Compositor) (windows : List (Option Window))
    (windows_length : windows.length = 32) : Compositor :=
  { c with windows, windows_length }

/-- `window_mut`, with what the caller does to the window that it returns. -/
def windowMut (c : Compositor) (id : Nat) (change : Window → Except Panic Window) :
    Except Panic Compositor :=
  match changed : updateEntry Window.id id change c.windows with
  | .error reason => .error reason
  | .ok windows => .ok (c.withWindows windows ((length_updateEntry changed).trans c.windows_length))

/-- `clear_window`. -/
def clearWindow (c : Compositor) (id : Nat) (color : Color) : Except Panic Compositor :=
  c.windowMut id (·.fill color)

variable {c after : Compositor} {id : Nat} {change : Window → Except Panic Window}
  {windows : List (Option Window)}

/-- It returns when the changes of the table do. -/
theorem windowMut_ok (changed : updateEntry Window.id id change c.windows = .ok windows) :
    c.windowMut id change =
      .ok (c.withWindows windows ((length_updateEntry changed).trans c.windows_length)) := by
  unfold windowMut
  split
  · rename_i reason failed
    rw [changed] at failed
    cases failed
  · rename_i other returned
    obtain rfl := Except.ok.inj (changed.symm.trans returned)
    rfl

/-- It fails when they do. -/
theorem windowMut_error {reason : Panic}
    (failed : updateEntry Window.id id change c.windows = .error reason) :
    c.windowMut id change = .error reason := by
  unfold windowMut
  split
  · rename_i other returned
    obtain rfl := Except.error.inj (failed.symm.trans returned)
    rfl
  · rename_i other returned
    rw [failed] at returned
    cases returned

/-- The slot of a window that is created is the first free one. -/
theorem position_free {front back : List (Option Window)} (shape : c.windows = front ++ none :: back)
    (taken : ∀ slot ∈ front, slot.isSome = true) :
    position 32 (fun slot => (c.windows[slot]?.join).isNone) = some front.length := by
  have length := c.windows_length
  rw [shape, List.length_append, List.length_cons] at length
  refine position_eq_some.mpr ⟨by omega, ?_, fun slot before => ?_⟩
  · rw [shape, List.getElem?_append_right (Nat.le_refl _), Nat.sub_self]
    rfl
  · obtain ⟨window, there⟩ := Option.isSome_iff_exists.mp (taken _ (List.getElem_mem before))
    rw [shape, List.getElem?_append_left before, List.getElem?_eq_getElem before, there]
    rfl

/-- With a free slot, a handle and memory for its pixels a window is created: it is white and
visible, it has the next handle, and the other slots are as before. -/
theorem createWindow_ok {front back : List (Option Window)} {heap : Mm.BumpAllocator}
    (shape : c.windows = front ++ none :: back) (taken : ∀ slot ∈ front, slot.isSome = true)
    (handle : c.nextId + 1 < wordSize) (title : List UInt8) {geometry : Geometry}
    (nonneg : 0 ≤ geometry.width * geometry.height)
    (fits : IsI32 (geometry.width * geometry.height))
    (room : heap.next + (geometry.width * geometry.height).toNat * 4 ≤ heap.limit)
    (word : heap.limit < wordSize) :
    ∃ (window : Window) (after : Compositor), c.createWindow heap title geometry =
        .ok (c.nextId, after,
          { heap with next := heap.next + (geometry.width * geometry.height).toNat * 4 }) ∧
      window.toGeometry = geometry ∧ window.id = c.nextId ∧ window.visible = true ∧
      (∀ color ∈ window.backbuffer, color = .white) ∧ after.windows = front ++ some window :: back ∧
      after.nextId = c.nextId + 1 ∧ after.info = c.info ∧ after.buffer = c.buffer := by
  have next : add64 c.nextId 1 = .ok (c.nextId + 1) := add64_eq_ok.mpr ⟨handle, rfl⟩
  have product : mulI32 geometry.width geometry.height = .ok (geometry.width * geometry.height) :=
    checkedI32_ok fits
  have pixels : asUsize (geometry.width * geometry.height) =
      (geometry.width * geometry.height).toNat := asUsize_of_nonneg nonneg fits
  have bytes : mul64 (geometry.width * geometry.height).toNat 4 =
      .ok ((geometry.width * geometry.height).toNat * 4) := by
    have small := fits.2
    exact mul64_eq_ok.mpr ⟨by unfold wordSize; omega, rfl⟩
  have start : heap.aligned 1 = heap.next := Mm.BumpAllocator.aligned_one (by omega)
  have granted : heap.allocate ((geometry.width * geometry.height).toNat * 4) 1 =
      .ok (some heap.next,
        { heap with next := heap.next + (geometry.width * geometry.height).toNat * 4 }) := by
    refine Mm.BumpAllocator.allocate_eq_some.mpr ⟨⟨by decide, ?_, ?_, ?_⟩, start.symm, by rw [start]⟩
    · omega
    · rw [start]
      omega
    · rw [start]
      exact room
  have free := position_free shape taken
  unfold createWindow
  simp only [next]
  split
  · rename_i reason failed
    rw [product] at failed
    cases failed
  · rename_i count counted
    obtain rfl := Except.ok.inj (counted.symm.trans product)
    split
    · rename_i reason failed
      rw [pixels, bytes] at failed
      cases failed
    · rename_i size sized
      rw [pixels, bytes] at sized
      obtain rfl := Except.ok.inj sized
      simp only [granted, free]
      let len := min title.length 63
      let window : Window := {
        geometry with
        id := c.nextId
        title := title.take len ++ List.replicate (64 - len) 0
        visible := true
        backbuffer := List.replicate (asUsize (geometry.width * geometry.height)) .white
        count_fits := fits
        count := by rw [List.length_replicate, pixels, Int.toNat_of_nonneg nonneg]
      }
      refine ⟨window, _, rfl, rfl, rfl, rfl, fun color member => ?_, ?_, rfl, rfl, rfl⟩
      · exact (List.mem_replicate.mp member).2
      · change c.windows.set front.length (some window) = _
        rw [shape, List.set_append_right _ _ (Nat.le_refl _), Nat.sub_self, List.set_cons_zero]

end Compositor

/-! ## The GUI -/

/-- What the GUI keeps, with the heap that its windows come from. -/
structure GuiState where
  /-- `COMPOSITOR`. -/
  compositor : Option Compositor
  /-- The early heap. -/
  heap : Mm.BumpAllocator

namespace GuiState

/-- `create_window`. -/
def createWindow (gui : GuiState) (title : List UInt8) (geometry : Geometry) :
    Except Panic (Option Nat × GuiState) :=
  match gui.compositor with
  | none => return (none, gui)
  | some c => do
    let (id, c, heap) ← c.createWindow gui.heap title geometry
    return (some id, ⟨some c, heap⟩)

/-- The lock of the compositor and the search for a window that drawing begins with. -/
def onWindow (gui : GuiState) (id : Nat) (change : Window → Except Panic Window) :
    Except Panic GuiState :=
  match gui.compositor with
  | none => return gui
  | some c => do
    let c ← c.windowMut id change
    return { gui with compositor := some c }

/-- `draw_text`. -/
def drawText (gui : GuiState) (id : Option Nat) (text : List Char) (x y : Int) (color : Color) :
    Except Panic GuiState :=
  match id with
  | none => return gui
  | some id => gui.onWindow id (·.write text x y color)

/-- `clear_window`. -/
def clearWindow (gui : GuiState) (id : Option Nat) (color : Color) : Except Panic GuiState :=
  match id with
  | none => return gui
  | some id =>
    match gui.compositor with
    | none => return gui
    | some c => do
      let c ← c.clearWindow id color
      return { gui with compositor := some c }

/-- The geometry of a window of this size at the upper left corner. -/
def fromOrigin (width height : Nat) : Geometry :=
  ⟨0, 0, asI32 width, asI32 height, isI32_zero, isI32_zero, isI32_asI32 width, isI32_asI32 height⟩

/-- `init_compositor`. -/
def initCompositor (gui : GuiState) (buffer : List UInt8) (info : FrameBufferInfo) :
    Except Panic GuiState := do
  let gui : GuiState := { gui with compositor := some (.new buffer info) }
  let (_desktop, gui) ← gui.createWindow "Desktop".toUTF8.toList
    (fromOrigin info.width info.height)
  return gui

variable {gui : GuiState} {id : Nat} {first second change : Window → Except Panic Window}

/-- Drawing twice into a window is one change of the window. -/
theorem onWindow_bind (keeps : KeepsKey Window.id first) :
    (gui.onWindow id first >>= (·.onWindow id second)) =
      gui.onWindow id fun window => first window >>= second := by
  obtain ⟨compositor, heap⟩ := gui
  cases compositor with
  | none => rfl
  | some c =>
    have both := @updateEntry_bind Window Nat _ Window.id id first second c.windows keeps
    simp only [onWindow]
    cases changed : updateEntry Window.id id first c.windows with
    | error reason =>
      rw [changed, error_bind] at both
      rw [Compositor.windowMut_error changed, Compositor.windowMut_error both.symm]
      rfl
    | ok windows =>
      rw [changed, ok_bind] at both
      rw [Compositor.windowMut_ok changed]
      change (Compositor.windowMut _ id second >>= _) = _
      cases again : updateEntry Window.id id second windows with
      | error reason =>
        rw [again] at both
        rw [Compositor.windowMut_error both.symm,
          @Compositor.windowMut_error (c.withWindows windows _) id second reason again]
      | ok last =>
        rw [again] at both
        rw [Compositor.windowMut_ok both.symm,
          @Compositor.windowMut_ok (c.withWindows windows _) id second last again]
        rfl

/-- A change that returns the window changes nothing. -/
theorem onWindow_pure : gui.onWindow id pure = .ok gui := by
  obtain ⟨compositor, heap⟩ := gui
  cases compositor with
  | none => rfl
  | some c =>
    have same := @updateEntry_pure Window Nat _ Window.id id c.windows
    simp only [onWindow, Compositor.windowMut_ok same]
    rfl

/-- Drawing into a window in a loop is one change of the window. -/
theorem onWindow_foldlM {ι : Type} {round : ι → Window → Except Panic Window}
    (keeps : ∀ item, KeepsKey Window.id (round item)) (items : List ι) :
    items.foldlM (fun gui item => gui.onWindow id (round item)) gui =
      gui.onWindow id fun window => items.foldlM (fun window item => round item window) window := by
  induction items generalizing gui with
  | nil => exact onWindow_pure.symm
  | cons item items ih =>
    simp only [List.foldlM_cons]
    rw [← onWindow_bind (keeps item)]
    exact congrArg (gui.onWindow id (round item) >>= ·) (funext fun next => ih)

/-- `clear_window` is drawing into the window, too. -/
theorem clearWindow_eq (color : Color) :
    gui.clearWindow (some id) color = gui.onWindow id (·.fill color) := rfl

/-- The window that is drawn into is the first one with the handle. -/
theorem onWindow_at {c : Compositor} (lock : gui.compositor = some c)
    {front back : List (Option Window)} {window after : Window}
    (shape : c.windows = front ++ some window :: back) (found : window.id = id)
    (others : ∀ other, some other ∈ front → other.id ≠ id) (changed : change window = .ok after) :
    ∃ length, gui.onWindow id change =
      .ok { gui with compositor := some (c.withWindows (front ++ some after :: back) length) } := by
  have table : updateEntry Window.id id change c.windows = .ok (front ++ some after :: back) := by
    rw [shape, updateEntry_at found others, changed]
    rfl
  refine ⟨(length_updateEntry table).trans c.windows_length, ?_⟩
  simp only [onWindow, lock, Compositor.windowMut_ok table]
  rfl

end GuiState

end Aperture.Gui
