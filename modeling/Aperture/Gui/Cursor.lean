import Aperture.Gui.Compositing
import Aperture.Gui.Windows

/-!
# Mouse cursor

A frame is the composite of the windows with the mouse cursor drawn over it. The cursor is a bitmap
of 16 by 16 with a shadow right of its body, and `write_pixel` clips it at the edges of the screen.
-/

namespace Aperture.Gui

open Machine

/-- `CURSOR`. -/
def cursor : List UInt16 := [
  0b1100000000000000,
  0b1110000000000000,
  0b1111000000000000,
  0b1111100000000000,
  0b1111110000000000,
  0b1111111000000000,
  0b1111111100000000,
  0b1111111110000000,
  0b1111111111000000,
  0b1111111111100000,
  0b1111111111110000,
  0b1111110000000000,
  0b1110011110000000,
  0b1100011110000000,
  0b0000001110000000,
  0b0000001100000000
]

/-- `mask & (0x8000u16 >> col)`. -/
def cursorBit (mask : UInt16) (col : Nat) : UInt16 := mask &&& (0x8000 >>> UInt16.ofNat col)

/-- One round of the loops of `draw_cursor`. -/
def drawCursorBit (info : FrameBufferInfo) (mask : UInt16) (x y : Int) (row col : Nat)
    (buffer : List UInt8) : Except Panic (List UInt8) :=
  if cursorBit mask col ≠ 0 then do
    let px ← addI32 x col
    let py ← addI32 y row
    writePixel info buffer px py .white
  else if 0 < col ∧ cursorBit mask (col - 1) ≠ 0 then do
    let px ← addI32 x col
    let py ← addI32 y row
    writePixel info buffer px py .black
  else return buffer

/-- `draw_cursor`. -/
def drawCursor (info : FrameBufferInfo) (x y : Int) (buffer : List UInt8) :
    Except Panic (List UInt8) :=
  (List.range 16).foldlM (fun buffer row =>
    match cursor[row]? with
    | none => throw .outOfRange
    | some mask => (List.range 16).foldlM (fun buffer col =>
      drawCursorBit info mask x y row col buffer) buffer) buffer

namespace GuiState

/-- The first part of `render`: the compositor draws the windows. -/
def compose (gui : GuiState) : Except Panic GuiState :=
  match gui.compositor with
  | none => return gui
  | some c => do
    let c ← c.render
    return { gui with compositor := some c }

/-- The last part of `render`: the cursor is drawn where the mouse is. -/
def overlay (gui : GuiState) (mx my : Int) : Except Panic GuiState :=
  match gui.compositor with
  | none => return gui
  | some c => do
    let buffer ← drawCursor c.info mx my c.buffer
    return { gui with compositor := some (c.withBuffer buffer) }

/-- `render`, with the position of the mouse that it reads. -/
def render (gui : GuiState) (mx my : Int) : Except Panic GuiState := do
  let gui ← gui.compose
  gui.overlay mx my

end GuiState

/-! ## What the cursor covers -/

/-- The colour of the cursor at a place of its bitmap. -/
def cursorColor (row col : Nat) : Option Color :=
  match cursor[row]? with
  | none => none
  | some mask =>
    if cursorBit mask col ≠ 0 then some .white
    else if 0 < col ∧ cursorBit mask (col - 1) ≠ 0 then some .black
    else none

/-- The colour of the cursor at a place beside its tip. -/
def cursorAt (dx dy : Int) : Option Color :=
  if 0 ≤ dx ∧ dx < 16 ∧ 0 ≤ dy ∧ dy < 16 then cursorColor dy.toNat dx.toNat else none

section Cursor

variable {info : FrameBufferInfo} {size : Nat} {x y : Int}

/-- A store of `write_pixel` changes the pixel at its place, when that is on the screen. -/
theorem Supported.paints_writePixel (supported : Supported info size) (px py : Int) (color : Color)
    (isOpaque : color.a = 255) :
    Paints (·.length = size) (IsPlace info) (shownColor info) (writePixel info · px py color)
      fun place below => if isOutside info px py = false ∧ (place.1 : Int) = px ∧
        (place.2 : Int) = py then color else below := by
  unfold writePixel
  cases outside : isOutside info px py with
  | true =>
    simp only [↓reduceIte, Bool.true_eq_false, false_and]
    exact Paints.unchanged fun buffer _ => rfl
  | false =>
    have inside := outside
    simp only [isOutside, Bool.or_eq_false_iff, decide_eq_false_iff_not] at inside
    have narrow := asI32_le info.width
    have low := asI32_le info.height
    obtain ⟨column, rfl⟩ := Int.eq_ofNat_of_zero_le (by omega : 0 ≤ px)
    obtain ⟨row, rfl⟩ := Int.eq_ofNat_of_zero_le (by omega : 0 ≤ py)
    refine (supported.paints_write (by omega) (by omega) color isOpaque).congr ?_
    rintro ⟨otherX, otherY⟩ _ below
    simp only [Prod.mk.injEq, Int.ofNat_inj, true_and]

/-- A round of `draw_cursor` changes the pixel at its place by the colour of the cursor there. -/
theorem Supported.paints_drawCursorBit (supported : Supported info size) {row col : Nat}
    {mask : UInt16} (entry : cursor[row]? = some mask) (column : IsI32 (x + col))
    (line : IsI32 (y + row)) :
    Paints (·.length = size) (IsPlace info) (shownColor info) (drawCursorBit info mask x y row col)
      fun place below => if isOutside info (x + col) (y + row) = false ∧
        (place.1 : Int) = x + col ∧ (place.2 : Int) = y + row then
          (cursorColor row col).getD below else below := by
  have px : addI32 x col = .ok (x + col) := checkedI32_ok column
  have py : addI32 y row = .ok (y + row) := checkedI32_ok line
  unfold drawCursorBit cursorColor
  rw [entry]
  by_cases body : cursorBit mask col ≠ 0
  · simp only [if_pos body, px, py, ok_bind, Option.getD_some]
    exact supported.paints_writePixel _ _ .white rfl
  · by_cases shadow : 0 < col ∧ cursorBit mask (col - 1) ≠ 0
    · simp only [if_neg body, if_pos shadow, px, py, ok_bind, Option.getD_some]
      exact supported.paints_writePixel _ _ .black rfl
    · simp only [if_neg body, if_neg shadow, Option.getD_none, ite_self]
      exact Paints.unchanged fun buffer _ => rfl

/-- The cursor covers the places of the screen where its bitmap has a colour, and no others. -/
theorem Supported.paints_drawCursor (supported : Supported info size) (wide : info.width < 2 ^ 31)
    (high : info.height < 2 ^ 31) (left : -2 ^ 31 ≤ x) (right : x + 15 < 2 ^ 31)
    (upper : -2 ^ 31 ≤ y) (lower : y + 15 < 2 ^ 31) :
    Paints (·.length = size) (IsPlace info) (shownColor info) (drawCursor info x y)
      fun place below => (cursorAt (place.1 - x) (place.2 - y)).getD below := by
  have entry (row : Nat) (inRows : row ∈ List.range 16) : ∃ mask, cursor[row]? = some mask :=
    ⟨_, List.getElem?_eq_getElem (List.mem_range.mp inRows)⟩
  have rounds (row : Nat) (inRows : row ∈ List.range 16) :
      Paints (·.length = size) (IsPlace info) (shownColor info) (fun buffer =>
        match cursor[row]? with
        | none => throw .outOfRange
        | some mask => (List.range 16).foldlM (fun buffer col =>
          drawCursorBit info mask x y row col buffer) buffer) fun place below =>
        (List.range 16).foldl (fun below (col : Nat) =>
          if isOutside info (x + col) (y + row) = false ∧ (place.1 : Int) = x + col ∧
            (place.2 : Int) = y + row then (cursorColor row col).getD below else below) below := by
    obtain ⟨mask, found⟩ := entry row inRows
    have low := List.mem_range.mp inRows
    rw [found]
    refine Paints.foldlM (List.range 16) fun col inColumns => ?_
    have narrow := List.mem_range.mp inColumns
    exact supported.paints_drawCursorBit found ⟨by omega, by omega⟩ ⟨by omega, by omega⟩
  refine (Paints.foldlM (List.range 16) rounds).congr ?_
  rintro ⟨column, line⟩ ⟨inWidth, inHeight⟩ below
  have inside := not_isOutside wide high inWidth inHeight
  by_cases covered : 0 ≤ (column : Int) - x ∧ (column : Int) - x < 16 ∧ 0 ≤ (line : Int) - y ∧
      (line : Int) - y < 16
  · have touched (col row : Nat) : (isOutside info (x + col) (y + row) = false ∧
        (column : Int) = x + col ∧ (line : Int) = y + row) ↔
          row = ((line : Int) - y).toNat ∧ col = ((column : Int) - x).toNat := by
      constructor
      · rintro ⟨_, sameColumn, sameLine⟩
        omega
      · rintro ⟨sameLine, sameColumn⟩
        have columnEq : x + col = column := by omega
        have lineEq : y + row = line := by omega
        rw [columnEq, lineEq]
        exact ⟨inside, rfl, rfl⟩
    have rewritten (row col : Nat) (below : Color) :
        (if row = ((line : Int) - y).toNat ∧ col = ((column : Int) - x).toNat then
          (cursorColor row col).getD below else below) =
        if row = ((line : Int) - y).toNat ∧ col = ((column : Int) - x).toNat then
          (cursorColor ((line : Int) - y).toNat ((column : Int) - x).toNat).getD below else below := by
      split_ifs with same
      · rw [same.1, same.2]
      · rfl
    simp only [touched, rewritten]
    rw [cursorAt, if_pos covered]
    exact @foldl_grid Color
      (fun below => (cursorColor ((line : Int) - y).toNat ((column : Int) - x).toNat).getD below)
      _ _ 16 16 (by omega) (by omega) below
  · rw [cursorAt, if_neg covered, Option.getD_none]
    refine foldl_untouched (fun row inRows below => ?_) below
    refine foldl_untouched (fun col inColumns below => ?_) below
    have low := List.mem_range.mp inRows
    have narrow := List.mem_range.mp inColumns
    rw [if_neg]
    rintro ⟨_, sameColumn, sameLine⟩
    omega

end Cursor

/-! ## Frames -/

namespace GuiState

variable {gui : GuiState} {c : Compositor} {mx my : Int}

/-- The compositor draws the composite of its windows, and changes nothing but the framebuffer. -/
theorem compose_shows (lock : gui.compositor = some c) (supported : Supported c.info c.buffer.length)
    (wide : c.info.width < 2 ^ 31) (high : c.info.height < 2 ^ 31)
    (drawable : ∀ window ∈ c.shown, window.Drawable c.info) :
    ∃ buffer, gui.compose = .ok { gui with compositor := some (c.withBuffer buffer) } ∧
      buffer.length = c.buffer.length ∧ ∀ x < c.info.width, ∀ y < c.info.height,
        shownColor c.info buffer (x, y) = c.composite x y := by
  have paints := (supported.paints_clear .darkGray rfl).bind
    (supported.paints_slots c.windows drawable)
  obtain ⟨buffer, returned, length, changed⟩ := paints c.buffer rfl
  refine ⟨buffer, ?_, length, fun x column y row => ?_⟩
  · obtain ⟨cleared, first, rest⟩ := bind_eq_ok.mp returned
    have rendered : c.render = .ok (c.withBuffer buffer) := by
      rw [Compositor.render, first, ok_bind, rest]
      rfl
    rw [compose, lock]
    dsimp only
    rw [rendered]
    rfl
  · have inside := not_isOutside wide high column row
    have painted := changed (x, y) ⟨column, row⟩
    dsimp only at painted
    rw [if_neg (by rw [inside]; exact Bool.false_ne_true)] at painted
    exact painted.trans (c.composite_eq inside)

/-- The cursor is drawn over what the screen shows, and nothing but the framebuffer changes. -/
theorem overlay_shows (lock : gui.compositor = some c) (supported : Supported c.info c.buffer.length)
    (wide : c.info.width < 2 ^ 31) (high : c.info.height < 2 ^ 31) (left : -2 ^ 31 ≤ mx)
    (right : mx + 15 < 2 ^ 31) (upper : -2 ^ 31 ≤ my) (lower : my + 15 < 2 ^ 31) :
    ∃ buffer, gui.overlay mx my = .ok { gui with compositor := some (c.withBuffer buffer) } ∧
      buffer.length = c.buffer.length ∧ ∀ x < c.info.width, ∀ y < c.info.height,
        shownColor c.info buffer (x, y) =
          (cursorAt (x - mx) (y - my)).getD (shownColor c.info c.buffer (x, y)) := by
  obtain ⟨buffer, returned, length, changed⟩ :=
    supported.paints_drawCursor wide high left right upper lower c.buffer rfl
  refine ⟨buffer, ?_, length, fun x column y row => changed (x, y) ⟨column, row⟩⟩
  rw [overlay, lock]
  dsimp only
  rw [returned]
  rfl

/-- On a screen less than `2 ^ 31` pixels wide and high a frame shows, at every place, the cursor
where its bitmap has a colour and the composite of the windows elsewhere. The windows, their pixels
and the heap stay as they are, so the next frame shows no trace of this cursor. -/
theorem render_frame (lock : gui.compositor = some c) (supported : Supported c.info c.buffer.length)
    (wide : c.info.width < 2 ^ 31) (high : c.info.height < 2 ^ 31)
    (drawable : ∀ window ∈ c.shown, window.Drawable c.info) (left : -2 ^ 31 ≤ mx)
    (right : mx + 15 < 2 ^ 31) (upper : -2 ^ 31 ≤ my) (lower : my + 15 < 2 ^ 31) :
    ∃ buffer, gui.render mx my = .ok { gui with compositor := some (c.withBuffer buffer) } ∧
      buffer.length = c.buffer.length ∧ ∀ x < c.info.width, ∀ y < c.info.height,
        shownColor c.info buffer (x, y) = (cursorAt (x - mx) (y - my)).getD (c.composite x y) := by
  obtain ⟨first, composed, length, shows⟩ := compose_shows lock supported wide high drawable
  have next : Supported (c.withBuffer first).info (c.withBuffer first).buffer.length := by
    change Supported c.info first.length
    rw [length]
    exact supported
  obtain ⟨last, overlaid, lastLength, covers⟩ :=
    @overlay_shows { gui with compositor := some (c.withBuffer first) } (c.withBuffer first) mx my rfl
      next wide high left right upper lower
  refine ⟨last, ?_, lastLength.trans length, fun x column y row => ?_⟩
  · rw [render, composed, ok_bind, overlaid]
    rfl
  · exact (covers x column y row).trans (congrArg _ (shows x column y row))

/-- The law at a screen of two by two pixels with a white window in its lower right corner and the
cursor at its upper left one. -/
theorem render_frame_corner :
    ∃ buffer, GuiState.render ⟨some (Compositor.smallScreen 1 1 (by decide) (by decide)), .new⟩ 0 0 =
        .ok ⟨some ((Compositor.smallScreen 1 1 (by decide) (by decide)).withBuffer buffer), .new⟩ ∧
      shownColor ⟨2, 2, 2, 4, .rgb⟩ buffer (0, 1) = .white := by
  obtain ⟨buffer, returned, _, shows⟩ := @render_frame
    ⟨some (Compositor.smallScreen 1 1 (by decide) (by decide)), .new⟩
    (Compositor.smallScreen 1 1 (by decide) (by decide)) 0 0 rfl
    ⟨.inl rfl, .inr rfl, by decide, by decide, by decide⟩ (by decide) (by decide)
    (fun window shown => by
      obtain rfl := List.mem_singleton.mp shown
      refine ⟨fun _ _ => by decide, fun x y off src pixel => ?_⟩
      unfold Window.pixel at pixel
      split at pixel
      · rename_i inside
        obtain ⟨left, right, upper, lower⟩ := inside
        change 1 ≤ x at left
        change x < 1 + 1 at right
        change 1 ≤ y at upper
        change y < 1 + 1 at lower
        exact absurd ⟨by omega, (by omega : x < 2), by omega, (by omega : y < 2)⟩ off
      · cases pixel) (by decide) (by decide) (by decide) (by decide)
  exact ⟨buffer, returned, (shows 0 (by decide) 1 (by decide)).trans (by decide)⟩

end GuiState

end Aperture.Gui
