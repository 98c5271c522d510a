import Aperture.Gui.Desktop

/-!
# Pictures

What is drawn into a window is a picture, a colour for each place of it. Text and rectangles put one
colour into the places that they cover, so the picture that a sequence of them leaves is read off
from the last one that covers a place. Redrawing the terminal leaves the picture of its line, whatever
was in the window before.
-/

namespace Aperture.Gui

open Machine

/-- The colour at a place of a window. -/
def Window.colorOf (window : Window) (place : Nat × Nat) : Option Color :=
  window.backbuffer[place.2 * window.width.toNat + place.1]?

/-- The place is inside the window. -/
def IsPixel (window : Window) (place : Nat × Nat) : Prop :=
  (place.1 : Int) < window.width ∧ (place.2 : Int) < window.height

/-- From every window that is like the given one a drawing returns another, and the colour at every
place changes by an effect of its own. -/
abbrev Draws (base : Window) (run : Window → Except Panic Window)
    (effect : Nat × Nat → Option Color → Option Color) : Prop :=
  Paints base.Like (IsPixel base) Window.colorOf run effect

/-- The window shows a picture. -/
def Window.Shows (window : Window) (picture : Int → Int → Color) : Prop :=
  ∀ place, IsPixel window place → window.colorOf place = some (picture place.1 place.2)

/-- Whether the bit of a glyph is set. -/
def glyphDot (rows : GlyphRows) (row col : Nat) : Bool :=
  if inside : row < glyphHeight ∧ col < glyphWidth then
    glyphBit rows ⟨row, inside.1⟩ ⟨col, inside.2⟩
  else false

/-- Whether a text at a place of a window covers another place of it: the characters are six columns
apart, and from the first that does not fit in the width on there are none. -/
def textShows (width : Int) (text : List Char) (x y column row : Int) : Bool :=
  let cell := (column - x) / 6
  match text[cell.toNat]? with
  | none => false
  | some c => x ≤ column && y ≤ row && x + 6 * cell + 5 ≤ width &&
      glyphDot (glyphFor c) (row - y).toNat ((column - x) % 6).toNat

/-- Whether a place is on the border of a rectangle. -/
def onBorder (x y x0 y0 x1 y1 : Int) : Bool :=
  x0 ≤ x && x < x1 && (y = y0 || y = y1 - 1) || y0 ≤ y && y < y1 && (x = x0 || x = x1 - 1)

/-! ## One colour -/

section Drawing

variable {base : Window} {x y : Int} {color : Color}

/-- The index of a place. -/
theorem pixelAt_place {place : Nat × Nat} (inside : IsPixel base place) :
    PixelAt base.toGeometry place.1 place.2 (place.2 * base.width.toNat + place.1) := by
  obtain ⟨right, lower⟩ := inside
  have wide : (base.width.toNat : Int) = base.width := Int.toNat_of_nonneg (by omega)
  refine ⟨Int.natCast_nonneg _, right, Int.natCast_nonneg _, lower, ?_⟩
  rw [Nat.cast_add, Nat.cast_mul, wide]

/-- It is the index of no other place. -/
theorem pixelAt_iff {place : Nat × Nat} (inside : IsPixel base place) (px py : Int) :
    PixelAt base.toGeometry px py (place.2 * base.width.toNat + place.1) ↔
      px = place.1 ∧ py = place.2 := by
  constructor
  · intro pixel
    exact pixel.unique (pixelAt_place inside)
  · rintro ⟨rfl, rfl⟩
    exact pixelAt_place inside

/-- The index is inside the backbuffer of every window of this size. -/
theorem place_inside {place : Nat × Nat} (inside : IsPixel base place) {window : Window}
    (like : base.Like window) :
    place.2 * base.width.toNat + place.1 < window.backbuffer.length := by
  obtain ⟨right, lower⟩ := inside
  have wide : (base.width.toNat : Int) = base.width := Int.toNat_of_nonneg (by omega)
  have high : (base.height.toNat : Int) = base.height := Int.toNat_of_nonneg (by omega)
  have count := window.count
  rw [like.geometry, ← wide, ← high] at count
  have below := @place_lt base.width.toNat base.height.toNat place.1 place.2 (by omega) (by omega)
  have pixels : window.backbuffer.length = base.width.toNat * base.height.toNat := by
    exact_mod_cast count
  omega

/-- What puts one colour into the pixels that it hits draws that colour there. -/
theorem draws_repaint {paint : Window → Except Panic (List Color)}
    {keeps : ∀ window pixels, paint window = .ok pixels →
      pixels.length = window.backbuffer.length}
    {hit : Nat → Prop} {region : Nat × Nat → Bool}
    (stamps : ∀ window, base.Like window → ∃ pixels, paint window = .ok pixels ∧
      ∀ index < window.backbuffer.length, (hit index → pixels[index]? = some color) ∧
        (¬hit index → pixels[index]? = window.backbuffer[index]?))
    (places : ∀ place, IsPixel base place →
      (hit (place.2 * base.width.toNat + place.1) ↔ region place = true)) :
    Draws base (fun window => window.repaint (paint window) (keeps window))
      fun place below => if region place then some color else below := by
  intro window like
  obtain ⟨pixels, painted, changed⟩ := stamps window like
  obtain ⟨after, returned, afterLike, drawn⟩ := @Window.repaint_ok window _ _ (keeps window) painted
  refine ⟨after, returned, like.trans afterLike, fun place inside => ?_⟩
  have width : window.width = base.width := congrArg Geometry.width like.geometry
  have afterWidth : after.width = base.width :=
    congrArg Geometry.width (like.trans afterLike).geometry
  obtain ⟨isHit, missed⟩ := changed _ (place_inside inside like)
  simp only [Window.colorOf, drawn, width, afterWidth]
  by_cases covered : region place = true
  · rw [if_pos covered]
    exact isHit ((places place inside).mpr covered)
  · rw [if_neg covered]
    exact missed fun hits => covered ((places place inside).mp hits)

/-- Filling a window leaves one colour. -/
theorem draws_fill (color : Color) : Draws base (·.fill color) fun _ _ => some color := by
  refine (@draws_repaint base color (fun window => .ok (List.replicate window.backbuffer.length color))
    _ (fun _ => True) (fun _ => true) (fun window _ => ⟨_, rfl, fun index below => ?_⟩)
      (fun _ _ => ⟨fun _ => rfl, fun _ => trivial⟩)).congr fun _ _ _ => if_pos rfl
  exact ⟨fun _ => by rw [List.getElem?_replicate, if_pos below], fun missed => absurd trivial missed⟩

/-- A pixel is drawn at its place. -/
theorem draws_setPixel (x y : Int) (color : Color) : Draws base (·.setPixel x y color)
    fun place below => if decide ((place.1 : Int) = x ∧ (place.2 : Int) = y) then some color
      else below := by
  refine @draws_repaint base color (fun window => window.pixelsWith x y color) _
    (PixelAt base.toGeometry x y) (fun place => decide ((place.1 : Int) = x ∧ (place.2 : Int) = y))
    (fun window like => ?_) fun place inside => ?_
  · have geometry : window.toGeometry = base.toGeometry := like.geometry
    unfold Window.pixelsWith
    by_cases outside : x < 0 ∨ y < 0 ∨ window.width ≤ x ∨ window.height ≤ y
    · refine ⟨window.backbuffer, if_pos outside, fun index _ => ⟨fun pixel => ?_, fun _ => rfl⟩⟩
      obtain ⟨left, right, upper, lower, _⟩ := pixel
      rw [← geometry] at right lower
      omega
    · obtain ⟨nonneg, below, product, sum⟩ := placeIndex_ok window.count_fits
        (by omega : 0 ≤ x) (by omega : x < window.width) (by omega : 0 ≤ y)
        (by omega : y < window.height)
      have count := window.count
      have total := window.count_fits.2
      have index : asUsize (y * window.width + x) = (y * window.width + x).toNat :=
        asUsize_of_nonneg nonneg ⟨by omega, by omega⟩
      have stored : setColor window.backbuffer (y * window.width + x) color =
          .ok (window.backbuffer.set (y * window.width + x).toNat color) := by
        rw [setColor, index, if_pos (by omega)]
      refine ⟨window.backbuffer.set (y * window.width + x).toNat color, ?_,
        fun other inside => ⟨fun pixel => ?_, fun missed => ?_⟩⟩
      · rw [if_neg outside, product, ok_bind, sum, ok_bind, stored]
      · obtain ⟨_, _, _, _, place⟩ := pixel
        rw [← geometry] at place
        have same : other = (y * window.width + x).toNat := by omega
        subst same
        exact List.getElem?_set_self inside
      · apply List.getElem?_set_ne
        intro same
        apply missed
        rw [← geometry]
        exact ⟨by omega, by omega, by omega, by omega, by omega⟩
  · rw [pixelAt_iff inside, decide_eq_true_eq]
    exact ⟨fun same => ⟨same.1.symm, same.2.symm⟩, fun same => ⟨same.1.symm, same.2.symm⟩⟩

/-- The numbers of a range. -/
theorem mem_range {low high value : Int} : value ∈ range low high ↔ low ≤ value ∧ value < high := by
  simp only [range, List.mem_map, List.mem_range]
  constructor
  · rintro ⟨i, below, rfl⟩
    omega
  · rintro ⟨lower, upper⟩
    exact ⟨(value - low).toNat, by omega, by omega⟩

/-- What `fill_rect` does to the window. -/
def Window.fillRect (window : Window) (x0 y0 x1 y1 : Int) (color : Color) : Except Panic Window :=
  (range y0 y1).foldlM (fun window y =>
    (range x0 x1).foldlM (fun window x => window.setPixel x y color) window) window

/-- A rectangle is filled. -/
theorem draws_fillRect (x0 y0 x1 y1 : Int) (color : Color) :
    Draws base (·.fillRect x0 y0 x1 y1 color) fun place below =>
      if pointInRect place.1 place.2 x0 y0 x1 y1 then some color else below := by
  have loops := Paints.foldlM (range y0 y1) fun y _ => Paints.foldlM (range x0 x1) fun x _ =>
    @draws_setPixel base x y color
  refine Paints.congr loops fun place _ below => ?_
  simp only [decide_eq_true_eq, foldl_stamp]
  refine if_congr ?_ rfl rfl
  simp only [pointInRect, Bool.and_eq_true, decide_eq_true_eq, mem_range]
  constructor
  · rintro ⟨y, inRows, x, inColumns, rfl, rfl⟩
    exact ⟨⟨inColumns, inRows.1⟩, inRows.2⟩
  · rintro ⟨⟨inColumns, upper⟩, lower⟩
    exact ⟨place.2, ⟨upper, lower⟩, place.1, inColumns, rfl, rfl⟩

/-- What `draw_rect` does to the window. -/
def Window.drawRect (window : Window) (x0 y0 x1 y1 : Int) (color : Color) : Except Panic Window :=
  (range x0 x1).foldlM (fun window x => do
    let window ← window.setPixel x y0 color
    let lower ← subI32 y1 1
    window.setPixel x lower color) window >>= fun window =>
  (range y0 y1).foldlM (fun window y => do
    let window ← window.setPixel x0 y color
    let right ← subI32 x1 1
    window.setPixel right y color) window

/-- The border of a rectangle is drawn. -/
theorem draws_drawRect {x0 y0 x1 y1 : Int} (color : Color) (right : IsI32 (x1 - 1))
    (lower : IsI32 (y1 - 1)) :
    Draws base (·.drawRect x0 y0 x1 y1 color) fun place below =>
      if onBorder place.1 place.2 x0 y0 x1 y1 then some color else below := by
  have rightEdge : subI32 x1 1 = .ok (x1 - 1) := checkedI32_ok right
  have lowerEdge : subI32 y1 1 = .ok (y1 - 1) := checkedI32_ok lower
  have both (px py otherX otherY : Int) := (@draws_setPixel base px py color).bind
    (@draws_setPixel base otherX otherY color)
  have loops := (Paints.foldlM (range x0 x1) fun x _ => both x y0 x (y1 - 1)).bind
    (Paints.foldlM (range y0 y1) fun y _ => both x0 y (x1 - 1) y)
  simp only [← ite_or, decide_eq_true_eq, foldl_stamp] at loops
  simp only [Window.drawRect, rightEdge, lowerEdge, ok_bind]
  refine Paints.congr loops fun place _ below => if_congr ?_ rfl rfl
  simp only [onBorder, Bool.or_eq_true, Bool.and_eq_true, decide_eq_true_eq, mem_range]
  constructor
  · rintro (⟨y, inRows, ⟨right, rfl⟩ | ⟨left, rfl⟩⟩ | ⟨x, inColumns, ⟨rfl, lower⟩ | ⟨rfl, upper⟩⟩)
    · exact .inr ⟨inRows, .inr right⟩
    · exact .inr ⟨inRows, .inl left⟩
    · exact .inl ⟨inColumns, .inr lower⟩
    · exact .inl ⟨inColumns, .inl upper⟩
  · rintro (⟨inColumns, upper | lower⟩ | ⟨inRows, left | right⟩)
    · exact .inr ⟨_, inColumns, .inr ⟨rfl, upper⟩⟩
    · exact .inr ⟨_, inColumns, .inl ⟨rfl, lower⟩⟩
    · exact .inl ⟨_, inRows, .inr ⟨left, rfl⟩⟩
    · exact .inl ⟨_, inRows, .inl ⟨right, rfl⟩⟩

/-- The places that a text covers. -/
theorem textCovers_iff {text : List Char} {place : Nat × Nat} (inside : IsPixel base place) :
    TextCovers base.toGeometry (fun c => some (glyphFor c)) text x y
        (place.2 * base.width.toNat + place.1) ↔
      textShows base.width text x y place.1 place.2 = true := by
  constructor
  · rintro ⟨i, c, rows, there, room, same, row, col, bit, pixel⟩
    obtain rfl := Option.some.inj same
    obtain ⟨column, line⟩ := (pixelAt_iff inside _ _).mp pixel
    have narrow := col.isLt
    have low := row.isLt
    unfold glyphWidth at narrow
    have cell : ((place.1 : Int) - x) / 6 = i := by omega
    have rest : (((place.1 : Int) - x) % 6).toNat = col := by omega
    have down : ((place.2 : Int) - y).toNat = row := by omega
    simp only [textShows, cell, Int.toNat_natCast, there, rest, down, Bool.and_eq_true,
      decide_eq_true_eq]
    refine ⟨⟨⟨by omega, by omega⟩, room⟩, ?_⟩
    rw [glyphDot, dif_pos ⟨low, col.isLt⟩]
    exact bit
  · intro shows
    simp only [textShows] at shows
    split at shows
    · cases shows
    · rename_i c there
      simp only [Bool.and_eq_true, decide_eq_true_eq] at shows
      obtain ⟨⟨⟨left, upper⟩, room⟩, dot⟩ := shows
      rw [glyphDot] at dot
      split at dot
      · rename_i bounds
        have cell : (((((place.1 : Int) - x) / 6).toNat : Nat) : Int) = (place.1 - x) / 6 :=
          Int.toNat_of_nonneg (by omega)
        have column : x + 6 * (((((place.1 : Int) - x) / 6).toNat : Nat) : Int) +
            ((((place.1 : Int) - x) % 6).toNat : Nat) = place.1 := by
          omega
        have line : y + (((place.2 : Int) - y).toNat : Nat) = place.2 := by omega
        refine ⟨_, c, _, there, by rw [cell]; exact room, rfl, ⟨_, bounds.1⟩, ⟨_, bounds.2⟩, dot, ?_⟩
        exact (pixelAt_iff inside _ _).mpr ⟨column, line⟩
      · cases dot

/-- A text is drawn. -/
theorem draws_write {text : List Char} (left : IsI32 x) (upper : IsI32 y) (color : Color)
    (noOverflow : NoOverflow base.toGeometry y text x) :
    Draws base (·.write text x y color) fun place below =>
      if textShows base.width text x y place.1 place.2 then some color else below := by
  refine @draws_repaint base color (fun window => drawText window text x y color) _
    (TextCovers base.toGeometry (fun c => some (glyphFor c)) text x y)
    (fun place => textShows base.width text x y place.1 place.2)
    (fun window like => ?_) fun place inside => textCovers_iff inside
  have geometry : window.toGeometry = base.toGeometry := like.geometry
  rw [← geometry] at noOverflow ⊢
  obtain ⟨pixels, returned, _, changed⟩ := @stamps_drawChars window.toGeometry
    window.backbuffer.length text x y color window.count_fits window.count left upper noOverflow
    window.backbuffer rfl
  exact ⟨pixels, returned, fun index _ => changed index⟩

end Drawing

/-! ## The pictures -/

/-- The picture of the desktop: the label of the button over its border, the button, the taskbar and
the background. -/
def desktopPicture (width column row : Int) : Color :=
  if textShows width "Terminal".toList (buttonX + 8) (buttonY + 7) column row then .white
  else if onBorder column row buttonX buttonY (buttonX + buttonWidth) (buttonY + buttonHeight) then
    .white
  else if pointInRect column row buttonX buttonY (buttonX + buttonWidth) (buttonY + buttonHeight) then
    .new 0x40 0x40 0x40
  else if pointInRect column row 0 0 desktopBounds.1 taskbarHeight then .new 0x10 0x10 0x10
  else .new 0x20 0x40 0x60

/-- The picture of the terminal: its line and the header over the background. -/
def terminalPicture (width : Int) (line : List Char) (column row : Int) : Color :=
  if textShows width line 12 32 column row then .new 0x00 0xFF 0x00
  else if textShows width "Aperture Terminal".toList 12 12 column row then .white
  else .darkGray

namespace Window

/-- What `draw_desktop` does to the window. -/
def drawDesktop (window : Window) : Except Panic Window :=
  window.fill (.new 0x20 0x40 0x60) >>= fun window =>
  window.fillRect 0 0 desktopBounds.1 taskbarHeight (.new 0x10 0x10 0x10) >>= fun window =>
  window.fillRect buttonX buttonY (buttonX + buttonWidth) (buttonY + buttonHeight)
    (.new 0x40 0x40 0x40) >>= fun window =>
  window.drawRect buttonX buttonY (buttonX + buttonWidth) (buttonY + buttonHeight) .white >>=
    fun window =>
  window.write "Terminal".toList (buttonX + 8) (buttonY + 7) .white

/-- What `redraw_terminal` does to the window. -/
def drawTerminal (line : List Char) (window : Window) : Except Panic Window :=
  window.fill .darkGray >>= fun window =>
  window.write "Aperture Terminal".toList 12 12 .white >>= fun window =>
  window.write line 12 32 (.new 0x00 0xFF 0x00)

end Window

section Redrawing

variable {base : Window} {line : List Char}

/-- Drawing the desktop leaves its picture, whatever was in the window. -/
theorem draws_drawDesktop : Draws base Window.drawDesktop fun place _ =>
    some (desktopPicture base.width place.1 place.2) := by
  have label := @draws_write base (buttonX + 8) (buttonY + 7) "Terminal".toList (by decide)
    (by decide) .white (noOverflow_of_room (by decide) (by decide))
  have border := @draws_drawRect base buttonX buttonY (buttonX + buttonWidth)
    (buttonY + buttonHeight) .white (by decide) (by decide)
  have all := (draws_fill (.new 0x20 0x40 0x60)).bind ((draws_fillRect 0 0 desktopBounds.1
    taskbarHeight (.new 0x10 0x10 0x10)).bind ((draws_fillRect buttonX buttonY
      (buttonX + buttonWidth) (buttonY + buttonHeight) (.new 0x40 0x40 0x40)).bind
        (border.bind label)))
  refine Paints.congr all fun place _ _ => ?_
  simp only [desktopPicture, apply_ite some]

/-- Drawing the terminal leaves the picture of its line. -/
theorem draws_drawTerminal (short : line.length ≤ 256) : Draws base (Window.drawTerminal line)
    fun place _ => some (terminalPicture base.width line place.1 place.2) := by
  have header := @draws_write base 12 12 "Aperture Terminal".toList (by decide) (by decide) .white
    (noOverflow_of_room (by decide) (by decide))
  have text := @draws_write base 12 32 line (by decide) (by decide) (.new 0x00 0xFF 0x00)
    (noOverflow_of_room (by decide) (by omega))
  have all := (draws_fill .darkGray).bind (header.bind text)
  refine Paints.congr all fun place _ _ => ?_
  simp only [terminalPicture, apply_ite some]

/-- Drawings keep handles. -/
theorem keepsKey_of_draws {run : Window → Except Panic Window}
    (draws : ∀ base, ∃ effect, Draws base run effect) : KeepsKey Window.id run := by
  intro before after returned
  obtain ⟨effect, drawing⟩ := draws before
  obtain ⟨other, same, like, _⟩ := drawing before (.refl before)
  obtain rfl := Except.ok.inj (returned.symm.trans same)
  exact like.id

end Redrawing

/-! ## Drawing through the handle -/

namespace GuiState

variable {gui : GuiState} {id : Nat}

/-- `fill_rect` fills a rectangle of the window. -/
theorem fillRect_eq (x0 y0 x1 y1 : Int) (color : Color) :
    gui.fillRect id x0 y0 x1 y1 color = gui.onWindow id (·.fillRect x0 y0 x1 y1 color) := by
  have row (y : Int) (gui : GuiState) :
      (range x0 x1).foldlM (fun gui x => gui.writePixel id x y color) gui =
        gui.onWindow id fun window =>
          (range x0 x1).foldlM (fun window x => window.setPixel x y color) window :=
    onWindow_foldlM (fun x => keepsKey_of_draws fun base => ⟨_, draws_setPixel x y color⟩) _
  simp only [fillRect, row]
  refine onWindow_foldlM (fun y => keepsKey_of_draws fun base => ?_) _
  exact ⟨_, Paints.foldlM (range x0 x1) fun x _ => draws_setPixel x y color⟩

/-- `draw_rect` draws its border. -/
theorem drawRect_eq {x0 y0 x1 y1 : Int} (color : Color) (right : IsI32 (x1 - 1))
    (lower : IsI32 (y1 - 1)) :
    gui.drawRect id x0 y0 x1 y1 color = gui.onWindow id (·.drawRect x0 y0 x1 y1 color) := by
  have rightEdge : subI32 x1 1 = .ok (x1 - 1) := checkedI32_ok right
  have lowerEdge : subI32 y1 1 = .ok (y1 - 1) := checkedI32_ok lower
  have pixel (x y : Int) : KeepsKey Window.id (·.setPixel x y color) :=
    keepsKey_of_draws fun base => ⟨_, draws_setPixel x y color⟩
  have both (px py otherX otherY : Int) : KeepsKey Window.id fun window =>
      window.setPixel px py color >>= fun window => window.setPixel otherX otherY color :=
    keepsKey_of_draws fun base => ⟨_, (draws_setPixel px py color).bind (draws_setPixel _ _ color)⟩
  have twice (px py otherX otherY : Int) (gui : GuiState) :
      (gui.writePixel id px py color >>= fun gui => gui.writePixel id otherX otherY color) =
        gui.onWindow id fun window =>
          window.setPixel px py color >>= fun window => window.setPixel otherX otherY color :=
    onWindow_bind (pixel px py)
  simp only [drawRect, Window.drawRect, rightEdge, lowerEdge, ok_bind, twice]
  have columns := @onWindow_foldlM gui id Int
    (fun x window => window.setPixel x y0 color >>= fun window => window.setPixel x (y1 - 1) color)
    (fun x => both x y0 x (y1 - 1)) (range x0 x1)
  have rows (gui : GuiState) := @onWindow_foldlM gui id Int
    (fun y window => window.setPixel x0 y color >>= fun window => window.setPixel (x1 - 1) y color)
    (fun y => both x0 y (x1 - 1) y) (range y0 y1)
  rw [columns]
  simp only [rows]
  refine onWindow_bind (keepsKey_of_draws fun base => ⟨_, Paints.foldlM (range x0 x1) fun x _ =>
    (draws_setPixel x y0 color).bind (draws_setPixel x (y1 - 1) color)⟩)

/-- `draw_desktop` draws the desktop. -/
theorem drawDesktop_eq : (do
      let gui ← gui.clearWindow (some id) (.new 0x20 0x40 0x60)
      gui.drawTaskbar id) = gui.onWindow id Window.drawDesktop := by
  have fill (color : Color) : KeepsKey Window.id (·.fill color) :=
    keepsKey_of_draws fun base => ⟨_, draws_fill color⟩
  have rectangle (x0 y0 x1 y1 : Int) (color : Color) :
      KeepsKey Window.id (·.fillRect x0 y0 x1 y1 color) :=
    keepsKey_of_draws fun base => ⟨_, draws_fillRect x0 y0 x1 y1 color⟩
  have border : KeepsKey Window.id (·.drawRect buttonX buttonY (buttonX + buttonWidth)
      (buttonY + buttonHeight) .white) :=
    keepsKey_of_draws fun base => ⟨_, draws_drawRect .white (by decide) (by decide)⟩
  have borderEq (gui : GuiState) := @drawRect_eq gui id buttonX buttonY (buttonX + buttonWidth)
    (buttonY + buttonHeight) .white (by decide) (by decide)
  simp only [clearWindow_eq, drawTaskbar, fillRect_eq, borderEq, drawText]
  unfold Window.drawDesktop
  rw [← onWindow_bind (fill _)]
  refine congrArg (gui.onWindow id (·.fill (.new 0x20 0x40 0x60)) >>= ·) (funext fun gui => ?_)
  rw [← onWindow_bind (rectangle _ _ _ _ _)]
  refine congrArg (gui.onWindow id (·.fillRect _ _ _ _ _) >>= ·) (funext fun gui => ?_)
  rw [← onWindow_bind (rectangle _ _ _ _ _)]
  refine congrArg (gui.onWindow id (·.fillRect _ _ _ _ _) >>= ·) (funext fun gui => ?_)
  rw [← onWindow_bind border]

/-- `redraw_terminal` draws the terminal. -/
theorem drawTerminal_eq (line : List Char) : (do
      let gui ← gui.clearWindow (some id) .darkGray
      let gui ← gui.drawText (some id) "Aperture Terminal".toList 12 12 .white
      gui.drawText (some id) line 12 32 (.new 0x00 0xFF 0x00)) =
        gui.onWindow id (Window.drawTerminal line) := by
  have fill : KeepsKey Window.id (·.fill .darkGray) :=
    keepsKey_of_draws fun base => ⟨_, draws_fill .darkGray⟩
  have header : KeepsKey Window.id (·.write "Aperture Terminal".toList 12 12 .white) :=
    Window.keepsKey_repaint
  simp only [clearWindow_eq, drawText]
  unfold Window.drawTerminal
  rw [← onWindow_bind fill]
  refine congrArg (gui.onWindow id (·.fill .darkGray) >>= ·) (funext fun gui => ?_)
  rw [← onWindow_bind header]

end GuiState

end Aperture.Gui
