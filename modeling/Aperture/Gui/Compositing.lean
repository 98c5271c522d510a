import Aperture.Gui.Compositor
import Aperture.Machine.Painting

/-!
# Compositing

What `render` leaves on the screen is, pixel by pixel, the visible windows blended in slot order over
the background. That needs every pixel of a window that is drawn to be on the screen: one beyond the
right edge goes into the padding of its row or into the next row, and one beyond the other edges is
outside of the framebuffer.
-/

namespace Aperture.Gui

open Machine

/-! ## The picture -/

/-- A framebuffer of this many bytes that holds its screen, in a format that can be read back. -/
structure Supported (info : FrameBufferInfo) (size : Nat) : Prop where
  /-- Red, green and blue are bytes of their own. -/
  format : info.pixelFormat = .rgb ∨ info.pixelFormat = .bgr
  /-- With or without a fourth byte. -/
  depth : info.bytesPerPixel = 3 ∨ info.bytesPerPixel = 4
  /-- Rows hold the width of the screen. -/
  stride : info.width ≤ info.stride
  /-- The buffer holds the rows. -/
  room : info.stride * info.height * info.bytesPerPixel ≤ size
  /-- Its length is a machine word. -/
  word : size < wordSize

/-- The place is on the screen. -/
def OnScreen (info : FrameBufferInfo) (x y : Int) : Prop :=
  0 ≤ x ∧ x < info.width ∧ 0 ≤ y ∧ y < info.height

/-- Offset of a place of the screen. -/
def placeOffset (info : FrameBufferInfo) (x y : Nat) : Nat :=
  (y * info.stride + x) * info.bytesPerPixel

/-- The colour that the screen shows at a place. -/
def shownColor (info : FrameBufferInfo) (buffer : List UInt8) (place : Nat × Nat) : Color :=
  let channel (i : Nat) : UInt8 := buffer.getD (placeOffset info place.1 place.2 + i) 0
  match info.pixelFormat with
  | .bgr => .new (channel 2) (channel 1) (channel 0)
  | _ => .new (channel 0) (channel 1) (channel 2)

/-- The pixel of a window at a place of the screen. -/
def Window.pixel (window : Window) (x y : Int) : Option Color :=
  if window.x ≤ x ∧ x < window.x + window.width ∧ window.y ≤ y ∧ y < window.y + window.height then
    window.backbuffer[((y - window.y) * window.width + (x - window.x)).toNat]?
  else none

/-- The windows in slots that are drawn, in slot order. -/
def shownOf (slots : List (Option Window)) : List Window :=
  slots.filterMap (Option.filter Window.visible)

namespace Compositor

/-- The windows that are drawn. -/
def shown (c : Compositor) : List Window := shownOf c.windows

/-- The pixels of these windows at a place, from the first to the last. -/
def layers (c : Compositor) (x y : Int) : List Color := c.shown.filterMap (·.pixel x y)

/-- The layers blended over the background. -/
def composite (c : Compositor) (x y : Int) : Color :=
  (c.layers x y).foldl (fun below src => blend src below) .darkGray

end Compositor

/-! ## Places in the framebuffer -/

section Places

variable {info : FrameBufferInfo} {size x y : Nat} {buffer : List UInt8} {color : Color}

/-- A pixel has a byte for each channel. -/
theorem Supported.channels (supported : Supported info size) : 3 ≤ info.bytesPerPixel := by
  rcases supported.depth with three | four <;> omega

/-- It has no more than four. -/
theorem Supported.small (supported : Supported info size) : info.bytesPerPixel ≤ 4 := by
  rcases supported.depth with three | four <;> omega

/-- A pixel of the screen is inside the buffer. -/
theorem Supported.inside (supported : Supported info size)
    (column : x < info.width) (row : y < info.height) :
    placeOffset info x y + info.bytesPerPixel ≤ size := by
  have place := place_lt (Nat.lt_of_lt_of_le column supported.stride) row
  have pixels : (y * info.stride + x + 1) * info.bytesPerPixel ≤
      info.stride * info.height * info.bytesPerPixel := Nat.mul_le_mul_right _ place
  rw [Nat.succ_mul] at pixels
  exact Nat.le_trans pixels supported.room

/-- Its offset is computed without overflow. -/
theorem Supported.pixelOffset_ok (supported : Supported info size)
    (column : x < info.width) (row : y < info.height) :
    pixelOffset info x y = .ok (placeOffset info x y) := by
  have inside := supported.inside column row
  have word := supported.word
  have positive : 0 < info.bytesPerPixel := Nat.lt_of_lt_of_le (by decide) supported.channels
  have place : y * info.stride + x ≤ placeOffset info x y := Nat.le_mul_of_pos_right _ positive
  have stride : 0 < info.stride :=
    Nat.lt_of_lt_of_le (Nat.zero_lt_of_lt column) supported.stride
  have rows : y ≤ y * info.stride := Nat.le_mul_of_pos_right _ stride
  have columnWord : asUsize x = x := asUsize_natCast (by omega)
  have rowWord : asUsize y = y := asUsize_natCast (by omega)
  have start : mul64 y info.stride = .ok (y * info.stride) := mul64_eq_ok.mpr ⟨by omega, rfl⟩
  have pixel : add64 (y * info.stride) x = .ok (y * info.stride + x) :=
    add64_eq_ok.mpr ⟨by omega, rfl⟩
  rw [pixelOffset, columnWord, rowWord, start, ok_bind, pixel, ok_bind]
  exact mul64_eq_ok.mpr ⟨by unfold placeOffset at inside; omega, rfl⟩

/-- Different pixels of the screen have no byte in common. -/
theorem Supported.apart (supported : Supported info size)
    {otherX otherY : Nat} (column : x < info.width) (otherColumn : otherX < info.width)
    (different : (otherX, otherY) ≠ (x, y)) :
    placeOffset info otherX otherY + info.bytesPerPixel ≤ placeOffset info x y ∨
      placeOffset info x y + info.bytesPerPixel ≤ placeOffset info otherX otherY := by
  have stride := supported.stride
  have places : otherY * info.stride + otherX ≠ y * info.stride + x := by
    intro same
    obtain ⟨rfl, rfl⟩ := (place_inj (by omega) (by omega)).mp same
    exact different rfl
  unfold placeOffset
  rw [← Nat.succ_mul, ← Nat.succ_mul]
  rcases Nat.lt_or_gt_of_ne places with before | behind
  · exact .inl (Nat.mul_le_mul_right _ before)
  · exact .inr (Nat.mul_le_mul_right _ behind)

/-- A pixel is stored as many bytes as the format has. -/
theorem length_pixelBytes (format : PixelFormat) (color : Color) :
    (pixelBytes format color).length = 4 := by
  cases format with
  | rgb => rfl
  | bgr => rfl
  | u8 => rfl
  | unknown red green blue => simp [pixelBytes]

/-- The places of the screen. -/
def IsPlace (info : FrameBufferInfo) (place : Nat × Nat) : Prop :=
  place.1 < info.width ∧ place.2 < info.height

/-- Behind a store the channels of its pixel are the bytes stored, and the others are as before. -/
theorem Supported.channel_overwrite (supported : Supported info size) (length : buffer.length = size)
    (column : x < info.width) (row : y < info.height) {otherX otherY : Nat}
    (otherColumn : otherX < info.width) {bytes : List UInt8}
    (taken : (bytes.take info.bytesPerPixel).length = info.bytesPerPixel) {i : Nat} (low : i < 3) :
    (overwrite buffer (placeOffset info x y) (bytes.take info.bytesPerPixel)).getD
        (placeOffset info otherX otherY + i) 0 =
      if (otherX, otherY) = (x, y) then bytes.getD i 0
      else buffer.getD (placeOffset info otherX otherY + i) 0 := by
  have inside := supported.inside column row
  have channels := supported.channels
  rw [List.getD_eq_getElem?_getD, getElem?_overwrite (by omega), taken]
  split_ifs with within same same
  · obtain ⟨rfl, rfl⟩ := Prod.mk.inj same
    rw [Nat.add_sub_cancel_left, List.getElem?_take_of_lt (by omega), List.getD_eq_getElem?_getD]
  · have apart := supported.apart column otherColumn same
    omega
  · obtain ⟨rfl, rfl⟩ := Prod.mk.inj same
    omega
  · rw [List.getD_eq_getElem?_getD]

/-- A store changes the pixel it is made for and no other. -/
theorem Supported.paints_write (supported : Supported info size)
    (column : x < info.width) (row : y < info.height) (color : Color) (isOpaque : color.a = 255) :
    Paints (·.length = size) (IsPlace info) (shownColor info)
      (writePixelUnchecked info · x y color)
      fun place below => if place = (x, y) then color else below := by
  intro buffer length
  have inside := supported.inside column row
  have word := supported.word
  have small := supported.small
  have channels := supported.channels
  have last : add64 (placeOffset info x y) info.bytesPerPixel =
      .ok (placeOffset info x y + info.bytesPerPixel) := add64_eq_ok.mpr ⟨by omega, rfl⟩
  have fits : placeOffset info x y ≤ buffer.length := by omega
  have taken : ((pixelBytes info.pixelFormat color).take info.bytesPerPixel).length =
      info.bytesPerPixel := by
    rw [List.length_take, length_pixelBytes]
    omega
  refine ⟨overwrite buffer (placeOffset info x y)
    ((pixelBytes info.pixelFormat color).take info.bytesPerPixel), ?_, ?_, ?_⟩
  · simp only [writePixelUnchecked, supported.pixelOffset_ok column row, ok_bind, last]
    rw [if_pos ⟨by omega, small⟩]
    rfl
  · exact (length_overwrite fits).trans (by omega)
  · rintro ⟨otherX, otherY⟩ inScreen
    have otherColumn : otherX < info.width := inScreen.1
    have channel (i : Nat) (low : i < 3) :=
      @Supported.channel_overwrite info size x y buffer supported length column row otherX otherY
        otherColumn _ taken i low
    have red := channel 0 (by decide)
    have green := channel 1 (by decide)
    have blue := channel 2 (by decide)
    simp only [shownColor, red, green, blue]
    obtain ⟨r, g, b, a⟩ := color
    obtain rfl : a = 255 := isOpaque
    rcases supported.format with rgb | bgr
    · simp only [rgb, pixelBytes]
      split_ifs
      · rfl
      · rfl
    · simp only [bgr, pixelBytes]
      split_ifs
      · rfl
      · rfl

/-- What the screen shows is opaque. -/
theorem alpha_shownColor (info : FrameBufferInfo) (buffer : List UInt8) (place : Nat × Nat) :
    (shownColor info buffer place).a = 255 := by
  unfold shownColor
  cases info.pixelFormat with
  | rgb => rfl
  | bgr => rfl
  | u8 => rfl
  | unknown red green blue => rfl

/-- A byte inside the buffer is read. -/
theorem byteAt_ok {i : Nat} (inside : i < buffer.length) :
    byteAt buffer i = .ok (buffer.getD i 0) := by
  rw [byteAt, List.getElem?_eq_getElem inside, List.getD_eq_getElem _ _ inside]

/-- A place that passes the check is read. -/
theorem Supported.readPixel_ok (supported : Supported info size)
    (length : buffer.length = size) (column : x < info.width) (row : y < info.height)
    (checked : isOutside info x y = false) :
    readPixel info buffer x y = .ok (shownColor info buffer (x, y)) := by
  have inside := supported.inside column row
  have word := supported.word
  have channels := supported.channels
  have add (i : Nat) (low : i < 3) : add64 (placeOffset info x y) i =
      .ok (placeOffset info x y + i) := add64_eq_ok.mpr ⟨by omega, rfl⟩
  have read (i : Nat) (low : i < 3) : byteAt buffer (placeOffset info x y + i) =
      .ok (buffer.getD (placeOffset info x y + i) 0) := byteAt_ok (by omega)
  have first := read 0 (by decide)
  rw [Nat.add_zero] at first
  rw [readPixel, if_neg (by rw [checked]; exact Bool.false_ne_true),
    supported.pixelOffset_ok column row, ok_bind]
  unfold shownColor
  rcases supported.format with rgb | bgr
  · simp only [rgb, first, ok_bind, add 1 (by decide), add 2 (by decide), read 1 (by decide),
      read 2 (by decide), Nat.add_zero]
    rfl
  · simp only [bgr, first, ok_bind, add 1 (by decide), add 2 (by decide), read 1 (by decide),
      read 2 (by decide), Nat.add_zero]
    rfl

/-- The checks refuse every place that is not on the screen. -/
theorem isOutside_of_not_onScreen {x y : Int} (off : ¬OnScreen info x y) :
    isOutside info x y = true := by
  have width := asI32_le info.width
  have height := asI32_le info.height
  unfold OnScreen at off
  simp only [isOutside, Bool.or_eq_true, decide_eq_true_eq]
  omega

/-- On a screen that is less than `2 ^ 31` pixels wide and high, they refuse no other. -/
theorem not_isOutside {x y : Nat} (wide : info.width < 2 ^ 31) (high : info.height < 2 ^ 31)
    (column : x < info.width) (row : y < info.height) : isOutside info x y = false := by
  rw [Bool.eq_false_iff]
  intro outside
  simp only [isOutside, Bool.or_eq_true, decide_eq_true_eq, asI32_of_lt wide, asI32_of_lt high]
    at outside
  omega

/-- A store changes a framebuffer that holds other bytes. -/
theorem Supported.write_changes (supported : Supported info size)
    (x y : Int) (color : Color) :
    ∃ buffer : List UInt8, buffer.length = size ∧
      writePixelUnchecked info buffer x y color ≠ .ok buffer := by
  have channels := supported.channels
  generalize stored : (pixelBytes info.pixelFormat color).take info.bytesPerPixel = bytes
  obtain ⟨first, rest, shape⟩ : ∃ first rest, bytes = first :: rest := by
    apply List.exists_cons_of_ne_nil
    rw [← List.length_pos_iff, ← stored, List.length_take, length_pixelBytes]
    omega
  refine ⟨List.replicate size (first + 1), List.length_replicate, fun same => ?_⟩
  obtain ⟨offset, _, same⟩ := bind_eq_ok.mp same
  obtain ⟨last, ended, same⟩ := bind_eq_ok.mp same
  split at same
  · rename_i fits
    have ends := (add64_eq_ok.mp ended).2
    have written := congrArg (·[offset]?) (pure_eq_ok.mp same)
    have inside : offset < size := by
      have inBuffer := fits.1
      rw [List.length_replicate] at inBuffer
      omega
    simp only [stored, shape] at written
    rw [getElem?_overwrite (by rw [List.length_replicate]; omega),
      if_pos ⟨Nat.le_refl _, by rw [List.length_cons]; omega⟩, Nat.sub_self, List.getElem?_cons_zero,
      List.getElem?_replicate, if_pos inside] at written
    have wraps : first = first + 1 := Option.some.inj written
    have value := congrArg UInt8.toNat wraps
    rw [UInt8.toNat_add] at value
    have small := first.toNat_lt
    have one : (1 : UInt8).toNat = 1 := rfl
    omega
  · cases same

end Places

/-! ## Pixels of a window -/

section Drawing

variable {info : FrameBufferInfo} {size : Nat} {window : Window} {localX localY : Nat}

/-- What a pixel leaves of the colour below it, where `read_pixel` takes a place to be outside and
where it does not. -/
def paint (outside : Bool) (src below : Color) : Color :=
  if src.a = 255 then src
  else if src.a ≠ 0 then blend src (if outside then .black else below)
  else below

/-- Where it does not, that is blending. -/
theorem paint_inside (src below : Color) : paint false src below = blend src below := by
  by_cases full : src.a = 255
  · rw [paint, if_pos full, blend, if_pos full]
  · by_cases empty : src.a = 0
    · rw [paint, if_neg full, if_neg (not_not.mpr empty), blend, if_neg full, if_pos empty]
    · rw [paint, if_neg full, if_pos empty, if_neg Bool.false_ne_true]

/-- A transparent pixel leaves the colour below it. -/
theorem paint_transparent {src : Color} (empty : src.a = 0) (outside : Bool) (below : Color) :
    paint outside src below = below := by
  rw [paint, if_neg (by rw [empty]; decide), if_neg (not_not.mpr empty)]

/-- Where `read_pixel` takes a place to be outside, any other leaves what it does over black. -/
theorem paint_outside {src : Color} (visible : src.a ≠ 0) (below : Color) :
    paint true src below = blend src .black := by
  by_cases full : src.a = 255
  · rw [paint, if_pos full, blend, if_pos full]
  · rw [paint, if_neg full, if_pos visible, if_pos rfl]

/-- The rest of a round of `draw_window`, with the pixel and its place on the screen. -/
def storePixel (info : FrameBufferInfo) (x y : Int) (src : Color) (buffer : List UInt8) :
    Except Panic (List UInt8) :=
  if src.a = 255 then writePixelUnchecked info buffer x y src
  else if src.a ≠ 0 then do
    let dst ← readPixel info buffer x y
    writePixelUnchecked info buffer x y (blend src dst)
  else return buffer

/-- A place of a window has a pixel, which the round finds. -/
theorem Window.drawPixel_eq (window : Window) (column : (localX : Int) < window.width)
    (row : (localY : Int) < window.height) :
    ∃ src, window.pixel (window.x + localX) (window.y + localY) = some src ∧
      ∀ info buffer, drawPixel info window localY localX buffer = (do
        let globalX ← addI32 window.x localX
        let globalY ← addI32 window.y localY
        storePixel info globalX globalY src buffer) := by
  obtain ⟨nonneg, inside, product, sum⟩ := placeIndex_ok window.count_fits
    (Int.natCast_nonneg localX) column (Int.natCast_nonneg localY) row
  have count := window.count
  have total := window.count_fits.2
  have index : asUsize (localY * window.width + localX) =
      (localY * window.width + localX : Int).toNat :=
    asUsize_of_nonneg nonneg ⟨by omega, by omega⟩
  have inBuffer : (localY * window.width + localX : Int).toNat < window.backbuffer.length := by
    omega
  obtain ⟨src, found⟩ : ∃ src,
      window.backbuffer[(localY * window.width + localX : Int).toNat]? = some src :=
    ⟨_, List.getElem?_eq_getElem inBuffer⟩
  refine ⟨src, ?_, fun info buffer => ?_⟩
  · rw [Window.pixel, if_pos ⟨by omega, by omega, by omega, by omega⟩, add_sub_cancel_left,
      add_sub_cancel_left, found]
  · have color : colorAt window.backbuffer (localY * window.width + localX) = .ok src := by
      rw [colorAt, index, found]
    rw [drawPixel, product, ok_bind, sum, ok_bind, color, ok_bind]
    rfl

/-- On the screen the rest of a round changes the pixel of its place. -/
theorem Supported.paints_store (supported : Supported info size)
    {x y : Nat} (column : x < info.width) (row : y < info.height) (src : Color) :
    Paints (·.length = size) (IsPlace info) (shownColor info) (storePixel info x y src)
      fun place below => if place = (x, y) then paint (isOutside info x y) src below else below := by
  intro buffer length
  unfold storePixel paint
  by_cases full : src.a = 255
  · simp only [full, ↓reduceIte]
    exact supported.paints_write column row src full buffer length
  · by_cases empty : src.a = 0
    · refine ⟨buffer, ?_, length, fun place _ => ?_⟩
      · rw [if_neg full, if_neg (not_not.mpr empty)]
        rfl
      · dsimp only
        rw [if_neg full, if_neg (not_not.mpr empty), ite_self]
    · have read : readPixel info buffer x y =
          .ok (if isOutside info x y then .black else shownColor info buffer (x, y)) := by
        cases outside : isOutside info x y with
        | true =>
          rw [readPixel, if_pos outside]
          rfl
        | false => exact supported.readPixel_ok length column row outside
      have isOpaque : (if isOutside info x y then .black
          else shownColor info buffer (x, y) : Color).a = 255 := by
        split
        · rfl
        · exact alpha_shownColor info buffer (x, y)
      obtain ⟨next, returned, nextLength, changed⟩ := supported.paints_write column row _
        (alpha_blend src isOpaque) buffer length
      refine ⟨next, ?_, nextLength, fun place inside => ?_⟩
      · rw [if_neg full, if_pos empty, read]
        exact returned
      · rw [changed place inside]
        dsimp only
        rw [if_neg full, if_pos empty]
        by_cases same : place = (x, y)
        · rw [if_pos same, if_pos same, same]
        · rw [if_neg same, if_neg same]

/-- What a window leaves of the colour at a place of the screen. -/
def Window.drawn (window : Window) (info : FrameBufferInfo) (place : Nat × Nat) (below : Color) :
    Color :=
  match window.pixel place.1 place.2 with
  | some src => paint (isOutside info place.1 place.2) src below
  | none => below

/-- All coordinates of a window are of type `i32`, and all that is drawn of it is on the screen. -/
structure Window.Drawable (window : Window) (info : FrameBufferInfo) : Prop where
  /-- The right and the lower edge are in range, unless the window has no pixels. -/
  fits : 0 < window.width → 0 < window.height →
    window.x + window.width ≤ 2 ^ 31 ∧ window.y + window.height ≤ 2 ^ 31
  /-- Beyond the screen the window is transparent. -/
  transparent : ∀ x y, ¬OnScreen info x y → ∀ src, window.pixel x y = some src → src.a = 0

/-- Of a window that can be drawn a round stores the pixel at its place. -/
theorem Window.Drawable.round (drawable : window.Drawable info)
    (column : (localX : Int) < window.width) (row : (localY : Int) < window.height) :
    ∃ src, window.pixel (window.x + localX) (window.y + localY) = some src ∧
      ∀ buffer, drawPixel info window localY localX buffer =
        storePixel info (window.x + localX) (window.y + localY) src buffer := by
  obtain ⟨src, pixel, round⟩ := window.drawPixel_eq column row
  have edges := drawable.fits (by omega) (by omega)
  have left := window.x_fits.1
  have upper := window.y_fits.1
  have globalX : addI32 window.x localX = .ok (window.x + localX) :=
    checkedI32_ok ⟨by omega, by omega⟩
  have globalY : addI32 window.y localY = .ok (window.y + localY) :=
    checkedI32_ok ⟨by omega, by omega⟩
  refine ⟨src, pixel, fun buffer => ?_⟩
  rw [round, globalX, ok_bind, globalY, ok_bind]

/-- A pixel of such a window that is not on the screen changes no byte. -/
theorem Window.Drawable.unchanged (drawable : window.Drawable info)
    (column : (localX : Int) < window.width) (row : (localY : Int) < window.height)
    (off : ¬OnScreen info (window.x + localX) (window.y + localY)) (buffer : List UInt8) :
    drawPixel info window localY localX buffer = .ok buffer := by
  obtain ⟨src, pixel, round⟩ := drawable.round column row
  have empty := drawable.transparent _ _ off src pixel
  rw [round, storePixel, if_neg (by rw [empty]; decide), if_neg (not_not.mpr empty)]
  rfl

/-- A round of `draw_window` changes the pixel of its place, if that is on the screen. -/
theorem Supported.paints_drawPixel
    (supported : Supported info size) (drawable : window.Drawable info)
    (column : (localX : Int) < window.width) (row : (localY : Int) < window.height) :
    Paints (·.length = size) (IsPlace info) (shownColor info) (drawPixel info window localY localX)
      fun place below =>
        if (place.1 : Int) = window.x + localX ∧ (place.2 : Int) = window.y + localY then
          window.drawn info place below
        else below := by
  obtain ⟨src, pixel, round⟩ := drawable.round column row
  intro buffer length
  by_cases on : OnScreen info (window.x + localX) (window.y + localY)
  · obtain ⟨x, columnEq⟩ : ∃ x : Nat, window.x + localX = x :=
      ⟨(window.x + localX).toNat, (Int.toNat_of_nonneg on.1).symm⟩
    obtain ⟨y, rowEq⟩ : ∃ y : Nat, window.y + localY = y :=
      ⟨(window.y + localY).toNat, (Int.toNat_of_nonneg on.2.2.1).symm⟩
    rw [columnEq, rowEq] at on pixel
    have inWidth : x < info.width := Int.ofNat_lt.mp on.2.1
    have inHeight : y < info.height := Int.ofNat_lt.mp on.2.2.2
    rw [round, columnEq, rowEq]
    obtain ⟨next, returned, nextLength, changed⟩ :=
      supported.paints_store inWidth inHeight src buffer length
    refine ⟨next, returned, nextLength, fun place inside => ?_⟩
    rw [changed place inside]
    dsimp only
    by_cases same : place = (x, y)
    · subst same
      rw [if_pos rfl, if_pos ⟨rfl, rfl⟩, Window.drawn, pixel]
    · rw [if_neg same, if_neg]
      rintro ⟨sameColumn, sameRow⟩
      exact same (Prod.ext (Int.ofNat_inj.mp sameColumn) (Int.ofNat_inj.mp sameRow))
  · refine ⟨buffer, drawable.unchanged column row on buffer, length, ?_⟩
    rintro ⟨x, y⟩ ⟨inWidth, inHeight⟩
    dsimp only
    rw [if_neg]
    rintro ⟨sameColumn, sameRow⟩
    apply on
    rw [← sameColumn, ← sameRow]
    exact ⟨Int.natCast_nonneg _, Int.ofNat_lt.mpr inWidth, Int.natCast_nonneg _,
      Int.ofNat_lt.mpr inHeight⟩

/-- So `draw_window` draws the window. -/
theorem Supported.paints_drawWindow
    (supported : Supported info size) (drawable : window.Drawable info) :
    Paints (·.length = size) (IsPlace info) (shownColor info) (drawWindow info window)
      (window.drawn info) := by
  have round (localY localX : Nat) (rowMember : localY ∈ List.range window.height.toNat)
      (columnMember : localX ∈ List.range window.width.toNat) :=
    have row := List.mem_range.mp rowMember
    have column := List.mem_range.mp columnMember
    supported.paints_drawPixel drawable (by omega : (localX : Int) < window.width)
      (by omega : (localY : Int) < window.height)
  have loops := Paints.foldlM (List.range window.height.toNat) fun localY rowMember =>
    Paints.foldlM (List.range window.width.toNat) fun localX columnMember =>
      round localY localX rowMember columnMember
  refine loops.congr ?_
  rintro ⟨x, y⟩ _ below
  by_cases covered : window.x ≤ x ∧ x < window.x + window.width ∧ window.y ≤ y ∧
      y < window.y + window.height
  · have row : (y - window.y).toNat < window.height.toNat := by omega
    have column : (x - window.x).toNat < window.width.toNat := by omega
    have touched (localX localY : Nat) : ((x : Int) = window.x + localX ∧
        (y : Int) = window.y + localY) ↔
          localY = (y - window.y).toNat ∧ localX = (x - window.x).toNat := by
      omega
    simp only [touched]
    exact foldl_grid row column below
  · rw [Window.drawn, Window.pixel, if_neg covered]
    refine foldl_untouched (fun localY rowMember below => ?_) below
    refine foldl_untouched (fun localX columnMember below => ?_) below
    have row := List.mem_range.mp rowMember
    have column := List.mem_range.mp columnMember
    rw [if_neg]
    omega

/-- A slot draws its window when that is visible. -/
theorem drawSlot_eq (info : FrameBufferInfo) (buffer : List UInt8) (slot : Option Window) :
    drawSlot info buffer slot =
      match slot.filter Window.visible with
      | some window => drawWindow info window buffer
      | none => .ok buffer := by
  cases slot with
  | none => rfl
  | some window =>
    cases visible : window.visible with
    | true => simp [drawSlot, Option.filter, visible]
    | false =>
      simp [drawSlot, Option.filter, visible]
      rfl

/-- The slots draw their windows one over the other. -/
theorem Supported.paints_slots (supported : Supported info size)
    (slots : List (Option Window)) (drawable : ∀ window ∈ shownOf slots, window.Drawable info) :
    Paints (·.length = size) (IsPlace info) (shownColor info) (slots.foldlM (drawSlot info))
      fun place below => ((shownOf slots).filterMap (·.pixel place.1 place.2)).foldl
        (fun below src => paint (isOutside info place.1 place.2) src below) below := by
  have each (slot : Option Window) (member : slot ∈ slots) :
      Paints (·.length = size) (IsPlace info) (shownColor info) (drawSlot info · slot)
        fun place below => ((slot.filter Window.visible).map (·.drawn info place below)).getD below := by
    simp only [drawSlot_eq]
    cases shown : slot.filter Window.visible with
    | none => exact Paints.unchanged fun buffer _ => rfl
    | some window =>
      have isShown : window ∈ shownOf slots := List.mem_filterMap.mpr ⟨slot, member, shown⟩
      exact supported.paints_drawWindow (drawable window isShown)
  refine (Paints.foldlM slots each).congr fun place _ below => ?_
  clear each drawable
  induction slots generalizing below with
  | nil => rfl
  | cons slot slots ih =>
    rw [List.foldl_cons, ih]
    unfold shownOf
    cases shown : slot.filter Window.visible with
    | none => rw [List.filterMap_cons_none shown, Option.map_none, Option.getD_none]
    | some window =>
      rw [List.filterMap_cons_some shown, Option.map_some, Option.getD_some, Window.drawn]
      cases pixel : window.pixel place.1 place.2 with
      | none => simp only [List.filterMap_cons, pixel]
      | some src => simp only [List.filterMap_cons, pixel, List.foldl_cons]

/-- `clear` sets every pixel that `write_pixel` takes to be on the screen. -/
theorem Supported.paints_clear (supported : Supported info size)
    (color : Color) (isOpaque : color.a = 255) :
    Paints (·.length = size) (IsPlace info) (shownColor info) (clear info · color)
      fun place below => if isOutside info place.1 place.2 then below else color := by
  have round (y x : Nat) : Paints (·.length = size) (IsPlace info) (shownColor info)
      (writePixel info · (asI32 x) (asI32 y) color) fun place below =>
        if isOutside info (asI32 x) (asI32 y) = false ∧ (place.1 : Int) = asI32 x ∧
          (place.2 : Int) = asI32 y then color else below := by
    unfold writePixel
    cases outside : isOutside info (asI32 x) (asI32 y) with
    | true =>
      simp only [↓reduceIte, Bool.true_eq_false, false_and]
      exact Paints.unchanged fun buffer _ => rfl
    | false =>
      have inside := outside
      simp only [isOutside, Bool.or_eq_false_iff, decide_eq_false_iff_not] at inside
      have narrow := asI32_le info.width
      have low := asI32_le info.height
      obtain ⟨column, columnEq⟩ : ∃ column : Nat, asI32 x = column :=
        ⟨(asI32 x).toNat, by omega⟩
      obtain ⟨row, rowEq⟩ : ∃ row : Nat, asI32 y = row := ⟨(asI32 y).toNat, by omega⟩
      rw [columnEq, rowEq] at inside ⊢
      refine (supported.paints_write (by omega) (by omega) color isOpaque).congr ?_
      rintro ⟨otherX, otherY⟩ _ below
      simp only [Prod.mk.injEq, Int.ofNat_inj, true_and]
  have loops := Paints.foldlM (List.range info.height) fun y _ =>
    Paints.foldlM (List.range info.width) fun x _ => round y x
  refine Paints.congr loops ?_
  rintro ⟨x, y⟩ ⟨inWidth, inHeight⟩ below
  simp only [foldl_stamp]
  cases outside : isOutside info x y with
  | true =>
    rw [if_neg, if_pos rfl]
    rintro ⟨otherY, _, otherX, _, inside, sameColumn, sameRow⟩
    rw [← sameColumn, ← sameRow, outside] at inside
    cases inside
  | false =>
    have inside := outside
    simp only [isOutside, Bool.or_eq_false_iff, decide_eq_false_iff_not] at inside
    have columns := (isI32_asI32 info.width).2
    have rows := (isI32_asI32 info.height).2
    have sameColumn : asI32 x = x := asI32_of_lt (by omega)
    have sameRow : asI32 y = y := asI32_of_lt (by omega)
    rw [if_pos, if_neg Bool.false_ne_true]
    refine ⟨y, List.mem_range.mpr inHeight, x, List.mem_range.mpr inWidth, ?_⟩
    rw [sameColumn, sameRow]
    exact ⟨outside, rfl, rfl⟩

end Drawing

/-! ## Rendering -/

/-- Some of the layers are not transparent, and the last of these is the same over black as over those
below it. An opaque one is. -/
def Hides (layers : List Color) : Prop :=
  ∃ front src, layers.filter (·.a != 0) = front ++ [src] ∧
    blend src .black = blend src (front.foldl (fun below src => blend src below) .darkGray)

/-- Where `read_pixel` takes a place to be outside, such layers and no others give their composite
over every colour. -/
theorem hides_iff (layers : List Color) :
    Hides layers ↔ ∀ below : Color, below.a = 255 →
      layers.foldl (fun below src => paint true src below) below =
        layers.foldl (fun below src => blend src below) .darkGray := by
  have painted (below : Color) := @foldl_filter_of_skips _ _
    (fun below src => paint true src below) (·.a != 0)
    (fun below src empty => paint_transparent (bne_eq_false_iff_eq.mp empty) true below) layers below
  have blended := @foldl_filter_of_skips _ _ (fun below src => blend src below) (·.a != 0)
    (fun below src empty => (paint_inside src below).symm.trans
      (paint_transparent (bne_eq_false_iff_eq.mp empty) false below)) layers .darkGray
  simp only [← painted, ← blended, Hides]
  rcases List.eq_nil_or_concat' (layers.filter (·.a != 0)) with none | ⟨front, last, shape⟩
  · rw [none]
    constructor
    · rintro ⟨front, src, shape, _⟩
      exact absurd shape.symm (List.append_ne_nil_of_right_ne_nil _ (List.cons_ne_nil _ _))
    · intro same
      exact absurd (same .black rfl) (by decide)
  · have visible : last.a ≠ 0 := by
      have member : last ∈ layers.filter (·.a != 0) := by
        rw [shape]
        exact List.mem_append_right _ List.mem_cons_self
      exact bne_iff_ne.mp (List.mem_filter.mp member).2
    simp only [shape, List.foldl_append, List.foldl_cons, List.foldl_nil, paint_outside visible]
    constructor
    · rintro ⟨otherFront, src, same, black⟩ below _
      obtain ⟨rfl, single⟩ := List.append_inj' same rfl
      obtain rfl := List.head_eq_of_cons_eq single
      exact black
    · intro same
      exact ⟨front, last, rfl, same .black rfl⟩

namespace Compositor

variable {c : Compositor}

/-- The compositor with other bytes in its framebuffer. -/
def withBuffer (c : Compositor) (buffer : List UInt8) : Compositor := { c with buffer }

/-- `render` returns, every place of the screen shows the windows there blended over the background,
and drawing a pixel of a window that is not on the screen changes no byte of the framebuffer. -/
structure Composites (c : Compositor) : Prop where
  /-- What the screen shows. -/
  pixels : ∃ after, c.render = .ok after ∧ ∀ x < c.info.width, ∀ y < c.info.height,
    shownColor c.info after.buffer (x, y) = c.composite x y
  /-- Nothing is drawn beyond it. -/
  clipped : ∀ window ∈ c.shown, ∀ localX localY : Nat, (localX : Int) < window.width →
    (localY : Int) < window.height → ¬OnScreen c.info (window.x + localX) (window.y + localY) →
    drawPixel c.info window localY localX c.buffer = .ok c.buffer

/-- The condition on the windows: all coordinates are of type `i32`, nothing that is drawn lies beyond
the screen, and where the screen is wider or higher than `i32` can say, the windows hide what is
below them. -/
structure Clipped (c : Compositor) : Prop where
  /-- The coordinates are, and nothing drawn lies beyond. -/
  drawable : ∀ window ∈ c.shown, window.Drawable c.info
  /-- At a place that the checks of `write_pixel` and `read_pixel` refuse they do. -/
  covered : ∀ x < c.info.width, ∀ y < c.info.height, isOutside c.info x y = true →
    Hides (c.layers x y)

/-- What `render` leaves on the screen. -/
theorem render_shows (supported : Supported c.info c.buffer.length)
    (drawable : ∀ window ∈ c.shown, window.Drawable c.info) :
    ∃ after, c.render = .ok after ∧ ∀ x < c.info.width, ∀ y < c.info.height,
      shownColor c.info after.buffer (x, y) =
        (c.layers x y).foldl (fun below src => paint (isOutside c.info x y) src below)
          (if isOutside c.info x y then shownColor c.info c.buffer (x, y) else .darkGray) := by
  have paints := (supported.paints_clear .darkGray rfl).bind
    (supported.paints_slots c.windows drawable)
  obtain ⟨buffer, returned, _, changed⟩ := paints c.buffer rfl
  refine ⟨{ c with buffer }, ?_, fun x column y row => changed (x, y) ⟨column, row⟩⟩
  obtain ⟨cleared, first, rest⟩ := bind_eq_ok.mp returned
  rw [render, first, ok_bind, rest]
  rfl

/-- On the part of the screen that passes the checks that is the composite. -/
theorem composite_eq (c : Compositor) {x y : Int} (inside : isOutside c.info x y = false) :
    (c.layers x y).foldl (fun below src => paint (isOutside c.info x y) src below) .darkGray =
      c.composite x y := by
  simp only [inside, paint_inside]
  rfl

/-- When `render` returns, every pixel of a visible window was drawn. -/
theorem drawn_of_render {after : Compositor} (returned : c.render = .ok after) {window : Window}
    (shown : window ∈ c.shown) {localX localY : Nat} (column : (localX : Int) < window.width)
    (row : (localY : Int) < window.height) :
    ∃ before next, drawPixel c.info window localY localX before = .ok next := by
  obtain ⟨cleared, _, returned⟩ := bind_eq_ok.mp returned
  obtain ⟨buffer, slots, _⟩ := bind_eq_ok.mp returned
  obtain ⟨slot, member, isShown⟩ := List.mem_filterMap.mp shown
  obtain ⟨_, _, drawn⟩ := foldlM_rounds slots member
  rw [drawSlot_eq, isShown] at drawn
  obtain ⟨_, _, rowDrawn⟩ := foldlM_rounds drawn (List.mem_range.mpr (by omega : localY < _))
  exact foldlM_rounds rowDrawn (List.mem_range.mpr (by omega : localX < _))

/-- Then its coordinates are of type `i32`. -/
theorem fits_of_render {after : Compositor} (returned : c.render = .ok after) {window : Window}
    (shown : window ∈ c.shown) (wide : 0 < window.width) (high : 0 < window.height) :
    window.x + window.width ≤ 2 ^ 31 ∧ window.y + window.height ≤ 2 ^ 31 := by
  have column : ((window.width.toNat - 1 : Nat) : Int) < window.width := by omega
  have row : ((window.height.toNat - 1 : Nat) : Int) < window.height := by omega
  obtain ⟨before, next, drawn⟩ := drawn_of_render returned shown column row
  obtain ⟨src, _, round⟩ := window.drawPixel_eq column row
  rw [round] at drawn
  obtain ⟨globalX, right, drawn⟩ := bind_eq_ok.mp drawn
  obtain ⟨globalY, lower, _⟩ := bind_eq_ok.mp drawn
  have rightFits := (checkedI32_eq_ok.mp right).1.2
  have lowerFits := (checkedI32_eq_ok.mp lower).1.2
  exact ⟨by omega, by omega⟩

/-- A pixel that changes no framebuffer although it is not on the screen is transparent. -/
theorem transparent_of_unchanged {info : FrameBufferInfo} {size : Nat} (supported : Supported info size)
    {x y : Int} (off : ¬OnScreen info x y) {src : Color}
    (unchanged : ∀ buffer : List UInt8, buffer.length = size →
      storePixel info x y src buffer = .ok buffer) : src.a = 0 := by
  by_contra drawn
  have outside := isOutside_of_not_onScreen off
  have stores : ∃ color, ∀ buffer, storePixel info x y src buffer =
      writePixelUnchecked info buffer x y color := by
    by_cases full : src.a = 255
    · exact ⟨src, fun buffer => if_pos full⟩
    · refine ⟨blend src .black, fun buffer => ?_⟩
      rw [storePixel, if_neg full, if_pos drawn, readPixel, if_pos outside]
      rfl
  obtain ⟨color, stores⟩ := stores
  obtain ⟨buffer, length, changes⟩ := supported.write_changes x y color
  exact changes ((stores buffer).symm.trans (unchanged buffer length))

/-- Windows that change no byte through a pixel beyond the screen draw nothing there. -/
theorem drawable_of_composites (supported : Supported c.info c.buffer.length)
    (composites : ∀ buffer : List UInt8, buffer.length = c.buffer.length →
      (c.withBuffer buffer).Composites) {window : Window} (shown : window ∈ c.shown) :
    window.Drawable c.info where
  fits wide high := by
    obtain ⟨after, returned, _⟩ := (composites c.buffer rfl).pixels
    exact fits_of_render returned shown wide high
  transparent x y off src pixel := by
    have covered := pixel
    unfold Window.pixel at covered
    split at covered
    · rename_i inside
      have columnEq : window.x + (x - window.x).toNat = x := by omega
      have rowEq : window.y + (y - window.y).toNat = y := by omega
      have column : ((x - window.x).toNat : Int) < window.width := by omega
      have row : ((y - window.y).toNat : Int) < window.height := by omega
      obtain ⟨found, sameSrc, round⟩ := window.drawPixel_eq column row
      rw [columnEq, rowEq, pixel] at sameSrc
      obtain rfl := Option.some.inj sameSrc
      refine transparent_of_unchanged supported off fun buffer length => ?_
      have unchanged := (composites buffer length).clipped window shown _ _ column row
        (by rw [columnEq, rowEq]; exact off)
      rw [round] at unchanged
      obtain ⟨globalX, right, unchanged⟩ := bind_eq_ok.mp unchanged
      obtain ⟨globalY, lower, unchanged⟩ := bind_eq_ok.mp unchanged
      rw [(checkedI32_eq_ok.mp right).2, (checkedI32_eq_ok.mp lower).2, columnEq, rowEq]
        at unchanged
      exact unchanged
    · cases covered

/-- Whatever is in the framebuffer, `render` composites the windows exactly when they are clipped. -/
theorem render_composites_iff (supported : Supported c.info c.buffer.length) :
    (∀ buffer : List UInt8, buffer.length = c.buffer.length → (c.withBuffer buffer).Composites) ↔
      c.Clipped := by
  have shows (buffer : List UInt8) (length : buffer.length = c.buffer.length)
      (drawable : ∀ window ∈ c.shown, window.Drawable c.info) :=
    @render_shows (c.withBuffer buffer) (by
      have same : (c.withBuffer buffer).buffer.length = c.buffer.length := length
      rw [same]
      exact supported) drawable
  constructor
  · intro composites
    have drawable (window : Window) (shown : window ∈ c.shown) : window.Drawable c.info :=
      drawable_of_composites supported composites shown
    refine ⟨drawable, fun x column y row outside => (hides_iff _).mpr fun below isOpaque => ?_⟩
    obtain ⟨buffer, _, length, written⟩ := supported.paints_write column row below isOpaque
      (List.replicate c.buffer.length 0) List.length_replicate
    obtain ⟨after, returned, composite⟩ := (composites buffer length).pixels
    obtain ⟨other, otherReturned, painted⟩ := shows buffer length drawable
    obtain rfl := Except.ok.inj (returned.symm.trans otherReturned)
    have held : shownColor c.info buffer (x, y) = below :=
      (written (x, y) ⟨column, row⟩).trans (if_pos rfl)
    have final := (painted x column y row).symm.trans (composite x column y row)
    change (c.layers x y).foldl (fun below src => paint (isOutside c.info x y) src below)
      (if isOutside c.info x y then shownColor c.info buffer (x, y) else .darkGray) =
        c.composite x y at final
    rw [outside, if_pos rfl, held] at final
    exact final
  · intro clipped buffer length
    constructor
    · obtain ⟨after, returned, painted⟩ := shows buffer length clipped.drawable
      refine ⟨after, returned, fun x column y row => (painted x column y row).trans ?_⟩
      cases outside : isOutside c.info x y with
      | false =>
        have inside : isOutside (c.withBuffer buffer).info x y = false := outside
        rw [if_neg (by rw [inside]; exact Bool.false_ne_true)]
        exact composite_eq (c.withBuffer buffer) inside
      | true =>
        have refused : isOutside (c.withBuffer buffer).info x y = true := outside
        rw [refused, if_pos rfl]
        exact (hides_iff _).mp (clipped.covered x column y row outside) _ (alpha_shownColor _ _ _)
    · intro window shown localX localY column row off
      exact (clipped.drawable window shown).unchanged column row off buffer

/-- On a screen less than `2 ^ 31` pixels wide and high they are clipped when each can be drawn. -/
theorem clipped_iff (wide : c.info.width < 2 ^ 31) (high : c.info.height < 2 ^ 31) :
    c.Clipped ↔ ∀ window ∈ c.shown, window.Drawable c.info := by
  constructor
  · exact Clipped.drawable
  · intro drawable
    refine ⟨drawable, fun x column y row outside => ?_⟩
    rw [not_isOutside wide high column row] at outside
    cases outside

/-- A screen of two by two pixels with one window. -/
def smallScreen (x y : Int) (x_fits : IsI32 x) (y_fits : IsI32 y) : Compositor where
  buffer := List.replicate 16 0
  info := ⟨2, 2, 2, 4, .rgb⟩
  windows := some ⟨⟨x, y, 1, 1, x_fits, y_fits, by decide, by decide⟩, 1, [], true, [.white],
    (by decide : IsI32 (1 * 1)), (rfl : (1 : Int) = 1 * 1)⟩ :: List.replicate 31 none
  nextId := 2
  windows_length := rfl

/-- A white pixel right of the screen shows at the left edge, one row below. -/
theorem render_counterexample :
    ¬∀ c : Compositor, Supported c.info c.buffer.length →
      (∀ window ∈ c.shown, 0 ≤ window.width ∧ 0 ≤ window.height) → c.Composites := by
  intro claimed
  have supported : Supported ⟨2, 2, 2, 4, .rgb⟩ 16 :=
    ⟨.inl rfl, .inr rfl, by decide, by decide, by decide⟩
  obtain ⟨after, returned, shows⟩ :=
    (claimed (smallScreen 2 0 (by decide) (by decide)) supported (by decide)).pixels
  have white : (smallScreen 2 0 (by decide) (by decide)).render.map
      (fun after => shownColor ⟨2, 2, 2, 4, .rgb⟩ after.buffer (0, 1)) = .ok .white := by decide
  rw [returned] at white
  have shown := (Except.ok.inj white).symm.trans (shows 0 (by decide) 1 (by decide))
  exact absurd shown (by decide)

/-- A screen of two by two pixels with a white window over all of it, and over its lower corner a
window with a translucent red pixel. -/
def twoWindows : Compositor where
  buffer := List.replicate 16 0
  info := ⟨2, 2, 2, 4, .rgb⟩
  windows := some ⟨⟨0, 0, 2, 2, isI32_zero, isI32_zero, by decide, by decide⟩, 1, [], true,
      [.white, .white, .white, .white], by decide, by decide⟩ ::
    some ⟨⟨1, 1, 1, 1, by decide, by decide, by decide, by decide⟩, 2, [], true,
      [⟨255, 0, 0, 128⟩], by decide, by decide⟩ :: List.replicate 30 none
  nextId := 3
  windows_length := rfl

/-- The law at these windows: the corner shows the red pixel blended over the white one. -/
theorem render_composites_iff_corner :
    (twoWindows.withBuffer (List.replicate 16 0xFF)).Composites ∧
      twoWindows.composite 0 0 = .white ∧ twoWindows.composite 1 1 = .new 255 127 127 := by
  have drawable (window : Window) (shown : window ∈ twoWindows.shown) :
      window.Drawable twoWindows.info := by
    have onScreen : 0 ≤ window.x ∧ window.x + window.width ≤ 2 ∧ 0 ≤ window.y ∧
        window.y + window.height ≤ 2 := by
      have both : window ∈ [_, _] := shown
      rcases List.mem_pair.mp both with rfl | rfl
      · decide
      · decide
    refine ⟨fun _ _ => ⟨by omega, by omega⟩, fun x y off src pixel => ?_⟩
    unfold Window.pixel at pixel
    split at pixel
    · rename_i inside
      obtain ⟨left, right, upper, lower⟩ := inside
      exact absurd ⟨by omega, (by omega : x < 2), by omega, (by omega : y < 2)⟩ off
    · cases pixel
  have supported : Supported twoWindows.info twoWindows.buffer.length :=
    ⟨.inl rfl, .inr rfl, by decide, by decide, by decide⟩
  refine ⟨(render_composites_iff supported).mpr ((clipped_iff (by decide) (by decide)).mpr drawable)
    (List.replicate 16 0xFF) List.length_replicate, by decide, by decide⟩

end Compositor

end Aperture.Gui
