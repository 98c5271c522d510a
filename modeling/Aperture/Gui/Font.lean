import Aperture.Gui.Compositor
import Aperture.Machine.Painting

/-!
# Font

The font has glyphs of five by seven bits. `draw_text` paints the glyphs of a text side by side, as
many as fit in the window. The glyph for characters that are not in the font is found by its place in
the table, which is not the place of the space but of the full stop behind it.
-/

namespace Aperture.Gui

open Machine

/-- `GLYPH_WIDTH`. -/
def glyphWidth : Nat := 5

/-- `GLYPH_HEIGHT`. -/
def glyphHeight : Nat := 7

/-- The rows of a glyph from top to bottom, in the lower five bits of a byte each. -/
abbrev GlyphRows : Type := Fin glyphHeight → UInt8

/-- `FontGlyph`. -/
structure FontGlyph where
  /-- The character. -/
  ch : Char
  /-- Its rows. -/
  rows : GlyphRows

/-- `FONT`. -/
def font : List FontGlyph := [
  ⟨'0', ![0x0E, 0x11, 0x13, 0x15, 0x19, 0x11, 0x0E]⟩,
  ⟨'1', ![0x04, 0x0C, 0x04, 0x04, 0x04, 0x04, 0x0E]⟩,
  ⟨'2', ![0x0E, 0x11, 0x01, 0x02, 0x04, 0x08, 0x1F]⟩,
  ⟨'3', ![0x0E, 0x11, 0x01, 0x06, 0x01, 0x11, 0x0E]⟩,
  ⟨'4', ![0x02, 0x06, 0x0A, 0x12, 0x1F, 0x02, 0x02]⟩,
  ⟨'5', ![0x1F, 0x10, 0x1E, 0x01, 0x01, 0x11, 0x0E]⟩,
  ⟨'6', ![0x06, 0x08, 0x10, 0x1E, 0x11, 0x11, 0x0E]⟩,
  ⟨'7', ![0x1F, 0x01, 0x02, 0x04, 0x08, 0x08, 0x08]⟩,
  ⟨'8', ![0x0E, 0x11, 0x11, 0x0E, 0x11, 0x11, 0x0E]⟩,
  ⟨'9', ![0x0E, 0x11, 0x11, 0x0F, 0x01, 0x02, 0x0C]⟩,
  ⟨'A', ![0x04, 0x0A, 0x11, 0x11, 0x1F, 0x11, 0x11]⟩,
  ⟨'B', ![0x1E, 0x11, 0x11, 0x1E, 0x11, 0x11, 0x1E]⟩,
  ⟨'C', ![0x0E, 0x11, 0x10, 0x10, 0x10, 0x11, 0x0E]⟩,
  ⟨'D', ![0x1E, 0x11, 0x11, 0x11, 0x11, 0x11, 0x1E]⟩,
  ⟨'E', ![0x1F, 0x10, 0x10, 0x1E, 0x10, 0x10, 0x1F]⟩,
  ⟨'F', ![0x1F, 0x10, 0x10, 0x1E, 0x10, 0x10, 0x10]⟩,
  ⟨'G', ![0x0E, 0x11, 0x10, 0x13, 0x11, 0x11, 0x0E]⟩,
  ⟨'H', ![0x11, 0x11, 0x11, 0x1F, 0x11, 0x11, 0x11]⟩,
  ⟨'I', ![0x0E, 0x04, 0x04, 0x04, 0x04, 0x04, 0x0E]⟩,
  ⟨'J', ![0x01, 0x01, 0x01, 0x01, 0x11, 0x11, 0x0E]⟩,
  ⟨'K', ![0x11, 0x12, 0x14, 0x18, 0x14, 0x12, 0x11]⟩,
  ⟨'L', ![0x10, 0x10, 0x10, 0x10, 0x10, 0x10, 0x1F]⟩,
  ⟨'M', ![0x11, 0x1B, 0x15, 0x11, 0x11, 0x11, 0x11]⟩,
  ⟨'N', ![0x11, 0x19, 0x15, 0x13, 0x11, 0x11, 0x11]⟩,
  ⟨'O', ![0x0E, 0x11, 0x11, 0x11, 0x11, 0x11, 0x0E]⟩,
  ⟨'P', ![0x1E, 0x11, 0x11, 0x1E, 0x10, 0x10, 0x10]⟩,
  ⟨'Q', ![0x0E, 0x11, 0x11, 0x11, 0x15, 0x12, 0x0D]⟩,
  ⟨'R', ![0x1E, 0x11, 0x11, 0x1E, 0x12, 0x11, 0x11]⟩,
  ⟨'S', ![0x0F, 0x10, 0x10, 0x0E, 0x01, 0x01, 0x1E]⟩,
  ⟨'T', ![0x1F, 0x04, 0x04, 0x04, 0x04, 0x04, 0x04]⟩,
  ⟨'U', ![0x11, 0x11, 0x11, 0x11, 0x11, 0x11, 0x0E]⟩,
  ⟨'V', ![0x11, 0x11, 0x11, 0x11, 0x11, 0x0A, 0x04]⟩,
  ⟨'W', ![0x11, 0x11, 0x11, 0x15, 0x15, 0x15, 0x0A]⟩,
  ⟨'X', ![0x11, 0x11, 0x0A, 0x04, 0x0A, 0x11, 0x11]⟩,
  ⟨'Y', ![0x11, 0x11, 0x0A, 0x04, 0x04, 0x04, 0x04]⟩,
  ⟨'Z', ![0x1F, 0x01, 0x02, 0x04, 0x08, 0x10, 0x1F]⟩,
  ⟨' ', ![0x00, 0x00, 0x00, 0x00, 0x00, 0x00, 0x00]⟩,
  ⟨'.', ![0x00, 0x00, 0x00, 0x00, 0x00, 0x06, 0x06]⟩,
  ⟨',', ![0x00, 0x00, 0x00, 0x00, 0x00, 0x06, 0x04]⟩,
  ⟨':', ![0x00, 0x06, 0x06, 0x00, 0x06, 0x06, 0x00]⟩,
  ⟨'-', ![0x00, 0x00, 0x00, 0x1F, 0x00, 0x00, 0x00]⟩,
  ⟨'!', ![0x04, 0x04, 0x04, 0x04, 0x04, 0x00, 0x04]⟩,
  ⟨'?', ![0x0E, 0x11, 0x01, 0x02, 0x04, 0x00, 0x04]⟩
]

/-- `glyph_for`. -/
def glyphFor (c : Char) : GlyphRows :=
  match font.find? fun glyph => glyph.ch == c with
  | some glyph => glyph.rows
  | none => (font.get ⟨font.length - 6, by decide⟩).rows

/-- The bit of a glyph that `draw_text` tests. -/
def glyphBit (rows : GlyphRows) (row : Fin glyphHeight) (col : Fin glyphWidth) : Bool :=
  (rows row >>> UInt8.ofNat (glyphWidth - 1 - col)) &&& 1 != 0

/-- `backbuffer[index as usize] = color`. -/
def setColor (backbuffer : List Color) (index : Int) (color : Color) :
    Except Panic (List Color) :=
  if asUsize index < backbuffer.length then .ok (backbuffer.set (asUsize index) color)
  else .error .outOfRange

/-- One round of the loops over a glyph. -/
def drawBit (window : Geometry) (rows : GlyphRows) (cursorX y : Int) (color : Color)
    (row : Fin glyphHeight) (col : Fin glyphWidth) (backbuffer : List Color) :
    Except Panic (List Color) :=
  if glyphBit rows row col then do
    let px ← addI32 cursorX col
    let py ← addI32 y row
    if 0 ≤ px ∧ px < window.width ∧ 0 ≤ py ∧ py < window.height then
      let start ← mulI32 py window.width
      let index ← addI32 start px
      setColor backbuffer index color
    else return backbuffer
  else return backbuffer

/-- The loops over a glyph. -/
def drawGlyph (window : Geometry) (rows : GlyphRows) (cursorX y : Int) (color : Color)
    (backbuffer : List Color) : Except Panic (List Color) :=
  (List.finRange glyphHeight).foldlM (fun backbuffer row =>
    (List.finRange glyphWidth).foldlM (fun backbuffer col =>
      drawBit window rows cursorX y color row col backbuffer) backbuffer) backbuffer

/-- The loop over the characters of a text. -/
def drawChars (window : Geometry) (y : Int) (color : Color) :
    List Char → Int → List Color → Except Panic (List Color)
  | [], _, backbuffer => return backbuffer
  | c :: rest, cursorX, backbuffer => do
    let right ← addI32 cursorX glyphWidth
    if right > window.width then return backbuffer
    else
      let drawn ← drawGlyph window (glyphFor c) cursorX y color backbuffer
      let next ← addI32 cursorX (glyphWidth + 1)
      drawChars window y color rest next drawn

/-- `draw_text`. It returns the pixels of the window's backbuffer. -/
def drawText (window : Window) (text : List Char) (x y : Int) (color : Color) :
    Except Panic (List Color) :=
  drawChars window.toGeometry y color text x window.backbuffer

/-! ## What is painted -/

/-- The glyph of a character, when the font has one. -/
def glyph (c : Char) : Option GlyphRows := (font.find? fun glyph => glyph.ch == c).map FontGlyph.rows

/-- A place inside a window, with the index of its pixel. -/
def PixelAt (window : Geometry) (px py : Int) (index : Nat) : Prop :=
  0 ≤ px ∧ px < window.width ∧ 0 ≤ py ∧ py < window.height ∧ (index : Int) = py * window.width + px

/-- The pixels of a window that a glyph at a place covers. -/
def GlyphCovers (window : Geometry) (rows : GlyphRows) (left top : Int) (index : Nat) : Prop :=
  ∃ row col, glyphBit rows row col = true ∧ PixelAt window (left + col) (top + row) index

/-- The pixels that a text covers with given glyphs: the `i`-th character is at `x + 6 * i`, and those
from the first that does not fit in the width on cover nothing. -/
def TextCovers (window : Geometry) (glyphs : Char → Option GlyphRows) (text : List Char) (x y : Int)
    (index : Nat) : Prop :=
  ∃ (i : Nat) (c : Char) (rows : GlyphRows), text[i]? = some c ∧ x + 6 * i + 5 ≤ window.width ∧
    glyphs c = some rows ∧ GlyphCovers window rows (x + 6 * i) y index

/-- `draw_text` returns, with the colour in exactly the pixels that the glyphs of the text cover. -/
def DrawsGlyphs (window : Window) (text : List Char) (x y : Int) (color : Color) : Prop :=
  ∃ after, drawText window text x y color = .ok after ∧ ∀ index,
    (TextCovers window.toGeometry glyph text x y index → after[index]? = some color) ∧
    (¬TextCovers window.toGeometry glyph text x y index →
      after[index]? = window.backbuffer[index]?)

/-- The additions of `draw_text` do not overflow. -/
def NoOverflow (window : Geometry) (y : Int) : List Char → Int → Prop
  | [], _ => True
  | c :: rest, x => x + 5 < 2 ^ 31 ∧ (x + 5 ≤ window.width →
      (∀ row col, glyphBit (glyphFor c) row col = true → y + row < 2 ^ 31) ∧ x + 6 < 2 ^ 31 ∧
      NoOverflow window y rest (x + 6))

/-- The places where `draw_text` paints something for a character without a glyph, the bits of the
full stop in rows 5 and 6 and columns 2 and 3, are not inside the window. -/
def DotsHidden (window : Geometry) (text : List Char) (x y : Int) : Prop :=
  ∀ (i : Nat) (c : Char), text[i]? = some c → x + 6 * i + 5 ≤ window.width → glyph c = none →
    ∀ col row : Int, col = 2 ∨ col = 3 → row = 5 ∨ row = 6 →
      ∀ index, ¬PixelAt window (x + 6 * i + col) (y + row) index

/-! ## The font -/

/-- A character with a glyph is drawn with it. -/
theorem glyphFor_some {c : Char} {rows : GlyphRows} (found : glyph c = some rows) :
    glyphFor c = rows := by
  unfold glyph at found
  unfold glyphFor
  cases search : font.find? fun glyph => glyph.ch == c with
  | none =>
    rw [search] at found
    cases found
  | some entry =>
    rw [search] at found
    exact Option.some.inj found

/-- The glyph for other characters is the full stop. -/
theorem glyphFor_none {c : Char} (missing : glyph c = none) (row : Fin glyphHeight)
    (col : Fin glyphWidth) :
    glyphBit (glyphFor c) row col = true ↔
      (col.val = 2 ∨ col.val = 3) ∧ (row.val = 5 ∨ row.val = 6) := by
  have fullStop : glyphFor c = ![0x00, 0x00, 0x00, 0x00, 0x00, 0x06, 0x06] := by
    unfold glyph at missing
    rw [Option.map_eq_none_iff] at missing
    rw [glyphFor, missing]
    rfl
  rw [fullStop]
  revert row col
  decide

/-! ## Drawing -/

section Drawing

variable {window : Geometry} {count : Nat} {text : List Char} {rows : GlyphRows} {x y : Int}
  {color : Color}

/-- Indices of different places differ. -/
theorem PixelAt.unique {px py otherX otherY : Int} {index : Nat} (pixel : PixelAt window px py index)
    (other : PixelAt window otherX otherY index) : px = otherX ∧ py = otherY := by
  obtain ⟨left, right, upper, lower, place⟩ := pixel
  obtain ⟨otherLeft, otherRight, otherUpper, otherLower, otherPlace⟩ := other
  obtain ⟨column, rfl⟩ := Int.eq_ofNat_of_zero_le left
  obtain ⟨row, rfl⟩ := Int.eq_ofNat_of_zero_le upper
  obtain ⟨otherColumn, rfl⟩ := Int.eq_ofNat_of_zero_le otherLeft
  obtain ⟨otherRow, rfl⟩ := Int.eq_ofNat_of_zero_le otherUpper
  obtain ⟨width, wide⟩ := Int.eq_ofNat_of_zero_le (by omega : 0 ≤ window.width)
  rw [wide] at right otherRight place otherPlace
  have same : row * width + column = otherRow * width + otherColumn := by
    have indices := place.symm.trans otherPlace
    exact_mod_cast indices
  obtain ⟨columns, rows⟩ := (place_inj (Int.ofNat_lt.mp right) (Int.ofNat_lt.mp otherRight)).mp same
  exact ⟨congrArg Int.ofNat columns, congrArg Int.ofNat rows⟩

/-- A round over a glyph paints the pixel of its bit, when that is set and inside the window. -/
theorem stamps_drawBit (fits : IsI32 (window.width * window.height))
    (size : (count : Int) = window.width * window.height) {cursorX : Int}
    {row : Fin glyphHeight} {col : Fin glyphWidth} (column : IsI32 (cursorX + col))
    (line : glyphBit rows row col = true → IsI32 (y + row)) :
    Stamps (·.length = count) (fun backbuffer (index : Nat) => backbuffer[index]?) (some color)
      (drawBit window rows cursorX y color row col)
      fun index => glyphBit rows row col = true ∧ PixelAt window (cursorX + col) (y + row) index := by
  unfold drawBit
  by_cases bit : glyphBit rows row col = true
  · have px : addI32 cursorX col = .ok (cursorX + col) := checkedI32_ok column
    have py : addI32 y row = .ok (y + row) := checkedI32_ok (line bit)
    simp only [bit, ↓reduceIte, px, py, ok_bind, true_and]
    by_cases inside : 0 ≤ cursorX + col ∧ cursorX + col < window.width ∧ 0 ≤ y + row ∧
        y + row < window.height
    · obtain ⟨left, right, upper, lower⟩ := inside
      obtain ⟨nonneg, below, product, sum⟩ := placeIndex_ok fits left right upper lower
      have total := fits.2
      have index : asUsize ((y + row) * window.width + (cursorX + col)) =
          ((y + row) * window.width + (cursorX + col)).toNat :=
        asUsize_of_nonneg nonneg ⟨by omega, by omega⟩
      simp only [left, right, upper, lower, and_self, ↓reduceIte, product, ok_bind, sum]
      intro backbuffer length
      have inBuffer : ((y + row) * window.width + (cursorX + col)).toNat < backbuffer.length := by
        have pixels : backbuffer.length = count := length
        omega
      have stored : setColor backbuffer ((y + row) * window.width + (cursorX + col)) color =
          .ok (backbuffer.set ((y + row) * window.width + (cursorX + col)).toNat color) := by
        rw [setColor, index, if_pos inBuffer]
      refine ⟨_, stored, List.length_set.trans length, fun other => ⟨?_, ?_⟩⟩
      · rintro ⟨_, _, _, _, place⟩
        have same : other = ((y + row) * window.width + (cursorX + col)).toNat := by omega
        rw [same]
        exact List.getElem?_set_self inBuffer
      · intro missed
        apply List.getElem?_set_ne
        intro same
        exact missed ⟨left, right, upper, lower, by omega⟩
    · simp only [inside, ↓reduceIte]
      refine Stamps.nothing (fun backbuffer _ => rfl) ?_
      rintro index ⟨left, right, upper, lower, _⟩
      exact inside ⟨left, right, upper, lower⟩
  · simp only [bit]
    exact Stamps.nothing (fun backbuffer _ => rfl) fun index => by simp

/-- The loops over a glyph paint the pixels that it covers. -/
theorem stamps_drawGlyph (fits : IsI32 (window.width * window.height))
    (size : (count : Int) = window.width * window.height) {cursorX : Int}
    (column : ∀ col : Fin glyphWidth, IsI32 (cursorX + col))
    (line : ∀ row col, glyphBit rows row col = true → IsI32 (y + row)) :
    Stamps (·.length = count) (fun backbuffer (index : Nat) => backbuffer[index]?) (some color)
      (drawGlyph window rows cursorX y color) (GlyphCovers window rows cursorX y) := by
  have loops := Stamps.foldlM (List.finRange glyphHeight) fun row _ =>
    Stamps.foldlM (List.finRange glyphWidth) fun col _ =>
      @stamps_drawBit window count rows y color fits size cursorX row col (column col) (line row col)
  refine Stamps.congr loops fun index => ?_
  simp only [List.mem_finRange, true_and]
  rfl

/-- The first character of a text that fits covers what its glyph does, and the others cover what
they do as a text of their own. -/
theorem textCovers_cons {glyphs : Char → Option GlyphRows} {c : Char}
    (first : x + 5 ≤ window.width) (found : glyphs c = some rows) (index : Nat) :
    GlyphCovers window rows x y index ∨ TextCovers window glyphs text (x + 6) y index ↔
      TextCovers window glyphs (c :: text) x y index := by
  constructor
  · rintro (covers | ⟨i, other, otherRows, there, room, otherFound, covers⟩)
    · refine ⟨0, c, rows, rfl, by simpa using first, found, ?_⟩
      simpa using covers
    · have place : x + 6 + 6 * (i : Int) = x + 6 * (i + 1 : Nat) := by omega
      rw [place] at room covers
      exact ⟨i + 1, other, otherRows, there, room, otherFound, covers⟩
  · rintro ⟨i, other, otherRows, there, room, otherFound, covers⟩
    cases i with
    | zero =>
      obtain rfl := Option.some.inj there
      obtain rfl := Option.some.inj (found.symm.trans otherFound)
      exact .inl (by simpa using covers)
    | succ i =>
      have place : x + 6 + 6 * (i : Int) = x + 6 * (i + 1 : Nat) := by omega
      rw [← place] at room covers
      exact .inr ⟨i, other, otherRows, there, room, otherFound, covers⟩

/-- From a character that does not fit on a text covers nothing. -/
theorem not_textCovers {glyphs : Char → Option GlyphRows} (full : window.width < x + 5)
    (index : Nat) : ¬TextCovers window glyphs text x y index := by
  rintro ⟨i, c, rows, _, room, _⟩
  omega

/-- The loop over the characters paints the pixels that the text covers with the glyphs of
`glyph_for`. -/
theorem stamps_drawChars (fits : IsI32 (window.width * window.height))
    (size : (count : Int) = window.width * window.height) (left : IsI32 x) (upper : IsI32 y)
    (noOverflow : NoOverflow window y text x) :
    Stamps (·.length = count) (fun backbuffer (index : Nat) => backbuffer[index]?) (some color)
      (drawChars window y color text x)
      (TextCovers window (fun c => some (glyphFor c)) text x y) := by
  induction text generalizing x with
  | nil =>
    refine Stamps.nothing (fun backbuffer _ => rfl) ?_
    rintro index ⟨i, c, rows, there, _⟩
    cases there
  | cons c text ih =>
    obtain ⟨rightFits, more⟩ := noOverflow
    have low := left.1
    have right : addI32 x glyphWidth = .ok (x + 5) :=
      checkedI32_ok ⟨by unfold glyphWidth; omega, rightFits⟩
    by_cases full : x + 5 > window.width
    · have stops (backbuffer : List Color) :
          drawChars window y color (c :: text) x backbuffer = .ok backbuffer := by
        rw [drawChars, right, ok_bind, if_pos full]
        rfl
      exact Stamps.nothing (fun backbuffer _ => stops backbuffer) fun index =>
        not_textCovers full index
    · obtain ⟨lines, nextFits, rest⟩ := more (Int.not_lt.mp full)
      have next : addI32 x (glyphWidth + 1) = .ok (x + 6) :=
        checkedI32_ok ⟨by unfold glyphWidth; omega, nextFits⟩
      have goesOn : drawChars window y color (c :: text) x = fun backbuffer =>
          drawGlyph window (glyphFor c) x y color backbuffer >>=
            drawChars window y color text (x + 6) := by
        funext backbuffer
        rw [drawChars, right, ok_bind, if_neg full]
        simp only [next, ok_bind]
      have top := upper.1
      have first := @stamps_drawGlyph window count (glyphFor c) y color fits size x
        (fun col => by
          have inside := col.isLt
          unfold glyphWidth at inside
          exact ⟨by omega, by omega⟩)
        (fun row col bit => ⟨by omega, lines row col bit⟩)
      have others := ih ⟨by omega, nextFits⟩ rest
      rw [goesOn]
      exact (first.bind others).congr fun index => textCovers_cons (Int.not_lt.mp full) rfl index

/-- A text and its glyphs within the range of `i32` cause no overflow. -/
theorem noOverflow_of_room (line : y + 6 < 2 ^ 31) (room : x + 6 * text.length + 5 < 2 ^ 31) :
    NoOverflow window y text x := by
  induction text generalizing x with
  | nil => trivial
  | cons c text ih =>
    rw [List.length_cons] at room
    refine ⟨by omega, fun _ => ⟨fun row col _ => ?_, by omega, ih (by omega)⟩⟩
    have inside := row.isLt
    unfold glyphHeight at inside
    omega

/-- What the glyphs of a text cover is painted. -/
theorem painted_of_covers {index : Nat} (covers : TextCovers window glyph text x y index) :
    TextCovers window (fun c => some (glyphFor c)) text x y index := by
  obtain ⟨i, c, rows, there, room, found, pixel⟩ := covers
  exact ⟨i, c, rows, there, room, congrArg some (glyphFor_some found), pixel⟩

/-- When no full stop is visible that stands for another character, nothing else is. -/
theorem covers_of_painted (hidden : DotsHidden window text x y) {index : Nat}
    (painted : TextCovers window (fun c => some (glyphFor c)) text x y index) :
    TextCovers window glyph text x y index := by
  obtain ⟨i, c, rows, there, room, found, row, col, bit, pixel⟩ := painted
  obtain rfl := Option.some.inj found
  cases known : glyph c with
  | none =>
    obtain ⟨column, line⟩ := (glyphFor_none known row col).mp bit
    exact absurd pixel
      (hidden i c there room known col row (by exact_mod_cast column) (by exact_mod_cast line) index)
  | some rows =>
    obtain rfl := glyphFor_some known
    exact ⟨i, c, _, there, room, known, row, col, bit, pixel⟩

/-- A bit of a glyph is in the cell of its character. -/
theorem cell_unique {i j : Nat} {col otherCol : Int} (column : 0 ≤ col ∧ col < 5)
    (otherColumn : 0 ≤ otherCol ∧ otherCol < 5)
    (same : x + 6 * i + col = x + 6 * j + otherCol) : i = j := by
  omega

/-- A visible full stop that stands for another character is painted where no glyph of the text is. -/
theorem painted_of_visible {i : Nat} {c : Char} (there : text[i]? = some c)
    (room : x + 6 * i + 5 ≤ window.width) (missing : glyph c = none) {col row : Int}
    (column : col = 2 ∨ col = 3) (line : row = 5 ∨ row = 6) {index : Nat}
    (pixel : PixelAt window (x + 6 * i + col) (y + row) index) :
    TextCovers window (fun c => some (glyphFor c)) text x y index ∧
      ¬TextCovers window glyph text x y index := by
  obtain ⟨dotCol, columnEq⟩ : ∃ dotCol : Fin glyphWidth, (dotCol : Int) = col := by
    rcases column with rfl | rfl
    · exact ⟨⟨2, by decide⟩, rfl⟩
    · exact ⟨⟨3, by decide⟩, rfl⟩
  obtain ⟨dotRow, lineEq⟩ : ∃ dotRow : Fin glyphHeight, (dotRow : Int) = row := by
    rcases line with rfl | rfl
    · exact ⟨⟨5, by decide⟩, rfl⟩
    · exact ⟨⟨6, by decide⟩, rfl⟩
  constructor
  · have bit := (glyphFor_none missing dotRow dotCol).mpr ⟨by omega, by omega⟩
    refine ⟨i, c, _, there, room, rfl, dotRow, dotCol, bit, ?_⟩
    rwa [columnEq, lineEq]
  · rintro ⟨j, other, rows, otherThere, _, found, otherRow, otherCol, _, otherPixel⟩
    have inside := otherCol.isLt
    unfold glyphWidth at inside
    have same := cell_unique (by omega) (by omega) (pixel.unique otherPixel).1
    subst same
    obtain rfl := Option.some.inj (there.symm.trans otherThere)
    rw [missing] at found
    cases found

end Drawing

/-- A colour that differs from another one. -/
theorem exists_other_color (color : Color) : ∃ other : Color, other ≠ color := by
  by_cases black : color = .black
  · exact ⟨.white, by rw [black]; decide⟩
  · exact ⟨.black, Ne.symm black⟩

/-- In windows of one size `draw_text` paints exactly the glyphs of the text if and only if it shows
no full stop for a character without a glyph. -/
theorem drawText_iff (window : Window) (text : List Char) {x y : Int} (color : Color)
    (left : IsI32 x) (upper : IsI32 y) (noOverflow : NoOverflow window.toGeometry y text x) :
    (∀ other : Window, other.toGeometry = window.toGeometry → DrawsGlyphs other text x y color) ↔
      DotsHidden window.toGeometry text x y := by
  have stamps (other : Window) (same : other.toGeometry = window.toGeometry) :
      ∃ after, drawText other text x y color = .ok after ∧ ∀ index,
        (TextCovers other.toGeometry (fun c => some (glyphFor c)) text x y index →
          after[index]? = some color) ∧
        (¬TextCovers other.toGeometry (fun c => some (glyphFor c)) text x y index →
          after[index]? = other.backbuffer[index]?) := by
    rw [← same] at noOverflow
    obtain ⟨after, returned, _, changed⟩ := @stamps_drawChars other.toGeometry
      other.backbuffer.length text x y color other.count_fits other.count left upper noOverflow
      other.backbuffer rfl
    exact ⟨after, returned, changed⟩
  constructor
  · intro draws i c there room missing col row column line index pixel
    obtain ⟨before, differs⟩ := exists_other_color color
    let blank : Window := { window with
      backbuffer := List.replicate window.backbuffer.length before
      count := by rw [List.length_replicate]; exact window.count }
    obtain ⟨painted, uncovered⟩ := painted_of_visible there room missing column line pixel
    obtain ⟨after, returned, onlyGlyphs⟩ := draws blank rfl
    obtain ⟨other, otherReturned, changed⟩ := stamps blank rfl
    obtain rfl := Except.ok.inj (returned.symm.trans otherReturned)
    have kept : after[index]? = (List.replicate window.backbuffer.length before)[index]? :=
      (onlyGlyphs index).2 uncovered
    rw [(changed index).1 painted, List.getElem?_replicate] at kept
    split at kept
    · exact differs (Option.some.inj kept).symm
    · cases kept
  · intro hidden other same
    obtain ⟨after, returned, changed⟩ := stamps other same
    rw [← same] at hidden
    refine ⟨after, returned, fun index => ⟨fun covers => ?_, fun uncovered => ?_⟩⟩
    · exact (changed index).1 (painted_of_covers covers)
    · exact (changed index).2 fun painted => uncovered (covers_of_painted hidden painted)

/-- A window of the size of one glyph. -/
def glyphWindow : Window where
  x := 0
  y := 0
  width := 5
  height := 7
  id := 1
  title := []
  visible := true
  backbuffer := List.replicate 35 .white

/-- The lower case letter is drawn as a full stop. -/
theorem drawText_counterexample :
    ¬∀ (window : Window) (text : List Char) (x y : Int) (color : Color), IsI32 x → IsI32 y →
      NoOverflow window.toGeometry y text x → DrawsGlyphs window text x y color := by
  intro claimed
  obtain ⟨after, returned, draws⟩ := claimed glyphWindow ['a'] 0 0 .black (by decide) (by decide)
    (noOverflow_of_room (by decide) (by decide))
  have dot : (drawText glyphWindow ['a'] 0 0 .black).map (·[27]?) = .ok (some .black) := by decide
  rw [returned] at dot
  have uncovered : ¬TextCovers glyphWindow.toGeometry glyph ['a'] 0 0 27 := by
    rintro ⟨i, c, rows, there, _, found, _⟩
    cases i with
    | zero =>
      obtain rfl := Option.some.inj there
      cases found
    | succ i => cases there
  have kept := (draws 27).2 uncovered
  have black : after[27]? = some .black := Except.ok.inj dot
  rw [black] at kept
  exact absurd kept (by decide)

/-- The law at a text of letters that are in the font. -/
theorem drawText_iff_upperCase : DrawsGlyphs glyphWindow ['A', 'Z'] 0 0 .black :=
  (drawText_iff glyphWindow ['A', 'Z'] .black (by decide) (by decide)
    (noOverflow_of_room (by decide) (by decide))).mpr (fun i c there room missing => by
      cases i with
      | zero =>
        obtain rfl := Option.some.inj there
        cases missing
      | succ i => exact absurd room (by change ¬(0 + 6 * ((i + 1 : Nat) : Int) + 5 ≤ 5); omega))
    glyphWindow rfl

end Aperture.Gui
