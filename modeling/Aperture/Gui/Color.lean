import Aperture.Machine.Word

/-!
# Colours

A colour has four channels of eight bits. `blend` mixes a colour over another one in 16-bit
arithmetic, which is wide enough for it.
-/

namespace Aperture.Gui

/-- `Color`. -/
structure Color where
  /-- Red. -/
  r : UInt8
  /-- Green. -/
  g : UInt8
  /-- Blue. -/
  b : UInt8
  /-- Opacity. -/
  a : UInt8
  deriving DecidableEq, Repr

namespace Color

/-- `Color::new`. -/
def new (r g b : UInt8) : Color := ⟨r, g, b, 0xFF⟩

/-- `Color::with_alpha`. -/
def withAlpha (r g b a : UInt8) : Color := ⟨r, g, b, a⟩

/-- `Color::BLACK`. -/
def black : Color := new 0 0 0

/-- `Color::WHITE`. -/
def white : Color := new 255 255 255

/-- `Color::DARK_GRAY`. -/
def darkGray : Color := new 48 48 48

end Color

/-- One channel of `blend`. -/
def blendChannel (alpha src dst : UInt8) : UInt8 :=
  let sa := alpha.toUInt16
  let invSa := 255 - alpha.toUInt16
  ((src.toUInt16 * sa + dst.toUInt16 * invSa) / 255).toUInt8

/-- `blend`. -/
def blend (src dst : Color) : Color :=
  if src.a = 255 then src
  else if src.a = 0 then dst
  else
    let r := blendChannel src.a src.r dst.r
    let g := blendChannel src.a src.g dst.g
    let b := blendChannel src.a src.b dst.b
    Color.withAlpha r g b 255

/-- The result of blending over an opaque colour is opaque. -/
theorem alpha_blend (src : Color) {dst : Color} (isOpaque : dst.a = 255) : (blend src dst).a = 255 := by
  unfold blend
  split_ifs with full empty
  · exact full
  · exact isOpaque
  · rfl

end Aperture.Gui
