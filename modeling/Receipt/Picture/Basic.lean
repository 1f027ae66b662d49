import Receipt.Picture.Grid

/-!
# Pictures

A `Picture` is a rectangle of pixels in one of the six modes that receipts use. Its samples are what
the picture was given with; `Picture.rgb` is the colour a mode without transparency shows, and
`Picture.flatten` the gray picture that is left on white paper.
-/

namespace Receipt

/-- A colour. -/
structure Rgb where
  red : UInt8
  green : UInt8
  blue : UInt8
deriving DecidableEq, Repr

/-- A pixel with an opacity. -/
structure Translucent (π : Type) where
  pixel : π
  alpha : UInt8
deriving DecidableEq, Repr

/-- The pixels of a picture, by mode. -/
inductive Picture where
  /-- Black and white; `true` is white. -/
  | bilevel (pixels : Grid Bool)
  | gray (pixels : Grid UInt8)
  | grayAlpha (pixels : Grid (Translucent UInt8))
  | color (pixels : Grid Rgb)
  | colorAlpha (pixels : Grid (Translucent Rgb))
  /-- Indices into a list of colours; an index beyond it is opaque black. -/
  | indexed (palette : List (Translucent Rgb)) (pixels : Grid UInt8)

namespace Picture

/-- The number of columns. -/
def width : Picture → Nat
  | bilevel pixels => pixels.width
  | gray pixels | indexed _ pixels => pixels.width
  | grayAlpha pixels => pixels.width
  | color pixels => pixels.width
  | colorAlpha pixels => pixels.width

/-- The number of rows. -/
def height : Picture → Nat
  | bilevel pixels => pixels.height
  | gray pixels | indexed _ pixels => pixels.height
  | grayAlpha pixels => pixels.height
  | color pixels => pixels.height
  | colorAlpha pixels => pixels.height

/-- Whether there is no pixel. -/
def isEmpty (picture : Picture) : Bool := picture.width == 0 || picture.height == 0

/-- The short name of the mode. -/
def mode : Picture → String
  | bilevel _ => "1"
  | gray _ => "L"
  | grayAlpha _ => "LA"
  | color _ => "RGB"
  | colorAlpha _ => "RGBA"
  | indexed _ _ => "P"

/-- A colour whose three parts are one gray level. -/
def grayRgb (level : UInt8) : Rgb := ⟨level, level, level⟩

/-- The palette entry of an index. -/
def paletteColor (palette : List (Translucent Rgb)) (index : UInt8) : Translucent Rgb :=
  (palette[index.toNat]?).getD ⟨⟨0, 0, 0⟩, 255⟩

/-- The brightness of a colour, weighed in parts of 65536. -/
def brightness (c : Rgb) : UInt8 :=
  UInt8.ofNat ((19595 * c.red.toNat + 38470 * c.green.toNat + 7471 * c.blue.toNat + 32768) / 65536)

/-- One channel of a pixel with opacity `alpha` laid over white, weighed in parts of 128. -/
def overWhite (level alpha : UInt8) : UInt8 :=
  if alpha = 0 then 255
  else
    let sum := level.toNat * (alpha.toNat * 128) + 255 * ((255 - alpha.toNat) * 128) + 128 * 128
    UInt8.ofNat (((sum / 256 + sum) / 256) / 128)

/-- A colour with an opacity laid over white. -/
def colorOverWhite (c : Translucent Rgb) : Rgb :=
  ⟨overWhite c.pixel.red c.alpha, overWhite c.pixel.green c.alpha, overWhite c.pixel.blue c.alpha⟩

/-- The gray picture that is left on white paper. -/
def flatten : Picture → Grid UInt8
  | bilevel pixels => pixels.map fun white => if white then 255 else 0
  | gray pixels => pixels
  | grayAlpha pixels =>
    pixels.map fun p => brightness (colorOverWhite ⟨grayRgb p.pixel, p.alpha⟩)
  | color pixels => pixels.map brightness
  | colorAlpha pixels => pixels.map fun p => brightness (colorOverWhite p)
  | indexed palette pixels =>
    pixels.map fun index => brightness (colorOverWhite (paletteColor palette index))

/-- The samples a page stores for a picture, opacity left out: one per gray pixel and three per
pixel of every other mode. -/
def storedSamples : Picture → List UInt8
  | bilevel pixels =>
    pixels.toList.flatMap fun white => if white then [255, 255, 255] else [0, 0, 0]
  | gray pixels => pixels.toList
  | grayAlpha pixels => pixels.toList.map (·.pixel)
  | color pixels => pixels.toList.flatMap fun c => [c.red, c.green, c.blue]
  | colorAlpha pixels => pixels.toList.flatMap fun c => [c.pixel.red, c.pixel.green, c.pixel.blue]
  | indexed palette pixels =>
    pixels.toList.flatMap fun index =>
      let c := (paletteColor palette index).pixel
      [c.red, c.green, c.blue]

end Picture

end Receipt
