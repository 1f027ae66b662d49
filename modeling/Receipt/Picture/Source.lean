import Receipt.Picture.Bitmap
import Receipt.Picture.Png
import Receipt.Picture.Resample
import Receipt.Text.Base64
import Receipt.Value.Basic

/-!
# Picture sources

`Value.toPicture` reads the picture that a source gives: a picture as it is, an array of bytes, the
bytes of a file, or a text with the file in base 64 behind the first comma. `rasterize` scales it to
a width in printer dots, keeping its shape, and reduces it to black and white.
-/

namespace Receipt

/-- Why a source gives no bitmap. -/
inductive SourceFault where
  /-- The bytes are no picture file. -/
  | undecodable
  /-- The fields of the header of the file are no numbers. -/
  | badHeader
  /-- The header of the file promises more pixels than a picture may have. -/
  | tooLarge
  /-- What is behind the comma of the text is not valid base 64. -/
  | badText
  /-- The array has another shape than a picture has. -/
  | badSamples
  /-- A value of this kind is no source. -/
  | unknown (kind : String)
  /-- The picture has no pixels. -/
  | empty
deriving DecidableEq, Repr

namespace SourceFault

/-- The text of a fault. -/
def message : SourceFault → String
  | undecodable | badHeader | tooLarge => "cannot decode image"
  | badText => "invalid data URI"
  | badSamples => "unsupported array image"
  | unknown kind => "unsupported image source " ++ kind
  | empty => "image has no pixels"

/-- Whether a picture is left out at a fault. At the header of a file everything ends instead. -/
def isSkipped : SourceFault → Bool
  | badHeader | tooLarge => false
  | undecodable | badText | badSamples | unknown _ | empty => true

end SourceFault

/-- The picture in the bytes of a file. -/
def readPicture (bytes : List UInt8) : Except SourceFault Picture :=
  let body : Except Unreadable Picture :=
    if Png.signature.isPrefixOf bytes then Png.readBody (bytes.drop 8)
    else
      match bytes with
      | 80 :: 53 :: separator :: rest =>
        if Graymap.isSeparator separator then Graymap.readBody rest else .error .noPicture
      | [80, 53] => Graymap.readBody []
      | _ => .error .noPicture
  match body with
  | .ok picture => .ok picture
  | .error .noPicture => .error .undecodable
  | .error .badHeader => .error .badHeader
  | .error .tooLarge => .error .tooLarge

namespace Samples

/-- The picture an array of bytes shows: a gray level, or three or four channels, per pixel. -/
def toPicture? (samples : Samples) : Option Picture :=
  if samples.element = "uint8" then
    match samples.shape with
    | [height, width] => (Grid.ofList? width height samples.cells).map .gray
    | [height, width, 3] => (Grid.ofList? width height (Png.triples samples.cells)).map .color
    | [height, width, 4] =>
      (Grid.ofList? width height (Png.quadruples samples.cells)).map .colorAlpha
    | _ => none
  else none

end Samples

namespace Value

/-- The picture that a source gives. -/
def toPicture : Value → Except SourceFault Picture
  | picture content => .ok content
  | samples content =>
    match content.toPicture? with
    | some shown => .ok shown
    | none => .error .badSamples
  | bytes content => readPicture content
  | text content =>
    if content.startsWith "data:" then
      match Base64.decode? ((content.toList.dropWhile (· != ',')).drop 1) with
      | some decoded => readPicture decoded
      | none => .error .badText
    else .error (.unknown (text content).kindName)
  | null => .error (.unknown null.kindName)
  | bool holds => .error (.unknown (bool holds).kindName)
  | int number => .error (.unknown (int number).kindName)
  | float number => .error (.unknown (float number).kindName)
  | member kind => .error (.unknown (member kind).kindName)
  | list items => .error (.unknown (list items).kindName)
  | mapping fields => .error (.unknown (mapping fields).kindName)
  | element type props style children =>
    .error (.unknown (element type props style children).kindName)
  | shared index => .error (.unknown (shared index).kindName)

end Value

namespace Picture

/-- The height that keeps the shape of a picture scaled to a width; at least one. -/
def scaledHeight (picture : Picture) (width : Nat) : Nat :=
  let shape :=
    if picture.width = 0 then 1.0 else Float.ofNat picture.height / Float.ofNat picture.width
  match (Binary.ofFloat (Float.ofNat width * shape)).roundEven with
  | .ok height => max 1 height.toNat
  | .error _ => 1

/-- The picture on white paper, scaled to a width of at least one and reduced to black and white, by
error diffusion or by comparison with half brightness. -/
def toMonochrome (picture : Picture) (width : Int) (diffuse : Bool) : Bitmap :=
  let width := max 1 width.toNat
  let height := picture.scaledHeight width
  if diffuse then
    Bitmap.dither ((Resample.resample width height picture.flatten).map fun level =>
      (level.toNat : Int))
  else Bitmap.threshold (Resample.nearest width height picture.flatten)

/-- The brightness of a colour in thousandths of a level. -/
def milliBrightness (c : Rgb) : Nat :=
  299 * c.red.toNat + 587 * c.green.toNat + 114 * c.blue.toNat

/-- The brightness of a colour in whole levels, cut down. -/
def plainBrightness (c : Rgb) : Int := (milliBrightness c / 1000 : Nat)

/-- The picture reduced to black and white in its own size, its opacity left out. The colours of a
palette are compared with half brightness, all others are diffused. -/
def toBitmap : Picture → Bitmap
  | bilevel pixels => pixels.map (!·)
  | gray pixels => Bitmap.dither (pixels.map fun level => (level.toNat : Int))
  | grayAlpha pixels => Bitmap.dither (pixels.map fun p => (p.pixel.toNat : Int))
  | color pixels => Bitmap.dither (pixels.map plainBrightness)
  | colorAlpha pixels => Bitmap.dither (pixels.map fun p => plainBrightness p.pixel)
  | indexed palette pixels =>
    pixels.map fun index => decide (milliBrightness (paletteColor palette index).pixel < 128000)

end Picture

/-- The bitmap of a source, `width` dots wide. -/
def rasterize (source : Value) (width : Int) (diffuse : Bool) : Except SourceFault Bitmap :=
  match source.toPicture with
  | .error fault => .error fault
  | .ok picture =>
    if picture.isEmpty then .error .empty else .ok (picture.toMonochrome width diffuse)

end Receipt
