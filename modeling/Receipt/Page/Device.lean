import Receipt.Page.Draw
import Receipt.Printer.Command

/-!
# A page obeying printer commands

A page takes the commands of a receipt printer as far as they mean something on it: pictures and
symbols are drawn where the pen is, line feeds move it. Registers and cuts mean nothing there,
because every mark carries its own alignment and the page ends where its content does.
-/

namespace Receipt.Page

/-- The gray picture of a packed bitmap. -/
def pictureOfBitmap (bitmap : Bitmap) : Picture :=
  .gray (bitmap.map fun black => if black then 0 else 255)

variable {α : Type} [Scalar α]

/-- Draws a packed bitmap, its dots in the size of a printer's; none when the bytes are not as many
as its size asks for. -/
def drawBitmap? (extent : Extent α) (pen : Pen α) (bytes : List UInt8) (width height : Int) :
    Option (Drawing α) :=
  if width < 0 ∨ height < 0 then none
  else
    (Bitmap.unpack? width.toNat height.toNat bytes).map fun bitmap =>
      drawPicture extent pen (pictureOfBitmap bitmap)
        (Scalar.min extent.width (Scalar.ofNat width.toNat * dotSize)) pen.align

/-- Moves the pen down by whole lines. -/
def feed (setting : Setting α) (pen : Pen α) (lines : Int) : Pen α :=
  pen.advance (Scalar.ofNat lines.toNat * setting.lineAdvance setting.fontSize)

/-- Obeys a command; none when a bitmap has the wrong number of bytes. -/
def obey? (setting : Setting α) (extent : Extent α) (pen : Pen α) :
    Command → Option (Drawing α)
  | .init => some (Drawing.done { pen with y := Scalar.zero, lowest := Scalar.zero })
  | .align _ | .characterSize _ _ | .emphasis _ | .lineSpacing _ | .text _ | .cut _ _ =>
    some (Drawing.done pen)
  | .lineFeed lines | .feed lines => some (Drawing.done (feed setting pen lines))
  | .raster bytes width height => drawBitmap? extent pen bytes width height
  | .symbol data size => some (drawSymbol extent pen data size pen.align)

end Receipt.Page
