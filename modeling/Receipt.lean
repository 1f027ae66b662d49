import Receipt.Convert
import Receipt.Diagnostic
import Receipt.Layout.Box
import Receipt.Layout.Plan
import Receipt.Layout.Row
import Receipt.Number.Binary
import Receipt.Number.Decimal
import Receipt.Number.Fixed
import Receipt.Number.Power
import Receipt.Number.Scalar
import Receipt.Number.Shortest
import Receipt.Page.Content
import Receipt.Page.Device
import Receipt.Page.Draw
import Receipt.Page.Glyph
import Receipt.Page.Trace
import Receipt.Picture.Basic
import Receipt.Picture.Bitmap
import Receipt.Picture.Checksum
import Receipt.Picture.Graymap
import Receipt.Picture.Grid
import Receipt.Picture.Inflate
import Receipt.Picture.Png
import Receipt.Picture.Resample
import Receipt.Picture.Source
import Receipt.Printer.Codepage
import Receipt.Printer.Command
import Receipt.Printer.Print
import Receipt.Printer.Symbol
import Receipt.Proofs.Absent
import Receipt.Proofs.Account
import Receipt.Proofs.Agree
import Receipt.Proofs.Agreement
import Receipt.Proofs.Alike
import Receipt.Proofs.BinaryCounting
import Receipt.Proofs.Boxes
import Receipt.Proofs.Change
import Receipt.Proofs.CharacterBoxes
import Receipt.Proofs.Checking
import Receipt.Proofs.CodeTable
import Receipt.Proofs.Counting
import Receipt.Proofs.Degrade
import Receipt.Proofs.Delivery
import Receipt.Proofs.Device
import Receipt.Proofs.DocumentOrder
import Receipt.Proofs.Enclosing
import Receipt.Proofs.Exact
import Receipt.Proofs.Extent
import Receipt.Proofs.Faithful
import Receipt.Proofs.FinitePlan
import Receipt.Proofs.FiniteTrees
import Receipt.Proofs.FloatRange
import Receipt.Proofs.Form
import Receipt.Proofs.HardBreaks
import Receipt.Proofs.Heard
import Receipt.Proofs.LeafText
import Receipt.Proofs.LengthGrammar
import Receipt.Proofs.LengthRange
import Receipt.Proofs.LineStart
import Receipt.Proofs.Mirror
import Receipt.Proofs.NullEntries
import Receipt.Proofs.OptionLayers
import Receipt.Proofs.Outcome
import Receipt.Proofs.Overflow
import Receipt.Proofs.Packing
import Receipt.Proofs.PageHeight
import Receipt.Proofs.PageLimits
import Receipt.Proofs.PageOrder
import Receipt.Proofs.PageStyles
import Receipt.Proofs.PageWidths
import Receipt.Proofs.PageWords
import Receipt.Proofs.Perform
import Receipt.Proofs.PictureBox
import Receipt.Proofs.PictureWalk
import Receipt.Proofs.PicturesSeen
import Receipt.Proofs.Placement
import Receipt.Proofs.PrintedLine
import Receipt.Proofs.PrinterLimits
import Receipt.Proofs.Raster
import Receipt.Proofs.Reached
import Receipt.Proofs.Renaming
import Receipt.Proofs.Replay
import Receipt.Proofs.Resolution
import Receipt.Proofs.Resolvable
import Receipt.Proofs.Routes
import Receipt.Proofs.RowColumns
import Receipt.Proofs.RowExtents
import Receipt.Proofs.RowLine
import Receipt.Proofs.Scopes
import Receipt.Proofs.Separation
import Receipt.Proofs.SettingsFields
import Receipt.Proofs.Sharing
import Receipt.Proofs.Sheet
import Receipt.Proofs.Skipping
import Receipt.Proofs.Stacking
import Receipt.Proofs.SymbolFrames
import Receipt.Proofs.SymbolSize
import Receipt.Proofs.Trace
import Receipt.Proofs.Transparent
import Receipt.Proofs.Unfolding
import Receipt.Proofs.WidthsInForce
import Receipt.Proofs.Wire
import Receipt.Proofs.Wrap
import Receipt.Proofs.WrapContent
import Receipt.Proofs.WrapWords
import Receipt.Proofs.Zero
import Receipt.Session
import Receipt.Settings.EnvFile
import Receipt.Settings.Options
import Receipt.Settings.Reading
import Receipt.Style.Basic
import Receipt.Style.Length
import Receipt.Style.Resolved
import Receipt.Text.Base64
import Receipt.Text.Character
import Receipt.Text.Lines
import Receipt.Text.Numeral
import Receipt.Text.Unprinted
import Receipt.Text.Wrap
import Receipt.Tree.Build
import Receipt.Tree.Check
import Receipt.Tree.Fault
import Receipt.Tree.Kind
import Receipt.Tree.Node
import Receipt.Tree.Reader
import Receipt.Value.Basic
import Receipt.Value.Printed
import Receipt.Value.Whole
