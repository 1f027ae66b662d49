import Receipt.Picture.Checksum
import Receipt.Picture.Graymap
import Receipt.Picture.Inflate

/-!
# Portable network graphics

A file is a signature and a row of chunks. The header chunk gives size and sample layout, a palette
chunk the colours, a transparency chunk their opacities, and the data chunks that follow one another
the compressed rows. Every chunk before the data has to carry its check; what follows the data is
not looked at. A few chunks that say nothing about the pixels have to be of a least length all the same.
Each row is written as differences that a filter byte names (`unfilterRow`), and the rows are cut into
samples and grouped into pixels by `pixels?`. Files with rows in another order, or with samples of
sixteen bits, are not read.
-/

namespace Receipt.Png

/-- The bytes every file starts with. -/
def signature : List UInt8 := [0x89, 0x50, 0x4E, 0x47, 0x0D, 0x0A, 0x1A, 0x0A]

/-- What the header chunk says: the size, the bits of a sample and the kind of the pixels. -/
structure Header where
  width : Nat
  height : Nat
  depth : Nat
  kind : Nat
  interlaced : Bool
deriving Repr

/-- How many samples a pixel of a kind has. -/
def samplesPerPixel? : Nat → Option Nat
  | 0 | 3 => some 1
  | 2 => some 3
  | 4 => some 2
  | 6 => some 4
  | _ => none

/-- What is gathered from the chunks before the data. -/
structure Gathered where
  header : Option Header
  palette : List UInt8
  opacities : List UInt8

/-- A number of four bytes, highest first. -/
def bigEndian (bytes : List UInt8) : Nat := bytes.foldl (fun n byte => 256 * n + byte.toNat) 0

/-- Whether a byte may stand in the name of a chunk. -/
def isNameByte (byte : UInt8) : Bool :=
  let c := Char.ofNat byte.toNat
  c.isAlphanum || c == '_'

/-- A chunk: its name, its content and what follows its check, with whether the check is right. -/
structure Chunk where
  name : List UInt8
  content : List UInt8
  intact : Bool
  rest : List UInt8

/-- Reads the frame of a chunk: the length, the name, and as much of the content as is there. -/
def readFrame? (bytes : List UInt8) : Option (Nat × List UInt8 × List UInt8) :=
  if bytes.length < 8 then none
  else
    let name := (bytes.drop 4).take 4
    if name.all isNameByte then some (bigEndian (bytes.take 4), name, bytes.drop 8) else none

/-- Reads a whole chunk. -/
def readChunk? (bytes : List UInt8) : Option Chunk :=
  (readFrame? bytes).bind fun (length, name, rest) =>
    let content := rest.take length
    if content.length < length then none
    else
      let check := (rest.drop length).take 4
      some ⟨name, content, check.length == 4 && bigEndian check == (crc32 (name ++ content)).toNat,
        rest.drop (length + 4)⟩

/-- The name of a chunk from its letters. -/
def chunkName (name : String) : List UInt8 := name.toList.map fun c => UInt8.ofNat c.toNat

/-- How many bytes the content of a chunk needs at least: those that say how colours are meant, how
large a pixel is, how many frames there are and where one of them stands. -/
def leastLength (name : List UInt8) : Nat :=
  if name = chunkName "sRGB" then 1
  else if name = chunkName "pHYs" then 9
  else if name = chunkName "acTL" then 8
  else if name = chunkName "fcTL" then 26
  else 0

/-- Reads the content of the header chunk. -/
def readHeader (content : List UInt8) : Except Unreadable Header :=
  match content.drop 8 with
  | depth :: kind :: _ :: filter :: interlace :: _ =>
    if filter = 0 then
      .ok ⟨bigEndian (content.take 4), bigEndian ((content.drop 4).take 4), depth.toNat,
        kind.toNat, interlace != 0⟩
    else .error .noPicture
  | _ => .error .badHeader

/-- The content of data chunks that follow one another, without looking at their checks. Every
chunk takes more than eight bytes of the file, so the fuel is its length. -/
def readData : Nat → List UInt8 → List UInt8
  | 0, _ => []
  | fuel + 1, bytes =>
    match readFrame? bytes with
    | none => []
    | some (length, name, rest) =>
      if name = chunkName "IDAT" then rest.take length ++ readData fuel (rest.drop (length + 4))
      else []

/-- Gathers the chunks before the data, and the data. The fuel is the length of the file. -/
def gather : Nat → Gathered → List UInt8 → Except Unreadable (Gathered × List UInt8)
  | 0, _, _ => .error .noPicture
  | fuel + 1, sofar, bytes =>
    match readFrame? bytes with
    | none => .error .noPicture
    | some (_, name, _) =>
      if name = chunkName "IDAT" then .ok (sofar, readData (fuel + 1) bytes)
      else if name = chunkName "IEND" then .ok (sofar, [])
      else
        match readChunk? bytes with
        | none => .error .noPicture
        | some chunk =>
          if name = chunkName "IHDR" then
            match readHeader chunk.content with
            | .error cause => .error cause
            | .ok header =>
              if chunk.intact then gather fuel { sofar with header := some header } chunk.rest
              else .error .noPicture
          else if chunk.content.length < leastLength name then .error .badHeader
          else if ¬ chunk.intact then .error .noPicture
          else if name = chunkName "PLTE" then
            gather fuel { sofar with palette := chunk.content } chunk.rest
          else if name = chunkName "tRNS" then
            gather fuel { sofar with opacities := chunk.content } chunk.rest
          else gather fuel sofar chunk.rest

/-- Of left, upper and upper left neighbour the one nearest to left + upper - upper left. -/
def predict (left up corner : Nat) : Nat :=
  let goal : Int := (left : Int) + up - corner
  let distance (n : Nat) : Nat := (goal - n).natAbs
  if distance left ≤ distance up ∧ distance left ≤ distance corner then left
  else if distance up ≤ distance corner then up
  else corner

/-- Undoes the filter of one row; `step` is the distance of a byte to its left neighbour. -/
def unfilterRow (filter step : Nat) (above : Array UInt8) (row : List UInt8) :
    Option (Array UInt8) :=
  if 4 < filter then none
  else
    some <| row.foldl
      (fun done byte =>
        let i := done.size
        let left := if i < step then 0 else ((done[i - step]?).getD 0).toNat
        let up := ((above[i]?).getD 0).toNat
        let corner := if i < step then 0 else ((above[i - step]?).getD 0).toNat
        let guess :=
          match filter with
          | 0 => 0
          | 1 => left
          | 2 => up
          | 3 => (left + up) / 2
          | _ => predict left up corner
        done.push (UInt8.ofNat (byte.toNat + guess)))
      #[]

/-- Undoes the filters of `height` rows of `size` bytes each. -/
def unfilter (size step : Nat) : Nat → Array UInt8 → List UInt8 → Option (List (List UInt8))
  | 0, _, _ => some []
  | _ + 1, _, [] => none
  | height + 1, above, filter :: bytes =>
    let row := bytes.take size
    if row.length < size then none
    else
      (unfilterRow filter.toNat step above row).bind fun done =>
        (unfilter size step height done (bytes.drop size)).map (done.toList :: ·)

/-- The samples of a row, `depth` bits each. -/
def samplesOf (depth width : Nat) (row : List UInt8) : List UInt8 :=
  if depth = 8 then row
  else
    (row.flatMap fun byte =>
      (List.range (8 / depth)).map fun i =>
        UInt8.ofNat (byte.toNat / pow2 (8 - depth * (i + 1)) % pow2 depth)).take width

/-- Cuts samples into groups of two. -/
def pairs : List UInt8 → List (Translucent UInt8)
  | level :: alpha :: rest => ⟨level, alpha⟩ :: pairs rest
  | _ => []

/-- Cuts samples into groups of three. -/
def triples : List UInt8 → List Rgb
  | red :: green :: blue :: rest => ⟨red, green, blue⟩ :: triples rest
  | _ => []

/-- Cuts samples into groups of four. -/
def quadruples : List UInt8 → List (Translucent Rgb)
  | red :: green :: blue :: alpha :: rest => ⟨⟨red, green, blue⟩, alpha⟩ :: quadruples rest
  | _ => []

/-- The colours of a palette with their opacities; what is missing on one side is black, or opaque. -/
def paletteOf (colors opacities : List UInt8) : List (Translucent Rgb) :=
  let entries := triples colors
  (List.range (max entries.length opacities.length)).map fun i =>
    ⟨entries.getD i ⟨0, 0, 0⟩, opacities.getD i 255⟩

/-- The picture of the given size whose samples are given row after row. -/
def pixels? (header : Header) (palette opacities samples : List UInt8) : Option Picture :=
  let width := header.width
  let height := header.height
  match header.kind, header.depth with
  | 0, 1 => (Grid.ofList? width height (samples.map (· != 0))).map .bilevel
  | 0, 2 => (Grid.ofList? width height (samples.map (· * 85))).map .gray
  | 0, 4 => (Grid.ofList? width height (samples.map (· * 17))).map .gray
  | 0, _ => (Grid.ofList? width height samples).map .gray
  | 2, _ => (Grid.ofList? width height (triples samples)).map .color
  | 3, _ =>
    if palette.isEmpty then none
    else (Grid.ofList? width height samples).map (.indexed (paletteOf palette opacities))
  | 4, _ => (Grid.ofList? width height (pairs samples)).map .grayAlpha
  | 6, _ => (Grid.ofList? width height (quadruples samples)).map .colorAlpha
  | _, _ => none

/-- Whether the pixels of a kind may have samples of so many bits. -/
def isDepth (kind depth : Nat) : Bool :=
  depth == 8 || (depth == 16 && kind != 3) ||
    ((kind == 0 || kind == 3) && (depth == 1 || depth == 2 || depth == 4))

/-- Whether a header describes pixels. -/
def Header.isSound (header : Header) : Bool :=
  header.width != 0 && header.height != 0 && (samplesPerPixel? header.kind).isSome &&
    isDepth header.kind header.depth

/-- The picture that header, palette and data describe. The check of the data counts only when there
are no more rows than the picture has. -/
def assemble? (header : Header) (gathered : Gathered) (data : List UInt8) : Option Picture :=
  if header.interlaced ∨ header.depth = 16 then none
  else
    (samplesPerPixel? header.kind).bind fun count =>
    (Inflate.unwrap? data).bind fun contents =>
      let size := (header.width * count * header.depth + 7) / 8
      if contents.damaged && contents.bytes.length ≤ header.height * (size + 1) then none
      else
        (unfilter size (max 1 (count * header.depth / 8)) header.height #[] contents.bytes).bind
          fun rows =>
            pixels? header gathered.palette gathered.opacities
              (rows.flatMap (samplesOf header.depth (header.width * count)))

/-- Reads the picture behind the signature. -/
def readBody (bytes : List UInt8) : Except Unreadable Picture :=
  match gather (bytes.length + 1) ⟨none, [], []⟩ bytes with
  | .error cause => .error cause
  | .ok (gathered, data) =>
    match gathered.header with
    | none => .error .noPicture
    | some header =>
      if ¬ header.isSound then .error .noPicture
      else if maxPixels < header.width * header.height then .error .tooLarge
      else
        match assemble? header gathered data with
        | some picture => .ok picture
        | none => .error .noPicture

end Receipt.Png
