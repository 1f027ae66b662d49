import Receipt.Convert
import Receipt.Proofs.Outcome

/-!
# A printer at the other end of the wire

A `Device` is what the commands of a receipt are sent to: a printer that knows nothing of the plan
and goes by the bytes alone. `Protocol.heed` reads the bytes of one command, `Device.obey` is what
they change, and `Device.imprints` is what they leave on the paper, each piece with the `Face` that
is in force. `Device.record` replays a whole list of commands.

A printer may come out of a reset in any face. `Device.resets` holds the face behind each later
reset, so a statement about every device is a statement about whatever a reset leaves behind;
`Device.steady` is the printer whose resets restore the plain face.

The main statements are the laws of `Protocol.order`: what is heard is what was meant.
-/

namespace Receipt

/-- The alignment, character size and weight that a printer prints in. -/
structure Face where
  align : Alignment
  size : CharSize
  bold : Bool
deriving DecidableEq, Repr

/-- What is sent at a time: text to print, or the bytes of a command. -/
inductive Signal where
  | text (bytes : List UInt8)
  | control (bytes : List UInt8)
deriving DecidableEq, Repr

/-- What a printer takes a signal for. -/
inductive Order where
  | reset
  | align (align : Alignment)
  /-- The print mode: a size together with a weight. -/
  | mode (size : CharSize) (bold : Bool)
  | weight (bold : Bool)
  | lineEnds (count : Nat)
  | text (bytes : List UInt8)
  | raster (rowBytes rows : Nat) (data : List UInt8)
  | symbol (functions : List UInt8)
  /-- Spacing, feeding and cutting, which change no face and leave nothing on a line. -/
  | other
deriving DecidableEq, Repr

/-- A piece of the printed receipt, in the face it was printed in. -/
inductive Imprint where
  | text (bytes : List UInt8) (face : Face)
  | lineEnd
  | raster (rowBytes rows : Nat) (data : List UInt8) (align : Alignment)
  | symbol (functions : List UInt8) (align : Alignment)
deriving DecidableEq, Repr

namespace Protocol

/-- The alignment that an operand selects. -/
def heedAlign (operand : UInt8) : Alignment :=
  if operand = 1 then .center else if operand = 2 then .right else .left

/-- The print mode in the bits of an operand: double width, double height, bold. -/
def heedMode (operand : UInt8) : Order :=
  .mode ⟨if operand &&& 0x20 = 0 then 1 else 2, if operand &&& 0x10 = 0 then 1 else 2⟩
    (operand &&& 0x08 != 0)

/-- The weight selected behind an escape: by an operand in one protocol, by two different commands
in the other. -/
def heedWeight (protocol : Protocol) (bytes : List UInt8) : Option Bool :=
  match protocol, bytes with
  | escPos, [0x45, operand] => some (operand &&& 1 != 0)
  | escBematech, [0x45] => some true
  | escBematech, [0x46] => some false
  | _, _ => none

/-- What a printer takes the bytes of a command for. -/
def heed (protocol : Protocol) : List UInt8 → Order
  | 0x1B :: 0x40 :: _ => .reset
  | [0x1B, 0x61, operand] => .align (heedAlign operand)
  | [0x1B, 0x21, operand] => heedMode operand
  | 0x1B :: rest =>
    match protocol.heedWeight rest with
    | some bold => .weight bold
    | none => .other
  | 0x1D :: 0x76 :: 0x30 :: _ :: xLow :: xHigh :: yLow :: yHigh :: data =>
    .raster (xLow.toNat + 256 * xHigh.toNat) (yLow.toNat + 256 * yHigh.toNat) data
  | 0x1D :: 0x28 :: 0x6B :: functions => .symbol functions
  | bytes => if bytes.all (· == 0x0A) then .lineEnds bytes.length else .other

/-- The signal of a command. -/
def signal (protocol : Protocol) : Command → Signal
  | .text content => .text (Codepage.encode content.toList)
  | command => .control (Printer.bytesOf protocol command)

/-- What a printer takes a command for, by its signal alone. -/
def order (protocol : Protocol) (command : Command) : Order :=
  match protocol.signal command with
  | .text bytes => .text bytes
  | .control bytes => protocol.heed bytes

end Protocol

namespace CharSize

/-- The sizes that the print mode can express. -/
def Printable (size : CharSize) : Prop :=
  (size.width = 1 ∨ size.width = 2) ∧ (size.height = 1 ∨ size.height = 2)

theorem printable_normal : normal.Printable := ⟨Or.inl rfl, Or.inl rfl⟩

theorem printable_clamp_largest (size : CharSize) : (clamp size largest).Printable := by
  unfold Printable clamp largest
  constructor <;> simp only <;> omega

end CharSize

namespace Protocol

open Outcome

variable (protocol : Protocol)

@[simp] theorem order_init : protocol.order .init = .reset := rfl

@[simp] theorem order_align (align : Alignment) :
    protocol.order (.align align) = .align align := by
  cases align <;> rfl

/-- The size bits and the bold bit of a print mode are read back as they were meant. -/
theorem order_characterSize {size : CharSize} (printable : size.Printable) (bold : Bool) :
    protocol.order (.characterSize size bold) = .mode size bold := by
  obtain ⟨width, height⟩ := size
  obtain ⟨rfl | rfl, rfl | rfl⟩ := printable <;> cases bold <;> rfl

@[simp] theorem order_emphasis (bold : Bool) :
    protocol.order (.emphasis bold) = .weight bold := by
  cases protocol <;> cases bold <;> rfl

@[simp] theorem order_lineSpacing (dots : Option Int) :
    protocol.order (.lineSpacing dots) = .other := by
  cases dots <;> cases protocol <;> rfl

@[simp] theorem order_text (content : String) :
    protocol.order (.text content) = .text (Codepage.encode content.toList) := rfl

@[simp] theorem order_lineFeed (lines : Int) :
    protocol.order (.lineFeed lines) = .lineEnds lines.toNat := by
  show protocol.heed (lineFeeds lines) = .lineEnds lines.toNat
  unfold lineFeeds
  cases lines.toNat with
  | zero => rfl
  | succ count =>
    rw [List.replicate_succ]
    simp [heed]

/-- A header field that a protocol accepts has two bytes. -/
theorem headerField_ok {n : Int} {bytes : List UInt8} (ok : protocol.headerField n = .ok bytes) :
    bytes = [UInt8.ofNat (n % 256).toNat, UInt8.ofNat (n / 256 % 256).toNat] := by
  unfold headerField at ok
  split at ok
  · cases ok
  · exact (Except.ok.inj ok).symm

/-- The bytes of a bitmap that a protocol accepts: a header of eight bytes, then the data. -/
theorem rasterBytes_ok {data bytes : List UInt8} {width height : Int}
    (ok : protocol.rasterBytes data width height = .ok bytes) :
    bytes = [0x1D, 0x76, 0x30, 0x00,
      UInt8.ofNat ((width + 7) / 8 % 256).toNat, UInt8.ofNat ((width + 7) / 8 / 256 % 256).toNat,
      UInt8.ofNat (height % 256).toNat, UInt8.ofNat (height / 256 % 256).toNat] ++ data := by
  unfold rasterBytes at ok
  simp only at ok
  split at ok
  · cases ok
  · obtain ⟨across, acrossOk, ok⟩ := bind_eq_ok_iff.1 ok
    obtain ⟨down, downOk, ok⟩ := bind_eq_ok_iff.1 ok
    rw [protocol.headerField_ok acrossOk, protocol.headerField_ok downOk] at ok
    exact (Except.ok.inj ok).symm

/-- The two bytes of a header field hold a number up to its sixteenth bit. -/
theorem headerField_value (n : Int) :
    (UInt8.ofNat (n % 256).toNat).toNat + 256 * (UInt8.ofNat (n / 256 % 256).toNat).toNat =
      (n % 65536).toNat := by
  have low : (n % 256).toNat < 256 := by omega
  have high : (n / 256 % 256).toNat < 256 := by omega
  rw [UInt8.toNat_ofNat_of_lt' low, UInt8.toNat_ofNat_of_lt' high]
  omega

/-- What a printer hears of a bitmap does not hang on the protocol that accepted it. -/
theorem order_raster {data bytes : List UInt8} {width height : Int}
    (ok : protocol.encode (.raster data width height) = .ok bytes) :
    protocol.order (.raster data width height) =
      .raster ((width + 7) / 8 % 65536).toNat (height % 65536).toNat data := by
  show protocol.heed (Printer.bytesOf protocol (.raster data width height)) = _
  unfold Printer.bytesOf
  rw [ok, ← headerField_value, ← headerField_value]
  rw [protocol.rasterBytes_ok (show protocol.rasterBytes data width height = .ok bytes from ok)]
  rfl

/-- Only one protocol accepts symbols. -/
theorem eq_escPos_of_symbol_ok {data : String} {size : Int} {bytes : List UInt8}
    (ok : protocol.encode (.symbol data size) = .ok bytes) : protocol = .escPos := by
  cases protocol with
  | escPos => rfl
  | escBematech => cases ok

/-- A symbol that a protocol accepts is heard as one. -/
theorem order_symbol {data : String} {size : Int} {bytes : List UInt8}
    (ok : protocol.encode (.symbol data size) = .ok bytes) :
    protocol.order (.symbol data size) = .symbol (bytes.drop 3) := by
  show protocol.heed (Printer.bytesOf protocol (.symbol data size)) = _
  unfold Printer.bytesOf
  rw [ok]
  obtain rfl := protocol.eq_escPos_of_symbol_ok ok
  have framed : ∃ rest, bytes = 0x1D :: 0x28 :: 0x6B :: rest := by
    simp only [encode] at ok
    split at ok
    · rename_i encoded made
      obtain rfl := Except.ok.inj ok
      unfold Symbol.encode at made
      simp only at made
      split at made
      · cases made
      · exact ⟨_, (Except.ok.inj made).symm⟩
    · cases ok
  obtain ⟨rest, rfl⟩ := framed
  rfl

end Protocol

/-- A printer: the face it prints in, and the face that each later reset leaves it in. -/
structure Device where
  face : Face
  resets : Nat → Face

namespace Face

/-- The face of a printer that has just been switched on. -/
def plain : Face := ⟨.left, .normal, false⟩

end Face

namespace Device

/-- The printer that starts, and comes out of every reset, in the plain face. -/
def steady : Device := ⟨.plain, fun _ => .plain⟩

/-- The same printer in another face. -/
def wearing (device : Device) (face : Face) : Device := { device with face := face }

/-- The printer behind an order. -/
def obey (device : Device) : Order → Device
  | .reset => ⟨device.resets 0, fun later => device.resets (later + 1)⟩
  | .align align => device.wearing { device.face with align := align }
  | .mode size bold => device.wearing ⟨device.face.align, size, bold⟩
  | .weight bold => device.wearing { device.face with bold := bold }
  | .lineEnds _ | .text _ | .raster .. | .symbol _ | .other => device

/-- What an order leaves on the paper. -/
def imprints (device : Device) : Order → List Imprint
  | .text bytes => [.text bytes device.face]
  | .lineEnds count => List.replicate count .lineEnd
  | .raster rowBytes rows data => [.raster rowBytes rows data device.face.align]
  | .symbol functions => [.symbol functions device.face.align]
  | .reset | .align _ | .mode .. | .weight _ | .other => []

/-- The printer behind commands that were sent in a protocol. -/
def after (protocol : Protocol) (device : Device) (commands : List Command) : Device :=
  commands.foldl (fun device command => device.obey (protocol.order command)) device

/-- What commands leave on the paper. -/
def record (protocol : Protocol) (device : Device) : List Command → List Imprint
  | [] => []
  | command :: commands =>
    device.imprints (protocol.order command) ++
      record protocol (device.obey (protocol.order command)) commands

variable {protocol : Protocol} {device : Device}

@[simp] theorem after_nil : device.after protocol [] = device := rfl

@[simp] theorem after_cons (command : Command) (commands : List Command) :
    device.after protocol (command :: commands) =
      (device.obey (protocol.order command)).after protocol commands := rfl

theorem after_append (first second : List Command) :
    device.after protocol (first ++ second) =
      (device.after protocol first).after protocol second :=
  List.foldl_append

theorem record_append (first second : List Command) :
    device.record protocol (first ++ second) =
      device.record protocol first ++ (device.after protocol first).record protocol second := by
  induction first generalizing device with
  | nil => rfl
  | cons command commands ih =>
    simp only [List.cons_append, record, after_cons, ih, List.append_assoc]

/-- Commands that leave nothing on the paper one by one leave nothing together. -/
theorem record_eq_nil {commands : List Command}
    (silent : ∀ command ∈ commands, ∀ device : Device,
      device.imprints (protocol.order command) = []) :
    device.record protocol commands = [] := by
  induction commands generalizing device with
  | nil => rfl
  | cons command commands ih =>
    rw [record, silent command (List.mem_cons_self ..), List.nil_append]
    exact ih fun later member => silent later (List.mem_cons_of_mem _ member)

/-- Text and line ends change no face. -/
@[simp] theorem after_lineCommands (line : String) :
    device.after protocol (Printer.lineCommands line) = device := by
  unfold Printer.lineCommands
  split
  · simp [obey]
  · simp [obey]

theorem after_flatMap_lineCommands (lines : List String) :
    device.after protocol (lines.flatMap Printer.lineCommands) = device := by
  induction lines with
  | nil => rfl
  | cons line lines ih => rw [List.flatMap_cons, after_append, after_lineCommands, ih]

end Device

end Receipt
