import Receipt.Proofs.PrintedLine
import Receipt.Proofs.Raster

/-!
# Splitting what is sent

What is sent to a printer has a grammar of its own. ESC and GS start a command, with as many operands
as its function takes or as its header tells; LF ends a line; every other byte is printed.
`Protocol.read` splits a stream by this grammar and knows nothing else of what was sent.

`Protocol.read_eq_some_iff` says what reading comes to: a stream is split into the tokens whose bytes
it is made of, provided that each of them is `Framed`. `Command.flatMap_bytes_tokens` gives the tokens
that the bytes of a command are made of, and `Command.framed_tokens_iff` says when they are framed:
those of a text as long as it has no byte that starts a command or ends a line, those of a bitmap as
long as its size fits its header, and all others always.
-/

namespace Receipt

/-- What a stream is split into. -/
inductive Token where
  /-- A command behind an escape, with its operands. -/
  | escape (function : UInt8) (operands : List UInt8)
  | raster (frame : RasterFrame)
  /-- One of the functions that print a symbol, with its operands. -/
  | symbol (operands : List UInt8)
  | lineFeed
  /-- A byte that is printed. -/
  | printed (byte : UInt8)

namespace Protocol

/-- How many operands a function behind an escape takes. -/
def operandCount? : Protocol → UInt8 → Option Nat
  | _, 0x40 | _, 0x32 | _, 0x69 => some 0
  | _, 0x74 | _, 0x61 | _, 0x21 | _, 0x33 => some 1
  | escPos, 0x45 | escPos, 0x64 => some 1
  | escPos, 0x6D | escBematech, 0x45 | escBematech, 0x46 => some 0
  | _, _ => none

end Protocol

namespace Token

/-- The bytes of a token. The numbers in a header are cut to sixteen bits. -/
def bytes : Token → List UInt8
  | escape function operands => 0x1B :: function :: operands
  | raster frame =>
    [0x1D, 0x76, 0x30, 0x00] ++ Symbol.littleEndian frame.rowBytes ++
      Symbol.littleEndian frame.rows ++ frame.data
  | symbol operands => [0x1D, 0x28, 0x6B] ++ Symbol.littleEndian operands.length ++ operands
  | lineFeed => [0x0A]
  | printed byte => [byte]

/-- The bytes of a token tell its end, and what it is. -/
def Framed (protocol : Protocol) : Token → Prop
  | escape function operands => protocol.operandCount? function = some operands.length
  | raster frame =>
    frame.rowBytes < 65536 ∧ frame.rows < 65536 ∧ frame.data.length = frame.rowBytes * frame.rows
  | symbol operands => operands.length < 65536
  | lineFeed => True
  | printed byte => byte ≠ 0x1B ∧ byte ≠ 0x1D ∧ byte ≠ 0x0A

end Token

/-! ## Reading -/

/-- The first bytes of a stream and what follows them, when there are as many. -/
def splitOff? (count : Nat) (stream : List UInt8) : Option (List UInt8 × List UInt8) :=
  if stream.length < count then none else some (stream.take count, stream.drop count)

/-- Reads the function of a symbol off a stream. -/
def readFunction? : List UInt8 → Option (List UInt8 × List UInt8)
  | 0x1D :: 0x28 :: 0x6B :: low :: high :: stream =>
    splitOff? (low.toNat + 256 * high.toNat) stream
  | _ => none

namespace Protocol

/-- Reads the function behind an escape off a stream, with its operands. -/
def readEscape? (protocol : Protocol) : List UInt8 → Option (Token × List UInt8)
  | [] => none
  | function :: stream => do
    let count ← protocol.operandCount? function
    let (operands, rest) ← splitOff? count stream
    return (.escape function operands, rest)

/-- Reads a token off a stream; none when a command has no end, or is none that the protocol
uses. -/
def readToken? (protocol : Protocol) : List UInt8 → Option (Token × List UInt8)
  | [] => none
  | byte :: stream =>
    if byte = 0x1B then protocol.readEscape? stream
    else if byte = 0x1D then
      ((readRaster? (byte :: stream)).map fun (frame, rest) => (.raster frame, rest)).or
        ((readFunction? (byte :: stream)).map fun (operands, rest) => (.symbol operands, rest))
    else if byte = 0x0A then some (.lineFeed, stream)
    else some (.printed byte, stream)

end Protocol

theorem splitOff?_append (first rest : List UInt8) :
    splitOff? first.length (first ++ rest) = some (first, rest) := by
  unfold splitOff?
  rw [if_neg (by rw [List.length_append]; omega), List.take_left, List.drop_left]

theorem eq_append_of_splitOff? {count : Nat} {stream first rest : List UInt8}
    (read : splitOff? count stream = some (first, rest)) :
    stream = first ++ rest ∧ first.length = count := by
  unfold splitOff? at read
  split at read
  · cases read
  · obtain ⟨rfl, rfl⟩ := Prod.mk.inj (Option.some.inj read)
    refine ⟨(List.take_append_drop count stream).symm, ?_⟩
    rw [List.length_take]
    omega

namespace Symbol

/-- The two bytes of a number hold it, as long as it has no more than sixteen bits. -/
theorem littleEndian_value {n : Nat} (fits : n < 65536) :
    (UInt8.ofNat (n % 256)).toNat + 256 * (UInt8.ofNat (n / 256 % 256)).toNat = n := by
  have lower : n % 256 < 256 := by omega
  have upper : n / 256 % 256 < 256 := by omega
  rw [UInt8.toNat_ofNat_of_lt' lower, UInt8.toNat_ofNat_of_lt' upper]
  omega

theorem littleEndian_of_value (low high : UInt8) :
    littleEndian (low.toNat + 256 * high.toNat) = [low, high] := by
  have first := low.toNat_lt
  have second := high.toNat_lt
  have lower : (low.toNat + 256 * high.toNat) % 256 = low.toNat := by omega
  have upper : (low.toNat + 256 * high.toNat) / 256 % 256 = high.toNat := by omega
  unfold littleEndian
  rw [lower, upper, UInt8.ofNat_toNat, UInt8.ofNat_toNat]

end Symbol

namespace Token

variable {protocol : Protocol}

theorem readRaster?_bytes {frame : RasterFrame} (framed : (raster frame).Framed protocol)
    (rest : List UInt8) : readRaster? ((raster frame).bytes ++ rest) = some (frame, rest) := by
  obtain ⟨across, down, size⟩ := framed
  have split := splitOff?_append frame.data rest
  unfold splitOff? at split
  unfold bytes Symbol.littleEndian readRaster?
  simp only [List.cons_append, List.nil_append, Symbol.littleEndian_value across,
    Symbol.littleEndian_value down, ← size]
  split at split
  · cases split
  · next enough =>
    rw [if_neg enough]
    obtain ⟨same, behind⟩ := Prod.mk.inj (Option.some.inj split)
    rw [same, behind]

theorem eq_append_of_readRaster? {stream rest : List UInt8} {frame : RasterFrame}
    (read : readRaster? stream = some (frame, rest)) :
    stream = (raster frame).bytes ++ rest ∧ (raster frame).Framed protocol := by
  unfold readRaster? at read
  split at read
  · next xLow xHigh yLow yHigh stream =>
    simp only at read
    split at read
    · cases read
    · next enough =>
      obtain ⟨rfl, rfl⟩ := Prod.mk.inj (Option.some.inj read)
      have across := xLow.toNat_lt
      have acrossHigh := xHigh.toNat_lt
      have down := yLow.toNat_lt
      have downHigh := yHigh.toNat_lt
      constructor
      · rw [bytes, Symbol.littleEndian_of_value, Symbol.littleEndian_of_value, List.append_assoc,
          List.take_append_drop]
        rfl
      · refine ⟨?_, ?_, ?_⟩
        · show xLow.toNat + 256 * xHigh.toNat < 65536
          omega
        · show yLow.toNat + 256 * yHigh.toNat < 65536
          omega
        · rw [List.length_take]
          exact Nat.min_eq_left (Nat.le_of_not_lt enough)
  · cases read

theorem readFunction?_bytes {operands : List UInt8} (fits : operands.length < 65536)
    (rest : List UInt8) : readFunction? ((symbol operands).bytes ++ rest) = some (operands, rest) := by
  unfold bytes Symbol.littleEndian readFunction?
  simp only [List.cons_append, List.nil_append]
  rw [Symbol.littleEndian_value fits, splitOff?_append]

theorem eq_append_of_readFunction? {stream operands rest : List UInt8}
    (read : readFunction? stream = some (operands, rest)) :
    stream = (symbol operands).bytes ++ rest ∧ (symbol operands).Framed protocol := by
  unfold readFunction? at read
  split at read
  · next low high stream =>
    obtain ⟨rfl, size⟩ := eq_append_of_splitOff? read
    have lower := low.toNat_lt
    have upper := high.toNat_lt
    constructor
    · rw [bytes, size, Symbol.littleEndian_of_value]
      rfl
    · show operands.length < 65536
      omega
  · cases read

/-- A framed token is read off every stream that begins with its bytes. -/
theorem readToken?_bytes {token : Token} (framed : token.Framed protocol) (rest : List UInt8) :
    protocol.readToken? (token.bytes ++ rest) = some (token, rest) := by
  cases token with
  | escape function operands =>
    have count : protocol.operandCount? function = some operands.length := framed
    show protocol.readEscape? (function :: (operands ++ rest)) = _
    rw [Protocol.readEscape?, count]
    show (splitOff? operands.length (operands ++ rest)).bind _ = _
    rw [splitOff?_append]
    rfl
  | raster frame =>
    have read := readRaster?_bytes framed rest
    show ((readRaster? ((raster frame).bytes ++ rest)).map _).or _ = _
    rw [read]
    rfl
  | symbol operands =>
    show (readFunction? ((symbol operands).bytes ++ rest)).map _ = _
    rw [readFunction?_bytes framed rest]
    rfl
  | lineFeed => rfl
  | printed byte =>
    obtain ⟨noEscape, noGroup, noFeed⟩ := framed
    show protocol.readToken? (byte :: rest) = _
    rw [Protocol.readToken?, if_neg noEscape, if_neg noGroup, if_neg noFeed]

/-- What is read off a stream are the bytes of a framed token. -/
theorem eq_append_of_readToken? {token : Token} {stream rest : List UInt8}
    (read : protocol.readToken? stream = some (token, rest)) :
    stream = token.bytes ++ rest ∧ token.Framed protocol := by
  cases stream with
  | nil => cases read
  | cons byte stream =>
    rw [Protocol.readToken?] at read
    split at read
    · next escapes =>
      subst escapes
      cases stream with
      | nil => cases read
      | cons function stream =>
        rw [Protocol.readEscape?] at read
        obtain ⟨count, known, read⟩ := Option.bind_eq_some_iff.1 read
        obtain ⟨⟨operands, behind⟩, split, read⟩ := Option.bind_eq_some_iff.1 read
        obtain ⟨rfl, rfl⟩ := Prod.mk.inj (Option.some.inj read)
        obtain ⟨rfl, rfl⟩ := eq_append_of_splitOff? split
        exact ⟨rfl, known⟩
    · split at read
      · rcases Option.or_eq_some_iff.1 read with bitmap | ⟨_, function⟩
        · obtain ⟨⟨frame, behind⟩, found, same⟩ := Option.map_eq_some_iff.1 bitmap
          obtain ⟨rfl, rfl⟩ := Prod.mk.inj same
          exact eq_append_of_readRaster? found
        · obtain ⟨⟨operands, behind⟩, found, same⟩ := Option.map_eq_some_iff.1 function
          obtain ⟨rfl, rfl⟩ := Prod.mk.inj same
          exact eq_append_of_readFunction? found
      · split at read
        · next feeds =>
          obtain ⟨rfl, rfl⟩ := Prod.mk.inj (Option.some.inj read)
          exact ⟨by rw [feeds]; rfl, trivial⟩
        · obtain ⟨rfl, rfl⟩ := Prod.mk.inj (Option.some.inj read)
          exact ⟨rfl, by assumption, by assumption, by assumption⟩

theorem bytes_ne_nil (token : Token) : token.bytes ≠ [] := by
  cases token <;> exact List.cons_ne_nil _ _

end Token

namespace Protocol

/-- The tokens of a stream; none when a command in it has no end, or is none that the protocol
uses. -/
def read (protocol : Protocol) : List UInt8 → Option (List Token)
  | [] => some []
  | byte :: stream =>
    match _first : protocol.readToken? (byte :: stream) with
    | none => none
    | some (token, rest) => (read protocol rest).map (token :: ·)
termination_by stream => stream.length
decreasing_by
  rw [(Token.eq_append_of_readToken? _first).1, List.length_append]
  have some := List.length_pos_iff.2 token.bytes_ne_nil
  omega

theorem read_of_readToken? {protocol : Protocol} {stream rest : List UInt8} {token : Token}
    (first : protocol.readToken? stream = some (token, rest)) :
    protocol.read stream = (protocol.read rest).map (token :: ·) := by
  cases stream with
  | nil => cases first
  | cons byte stream =>
    rw [read]
    split
    · next none =>
      rw [first] at none
      cases none
    · next found =>
      rw [first] at found
      obtain ⟨rfl, rfl⟩ := Prod.mk.inj (Option.some.inj found)
      rfl

/-- A stream is split into the tokens whose bytes it is made of, provided that all are framed. -/
theorem read_eq_some_iff {protocol : Protocol} {stream : List UInt8} {tokens : List Token} :
    protocol.read stream = some tokens ↔
      stream = tokens.flatMap Token.bytes ∧ ∀ token ∈ tokens, token.Framed protocol := by
  constructor
  · intro made
    fun_induction read protocol stream generalizing tokens with
    | case1 =>
      obtain rfl := Option.some.inj made
      exact ⟨rfl, fun token member => by cases member⟩
    | case2 byte stream none => cases made
    | case3 byte stream token rest first ih =>
      obtain ⟨later, split, rfl⟩ := Option.map_eq_some_iff.1 made
      obtain ⟨same, framed⟩ := Token.eq_append_of_readToken? first
      obtain ⟨behind, others⟩ := ih split
      rw [same, List.flatMap_cons, ← behind]
      exact ⟨rfl, List.forall_mem_cons.2 ⟨framed, others⟩⟩
  · rintro ⟨rfl, framed⟩
    induction tokens with
    | nil => rw [List.flatMap_nil, read]
    | cons token tokens ih =>
      obtain ⟨own, others⟩ := List.forall_mem_cons.1 framed
      have first := Token.readToken?_bytes own (tokens.flatMap Token.bytes)
      rw [List.flatMap_cons, read_of_readToken? first, ih others]
      rfl

end Protocol

/-! ## The tokens of a command -/

namespace Codepage

/-- The characters that a printer takes for the beginning of a command: ESC and GS. -/
def StartsCommand (c : Char) : Prop := c = '\x1b' ∨ c = '\x1d'

instance (c : Char) : Decidable (StartsCommand c) :=
  inferInstanceAs (Decidable (c = '\x1b' ∨ c = '\x1d'))

/-- No character that lacks a byte, and none of the upper half, is printed as one of them. -/
theorem startsCommand_iff {c : Char} :
    StartsCommand c ↔ printedByte c = 0x1B ∨ printedByte c = 0x1D := by
  rw [printedByte_eq_iff (by decide) (by decide) (by decide),
    printedByte_eq_iff (by decide) (by decide) (by decide)]
  unfold StartsCommand
  rw [← Char.toNat_inj, ← Char.toNat_inj]
  rfl

end Codepage

namespace Symbol

/-- The functions that print a payload, each with its operands. -/
def tokens (data : String) (size : Int) : List Token :=
  [.symbol [0x31, 0x41, 0x32, 0x00], .symbol [0x31, 0x43, UInt8.ofNat (moduleSize size).toNat],
    .symbol [0x31, 0x45, 0x31], .symbol (0x31 :: 0x50 :: 0x30 :: payloadBytes data),
    .symbol [0x31, 0x51, 0x30]]

end Symbol

namespace Protocol

/-- A feed of paper. -/
def feedTokens (protocol : Protocol) (lines : Int) : List Token :=
  match protocol with
  | escPos => if lines ≤ 0 then [] else [.escape 0x64 [UInt8.ofNat (min lines 255).toNat]]
  | escBematech => List.replicate lines.toNat .lineFeed

end Protocol

namespace Command

/-- What a command is meant to be read as: its functions with their operands, its line ends, or the
bytes of its characters. -/
def tokens (protocol : Protocol) : Command → List Token
  | init => [.escape 0x40 [], .escape 0x74 [protocol.codeTable]]
  | align side => [.escape 0x61 [Protocol.alignByte side]]
  | characterSize size bold => [.escape 0x21 [Protocol.modeByte size bold]]
  | emphasis bold =>
    match protocol with
    | .escPos => [.escape 0x45 [if bold then 1 else 0]]
    | .escBematech => [.escape (if bold then 0x45 else 0x46) []]
  | lineSpacing none => [.escape 0x32 []]
  | lineSpacing (some dots) => [.escape 0x33 [protocol.spacingByte dots]]
  | text content => (Codepage.encode content.toList).map .printed
  | lineFeed lines => List.replicate lines.toNat .lineFeed
  | feed lines => protocol.feedTokens lines
  | raster bytes width height => [.raster ⟨((width + 7) / 8).toNat, height.toNat, bytes⟩]
  | symbol data size => Symbol.tokens data size
  | cut kind lines =>
    protocol.feedTokens lines ++
      match protocol, kind with
      | .escPos, .part => [.escape 0x6D []]
      | .escPos, .full | .escBematech, _ => [.escape 0x69 []]

/-- A bitmap has a size. -/
def Sized : Command → Prop
  | raster _ width height => 0 ≤ width ∧ 0 ≤ height
  | _ => True

/-- A text without a character that starts a command or ends a line, a bitmap whose size fits its
header, or any other command. -/
def Separable : Command → Prop
  | text content => ∀ c ∈ content.toList, ¬ Codepage.StartsCommand c ∧ c ≠ '\n'
  | raster _ width height => (width + 7) / 8 < 65536 ∧ height < 65536
  | _ => True

end Command

theorem flatMap_bytes_lineFeeds (count : Nat) :
    (List.replicate count Token.lineFeed).flatMap Token.bytes = List.replicate count 0x0A := by
  induction count with
  | zero => rfl
  | succ count ih =>
    rw [List.replicate_succ, List.replicate_succ, List.flatMap_cons, ih]
    rfl

theorem flatMap_bytes_printed (bytes : List UInt8) :
    (bytes.map Token.printed).flatMap Token.bytes = bytes := by
  induction bytes with
  | nil => rfl
  | cons byte bytes ih =>
    rw [List.map_cons, List.flatMap_cons, ih]
    rfl

theorem flatMap_bytes_feedTokens (protocol : Protocol) (lines : Int) :
    (protocol.feedTokens lines).flatMap Token.bytes = protocol.feedBytes lines := by
  unfold Protocol.feedTokens Protocol.feedBytes
  cases protocol with
  | escPos =>
    simp only
    split
    · rfl
    · rfl
  | escBematech => exact flatMap_bytes_lineFeeds lines.toNat

theorem bytes_symbol (function : UInt8) (operands : List UInt8) :
    (Token.symbol (0x31 :: function :: operands)).bytes = Symbol.frame function operands := by
  unfold Symbol.frame
  rw [Token.bytes, List.append_assoc, List.append_assoc, List.append_assoc]
  rfl

/-- The functions of a symbol are sent unless the frame of its payload cannot carry the length. -/
theorem Symbol.encode_eq (data : String) (size : Int) :
    encode data size =
      if maxPayload < (payloadBytes data).length then .error (payloadBytes data).length
      else .ok ((tokens data size).flatMap Token.bytes) := by
  unfold encode tokens
  simp only [List.flatMap_cons, List.flatMap_nil, List.append_nil, bytes_symbol, List.append_assoc]

/-- A symbol that is printed has a payload that fits a frame. -/
theorem Symbol.encode_eq_ok {data : String} {size : Int} {bytes : List UInt8}
    (taken : Protocol.escPos.encode (.symbol data size) = .ok bytes) :
    (payloadBytes data).length ≤ maxPayload ∧
      bytes = (tokens data size).flatMap Token.bytes := by
  unfold Protocol.encode at taken
  simp only [encode_eq] at taken
  by_cases long : maxPayload < (payloadBytes data).length
  · rw [if_pos long] at taken
    cases taken
  · rw [if_neg long] at taken
    exact ⟨Nat.le_of_not_lt long, (Except.ok.inj taken).symm⟩

theorem littleEndian_toNat {n : Int} (nonneg : 0 ≤ n) :
    Symbol.littleEndian n.toNat =
      [UInt8.ofNat (n % 256).toNat, UInt8.ofNat (n / 256 % 256).toNat] := by
  have lower : n.toNat % 256 = (n % 256).toNat := by omega
  have upper : n.toNat / 256 % 256 = (n / 256 % 256).toNat := by omega
  unfold Symbol.littleEndian
  rw [lower, upper]

/-- The bytes of a command are those of its tokens. -/
theorem Command.flatMap_bytes_tokens {protocol : Protocol} {command : Command} (sized : command.Sized)
    {bytes : List UInt8} (taken : protocol.encode command = .ok bytes) :
    (command.tokens protocol).flatMap Token.bytes = bytes := by
  cases command with
  | init => exact Except.ok.inj taken
  | align side => exact Except.ok.inj taken
  | characterSize size bold => exact Except.ok.inj taken
  | emphasis bold =>
    cases protocol with
    | escPos => exact Except.ok.inj taken
    | escBematech => exact Except.ok.inj taken
  | lineSpacing dots =>
    cases dots with
    | none => exact Except.ok.inj taken
    | some dots => exact Except.ok.inj taken
  | text content =>
    rw [← Except.ok.inj taken]
    exact flatMap_bytes_printed _
  | lineFeed lines =>
    rw [← Except.ok.inj taken]
    exact flatMap_bytes_lineFeeds _
  | feed lines =>
    rw [← Except.ok.inj taken]
    exact flatMap_bytes_feedTokens protocol lines
  | raster data width height =>
    obtain ⟨across, down⟩ := sized
    have rows : 0 ≤ (width + 7) / 8 := by omega
    rw [protocol.rasterBytes_ok (show protocol.rasterBytes data width height = .ok bytes from taken)]
    unfold tokens
    rw [List.flatMap_singleton, Token.bytes, littleEndian_toNat rows, littleEndian_toNat down]
    rfl
  | symbol data size =>
    obtain rfl := protocol.eq_escPos_of_symbol_ok taken
    exact (Symbol.encode_eq_ok taken).2.symm
  | cut kind lines =>
    rw [← Except.ok.inj taken]
    unfold Command.tokens
    rw [List.flatMap_append, flatMap_bytes_feedTokens]
    cases protocol with
    | escPos => cases kind <;> rfl
    | escBematech => rfl

theorem framed_feedTokens (protocol : Protocol) (lines : Int) :
    ∀ token ∈ protocol.feedTokens lines, token.Framed protocol := by
  intro token member
  unfold Protocol.feedTokens at member
  cases protocol with
  | escPos =>
    simp only at member
    split at member
    · cases member
    · rw [List.mem_singleton.1 member]
      rfl
  | escBematech =>
    rw [List.eq_of_mem_replicate member]
    trivial

theorem framed_printed_iff {protocol : Protocol} (c : Char) :
    (Token.printed (Codepage.printedByte c)).Framed protocol ↔
      ¬ Codepage.StartsCommand c ∧ c ≠ '\n' := by
  have feeds : Codepage.printedByte c = 0x0A ↔ c = '\n' := by
    rw [Codepage.printedByte_eq_iff (by decide) (by decide) (by decide), ← Char.toNat_inj]
    rfl
  show _ ≠ _ ∧ _ ≠ _ ∧ _ ≠ _ ↔ _
  rw [Codepage.startsCommand_iff, not_or, and_assoc, ne_eq c, ← feeds]

/-- A bitmap that a protocol takes has as many bytes as its size asks for. -/
theorem Protocol.length_of_rasterBytes {protocol : Protocol} {data bytes : List UInt8}
    {width height : Int} (taken : protocol.rasterBytes data width height = .ok bytes) :
    (data.length : Int) = (width + 7) / 8 * height := by
  unfold rasterBytes at taken
  simp only at taken
  split at taken
  · cases taken
  · next same => exact not_not.1 same

/-- One protocol takes no bitmap whose size does not fit its header. -/
theorem Protocol.fits_of_rasterBytes {data bytes : List UInt8} {width height : Int}
    (taken : escBematech.rasterBytes data width height = .ok bytes) :
    (width + 7) / 8 < 65536 ∧ height < 65536 := by
  have fits {n : Int} {field : List UInt8} (ok : escBematech.headerField n = .ok field) :
      n < 65536 := by
    unfold headerField at ok
    split at ok
    · cases ok
    · next small =>
      rw [not_and, not_or] at small
      exact not_le.1 (small rfl).2
  unfold rasterBytes at taken
  simp only at taken
  split at taken
  · cases taken
  · obtain ⟨across, acrossOk, taken⟩ := Outcome.bind_eq_ok_iff.1 taken
    obtain ⟨down, downOk, _⟩ := Outcome.bind_eq_ok_iff.1 taken
    exact ⟨fits acrossOk, fits downOk⟩

/-- Of the commands that a protocol takes, the separable ones are made of framed tokens, and no
others. -/
theorem Command.framed_tokens_iff {protocol : Protocol} {command : Command} (sized : command.Sized)
    {bytes : List UInt8} (taken : protocol.encode command = .ok bytes) :
    (∀ token ∈ command.tokens protocol, token.Framed protocol) ↔ command.Separable := by
  have escape {function : UInt8} {operands : List UInt8}
      (known : protocol.operandCount? function = some operands.length) :
      ∀ token ∈ [Token.escape function operands], token.Framed protocol := by
    intro token member
    rw [List.mem_singleton.1 member]
    exact known
  cases command with
  | init =>
    refine iff_of_true (List.forall_mem_cons.2 ⟨?_, escape ?_⟩) trivial
    · cases protocol <;> rfl
    · cases protocol <;> rfl
  | align side => exact iff_of_true (escape (by cases protocol <;> rfl)) trivial
  | characterSize size bold => exact iff_of_true (escape (by cases protocol <;> rfl)) trivial
  | emphasis bold =>
    refine iff_of_true ?_ trivial
    cases protocol with
    | escPos => exact escape rfl
    | escBematech => exact escape (by cases bold <;> rfl)
  | lineSpacing dots =>
    refine iff_of_true ?_ trivial
    cases dots with
    | none => exact escape (by cases protocol <;> rfl)
    | some dots => exact escape (by cases protocol <;> rfl)
  | text content =>
    show (∀ token ∈ (Codepage.encode content.toList).map Token.printed, _) ↔ _
    unfold Codepage.encode
    rw [List.map_map, List.forall_mem_map]
    exact forall₂_congr fun c _ => framed_printed_iff c
  | lineFeed lines =>
    refine iff_of_true (fun token member => ?_) trivial
    rw [List.eq_of_mem_replicate member]
    trivial
  | feed lines => exact iff_of_true (framed_feedTokens protocol lines) trivial
  | raster data width height =>
    obtain ⟨across, down⟩ := sized
    have whole : (data.length : Int) = (width + 7) / 8 * height :=
      Protocol.length_of_rasterBytes taken
    have size : data.length = ((width + 7) / 8).toNat * height.toNat := by
      have rows : (0 : Int) ≤ (width + 7) / 8 := by omega
      rw [← Int.toNat_mul rows down, ← whole, Int.toNat_natCast]
    show (∀ token ∈ [Token.raster _], token.Framed protocol) ↔ _
    rw [List.forall_mem_singleton]
    show _ < _ ∧ _ < _ ∧ _ = _ ↔ _ < _ ∧ _ < _
    simp only [size, and_true]
    omega
  | symbol data size =>
    obtain rfl := protocol.eq_escPos_of_symbol_ok taken
    have fits : (Symbol.payloadBytes data).length ≤ 65532 := (Symbol.encode_eq_ok taken).1
    refine iff_of_true ?_ trivial
    show ∀ token ∈ Symbol.tokens data size, _
    unfold Symbol.tokens
    simp only [List.forall_mem_cons, List.not_mem_nil, false_implies, implies_true, and_true,
      Token.Framed, List.length_cons, List.length_nil]
    omega
  | cut kind lines =>
    refine iff_of_true (List.forall_mem_append.2 ⟨framed_feedTokens protocol lines, ?_⟩) trivial
    cases protocol with
    | escPos => cases kind <;> exact escape rfl
    | escBematech => exact escape rfl

end Receipt
