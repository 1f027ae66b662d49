/-!
# Framing symbols

A printer draws a two-dimensional symbol itself; it is sent five functions, each in a frame of its
own: the model, the module size, the error correction level, the payload and the order to print. A
frame carries the length of what follows in two bytes, so a payload that does not fit is refused.
-/

namespace Receipt.Symbol

/-- The two bytes of a number, lower one first. -/
def littleEndian (n : Nat) : List UInt8 := [UInt8.ofNat (n % 256), UInt8.ofNat (n / 256 % 256)]

/-- The frame of one function with its operands. -/
def frame (function : UInt8) (operands : List UInt8) : List UInt8 :=
  [0x1D, 0x28, 0x6B] ++ littleEndian (operands.length + 2) ++ [0x31, function] ++ operands

/-- A module size within the printer's limits. -/
def moduleSize (size : Int) : Int := max 1 (min 16 size)

/-- The bytes of a payload. -/
def payloadBytes (data : String) : List UInt8 := data.toUTF8.toList

/-- The largest payload whose frame can carry its length. -/
def maxPayload : Nat := 65532

/-- The functions that print a payload, or the number of its bytes when they are too many. -/
def encode (data : String) (size : Int) : Except Nat (List UInt8) :=
  let payload := payloadBytes data
  if maxPayload < payload.length then .error payload.length
  else
    .ok (frame 0x41 [0x32, 0x00] ++ frame 0x43 [UInt8.ofNat (moduleSize size).toNat] ++
      frame 0x45 [0x31] ++ frame 0x50 (0x30 :: payload) ++ frame 0x51 [0x30])

/-- The text about a payload that is too long. -/
def tooLongMessage (length : Nat) : String :=
  "QR payload too large (" ++ toString length ++ " bytes)"

end Receipt.Symbol
