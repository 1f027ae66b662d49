/-!
# Checks of bytes

Two 32-bit checks: `crc32` is the remainder of a division by the reflected polynomial `EDB88320`, bit
by bit, and guards the chunks of a picture file; `adler32` is made of two running sums and guards
compressed data.
-/

namespace Receipt

/-- Divides one bit out of the register. -/
def crcBit (register : UInt32) : UInt32 :=
  if register &&& 1 = 1 then (register >>> 1) ^^^ 0xEDB88320 else register >>> 1

/-- Takes one byte into the register. -/
def crcByte (register : UInt32) (byte : UInt8) : UInt32 :=
  (List.range 8).foldl (fun r _ => crcBit r) (register ^^^ byte.toUInt32)

/-- The check of a list of bytes. -/
def crc32 (bytes : List UInt8) : UInt32 :=
  (bytes.foldl crcByte 0xFFFFFFFF) ^^^ 0xFFFFFFFF

/-- Takes one byte into the sums: that of the bytes, and that of the sums so far. -/
def adlerByte (sums : Nat × Nat) (byte : UInt8) : Nat × Nat :=
  let low := (sums.1 + byte.toNat) % 65521
  (low, (sums.2 + low) % 65521)

/-- The sums of a list of bytes, the second one in the upper half. -/
def adler32 (bytes : List UInt8) : Nat :=
  let (low, high) := bytes.foldl adlerByte (1, 0)
  65536 * high + low

end Receipt
