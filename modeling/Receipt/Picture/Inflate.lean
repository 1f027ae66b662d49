import Receipt.Number.Power
import Receipt.Picture.Checksum

/-!
# Inflating compressed data

Compressed data is a list of bits, the lowest bit of each byte first. A block is stored, coded with
the fixed code lengths or coded with lengths of its own; a code is canonical, so a list of lengths
determines it. `inflate` gives the bytes up to the first fault or the end of the last block, and says
whether the check behind them contradicts them: whether they are enough is for the reader of the
picture to say.
-/

namespace Receipt.Inflate

/-- A prefix code: from each bit the way to a symbol. -/
inductive CodeTree where
  | none
  | symbol (value : Nat)
  | branch (zero one : CodeTree)

namespace CodeTree

/-- Adds a symbol at the end of a way. -/
def insert (value : Nat) : List Bool → CodeTree → CodeTree
  | [], _ => symbol value
  | bit :: bits, branch zero one =>
    if bit then branch zero (insert value bits one) else branch (insert value bits zero) one
  | bit :: bits, _ =>
    if bit then branch none (insert value bits none) else branch (insert value bits none) none

/-- Reads one symbol. -/
def read : CodeTree → List Bool → Option (Nat × List Bool)
  | symbol value, bits => some (value, bits)
  | none, _ => Option.none
  | branch _ _, [] => Option.none
  | branch zero one, bit :: bits => if bit then one.read bits else zero.read bits

end CodeTree

/-- The `count` low bits of a number, highest first. -/
def highFirst (count n : Nat) : List Bool := (List.range count).map fun i => n.testBit (count - 1 - i)

/-- Gives codes to symbols in order of their length, walking the space of the longest codes. -/
def assignCodes (start : Nat) : List (Nat × Nat) → CodeTree → CodeTree
  | [], tree => tree
  | (length, symbol) :: rest, tree =>
    let step := pow2 (15 - length)
    assignCodes (start + step) rest (tree.insert symbol (highFirst length (start / step)))

/-- The canonical code of a list of code lengths; length zero marks a symbol that is not used. -/
def canonical (lengths : List Nat) : CodeTree :=
  let used := (lengths.zipIdx).filter fun entry => entry.1 != 0
  assignCodes 0 (used.mergeSort fun a b => a.1 ≤ b.1) .none

/-- The bits of a list of bytes, the lowest bit of each first. -/
def bitsOf (bytes : List UInt8) : List Bool :=
  bytes.flatMap fun byte => (List.range 8).map fun i => byte.toNat.testBit i

/-- Reads a number of `count` bits, lowest first. -/
def readBits : Nat → List Bool → Option (Nat × List Bool)
  | 0, bits => some (0, bits)
  | _ + 1, [] => none
  | count + 1, bit :: bits =>
    (readBits count bits).map fun (n, rest) => (2 * n + bit.toNat, rest)

/-- Base values and extra bits of the length symbols from 257 on. -/
def lengthTable : List (Nat × Nat) :=
  [(3, 0), (4, 0), (5, 0), (6, 0), (7, 0), (8, 0), (9, 0), (10, 0), (11, 1), (13, 1), (15, 1),
    (17, 1), (19, 2), (23, 2), (27, 2), (31, 2), (35, 3), (43, 3), (51, 3), (59, 3), (67, 4),
    (83, 4), (99, 4), (115, 4), (131, 5), (163, 5), (195, 5), (227, 5), (258, 0)]

/-- Base values and extra bits of the distance symbols. -/
def distanceTable : List (Nat × Nat) :=
  [(1, 0), (2, 0), (3, 0), (4, 0), (5, 1), (7, 1), (9, 2), (13, 2), (17, 3), (25, 3), (33, 4),
    (49, 4), (65, 5), (97, 5), (129, 6), (193, 6), (257, 7), (385, 7), (513, 8), (769, 8),
    (1025, 9), (1537, 9), (2049, 10), (3073, 10), (4097, 11), (6145, 11), (8193, 12), (12289, 12),
    (16385, 13), (24577, 13)]

/-- Reads the value of a length or distance symbol with its extra bits. -/
def readValue (table : List (Nat × Nat)) (index : Nat) (bits : List Bool) :
    Option (Nat × List Bool) :=
  match table[index]? with
  | none => none
  | some (base, extra) => (readBits extra bits).map fun (n, rest) => (base + n, rest)

/-- Appends `count` bytes, each the one that stands `distance` bytes back. -/
def copyBack (distance : Nat) : Nat → Array UInt8 → Array UInt8
  | 0, out => out
  | count + 1, out => copyBack distance count (out.push ((out[out.size - distance]?).getD 0))

/-- What is known after a block: the bytes, and the bits left when it ended without a fault. -/
abbrev Inflated := Array UInt8 × Option (List Bool)

/-- The symbols of one block. Every symbol takes at least one bit, so the fuel is the number of
bits. -/
def readSymbols (literals distances : CodeTree) : Nat → Array UInt8 → List Bool → Inflated
  | 0, out, _ => (out, none)
  | fuel + 1, out, bits =>
    match literals.read bits with
    | none => (out, none)
    | some (symbol, bits) =>
      if symbol < 256 then readSymbols literals distances fuel (out.push (UInt8.ofNat symbol)) bits
      else if symbol = 256 then (out, some bits)
      else
        match readValue lengthTable (symbol - 257) bits with
        | none => (out, none)
        | some (length, bits) =>
          match (distances.read bits).bind fun (index, rest) => readValue distanceTable index rest
            with
          | none => (out, none)
          | some (distance, bits) =>
            if out.size < distance then (out, none)
            else readSymbols literals distances fuel (copyBack distance length out) bits

/-- Reads `count` whole bytes. -/
def readBytes : Nat → Array UInt8 → List Bool → Inflated
  | 0, out, bits => (out, some bits)
  | count + 1, out, bits =>
    match readBits 8 bits with
    | none => (out, none)
    | some (byte, rest) => readBytes count (out.push (UInt8.ofNat byte)) rest

/-- A stored block: at the next whole byte its size, the complement of the size and the bytes. -/
def readStored (out : Array UInt8) (bits : List Bool) : Inflated :=
  match (readBits 16 (bits.drop (bits.length % 8))).bind fun (size, rest) =>
      (readBits 16 rest).map fun (check, rest) => (size, check, rest) with
  | none => (out, none)
  | some (size, check, rest) =>
    if size + check = 65535 then readBytes size out rest else (out, none)

/-- The fixed code lengths of literals and lengths. -/
def fixedLiterals : List Nat :=
  List.replicate 144 8 ++ List.replicate 112 9 ++ List.replicate 24 7 ++ List.replicate 8 8

/-- The order in which the lengths of the code for code lengths are written. -/
def lengthOrder : List Nat := [16, 17, 18, 0, 8, 7, 9, 6, 10, 5, 11, 4, 12, 3, 13, 2, 14, 1, 15]

/-- Reads `count` numbers of three bits. -/
def readTriples : Nat → List Bool → Option (List Nat × List Bool)
  | 0, bits => some ([], bits)
  | count + 1, bits =>
    (readBits 3 bits).bind fun (n, rest) =>
      (readTriples count rest).map fun (ns, rest) => (n :: ns, rest)

/-- Reads code lengths until `count` are there, newest first; repetitions may run over the end. -/
def readLengths (code : CodeTree) (count : Nat) : Nat → List Nat → List Bool →
    Option (List Nat × List Bool)
  | 0, _, _ => none
  | fuel + 1, done, bits =>
    if count ≤ done.length then some (done, bits)
    else
      match code.read bits with
      | none => none
      | some (symbol, bits) =>
        let repeated (base extra value : Nat) :=
          (readBits extra bits).bind fun (n, rest) =>
            readLengths code count fuel (List.replicate (base + n) value ++ done) rest
        if symbol < 16 then readLengths code count fuel (symbol :: done) bits
        else if symbol = 16 then
          match done with
          | [] => none
          | value :: _ => repeated 3 2 value
        else if symbol = 17 then repeated 3 3 0
        else repeated 11 7 0

/-- Reads the two codes of a block that brings its own lengths. -/
def readCodes (bits : List Bool) : Option (CodeTree × CodeTree × List Bool) :=
  (readBits 5 bits).bind fun (literalCount, bits) =>
  (readBits 5 bits).bind fun (distanceCount, bits) =>
  (readBits 4 bits).bind fun (lengthCount, bits) =>
  (readTriples (lengthCount + 4) bits).bind fun (triples, bits) =>
    let lengths := (List.range 19).map fun symbol =>
      (((lengthOrder.zip triples).find? fun entry => entry.1 == symbol).map (·.2)).getD 0
    let total := literalCount + 257 + (distanceCount + 1)
    (readLengths (canonical lengths) total (total + 1) [] bits).bind fun (done, bits) =>
      let all := done.reverse
      if total < all.length then none
      else
        some (canonical (all.take (literalCount + 257)), canonical (all.drop (literalCount + 257)),
          bits)

/-- Blocks until the last one. Every block takes at least three bits, so the fuel is the number of
bits. -/
def readBlocks : Nat → Array UInt8 → List Bool → Inflated
  | 0, out, _ => (out, none)
  | fuel + 1, out, bits =>
    match (readBits 1 bits).bind fun (last, rest) =>
        (readBits 2 rest).map fun (kind, rest) => (last, kind, rest) with
    | none => (out, none)
    | some (last, kind, bits) =>
      let block : Inflated :=
        if kind = 0 then readStored out bits
        else if kind = 1 then
          readSymbols (canonical fixedLiterals) (canonical (List.replicate 30 5)) bits.length out
            bits
        else if kind = 2 then
          match readCodes bits with
          | none => (out, none)
          | some (literals, distances, bits) =>
            readSymbols literals distances bits.length out bits
        else (out, none)
      match block with
      | (out, none) => (out, none)
      | (out, some rest) => if last = 1 then (out, some rest) else readBlocks fuel out rest

/-- What compressed data gives: its bytes, and whether a check stands behind them that is not
theirs. -/
structure Contents where
  bytes : List UInt8
  damaged : Bool

/-- The check that stands at the next whole byte, highest byte first. -/
def readCheck (bits : List Bool) : Option Nat :=
  match readBytes 4 #[] (bits.drop (bits.length % 8)) with
  | (bytes, some _) => some (bytes.foldl (fun n byte => 256 * n + byte.toNat) 0)
  | (_, none) => none

/-- The contents of compressed data, up to the first fault. -/
def inflate (bits : List Bool) : Contents :=
  let (out, left) := readBlocks bits.length #[] bits
  let bytes := out.toList
  match left.bind readCheck with
  | some check => ⟨bytes, check != adler32 bytes⟩
  | none => ⟨bytes, false⟩

/-- The contents of compressed data behind its two-byte header, when the header is one: method eight
and a check that makes it a multiple of 31, without a preset dictionary. -/
def unwrap? : List UInt8 → Option Contents
  | first :: second :: rest =>
    if first.toNat % 16 = 8 ∧ (first.toNat * 256 + second.toNat) % 31 = 0 ∧
        ¬ second.toNat.testBit 5 then
      some (inflate (bitsOf rest))
    else none
  | _ => none

end Receipt.Inflate
