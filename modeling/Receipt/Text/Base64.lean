/-!
# Base 64

Four characters of the alphabet stand for three bytes. `decode?` leaves out every other character;
an equals sign ends the text as soon as it completes a group of four, and a group that is left
incomplete makes the text invalid.
-/

namespace Receipt.Base64

/-- The value of a character of the alphabet. -/
def sextet? (c : Char) : Option Nat :=
  let n := c.toNat
  if 65 ≤ n ∧ n ≤ 90 then some (n - 65)
  else if 97 ≤ n ∧ n ≤ 122 then some (n - 71)
  else if 48 ≤ n ∧ n ≤ 57 then some (n + 4)
  else if c = '+' then some 62
  else if c = '/' then some 63
  else none

/-- Decodes from inside a group: `place` characters of it are read, their bits that are in no byte
yet are `rest`, and `pads` equals signs stand behind them. -/
def decodeFrom (place rest pads : Nat) : List Char → Option (List UInt8)
  | [] => if place = 0 then some [] else none
  | c :: cs =>
    if c = '=' then
      if place < 2 then decodeFrom place rest pads cs
      else if 4 ≤ place + (pads + 1) then some []
      else decodeFrom place rest (pads + 1) cs
    else
      match sextet? c with
      | none => decodeFrom place rest pads cs
      | some value =>
        match place with
        | 0 => decodeFrom 1 value 0 cs
        | 1 => (decodeFrom 2 (value % 16) 0 cs).map (UInt8.ofNat (rest * 4 + value / 16) :: ·)
        | 2 => (decodeFrom 3 (value % 4) 0 cs).map (UInt8.ofNat (rest * 16 + value / 4) :: ·)
        | _ => (decodeFrom 0 0 0 cs).map (UInt8.ofNat (rest * 64 + value) :: ·)

/-- The bytes a text stands for; a character outside ASCII makes it invalid. -/
def decode? (text : List Char) : Option (List UInt8) :=
  if text.all (·.toNat < 128) then decodeFrom 0 0 0 text else none

end Receipt.Base64
