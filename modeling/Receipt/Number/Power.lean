/-!
# Powers of two and ten

The two bases of the number formats: `pow2` scales the significand of a binary number, `pow10` the
digits of a decimal one.
-/

namespace Receipt

/-- Two to a natural power. -/
def pow2 (n : Nat) : Nat := Nat.pow 2 n

/-- Ten to a natural power. -/
def pow10 (n : Nat) : Nat := Nat.pow 10 n

end Receipt
