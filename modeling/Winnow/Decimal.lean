/-!
# Decimals

Non-negative decimal numbers, and arithmetic that keeps a limited number of their digits.

* `divHalfEven`: division that rounds to the nearest integer, half to even.
* `Decimal.rounded`: the nearest decimal with at most so many digits, half to even.
* `Decimal.floor`: the integer part.
-/

namespace Winnow

/-- Divides and rounds to the nearest integer, half to even. -/
def divHalfEven (n d : Nat) : Nat :=
  let q := n / d
  let twice := 2 * (n % d)
  if twice < d then q else if d < twice then q + 1 else q + q % 2

/-- A non-negative decimal number, `digits * 10 ^ exponent`. -/
structure Decimal where
  digits : Nat
  exponent : Int
  deriving DecidableEq, Repr

namespace Decimal

/-- The nearest decimal with at most so many digits, half to even. -/
def rounded (places : Nat) (x : Decimal) : Decimal :=
  let surplus := (Nat.toDigits 10 x.digits).length - places
  ⟨divHalfEven x.digits (Nat.pow 10 surplus), x.exponent + surplus⟩

/-- The product with a natural number. -/
def times (n : Nat) (x : Decimal) : Decimal := { x with digits := n * x.digits }

/-- The integer part. -/
def floor (x : Decimal) : Nat :=
  if 0 ≤ x.exponent then x.digits * Nat.pow 10 x.exponent.toNat
  else x.digits / Nat.pow 10 (-x.exponent).toNat

end Decimal

end Winnow
