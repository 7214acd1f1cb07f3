import Winnow.Decimal

/-!
# Binary64 numbers, exactly

A finite number is a sign and a rank.  The ranks count the magnitudes from zero upwards, so rank
`r` is the magnitude whose IEEE 754 encoding is the integer `r`, and the last rank stands for
infinity.  Every magnitude is an integral multiple of the least positive one, `2 ^ -1074`;
`Binary64.units?` gives the factor, and every operation here works on these factors in exact
arithmetic and rounds once, half to even.

* `Binary64.roundRatio`: the rank nearest to a quotient of natural numbers.
* `Binary64.order?`: numerical comparison; nothing where an operand is no number.
* `Binary64.ofInt?`: the nearest number to an integer, if it is finite.
-/

namespace Winnow

/-- A binary64 number.  Rank `0x7FF0000000000000` is infinity. -/
inductive Binary64 where
  | nan
  | number (negative : Bool) (rank : Fin 0x7FF0000000000001)
  deriving DecidableEq

namespace Binary64

/-- The rank of infinity. -/
def topRank : Nat := 0x7FF0000000000000

/-- The number of least positive magnitudes in one. -/
def unitsInOne : Nat := Nat.pow 2 1074

/-- The exponent step of a rank: its magnitude is `rankSignificand r * 2 ^ rankScale r` units. -/
def rankScale (rank : Nat) : Nat := if rank < Nat.pow 2 53 then 0 else rank / Nat.pow 2 52 - 1

/-- The significand of a rank. -/
def rankSignificand (rank : Nat) : Nat := rank - rankScale rank * Nat.pow 2 52

/-- The magnitude of a rank in units of the least positive magnitude. -/
def rankUnits (rank : Nat) : Nat := rankSignificand rank * Nat.pow 2 (rankScale rank)

/-- The rank nearest to `n / d`, at most that of infinity. -/
def roundRatio (n d : Nat) : Nat :=
  let whole := n * unitsInOne / d
  let scale := if whole < Nat.pow 2 53 then 0 else whole.log2 - 52
  min topRank (scale * Nat.pow 2 52 + divHalfEven (n * unitsInOne) (d * Nat.pow 2 scale))

/-- The number of a sign and a rank, infinite where the rank is too large. -/
def ofRank (negative : Bool) (rank : Nat) : Binary64 :=
  if h : rank < 0x7FF0000000000001 then .number negative ⟨rank, h⟩
  else .number negative ⟨topRank, by decide⟩

/-- The number nearest to plus or minus `n / d`. -/
def ofRatio (negative : Bool) (n d : Nat) : Binary64 := ofRank negative (roundRatio n d)

/-- Positive zero. -/
def zero : Binary64 := ofRank false 0

/-- One. -/
def one : Binary64 := ofRatio false 1 1

/-- Plus or minus infinity. -/
def infinity (negative : Bool) : Binary64 := ofRank negative topRank

/-- Whether a number is not a number. -/
def isNaN : Binary64 → Bool
  | .nan => true
  | .number _ _ => false

/-- Whether a number is neither infinite nor no number. -/
def isFinite : Binary64 → Bool
  | .nan => false
  | .number _ rank => rank.val < topRank

/-- The value of a finite number in units of the least positive magnitude. -/
def units? : Binary64 → Option Int
  | .nan => none
  | .number negative rank =>
    if rank.val < topRank then
      some (if negative then -(rankUnits rank.val : Int) else rankUnits rank.val)
    else none

/-- A number's place in the numerical order: the two zeros share one. -/
def place? : Binary64 → Option Int
  | .nan => none
  | .number negative rank => some (if negative then -(rank.val : Int) else rank.val)

/-- Numerical comparison; nothing where an operand is no number. -/
def order? (x y : Binary64) : Option Ordering := do
  return compare (← x.place?) (← y.place?)

/-- Numerical equality: zeros of both signs are equal and no number equals nothing. -/
def equals (x y : Binary64) : Bool := x.order? y == some .eq

/-- The comparison of an integer with a number, without rounding the integer. -/
def orderInt? (n : Int) : Binary64 → Option Ordering
  | .nan => none
  | .number negative rank =>
    if rank.val < topRank then
      some (compare (n * unitsInOne)
        (if negative then -(rankUnits rank.val : Int) else rankUnits rank.val))
    else some (if negative then .gt else .lt)

/-- The number nearest to an integer, unless it is infinite. -/
def ofInt? (n : Int) : Option Binary64 :=
  let x := ofRatio (n < 0) n.natAbs 1
  if x.isFinite then some x else none

/-- The integer that a number equals, if it does. -/
def toInt? (x : Binary64) : Option Int := do
  let u ← x.units?
  if u % unitsInOne = 0 then some (u / unitsInOne) else none

/-- A number multiplied by `n / d` and rounded once. -/
def scale (x : Binary64) (n d : Nat) : Binary64 :=
  match x with
  | .nan => .nan
  | .number negative rank =>
    if rank.val < topRank then ofRatio negative (rankUnits rank.val * n) (unitsInOne * d)
    else x

end Binary64

end Winnow
