import Winnow.Binary64
import Winnow.Text

/-!
# Decimal texts of binary64 numbers

* `Binary64.ofDecimal`: the nearest number to a decimal, half to even.
* `Binary64.shortest`: of the decimals that are read as a given number, the one with the fewest
  digits that lies nearest to it.  A candidate counts only if it is read back, so reading the
  result gives the number again.
* `Binary64.text`: the text of a number, positional from `1e-04` up to `1e+16` and with an exponent
  elsewhere.
-/

namespace Winnow

namespace Binary64

/-- The rank nearest to a decimal.  Decimals beyond all finite numbers, and those below all
positive ones, are told by their exponent before any power of ten is computed. -/
def rankOfDecimal (x : Decimal) : Nat :=
  if x.digits = 0 then 0
  else if 400 < x.exponent then topRank
  else if x.exponent < -(400 + x.digits.log2 : Int) then 0
  else if 0 ≤ x.exponent then roundRatio (x.digits * Nat.pow 10 x.exponent.toNat) 1
  else roundRatio x.digits (Nat.pow 10 (-x.exponent).toNat)

/-- The number nearest to plus or minus a decimal. -/
def ofDecimal (negative : Bool) (x : Decimal) : Binary64 := ofRank negative (rankOfDecimal x)

/-- The exponent of the leading decimal digit of a positive magnitude. -/
def leadingExponent (units : Nat) : Int :=
  ((Nat.toDigits 10 (units * Nat.pow 10 400 / unitsInOne)).length : Int) - 401

/-- The two neighbours of a magnitude on the grid of multiples of a power of ten, the nearer one
first; of two equally near ones the one with an even last digit. -/
def neighbours (units : Nat) (step : Int) : List Decimal :=
  let n := if 0 ≤ step then units else units * Nat.pow 10 (-step).toNat
  let d := if 0 ≤ step then unitsInOne * Nat.pow 10 step.toNat else unitsInOne
  let below := n / d
  if divHalfEven n d = below then [⟨below, step⟩, ⟨below + 1, step⟩]
  else [⟨below + 1, step⟩, ⟨below, step⟩]

/-- The decimals near a magnitude with one to seventeen digits, those with fewer digits first. -/
def candidates (units : Nat) : List Decimal :=
  (List.range 17).flatMap fun (n : Nat) => neighbours units (leadingExponent units - n)

/-- The decimal of a finite positive rank with the fewest digits, nearest to it. -/
def shortest (rank : Nat) : Decimal :=
  ((candidates (rankUnits rank)).find? fun x => rankOfDecimal x == rank).getD
    ⟨rankUnits rank * Nat.pow 5 1074, -1074⟩

/-- The digits of a decimal without the zeros at its end. -/
def significantDigits (x : Decimal) : List Char :=
  ((Nat.toDigits 10 x.digits).reverse.dropWhile (· == '0')).reverse

/-- The text of a positive decimal. -/
def decimalText (x : Decimal) : List Char :=
  let ds := significantDigits x
  let lead : Int := (Nat.toDigits 10 x.digits).length + x.exponent - 1
  if -4 ≤ lead ∧ lead < 0 then
    ['0', '.'] ++ List.replicate (-lead - 1).toNat '0' ++ ds
  else if 0 ≤ lead ∧ lead < 16 then
    let whole := lead.toNat + 1
    if ds.length ≤ whole then ds ++ List.replicate (whole - ds.length) '0' ++ ['.', '0']
    else ds.take whole ++ ['.'] ++ ds.drop whole
  else
    let fraction := if ds.length ≤ 1 then [] else '.' :: ds.drop 1
    let exponent := Nat.toDigits 10 lead.natAbs
    ds.take 1 ++ fraction ++ ['e', if lead < 0 then '-' else '+'] ++
      List.replicate (2 - exponent.length) '0' ++ exponent

/-- The text of a number. -/
def chars : Binary64 → List Char
  | .nan => ['n', 'a', 'n']
  | .number negative rank =>
    (if negative then ['-'] else []) ++
      if rank.val = 0 then ['0', '.', '0']
      else if rank.val < topRank then decimalText (shortest rank.val)
      else ['i', 'n', 'f']

/-- The text of a number: the fewest digits that are read back. -/
def text (x : Binary64) : Text := Text.ofChars x.chars

end Binary64

end Winnow
