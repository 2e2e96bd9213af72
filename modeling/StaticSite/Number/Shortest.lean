import StaticSite.Number.Double
/-!
# Shortest decimals

The decimal text of a finite number is the shortest one that reads back to it:
of the decimals that round to the number, those that are multiples of the
largest possible power of ten, and of these the one nearest to the number. An
exact tie goes up. The text is always positional, without an exponent and
without a fraction that is zero.

A decimal rounds to a number when it lies between the two midpoints to the
neighbouring numbers; a midpoint itself rounds to the number whose significand
is even. All comparisons are made on integers: magnitudes are counted in
quarters of the smallest unit, so that midpoints are integers too.
-/

namespace StaticSite

/-- A decimal `digits * 10 ^ exponent`. -/
structure Decimal where
  digits : Nat
  exponent : Int
deriving DecidableEq, Repr

namespace Decimal

def zeros (count : Nat) : List Char := List.replicate count '0'

/-- The decimal written out in full: zeros follow an integer, and a fraction is
preceded by at least one digit before the point. -/
def positional (d : Decimal) : String :=
  let digits := Nat.toDigits 10 d.digits
  match d.exponent with
  | .ofNat n => String.ofList (digits ++ zeros n)
  | .negSucc n =>
    let places := n + 1
    let padded := zeros (places + 1 - digits.length) ++ digits
    let whole := padded.length - places
    String.ofList (padded.take whole ++ '.' :: padded.drop whole)

end Decimal

namespace Double

/-- So many quarters of the last place of `x`, counted in the units of which
`gridStep k` make up `10 ^ k`. -/
def scaled (x : Double) (quarters : Nat) (k : Int) : Nat :=
  quarters * Nat.pow 2 x.shift * Nat.pow 10 (-k).toNat

/-- The distance `10 ^ k` between two multiples of it, in units so small that every
midpoint between two numbers is a whole count of them too. -/
def gridStep (k : Int) : Nat := 4 * Nat.pow 2 1074 * Nat.pow 10 k.toNat

/-- Whether `count * 10 ^ k` rounds to the magnitude of `x`. -/
def readsBack (x : Double) (count : Nat) (k : Int) : Bool :=
  let low := x.scaled (4 * x.significand - (if x.isNarrowBelow then 1 else 2)) k
  let high := x.scaled (4 * x.significand + 2) k
  let point := count * gridStep k
  if x.significand % 2 = 0 then decide (low ≤ point) && decide (point ≤ high)
  else decide (low < point) && decide (point < high)

/-- The multiple of `10 ^ k` that rounds to `x` and is nearest to it, if there is
one. Only the two multiples around the magnitude can be the nearest. -/
def onGrid? (x : Double) (k : Int) : Option Nat :=
  let value := x.scaled (4 * x.significand) k
  let step := gridStep k
  let below := value / step
  match x.readsBack below k, x.readsBack (below + 1) k with
  | true, true => some (if 2 * (value % step) < step then below else below + 1)
  | true, false => some below
  | false, true => some (below + 1)
  | false, false => none

/-- The exponents of ten that are tried, largest first. Every finite number is a
multiple of `10 ^ -1074`, so the search ends. -/
def gridExponents : List Int := (List.range 1383).map fun (i : Nat) => 308 - (i : Int)

/-- The shortest decimal that rounds to the magnitude of a finite non-zero
number, and of those the nearest. -/
def shortest (x : Double) : Decimal :=
  (gridExponents.findSome? fun k => (x.onGrid? k).map fun digits => ⟨digits, k⟩).getD ⟨0, 0⟩

/-- The text of a number: the shortest decimal that reads back, without a sign
for either zero. -/
def text (x : Double) : String :=
  if x.isNaN then "NaN"
  else if x.isInfinite then (if x.isNegative then "-Infinity" else "Infinity")
  else if x.isZero then "0"
  else (if x.isNegative then "-" else "") ++ x.shortest.positional

end Double

end StaticSite
