import StaticSite.Json.Tree
import StaticSite.Text.Digits
/-!
# Numbers in JSON texts

A number is a sign, an integer part without a leading zero, and optionally a
fraction and an exponent. An integer that fits 64 bits is read exactly. Every
other number is read as a double: its leading digits, as long as they fit 64
bits, are converted to a double, which is then multiplied or divided by a power
of ten, each step rounding once. A number beyond the doubles is refused.
-/

namespace StaticSite.Json

open Text (digitValue naturalValue)

def spanDigits (cs : List Char) : List Char × List Char :=
  (cs.takeWhile Char.isDigit, cs.dropWhile Char.isDigit)

/-- Appends digits to a number for as long as it stays below `2 ^ 64`. The digits
that are left over are returned. -/
def absorb (n : Nat) : List Char → Nat × List Char
  | [] => (n, [])
  | c :: cs =>
    if 10 * n + digitValue c < UInt64.size then absorb (10 * n + digitValue c) cs else (n, c :: cs)

namespace Number

def largestStep : Nat := 308

/-- A double multiplied by a power of ten. Large negative powers are divided out in
several steps, after the second of which nothing is left of a significand of 64
bits. Without a value if the result would be infinite. -/
def scale (steps : Nat) (x : Float) (exponent : Int) : Option Float :=
  if x == 0 then some x
  else if exponent.natAbs ≤ largestStep then
    if 0 ≤ exponent then
      let product := x * Float.ofScientific 1 false exponent.natAbs
      if product.isInf then none else some product
    else some (x / Float.ofScientific 1 false exponent.natAbs)
  else if 0 ≤ exponent then none
  else match steps with
    | 0 => some 0
    | steps + 1 => scale steps (x / Float.ofScientific 1 false largestStep) (exponent + largestStep)

/-- The double for a sign, a significand below `2 ^ 64` and a power of ten. -/
def ofParts (isNegative : Bool) (significand : Nat) (exponent : Int) : Option Number :=
  (scale 2 significand.toUInt64.toFloat exponent).map fun x =>
    .float ⟨(if isNegative then -x else x).toBits⟩

/-- An integer written with the given digits: exact if it fits 64 bits, else a
double. There is no negative zero among the integers, so `-0` is a double. -/
def ofDigits (isNegative : Bool) (significand : Nat) : Number :=
  if !isNegative then .natural significand.toUInt64
  else if 0 < significand ∧ significand ≤ Int64.minValue.toInt.natAbs then
    .negative (Int64.ofInt (-significand))
  else .float ⟨(-significand.toUInt64.toFloat).toBits⟩

def readFraction : List Char → Option (List Char × List Char)
  | '.' :: cs =>
    match spanDigits cs with
    | ([], _) => none
    | (digits, rest) => some (digits, rest)
  | cs => some ([], cs)

def readExponentDigits (isNegative : Bool) (cs : List Char) : Option (Option Int × List Char) :=
  match spanDigits cs with
  | ([], _) => none
  | (digits, rest) =>
    let n : Int := naturalValue digits
    some (some (if isNegative then -n else n), rest)

def readExponent : List Char → Option (Option Int × List Char)
  | c :: cs =>
    if c = 'e' ∨ c = 'E' then
      match cs with
      | '+' :: cs => readExponentDigits false cs
      | '-' :: cs => readExponentDigits true cs
      | cs => readExponentDigits false cs
    else some (none, c :: cs)
  | [] => some (none, [])

def readUnsigned (isNegative : Bool) (cs : List Char) : Option (Number × List Char) := do
  let (whole, rest) := spanDigits cs
  if whole.isEmpty || (whole.head? == some '0' && whole.length != 1) then none
  else
    let (fraction, rest) ← readFraction rest
    let (exponent, rest) ← readExponent rest
    let (leading, dropped) := absorb 0 whole
    if fraction.isEmpty && exponent.isNone && dropped.isEmpty then
      some (ofDigits isNegative leading, rest)
    else
      let (significand, ignored) := absorb leading fraction
      let places : Int := dropped.length - (fraction.length - ignored.length : Nat)
      let number ← ofParts isNegative significand (places + exponent.getD 0)
      some (number, rest)

def read : List Char → Option (Number × List Char)
  | '-' :: cs => readUnsigned true cs
  | cs => readUnsigned false cs

end Number

end StaticSite.Json
