/-!
# Binary floating-point numbers

`Double` is a 64-bit binary floating-point number, held as its bit pattern: a
sign, an exponent field of eleven bits and a fraction field of 52 bits. The
magnitude of a finite number is `significand * 2 ^ shift / 2 ^ 1074`, a natural
number of units of `2 ^ -1074`.
-/

namespace StaticSite

/-- A 64-bit binary floating-point number. Two values are equal as terms exactly
when their bits are; `Double.equal` is the comparison of numbers. -/
structure Double where
  bits : UInt64
deriving DecidableEq, Repr

namespace Double

def word (x : Double) : Nat := x.bits.toNat

def isNegative (x : Double) : Bool := decide (Nat.pow 2 63 ≤ x.word)

def exponentField (x : Double) : Nat := x.word / Nat.pow 2 52 % 2048

def fractionField (x : Double) : Nat := x.word % Nat.pow 2 52

def isNaN (x : Double) : Bool := x.exponentField == 2047 && x.fractionField != 0

def isInfinite (x : Double) : Bool := x.exponentField == 2047 && x.fractionField == 0

def isFinite (x : Double) : Bool := x.exponentField != 2047

def isZero (x : Double) : Bool := x.word % Nat.pow 2 63 == 0

/-- The integer that a finite number is a power-of-two multiple of. -/
def significand (x : Double) : Nat :=
  if x.exponentField = 0 then x.fractionField else Nat.pow 2 52 + x.fractionField

/-- How many times the significand is doubled, counted from the smallest unit. -/
def shift (x : Double) : Nat := x.exponentField - 1

/-- Whether the next number towards zero is only half as far away as the next
one outwards: so it is at a power of two, but for the smallest one. -/
def isNarrowBelow (x : Double) : Bool := x.fractionField == 0 && decide (1 < x.exponentField)

/-- Numeric comparison: nothing equals a NaN, and the two zeros are equal. -/
def equal (x y : Double) : Bool :=
  !x.isNaN && !y.isNaN && (x.bits == y.bits || x.isZero && y.isZero)

/-- The double of the same value as a 32-bit number given by its bits. -/
def ofSingleBits (bits : UInt32) : Double := ⟨(Float32.ofBits bits).toFloat.toBits⟩

end Double

end StaticSite
