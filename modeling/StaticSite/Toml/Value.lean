import StaticSite.Number.Shortest
/-!
# TOML values

The values of a TOML document. A table remembers how it came to be, because that
decides which later statements of the document may still add to it. Numbers are
kept as they are written, also some words that only start like one;
`Value.isRepresentable` says whether all of them are numbers within the limits of
what can be handed on.
-/

namespace StaticSite.Toml

/-- How a table came to be: by its own header, on the way to a table with a longer
header, by a dotted key, or between braces. -/
inductive Origin where
  | header
  | implied
  | dotted
  | inline
deriving DecidableEq, Repr

/-- A value of a document. A `series` is a list of tables that are written one by
one under headers of their own. A word that is `illegible` is taken for a number
by its start, and is an error only where the number is wanted. -/
inductive Value where
  | text (content : String)
  | integer (n : Int)
  | float (isNegative : Bool) (magnitude : Decimal)
  | infinity (isNegative : Bool)
  | nan
  | illegible (written : String)
  | bool (b : Bool)
  | moment (written : String)
  | array (items : List Value)
  | table (origin : Origin) (members : List (String × Value))
  | series (tables : List (List (String × Value)))
deriving Inhabited

abbrev Members := List (String × Value)

/-- The smallest number that is nearer to `2 ^ 1024` than to the largest double. -/
def overflowBound : Nat := Nat.pow 2 1024 - Nat.pow 2 970

/-- Whether a decimal is too large for a double. Decimals with many digits before
the point are, and those with few are not, so that the powers of ten which are
computed stay small. -/
def overflows (d : Decimal) : Bool :=
  let places : Int := (Nat.toDigits 10 d.digits).length + d.exponent
  if d.digits = 0 ∨ places < 300 then false
  else if 310 < places then true
  else decide
    (overflowBound * Nat.pow 10 (-d.exponent).toNat ≤ d.digits * Nat.pow 10 d.exponent.toNat)

/-- Whether an integer fits 128 bits, with or without a sign. -/
def isWideInteger (n : Int) : Bool :=
  decide (-Int.ofNat (Nat.pow 2 127) ≤ n) && decide (n < Int.ofNat (Nat.pow 2 128))

mutual

/-- Whether all numbers of a value are legible and within the limits. -/
def Value.isRepresentable : Value → Bool
  | .illegible _ => false
  | .integer n => isWideInteger n
  | .float _ magnitude => !overflows magnitude
  | .array items => Value.areRepresentable items
  | .table _ members => Value.membersAreRepresentable members
  | .series tables => Value.tablesAreRepresentable tables
  | _ => true

def Value.areRepresentable : List Value → Bool
  | [] => true
  | v :: vs => v.isRepresentable && Value.areRepresentable vs

def Value.membersAreRepresentable : List (String × Value) → Bool
  | [] => true
  | (_, v) :: rest => v.isRepresentable && Value.membersAreRepresentable rest

def Value.tablesAreRepresentable : List (List (String × Value)) → Bool
  | [] => true
  | members :: rest => Value.membersAreRepresentable members && Value.tablesAreRepresentable rest

end

end StaticSite.Toml
