/-!
# Digits

The values of decimal and hexadecimal digits, and of numerals made of them.
-/

namespace StaticSite.Text

def digitValue (c : Char) : Nat := c.toNat - '0'.toNat

def hexValue? (c : Char) : Option Nat :=
  if '0' ≤ c ∧ c ≤ '9' then some (c.toNat - '0'.toNat)
  else if 'a' ≤ c ∧ c ≤ 'f' then some (c.toNat - 'a'.toNat + 10)
  else if 'A' ≤ c ∧ c ≤ 'F' then some (c.toNat - 'A'.toNat + 10)
  else none

def naturalValue (digits : List Char) : Nat := digits.foldl (fun n c => 10 * n + digitValue c) 0

/-- The number written by digits of a radix up to sixteen, if all of them are
hexadecimal digits. -/
def radixValue? (radix : Nat) (digits : List Char) : Option Nat :=
  digits.foldlM (fun n c => (hexValue? c).map (radix * n + ·)) 0

end StaticSite.Text
