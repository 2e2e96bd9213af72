import StaticSite.Text.Digits
import StaticSite.Toml.Value
/-!
# Numbers in TOML documents

A number is an integer in one of four radixes or a decimal with a fraction, an
exponent or both. Between two digits an underscore may stand. A number that is
written in decimal digits has no leading zero, and only such a number may have a
sign.

Some words that are no numbers are taken for one until it is wanted: the mark of a
radix without digits, and decimal digits that go on after an underscore in some
other way.
-/

namespace StaticSite.Toml.Numeral

/-- Whether digits are well formed: there is one at least, and every underscore
stands between two of them. -/
def areDigits (isDigit : Char → Bool) : List Char → Bool
  | [] => false
  | [c] => isDigit c
  | c :: '_' :: cs => isDigit c && areDigits isDigit cs
  | c :: cs => isDigit c && areDigits isDigit cs

def plainDigits (cs : List Char) : List Char := cs.filter (· != '_')

def isDigitOrMark (c : Char) : Bool := c.isDigit || c == '_'

def isBinaryDigit (c : Char) : Bool := c == '0' || c == '1'

def isOctalDigit (c : Char) : Bool := decide ('0' ≤ c) && decide (c ≤ '7')

def isHexDigit (c : Char) : Bool := (Text.hexValue? c).isSome

/-- An integer in a radix other than ten, given the mark of the radix and the text
after it. -/
def inRadix? (mark : String) (radix : Nat) (isDigit : Char → Bool) (cs : List Char) :
    Option Value :=
  if cs = [] then some (.illegible mark)
  else if areDigits isDigit cs then
    (Text.radixValue? radix (plainDigits cs)).map fun n => .integer n
  else none

def isWholePart (cs : List Char) : Bool :=
  areDigits Char.isDigit cs && (cs.length == 1 || cs.head? != some '0')

def splitSign : List Char → Option Bool × List Char
  | '+' :: cs => (some false, cs)
  | '-' :: cs => (some true, cs)
  | cs => (none, cs)

def exponent? (cs : List Char) : Option Int :=
  let (sign, digits) := splitSign cs
  if areDigits Char.isDigit digits then
    let n : Int := Text.naturalValue (plainDigits digits)
    some (if sign = some true then -n else n)
  else none

/-- The exponent that may end a number. Without one it is zero. -/
def exponentPart? : List Char → Option Int
  | [] => some 0
  | c :: cs => if c = 'e' ∨ c = 'E' then exponent? cs else none

def decimal (isNegative : Bool) (whole fraction : List Char) (exponent : Int) : Value :=
  let places := plainDigits fraction
  .float isNegative
    ⟨Text.naturalValue (plainDigits whole ++ places), exponent - places.length⟩

def unsigned? (isNegative : Bool) (cs : List Char) : Option Value :=
  let whole := cs.takeWhile isDigitOrMark
  if !isWholePart whole then none
  else
    match cs.dropWhile isDigitOrMark with
    | [] =>
      let n : Int := Text.naturalValue (plainDigits whole)
      some (.integer (if isNegative then -n else n))
    | '.' :: rest =>
      let fraction := rest.takeWhile isDigitOrMark
      if areDigits Char.isDigit fraction then
        (exponentPart? (rest.dropWhile isDigitOrMark)).map (decimal isNegative whole fraction)
      else none
    | rest => (exponentPart? rest).map (decimal isNegative whole [])

/-- A number with a sign or without one, given the text after it. -/
def signed? (isNegative : Bool) : List Char → Option Value
  | ['i', 'n', 'f'] => some (.infinity isNegative)
  | ['n', 'a', 'n'] => some .nan
  | cs => unsigned? isNegative cs

/-- Whether every underscore of a text stands between two hexadecimal digits, given
the character before the text. -/
def areLinked (before : Char) : List Char → Bool
  | [] => true
  | '_' :: cs => isHexDigit before && cs.head?.any isHexDigit && areLinked '_' cs
  | c :: cs => areLinked c cs

/-- Whether the text after a sign starts as an integer in decimal digits does up to an
underscore, and has no mark of a fraction or an exponent. -/
def startsInteger (cs : List Char) : Bool :=
  let digits := cs.takeWhile Char.isDigit
  let rest := cs.dropWhile Char.isDigit
  digits != [] && digits.head? != some '0' && rest.head? == some '_'
    && areLinked '0' cs && !rest.any fun c => c == '.' || c == 'e' || c == 'E'

def parse? : List Char → Option Value
  | '0' :: 'x' :: cs => inRadix? "0x" 16 isHexDigit cs
  | '0' :: 'o' :: cs => inRadix? "0o" 8 isOctalDigit cs
  | '0' :: 'b' :: cs => inRadix? "0b" 2 isBinaryDigit cs
  | cs =>
    let (sign, rest) := splitSign cs
    match signed? (sign.getD false) rest with
    | some v => some v
    | none => if startsInteger rest then some (.illegible (String.ofList cs)) else none

end StaticSite.Toml.Numeral
