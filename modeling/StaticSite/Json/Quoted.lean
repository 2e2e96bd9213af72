import StaticSite.Text.Digits
/-!
# Strings in JSON texts

A string stands between double quotes. A backslash escapes a quote, a backslash,
a slash, one of five control characters by a letter, or any 16-bit unit by four
hexadecimal digits. A character beyond 16 bits is escaped by two units, a high
and a low surrogate; a surrogate without its partner is refused, and so is a
control character that is not escaped.
-/

namespace StaticSite.Json.Quoted

open Text (hexValue?)

def unit? (a b c d : Char) : Option Nat := do
  let a ← hexValue? a
  let b ← hexValue? b
  let c ← hexValue? c
  let d ← hexValue? d
  some (((a * 16 + b) * 16 + c) * 16 + d)

def isHighSurrogate (unit : Nat) : Bool := decide (0xD800 ≤ unit) && decide (unit < 0xDC00)

def isLowSurrogate (unit : Nat) : Bool := decide (0xDC00 ≤ unit) && decide (unit < 0xE000)

def joinSurrogates (high low : Nat) : Char :=
  Char.ofNat (0x10000 + (high - 0xD800) * 0x400 + (low - 0xDC00))

def letter? : Char → Option Char
  | '"' => some '"'
  | '\\' => some '\\'
  | '/' => some '/'
  | 'b' => some '\x08'
  | 'f' => some '\x0c'
  | 'n' => some '\n'
  | 'r' => some '\r'
  | 't' => some '\t'
  | _ => none

/-- Reads the rest of a string, up to and with its closing quote. The characters
are returned together with what follows the string. -/
def readRest : List Char → Option (List Char × List Char)
  | [] => none
  | '"' :: cs => some ([], cs)
  | '\\' :: 'u' :: a :: b :: c :: d :: cs => do
    let unit ← unit? a b c d
    if isHighSurrogate unit then
      match cs with
      | '\\' :: 'u' :: a :: b :: c :: d :: cs =>
        let low ← unit? a b c d
        if isLowSurrogate low then
          let (text, rest) ← readRest cs
          some (joinSurrogates unit low :: text, rest)
        else none
      | _ => none
    else if isLowSurrogate unit then none
    else
      let (text, rest) ← readRest cs
      some (Char.ofNat unit :: text, rest)
  | '\\' :: c :: cs => do
    let c ← letter? c
    let (text, rest) ← readRest cs
    some (c :: text, rest)
  | c :: cs =>
    if c = '\\' ∨ c.toNat < 0x20 then none
    else do
      let (text, rest) ← readRest cs
      some (c :: text, rest)

end StaticSite.Json.Quoted
