import StaticSite.Text.Digits
/-!
# Strings in TOML documents

A string is basic, between double quotes and with escapes, or literal, between
single quotes and without. Either may be written between three quotes at each
end instead; then it may run over several lines, a line end right after the
opening quotes does not count, and up to two quotes may stand before the closing
ones. In a basic string of several lines a backslash at the end of a line joins
it to the next text that is not blank.
-/

namespace StaticSite.Toml

/-- Control characters, of which only the tab may stand in a line. -/
def isControl (c : Char) : Bool := (decide (c.toNat < 0x20) && c != '\t') || c.toNat == 0x7F

def isBlank (c : Char) : Bool := c == ' ' || c == '\t'

def afterNewline? : List Char → Option (List Char)
  | '\n' :: cs => some cs
  | '\r' :: '\n' :: cs => some cs
  | _ => none

def blankLength : List Char → Nat
  | '\r' :: '\n' :: cs => blankLength cs + 2
  | c :: cs => if isBlank c || c == '\n' then blankLength cs + 1 else 0
  | [] => 0

namespace Quoted

/-- The character with the code point that hexadecimal digits give. -/
def codePoint? (digits : List Char) : Option Char := do
  let n ← Text.radixValue? 16 digits
  if n.isValidChar then some (Char.ofNat n) else none

/-- The character for the first `count` characters, which give its code point, and
how many characters the escape has after its backslash. -/
def numericEscape? (count : Nat) (cs : List Char) : Option (Char × Nat) :=
  if (cs.take count).length = count then
    (codePoint? (cs.take count)).map fun c => (c, count + 1)
  else none

/-- What an escape stands for, given the text after its backslash, and how many
characters of that text belong to it. -/
def escape? : List Char → Option (Char × Nat)
  | '"' :: _ => some ('"', 1)
  | '\\' :: _ => some ('\\', 1)
  | 'b' :: _ => some ('\x08', 1)
  | 'e' :: _ => some ('\x1b', 1)
  | 'f' :: _ => some ('\x0c', 1)
  | 'n' :: _ => some ('\n', 1)
  | 'r' :: _ => some ('\r', 1)
  | 't' :: _ => some ('\t', 1)
  | 'x' :: cs => numericEscape? 2 cs
  | 'u' :: cs => numericEscape? 4 cs
  | 'U' :: cs => numericEscape? 8 cs
  | _ => none

def prepend (c : Char) : List Char × List Char → List Char × List Char
  | (text, rest) => (c :: text, rest)

/-- Reads the rest of a basic string of one line, with its closing quote. The first
`skip` characters belong to an escape before them. -/
def readBasic : Nat → List Char → Option (List Char × List Char)
  | _, [] => none
  | skip + 1, _ :: cs => readBasic skip cs
  | 0, '"' :: cs => some ([], cs)
  | 0, '\\' :: cs => do
    let (c, length) ← escape? cs
    (readBasic length cs).map (prepend c)
  | 0, c :: cs => if isControl c then none else (readBasic 0 cs).map (prepend c)

def readLiteral : List Char → Option (List Char × List Char)
  | [] => none
  | '\'' :: cs => some ([], cs)
  | c :: cs => if isControl c then none else (readLiteral cs).map (prepend c)

/-- Recognises three closing quotes, with up to two quotes before them that belong
to the text. -/
def closing? (quote : Char) : List Char → Option (List Char × List Char)
  | a :: b :: c :: cs =>
    if a = quote ∧ b = quote ∧ c = quote then
      match cs with
      | d :: e :: rest =>
        if d = quote ∧ e = quote then some ([quote, quote], rest)
        else if d = quote then some ([quote], e :: rest)
        else some ([], d :: e :: rest)
      | [d] => if d = quote then some ([quote], []) else some ([], [d])
      | [] => some ([], [])
    else none
  | _ => none

def isInner (c : Char) (cs : List Char) : Bool :=
  !isControl c || c == '\n' || (c == '\r' && cs.head? == some '\n')

/-- Reads the rest of a basic string of several lines. The first `skip` characters
belong to an escape before them. -/
def readBasicLines : Nat → List Char → Option (List Char × List Char)
  | _, [] => none
  | skip + 1, _ :: cs => readBasicLines skip cs
  | 0, c :: cs =>
    match closing? '"' (c :: cs) with
    | some closed => some closed
    | none =>
      if c = '\\' then
        if (afterNewline? (cs.dropWhile isBlank)).isSome then readBasicLines (blankLength cs) cs
        else do
          let (escaped, length) ← escape? cs
          (readBasicLines length cs).map (prepend escaped)
      else if isInner c cs then (readBasicLines 0 cs).map (prepend c)
      else none

def readLiteralLines : List Char → Option (List Char × List Char)
  | [] => none
  | c :: cs =>
    match closing? '\'' (c :: cs) with
    | some closed => some closed
    | none => if isInner c cs then (readLiteralLines cs).map (prepend c) else none

def trimStart (cs : List Char) : List Char := (afterNewline? cs).getD cs

def readLine : List Char → Option (List Char × List Char)
  | '"' :: cs => readBasic 0 cs
  | '\'' :: cs => readLiteral cs
  | _ => none

def read : List Char → Option (List Char × List Char)
  | '"' :: '"' :: '"' :: cs => readBasicLines 0 (trimStart cs)
  | '\'' :: '\'' :: '\'' :: cs => readLiteralLines (trimStart cs)
  | cs => readLine cs

end Quoted

end StaticSite.Toml
