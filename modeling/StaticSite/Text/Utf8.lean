/-!
# UTF-8

Characters as bytes and back. Decoding reads one byte at a time: between
characters it expects the first byte of one, which says how many more there are
and in which range the next byte must lie, so that overlong forms, surrogates
and code points beyond the last one are refused at the earliest byte. The bytes
read up to such a point are one invalid part. No byte is lost in the parts of a
byte sequence, and only where it is shown a replacement character stands for each
invalid one.
-/

namespace StaticSite.Utf8

def byte (n : Nat) : UInt8 := UInt8.ofNat n

def encodeChar (c : Char) : List UInt8 :=
  let n := c.toNat
  if n < 0x80 then [byte n]
  else if n < 0x800 then [byte (0xC0 + n / 0x40), byte (0x80 + n % 0x40)]
  else if n < 0x10000 then
    [byte (0xE0 + n / 0x1000), byte (0x80 + n / 0x40 % 0x40), byte (0x80 + n % 0x40)]
  else
    [byte (0xF0 + n / 0x40000), byte (0x80 + n / 0x1000 % 0x40), byte (0x80 + n / 0x40 % 0x40),
      byte (0x80 + n % 0x40)]

def encode (text : String) : List UInt8 := text.toList.flatMap encodeChar

/-- A part of a byte sequence: a character, or bytes that are none. -/
inductive Part where
  | char (c : Char)
  | invalid (bytes : List UInt8)
deriving DecidableEq, Repr

def Part.bytes : Part → List UInt8
  | .char c => encodeChar c
  | .invalid bytes => bytes

def Part.char? : Part → Option Char
  | .char c => some c
  | .invalid _ => none

def Part.shown : Part → Char
  | .char c => c
  | .invalid _ => '\uFFFD'

/-- A character of which some bytes have been read: these bytes, the number that
they give so far, how many bytes follow, and between which bounds the next one must
lie. -/
structure Pending where
  bytes : List UInt8
  value : Nat
  owed : Nat
  low : Nat
  high : Nat
deriving DecidableEq, Repr

/-- What the first byte of a character says: a character of its own, a character
that goes on, or nothing valid. -/
inductive Lead where
  | complete (c : Char)
  | pending (p : Pending)
  | invalid

def lead (b : UInt8) : Lead :=
  let n := b.toNat
  if n < 0x80 then .complete (Char.ofNat n)
  else if n < 0xC2 then .invalid
  else if n < 0xE0 then .pending ⟨[b], n - 0xC0, 0, 0x80, 0xBF⟩
  else if n < 0xF0 then
    .pending ⟨[b], n - 0xE0, 1, if n = 0xE0 then 0xA0 else 0x80, if n = 0xED then 0x9F else 0xBF⟩
  else if n < 0xF5 then
    .pending ⟨[b], n - 0xF0, 2, if n = 0xF0 then 0x90 else 0x80, if n = 0xF4 then 0x8F else 0xBF⟩
  else .invalid

/-- The parts of a byte sequence. `owed` counts the bytes that follow after the next
one. -/
def parts : Option Pending → List UInt8 → List Part
  | none, [] => []
  | some p, [] => [.invalid p.bytes]
  | none, b :: bs =>
    match lead b with
    | .complete c => .char c :: parts none bs
    | .pending p => parts (some p) bs
    | .invalid => .invalid [b] :: parts none bs
  | some p, b :: bs =>
    if p.low ≤ b.toNat ∧ b.toNat ≤ p.high then
      let value := p.value * 0x40 + (b.toNat - 0x80)
      match p.owed with
      | 0 => .char (Char.ofNat value) :: parts none bs
      | owed + 1 => parts (some ⟨p.bytes ++ [b], value, owed, 0x80, 0xBF⟩) bs
    else
      match lead b with
      | .complete c => .invalid p.bytes :: .char c :: parts none bs
      | .pending q => .invalid p.bytes :: parts (some q) bs
      | .invalid => .invalid p.bytes :: .invalid [b] :: parts none bs

/-- The text of a byte sequence, if all of it is valid. -/
def decode? (bytes : List UInt8) : Option String :=
  ((parts none bytes).mapM Part.char?).map String.ofList

/-- The text of a byte sequence, with a replacement character for each invalid
part. -/
def decodeLossy (bytes : List UInt8) : String :=
  String.ofList ((parts none bytes).map Part.shown)

end StaticSite.Utf8
