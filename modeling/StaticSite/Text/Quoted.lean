import StaticSite.Text.Combining
import StaticSite.Text.Printable
/-!
# Quoted text

Text that a message quotes stands between double quotes. Quotes, backslashes and
five control characters are written with a backslash and a letter; any other
character that would not be seen by itself, because it has no visible form or
attaches to the one before it, is written by its code point.
-/

namespace StaticSite.Text

/-- The code point of a character in lower-case hexadecimal digits, in braces. -/
def codePointEscape (c : Char) : List Char :=
  '\\' :: 'u' :: '\x7b' :: Nat.toDigits 16 c.toNat ++ ['\x7d']

def quotedChar : Char → List Char
  | '\x00' => ['\\', '0']
  | '\t' => ['\\', 't']
  | '\n' => ['\\', 'n']
  | '\r' => ['\\', 'r']
  | '"' => ['\\', '"']
  | '\\' => ['\\', '\\']
  | c => if isCombining c || !isPrintable c then codePointEscape c else [c]

def quoted (text : String) : String :=
  "\"" ++ String.ofList (text.toList.flatMap quotedChar) ++ "\""

end StaticSite.Text
