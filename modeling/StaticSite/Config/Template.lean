import StaticSite.Text.Alphanumeric
import StaticSite.Text.Utf8
/-!
# Templates

Some strings of a configuration may refer to variables of the environment. A
string without a reference in braces is taken as it is. In any other, `$NAME`
and `$` with a name in braces stand for the value of a variable, two dollars for
one, and every other dollar for itself. A reference in braces may end with a
default after `:-`, which is used for a variable without a usable value.

A string is first read into a template, whatever the environment holds, and the
template is then filled in from left to right. What is filled in is never read
again.
-/

namespace StaticSite

/-- What the environment holds under a name: a text, or bytes that are none. -/
inductive Variable where
  | text (content : String)
  | bytes (content : List UInt8)
deriving DecidableEq, Repr

def Variable.ofBytes (content : List UInt8) : Variable :=
  match Utf8.decode? content with
  | some decoded => .text decoded
  | none => .bytes content

/-- The variables that are set. -/
abbrev Environment := String → Option Variable

/-- The environment of assignments, each of them a name, an equals sign and a value. A
name is looked up by what the assignments start with, so it may also reach into a
value that has an equals sign. -/
def Environment.ofAssignments (assignments : List (List UInt8)) : Environment := fun name =>
  if name = "" then none
  else
    let start := Utf8.encode (name ++ "=")
    (assignments.find? start.isPrefixOf).map fun found => .ofBytes (found.drop start.length)

inductive Piece where
  | literal (content : List Char)
  | reference (name : String) (default? : Option String)
deriving DecidableEq, Repr

inductive TemplateError where
  | notSet (name : String)
  | notText (name : String)
deriving DecidableEq, Repr

namespace TemplateError

def braced (name : String) : String := "$\x7b" ++ name ++ "\x7d"

def message : TemplateError → String
  | .notSet name => braced name ++ " not set"
  | .notText name => braced name ++ " is not valid unicode"

end TemplateError

namespace Template

def splitDefault? : List Char → Option (List Char × List Char)
  | [] => none
  | ':' :: '-' :: cs => some ([], cs)
  | c :: cs => (splitDefault? cs).map fun (name, rest) => (c :: name, rest)

/-- The reference that the text between two braces is. A text that starts with `:-`
has no default but is a name as a whole. -/
def reference (content : List Char) : Piece :=
  match splitDefault? content with
  | some (c :: name, rest) => .reference (String.ofList (c :: name)) (some (String.ofList rest))
  | _ => .reference (String.ofList content) none

def isNameChar (c : Char) : Bool := Text.isAlphanumeric c || c == '_'

/-- Reads a text with references into pieces. An opening brace that is never closed
stands for itself. -/
def scan : List Char → List Piece
  | [] => []
  | '$' :: '\x7b' :: cs =>
    if '\x7d' ∈ cs then
      reference (cs.takeWhile (· != '\x7d'))
        :: scan ((cs.dropWhile (· != '\x7d')).drop 1)
    else .literal ['$', '\x7b'] :: scan cs
  | '$' :: '$' :: cs => .literal ['$'] :: scan cs
  | '$' :: cs =>
    if cs.takeWhile isNameChar = [] then .literal ['$'] :: scan cs
    else
      .reference (String.ofList (cs.takeWhile isNameChar)) none :: scan (cs.dropWhile isNameChar)
  | c :: cs => .literal [c] :: scan cs
termination_by cs => cs.length
decreasing_by
  all_goals
    have := (List.dropWhile_suffix (l := cs) (· != '\x7d')).length_le
    have := (List.dropWhile_suffix (l := cs) isNameChar).length_le
    simp only [List.length_drop, List.length_cons]
    omega

/-- Whether a text has a reference in braces, closed or not. -/
def hasReference : List Char → Bool
  | '$' :: '\x7b' :: _ => true
  | _ :: cs => hasReference cs
  | [] => false

def ofString (text : String) : List Piece :=
  if hasReference text.toList then scan text.toList else [.literal text.toList]

def fillPiece (env : Environment) : Piece → Except TemplateError (List Char)
  | .literal content => .ok content
  | .reference name default? =>
    match env name, default? with
    | some (.text content), _ => .ok content.toList
    | _, some default => .ok default.toList
    | some (.bytes _), none => .error (.notText name)
    | none, none => .error (.notSet name)

/-- What the pieces of a template stand for, up to the first that fails. -/
def fill (env : Environment) : List Piece → Except TemplateError (List Char)
  | [] => .ok []
  | piece :: pieces => do
    let content ← fillPiece env piece
    let rest ← fill env pieces
    .ok (content ++ rest)

end Template

/-- A string with its references replaced by what they stand for. -/
def expand (env : Environment) (text : String) : Except TemplateError String := do
  let content ← Template.fill env (Template.ofString text)
  .ok (String.ofList content)

end StaticSite
