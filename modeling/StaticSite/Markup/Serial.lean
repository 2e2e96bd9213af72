import StaticSite.Json.Reader
import StaticSite.Markup.Value
/-!
# Values as JSON

A value is written to JSON without a tag for its kind: markup becomes a string
like text, and a number that JSON cannot hold becomes null. Reading gives every
JSON value but an object a meaning; it never gives markup.
-/

namespace StaticSite

namespace Json.Number

def ofInt64 (n : Int64) : Number :=
  if 0 ≤ n then .natural n.toUInt64 else .negative n

/-- The value of a number. Integers beyond the signed 64 bits become text. -/
def toValue : Number → Value
  | .natural n => .ofInt n.toNat
  | .negative n => .int n
  | .float x => .float x

end Json.Number

namespace Value

/-- The builder of values, which has no place for objects. -/
def builder : Json.Builder Value where
  null := .null
  bool := .bool
  number := Json.Number.toValue
  string := .text
  array := .list
  object? := none

mutual

def toJson : Value → Json
  | .null => .null
  | .markup content => .string content.html
  | .list items => .array (toJsons items)
  | .text content => .string content
  | .int n => .number (.ofInt64 n)
  | .float x => if x.isFinite then .number (.float x) else .null
  | .bool b => .bool b

def toJsons : List Value → List Json
  | [] => []
  | v :: vs => toJson v :: toJsons vs

end

mutual

/-- The value of a JSON tree, if it holds no object. -/
def ofJson? : Json → Option Value
  | .null => some .null
  | .bool b => some (.bool b)
  | .number n => some n.toValue
  | .string content => some (.text content)
  | .array items => (ofJsons? items).map .list
  | .object _ => none

def ofJsons? : List Json → Option (List Value)
  | [] => some []
  | j :: js => do
    let v ← ofJson? j
    let vs ← ofJsons? js
    some (v :: vs)

end

def ofJsonText (text : String) : Except Json.ReadError Value := Json.read builder text

/-- The optional value of a JSON tree: null is none. -/
def optionOfJson? : Json → Option (Option Value)
  | .null => some none
  | tree => (ofJson? tree).map some

/-- Reads the text into a tree first, and what is wanted from the tree. -/
def readTree {α : Type} (meaning? : Json → Option α) (text : String) :
    Except Json.ReadError α := do
  let tree ← Json.read .tree text
  match meaning? tree with
  | some a => .ok a
  | none => .error .misplaced

def ofJsonTree (text : String) : Except Json.ReadError Value := readTree ofJson? text

def optionOfJsonTree (text : String) : Except Json.ReadError (Option Value) :=
  readTree optionOfJson? text

def objectMessage : String :=
  "invalid type: map, expected null, a boolean, a number, a string or a sequence"

end Value

namespace Markup

/-- Reads markup from a JSON text that is a string. A value of another kind is
refused as soon as that is known: a word or a number when it has been read, an
array or an object when it opens. -/
def ofJsonText (text : String) : Except Json.ReadError Markup :=
  match Json.skipBlanks text.toList with
  | '"' :: cs => do
    let (content, rest) ← Json.orMalformed (Json.Quoted.readRest cs)
    Json.finish (⟨String.ofList content⟩, rest)
  | '[' :: _ => .error .misplaced
  | '{' :: _ => .error .misplaced
  | cs => do
    let _ ← Json.readValue Value.builder 1 0 cs
    .error .misplaced

end Markup

end StaticSite
