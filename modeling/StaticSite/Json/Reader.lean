import StaticSite.Json.Number
import StaticSite.Json.Quoted
/-!
# Reading JSON texts

The reader is generic in what it makes of a text: a `Builder` says what stands
for each kind of value. A builder may have no place for objects; then an object
is refused as soon as it opens, whatever follows. All other failures are those
of a text that is not JSON, so of the two kinds of failure the one that is met
first is reported.

Arrays and objects may be nested 127 deep.
-/

namespace StaticSite.Json

inductive ReadError where
  /-- The text is not JSON, or holds a number or nesting beyond the limits. -/
  | malformed
  /-- The text holds a value of a kind that the builder has no place for. -/
  | misplaced
deriving DecidableEq, Repr

/-- What stands for each kind of JSON value. -/
structure Builder (α : Type) where
  null : α
  bool : Bool → α
  number : Number → α
  string : String → α
  array : List α → α
  /-- Without a value if objects are refused. -/
  object? : Option (List (String × α) → α)

def Builder.tree : Builder Json where
  null := .null
  bool := .bool
  number := .number
  string := .string
  array := .array
  object? := some .object

def isBlank (c : Char) : Bool := c == ' ' || c == '\t' || c == '\n' || c == '\r'

def skipBlanks (cs : List Char) : List Char := cs.dropWhile isBlank

def stripStart? : List Char → List Char → Option (List Char)
  | [], cs => some cs
  | w :: ws, c :: cs => if w = c then stripStart? ws cs else none
  | _ :: _, [] => none

def readWord {α : Type} (word : String) (value : α) (cs : List Char) :
    Except ReadError (α × List Char) :=
  match stripStart? word.toList cs with
  | some rest => .ok (value, rest)
  | none => .error .malformed

def orMalformed {α : Type} : Option α → Except ReadError α
  | some a => .ok a
  | none => .error .malformed

def nestingLimit : Nat := 127

mutual

/-- Reads a value, after white space. `depth` is the nesting that is still allowed,
and `fuel` bounds the number of calls. -/
def readValue {α : Type} (b : Builder α) (fuel depth : Nat) (cs : List Char) :
    Except ReadError (α × List Char) :=
  match fuel with
  | 0 => .error .malformed
  | fuel + 1 =>
    match skipBlanks cs with
    | [] => .error .malformed
    | 'n' :: cs => readWord "null" b.null ('n' :: cs)
    | 't' :: cs => readWord "true" (b.bool true) ('t' :: cs)
    | 'f' :: cs => readWord "false" (b.bool false) ('f' :: cs)
    | '"' :: cs => do
      let (text, rest) ← orMalformed (Quoted.readRest cs)
      .ok (b.string (String.ofList text), rest)
    | '[' :: cs =>
      match depth with
      | 0 => .error .malformed
      | depth + 1 =>
        match skipBlanks cs with
        | ']' :: rest => .ok (b.array [], rest)
        | cs => do
          let (items, rest) ← readItems b fuel depth cs
          .ok (b.array items, rest)
    | '{' :: cs =>
      match depth, b.object? with
      | 0, _ => .error .malformed
      | _ + 1, none => .error .misplaced
      | depth + 1, some build =>
        match skipBlanks cs with
        | '}' :: rest => .ok (build [], rest)
        | cs => do
          let (members, rest) ← readMembers b fuel depth cs
          .ok (build members, rest)
    | cs => do
      let (n, rest) ← orMalformed (Number.read cs)
      .ok (b.number n, rest)

/-- Reads the items of an array, of which there is one at least, and its closing
bracket. -/
def readItems {α : Type} (b : Builder α) (fuel depth : Nat) (cs : List Char) :
    Except ReadError (List α × List Char) :=
  match fuel with
  | 0 => .error .malformed
  | fuel + 1 => do
    let (item, rest) ← readValue b fuel depth cs
    match skipBlanks rest with
    | ']' :: rest => .ok ([item], rest)
    | ',' :: rest => do
      let (items, rest) ← readItems b fuel depth rest
      .ok (item :: items, rest)
    | _ => .error .malformed

/-- Reads the members of an object, of which there is one at least, and its closing
brace. -/
def readMembers {α : Type} (b : Builder α) (fuel depth : Nat) (cs : List Char) :
    Except ReadError (List (String × α) × List Char) :=
  match fuel with
  | 0 => .error .malformed
  | fuel + 1 =>
    match skipBlanks cs with
    | '"' :: cs => do
      let (name, rest) ← orMalformed (Quoted.readRest cs)
      match skipBlanks rest with
      | ':' :: rest => do
        let (value, rest) ← readValue b fuel depth rest
        match skipBlanks rest with
        | '}' :: rest => .ok ([(String.ofList name, value)], rest)
        | ',' :: rest => do
          let (members, rest) ← readMembers b fuel depth rest
          .ok ((String.ofList name, value) :: members, rest)
        | _ => .error .malformed
      | _ => .error .malformed
    | _ => .error .malformed

end

def finish {α : Type} : α × List Char → Except ReadError α
  | (value, rest) => if (skipBlanks rest).isEmpty then .ok value else .error .malformed

/-- Reads a whole text. Every call of the reader that is not answered at once takes
a character, and at most two calls are made for one character. -/
def read {α : Type} (b : Builder α) (text : String) : Except ReadError α := do
  finish (← readValue b (2 * text.length + 2) nestingLimit text.toList)

end StaticSite.Json
