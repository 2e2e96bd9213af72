import StaticSite.Toml.Moment
import StaticSite.Toml.Numeral
import StaticSite.Toml.Quoted
/-!
# Reading TOML documents

The text of a document is read into statements: headers, each of which opens a
table or a new table of a series, and assignments of a value to a key. What the
statements mean together is said in `StaticSite.Toml.Document`; the statements
between the braces of an inline table are put together by a function that the
reader is given.

Arrays and inline tables may be nested 80 deep, and a key has 80 parts at most.
-/

namespace StaticSite.Toml

/-- A key: its last part, and the parts before it. -/
structure Key where
  path : List String
  name : String
deriving DecidableEq, Repr

/-- An assignment of a value to a key. -/
structure Assignment where
  key : Key
  value : Value

/-- A statement of a document. -/
inductive Statement where
  | table (key : Key)
  | element (key : Key)
  | assignment (a : Assignment)

namespace Reader

def skipBlanks (cs : List Char) : List Char := cs.dropWhile isBlank

/-- Skips blanks, line ends and comments. Without a value if a comment holds a
control character. -/
def skipSpace (inComment : Bool) : List Char → Option (List Char)
  | [] => some []
  | '\r' :: '\n' :: cs => skipSpace false cs
  | c :: cs =>
    if c = '\n' then skipSpace false cs
    else if inComment then (if isControl c then none else skipSpace true cs)
    else if c = '#' then skipSpace true cs
    else if isBlank c then skipSpace false cs
    else some (c :: cs)

/-- Skips what may stand between the key, the equals sign and the value of an
assignment: blanks, and between braces also line ends and comments. -/
def skipWithin (isInline : Bool) (cs : List Char) : Option (List Char) :=
  if isInline then skipSpace false cs else some (skipBlanks cs)

/-- The text after a statement, which must go on with a line end, a comment or
nothing. -/
def endStatement? (cs : List Char) : Option (List Char) :=
  match skipBlanks cs with
  | [] => some []
  | '#' :: cs => some ('#' :: cs)
  | cs => afterNewline? cs

def isBareKeyChar (c : Char) : Bool := c.isAlphanum || c == '_' || c == '-'

def readKeyPart (cs : List Char) : Option (String × List Char) :=
  match Quoted.readLine cs with
  | some (text, rest) => some (String.ofList text, rest)
  | none =>
    match cs.takeWhile isBareKeyChar with
    | [] => none
    | name => some (String.ofList name, cs.dropWhile isBareKeyChar)

def keyLimit : Nat := 80

/-- Reads a key, the parts of which are separated by points. The number says how many
there may be. -/
def readKey : Nat → List Char → Option (Key × List Char)
  | 0, _ => none
  | parts + 1, cs => do
    let (part, rest) ← readKeyPart (skipBlanks cs)
    match skipBlanks rest with
    | '.' :: rest => do
      let (key, rest) ← readKey parts rest
      some (⟨part :: key.path, key.name⟩, rest)
    | rest => some (⟨[], part⟩, rest)

/-- The characters other than blanks at which a value without delimiters of its own
ends. -/
def plainEnds : List Char := ['\n', '\r', ',', '=', '#', '[', ']', '\x7b', '\x7d']

def endsPlain (c : Char) : Bool := isBlank c || plainEnds.contains c

/-- Splits off a value that has no delimiters of its own. A date and a time may have
a space between them. -/
def spanPlain (cs : List Char) : List Char × List Char :=
  let word := cs.takeWhile (!endsPlain ·)
  match cs.dropWhile (!endsPlain ·) with
  | ' ' :: d :: rest =>
    if d.isDigit && Moment.afterDate? word == some [] then
      let time := (d :: rest).takeWhile (!endsPlain ·)
      (word ++ ' ' :: time, (d :: rest).dropWhile (!endsPlain ·))
    else (word, ' ' :: d :: rest)
  | rest => (word, rest)

def plainValue? (word : List Char) : Option Value :=
  if word = "true".toList then some (.bool true)
  else if word = "false".toList then some (.bool false)
  else if Moment.isMoment word then some (.moment (String.ofList word))
  else Numeral.parse? word

def nestingLimit : Nat := 80

mutual

/-- Reads a value. `depth` is the nesting that is still allowed, `fuel` bounds the
number of calls, and `build` makes a table of assignments. -/
def readValue (build : List Assignment → Option Members) (fuel depth : Nat)
    (cs : List Char) : Option (Value × List Char) :=
  match fuel with
  | 0 => none
  | fuel + 1 =>
    match cs with
    | '"' :: _ => (Quoted.read cs).map fun (text, rest) => (.text (String.ofList text), rest)
    | '\'' :: _ => (Quoted.read cs).map fun (text, rest) => (.text (String.ofList text), rest)
    | '[' :: cs =>
      match depth with
      | 0 => none
      | depth + 1 => (readItems build fuel depth cs).map fun (items, rest) => (.array items, rest)
    | '{' :: cs =>
      match depth with
      | 0 => none
      | depth + 1 => do
        let (assignments, rest) ← readAssignments build fuel depth cs
        let members ← build assignments
        some (.table .inline members, rest)
    | cs =>
      let (word, rest) := spanPlain cs
      (plainValue? word).map fun v => (v, rest)

/-- Reads the items of an array and its closing bracket. A comma may follow the last
item. -/
def readItems (build : List Assignment → Option Members) (fuel depth : Nat)
    (cs : List Char) : Option (List Value × List Char) :=
  match fuel with
  | 0 => none
  | fuel + 1 => do
    match ← skipSpace false cs with
    | ']' :: rest => some ([], rest)
    | cs =>
      let (item, rest) ← readValue build fuel depth cs
      match ← skipSpace false rest with
      | ']' :: rest => some ([item], rest)
      | ',' :: rest => do
        let (items, rest) ← readItems build fuel depth rest
        some (item :: items, rest)
      | _ => none

/-- Reads the assignments of an inline table and its closing brace. A comma may
follow the last assignment. -/
def readAssignments (build : List Assignment → Option Members) (fuel depth : Nat)
    (cs : List Char) : Option (List Assignment × List Char) :=
  match fuel with
  | 0 => none
  | fuel + 1 => do
    match ← skipSpace false cs with
    | '}' :: rest => some ([], rest)
    | cs =>
      let (a, rest) ← readAssignment build true fuel depth cs
      match ← skipSpace false rest with
      | '}' :: rest => some ([a], rest)
      | ',' :: rest => do
        let (assignments, rest) ← readAssignments build fuel depth rest
        some (a :: assignments, rest)
      | _ => none

/-- Reads a key, an equals sign and a value, between braces or on a line. -/
def readAssignment (build : List Assignment → Option Members) (isInline : Bool)
    (fuel depth : Nat) (cs : List Char) : Option (Assignment × List Char) :=
  match fuel with
  | 0 => none
  | fuel + 1 => do
    let (key, rest) ← readKey keyLimit cs
    match ← skipWithin isInline rest with
    | '=' :: rest => do
      let (value, rest) ← readValue build fuel depth (← skipWithin isInline rest)
      some (⟨key, value⟩, rest)
    | _ => none

end

/-- Reads the rest of a header after its opening brackets, which are closed by
`closing`. -/
def readHeader (closing : List Char) (cs : List Char) : Option (Key × List Char) := do
  let (key, rest) ← readKey keyLimit cs
  if closing.isPrefixOf rest then some (key, rest.drop closing.length) else none

/-- Reads one statement. Each call of the reader of values is followed by at most
three more before a character is taken. -/
def readStatement (build : List Assignment → Option Members) (cs : List Char) :
    Option (Statement × List Char) :=
  match cs with
  | '[' :: '[' :: cs =>
    (readHeader [']', ']'] cs).map fun (key, rest) => (.element key, rest)
  | '[' :: cs => (readHeader [']'] cs).map fun (key, rest) => (.table key, rest)
  | cs =>
    (readAssignment build false (4 * cs.length + 4) nestingLimit cs).map
      fun (a, rest) => (.assignment a, rest)

/-- Reads the statements of a document, each of which takes a character at least. -/
def readStatements (build : List Assignment → Option Members) :
    Nat → List Char → Option (List Statement)
  | 0, _ => none
  | fuel + 1, cs => do
    match ← skipSpace false cs with
    | [] => some []
    | cs =>
      let (statement, rest) ← readStatement build cs
      let rest ← endStatement? rest
      let statements ← readStatements build fuel rest
      some (statement :: statements)

def dropByteOrderMark : List Char → List Char
  | '\uFEFF' :: cs => cs
  | cs => cs

def statements? (build : List Assignment → Option Members) (text : String) :
    Option (List Statement) :=
  let cs := dropByteOrderMark text.toList
  readStatements build (cs.length + 1) cs

end Reader

end StaticSite.Toml
