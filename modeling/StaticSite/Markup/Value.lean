import StaticSite.Number.Shortest
/-!
# Values

A `Value` is what an attribute or a child of an element holds: text, a number,
a truth value, a list, finished markup, or nothing. Every value has a display
text, which is what attributes show and what is escaped when a leaf is
rendered.
-/

namespace StaticSite

/-- Finished markup. It is inserted into a document as it stands. -/
structure Markup where
  html : String
deriving DecidableEq, Repr, Inhabited

namespace Markup

def empty : Markup := ⟨""⟩

def isEmpty (m : Markup) : Bool := m.html.isEmpty

theorem eq_mk_of_html_eq {m : Markup} {html : String} (h : m.html = html) : m = ⟨html⟩ := by
  cases m
  exact congrArg mk h

end Markup

/-- A value that can be an attribute or a child. Integers have 64 bits. -/
inductive Value where
  | null
  | markup (content : Markup)
  | list (items : List Value)
  | text (content : String)
  | int (n : Int64)
  | float (x : Double)
  | bool (b : Bool)
deriving Inhabited

namespace Value

/-- An integer of any size: outside the range of 64 bits it is kept as the text
of its digits. -/
def ofInt (n : Int) : Value :=
  if Int64.minValue.toInt ≤ n ∧ n ≤ Int64.maxValue.toInt then .int (Int64.ofInt n)
  else .text n.repr

def ofOption (v : Option Value) : Value := v.getD .null

def isNull : Value → Bool
  | .null => true
  | _ => false

def asText? : Value → Option String
  | .text content => some content
  | _ => none

def asInt? : Value → Option Int64
  | .int n => some n
  | _ => none

def asBool? : Value → Option Bool
  | .bool b => some b
  | _ => none

def asList? : Value → Option (List Value)
  | .list items => some items
  | _ => none

mutual

/-- The text that stands for a value before escaping. The texts of a list are
joined with commas. -/
def displayText : Value → String
  | .null => ""
  | .markup content => content.html
  | .list items => ",".intercalate (displayTexts items)
  | .text content => content
  | .int n => n.toInt.repr
  | .float x => x.text
  | .bool true => "true"
  | .bool false => "false"

def displayTexts : List Value → List String
  | [] => []
  | v :: vs => displayText v :: displayTexts vs

end

mutual

/-- Equality of values: of the same kind and with equal content. Numbers are
compared as numbers, so a NaN is equal to nothing. -/
def equal : Value → Value → Bool
  | .null, .null => true
  | .markup a, .markup b => a == b
  | .list as, .list bs => equalAll as bs
  | .text a, .text b => a == b
  | .int a, .int b => a == b
  | .float a, .float b => a.equal b
  | .bool a, .bool b => a == b
  | _, _ => false

def equalAll : List Value → List Value → Bool
  | [], [] => true
  | a :: as, b :: bs => equal a b && equalAll as bs
  | _, _ => false

end

end Value

end StaticSite
