import StaticSite.Association
import StaticSite.Markup.Value
/-!
# Props

`Props` are the named values given to an element, and its children. Attributes
keep the order in which their names were first set. The name `children` stands
for the children, which are kept apart, so they are never written as an
attribute.

What is found under a name after `set` is the value that was set under it last
(`Props.get?_set_self`, `Props.get?_set_of_ne`).
-/

namespace StaticSite

/-- The named values and the children of an element. -/
structure Props where
  attributes : List (String × Value) := []
  children : Value := .null
deriving Inhabited

namespace Props

def childrenName : String := "children"

def empty : Props := {}

/-- The value under a name. The name of the children always has one. -/
def get? (p : Props) (name : String) : Option Value :=
  if name = childrenName then some p.children else p.attributes.lookup name

def set (p : Props) (name : String) (value : Value) : Props :=
  if name = childrenName then { p with children := value }
  else { p with attributes := Association.put name value p.attributes }

theorem get?_set_self (p : Props) (name : String) (value : Value) :
    (p.set name value).get? name = some value := by
  by_cases h : name = childrenName
  · simp [get?, set, h]
  · simp [get?, set, h, Association.lookup_put_self]

theorem get?_set_of_ne (p : Props) {name other : String} (value : Value) (h : other ≠ name) :
    (p.set name value).get? other = p.get? other := by
  by_cases hn : name = childrenName
  · simp [get?, set, hn, hn ▸ h]
  · by_cases ho : other = childrenName
    · simp [get?, set, hn, ho]
    · simp [get?, set, hn, ho, Association.lookup_put_of_ne _ _ h]

/-- What `set` displaces. Children that are null count as absent. -/
def displaced? (p : Props) (name : String) : Option Value :=
  match p.get? name with
  | some .null => if name = childrenName then none else some .null
  | found => found

def setChildren (p : Props) (children : Value) : Props := { p with children }

def takeChildren (p : Props) : Value × Props := (p.children, p.setChildren .null)

def setAll (p : Props) (pairs : List (String × Value)) : Props :=
  pairs.foldl (fun q pair => q.set pair.1 pair.2) p

def ofList (pairs : List (String × Value)) : Props := empty.setAll pairs

def text (p : Props) (name : String) : String :=
  ((p.get? name).map Value.displayText).getD ""

def size (p : Props) : Nat := p.attributes.length

def isEmpty (p : Props) : Bool := p.attributes.isEmpty

/-- Equality of props: the same names with equal values, in whatever order, and
equal children. -/
def equal (p q : Props) : Bool :=
  p.size == q.size
    && p.attributes.all (fun (name, value) =>
      match q.attributes.lookup name with
      | some other => value.equal other
      | none => false)
    && p.children.equal q.children

end Props

end StaticSite
