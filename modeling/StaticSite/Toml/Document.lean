import StaticSite.Association
import StaticSite.Toml.Reader
/-!
# TOML documents

The statements of a document build up one tree of tables. A header opens the
table of its key, and the tables before the last part of the key come to be on
the way; assignments go to the table that was opened last. A table may have one
header only, a key may be assigned once, and dotted keys may add to tables that
came to be by dotted keys but not to those that have a header of their own. In a
path, a series stands for its last table. A table that came to be on the way to
another one counts as dotted once a dotted key has led to it or through it.
-/

namespace StaticSite.Toml

open Association (put)

namespace Members

def add? (name : String) (value : Value) (m : Members) : Option Members :=
  match m.lookup name with
  | some _ => none
  | none => some (m ++ [(name, value)])

def changeLast? (change : Members → Option Members) : List Members → Option (List Members)
  | [] => none
  | [last] => (change last).map ([·])
  | first :: rest => (changeLast? change rest).map (first :: ·)

/-- Changes the table that the parts of a header lead to. Tables that are missing on
the way come to be. -/
def changeAt? (change : Members → Option Members) : List String → Members → Option Members
  | [], m => change m
  | part :: path, m =>
    match m.lookup part with
    | none => do
      let inner ← changeAt? change path []
      some (m ++ [(part, .table .implied inner)])
    | some (.table origin inner) =>
      if origin = .inline then none
      else do
        let inner ← changeAt? change path inner
        some (put part (.table origin inner) m)
    | some (.series tables) => do
      let tables ← changeLast? (changeAt? change path) tables
      some (put part (.series tables) m)
    | some _ => none

/-- Opens the table of a name by a header of its own. It may have come to be before
only on the way to other tables. -/
def openTable? (name : String) (m : Members) : Option Members :=
  match m.lookup name with
  | none => some (m ++ [(name, .table .header [])])
  | some (.table .implied inner) => some (put name (.table .header inner) m)
  | some _ => none

def openElement? (name : String) (m : Members) : Option Members :=
  match m.lookup name with
  | none => some (m ++ [(name, .series [[]])])
  | some (.series tables) => some (put name (.series (tables ++ [[]])) m)
  | some _ => none

/-- Assigns a value below the table that the parts of a dotted key lead to. A value
cannot be assigned to the last table of a series itself; `isOpen` says that the
table reached so far is none. -/
def assignWithin? (isOpen : Bool) (name : String) (value : Value) :
    List String → Members → Option Members
  | [], m => if isOpen then add? name value m else none
  | part :: path, m =>
    match m.lookup part with
    | none => do
      let inner ← assignWithin? true name value path []
      some (m ++ [(part, .table .dotted inner)])
    | some (.table origin inner) =>
      if origin = .inline ∨ origin = .header then none
      else do
        let inner ← assignWithin? true name value path inner
        some (put part (.table .dotted inner) m)
    | some (.series tables) => do
      let tables ← changeLast? (assignWithin? false name value path) tables
      some (put part (.series tables) m)
    | some _ => none

def assign? (a : Assignment) (m : Members) : Option Members :=
  match a.key.path with
  | [] => add? a.key.name a.value m
  | path => assignWithin? true a.key.name a.value path m

def ofAssignments? (assignments : List Assignment) : Option Members :=
  assignments.foldlM (fun m a => assign? a m) []

end Members

namespace Document

/-- A document of which some statements have been taken: its root, and the path of
the table that was opened last. -/
structure Draft where
  root : Members := []
  current : List String := []

def Draft.take? (d : Draft) : Statement → Option Draft
  | .table key => do
    let root ← Members.changeAt? (Members.openTable? key.name) key.path d.root
    some ⟨root, key.path ++ [key.name]⟩
  | .element key => do
    let root ← Members.changeAt? (Members.openElement? key.name) key.path d.root
    some ⟨root, key.path ++ [key.name]⟩
  | .assignment a => do
    let root ← Members.changeAt? (Members.assign? a) d.current d.root
    some { d with root }

def read? (text : String) : Option Members := do
  let statements ← Reader.statements? Members.ofAssignments? text
  let draft ← statements.foldlM Draft.take? {}
  some draft.root

end Document

end StaticSite.Toml
