import StaticSite.Markup.Props
import StaticSite.Markup.Render
/-!
# Nodes

A node is written either as an element with a tag, or by a component: a
function from props to a value. Void elements have neither content nor an end
tag.
-/

namespace StaticSite

/-- What a node is written as. -/
inductive Node where
  | tag (name : String)
  | component (invoke : Props → Value)

namespace Node

def voidElements : List String :=
  ["area", "base", "br", "col", "embed", "hr", "img", "input", "link", "meta", "param",
    "source", "track", "wbr"]

/-- Whether a tag names a void element. The comparison is exact, case included. -/
def isVoidElement (tag : String) : Bool := voidElements.contains tag

def renderFragment (p : Props) : Markup := p.children.render

/-- The node that groups its children and adds nothing of its own. -/
def fragment : Node := .component fun p => .markup (renderFragment p)

/-- The attributes of an element as they are written in its start tag. Names are
written as they are given. -/
def writeAttributes (out : String) (attributes : List (String × Value)) : String :=
  attributes.foldl
    (fun out (name, value) =>
      out ++ " " ++ name ++ "=\"" ++ Markup.escapeAttribute value.displayText ++ "\"")
    out

/-- The props that a component receives: those given, with the list of children
in the place of any others. -/
def componentProps (p : Props) (children : List Value) : Props := p.setChildren (.list children)

/-- Writes a node with the given children. A void element ignores them. -/
def render (node : Node) (p : Props) (children : List Value) : Markup :=
  match node with
  | .component invoke => (invoke (componentProps p children)).render
  | .tag name =>
    let start := writeAttributes ("<" ++ name) p.attributes
    if isVoidElement name then ⟨start ++ "/>"⟩
    else ⟨Value.renderAllInto (start ++ ">") children ++ "</" ++ name ++ ">"⟩

def wrap (tag : String) (children : List Value) : Markup := render (.tag tag) .empty children

/-- The list of children that a single value stands for: a list is one already,
any other value is a list of one. -/
def childList : Value → List Value
  | .list items => items
  | single => [single]

/-- Writes a node whose children are among its props. -/
def renderFromProps (node : Node) (p : Props) : Markup :=
  render node p.takeChildren.2 (childList p.takeChildren.1)

end Node

end StaticSite
