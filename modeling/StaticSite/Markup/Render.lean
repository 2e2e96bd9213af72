import StaticSite.Markup.Escape
import StaticSite.Markup.Value
/-!
# Rendering

Rendering turns a value into markup: nothing becomes empty markup, finished
markup stays as it is, a list is the concatenation of its elements, and every
other value is its display text, escaped.
-/

namespace StaticSite.Value

mutual

/-- Appends the rendering of a value to what has been written already. -/
def renderInto (out : String) : Value → String
  | .null => out
  | .markup content => out ++ content.html
  | .list items => renderAllInto out items
  | leaf => out ++ Markup.escapeText leaf.displayText

def renderAllInto (out : String) : List Value → String
  | [] => out
  | v :: vs => renderAllInto (renderInto out v) vs

end

def render : Value → Markup
  | .null => .empty
  | .markup content => content
  | .list items => ⟨renderAllInto "" items⟩
  | leaf => ⟨Markup.escapeText leaf.displayText⟩

end StaticSite.Value
