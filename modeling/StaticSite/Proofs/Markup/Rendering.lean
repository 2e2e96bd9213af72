import StaticSite.Markup.Node
import StaticSite.Markup.Render
/-!
# What rendering appends

Rendering into a text that has been written already only ever appends to it, so
the rendering of a list is the concatenation of the renderings of its items.
-/

namespace StaticSite

namespace Value

mutual

theorem renderInto_eq_append (out : String) (v : Value) :
    renderInto out v = out ++ v.render.html := by
  cases v with
  | null =>
      simp [renderInto, render, Markup.empty]
  | list items =>
      exact renderAllInto_eq_append out items
  | markup content => rfl
  | text content => rfl
  | int n => rfl
  | float x => rfl
  | bool b => rfl

theorem renderAllInto_eq_append (out : String) (vs : List Value) :
    renderAllInto out vs = out ++ renderAllInto "" vs := by
  cases vs with
  | nil =>
      simp [renderAllInto]
  | cons v rest =>
      have hhead := renderInto_eq_append out v
      have hempty := renderInto_eq_append "" v
      have htail := renderAllInto_eq_append (renderInto out v) rest
      have htailEmpty := renderAllInto_eq_append (renderInto "" v) rest
      simp only [renderAllInto]
      rw [htail, htailEmpty, hhead, hempty]
      simp [String.append_assoc]

end

theorem renderAllInto_cons (v : Value) (vs : List Value) :
    renderAllInto "" (v :: vs) = v.render.html ++ renderAllInto "" vs := by
  rw [renderAllInto, renderAllInto_eq_append, renderInto_eq_append]
  simp

end Value

namespace Node

theorem render_fragment (p : Props) (children : List Value) :
    Node.render fragment p children = (Value.list children).render :=
  rfl

def attributeChars (attributes : List (String × String)) : List Char :=
  attributes.flatMap fun (name, content) =>
    ' ' :: (name.toList ++ '=' :: '"' ::
      (content.toList.flatMap Markup.attributeReference ++ ['"']))

/-- The attributes of an element as they are shown. -/
def shownAttributes (attributes : List (String × Value)) : List (String × String) :=
  attributes.map fun (name, value) => (name, value.displayText)

theorem toList_writeAttributes (out : String) (attributes : List (String × Value)) :
    (writeAttributes out attributes).toList =
      out.toList ++ attributeChars (shownAttributes attributes) := by
  induction attributes generalizing out with
  | nil =>
      simp [writeAttributes, attributeChars, shownAttributes]
  | cons pair rest ih =>
      rcases pair with ⟨name, value⟩
      have hrest := ih (out ++ " " ++ name ++ "=\"" ++
        Markup.escapeAttribute value.displayText ++ "\"")
      rw [writeAttributes] at hrest
      rw [writeAttributes, List.foldl_cons, hrest]
      simp [attributeChars, shownAttributes, Markup.escapeAttribute]

def elementChars (tag : String) (attributes : List (String × String)) (children : List Value) :
    List Char :=
  '<' :: (tag.toList ++ attributeChars attributes ++
    if isVoidElement tag then ['/', '>']
    else '>' :: ((Value.renderAllInto "" children).toList ++ '<' :: '/' :: (tag.toList ++ ['>'])))

theorem toList_render_tag (tag : String) (p : Props) (children : List Value) :
    (render (.tag tag) p children).html.toList =
      elementChars tag (shownAttributes p.attributes) children := by
  by_cases h : isVoidElement tag
  · simp [render, elementChars, h, toList_writeAttributes]
  · rw [render, if_neg h, Value.renderAllInto_eq_append, elementChars, if_neg h]
    simp [toList_writeAttributes]

end Node

end StaticSite
