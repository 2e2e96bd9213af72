import StaticSite.Proofs.Markup.Leaves
/-!
# Putting values together

An arrangement says how children are put together by lists, groups and elements. A group
and an element are rendered at once, so what is left of them in the value is finished
markup. This cannot be told from the document: it depends on the leaves alone, and
neither on how they are listed and grouped (`Arrangement.render_congr_of_leaves`) nor on
when they are rendered (`Context.render_fill_markup`).
-/

namespace StaticSite

namespace Node

theorem render_tag_congr (tag : String) (p : Props) {vs ws : List Value}
    (h : Value.concatenation vs = Value.concatenation ws) :
    render (.tag tag) p vs = render (.tag tag) p ws := by
  rw [render, render, Value.renderAllInto_eq_append _ vs, Value.renderAllInto_eq_append _ ws,
    Value.renderAllInto_eq_concatenation, Value.renderAllInto_eq_concatenation, h]

end Node

/-!
## Arrangements
-/

/-- Values as they are put together by lists, groups and elements. -/
inductive Arrangement where
  | value (v : Value)
  | list (items : List Arrangement)
  | group (p : Props) (children : List Arrangement)
  | element (tag : String) (p : Props) (children : List Arrangement)

/-- What can be seen of an arrangement: the leaves of its values, and its elements. -/
inductive Arrangement.Leaf where
  | value (v : Value)
  | element (tag : String) (p : Props) (children : List Arrangement.Leaf)

namespace Arrangement

mutual

/-- The value that is put together. Groups and elements are rendered at once. -/
def toValue : Arrangement → Value
  | .value v => v
  | .list items => .list (toValues items)
  | .group p children => .markup (Node.render .fragment p (toValues children))
  | .element tag p children => .markup (Node.render (.tag tag) p (toValues children))

def toValues : List Arrangement → List Value
  | [] => []
  | a :: as => toValue a :: toValues as

end

mutual

/-- The leaves of an arrangement from left to right, without nulls. -/
def leaves : Arrangement → List Leaf
  | .value v => v.shownLeaves.map .value
  | .list items => allLeaves items
  | .group _ children => allLeaves children
  | .element tag p children => [.element tag p (allLeaves children)]

def allLeaves : List Arrangement → List Leaf
  | [] => []
  | a :: as => leaves a ++ allLeaves as

end

mutual

def Leaf.toValue : Leaf → Value
  | .value v => v
  | .element tag p children => .markup (Node.render (.tag tag) p (Leaf.toValues children))

def Leaf.toValues : List Leaf → List Value
  | [] => []
  | leaf :: rest => Leaf.toValue leaf :: Leaf.toValues rest

end

theorem Leaf.toValues_append (leaves later : List Leaf) :
    Leaf.toValues (leaves ++ later) = Leaf.toValues leaves ++ Leaf.toValues later := by
  induction leaves with
  | nil => rfl
  | cons leaf rest ih => simp [Leaf.toValues, ih]

theorem Leaf.toValues_map_value (vs : List Value) : Leaf.toValues (vs.map .value) = vs := by
  induction vs with
  | nil => rfl
  | cons v vs ih => simp [Leaf.toValues, Leaf.toValue, ih]

theorem allLeaves_append (as bs : List Arrangement) :
    allLeaves (as ++ bs) = allLeaves as ++ allLeaves bs := by
  induction as with
  | nil => rfl
  | cons a as ih => simp [allLeaves, ih]

theorem allLeaves_group (p : Props) (before run after : List Arrangement) :
    allLeaves (before ++ group p run :: after) = allLeaves (before ++ run ++ after) := by
  simp [allLeaves_append, allLeaves, leaves]

mutual

theorem html_toValue (a : Arrangement) :
    a.toValue.render.html = Value.concatenation (Leaf.toValues a.leaves) := by
  cases a with
  | value v =>
      rw [toValue, leaves, Leaf.toValues_map_value, Value.html_render_eq_shownLeaves]
  | list items =>
      rw [toValue, Value.render, Value.renderAllInto_eq_concatenation, leaves, html_toValues]
  | group p children =>
      rw [toValue, Value.render, Node.render_fragment, Value.render,
        Value.renderAllInto_eq_concatenation, leaves, html_toValues]
  | element tag p children =>
      rw [toValue, Node.render_tag_congr tag p (html_toValues children), leaves, Leaf.toValues,
        Leaf.toValues, Value.concatenation_cons, Leaf.toValue]
      exact String.append_empty.symm

theorem html_toValues (as : List Arrangement) :
    Value.concatenation (toValues as) = Value.concatenation (Leaf.toValues (allLeaves as)) := by
  cases as with
  | nil => rfl
  | cons a as =>
      rw [toValues, Value.concatenation_cons, html_toValue a, html_toValues as, allLeaves,
        Leaf.toValues_append, Value.concatenation_append]

end

/-- Arrangements of the same leaves are rendered as the same document. -/
theorem render_congr_of_leaves {a b : Arrangement} (h : a.leaves = b.leaves) :
    a.toValue.render = b.toValue.render := by
  rw [Markup.eq_mk_of_html_eq (html_toValue a), Markup.eq_mk_of_html_eq (html_toValue b), h]

end Arrangement

/-!
## Contexts
-/

/-- A value with a place in it where another one is put: in lists, groups and elements. -/
inductive Context where
  | hole
  | list (before : List Value) (inner : Context) (after : List Value)
  | group (p : Props) (before : List Value) (inner : Context) (after : List Value)
  | element (tag : String) (p : Props) (before : List Value) (inner : Context)
      (after : List Value)

namespace Context

/-- The value with another one put into its place. Groups and elements are rendered at
once. -/
def fill : Context → Value → Value
  | .hole, v => v
  | .list before inner after, v => .list (before ++ inner.fill v :: after)
  | .group p before inner after, v =>
    .markup (Node.render .fragment p (before ++ inner.fill v :: after))
  | .element tag p before inner after, v =>
    .markup (Node.render (.tag tag) p (before ++ inner.fill v :: after))

theorem concatenation_congr {v w : Value} (before after : List Value) (h : v.render = w.render) :
    Value.concatenation (before ++ v :: after) = Value.concatenation (before ++ w :: after) := by
  rw [Value.concatenation_append, Value.concatenation_append, Value.concatenation_cons,
    Value.concatenation_cons, h]

theorem render_list_congr {vs ws : List Value}
    (h : Value.concatenation vs = Value.concatenation ws) :
    (Value.list vs).render = (Value.list ws).render := by
  rw [Value.render, Value.render, Value.renderAllInto_eq_concatenation,
    Value.renderAllInto_eq_concatenation, h]

theorem render_fill_congr (c : Context) {v w : Value} (h : v.render = w.render) :
    (c.fill v).render = (c.fill w).render := by
  induction c with
  | hole => exact h
  | list before inner after ih =>
      exact render_list_congr (concatenation_congr before after ih)
  | group p before inner after ih =>
      rw [fill, fill, Value.render, Value.render, Node.render_fragment, Node.render_fragment]
      exact render_list_congr (concatenation_congr before after ih)
  | element tag p before inner after ih =>
      rw [fill, fill, Node.render_tag_congr tag p (concatenation_congr before after ih)]

/-- Rendering a part early makes no difference. -/
theorem render_fill_markup (c : Context) (v : Value) :
    (c.fill (.markup v.render)).render = (c.fill v).render :=
  render_fill_congr c rfl

end Context

namespace Value

/-- Rendering appends to what is there, and it is the concatenation of what the leaves are
rendered as. Nulls, lists and groups leave no trace, markup apart all texts may be escaped
at once, and it makes no difference which parts are rendered early. -/
theorem render_concatenates (v : Value) :
    (∀ out, renderInto out v = out ++ v.render.html) ∧
      v.render.html = String.join (v.leaves.map fun leaf => leaf.render.html) ∧
      (∀ w : Value, v.shownLeaves = w.shownLeaves → v.render = w.render) ∧
      (∀ a b : Arrangement, a.leaves = b.leaves → a.toValue.render = b.toValue.render) ∧
      (∀ p before run after,
        Arrangement.allLeaves (before ++ .group p run :: after) =
          Arrangement.allLeaves (before ++ run ++ after)) ∧
      (v.isMarkupFree = true →
        v.render = ⟨Markup.escapeText (String.join (v.leaves.map displayText))⟩) ∧
      ∀ c : Context, (c.fill (.markup v.render)).render = (c.fill v).render := by
  refine ⟨?_, html_render v, ?_, ?_, Arrangement.allLeaves_group, render_of_isMarkupFree, ?_⟩
  · intro out
    exact renderInto_eq_append out v
  · intro w hleaves
    exact render_congr_of_shownLeaves hleaves
  · intro a b hleaves
    exact Arrangement.render_congr_of_leaves hleaves
  · intro c
    exact Context.render_fill_markup c v

theorem render_concatenates_nested :
    let v : Value := .list [.null, .text "a<", .list [.list [], .int 2]]
    let w : Value := .list [.list [.text "a<"], .null, .int 2]
    let a : Arrangement := .element "p" .empty
      [.value v, .group .empty [.value (.markup ⟨"<br/>"⟩), .list [.value .null]]]
    let b : Arrangement := .element "p" .empty
      [.group .empty [.list [.value (.text "a<")], .group .empty [.value (.int 2)]],
        .value (.list [.markup ⟨"<br/>"⟩])]
    (v.shownLeaves = w.shownLeaves ∧ a.leaves = b.leaves ∧ v.isMarkupFree = true) ∧
      v.render = w.render ∧
      a.toValue.render = b.toValue.render ∧
      v.render = ⟨Markup.escapeText (String.join (v.leaves.map displayText))⟩ := by
  intro v w a b
  have hrender := render_concatenates v
  exact ⟨⟨rfl, rfl, rfl⟩, hrender.2.2.1 w rfl, hrender.2.2.2.1 a b rfl,
    hrender.2.2.2.2.2.1 rfl⟩

end Value

end StaticSite
