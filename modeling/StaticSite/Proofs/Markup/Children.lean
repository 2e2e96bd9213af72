import Mathlib.Data.List.Induction
import StaticSite.Markup.Node
/-!
# How children are given

The children of a node are given next to its props or among them. Props are made by changes
one after the other, and the last change that writes the children decides what they are. The
attributes are the same whatever is written as children, so it makes no difference how the
children came to be where they are.
-/

namespace StaticSite

namespace Props

/-- A change of props. New props take the place of the old ones. -/
inductive Change where
  | set (name : String) (value : Value)
  | setChildren (children : Value)
  | takeChildren
  | setAll (pairs : List (String × Value))
  | ofList (pairs : List (String × Value))

namespace Change

def apply (p : Props) : Change → Props
  | .set name value => p.set name value
  | .setChildren children => p.setChildren children
  | .takeChildren => p.takeChildren.2
  | .setAll pairs => p.setAll pairs
  | .ofList pairs => .ofList pairs

def children? : Change → Option Value
  | .set name value => if name = childrenName then some value else none
  | .setChildren children => some children
  | .takeChildren => some .null
  | .setAll pairs => pairs.reverse.lookup childrenName
  | .ofList pairs => some ((pairs.reverse.lookup childrenName).getD .null)

/-- The change with nothing written as children. -/
def withoutChildren : Change → Change
  | .set name value => if name = childrenName then .setAll [] else .set name value
  | .setChildren _ => .setAll []
  | .takeChildren => .setAll []
  | .setAll pairs => .setAll (pairs.filter (·.1 ≠ childrenName))
  | .ofList pairs => .ofList (pairs.filter (·.1 ≠ childrenName))

end Change

variable {p q : Props}

def changed (p : Props) (changes : List Change) : Props := changes.foldl Change.apply p

def lastChildren? (changes : List Change) : Option Value :=
  changes.reverse.findSome? Change.children?

/-!
## The children
-/

theorem children_set (p : Props) (name : String) (value : Value) :
    (p.set name value).children = if name = childrenName then value else p.children := by
  unfold set
  split <;> rfl

theorem children_setAll (p : Props) (pairs : List (String × Value)) :
    (p.setAll pairs).children = (pairs.reverse.lookup childrenName).getD p.children := by
  induction pairs generalizing p with
  | nil => rfl
  | cons pair rest ih =>
      rcases pair with ⟨name, value⟩
      have hrest := ih (p.set name value)
      rw [setAll] at hrest
      rw [setAll, List.foldl_cons, hrest, children_set, List.reverse_cons, List.lookup_append,
        List.lookup_cons, List.lookup_nil]
      by_cases hname : name = childrenName
      · subst hname
        cases rest.reverse.lookup childrenName <;> simp
      · have hne : (childrenName == name) = false := beq_false_of_ne (Ne.symm hname)
        simp [hname, hne]

theorem children_apply (p : Props) (change : Change) :
    (change.apply p).children = change.children?.getD p.children := by
  cases change with
  | set name value =>
      simp only [Change.apply, Change.children?, children_set]
      split <;> rfl
  | setChildren children => rfl
  | takeChildren => rfl
  | setAll pairs => exact children_setAll p pairs
  | ofList pairs => exact children_setAll empty pairs

theorem children_changed (p : Props) (changes : List Change) :
    (p.changed changes).children = (lastChildren? changes).getD p.children := by
  induction changes using List.reverseRecOn with
  | nil => rfl
  | append_singleton changes change ih =>
      rw [changed] at ih
      rw [changed, List.foldl_append, List.foldl_cons, List.foldl_nil, children_apply, ih,
        lastChildren?, lastChildren?, List.reverse_concat, List.findSome?_cons]
      cases change.children? <;> rfl

/-!
## The attributes
-/

theorem attributes_set_children (p : Props) (children : Value) :
    (p.set childrenName children).attributes = p.attributes := by
  rw [set, if_pos rfl]

theorem attributes_set_congr (h : q.attributes = p.attributes) (name : String) (value : Value) :
    (q.set name value).attributes = (p.set name value).attributes := by
  unfold set
  split
  · exact h
  · show Association.put name value q.attributes = Association.put name value p.attributes
    rw [h]

theorem attributes_setAll_filter (h : q.attributes = p.attributes)
    (pairs : List (String × Value)) :
    (q.setAll (pairs.filter (·.1 ≠ childrenName))).attributes = (p.setAll pairs).attributes := by
  induction pairs generalizing p q with
  | nil => exact h
  | cons pair rest ih =>
      rcases pair with ⟨name, value⟩
      simp only [setAll] at ih
      by_cases hname : name = childrenName
      · subst hname
        simp only [setAll, List.filter_cons, ne_eq, not_true_eq_false, decide_false,
          Bool.false_eq_true, if_false, List.foldl_cons]
        exact ih (h.trans (attributes_set_children p value).symm)
      · simp only [setAll, List.filter_cons, ne_eq, hname, not_false_eq_true, decide_true,
          if_true, List.foldl_cons]
        exact ih (attributes_set_congr h name value)

theorem attributes_apply_withoutChildren (h : q.attributes = p.attributes) (change : Change) :
    (change.withoutChildren.apply q).attributes = (change.apply p).attributes := by
  cases change with
  | set name value =>
      by_cases hname : name = childrenName
      · subst hname
        rw [Change.withoutChildren, if_pos rfl]
        exact h.trans (attributes_set_children p value).symm
      · rw [Change.withoutChildren, if_neg hname]
        exact attributes_set_congr h name value
  | setChildren children => exact h
  | takeChildren => exact h
  | setAll pairs => exact attributes_setAll_filter h pairs
  | ofList pairs => exact attributes_setAll_filter (rfl : empty.attributes = _) pairs

theorem attributes_setAll_of_nodup {pairs : List (String × Value)}
    (hnodup : ((p.attributes ++ pairs).map Prod.fst).Nodup)
    (hchildren : childrenName ∉ pairs.map Prod.fst) :
    (p.setAll pairs).attributes = p.attributes ++ pairs := by
  induction pairs generalizing p with
  | nil => exact (List.append_nil _).symm
  | cons pair rest ih =>
      rcases pair with ⟨name, value⟩
      rw [List.map_cons, List.mem_cons, not_or] at hchildren
      have hnew : name ∉ p.attributes.map Prod.fst := by
        rw [List.map_append, List.nodup_append] at hnodup
        intro hmem
        exact hnodup.2.2 name hmem name (List.mem_cons_self ..) rfl
      have hset : (p.set name value).attributes = p.attributes ++ [(name, value)] := by
        rw [set, if_neg (Ne.symm hchildren.1)]
        exact Association.put_of_not_mem value hnew
      have hrest := ih (p := p.set name value) (by simpa [hset] using hnodup) hchildren.2
      rw [setAll] at hrest
      rw [setAll, List.foldl_cons, hrest, hset, List.append_assoc, List.singleton_append]

theorem attributes_ofList (pairs : List (String × Value)) (hnodup : (pairs.map Prod.fst).Nodup)
    (hchildren : childrenName ∉ pairs.map Prod.fst) : (ofList pairs).attributes = pairs :=
  attributes_setAll_of_nodup (p := empty) hnodup hchildren

/-- The attributes do not depend on what is written as children. -/
theorem attributes_changed_withoutChildren (p : Props) (changes : List Change) :
    (p.changed (changes.map Change.withoutChildren)).attributes =
      (p.changed changes).attributes := by
  induction changes using List.reverseRecOn with
  | nil => rfl
  | append_singleton changes change ih =>
      rw [changed, changed] at ih
      rw [changed, changed, List.map_append, List.foldl_append, List.foldl_append]
      exact attributes_apply_withoutChildren ih change

end Props

namespace Node

variable {p q : Props}

/-!
## Writing a node

A node is written with the children that it is given. Those among its props are not looked
at, and a component finds the given ones in their place.
-/

theorem componentProps_congr (h : q.attributes = p.attributes) (children : List Value) :
    componentProps q children = componentProps p children :=
  congrArg (fun attributes => (⟨attributes, .list children⟩ : Props)) h

theorem render_congr (node : Node) (h : q.attributes = p.attributes) (children : List Value) :
    render node q children = render node p children := by
  cases node with
  | tag name => rw [render, render, h]
  | component invoke => rw [render, render, componentProps_congr h]

theorem renderFromProps_eq (node : Node) (h : q.attributes = p.attributes) :
    renderFromProps node p = render node q (childList p.children) :=
  render_congr node h.symm (childList p.children)

theorem childList_of_ne_list {v : Value} (h : ∀ items, v ≠ .list items) : childList v = [v] := by
  cases v with
  | list items => exact absurd rfl (h items)
  | _ => rfl

theorem render_tag_childList (tag : String) (p : Props) (v : Value) :
    render (.tag tag) p (childList v) = render (.tag tag) p [v] := by
  cases v with
  | list items => rfl
  | _ => rfl

/-- A node with children among its props is written as one with the children that were
written last, next to props with the same attributes and any children. An element does not
tell a list of children from its items. -/
theorem renderFromProps_changed (node : Node) (p : Props) {q : Props}
    {changes : List Props.Change} {v : Value} (hlast : Props.lastChildren? changes = some v)
    (hq : q.attributes = (p.changed (changes.map Props.Change.withoutChildren)).attributes) :
    (∀ children, v = .list children →
        renderFromProps node (p.changed changes) = render node q children) ∧
      ((∀ items, v ≠ .list items) →
        renderFromProps node (p.changed changes) = render node q [v]) ∧
      ∀ tag, node = .tag tag →
        renderFromProps node (p.changed changes) = render node q [v] := by
  have hchildren : (p.changed changes).children = v := by
    rw [Props.children_changed, hlast]
    rfl
  have hrender : renderFromProps node (p.changed changes) = render node q (childList v) := by
    rw [← hchildren]
    exact renderFromProps_eq node (hq.trans (Props.attributes_changed_withoutChildren p changes))
  refine ⟨?_, ?_, ?_⟩
  · rintro children rfl
    exact hrender
  · intro hv
    rw [hrender, childList_of_ne_list hv]
  · rintro tag rfl
    rw [hrender, render_tag_childList]

theorem renderFromProps_changed_count :
    let node : Node := .component fun p =>
      .list [.text (p.text "class"), .ofInt (childList p.children).length]
    let changes : List Props.Change := [.ofList [("class", .text "x"), ("children", .text "old")],
      .setAll [("children", .list [.null, .text "a"]), ("id", .bool true)],
      .set "class" (.text "y")]
    let q : Props := ⟨[("class", .text "y"), ("id", .bool true)], .text "other"⟩
    (Props.lastChildren? changes = some (.list [.null, .text "a"]) ∧
        q.attributes =
          (Props.empty.changed (changes.map Props.Change.withoutChildren)).attributes) ∧
      renderFromProps node (Props.empty.changed changes) = render node q [.null, .text "a"] := by
  intro node changes q
  have hlast : Props.lastChildren? changes = some (.list [.null, .text "a"]) := rfl
  have hq : q.attributes =
      (Props.empty.changed (changes.map Props.Change.withoutChildren)).attributes := rfl
  exact ⟨⟨hlast, hq⟩, (renderFromProps_changed node .empty hlast hq).1 _ rfl⟩

end Node

end StaticSite
