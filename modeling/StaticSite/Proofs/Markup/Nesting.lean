import Mathlib.Data.List.Forall2
import Mathlib.Logic.Relation
import StaticSite.Proofs.Markup.Rendering
/-!
# Lists in attribute values

An attribute shows a list as the texts of its items with commas between them, and the items
may be lists again. The join of joins is a single one, of the leaf texts of the value
(`Value.displayText_eq_intercalate`). So the way in which items are grouped into lists cannot
be told from an attribute (`Value.Regrouped.displayText`). Other than among children, a list
without items leaves a trace: it is an empty text among the others, as a null is.
-/

namespace StaticSite

namespace Markup

theorem escapeAttribute_intercalate (texts : List String) :
    escapeAttribute (",".intercalate texts) =
      ",".intercalate (texts.map escapeAttribute) := by
  induction texts with
  | nil => rfl
  | cons text texts ih =>
      cases texts with
      | nil => simp
      | cons next rest =>
          have hcomma : escapeAttribute "," = "," := by decide
          rw [String.intercalate_cons_cons, escapeAttribute_append,
            escapeAttribute_append, hcomma, ih]
          simp only [List.map_cons, String.intercalate_cons_cons]

end Markup

namespace Value

mutual

/-- The texts between the commas. A value that is not a list has one, a list without items
has an empty one, and any other list has those of its items, one after the other. -/
def leafTexts : Value → List String
  | .list [] => [""]
  | .list (v :: vs) => leafTexts v ++ allLeafTexts vs
  | leaf => [leaf.displayText]

def allLeafTexts : List Value → List String
  | [] => []
  | v :: vs => leafTexts v ++ allLeafTexts vs

end

theorem allLeafTexts_cons (v : Value) (vs : List Value) :
    allLeafTexts (v :: vs) = leafTexts v ++ allLeafTexts vs := rfl

theorem leafTexts_list {items : List Value} (h : items ≠ []) :
    (Value.list items).leafTexts = allLeafTexts items := by
  cases items with
  | nil => exact absurd rfl h
  | cons v vs => rfl

theorem allLeafTexts_append (vs ws : List Value) :
    allLeafTexts (vs ++ ws) = allLeafTexts vs ++ allLeafTexts ws := by
  induction vs with
  | nil => rfl
  | cons v vs ih =>
      rw [List.cons_append, allLeafTexts_cons, allLeafTexts_cons, ih, List.append_assoc]

theorem leafTexts_list_append_cons (before : List Value) (v : Value) (after : List Value) :
    (Value.list (before ++ v :: after)).leafTexts =
      allLeafTexts before ++ (v.leafTexts ++ allLeafTexts after) := by
  rw [leafTexts_list (by simp), allLeafTexts_append, allLeafTexts_cons]

/-!
## The join of joins
-/

mutual

theorem leafTexts_ne_nil (v : Value) : v.leafTexts ≠ [] := by
  cases v with
  | list items =>
      cases items with
      | nil => simp [leafTexts]
      | cons v vs =>
          rw [leafTexts_list (by simp)]
          exact allLeafTexts_ne_nil v vs
  | _ => simp [leafTexts]

theorem allLeafTexts_ne_nil (v : Value) (vs : List Value) : allLeafTexts (v :: vs) ≠ [] := by
  rw [allLeafTexts]
  exact List.append_ne_nil_of_left_ne_nil (leafTexts_ne_nil v) _

end

mutual

/-- The display text of a value is the join of its leaf texts. -/
theorem displayText_eq_intercalate (v : Value) :
    v.displayText = ",".intercalate v.leafTexts := by
  cases v with
  | list items =>
      cases items with
      | nil => rfl
      | cons v vs =>
          rw [displayText, leafTexts_list (by simp)]
          exact intercalate_displayTexts (v :: vs)
  | _ => simp only [leafTexts, String.intercalate_singleton]

theorem intercalate_displayTexts (vs : List Value) :
    ",".intercalate (displayTexts vs) = ",".intercalate (allLeafTexts vs) := by
  cases vs with
  | nil => rfl
  | cons v vs =>
      have hhead := displayText_eq_intercalate v
      have htail := intercalate_displayTexts vs
      cases vs with
      | nil => simpa [displayTexts, allLeafTexts] using hhead
      | cons w ws =>
          have hne : displayTexts (w :: ws) ≠ [] := by simp [displayTexts]
          -- Both sides of this comma hold a text, which is where a list without items counts.
          rw [displayTexts, String.intercalate_cons_of_ne_nil hne, hhead, htail,
            allLeafTexts_cons v (w :: ws),
            String.intercalate_append_of_ne_nil (leafTexts_ne_nil v) (allLeafTexts_ne_nil w ws)]

end

/-!
## The commas of a join
-/

def commas (text : String) : Nat := text.toList.count ','

theorem commas_append (text later : String) :
    commas (text ++ later) = commas text + commas later := by
  simp [commas]

/-- A join has the commas that the texts have by themselves, and one less than there are
texts. -/
theorem commas_intercalate {texts : List String} (h : texts ≠ []) :
    commas (",".intercalate texts) = commas (String.join texts) + (texts.length - 1) := by
  induction texts with
  | nil => exact absurd rfl h
  | cons text texts ih =>
      cases texts with
      | nil => simp
      | cons next rest =>
          have hcomma : commas "," = 1 := by decide
          have hrest := ih (by simp)
          have htexts : commas (String.join (text :: next :: rest)) =
              commas text + commas (String.join (next :: rest)) := by
            rw [String.join_cons, commas_append]
          rw [String.intercalate_cons_cons, commas_append, commas_append, hcomma, hrest, htexts]
          simp only [List.length_cons]
          omega

/-!
## Grouping
-/

/-- One list less, at any depth: a list without items becomes a null, a list with a single
item becomes the item, and the items of any list but the empty one take its place among the
items around it. -/
inductive Ungroups : Value → Value → Prop
  | empty : Ungroups (.list []) .null
  | single (v : Value) : Ungroups (.list [v]) v
  | among (before items after : List Value) (h : items ≠ []) :
      Ungroups (.list (before ++ .list items :: after)) (.list (before ++ (items ++ after)))
  | inside (before after : List Value) {v w : Value} (h : Ungroups v w) :
      Ungroups (.list (before ++ v :: after)) (.list (before ++ w :: after))

/-- Whether values differ only in how they are grouped. -/
def Regrouped : Value → Value → Prop := Relation.EqvGen Ungroups

theorem Ungroups.leafTexts {v w : Value} (h : Ungroups v w) : v.leafTexts = w.leafTexts := by
  induction h with
  | empty => rfl
  | single v => rw [leafTexts_list (by simp), allLeafTexts, allLeafTexts, List.append_nil]
  | among before items after h =>
      rw [leafTexts_list_append_cons, leafTexts_list h, leafTexts_list (by simp [h]),
        allLeafTexts_append, allLeafTexts_append]
  | inside before after _ ih => rw [leafTexts_list_append_cons, leafTexts_list_append_cons, ih]

theorem Regrouped.leafTexts {v w : Value} (h : Regrouped v w) : v.leafTexts = w.leafTexts := by
  induction h with
  | rel v w h => exact h.leafTexts
  | refl v => rfl
  | symm v w _ ih => exact ih.symm
  | trans u v w _ _ hleft hright => exact hleft.trans hright

theorem Regrouped.displayText {v w : Value} (h : Regrouped v w) :
    v.displayText = w.displayText := by
  rw [displayText_eq_intercalate, displayText_eq_intercalate, h.leafTexts]

end Value

namespace Node

theorem shownAttributes_eq_leafTexts (attributes : List (String × Value)) :
    shownAttributes attributes =
      attributes.map fun (name, v) => (name, ",".intercalate v.leafTexts) := by
  simp only [shownAttributes, Value.displayText_eq_intercalate]

def RegroupedAttributes (attributes others : List (String × Value)) : Prop :=
  List.Forall₂ (fun pair other => pair.1 = other.1 ∧ pair.2.Regrouped other.2) attributes others

theorem RegroupedAttributes.shownAttributes {attributes others : List (String × Value)}
    (h : RegroupedAttributes attributes others) :
    Node.shownAttributes attributes = Node.shownAttributes others := by
  induction h with
  | nil => rfl
  | @cons pair other rest others hpair _ ih =>
      have hshown : (pair.1, pair.2.displayText) = (other.1, other.2.displayText) := by
        rw [hpair.1, hpair.2.displayText]
      exact congrArg₂ List.cons hshown ih

theorem writeAttributes_congr {attributes others : List (String × Value)}
    (h : shownAttributes attributes = shownAttributes others) (out : String) :
    writeAttributes out attributes = writeAttributes out others := by
  rw [← String.toList_inj, toList_writeAttributes, toList_writeAttributes, h]

theorem RegroupedAttributes.render {p q : Props}
    (h : RegroupedAttributes p.attributes q.attributes) (tag : String) (children : List Value) :
    Node.render (.tag tag) p children = Node.render (.tag tag) q children := by
  rw [Node.render, Node.render, writeAttributes_congr h.shownAttributes]

end Node

namespace Value

/-- The display text of a value is the join of its leaf texts, and so is what an attribute shows,
escaped or not. There is at least one leaf text. The commas are those that the leaf texts have by
themselves, and one less than there are leaf texts. A list without items has an empty leaf text
of its own among the others, as a null has. Values that differ only in how they are grouped are
shown alike, and elements with such values for attributes are the same. -/
theorem displayText_joins_leafTexts :
    (∀ v : Value,
      v.displayText = ",".intercalate v.leafTexts ∧
      Markup.escapeAttribute v.displayText =
        ",".intercalate (v.leafTexts.map Markup.escapeAttribute) ∧
      v.leafTexts ≠ [] ∧
      commas v.displayText = commas (String.join v.leafTexts) + (v.leafTexts.length - 1)) ∧
    (∀ (tag : String) (p : Props) (children : List Value),
      (Node.render (.tag tag) p children).html.toList =
        Node.elementChars tag
          (p.attributes.map fun (name, v) => (name, ",".intercalate v.leafTexts)) children) ∧
    (∀ before after : List Value,
      (Value.list (before ++ .list [] :: after)).leafTexts =
        allLeafTexts before ++ "" :: allLeafTexts after ∧
      (Value.list (before ++ .null :: after)).leafTexts =
        allLeafTexts before ++ "" :: allLeafTexts after) ∧
    (∀ v w : Value, v.Regrouped w → v.leafTexts = w.leafTexts ∧ v.displayText = w.displayText) ∧
    ∀ (tag : String) (p q : Props) (children : List Value),
      Node.RegroupedAttributes p.attributes q.attributes →
      Node.render (.tag tag) p children = Node.render (.tag tag) q children := by
  refine ⟨fun v => ⟨displayText_eq_intercalate v, ?_, leafTexts_ne_nil v, ?_⟩, ?_, ?_, ?_, ?_⟩
  · rw [displayText_eq_intercalate, Markup.escapeAttribute_intercalate]
  · rw [displayText_eq_intercalate]
    exact commas_intercalate (leafTexts_ne_nil v)
  · intro tag p children
    rw [Node.toList_render_tag, Node.shownAttributes_eq_leafTexts]
  · intro before after
    constructor
    · exact leafTexts_list_append_cons before (.list []) after
    · exact leafTexts_list_append_cons before .null after
  · intro v w h
    exact ⟨h.leafTexts, h.displayText⟩
  · intro tag p q children h
    exact h.render tag children

theorem displayText_joins_leafTexts_nested :
    let v : Value := .list [.int 1, .list [.text "a", .text "b,c"], .null]
    let w : Value := .list [.int 1, .text "a", .text "b,c", .list []]
    let p : Props := .ofList [("id", .null), ("coords", v)]
    let q : Props := .ofList [("id", .list []), ("coords", w)]
    v.Regrouped w ∧ v.displayText = "1,a,b,c," ∧ v.displayText = w.displayText ∧
      commas v.displayText = commas (String.join v.leafTexts) + (v.leafTexts.length - 1) ∧
      Node.RegroupedAttributes p.attributes q.attributes ∧
      Node.render (.tag "area") p [] = Node.render (.tag "area") q [] := by
  intro v w p q
  have hitems : Ungroups v (.list [.int 1, .text "a", .text "b,c", .null]) :=
    .among [.int 1] [.text "a", .text "b,c"] [.null] (by simp)
  have hempty : Ungroups w (.list [.int 1, .text "a", .text "b,c", .null]) :=
    .inside [.int 1, .text "a", .text "b,c"] [] .empty
  have hregrouped : v.Regrouped w := .trans _ _ _ (.rel _ _ hitems) (.symm _ _ (.rel _ _ hempty))
  have hnull : Regrouped .null (.list []) := .symm _ _ (.rel _ _ .empty)
  have hattributes : Node.RegroupedAttributes p.attributes q.attributes :=
    .cons ⟨rfl, hnull⟩ (.cons ⟨rfl, hregrouped⟩ .nil)
  rcases displayText_joins_leafTexts with ⟨hjoin, -, -, hshown, hrendered⟩
  refine ⟨hregrouped, ?_, (hshown v w hregrouped).2, (hjoin v).2.2.2, hattributes,
    hrendered "area" p q [] hattributes⟩
  rw [(hjoin v).1]
  decide +kernel

end Value

end StaticSite
