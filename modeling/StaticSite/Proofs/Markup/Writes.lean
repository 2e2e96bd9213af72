import Mathlib.Data.List.Nodup
import Mathlib.Data.List.Perm.Subperm
import StaticSite.Proofs.Markup.Children
import StaticSite.Proofs.Markup.Rendering
/-!
# What props hold

Whatever is done to props comes to a list of writes, each of a value under a name. Every name
but that of the children is an attribute at the place of its first write, and has the value of
its last one; the children are the value that was written under their name last. So props are
determined by their writes, and equal ones may differ in the order of their attributes only.
-/

namespace StaticSite

namespace Props

variable {p q : Props} {pairs : List (String × Value)}

def names (p : Props) : List String := p.attributes.map Prod.fst

def attributeNames (pairs : List (String × Value)) : List String :=
  ((pairs.map Prod.fst).filter (· ≠ childrenName)).eraseDups

def lastValue (pairs : List (String × Value)) (name : String) : Value :=
  (pairs.reverse.lookup name).getD .null

/-- The writes since props were new, after a change. Taking the children leaves null. -/
def Change.record (pairs : List (String × Value)) : Change → List (String × Value)
  | .set name value => pairs ++ [(name, value)]
  | .setChildren children => pairs ++ [(childrenName, children)]
  | .takeChildren => pairs ++ [(childrenName, .null)]
  | .setAll more => pairs ++ more
  | .ofList news => news

/-- The writes of changes to empty props since the last of them that made new props. -/
def writes (changes : List Change) : List (String × Value) := changes.foldl Change.record []

/-- What another write under a name would take the place of. Children that are null are
nothing. -/
def replaced? (pairs : List (String × Value)) (name : String) : Option Value :=
  if name = childrenName then
    if (lastValue pairs name).isNull then none else some (lastValue pairs name)
  else pairs.reverse.lookup name

/-- What props are after writes: the attributes, whose names are distinct and not that of the
children, the children, and what `set` gives back. -/
structure Holds (pairs : List (String × Value)) (p : Props) : Prop where
  attributes : p.attributes = (attributeNames pairs).map fun name => (name, lastValue pairs name)
  distinct : p.names.Nodup
  children_not_mem : childrenName ∉ p.names
  children : p.children = lastValue pairs childrenName
  displaced : ∀ name, p.displaced? name = replaced? pairs name

/-!
## Runs of changes
-/

theorem setAll_append (p : Props) (pairs more : List (String × Value)) :
    p.setAll (pairs ++ more) = (p.setAll pairs).setAll more :=
  List.foldl_append

theorem ofList_concat (pairs : List (String × Value)) (name : String) (value : Value) :
    ofList (pairs ++ [(name, value)]) = (ofList pairs).set name value :=
  setAll_append empty pairs [(name, value)]

/-- A change of props that were made by writes makes them by the writes recorded for it. -/
theorem apply_ofList (change : Change) (pairs : List (String × Value)) :
    change.apply (ofList pairs) = ofList (change.record pairs) := by
  cases change with
  | set name value => exact (ofList_concat pairs name value).symm
  | setChildren children => exact (ofList_concat pairs childrenName children).symm
  | takeChildren => exact (ofList_concat pairs childrenName .null).symm
  | setAll more => exact (setAll_append empty pairs more).symm
  | ofList news => rfl

theorem changed_ofList (changes : List Change) (pairs : List (String × Value)) :
    (ofList pairs).changed changes = ofList (changes.foldl Change.record pairs) := by
  induction changes generalizing pairs with
  | nil => rfl
  | cons change rest ih =>
      rw [List.foldl_cons, ← ih, ← apply_ofList]
      rfl

theorem changed_empty (changes : List Change) : empty.changed changes = ofList (writes changes) :=
  changed_ofList changes []

/-!
## What is held after writes
-/

theorem names_set (p : Props) (name : String) (value : Value) :
    (p.set name value).names =
      if name = childrenName ∨ name ∈ p.names then p.names else p.names ++ [name] := by
  by_cases hchildren : name = childrenName
  · rw [if_pos (Or.inl hchildren), set, if_pos hchildren]
    rfl
  · rw [set, if_neg hchildren, names, Association.map_fst_put]
    simp only [hchildren, false_or]
    rfl

theorem eraseDups_concat (names : List String) (name : String) :
    (names ++ [name]).eraseDups =
      if name ∈ names.eraseDups then names.eraseDups else names.eraseDups ++ [name] := by
  rw [List.eraseDups_append]
  split
  · next hmem =>
      have hremoved : [name].removeAll names = [] := by
        simpa [List.removeAll] using List.mem_eraseDups.mp hmem
      rw [hremoved, List.eraseDups_nil, List.append_nil]
  · next hmem =>
      have hkept : [name].removeAll names = [name] := by
        simpa [List.removeAll] using mt List.mem_eraseDups.mpr hmem
      rw [hkept]
      rfl

theorem attributeNames_concat (pairs : List (String × Value)) (name : String) (value : Value) :
    attributeNames (pairs ++ [(name, value)]) =
      if name = childrenName ∨ name ∈ attributeNames pairs then attributeNames pairs
      else attributeNames pairs ++ [name] := by
  rw [attributeNames, List.map_append, List.filter_append]
  by_cases hchildren : name = childrenName
  · rw [if_pos (Or.inl hchildren)]
    simp [attributeNames, hchildren]
  · have hkept : ([(name, value)].map Prod.fst).filter (· ≠ childrenName) = [name] := by
      simp [hchildren]
    rw [hkept, eraseDups_concat]
    simp only [hchildren, false_or]
    rfl

theorem names_ofList (pairs : List (String × Value)) :
    (ofList pairs).names = attributeNames pairs := by
  induction pairs using List.reverseRecOn with
  | nil => rfl
  | append_singleton pairs pair ih =>
      rw [ofList_concat, names_set, attributeNames_concat, ih]

theorem distinct_set (h : p.names.Nodup) (name : String) (value : Value) :
    (p.set name value).names.Nodup := by
  rw [names_set]
  split
  · exact h
  · next hnew =>
      rw [← List.concat_eq_append]
      exact h.concat (not_or.mp hnew).2

theorem distinct_ofList (pairs : List (String × Value)) : (ofList pairs).names.Nodup := by
  induction pairs using List.reverseRecOn with
  | nil => exact List.nodup_nil
  | append_singleton pairs pair ih =>
      rw [ofList_concat]
      exact distinct_set ih pair.1 pair.2

theorem children_not_mem_ofList (pairs : List (String × Value)) :
    childrenName ∉ (ofList pairs).names := by
  simp [names_ofList, attributeNames]

theorem lookup_ofList {name : String} (hname : name ≠ childrenName)
    (pairs : List (String × Value)) :
    (ofList pairs).attributes.lookup name = pairs.reverse.lookup name := by
  induction pairs using List.reverseRecOn with
  | nil => rfl
  | append_singleton pairs pair ih =>
      rcases pair with ⟨other, value⟩
      have hget : ∀ r : Props, r.get? name = r.attributes.lookup name := fun r => if_neg hname
      rw [ofList_concat, ← hget, List.reverse_concat, List.lookup_cons]
      by_cases hother : name = other
      · rw [← hother, get?_set_self, beq_self_eq_true]
      · rw [get?_set_of_ne _ _ hother, hget, ih, beq_false_of_ne hother]

theorem attributes_eq_map (h : p.names.Nodup) :
    p.attributes = p.names.map fun name => (name, (p.attributes.lookup name).getD .null) := by
  rw [names, List.map_map]
  conv => lhs; rw [← List.map_id p.attributes]
  refine List.map_congr_left fun pair hpair => ?_
  have hlookup : p.attributes.lookup pair.1 = some pair.2 :=
    (Association.lookup_eq_some_iff_mem h).mpr hpair
  simp [hlookup]

theorem children_ofList (pairs : List (String × Value)) :
    (ofList pairs).children = lastValue pairs childrenName :=
  children_setAll empty pairs

theorem displaced?_ofList (pairs : List (String × Value)) (name : String) :
    (ofList pairs).displaced? name = replaced? pairs name := by
  unfold displaced? replaced?
  by_cases hname : name = childrenName
  · subst hname
    rw [get?, if_pos rfl, if_pos rfl, children_ofList]
    cases lastValue pairs childrenName <;> rfl
  · rw [get?, if_neg hname, lookup_ofList hname]
    simp only [if_neg hname]
    split
    · next hnull => exact hnull.symm
    · rfl

theorem holds_ofList (pairs : List (String × Value)) : Holds pairs (ofList pairs) where
  attributes := by
    rw [attributes_eq_map (distinct_ofList pairs), names_ofList]
    refine List.map_congr_left fun name hname => ?_
    have hne : name ≠ childrenName := by
      rintro rfl
      exact children_not_mem_ofList pairs (names_ofList pairs ▸ hname)
    rw [lookup_ofList hne, lastValue]
  distinct := distinct_ofList pairs
  children_not_mem := children_not_mem_ofList pairs
  children := children_ofList pairs
  displaced := displaced?_ofList pairs

/-!
## Equality
-/

/-- Whether props have the same names with equal values, in whatever order, and equal
children. -/
structure Agrees (p q : Props) : Prop where
  names : p.names.Perm q.names
  values : ∀ name value other, (name, value) ∈ p.attributes → (name, other) ∈ q.attributes →
    value.equal other = true
  children : p.children.equal q.children = true

theorem mem_names_iff {name : String} :
    name ∈ p.names ↔ ∃ value, (name, value) ∈ p.attributes := by
  simp [names]

theorem equal_iff_mem (hq : q.names.Nodup) :
    p.equal q = true ↔ p.size = q.size ∧
      (∀ name value, (name, value) ∈ p.attributes →
        ∃ other, (name, other) ∈ q.attributes ∧ value.equal other = true) ∧
      p.children.equal q.children = true := by
  rw [equal, Bool.and_eq_true, Bool.and_eq_true, and_assoc, beq_iff_eq, List.all_eq_true]
  refine and_congr Iff.rfl (and_congr ⟨?_, ?_⟩ Iff.rfl)
  · intro h name value hmem
    have hvalue := h (name, value) hmem
    dsimp only at hvalue
    split at hvalue
    · next other hlookup =>
        exact ⟨other, (Association.lookup_eq_some_iff_mem hq).mp hlookup, hvalue⟩
    · cases hvalue
  · rintro h ⟨name, value⟩ hmem
    rcases h name value hmem with ⟨other, hother, hequal⟩
    dsimp only
    rw [(Association.lookup_eq_some_iff_mem hq).mpr hother]
    exact hequal

theorem names_perm (hp : p.names.Nodup) (hsubset : p.names ⊆ q.names) (hsize : p.size = q.size) :
    p.names.Perm q.names := by
  refine (hp.subperm hsubset).perm_of_length_le ?_
  rw [names, names, List.length_map, List.length_map]
  exact Nat.le_of_eq hsize.symm

theorem equal_iff_agrees (hp : p.names.Nodup) (hq : q.names.Nodup) :
    p.equal q = true ↔ Agrees p q := by
  rw [equal_iff_mem hq]
  constructor
  · rintro ⟨hsize, hfound, hchildren⟩
    have hsubset : p.names ⊆ q.names := by
      intro name hname
      rcases mem_names_iff.mp hname with ⟨value, hmem⟩
      rcases hfound name value hmem with ⟨other, hother, -⟩
      exact mem_names_iff.mpr ⟨other, hother⟩
    refine ⟨names_perm hp hsubset hsize, ?_, hchildren⟩
    intro name value other hmem hother
    rcases hfound name value hmem with ⟨found, hfound, hequal⟩
    rw [← Association.lookup_eq_some_iff_mem hq] at hfound hother
    rw [hfound] at hother
    rwa [← Option.some.inj hother]
  · rintro ⟨hnames, hvalues, hchildren⟩
    refine ⟨?_, ?_, hchildren⟩
    · simpa [names, size] using hnames.length_eq
    · intro name value hmem
      have hname : name ∈ q.names := hnames.subset (mem_names_iff.mpr ⟨value, hmem⟩)
      rcases mem_names_iff.mp hname with ⟨other, hother⟩
      exact ⟨other, hother, hvalues name value other hmem hother⟩

/-!
## Elements
-/

def shownPairs (pairs : List (String × Value)) : List (String × String) :=
  (attributeNames pairs).map fun name => (name, (lastValue pairs name).displayText)

theorem shownAttributes_ofList (pairs : List (String × Value)) :
    Node.shownAttributes (ofList pairs).attributes = shownPairs pairs := by
  rw [(holds_ofList pairs).attributes, Node.shownAttributes, List.map_map]
  rfl

/-- Props that changes lead to hold what was written since they were new. What is then set
under a name is found there, and all else as before. Props that are reached in two ways are
equal if they agree up to the order of their attributes. An element of pairs is written with
each name once, but never that of the children. -/
theorem holds_changed :
    (∀ changes, Holds (writes changes) (empty.changed changes)) ∧
      (∀ changes name value other, ((empty.changed changes).set name value).get? other =
        if other = name then some value else (empty.changed changes).get? other) ∧
      (∀ changes others, (empty.changed changes).equal (empty.changed others) = true ↔
        Agrees (empty.changed changes) (empty.changed others)) ∧
      ∀ tag pairs,
        (∀ children, (Node.render (.tag tag) (ofList pairs) children).html.toList =
          Node.elementChars tag (shownPairs pairs) children) ∧
        (Node.renderFromProps (.tag tag) (ofList pairs)).html.toList =
          Node.elementChars tag (shownPairs pairs)
            (Node.childList (lastValue pairs childrenName)) := by
  refine ⟨?_, ?_, ?_, ?_⟩
  · intro changes
    rw [changed_empty]
    exact holds_ofList (writes changes)
  · intro changes name value other
    split
    · next h => rw [h, get?_set_self]
    · next h => exact get?_set_of_ne _ value h
  · intro changes others
    rw [changed_empty, changed_empty]
    exact equal_iff_agrees (distinct_ofList _) (distinct_ofList _)
  · intro tag pairs
    constructor
    · intro children
      rw [Node.toList_render_tag, shownAttributes_ofList]
    · rw [Node.renderFromProps, Node.toList_render_tag, takeChildren, children_ofList]
      exact congrArg (Node.elementChars tag · _) (shownAttributes_ofList pairs)

/-- A name that is written again keeps its place. -/
example : (ofList [("b", .bool true), ("children", .text "x"), ("a", .null),
    ("b", .text "y")]).attributes = [("b", .text "y"), ("a", .null)] :=
  rfl

end Props

end StaticSite
