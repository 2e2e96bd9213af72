import StaticSite.Proofs.Markup.Writes
import StaticSite.Proofs.Number.Positional
/-!
# What equal values print

Equality of values is not that of what they are made of: numbers are compared as numbers, and
attributes in any order. All the same, equal values have the same text and the same rendering.
Equal props have the same texts, the same children as markup, and attributes that are written
alike, though perhaps in another order.
-/

namespace StaticSite

namespace Value

/-- Equal values are the same, unless they are numbers or lists. -/
theorem equal_cases {a b : Value} (h : a.equal b = true) :
    a = b ∨ (∃ x y, a = .float x ∧ b = .float y ∧ x.equal y = true) ∨
      ∃ as bs, a = .list as ∧ b = .list bs ∧ equalAll as bs = true := by
  cases a <;> cases b <;> simp only [equal, beq_iff_eq, Bool.false_eq_true] at h
  case null.null => exact Or.inl rfl
  case list.list as bs => exact Or.inr (Or.inr ⟨as, bs, rfl, rfl, h⟩)
  case float.float x y => exact Or.inr (Or.inl ⟨x, y, rfl, rfl, h⟩)
  all_goals exact Or.inl (by rw [h])

theorem render_float (x : Double) :
    (Value.float x).render = ⟨Markup.escapeText x.text⟩ := rfl

mutual

theorem prints_of_equal (a b : Value) (h : a.equal b = true) :
    a.displayText = b.displayText ∧ a.render = b.render := by
  rcases equal_cases h with rfl | ⟨x, y, rfl, rfl, hequal⟩ | ⟨as, bs, rfl, rfl, hequal⟩
  · exact ⟨rfl, rfl⟩
  · have htext := Double.text_eq_of_equal hequal
    constructor
    · exact htext
    · rw [render_float, render_float, htext]
  · rcases prints_of_equalAll as bs hequal with ⟨htexts, hrendered⟩
    constructor
    · rw [displayText, displayText, htexts]
    · rw [render, render, hrendered]
termination_by sizeOf a

theorem prints_of_equalAll (as bs : List Value) (h : equalAll as bs = true) :
    displayTexts as = displayTexts bs ∧ renderAllInto "" as = renderAllInto "" bs := by
  cases as with
  | nil =>
      cases bs with
      | nil => exact ⟨rfl, rfl⟩
      | cons b bs => cases h
  | cons a as =>
      cases bs with
      | nil => cases h
      | cons b bs =>
          rw [equalAll, Bool.and_eq_true] at h
          rcases prints_of_equal a b h.1 with ⟨htext, hrendered⟩
          rcases prints_of_equalAll as bs h.2 with ⟨htexts, hrenderedAll⟩
          constructor
          · rw [displayTexts, displayTexts, htext, htexts]
          · rw [renderAllInto_cons, renderAllInto_cons, hrendered, hrenderedAll]
termination_by sizeOf as

end

end Value

namespace Props

variable {p q : Props}

/-- The text of the attribute of a name, which is empty where there is none. -/
def attributeText (p : Props) (name : String) : String :=
  ((p.attributes.lookup name).getD .null).displayText

theorem text_of_ne {name : String} (h : name ≠ childrenName) :
    p.text name = p.attributeText name := by
  rw [text, get?, if_neg h, attributeText]
  cases p.attributes.lookup name <;> rfl

theorem lookup_eq_none_iff {name : String} :
    p.attributes.lookup name = none ↔ name ∉ p.names := by
  rw [List.lookup_eq_none_iff, mem_names_iff, not_exists]
  constructor
  · intro h value hmem
    have hne := h (name, value) hmem
    rw [bne_self_eq_false] at hne
    cases hne
  · intro h pair hpair
    rw [bne_iff_ne]
    rintro rfl
    exact h pair.2 hpair

theorem Agrees.attributeText (h : Agrees p q) (hp : p.names.Nodup) (hq : q.names.Nodup)
    (name : String) : p.attributeText name = q.attributeText name := by
  unfold Props.attributeText
  cases hvalue : p.attributes.lookup name with
  | none =>
      have hother : q.attributes.lookup name = none := by
        rw [lookup_eq_none_iff] at hvalue ⊢
        exact fun hname => hvalue (h.names.mem_iff.mpr hname)
      rw [hother]
  | some value =>
      have hmem := (Association.lookup_eq_some_iff_mem hp).mp hvalue
      rcases mem_names_iff.mp (h.names.mem_iff.mp (mem_names_iff.mpr ⟨value, hmem⟩)) with
        ⟨other, hother⟩
      rw [(Association.lookup_eq_some_iff_mem hq).mpr hother, Option.getD_some, Option.getD_some]
      exact (Value.prints_of_equal value other (h.values name value other hmem hother)).1

theorem Agrees.text (h : Agrees p q) (hp : p.names.Nodup) (hq : q.names.Nodup) (name : String) :
    p.text name = q.text name := by
  by_cases hname : name = childrenName
  · rw [Props.text, Props.text, get?, get?, if_pos hname, if_pos hname, Option.map_some,
      Option.map_some, (Value.prints_of_equal _ _ h.children).1]
  · rw [text_of_ne hname, text_of_ne hname, h.attributeText hp hq]

theorem shownAttributes_eq (h : p.names.Nodup) :
    Node.shownAttributes p.attributes = p.names.map fun name => (name, p.attributeText name) := by
  rw [attributes_eq_map h, Node.shownAttributes, List.map_map]
  rfl

theorem Agrees.shownAttributes_perm (h : Agrees p q) (hp : p.names.Nodup) (hq : q.names.Nodup) :
    (Node.shownAttributes p.attributes).Perm (Node.shownAttributes q.attributes) := by
  rw [shownAttributes_eq hp, shownAttributes_eq hq]
  simp only [h.attributeText hp hq]
  exact h.names.map _

theorem Agrees.renderFragment (h : Agrees p q) :
    Node.renderFragment p = Node.renderFragment q :=
  (Value.prints_of_equal _ _ h.children).2

theorem toList_renderFromProps (tag : String) (p : Props) :
    (Node.renderFromProps (.tag tag) p).html.toList =
      Node.elementChars tag (Node.shownAttributes p.attributes) (Node.childList p.children) :=
  Node.toList_render_tag tag _ _

/-- Equal values print equally, and of numbers only equal ones do, apart from NaNs. Equal props
have the same texts and the same children as markup, and the attributes that are written for an
element of them are the same up to their order. -/
theorem equal_prints_equally :
    (∀ a b : Value, a.equal b = true → a.displayText = b.displayText ∧ a.render = b.render) ∧
    (∀ x y : Double, (Value.float x).displayText = (Value.float y).displayText ↔
      x.equal y = true ∨ x.isNaN = true ∧ y.isNaN = true) ∧
    (∀ tag p,
      (∀ children, (Node.render (.tag tag) p children).html.toList =
        Node.elementChars tag (Node.shownAttributes p.attributes) children) ∧
      (Node.renderFromProps (.tag tag) p).html.toList =
        Node.elementChars tag (Node.shownAttributes p.attributes) (Node.childList p.children)) ∧
    ∀ changes others p q, p = empty.changed changes → q = empty.changed others →
      p.equal q = true →
      (∀ name, p.text name = q.text name) ∧
      Node.renderFragment p = Node.renderFragment q ∧
      (Node.shownAttributes p.attributes).Perm (Node.shownAttributes q.attributes) := by
  refine ⟨Value.prints_of_equal, fun x y => Double.text_eq_iff, ?_, ?_⟩
  · intro tag p
    exact ⟨Node.toList_render_tag tag p, toList_renderFromProps tag p⟩
  · intro changes others p q hchanges hothers h
    have hp : p.names.Nodup := by
      rw [hchanges, changed_empty]
      exact distinct_ofList (writes changes)
    have hq : q.names.Nodup := by
      rw [hothers, changed_empty]
      exact distinct_ofList (writes others)
    have hagrees := (equal_iff_agrees hp hq).mp h
    exact ⟨hagrees.text hp hq, hagrees.renderFragment, hagrees.shownAttributes_perm hp hq⟩

theorem equal_prints_equally_zeros :
    let zero : Value := .float ⟨0⟩
    let negativeZero : Value := .float ⟨0x8000000000000000⟩
    let p := empty.changed [.set "a" zero, .set "b" (.text "x")]
    let q := empty.changed [.set "b" (.text "x"), .set "a" negativeZero]
    (Value.list [zero]).equal (.list [negativeZero]) = true ∧
      (Value.list [zero]).render = (Value.list [negativeZero]).render ∧
      zero.displayText = negativeZero.displayText ∧
      p.equal q = true ∧ p.text "a" = q.text "a" ∧
      (Node.shownAttributes p.attributes).Perm (Node.shownAttributes q.attributes) := by
  intro zero negativeZero p q
  have hlists : (Value.list [zero]).equal (.list [negativeZero]) = true := by
    decide +kernel
  have hprops : p.equal q = true := by
    decide +kernel
  rcases equal_prints_equally with ⟨hvalues, hnumbers, -, hagree⟩
  rcases hagree _ _ p q rfl rfl hprops with ⟨htext, -, hperm⟩
  refine ⟨hlists, (hvalues _ _ hlists).2, (hnumbers _ _).mpr (Or.inl ?_), hprops, htext "a", hperm⟩
  decide +kernel

end Props

end StaticSite
