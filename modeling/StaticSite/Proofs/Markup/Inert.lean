import StaticSite.Proofs.Markup.Escaping
import StaticSite.Proofs.Markup.RoundTrip
import StaticSite.Proofs.Markup.Streaming
/-!
# What is read stays text

Markup has no place in JSON, so no value that is read from a JSON text holds any, whichever
way it is read (`Value.isMarkupFree_of_ofJson?`). Such a value is escaped wherever it is
written, and nothing of it can be taken for a tag or for the end of an attribute. This
includes markup that was written to JSON: it comes back as text.
-/

namespace StaticSite

namespace Value

/-!
## Values of trees
-/

theorem isMarkupFree_toValue (n : Json.Number) : n.toValue.isMarkupFree = true := by
  cases n with
  | natural n =>
      rw [Json.Number.toValue, ofInt]
      split <;> rfl
  | negative n => rfl
  | float x => rfl

mutual

theorem isMarkupFree_of_ofJson? (j : Json) {v : Value} (h : ofJson? j = some v) :
    v.isMarkupFree = true := by
  cases j with
  | array items =>
      rcases Option.map_eq_some_iff.mp h with ⟨vs, hvs, rfl⟩
      exact allLeaves_of_ofJsons? items hvs
  | object members => cases h
  | number n =>
      cases h
      exact isMarkupFree_toValue n
  | _ =>
      cases h
      rfl

theorem allLeaves_of_ofJsons? (js : List Json) {vs : List Value} (h : ofJsons? js = some vs) :
    (allLeaves vs).all (!·.isMarkup) = true := by
  cases js with
  | nil =>
      cases h
      rfl
  | cons j js =>
      rw [ofJsons?_cons] at h
      rcases Option.bind_eq_some_iff.mp h with ⟨v, hv, hrest⟩
      rcases Option.map_eq_some_iff.mp hrest with ⟨ws, hws, rfl⟩
      have hhead : v.leaves.all (!·.isMarkup) = true := isMarkupFree_of_ofJson? j hv
      rw [allLeaves, List.all_append, hhead, allLeaves_of_ofJsons? js hws, Bool.and_self]

end

/-- Whichever way a value is read, it is the value of the tree that the text is read as. -/
theorem exists_tree_of_read {text : String} {v : Value}
    (h : ofJsonText text = .ok v ∨ ofJsonTree text = .ok v ∨
      (optionOfJsonTree text).map ofOption = .ok v) :
    ∃ j, Json.read .tree text = .ok j ∧ ofJson? j = some v := by
  rw [map_ofOption_optionOfJsonTree, or_self, ofJsonText_eq_ok_iff, or_self] at h
  exact readTree_eq_ok_iff.mp h

/-!
## Where a value is written
-/

theorem html_element_singleton {tag : String} (htag : Node.isVoidElement tag = false) (p : Props)
    (v : Value) :
    (Node.render (.tag tag) p [v]).html =
      Node.writeAttributes ("<" ++ tag) p.attributes ++ ">" ++ v.render.html ++
        "</" ++ tag ++ ">" := by
  simp only [Node.render, htag, Bool.false_eq_true, if_false]
  rw [renderAllInto, renderAllInto, renderInto_eq_append]

theorem writeAttributes_append_cons (out name : String) (before after : List (String × Value))
    (v : Value) :
    Node.writeAttributes out (before ++ (name, v) :: after) =
      Node.writeAttributes (Node.writeAttributes out before ++ " " ++ name ++ "=\"" ++
        Markup.escapeAttribute v.displayText ++ "\"") after := by
  simp only [Node.writeAttributes, List.foldl_append, List.foldl_cons]

/-- A value that is read holds no markup. What it is rendered as, which is the body of an
element that it is the only child of, is inert, and so is the text of an attribute that it
is the value of. Markup that was written to JSON is read as text, at any depth. -/
theorem isInert_of_read {text : String} {v : Value}
    (h : ofJsonText text = .ok v ∨ ofJsonTree text = .ok v ∨
      (optionOfJsonTree text).map ofOption = .ok v) :
    v.isMarkupFree = true ∧
      Markup.IsInert Markup.textReferences v.render.html ∧
      (∀ (tag : String) (p : Props), Node.isVoidElement tag = false →
        (Node.render (.tag tag) p [v]).html =
          Node.writeAttributes ("<" ++ tag) p.attributes ++ ">" ++ v.render.html ++
            "</" ++ tag ++ ">") ∧
      Markup.IsInert Markup.attributeReferences (Markup.escapeAttribute v.displayText) ∧
      (∀ quote ∈ ['\'', '"'], quote ∉ (Markup.escapeAttribute v.displayText).toList) ∧
      (∀ (out name : String) (before after : List (String × Value)),
        Node.writeAttributes out (before ++ (name, v) :: after) =
          Node.writeAttributes (Node.writeAttributes out before ++ " " ++ name ++ "=\"" ++
            Markup.escapeAttribute v.displayText ++ "\"") after) ∧
      (∀ w : Value, Json.read .tree text = .ok w.toJson → v = w.normalize) ∧
      ∀ m : Markup, Json.read .tree text = .ok (Value.markup m).toJson →
        v.render.html = Markup.escapeText m.html := by
  rcases exists_tree_of_read h with ⟨j, hread, hj⟩
  have hfree : v.isMarkupFree = true := isMarkupFree_of_ofJson? j hj
  have hwritten : ∀ w : Value, Json.read .tree text = .ok w.toJson → v = w.normalize := by
    intro w hw
    rw [hread] at hw
    cases hw
    exact Option.some.inj (hj.symm.trans (ofJson?_toJson w))
  refine ⟨hfree, ?_, fun tag p htag => html_element_singleton htag p v,
    Markup.isInert_escapeAttribute _, fun quote hquote => Markup.not_mem_escapeAttribute hquote _,
    fun out name before after => writeAttributes_append_cons out name before after v,
    hwritten, ?_⟩
  · rw [render_of_isMarkupFree hfree]
    exact Markup.isInert_escapeText _
  · intro m hm
    rw [hwritten (.markup m) hm]
    rfl

theorem isInert_of_read_markup :
    ofJsonText "[\"<b>&\"]" = .ok (.list [.text "<b>&"]) ∧
      (Node.render (.tag "p") .empty [.list [.text "<b>&"]]).html =
        "<p>" ++ (Value.list [.text "<b>&"]).render.html ++ "</p>" ∧
      Value.list [.text "<b>&"] = (Value.list [.markup ⟨"<b>&"⟩]).normalize := by
  have hread : ofJsonText "[\"<b>&\"]" = .ok (.list [.text "<b>&"]) := by cbv
  have htree : Json.read .tree "[\"<b>&\"]" = .ok (Value.list [.markup ⟨"<b>&"⟩]).toJson := by cbv
  have hinert := isInert_of_read (Or.inl hread)
  exact ⟨hread, hinert.2.2.1 "p" .empty (by decide), hinert.2.2.2.2.2.2.1 _ htree⟩

end Value

end StaticSite
