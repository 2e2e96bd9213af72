import StaticSite.Proofs.Markup.Rendering
/-!
# Leaves

The leaves of a value are the values in it that are not lists, from left to right.
Rendering knows a value by its leaves alone: it is the concatenation of what they are
rendered as (`Value.html_render`). Escaping is done leaf by leaf, and it makes no
difference when it is done once for all of them, as long as none is finished markup
(`Value.render_of_isMarkupFree`).
-/

namespace StaticSite

namespace Value

mutual

/-- The values in a value that are not lists, from left to right. -/
def leaves : Value → List Value
  | .list items => allLeaves items
  | leaf => [leaf]

def allLeaves : List Value → List Value
  | [] => []
  | v :: vs => leaves v ++ allLeaves vs

end

def isMarkup : Value → Bool
  | .markup _ => true
  | _ => false

def isNonFinite : Value → Bool
  | .float x => !x.isFinite
  | _ => false

def isMarkupFree (v : Value) : Bool := v.leaves.all (!·.isMarkup)

def hasFiniteNumbers (v : Value) : Bool := v.leaves.all (!·.isNonFinite)

/-- The leaves that can be seen: all but the nulls. -/
def shownLeaves (v : Value) : List Value := v.leaves.filter (!·.isNull)

/-!
## What the leaves are rendered as
-/

def concatenation (vs : List Value) : String := String.join (vs.map fun v => v.render.html)

theorem concatenation_cons (v : Value) (vs : List Value) :
    concatenation (v :: vs) = v.render.html ++ concatenation vs := by
  simp [concatenation]

theorem concatenation_append (vs ws : List Value) :
    concatenation (vs ++ ws) = concatenation vs ++ concatenation ws := by
  simp [concatenation]

theorem renderAllInto_eq_concatenation (vs : List Value) :
    renderAllInto "" vs = concatenation vs := by
  induction vs with
  | nil => rfl
  | cons v vs ih => rw [renderAllInto_cons, concatenation_cons, ih]

mutual

/-- A value is rendered as its leaves are. -/
theorem html_render (v : Value) : v.render.html = concatenation v.leaves := by
  cases v with
  | list items =>
      rw [render, renderAllInto_eq_concatenation, leaves, concatenation_allLeaves]
  | _ => simp [leaves, concatenation]

theorem concatenation_allLeaves (vs : List Value) :
    concatenation vs = concatenation (allLeaves vs) := by
  cases vs with
  | nil => rfl
  | cons v vs =>
      rw [concatenation_cons, html_render v, concatenation_allLeaves vs, allLeaves,
        concatenation_append]

end

theorem html_render_of_isNull {v : Value} (h : v.isNull = true) : v.render.html = "" := by
  cases v with
  | null => rfl
  | _ => simp [isNull] at h

theorem concatenation_filter_isNull (vs : List Value) :
    concatenation (vs.filter (!·.isNull)) = concatenation vs := by
  induction vs with
  | nil => rfl
  | cons v vs ih =>
      by_cases hnull : v.isNull = true
      · rw [List.filter_cons_of_neg (by simp [hnull]), ih, concatenation_cons,
          html_render_of_isNull hnull, String.empty_append]
      · rw [List.filter_cons_of_pos (by simp [hnull]), concatenation_cons, concatenation_cons, ih]

theorem html_render_eq_shownLeaves (v : Value) :
    v.render.html = concatenation v.shownLeaves := by
  rw [html_render, shownLeaves, concatenation_filter_isNull]

theorem render_congr_of_shownLeaves {v w : Value} (h : v.shownLeaves = w.shownLeaves) :
    v.render = w.render := by
  rw [Markup.eq_mk_of_html_eq (html_render_eq_shownLeaves v),
    Markup.eq_mk_of_html_eq (html_render_eq_shownLeaves w), h]

/-!
## Leaves without markup
-/

theorem not_isMarkup_of_mem_leaves {v leaf : Value} (hfree : v.isMarkupFree = true)
    (hleaf : leaf ∈ v.leaves) : leaf.isMarkup = false := by
  rw [isMarkupFree, List.all_eq_true] at hfree
  simpa using hfree leaf hleaf

mutual

theorem ne_list_of_mem_leaves (v : Value) : ∀ leaf ∈ v.leaves, ∀ items, leaf ≠ .list items := by
  cases v with
  | list items => exact ne_list_of_mem_allLeaves items
  | _ =>
      intro leaf hleaf items
      simp only [leaves, List.mem_singleton] at hleaf
      simp [hleaf]

theorem ne_list_of_mem_allLeaves (vs : List Value) :
    ∀ leaf ∈ allLeaves vs, ∀ items, leaf ≠ .list items := by
  cases vs with
  | nil => simp [allLeaves]
  | cons v vs =>
      intro leaf hleaf
      rw [allLeaves, List.mem_append] at hleaf
      rcases hleaf with hleaf | hleaf
      · exact ne_list_of_mem_leaves v leaf hleaf
      · exact ne_list_of_mem_allLeaves vs leaf hleaf

end

theorem render_leaf {leaf : Value} (hlist : ∀ items, leaf ≠ .list items)
    (hmarkup : leaf.isMarkup = false) :
    leaf.render.html = Markup.escapeText leaf.displayText := by
  cases leaf with
  | list items => exact absurd rfl (hlist items)
  | markup content => simp [isMarkup] at hmarkup
  | null => rfl
  | _ => rfl

theorem concatenation_eq_escapeText (vs : List Value)
    (hlist : ∀ v ∈ vs, ∀ items, v ≠ .list items) (hmarkup : ∀ v ∈ vs, v.isMarkup = false) :
    concatenation vs = Markup.escapeText (String.join (vs.map displayText)) := by
  induction vs with
  | nil => rfl
  | cons v vs ih =>
      rw [List.forall_mem_cons] at hlist hmarkup
      rw [concatenation_cons, ih hlist.2 hmarkup.2, render_leaf hlist.1 hmarkup.1, List.map_cons,
        String.join_cons, Markup.escapeText_append]

/-- Without markup, the texts of the leaves may be escaped all at once. -/
theorem render_of_isMarkupFree {v : Value} (hfree : v.isMarkupFree = true) :
    v.render = ⟨Markup.escapeText (String.join (v.leaves.map displayText))⟩ := by
  refine Markup.eq_mk_of_html_eq ?_
  rw [html_render]
  exact concatenation_eq_escapeText v.leaves (ne_list_of_mem_leaves v)
    fun leaf hleaf => not_isMarkup_of_mem_leaves hfree hleaf

end Value

end StaticSite
