import StaticSite.Markup.Escape
/-!
# Escaped text

Escaping puts a reference in the place of every character that could be taken for markup.
A reference holds none of these characters but the ampersand that it begins with, so in
what is written no bracket is left, and every ampersand begins a reference
(`Markup.isInert_escapeText`, `Markup.isInert_escapeAttribute`).
-/

namespace StaticSite.Markup

def textReferences : List String := ["&amp;", "&lt;", "&gt;"]

def attributeReferences : List String := textReferences ++ ["&#39;", "&quot;"]

/-- Text in which nothing can be taken for a tag: it has no brackets, and its ampersands
all begin one of the references. -/
structure IsInert (references : List String) (text : String) : Prop where
  not_mem_opening : '<' ∉ text.toList
  not_mem_closing : '>' ∉ text.toList
  begins_reference : ∀ before after, text.toList = before ++ '&' :: after →
    ∃ r ∈ references, r.toList <+: '&' :: after

/-- Writing characters one by one such that each is written as itself, unless it is one of
those that are not to be, or as a reference. -/
structure Escapes (special : List Char) (references : List String) (write : Char → List Char) :
    Prop where
  written : ∀ c, (write c = [c] ∧ c ∉ special) ∨ ∃ r ∈ references, write c = r.toList
  reference : ∀ r ∈ references, ∃ name, r.toList = '&' :: name ∧ ∀ c ∈ name, c ∉ special

theorem escapes_textReference : Escapes ['&', '<', '>'] textReferences textReference where
  written := by
    intro c
    unfold textReference
    split
    · exact Or.inr ⟨"&amp;", by decide, by decide⟩
    · exact Or.inr ⟨"&lt;", by decide, by decide⟩
    · exact Or.inr ⟨"&gt;", by decide, by decide⟩
    · exact Or.inl ⟨rfl, by grind⟩
  reference := by
    intro r hr
    simp only [textReferences, List.mem_cons, List.not_mem_nil, or_false] at hr
    rcases hr with rfl | rfl | rfl
    · exact ⟨['a', 'm', 'p', ';'], rfl, by simp⟩
    · exact ⟨['l', 't', ';'], rfl, by simp⟩
    · exact ⟨['g', 't', ';'], rfl, by simp⟩

theorem escapes_attributeReference :
    Escapes ['&', '<', '>', '\'', '"'] attributeReferences attributeReference where
  written := by
    intro c
    unfold attributeReference
    split
    · exact Or.inr ⟨"&#39;", by decide, by decide⟩
    · exact Or.inr ⟨"&quot;", by decide, by decide⟩
    · rcases escapes_textReference.written c with ⟨hsame, hspecial⟩ | ⟨r, hr, hwrite⟩
      · exact Or.inl ⟨hsame, by grind⟩
      · exact Or.inr ⟨r, List.mem_append_left _ hr, hwrite⟩
  reference := by
    intro r hr
    simp only [attributeReferences, textReferences, List.cons_append, List.nil_append,
      List.mem_cons, List.not_mem_nil, or_false] at hr
    rcases hr with rfl | rfl | rfl | rfl | rfl
    · exact ⟨['a', 'm', 'p', ';'], rfl, by simp⟩
    · exact ⟨['l', 't', ';'], rfl, by simp⟩
    · exact ⟨['g', 't', ';'], rfl, by simp⟩
    · exact ⟨['#', '3', '9', ';'], rfl, by simp⟩
    · exact ⟨['q', 'u', 'o', 't', ';'], rfl, by simp⟩

/-!
## What is written
-/

namespace Escapes

variable {special : List Char} {references : List String} {write : Char → List Char}

theorem not_mem_flatMap (h : Escapes special references write) {d : Char} (hspecial : d ∈ special)
    (hd : d ≠ '&') (cs : List Char) : d ∉ cs.flatMap write := by
  intro hmem
  rcases List.mem_flatMap.mp hmem with ⟨c, _, hwritten⟩
  rcases h.written c with ⟨hsame, hc⟩ | ⟨r, hr, hwrite⟩
  · rw [hsame, List.mem_singleton] at hwritten
    exact hc (hwritten ▸ hspecial)
  · rcases h.reference r hr with ⟨name, hname, hfree⟩
    rw [hwrite, hname, List.mem_cons] at hwritten
    rcases hwritten with rfl | hwritten
    · exact hd rfl
    · exact hfree d hwritten hspecial

theorem eq_reference (h : Escapes special references write) (hspecial : '&' ∈ special) {c : Char}
    {before after : List Char} (hwrite : write c = before ++ '&' :: after) :
    before = [] ∧ ∃ r ∈ references, r.toList = '&' :: after := by
  rcases h.written c with ⟨hsame, hc⟩ | ⟨r, hr, hreference⟩
  · have hmem : '&' ∈ write c := by simp [hwrite]
    rw [hsame, List.mem_singleton] at hmem
    exact absurd (hmem ▸ hspecial) hc
  · rcases h.reference r hr with ⟨name, hname, hfree⟩
    rw [hreference, hname] at hwrite
    cases before with
    | nil => exact ⟨rfl, r, hr, hname.trans hwrite⟩
    | cons d before =>
        have hmem : '&' ∈ name := by simp [(List.cons.inj hwrite).2]
        exact absurd hspecial (hfree '&' hmem)

/-- Every ampersand that is written begins a reference. -/
theorem begins_reference (h : Escapes special references write) (hspecial : '&' ∈ special)
    (cs : List Char) {before after : List Char}
    (hsplit : cs.flatMap write = before ++ '&' :: after) :
    ∃ r ∈ references, r.toList <+: '&' :: after := by
  induction cs generalizing before with
  | nil => simp at hsplit
  | cons c cs ih =>
      rw [List.flatMap_cons, List.append_eq_append_iff] at hsplit
      rcases hsplit with ⟨later, _, hlater⟩ | ⟨rest, hfirst, hrest⟩
      · exact ih hlater
      · cases rest with
        | nil =>
            have hlater : cs.flatMap write = [] ++ '&' :: after := hrest.symm
            exact ih hlater
        | cons d rest =>
            rcases List.cons.inj hrest with ⟨rfl, _⟩
            rcases (h.eq_reference hspecial hfirst).2 with ⟨r, hr, hreference⟩
            refine ⟨r, hr, cs.flatMap write, ?_⟩
            rw [hreference, hrest]

end Escapes

theorem isInert_escapeText (text : String) : IsInert textReferences (escapeText text) where
  not_mem_opening := by
    rw [toList_escapeText]
    exact escapes_textReference.not_mem_flatMap (by decide) (by decide) _
  not_mem_closing := by
    rw [toList_escapeText]
    exact escapes_textReference.not_mem_flatMap (by decide) (by decide) _
  begins_reference := by
    intro before after hsplit
    rw [toList_escapeText] at hsplit
    exact escapes_textReference.begins_reference (by decide) _ hsplit

theorem isInert_escapeAttribute (text : String) :
    IsInert attributeReferences (escapeAttribute text) where
  not_mem_opening := by
    rw [toList_escapeAttribute]
    exact escapes_attributeReference.not_mem_flatMap (by decide) (by decide) _
  not_mem_closing := by
    rw [toList_escapeAttribute]
    exact escapes_attributeReference.not_mem_flatMap (by decide) (by decide) _
  begins_reference := by
    intro before after hsplit
    rw [toList_escapeAttribute] at hsplit
    exact escapes_attributeReference.begins_reference (by decide) _ hsplit

theorem not_mem_escapeAttribute {quote : Char} (h : quote ∈ ['\'', '"']) (text : String) :
    quote ∉ (escapeAttribute text).toList := by
  have hspecial : quote ∈ ['&', '<', '>', '\'', '"'] := by simp_all
  have hne : quote ≠ '&' := by
    rintro rfl
    exact absurd h (by decide)
  rw [toList_escapeAttribute]
  exact escapes_attributeReference.not_mem_flatMap hspecial hne _

end StaticSite.Markup
