import StaticSite.Proofs.Markup.Escaping
import StaticSite.Proofs.Text.Replacing
/-!
# Escaping by replacement

Escaping writes the characters of a text one by one. It comes to the same to replace each of
the special characters in the whole text, one after another, as long as the ampersand is the
first: it is the only one of them that references have (`Markup.escape_eq_replace`). So text
that has a special character is longer when it is escaped and has an ampersand, and escaping it
again changes it again.
-/

namespace StaticSite.Markup

open Text

def textReplacements : List (Char × String) := [('&', "&amp;"), ('<', "&lt;"), ('>', "&gt;")]

def quoteReplacements : List (Char × String) := [('\'', "&#39;"), ('"', "&quot;")]

/-!
## One character after another
-/

theorem textReference_eq_substitute (c : Char) :
    textReference c = substitute textReplacements c := by
  unfold textReference
  split
  · decide
  · decide
  · decide
  · rename_i hamp hlt hgt
    simp only [textReplacements, substitute, if_neg hamp, if_neg hlt, if_neg hgt]

theorem attributeReference_eq_substitute (c : Char) :
    attributeReference c = substitute (textReplacements ++ quoteReplacements) c := by
  unfold attributeReference
  split
  · decide
  · decide
  · rename_i hsingle hdouble
    unfold textReference
    split
    · decide
    · decide
    · decide
    · rename_i hamp hlt hgt
      simp only [textReplacements, quoteReplacements, List.cons_append, List.nil_append,
        substitute, if_neg hamp, if_neg hlt, if_neg hgt, if_neg hsingle, if_neg hdouble]

theorem escapeText_eq_replaceAll (text : String) :
    escapeText text = replaceAll textReplacements text := by
  rw [← String.toList_inj, toList_escapeText, toList_replaceAll (by decide)]
  exact List.flatMap_congr fun c _ => textReference_eq_substitute c

theorem escapeAttribute_eq_replaceAll (text : String) :
    escapeAttribute text = replaceAll quoteReplacements (escapeText text) := by
  have hall : replaceAll quoteReplacements (replaceAll textReplacements text) =
      replaceAll (textReplacements ++ quoteReplacements) text :=
    (List.foldl_append ..).symm
  rw [escapeText_eq_replaceAll, hall, ← String.toList_inj, toList_escapeAttribute,
    toList_replaceAll (by decide)]
  exact List.flatMap_congr fun c _ => attributeReference_eq_substitute c

/-!
## Text that stays as it is
-/

/-- A text has no character that is replaced between tags. -/
def IsPlain (text : String) : Prop := ∀ pair ∈ textReplacements, pair.1 ∉ text.toList

theorem isPlain_iff {text : String} :
    IsPlain text ↔ '&' ∉ text.toList ∧ '<' ∉ text.toList ∧ '>' ∉ text.toList := by
  simp [IsPlain, textReplacements]

theorem textReference_of_mem {pair : Char × String} (h : pair ∈ textReplacements) :
    ∃ d name, textReference pair.1 = '&' :: d :: name := by
  simp only [textReplacements, List.mem_cons, List.not_mem_nil, or_false] at h
  rcases h with rfl | rfl | rfl
  · exact ⟨_, _, rfl⟩
  · exact ⟨_, _, rfl⟩
  · exact ⟨_, _, rfl⟩

theorem length_le_flatMap_textReference (chars : List Char) :
    chars.length ≤ (chars.flatMap textReference).length := by
  induction chars with
  | nil => exact Nat.le_refl _
  | cons c chars ih =>
      have hone : 1 ≤ (textReference c).length := by
        unfold textReference
        split <;> simp
      rw [List.flatMap_cons, List.length_append, List.length_cons]
      omega

theorem escapeText_eq_self_iff {text : String} : escapeText text = text ↔ IsPlain text := by
  rw [← String.toList_inj, toList_escapeText]
  constructor
  · intro h pair hpair hmem
    rcases List.append_of_mem hmem with ⟨before, after, hsplit⟩
    rcases textReference_of_mem hpair with ⟨d, name, hreference⟩
    have hlength := congrArg List.length h
    rw [hsplit, List.flatMap_append, List.flatMap_cons, hreference] at hlength
    have hbefore := length_le_flatMap_textReference before
    have hafter := length_le_flatMap_textReference after
    simp only [List.length_append, List.length_cons] at hlength
    omega
  · intro h
    rw [funext textReference_eq_substitute]
    exact flatMap_substitute_of_not_mem h

theorem isPlain_escapeText_iff {text : String} : IsPlain (escapeText text) ↔ IsPlain text := by
  constructor
  · intro h pair hpair hmem
    rcases textReference_of_mem hpair with ⟨d, name, hreference⟩
    refine (isPlain_iff.mp h).1 ?_
    rw [toList_escapeText, List.mem_flatMap]
    exact ⟨pair.1, hmem, by simp [hreference]⟩
  · intro h
    rwa [escapeText_eq_self_iff.mpr h]

/-!
## What escaping does
-/

/-- Escaping is replacing the special characters one after another, the ampersand first. It
goes through a text piece by piece. In what comes of it there are no brackets, and in an
attribute no quotes, and every ampersand begins a reference; and escaping it again changes it
unless there was nothing to escape. -/
theorem escape_eq_replace (text later : String) :
    escapeText text =
        ((text.replace '&' "&amp;").replace '<' "&lt;").replace '>' "&gt;" ∧
      escapeAttribute text =
        ((escapeText text).replace '\'' "&#39;").replace '"' "&quot;" ∧
      escapeText "" = "" ∧ escapeText (text ++ later) = escapeText text ++ escapeText later ∧
      escapeAttribute "" = "" ∧
      escapeAttribute (text ++ later) = escapeAttribute text ++ escapeAttribute later ∧
      IsInert textReferences (escapeText text) ∧
      IsInert attributeReferences (escapeAttribute text) ∧
      '\'' ∉ (escapeAttribute text).toList ∧ '"' ∉ (escapeAttribute text).toList ∧
      (escapeText (escapeText text) = escapeText text ↔
        '&' ∉ text.toList ∧ '<' ∉ text.toList ∧ '>' ∉ text.toList) := by
  refine ⟨escapeText_eq_replaceAll text, escapeAttribute_eq_replaceAll text,
    rfl, escapeText_append text later, rfl, escapeAttribute_append text later,
    isInert_escapeText text, isInert_escapeAttribute text,
    not_mem_escapeAttribute (by decide) text, not_mem_escapeAttribute (by decide) text, ?_⟩
  rw [escapeText_eq_self_iff, isPlain_escapeText_iff, isPlain_iff]

end StaticSite.Markup
