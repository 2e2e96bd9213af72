import Mathlib.Algebra.Group.Int.Defs
import StaticSite.Markup.Render
import StaticSite.Proofs.Markup.Replacing
import StaticSite.Proofs.Markup.Streaming
import StaticSite.Proofs.Text.Numerals
/-!
# Integers of any size

A value holds integers of 64 bits with a sign. Every other integer is kept as the text of its
numeral, so an integer of any size is shown as its numeral, and no two of them are shown alike.
JSON texts are read in the same way: the numeral of an integer, from the least one of 64 bits
with a sign to the greatest one without, is read as the value that the integer itself becomes.
-/

namespace StaticSite

open Text (IsNumeral IsInteger)

/-!
## Reading integers
-/

namespace Json

theorem le_ofDigitChars (init : Nat) (digits : List Char) :
    init ≤ Nat.ofDigitChars 10 digits init := by
  rw [Nat.ofDigitChars_eq_ofDigitChars_zero]
  have hpos : 0 < 10 ^ digits.length := Nat.pow_pos (by decide)
  exact (Nat.le_mul_of_pos_left init hpos).trans (Nat.le_add_right _ _)

theorem absorb_eq (n : Nat) (digits : List Char)
    (h : Nat.ofDigitChars 10 digits n < UInt64.size) :
    absorb n digits = (Nat.ofDigitChars 10 digits n, []) := by
  induction digits generalizing n with
  | nil => rw [absorb, Nat.ofDigitChars_nil]
  | cons c digits ih =>
      rw [Nat.ofDigitChars_cons] at h ⊢
      have hnext : 10 * n + Text.digitValue c < UInt64.size :=
        Nat.lt_of_le_of_lt (le_ofDigitChars _ digits) h
      rw [absorb, if_pos hnext]
      exact ih (10 * n + Text.digitValue c) h

namespace Number

theorem isUnsigned_numeral {digits : List Char} {n : Nat} (h : IsNumeral digits n)
    (hlt : n < UInt64.size) (isNegative : Bool) :
    IsUnsigned isNegative (ofDigits isNegative n) digits := by
  have hvalue : Nat.ofDigitChars 10 digits 0 = n := by
    rw [← Text.naturalValue_eq, h.value]
  have habsorb : absorb 0 digits = (n, []) := by
    rw [absorb_eq 0 digits (hvalue ▸ hlt), hvalue]
  have hnumber : value? isNegative digits [] none = some (ofDigits isNegative n) := by
    rw [value?, habsorb]
    rfl
  have hparts := IsUnsigned.parts h .none .none hnumber
  rwa [List.append_nil, List.append_nil] at hparts

theorem isSpelled_integer {text : String} {n : Int} (h : IsInteger text n)
    (hlt : n.natAbs < UInt64.size) :
    IsSpelled (ofDigits (decide (n < 0)) n.natAbs) text.toList := by
  rcases h with ⟨digits, htext, hdigits⟩
  by_cases hsign : n < 0
  · rw [htext, if_pos hsign, decide_eq_true hsign]
    exact .minus (isUnsigned_numeral hdigits hlt true)
  · rw [htext, if_neg hsign, decide_eq_false hsign, List.nil_append]
    exact .unsigned (isUnsigned_numeral hdigits hlt false)

end Number

end Json

/-!
## Integers as values
-/

namespace Value

variable {n : Int}

def FitsInt64 (n : Int) : Prop := -2 ^ 63 ≤ n ∧ n < 2 ^ 63

theorem ofInt_of_fits (h : FitsInt64 n) : ofInt n = .int (Int64.ofInt n) := by
  have hmin : Int64.minValue.toInt = -2 ^ 63 := by decide
  have hmax : Int64.maxValue.toInt = 2 ^ 63 - 1 := by decide
  rw [ofInt, if_pos]
  rw [hmin, hmax]
  exact ⟨h.1, Int.le_sub_one_of_lt h.2⟩

theorem ofInt_of_not_fits (h : ¬ FitsInt64 n) : ofInt n = .text n.repr := by
  have hmin : Int64.minValue.toInt = -2 ^ 63 := by decide
  have hmax : Int64.maxValue.toInt = 2 ^ 63 - 1 := by decide
  rw [ofInt, if_neg]
  rw [hmin, hmax]
  rintro ⟨hlow, hhigh⟩
  exact h ⟨hlow, Int.lt_of_le_sub_one hhigh⟩

theorem toInt_ofInt (h : FitsInt64 n) : (Int64.ofInt n).toInt = n :=
  Int64.toInt_ofInt_of_le h.1 h.2

theorem displayText_ofInt (n : Int) : (ofInt n).displayText = n.repr := by
  by_cases h : FitsInt64 n
  · rw [ofInt_of_fits h, displayText, toInt_ofInt h]
  · rw [ofInt_of_not_fits h, displayText]

theorem escapeText_repr (n : Int) : Markup.escapeText n.repr = n.repr := by
  have hspecial : ∀ c ∈ n.repr.toList, c ∉ ['&', '<', '>'] :=
    fun c hc => Text.not_mem_repr (by simp) hc
  rw [Markup.escapeText_eq_self_iff, Markup.isPlain_iff]
  refine ⟨fun hc => ?_, fun hc => ?_, fun hc => ?_⟩
  · exact hspecial _ hc (by decide)
  · exact hspecial _ hc (by decide)
  · exact hspecial _ hc (by decide)

theorem render_ofInt (n : Int) : (ofInt n).render = ⟨n.repr⟩ := by
  by_cases h : FitsInt64 n
  · have hrender : (Value.int (Int64.ofInt n)).render =
        ⟨Markup.escapeText (Int64.ofInt n).toInt.repr⟩ := rfl
    rw [ofInt_of_fits h, hrender, toInt_ofInt h, escapeText_repr]
  · have hrender : (Value.text n.repr).render = ⟨Markup.escapeText n.repr⟩ := rfl
    rw [ofInt_of_not_fits h, hrender, escapeText_repr]

theorem toValue_ofDigits (hlow : -2 ^ 63 ≤ n) (hhigh : n < 2 ^ 64) :
    (Json.Number.ofDigits (decide (n < 0)) n.natAbs).toValue = ofInt n := by
  by_cases hsign : n < 0
  · have hmin : Int64.minValue.toInt.natAbs = 2 ^ 63 := by decide
    have hrange : 0 < n.natAbs ∧ n.natAbs ≤ Int64.minValue.toInt.natAbs := by
      rw [hmin]
      omega
    have habs : (-(n.natAbs : Int)) = n := by omega
    have hfits : FitsInt64 n := ⟨hlow, by omega⟩
    rw [decide_eq_true hsign, Json.Number.ofDigits, if_neg (by decide), if_pos hrange, habs,
      Json.Number.toValue, ofInt_of_fits hfits]
  · have hlt : n.natAbs < UInt64.size := by
      rw [UInt64.size]
      omega
    have hword : (n.natAbs.toUInt64.toNat : Int) = n := by
      rw [Nat.toUInt64, UInt64.toNat_ofNat_of_lt' hlt]
      omega
    have hnatural : Json.Number.ofDigits false n.natAbs = .natural n.natAbs.toUInt64 := rfl
    rw [decide_eq_false hsign, hnatural, Json.Number.toValue, hword]

theorem ofJsonText_repr (hlow : -2 ^ 63 ≤ n) (hhigh : n < 2 ^ 64) :
    ofJsonText n.repr = .ok (ofInt n) := by
  have hlt : n.natAbs < UInt64.size := by
    rw [UInt64.size]
    omega
  have hspelled := Json.Number.isSpelled_integer (Text.isInteger_iff.mpr rfl) hlt
  rw [ofJsonText_eq_ok_iff_isWritten]
  refine ⟨_, .number _ hspelled, ?_⟩
  rw [ofJson?, toValue_ofDigits hlow hhigh]

/-- An integer in the range of 64 bits with a sign is held as it is, and any other one as the
text of its numeral. Either way it is shown and rendered as its numeral, and no two integers
alike. The numeral of an integer that 64 bits hold with or without a sign is read from a JSON
text as the value of the integer, and shown again. -/
theorem ofInt_shows_numeral :
    (∀ n : Int,
        (FitsInt64 n → ∃ i : Int64, i.toInt = n ∧ ofInt n = .int i) ∧
        (¬ FitsInt64 n → ∃ text, IsInteger text n ∧ ofInt n = .text text) ∧
        IsInteger (ofInt n).displayText n ∧ IsInteger (ofInt n).render.html n) ∧
      (∀ m n : Int,
        ((ofInt m).displayText = (ofInt n).displayText ↔ m = n) ∧
        ((ofInt m).render = (ofInt n).render ↔ m = n)) ∧
      ∀ (n : Int) (text : String), -2 ^ 63 ≤ n → n < 2 ^ 64 → IsInteger text n →
        ofJsonText text = .ok (ofInt n) ∧ ofJsonTree text = .ok (ofInt n) ∧
          (ofInt n).displayText = text := by
  refine ⟨fun n => ⟨?_, ?_, ?_, ?_⟩, fun m n => ⟨?_, ?_⟩, ?_⟩
  · intro h
    exact ⟨Int64.ofInt n, toInt_ofInt h, ofInt_of_fits h⟩
  · intro h
    exact ⟨n.repr, Text.isInteger_iff.mpr rfl, ofInt_of_not_fits h⟩
  · rw [Text.isInteger_iff, displayText_ofInt]
  · rw [Text.isInteger_iff, render_ofInt]
  · rw [displayText_ofInt, displayText_ofInt, Text.repr_eq_repr_iff]
  · rw [render_ofInt, render_ofInt, Markup.mk.injEq, Text.repr_eq_repr_iff]
  · intro n text hlow hhigh htext
    have hread : ofJsonText text = .ok (ofInt n) := by
      rw [Text.isInteger_iff.mp htext]
      exact ofJsonText_repr hlow hhigh
    refine ⟨hread, ofJsonText_eq_ok_iff.mp hread, ?_⟩
    rw [displayText_ofInt, Text.isInteger_iff.mp htext]

theorem ofInt_shows_numeral_bounds :
    (FitsInt64 (-2 ^ 63) ∧ ∃ i : Int64, i.toInt = -2 ^ 63 ∧ ofInt (-2 ^ 63) = .int i) ∧
      (¬ FitsInt64 (2 ^ 64 - 1) ∧
        ∃ text, IsInteger text (2 ^ 64 - 1) ∧ ofInt (2 ^ 64 - 1) = .text text) ∧
      IsInteger "18446744073709551615" (2 ^ 64 - 1) ∧
      ofJsonText "18446744073709551615" = .ok (ofInt (2 ^ 64 - 1)) ∧
      ofJsonTree "18446744073709551615" = .ok (ofInt (2 ^ 64 - 1)) ∧
      (ofInt (2 ^ 64 - 1)).displayText = "18446744073709551615" := by
  have hlow : FitsInt64 (-2 ^ 63) := ⟨by decide, by decide⟩
  have hhigh : ¬ FitsInt64 (2 ^ 64 - 1) := fun h => absurd h.2 (by decide)
  have hnumeral : IsInteger "18446744073709551615" (2 ^ 64 - 1) :=
    Text.isInteger_iff.mpr (by decide +kernel)
  refine ⟨⟨hlow, ?_⟩, ⟨hhigh, ?_⟩, hnumeral, ?_⟩
  · exact (ofInt_shows_numeral.1 _).1 hlow
  · exact (ofInt_shows_numeral.1 _).2.1 hhigh
  · exact ofInt_shows_numeral.2.2 _ _ (by decide) (by decide) hnumeral

end Value

end StaticSite
