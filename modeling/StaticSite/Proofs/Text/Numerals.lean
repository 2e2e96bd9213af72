import StaticSite.Text.Digits
import Mathlib.Data.List.Induction
/-!
# Decimal numerals

The numeral of a number has its decimal digits, and no zero comes before others. Every number has
exactly one, which is what is printed (`Text.isNumeral_iff`, `Text.isInteger_iff`).
-/

namespace StaticSite.Text

variable {digits : List Char}

/-- Whether digits are the numeral of a number: they have its value, and do not begin with a zero
unless there is nothing else. -/
structure IsNumeral (digits : List Char) (n : Nat) : Prop where
  ne_nil : digits ≠ []
  isDigit : ∀ c ∈ digits, c.isDigit = true
  leading : digits.head? = some '0' → digits = ['0']
  value : naturalValue digits = n

/-- Whether a text is the numeral of an integer: that of its absolute value, after a minus sign
for a negative one. -/
def IsInteger (text : String) (n : Int) : Prop :=
  ∃ digits, text.toList = (if n < 0 then ['-'] else []) ++ digits ∧ IsNumeral digits n.natAbs

/-!
## Digits
-/

theorem naturalValue_eq (digits : List Char) :
    naturalValue digits = Nat.ofDigitChars 10 digits 0 :=
  Nat.ofDigitChars_eq_foldl.symm

theorem naturalValue_toDigits (n : Nat) : naturalValue (Nat.toDigits 10 n) = n := by
  rw [naturalValue_eq, Nat.ofDigitChars_ten_toDigits]

theorem naturalValue_concat (digits : List Char) (c : Char) :
    naturalValue (digits ++ [c]) = 10 * naturalValue digits + digitValue c := by
  rw [naturalValue, List.foldl_append]
  rfl

theorem digitChar_digitValue {c : Char} (h : c.isDigit = true) :
    digitValue c < 10 ∧ Nat.digitChar (digitValue c) = c := by
  have hbounds := Char.isDigit_iff_toNat.mp h
  have hlow : 48 ≤ c.toNat := hbounds.1
  have hhigh : c.toNat ≤ 57 := hbounds.2
  have hvalue : digitValue c = c.toNat - 48 := rfl
  have hlt : digitValue c < 10 := by omega
  constructor
  · exact hlt
  · rw [← Char.toNat_inj, Nat.toNat_digitChar_of_lt_ten hlt]
    omega

theorem eq_zero_of_head?_toDigits {n : Nat} (h : (Nat.toDigits 10 n).head? = some '0') :
    n = 0 := by
  induction n using Nat.strongRecOn with
  | ind n ih =>
      by_cases hlt : n < 10
      · rw [Nat.toDigits_of_lt_base hlt, List.head?_cons, Option.some_inj] at h
        exact Nat.digitChar_eq_zero.mp h
      · have hle : 10 ≤ n := Nat.le_of_not_lt hlt
        have hfront : (Nat.toDigits 10 (n / 10)).head? = some '0' := by
          rw [Nat.toDigits_of_base_le (by decide) hle, List.head?_append,
            List.head?_eq_some_head Nat.toDigits_ne_nil, Option.some_or] at h
          rw [List.head?_eq_some_head Nat.toDigits_ne_nil, h]
        have hzero := ih (n / 10) (by omega) hfront
        omega

theorem isNumeral_toDigits (n : Nat) : IsNumeral (Nat.toDigits 10 n) n where
  ne_nil := Nat.toDigits_ne_nil
  isDigit _ hc := Nat.isDigit_of_mem_toDigits (by decide) (by decide) hc
  leading := by
    intro h
    rw [eq_zero_of_head?_toDigits h, Nat.toDigits_zero]
  value := naturalValue_toDigits n

theorem IsNumeral.dropLast {c : Char} {n : Nat} (h : IsNumeral (digits ++ [c]) n)
    (hne : digits ≠ []) : IsNumeral digits (naturalValue digits) ∧ 0 < naturalValue digits := by
  have hhead : digits.head? ≠ some '0' := by
    intro hzero
    have hlength := congrArg List.length (h.leading (by rw [List.head?_append, hzero]; rfl))
    have hpos := List.length_pos_iff.mpr hne
    rw [List.length_append, List.length_singleton, List.length_singleton] at hlength
    omega
  have hisDigit : ∀ d ∈ digits, d.isDigit = true :=
    fun d hd => h.isDigit d (List.mem_append_left _ hd)
  refine ⟨⟨hne, hisDigit, fun hzero => absurd hzero hhead, rfl⟩, ?_⟩
  -- Only a zero at the front adds nothing to the value.
  cases digits with
  | nil => exact absurd rfl hne
  | cons d digits =>
      rcases digitChar_digitValue (hisDigit d (List.mem_cons_self ..)) with ⟨-, hchar⟩
      have hd : digitValue d ≠ 0 := by
        intro hzero
        rw [hzero] at hchar
        exact hhead (by rw [List.head?_cons, ← hchar]; rfl)
      rw [naturalValue_eq, Nat.ofDigitChars_cons, Nat.ofDigitChars_eq_ofDigitChars_zero]
      have hfirst : 0 < 10 ^ digits.length * (10 * 0 + digitValue d) :=
        Nat.mul_pos (Nat.pow_pos (by decide)) (by omega)
      exact Nat.lt_of_lt_of_le hfirst (Nat.le_add_right _ _)

theorem IsNumeral.eq_toDigits {n : Nat} (h : IsNumeral digits n) : digits = Nat.toDigits 10 n := by
  induction digits using List.reverseRecOn generalizing n with
  | nil => exact absurd rfl h.ne_nil
  | append_singleton digits c ih =>
      rcases digitChar_digitValue (h.isDigit c (by simp)) with ⟨hlt, hchar⟩
      have hvalue : n = 10 * naturalValue digits + digitValue c := by
        rw [← naturalValue_concat, h.value]
      by_cases hne : digits = []
      · subst hne
        have hn : n = digitValue c := by simpa [naturalValue] using hvalue
        rw [hn, Nat.toDigits_of_lt_base hlt, hchar, List.nil_append]
      · rcases h.dropLast hne with ⟨hfront, hpos⟩
        rw [hvalue, ← Nat.toDigits_append_toDigits (by decide) hpos hlt, ← ih hfront,
          Nat.toDigits_of_lt_base hlt, hchar]

theorem isNumeral_iff {n : Nat} : IsNumeral digits n ↔ digits = Nat.toDigits 10 n := by
  constructor
  · exact IsNumeral.eq_toDigits
  · rintro rfl
    exact isNumeral_toDigits n

/-!
## Integers
-/

theorem toList_repr (n : Int) :
    n.repr.toList = (if n < 0 then ['-'] else []) ++ Nat.toDigits 10 n.natAbs := by
  rw [Int.repr_eq_if]
  by_cases hsign : 0 ≤ n
  · have habs : n.toNat = n.natAbs := by omega
    rw [if_pos hsign, if_neg (Int.not_lt.mpr hsign), habs, Nat.repr_eq_ofList_toDigits]
    simp
  · have habs : (-n).toNat = n.natAbs := by omega
    rw [if_neg hsign, if_pos (Int.not_le.mp hsign), habs, Nat.repr_eq_ofList_toDigits]
    simp

/-- An integer has one numeral, which is what is printed for it. -/
theorem isInteger_iff {text : String} {n : Int} : IsInteger text n ↔ text = n.repr := by
  simp only [IsInteger, isNumeral_iff]
  rw [← String.toList_inj, toList_repr]
  simp

theorem IsNumeral.not_minus {n : Nat} {rest : List Char} : ¬ IsNumeral ('-' :: rest) n := by
  intro h
  have hminus := h.isDigit '-' List.mem_cons_self
  exact absurd hminus (by decide)

/-- A text is the numeral of one integer at most. -/
theorem IsInteger.unique {text : String} {m n : Int} (hm : IsInteger text m)
    (hn : IsInteger text n) : m = n := by
  rcases hm with ⟨digits, htext, hdigits⟩
  rcases hn with ⟨digits', htext', hdigits'⟩
  rw [htext] at htext'
  have habs : digits = digits' → m.natAbs = n.natAbs := by
    rintro rfl
    rw [← hdigits.value, hdigits'.value]
  by_cases hmsign : m < 0 <;> by_cases hnsign : n < 0
  · rw [if_pos hmsign, if_pos hnsign] at htext'
    have hvalue := habs (List.append_cancel_left htext')
    omega
  · rw [if_pos hmsign, if_neg hnsign, List.nil_append, List.singleton_append] at htext'
    exact absurd (htext' ▸ hdigits') IsNumeral.not_minus
  · rw [if_neg hmsign, if_pos hnsign, List.nil_append, List.singleton_append] at htext'
    exact absurd (htext' ▸ hdigits) IsNumeral.not_minus
  · rw [if_neg hmsign, if_neg hnsign] at htext'
    have hvalue := habs (List.append_cancel_left htext')
    omega

theorem repr_eq_repr_iff {m n : Int} : m.repr = n.repr ↔ m = n := by
  constructor
  · intro h
    exact (isInteger_iff.mpr rfl).unique (isInteger_iff.mpr h)
  · rintro rfl
    rfl

theorem mem_repr {n : Int} {c : Char} (h : c ∈ n.repr.toList) : c = '-' ∨ c.isDigit = true := by
  rw [toList_repr, List.mem_append] at h
  rcases h with h | h
  · left
    split at h
    · exact List.mem_singleton.mp h
    · cases h
  · right
    exact Nat.isDigit_of_mem_toDigits (by decide) (by decide) h

theorem not_mem_repr {others : List Char} (h : ∀ d ∈ others, d ≠ '-' ∧ d.isDigit = false) {n : Int}
    {c : Char} (hc : c ∈ n.repr.toList) : c ∉ others := by
  intro hother
  rcases h c hother with ⟨hminus, hdigit⟩
  rcases mem_repr hc with rfl | hisDigit
  · exact hminus rfl
  · rw [hdigit] at hisDigit
    cases hisDigit

end StaticSite.Text
