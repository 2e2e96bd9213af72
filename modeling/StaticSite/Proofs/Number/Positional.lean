import Mathlib.Data.List.TakeWhile
import StaticSite.Proofs.Number.Rounding
import StaticSite.Proofs.Text.Numerals
/-!
# Texts of numbers

A decimal that is written out in full is read back from its text. So two finite numbers with the
same text have shortest decimals of the same value, to which only one magnitude rounds. Apart from
the zeros, which have one text, and from NaNs, the text of a number is that of no other
(`Double.text_eq_iff`).
-/

namespace StaticSite

namespace Text

/-- The number that digits with a point among them stand for. -/
def decimalValue (cs : List Char) : ℚ :=
  naturalValue (cs.filter (· != '.')) / 10 ^ (cs.dropWhile (· != '.')).tail.length

theorem naturalValue_append_zeros (digits : List Char) (n : Nat) :
    naturalValue (digits ++ Decimal.zeros n) = naturalValue digits * 10 ^ n := by
  induction n with
  | zero => simp [Decimal.zeros]
  | succ n ih =>
      rw [Decimal.zeros, List.replicate_succ', ← List.append_assoc, naturalValue_concat]
      rw [Decimal.zeros] at ih
      rw [ih, pow_succ]
      show 10 * (naturalValue digits * 10 ^ n) + 0 = _
      ring

theorem naturalValue_zeros_append (n : Nat) (digits : List Char) :
    naturalValue (Decimal.zeros n ++ digits) = naturalValue digits := by
  induction n with
  | zero => rfl
  | succ n ih =>
      rw [Decimal.zeros, List.replicate_succ, List.cons_append]
      exact ih

theorem ne_point_of_isDigit {digits : List Char} (h : ∀ c ∈ digits, c.isDigit = true) :
    ∀ c ∈ digits, (c != '.') = true := by
  intro c hc
  rw [bne_iff_ne]
  rintro rfl
  cases h '.' hc

theorem decimalValue_digits {digits : List Char} (h : ∀ c ∈ digits, c.isDigit = true) :
    decimalValue digits = naturalValue digits := by
  have hpoint := ne_point_of_isDigit h
  rw [decimalValue, List.filter_eq_self.mpr hpoint, List.dropWhile_eq_nil_iff.mpr hpoint,
    List.tail_nil, List.length_nil, pow_zero, div_one]

theorem decimalValue_point {whole fraction : List Char} (hwhole : ∀ c ∈ whole, c.isDigit = true)
    (hfraction : ∀ c ∈ fraction, c.isDigit = true) :
    decimalValue (whole ++ '.' :: fraction) =
      naturalValue (whole ++ fraction) / 10 ^ fraction.length := by
  have hwhole' := ne_point_of_isDigit hwhole
  have hfraction' := ne_point_of_isDigit hfraction
  rw [decimalValue, List.filter_append, List.filter_eq_self.mpr hwhole',
    List.filter_cons_of_neg (by decide), List.filter_eq_self.mpr hfraction',
    List.dropWhile_append_of_pos hwhole', List.dropWhile_cons_of_neg (by decide), List.tail_cons]

end Text

namespace Decimal

variable {d : Decimal}

theorem isDigit_of_mem_zeros {count : Nat} {c : Char} (h : c ∈ zeros count) :
    c.isDigit = true := by
  rw [List.eq_of_mem_replicate h]
  rfl

theorem isDigit_of_mem_toDigits {n : Nat} {c : Char} (h : c ∈ Nat.toDigits 10 n) :
    c.isDigit = true :=
  (Text.isNumeral_toDigits n).isDigit c h

/-- Digits with zeros before them, so many that one of them comes before the point. -/
def padded (digits places : Nat) : List Char :=
  zeros (places + 1 - (Nat.toDigits 10 digits).length) ++ Nat.toDigits 10 digits

theorem isDigit_of_mem_padded {digits places : Nat} {c : Char} (h : c ∈ padded digits places) :
    c.isDigit = true := by
  rcases List.mem_append.mp h with h | h
  · exact isDigit_of_mem_zeros h
  · exact isDigit_of_mem_toDigits h

theorem lt_length_padded (digits places : Nat) : places < (padded digits places).length := by
  rw [padded, List.length_append, zeros, List.length_replicate]
  omega

def BeginsWithDigit (cs : List Char) : Prop := ∃ c rest, cs = c :: rest ∧ c.isDigit = true

theorem beginsWithDigit_append {digits : List Char} (hne : digits ≠ [])
    (h : ∀ c ∈ digits, c.isDigit = true) (rest : List Char) : BeginsWithDigit (digits ++ rest) := by
  cases digits with
  | nil => exact absurd rfl hne
  | cons c digits => exact ⟨c, digits ++ rest, rfl, h c List.mem_cons_self⟩

theorem positional_ofNat (digits n : Nat) :
    positional ⟨digits, .ofNat n⟩ = String.ofList (Nat.toDigits 10 digits ++ zeros n) := rfl

theorem positional_negSucc (digits n : Nat) :
    positional ⟨digits, .negSucc n⟩ =
      String.ofList
        ((padded digits (n + 1)).take ((padded digits (n + 1)).length - (n + 1)) ++
          '.' :: (padded digits (n + 1)).drop ((padded digits (n + 1)).length - (n + 1))) := rfl

theorem beginsWithDigit_positional (d : Decimal) : BeginsWithDigit d.positional.toList := by
  rcases d with ⟨digits, n | n⟩
  · rw [positional_ofNat, String.toList_ofList]
    exact beginsWithDigit_append Nat.toDigits_ne_nil (fun c => isDigit_of_mem_toDigits) _
  · rw [positional_negSucc, String.toList_ofList]
    apply beginsWithDigit_append
    · have hlength := lt_length_padded digits (n + 1)
      apply List.ne_nil_of_length_pos
      rw [List.length_take]
      omega
    · intro c hc
      exact isDigit_of_mem_padded (List.mem_of_mem_take hc)

theorem decimalValue_positional (d : Decimal) :
    Text.decimalValue d.positional.toList = d.value := by
  rcases d with ⟨digits, n | n⟩
  · have hisDigit : ∀ c ∈ Nat.toDigits 10 digits ++ zeros n, c.isDigit = true := by
      intro c hc
      rcases List.mem_append.mp hc with hc | hc
      · exact isDigit_of_mem_toDigits hc
      · exact isDigit_of_mem_zeros hc
    rw [positional_ofNat, String.toList_ofList, Text.decimalValue_digits hisDigit,
      Text.naturalValue_append_zeros, Text.naturalValue_toDigits, value]
    push_cast
    rfl
  · have hlength := lt_length_padded digits (n + 1)
    have hplaces : ((padded digits (n + 1)).drop
        ((padded digits (n + 1)).length - (n + 1))).length = n + 1 := by
      rw [List.length_drop]
      omega
    have hvalue : Text.naturalValue (padded digits (n + 1)) = digits := by
      rw [padded, Text.naturalValue_zeros_append, Text.naturalValue_toDigits]
    rw [positional_negSucc, String.toList_ofList,
      Text.decimalValue_point (fun c hc => isDigit_of_mem_padded (List.mem_of_mem_take hc))
        fun c hc => isDigit_of_mem_padded (List.mem_of_mem_drop hc),
      List.take_append_drop, hplaces, hvalue, value, zpow_negSucc, div_eq_mul_inv]

end Decimal

namespace Double

open Decimal (BeginsWithDigit)

variable {x y : Double}

def magnitudeText (x : Double) : String :=
  if x.isInfinite then "Infinity" else if x.isZero then "0" else x.shortest.positional

/-- The sign in the text of a number. Neither zero has one. -/
def signText (x : Double) : List Char :=
  if x.isNegative ∧ x.place ≠ 0 then ['-'] else []

theorem place_of_isInfinite (h : x.isInfinite = true) : x.place = 2047 * 2 ^ 52 := by
  rw [isInfinite, Bool.and_eq_true, beq_iff_eq, beq_iff_eq, exponentField_eq,
    fractionField_eq] at h
  omega

theorem place_of_isNaN (h : x.isNaN = true) : x.place ≠ 0 := by
  rw [isNaN, Bool.and_eq_true, beq_iff_eq, exponentField_eq] at h
  omega

theorem toList_text (h : x.isNaN = false) :
    x.text.toList = x.signText ++ x.magnitudeText.toList := by
  rw [text, if_neg (by rw [h]; exact Bool.false_ne_true), signText, magnitudeText]
  cases hinfinite : x.isInfinite with
  | true =>
      have hplace : x.place ≠ 0 := by
        rw [place_of_isInfinite hinfinite]
        decide
      cases x.isNegative <;> simp [hplace]
  | false =>
      cases hzero : x.isZero with
      | true => simp [isZero_iff.mp hzero]
      | false =>
          have hplace : x.place ≠ 0 := by
            intro hplace
            rw [isZero_iff.mpr hplace] at hzero
            cases hzero
          cases x.isNegative <;> simp [hplace]

/-!
## Magnitudes
-/

theorem beginsWithDigit_magnitudeText (h : x.isInfinite = false) :
    BeginsWithDigit x.magnitudeText.toList := by
  rw [magnitudeText, if_neg (by rw [h]; exact Bool.false_ne_true)]
  split
  · exact ⟨'0', [], rfl, rfl⟩
  · exact Decimal.beginsWithDigit_positional _

theorem magnitudeText_of_isInfinite (h : x.isInfinite = true) : x.magnitudeText = "Infinity" := by
  rw [magnitudeText, if_pos h]

theorem roundsTo_zero : RoundsTo 0 0 where
  low_le := by simp [lowAt, significandAt]
  le_midpoint := by simp
  even _ := rfl

/-- What the text of a magnitude says rounds to it. -/
theorem roundsTo_magnitudeText (h : x.isInfinite = false) :
    RoundsTo (unit * Text.decimalValue x.magnitudeText.toList) x.place := by
  rw [magnitudeText, if_neg (by rw [h]; exact Bool.false_ne_true)]
  by_cases hplace : x.place = 0
  · have hvalue : Text.decimalValue "0".toList = 0 := by
      rw [Text.decimalValue_digits (by simp)]
      rfl
    rw [if_pos (isZero_iff.mpr hplace), hvalue, hplace, mul_zero]
    exact roundsTo_zero
  · rw [if_neg (mt isZero_iff.mp hplace), Decimal.decimalValue_positional]
    exact roundsTo_shortest hplace

theorem place_eq_of_magnitudeText (h : x.magnitudeText = y.magnitudeText) : x.place = y.place := by
  have hinfinity : ¬ BeginsWithDigit "Infinity".toList := by
    rintro ⟨c, rest, hcons, hdigit⟩
    rcases List.cons_eq_cons.mp hcons with ⟨rfl, -⟩
    cases hdigit
  cases hx : x.isInfinite with
  | true =>
      cases hy : y.isInfinite with
      | true => rw [place_of_isInfinite hx, place_of_isInfinite hy]
      | false =>
          have hdigit := beginsWithDigit_magnitudeText hy
          rw [← h, magnitudeText_of_isInfinite hx] at hdigit
          exact absurd hdigit hinfinity
  | false =>
      cases hy : y.isInfinite with
      | true =>
          have hdigit := beginsWithDigit_magnitudeText hx
          rw [h, magnitudeText_of_isInfinite hy] at hdigit
          exact absurd hdigit hinfinity
      | false =>
          have hround := roundsTo_magnitudeText hx
          rw [h] at hround
          exact hround.unique (roundsTo_magnitudeText hy)

/-!
## Signs
-/

theorem head_magnitudeText (x : Double) :
    ∃ c rest, x.magnitudeText.toList = c :: rest ∧ c ≠ '-' ∧ c ≠ 'N' := by
  cases h : x.isInfinite with
  | true =>
      rw [magnitudeText_of_isInfinite h]
      exact ⟨'I', "nfinity".toList, rfl, by decide, by decide⟩
  | false =>
      rcases beginsWithDigit_magnitudeText h with ⟨c, rest, hcons, hdigit⟩
      refine ⟨c, rest, hcons, ?_, ?_⟩
      · rintro rfl
        cases hdigit
      · rintro rfl
        cases hdigit

theorem signText_cases (x : Double) : x.signText = [] ∨ x.signText = ['-'] := by
  unfold signText
  split
  · exact Or.inr rfl
  · exact Or.inl rfl

theorem text_ne_of_not_isNaN (h : x.isNaN = false) : x.text ≠ "NaN" := by
  intro htext
  have hchars := congrArg String.toList htext
  rcases x.head_magnitudeText with ⟨c, rest, hcons, -, hne⟩
  rw [toList_text h, hcons] at hchars
  rcases x.signText_cases with hsign | hsign
  · rw [hsign] at hchars
    exact hne (List.cons_eq_cons.mp hchars).1
  · rw [hsign] at hchars
    cases (List.cons_eq_cons.mp hchars).1

theorem split_signText (h : x.signText ++ x.magnitudeText.toList =
    y.signText ++ y.magnitudeText.toList) :
    x.signText = y.signText ∧ x.magnitudeText = y.magnitudeText := by
  rcases x.head_magnitudeText with ⟨c, rest, hx, hc, -⟩
  rcases y.head_magnitudeText with ⟨d, rest', hy, hd, -⟩
  rw [← String.toList_inj]
  rcases x.signText_cases with hxsign | hxsign <;> rcases y.signText_cases with hysign | hysign <;>
    rw [hxsign, hysign] at h ⊢
  · exact ⟨rfl, h⟩
  · rw [hx] at h
    exact absurd (List.cons_eq_cons.mp h).1 hc
  · rw [hy] at h
    exact absurd (List.cons_eq_cons.mp h).1.symm hd
  · exact ⟨rfl, List.append_cancel_left h⟩

/-!
## Texts
-/

theorem equal_of_text_eq (hx : x.isNaN = false) (hy : y.isNaN = false) (h : x.text = y.text) :
    x.equal y = true := by
  have hchars := congrArg String.toList h
  rw [toList_text hx, toList_text hy] at hchars
  rcases split_signText hchars with ⟨hsign, hmagnitude⟩
  have hplace := place_eq_of_magnitudeText hmagnitude
  by_cases hzero : x.place = 0
  · simp [equal, hx, hy, isZero_iff.mpr hzero, isZero_iff.mpr (hplace ▸ hzero)]
  · have hnegative : x.isNegative = y.isNegative := by
      rw [signText, signText, ← hplace] at hsign
      cases hxneg : x.isNegative <;> cases hyneg : y.isNegative <;> simp_all
    obtain rfl := eq_of_place_eq hnegative hplace
    simp [equal, hx]

theorem text_of_isNaN (h : x.isNaN = true) : x.text = "NaN" := by
  rw [text, if_pos h]

theorem text_of_isZero (h : x.isZero = true) : x.text = "0" := by
  have hplace := isZero_iff.mp h
  have hnan : ¬ x.isNaN = true := fun hnan => place_of_isNaN hnan hplace
  have hinfinite : ¬ x.isInfinite = true := by
    intro hinfinite
    rw [place_of_isInfinite hinfinite] at hplace
    cases hplace
  rw [text, if_neg hnan, if_neg hinfinite, if_pos h]

theorem text_eq_of_equal (h : x.equal y = true) : x.text = y.text := by
  simp only [equal, Bool.and_eq_true, Bool.or_eq_true, beq_iff_eq] at h
  rcases h.2 with hbits | ⟨hx, hy⟩
  · obtain rfl : x = y := by
      cases x
      cases y
      exact congrArg Double.mk hbits
    rfl
  · rw [text_of_isZero hx, text_of_isZero hy]

/-- Two numbers have the same text if and only if they are equal as numbers, or neither of them
is one. -/
theorem text_eq_iff :
    x.text = y.text ↔ x.equal y = true ∨ x.isNaN = true ∧ y.isNaN = true := by
  constructor
  · intro h
    cases hx : x.isNaN with
    | true =>
        right
        cases hy : y.isNaN with
        | true => exact ⟨rfl, rfl⟩
        | false => exact absurd (h.symm.trans (text_of_isNaN hx)) (text_ne_of_not_isNaN hy)
    | false =>
        left
        cases hy : y.isNaN with
        | true => exact absurd (h.trans (text_of_isNaN hy)) (text_ne_of_not_isNaN hx)
        | false => exact equal_of_text_eq hx hy h
  · intro h
    rcases h with hequal | ⟨hx, hy⟩
    · exact text_eq_of_equal hequal
    · rw [text_of_isNaN hx, text_of_isNaN hy]

end Double

end StaticSite
