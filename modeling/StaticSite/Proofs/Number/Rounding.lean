import Mathlib.Algebra.Order.Field.Basic
import Mathlib.Algebra.Order.Ring.Rat
import Mathlib.Order.Monotone.Basic
import Mathlib.Tactic.FieldSimp
import Mathlib.Tactic.Positivity
import Mathlib.Tactic.Ring
import StaticSite.Number.Shortest
/-!
# Decimals that round to a number

Magnitudes are ordered as the patterns of their bits are, so each has a place in the order, and a
midpoint lies between it and the next one. What lies between two midpoints next to each other
rounds to the magnitude between them, and a midpoint itself to the one at an even place. So
everything rounds to one magnitude at most (`RoundsTo.unique`). The shortest decimal rounds to
the number that it is made for (`roundsTo_shortest`).
-/

namespace StaticSite

def Decimal.value (d : Decimal) : ℚ := d.digits * 10 ^ d.exponent

namespace Double

variable {x : Double} {n : Nat}

/-- The place of a magnitude in the order of all magnitudes. -/
def place (x : Double) : Nat := x.word % 2 ^ 63

/-- The significand of the magnitude at a place. -/
def significandAt (n : Nat) : Nat :=
  if n / 2 ^ 52 = 0 then n % 2 ^ 52 else 2 ^ 52 + n % 2 ^ 52

/-- The midpoint after the magnitude at a place, in quarters of the smallest unit. -/
def midpoint (n : Nat) : Nat := (4 * significandAt n + 2) * 2 ^ (n / 2 ^ 52 - 1)

/-- The point below the magnitude at a place from which on numbers round to it. -/
def lowAt (n : Nat) : Nat :=
  (4 * significandAt n - if n % 2 ^ 52 = 0 ∧ 1 < n / 2 ^ 52 then 1 else 2) *
    2 ^ (n / 2 ^ 52 - 1)

/-- Whether so many quarters of the smallest unit round to the magnitude at a place. -/
structure RoundsTo (q : ℚ) (n : Nat) : Prop where
  low_le : lowAt n ≤ q
  le_midpoint : q ≤ midpoint n
  even : q = lowAt n ∨ q = midpoint n → n % 2 = 0

/-!
## Midpoints
-/

theorem significandAt_mod_two (n : Nat) : significandAt n % 2 = n % 2 := by
  unfold significandAt
  split <;> omega

/-- What rounds to a magnitude begins where what rounds to the one before it ends. -/
theorem lowAt_succ (n : Nat) : lowAt (n + 1) = midpoint n := by
  unfold lowAt midpoint
  by_cases hlast : n % 2 ^ 52 + 1 = 2 ^ 52
  · have hdiv : (n + 1) / 2 ^ 52 = n / 2 ^ 52 + 1 := by omega
    have hmod : (n + 1) % 2 ^ 52 = 0 := by omega
    have hfraction : n % 2 ^ 52 = 2 ^ 52 - 1 := by omega
    unfold significandAt
    rw [hdiv, hmod, hfraction, if_neg (Nat.succ_ne_zero _), Nat.add_sub_cancel]
    cases n / 2 ^ 52 with
    | zero => simp
    | succ e =>
        -- The distance halves here, and so does the gap below the midpoint.
        rw [if_pos ⟨rfl, by omega⟩, if_neg (Nat.succ_ne_zero e), Nat.add_sub_cancel, pow_succ]
        omega
  · have hdiv : (n + 1) / 2 ^ 52 = n / 2 ^ 52 := by omega
    have hmod : (n + 1) % 2 ^ 52 = n % 2 ^ 52 + 1 := by omega
    have hsignificand : significandAt (n + 1) = significandAt n + 1 := by
      unfold significandAt
      rw [hdiv, hmod]
      split <;> omega
    rw [hdiv, hmod, hsignificand, if_neg fun h => Nat.succ_ne_zero _ h.1]
    congr 1

theorem lowAt_lt_midpoint (n : Nat) : lowAt n < midpoint n := by
  unfold lowAt midpoint
  apply Nat.mul_lt_mul_of_pos_right
  · omega
  · exact Nat.two_pow_pos _

theorem strictMono_midpoint : StrictMono midpoint := by
  apply strictMono_nat_of_lt_succ
  intro n
  rw [← lowAt_succ]
  exact lowAt_lt_midpoint (n + 1)

theorem RoundsTo.not_lt {q : ℚ} {m : Nat} (hm : RoundsTo q m) (hn : RoundsTo q n) : ¬ m < n := by
  intro hlt
  obtain ⟨k, rfl⟩ : ∃ k, n = k + 1 := ⟨n - 1, by omega⟩
  have hlow := hn.low_le
  have heven := hn.even
  rw [lowAt_succ] at hlow heven
  have hle : midpoint m ≤ midpoint k := strictMono_midpoint.monotone (Nat.le_of_lt_succ hlt)
  have hle' : (midpoint m : ℚ) ≤ midpoint k := Nat.cast_le.mpr hle
  have hq : q = midpoint m := le_antisymm hm.le_midpoint (hle'.trans hlow)
  have hq' : q = midpoint k := le_antisymm (hm.le_midpoint.trans hle') hlow
  have hsame : m = k := strictMono_midpoint.injective (Nat.cast_injective (hq.symm.trans hq'))
  have hmeven := hm.even (Or.inr hq)
  have hneven := heven (Or.inl hq')
  omega

/-- Nothing rounds to two magnitudes. -/
theorem RoundsTo.unique {q : ℚ} {m : Nat} (hm : RoundsTo q m) (hn : RoundsTo q n) : m = n :=
  Nat.le_antisymm (Nat.le_of_not_lt (hn.not_lt hm)) (Nat.le_of_not_lt (hm.not_lt hn))

/-!
## The fields of a number
-/

theorem exponentField_eq (x : Double) : x.exponentField = x.place / 2 ^ 52 := by
  rw [exponentField, place, Nat.pow_eq]
  omega

theorem fractionField_eq (x : Double) : x.fractionField = x.place % 2 ^ 52 := by
  rw [fractionField, place, Nat.pow_eq]
  omega

theorem significand_eq (x : Double) : x.significand = significandAt x.place := by
  rw [significand, exponentField_eq, fractionField_eq, significandAt, Nat.pow_eq]

theorem shift_eq (x : Double) : x.shift = x.place / 2 ^ 52 - 1 := by
  rw [shift, exponentField_eq]

theorem isZero_iff : x.isZero = true ↔ x.place = 0 := by
  rw [isZero, beq_iff_eq, Nat.pow_eq, place]

theorem eq_of_place_eq {y : Double} (hsign : x.isNegative = y.isNegative)
    (hplace : x.place = y.place) : x = y := by
  have hx := x.bits.toNat_lt
  have hy := y.bits.toNat_lt
  rw [isNegative, isNegative, decide_eq_decide, Nat.pow_eq] at hsign
  have hword : x.word = y.word := by
    unfold place at hplace
    unfold word at hsign hplace ⊢
    omega
  cases x
  cases y
  exact congrArg Double.mk (UInt64.toNat_inj.mp hword)

/-!
## Reading back
-/

/-- How many quarters of the smallest unit there are in a one. -/
def unit : Nat := 4 * Nat.pow 2 1074

theorem zpow_eq_div (k : Int) : (10 : ℚ) ^ k = 10 ^ k.toNat / 10 ^ (-k).toNat := by
  cases k with
  | ofNat n => simp
  | negSucc n => simp [zpow_negSucc]

theorem gridStep_eq (k : Int) : gridStep k = unit * 10 ^ k.toNat := by
  unfold gridStep unit
  generalize Nat.pow 2 1074 = power
  rfl

theorem unit_mul_eq_div (count : Nat) (k : Int) :
    (unit : ℚ) * (count * 10 ^ k) = (count * gridStep k : Nat) / (10 ^ (-k).toNat : Nat) := by
  rw [zpow_eq_div, gridStep_eq]
  push_cast
  ring

theorem roundsTo_div_iff {point denominator : Nat} (hpos : 0 < denominator) :
    RoundsTo ((point : ℚ) / denominator) n ↔
      lowAt n * denominator ≤ point ∧ point ≤ midpoint n * denominator ∧
        (point = lowAt n * denominator ∨ point = midpoint n * denominator → n % 2 = 0) := by
  have hpos' : (0 : ℚ) < denominator := Nat.cast_pos.mpr hpos
  have hlow : (lowAt n : ℚ) ≤ point / denominator ↔ lowAt n * denominator ≤ point := by
    rw [le_div_iff₀ hpos']
    exact_mod_cast Iff.rfl
  have hhigh : (point : ℚ) / denominator ≤ midpoint n ↔ point ≤ midpoint n * denominator := by
    rw [div_le_iff₀ hpos']
    exact_mod_cast Iff.rfl
  have heq : ∀ bound : Nat, (point : ℚ) / denominator = bound ↔ point = bound * denominator := by
    intro bound
    rw [div_eq_iff hpos'.ne']
    exact_mod_cast Iff.rfl
  constructor
  · intro h
    refine ⟨hlow.mp h.low_le, hhigh.mp h.le_midpoint, ?_⟩
    rw [← heq, ← heq]
    exact h.even
  · intro h
    refine ⟨hlow.mpr h.1, hhigh.mpr h.2.1, ?_⟩
    rw [heq, heq]
    exact h.2.2

theorem scaled_low (x : Double) (k : Int) :
    x.scaled (4 * x.significand - if x.isNarrowBelow then 1 else 2) k =
      lowAt x.place * 10 ^ (-k).toNat := by
  rw [scaled, shift_eq, significand_eq, isNarrowBelow, fractionField_eq, exponentField_eq, lowAt,
    Nat.pow_eq, Nat.pow_eq]
  simp only [Bool.and_eq_true, beq_iff_eq, decide_eq_true_eq]

theorem scaled_high (x : Double) (k : Int) :
    x.scaled (4 * x.significand + 2) k = midpoint x.place * 10 ^ (-k).toNat := by
  rw [scaled, shift_eq, significand_eq, midpoint, Nat.pow_eq, Nat.pow_eq]

theorem readsBack_iff (x : Double) (count : Nat) (k : Int) :
    x.readsBack count k = true ↔ RoundsTo (unit * (count * 10 ^ k)) x.place := by
  rw [unit_mul_eq_div, roundsTo_div_iff (Nat.pow_pos (by decide)), readsBack, scaled_low,
    scaled_high, significand_eq, significandAt_mod_two]
  generalize lowAt x.place * 10 ^ (-k).toNat = low
  generalize midpoint x.place * 10 ^ (-k).toNat = high
  generalize count * gridStep k = point
  split
  · next heven => simp [heven]
  · next hodd =>
      simp only [hodd, Bool.and_eq_true, decide_eq_true_eq, imp_false, not_or]
      omega

/-!
## The shortest decimal
-/

theorem significand_pos (h : x.place ≠ 0) : 0 < x.significand := by
  rw [significand_eq, significandAt]
  split <;> omega

theorem scaled_lt_scaled (x : Double) {a b : Nat} (h : a < b) (k : Int) :
    x.scaled a k < x.scaled b k := by
  unfold scaled
  apply Nat.mul_lt_mul_of_pos_right
  · exact Nat.mul_lt_mul_of_pos_right h (Nat.pow_pos (by decide))
  · exact Nat.pow_pos (by decide)

theorem readsBack_of_dvd (h : x.place ≠ 0) {k : Int}
    (hdvd : gridStep k ∣ x.scaled (4 * x.significand) k) :
    x.readsBack (x.scaled (4 * x.significand) k / gridStep k) k = true := by
  have hpos := significand_pos h
  have hlow := x.scaled_lt_scaled
    (show 4 * x.significand - (if x.isNarrowBelow then 1 else 2) < 4 * x.significand by
      split <;> omega) k
  have hhigh := x.scaled_lt_scaled (show 4 * x.significand < 4 * x.significand + 2 by omega) k
  rw [readsBack, Nat.div_mul_cancel hdvd]
  simp only [hlow, hhigh, Nat.le_of_lt hlow, Nat.le_of_lt hhigh, decide_true, Bool.and_self,
    ite_self]

theorem gridStep_dvd (x : Double) : gridStep (-1074) ∣ x.scaled (4 * x.significand) (-1074) := by
  have hdown : (-1074 : Int).toNat = 0 := rfl
  have hup : (- -1074 : Int).toNat = 1074 := rfl
  simp only [gridStep, scaled, hdown, hup, Nat.pow_eq]
  generalize (1074 : Nat) = n
  have hten : (10 : Nat) ^ n = 2 ^ n * 5 ^ n := Nat.mul_pow 2 5 n
  rw [hten]
  exact ⟨x.significand * 2 ^ x.shift * 5 ^ n, by ring⟩

theorem readsBack_of_onGrid? {k : Int} {count : Nat} (h : x.onGrid? k = some count) :
    x.readsBack count k = true := by
  unfold onGrid? at h
  dsimp only at h
  split at h
  · next hbelow habove =>
      rw [← Option.some.inj h]
      split
      · exact hbelow
      · exact habove
  · next hbelow _ =>
      rw [← Option.some.inj h]
      exact hbelow
  · next _ habove =>
      rw [← Option.some.inj h]
      exact habove
  · cases h

theorem isSome_onGrid? {k : Int}
    (h : x.readsBack (x.scaled (4 * x.significand) k / gridStep k) k = true) :
    (x.onGrid? k).isSome = true := by
  rw [onGrid?, h]
  cases x.readsBack (x.scaled (4 * x.significand) k / gridStep k + 1) k <;> rfl

/-- The shortest decimal of a number that is not zero rounds to it. -/
theorem roundsTo_shortest (h : x.place ≠ 0) : RoundsTo (unit * x.shortest.value) x.place := by
  have hsome : (gridExponents.findSome? fun k =>
      (x.onGrid? k).map fun digits => (⟨digits, k⟩ : Decimal)).isSome = true := by
    rw [List.findSome?_isSome_iff]
    refine ⟨-1074, List.mem_map.mpr ⟨1382, List.mem_range.mpr (by decide), rfl⟩, ?_⟩
    rw [Option.isSome_map]
    exact isSome_onGrid? (readsBack_of_dvd h x.gridStep_dvd)
  rcases Option.isSome_iff_exists.mp hsome with ⟨d, hd⟩
  rcases List.exists_of_findSome?_eq_some hd with ⟨k, -, hk⟩
  rcases Option.map_eq_some_iff.mp hk with ⟨digits, hdigits, rfl⟩
  rw [shortest, hd, Option.getD_some]
  exact (readsBack_iff x digits k).mp (readsBack_of_onGrid? hdigits)

end Double

end StaticSite
