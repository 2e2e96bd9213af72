import Mathlib.Data.List.DropRight
import StaticSite.Json.Reader
import StaticSite.Proofs.Text.Numerals
/-!
# Tokens of JSON texts

How numbers and strings are written, as grammars beside the reader. What is read as a token is
written by its grammar (`Json.Number.exists_of_read`, `Json.Quoted.exists_of_readRest`). What is
written by a grammar is read without looking at what comes after it, but for the end of a
number, which goes on for as long as its characters do (`Json.Number.IsSpelled.read`,
`Json.Quoted.AreSpelled.read`).
-/

namespace StaticSite.Json

open Text (IsNumeral)

/-!
## Blanks
-/

theorem skipBlanks_cons {c : Char} (h : isBlank c = true) (cs : List Char) :
    skipBlanks (c :: cs) = skipBlanks cs :=
  List.dropWhile_cons_of_pos h

theorem skipBlanks_append {blanks : List Char} (h : ∀ c ∈ blanks, isBlank c = true)
    (cs : List Char) : skipBlanks (blanks ++ cs) = skipBlanks cs := by
  induction blanks with
  | nil => rfl
  | cons c blanks ih =>
      rw [List.forall_mem_cons] at h
      rw [List.cons_append, skipBlanks_cons h.1, ih h.2]

theorem skipBlanks_of_not_isBlank {c : Char} (h : isBlank c = false) (cs : List Char) :
    skipBlanks (c :: cs) = c :: cs :=
  List.dropWhile_cons_of_neg (by simp [h])

theorem exists_blanks (cs : List Char) :
    ∃ blanks : List Char, (∀ c ∈ blanks, isBlank c = true) ∧ cs = blanks ++ skipBlanks cs :=
  ⟨cs.takeWhile isBlank, fun _ hc => List.mem_takeWhile_imp hc,
    List.takeWhile_append_dropWhile.symm⟩

theorem skipBlanks_skipBlanks (cs : List Char) : skipBlanks (skipBlanks cs) = skipBlanks cs :=
  List.dropWhile_idempotent isBlank cs

def NotAhead (p : Char → Bool) (cs : List Char) : Prop := ∀ c ∈ cs.head?, p c = false

theorem notAhead_nil (p : Char → Bool) : NotAhead p [] := by
  intro c hc
  cases hc

theorem notAhead_cons {p : Char → Bool} {c : Char} {cs : List Char} :
    NotAhead p (c :: cs) ↔ p c = false := by
  simp [NotAhead]

theorem NotAhead.mono {p q : Char → Bool} {cs : List Char} (h : NotAhead p cs)
    (hpq : ∀ c, p c = false → q c = false) : NotAhead q cs :=
  fun c hc => hpq c (h c hc)

/-!
## Numbers
-/

/-- Whether a character goes on with the digits of a number or with its fraction. -/
def isFractional (c : Char) : Bool := c.isDigit || c == '.'

/-- Whether a character goes on with a number. -/
def isNumeric (c : Char) : Bool := isFractional c || c == 'e' || c == 'E'

structure AreDigits (digits : List Char) : Prop where
  ne_nil : digits ≠ []
  isDigit : ∀ c ∈ digits, c.isDigit = true

theorem AreDigits.exists_cons {digits : List Char} (h : AreDigits digits) :
    ∃ d later, digits = d :: later ∧ d.isDigit = true := by
  rcases List.exists_cons_of_ne_nil h.ne_nil with ⟨d, later, rfl⟩
  exact ⟨d, later, rfl, h.isDigit d List.mem_cons_self⟩

theorem of_spanDigits {cs digits rest : List Char} (h : spanDigits cs = (digits, rest)) :
    cs = digits ++ rest ∧ ∀ c ∈ digits, c.isDigit = true := by
  rcases Prod.mk.inj h with ⟨rfl, rfl⟩
  exact ⟨List.takeWhile_append_dropWhile.symm, fun _ hc => List.mem_takeWhile_imp hc⟩

theorem spanDigits_append {digits more : List Char} (h : ∀ c ∈ digits, c.isDigit = true)
    (hmore : NotAhead Char.isDigit more) : spanDigits (digits ++ more) = (digits, more) := by
  have hnone : more.takeWhile Char.isDigit = [] ∧ more.dropWhile Char.isDigit = more := by
    cases more with
    | nil => exact ⟨rfl, rfl⟩
    | cons c more =>
        have hc : c.isDigit = false := notAhead_cons.mp hmore
        simp [hc]
  rw [spanDigits, List.takeWhile_append_of_pos h, List.dropWhile_append_of_pos h, hnone.1,
    hnone.2, List.append_nil]

namespace Number

variable {cs rest used more : List Char} {fraction digits : List Char} {exponent : Option Int}
  {isNegative : Bool} {n : Number}

/-!
### Fractions
-/

/-- How the digits after the point are written, if there are any. -/
inductive IsFraction : List Char → List Char → Prop where
  | none : IsFraction [] []
  | point {digits : List Char} (h : AreDigits digits) : IsFraction digits ('.' :: digits)

theorem exists_of_readFraction (h : readFraction cs = some (fraction, rest)) :
    ∃ used, cs = used ++ rest ∧ IsFraction fraction used := by
  unfold readFraction at h
  split at h
  · split at h
    · cases h
    · next hne hspan =>
        cases h
        rcases of_spanDigits hspan with ⟨rfl, hdigits⟩
        refine ⟨'.' :: fraction, rfl, .point ⟨?_, hdigits⟩⟩
        rintro rfl
        exact hne rfl
  · cases h
    exact ⟨[], rfl, .none⟩

theorem readFraction_of_notAhead (h : NotAhead isFractional cs) :
    readFraction cs = some ([], cs) := by
  unfold readFraction
  split
  · exact absurd (notAhead_cons.mp h) (by decide)
  · rfl

theorem IsFraction.read (h : IsFraction fraction used) (hmore : NotAhead isFractional more) :
    NotAhead Char.isDigit (used ++ more) ∧ readFraction (used ++ more) = some (fraction, more) := by
  have hnext : NotAhead Char.isDigit more :=
    hmore.mono fun c hc => (Bool.or_eq_false_iff.mp hc).1
  cases h with
  | none => exact ⟨hnext, readFraction_of_notAhead hmore⟩
  | point hdigits =>
      refine ⟨notAhead_cons.mpr (by decide), ?_⟩
      rw [List.cons_append, readFraction, spanDigits_append hdigits.isDigit hnext]
      rcases hdigits.exists_cons with ⟨d, later, rfl, -⟩
      rfl

/-!
### Exponents
-/

inductive IsExponent : Option Int → List Char → Prop where
  | none : IsExponent none []
  | unsigned {c : Char} {digits : List Char} (hc : c = 'e' ∨ c = 'E') (h : AreDigits digits) :
      IsExponent (some (Text.naturalValue digits)) (c :: digits)
  | plus {c : Char} {digits : List Char} (hc : c = 'e' ∨ c = 'E') (h : AreDigits digits) :
      IsExponent (some (Text.naturalValue digits)) (c :: '+' :: digits)
  | minus {c : Char} {digits : List Char} (hc : c = 'e' ∨ c = 'E') (h : AreDigits digits) :
      IsExponent (some (-(Text.naturalValue digits : Int))) (c :: '-' :: digits)

def signed (isNegative : Bool) (n : Nat) : Int := if isNegative then -n else n

theorem exists_of_readExponentDigits
    (h : readExponentDigits isNegative cs = some (exponent, rest)) :
    ∃ digits, cs = digits ++ rest ∧ AreDigits digits ∧
      exponent = some (signed isNegative (Text.naturalValue digits)) := by
  unfold readExponentDigits at h
  split at h
  · cases h
  · next digits _ hne hspan =>
      cases h
      rcases of_spanDigits hspan with ⟨rfl, hdigits⟩
      refine ⟨digits, rfl, ⟨?_, hdigits⟩, rfl⟩
      rintro rfl
      exact hne rfl

theorem readExponentDigits_append (h : AreDigits digits) (hmore : NotAhead Char.isDigit more)
    (isNegative : Bool) :
    readExponentDigits isNegative (digits ++ more) =
      some (some (signed isNegative (Text.naturalValue digits)), more) := by
  rw [readExponentDigits, spanDigits_append h.isDigit hmore]
  rcases h.exists_cons with ⟨d, later, rfl, -⟩
  rfl

theorem exists_of_readExponent (h : readExponent cs = some (exponent, rest)) :
    ∃ used, cs = used ++ rest ∧ IsExponent exponent used := by
  unfold readExponent at h
  split at h
  · next c cs =>
      by_cases hc : c = 'e' ∨ c = 'E'
      · rw [if_pos hc] at h
        split at h
        · rcases exists_of_readExponentDigits h with ⟨digits, rfl, hdigits, rfl⟩
          exact ⟨c :: '+' :: digits, rfl, .plus hc hdigits⟩
        · rcases exists_of_readExponentDigits h with ⟨digits, rfl, hdigits, rfl⟩
          exact ⟨c :: '-' :: digits, rfl, .minus hc hdigits⟩
        · rcases exists_of_readExponentDigits h with ⟨digits, rfl, hdigits, rfl⟩
          exact ⟨c :: digits, rfl, .unsigned hc hdigits⟩
      · rw [if_neg hc] at h
        cases h
        exact ⟨[], rfl, .none⟩
  · cases h
    exact ⟨[], rfl, .none⟩

theorem readExponent_of_notAhead (h : NotAhead isNumeric cs) :
    readExponent cs = some (none, cs) := by
  cases cs with
  | nil => rfl
  | cons c cs =>
      have hc := notAhead_cons.mp h
      refine if_neg ?_
      rintro (rfl | rfl)
      · exact absurd hc (by decide)
      · exact absurd hc (by decide)

theorem readExponent_unsigned {c d : Char} (hc : c = 'e' ∨ c = 'E') (hd : d.isDigit = true)
    (cs : List Char) :
    readExponent (c :: d :: cs) = readExponentDigits false (d :: cs) := by
  refine (if_pos hc).trans ?_
  split
  · next heq =>
      rw [(List.cons.inj heq).1] at hd
      exact absurd hd (by decide)
  · next heq =>
      rw [(List.cons.inj heq).1] at hd
      exact absurd hd (by decide)
  · rfl

theorem IsExponent.read (h : IsExponent exponent used) (hmore : NotAhead isNumeric more) :
    NotAhead isFractional (used ++ more) ∧
      readExponent (used ++ more) = some (exponent, more) := by
  have hnext : NotAhead isFractional more := hmore.mono fun c hc =>
    (Bool.or_eq_false_iff.mp (Bool.or_eq_false_iff.mp hc).1).1
  have hdigit : NotAhead Char.isDigit more :=
    hnext.mono fun c hc => (Bool.or_eq_false_iff.mp hc).1
  have hletter : ∀ {c : Char} (later : List Char), c = 'e' ∨ c = 'E' →
      NotAhead isFractional (c :: later) := by
    intro c later hc
    rw [notAhead_cons]
    rcases hc with rfl | rfl
    · decide
    · decide
  cases h with
  | none => exact ⟨hnext, readExponent_of_notAhead hmore⟩
  | unsigned hc hdigits =>
      refine ⟨hletter _ hc, ?_⟩
      have hread := readExponentDigits_append hdigits hdigit false
      rcases hdigits.exists_cons with ⟨d, later, rfl, hd⟩
      exact (readExponent_unsigned hc hd (later ++ more)).trans hread
  | plus hc hdigits =>
      exact ⟨hletter _ hc, (if_pos hc).trans (readExponentDigits_append hdigits hdigit false)⟩
  | minus hc hdigits =>
      exact ⟨hletter _ hc, (if_pos hc).trans (readExponentDigits_append hdigits hdigit true)⟩

/-!
### Whole numbers
-/

/-- The number of a sign, the digits before and after the point, and an exponent. -/
def value? (isNegative : Bool) (whole fraction : List Char) (exponent : Option Int) :
    Option Number :=
  let (leading, dropped) := absorb 0 whole
  if fraction.isEmpty && exponent.isNone && dropped.isEmpty then
    some (ofDigits isNegative leading)
  else
    let (significand, ignored) := absorb leading fraction
    let places : Int := dropped.length - (fraction.length - ignored.length : Nat)
    ofParts isNegative significand (places + exponent.getD 0)

inductive IsUnsigned (isNegative : Bool) : Number → List Char → Prop where
  | parts {whole fraction written last : List Char} {exponent : Option Int} {m : Nat} {n : Number}
      (hwhole : IsNumeral whole m) (hfraction : IsFraction fraction written)
      (hexponent : IsExponent exponent last)
      (hvalue : value? isNegative whole fraction exponent = some n) :
      IsUnsigned isNegative n (whole ++ (written ++ last))

/-- How a number is written. -/
inductive IsSpelled : Number → List Char → Prop where
  | unsigned {n : Number} {cs : List Char} (h : IsUnsigned false n cs) : IsSpelled n cs
  | minus {n : Number} {cs : List Char} (h : IsUnsigned true n cs) : IsSpelled n ('-' :: cs)

/-- A number without its sign is read in three parts, one after the other. -/
theorem readUnsigned_eq (isNegative : Bool) (cs : List Char) :
    readUnsigned isNegative cs =
      if (spanDigits cs).1.isEmpty ||
        ((spanDigits cs).1.head? == some '0' && (spanDigits cs).1.length != 1) then none
      else
        (readFraction (spanDigits cs).2).bind fun (fraction, rest) =>
          (readExponent rest).bind fun (exponent, rest) =>
            (value? isNegative (spanDigits cs).1 fraction exponent).map (·, rest) := by
  rcases hspan : spanDigits cs with ⟨whole, afterWhole⟩
  simp only [readUnsigned, hspan, value?]
  split
  · rfl
  · cases readFraction afterWhole with
    | none => rfl
    | some found =>
        cases hexponent : readExponent found.2 with
        | none => simp [hexponent]
        | some last =>
            simp only [Option.bind_eq_bind, Option.bind_some, hexponent]
            split
            · rfl
            · exact (Option.map_eq_bind ..).symm

theorem exists_isNumeral_iff {whole : List Char} (h : ∀ c ∈ whole, c.isDigit = true) :
    (∃ m, IsNumeral whole m) ↔
      ¬ (whole.isEmpty || (whole.head? == some '0' && whole.length != 1)) = true := by
  rw [Bool.or_eq_true, Bool.and_eq_true, not_or, not_and, List.isEmpty_iff, beq_iff_eq,
    bne_iff_ne, not_not]
  constructor
  · intro hwhole
    rcases hwhole with ⟨m, hwhole⟩
    refine ⟨hwhole.ne_nil, fun hzero => ?_⟩
    rw [hwhole.leading hzero]
    rfl
  · intro hform
    rcases hform with ⟨hne, hlength⟩
    refine ⟨Text.naturalValue whole, hne, h, fun hzero => ?_, rfl⟩
    rcases List.length_eq_one_iff.mp (hlength hzero) with ⟨d, rfl⟩
    rw [List.head?_cons, Option.some_inj] at hzero
    rw [hzero]

theorem exists_of_readUnsigned (h : readUnsigned isNegative cs = some (n, rest)) :
    ∃ used, cs = used ++ rest ∧ IsUnsigned isNegative n used := by
  rcases hspan : spanDigits cs with ⟨whole, afterWhole⟩
  rcases of_spanDigits hspan with ⟨rfl, hdigits⟩
  rw [readUnsigned_eq, hspan] at h
  split at h
  · cases h
  · next hform =>
      rcases (exists_isNumeral_iff hdigits).mpr hform with ⟨m, hwhole⟩
      rcases Option.bind_eq_some_iff.mp h with ⟨⟨fraction, afterFraction⟩, hfraction, h⟩
      rcases Option.bind_eq_some_iff.mp h with ⟨⟨exponent, afterExponent⟩, hexponent, h⟩
      rcases Option.map_eq_some_iff.mp h with ⟨m, hvalue, hresult⟩
      cases hresult
      rcases exists_of_readFraction hfraction with ⟨written, rfl, hwritten⟩
      rcases exists_of_readExponent hexponent with ⟨last, rfl, hlast⟩
      refine ⟨whole ++ (written ++ last), ?_, .parts hwhole hwritten hlast hvalue⟩
      rw [List.append_assoc, List.append_assoc]

theorem IsUnsigned.read (h : IsUnsigned isNegative n used) (hmore : NotAhead isNumeric more) :
    readUnsigned isNegative (used ++ more) = some (n, more) := by
  cases h with
  | @parts whole fraction written last exponent m n hwhole hfraction hexponent hvalue =>
      rcases hexponent.read hmore with ⟨hahead, hlast⟩
      rcases hfraction.read hahead with ⟨hahead, hwritten⟩
      have hspan := spanDigits_append hwhole.isDigit hahead
      have hform := (exists_isNumeral_iff hwhole.isDigit).mp ⟨m, hwhole⟩
      rw [List.append_assoc, List.append_assoc, readUnsigned_eq, hspan, if_neg hform]
      simp only [hwritten, Option.bind_some, hlast, hvalue, Option.map_some]

theorem read_of_ne_minus {c : Char} (h : c ≠ '-') (cs : List Char) :
    read (c :: cs) = readUnsigned false (c :: cs) := by
  unfold read
  split
  · next heq => exact absurd (List.cons.inj heq).1 h
  · rfl

theorem exists_of_read (h : read cs = some (n, rest)) :
    ∃ used, cs = used ++ rest ∧ IsSpelled n used := by
  unfold read at h
  split at h
  · rcases exists_of_readUnsigned h with ⟨used, rfl, hused⟩
    exact ⟨'-' :: used, rfl, .minus hused⟩
  · rcases exists_of_readUnsigned h with ⟨used, rfl, hused⟩
    exact ⟨used, rfl, .unsigned hused⟩

theorem IsUnsigned.exists_cons (h : IsUnsigned isNegative n used) :
    ∃ d later, used = d :: later ∧ d.isDigit = true := by
  cases h with
  | parts hwhole _ _ _ =>
      rcases List.exists_cons_of_ne_nil hwhole.ne_nil with ⟨d, later, rfl⟩
      exact ⟨d, _, rfl, hwhole.isDigit d List.mem_cons_self⟩

theorem IsSpelled.exists_cons (h : IsSpelled n used) :
    ∃ c later, used = c :: later ∧ (c = '-' ∨ c.isDigit = true) := by
  cases h with
  | unsigned h =>
      rcases h.exists_cons with ⟨d, later, rfl, hd⟩
      exact ⟨d, later, rfl, Or.inr hd⟩
  | minus h => exact ⟨'-', _, rfl, Or.inl rfl⟩

/-- A number is read before any other text that does not go on with it. -/
theorem IsSpelled.read (h : IsSpelled n used) (hmore : NotAhead isNumeric more) :
    read (used ++ more) = some (n, more) := by
  cases h with
  | unsigned h =>
      have hread := h.read hmore
      rcases h.exists_cons with ⟨d, later, rfl, hd⟩
      have hne : d ≠ '-' := by
        rintro rfl
        exact absurd hd (by decide)
      rwa [List.cons_append, read_of_ne_minus hne]
  | minus h => exact h.read hmore

end Number

/-!
## Strings
-/

namespace Quoted

open Text (radixValue?)

def letters : List (Char × Char) :=
  [('"', '"'), ('\\', '\\'), ('/', '/'), ('b', '\x08'), ('f', '\x0c'), ('n', '\n'), ('r', '\r'),
    ('t', '\t')]

/-- How a character of a string is written. -/
inductive IsSpelled : Char → List Char → Prop where
  | plain {c : Char} (hquote : c ≠ '"') (hbackslash : c ≠ '\\') (hcontrol : 0x20 ≤ c.toNat) :
      IsSpelled c [c]
  | letter {c d : Char} (h : (c, d) ∈ letters) : IsSpelled d ['\\', c]
  | unit {a b c d : Char} {n : Nat} (h : radixValue? 16 [a, b, c, d] = some n)
      (hplain : n < 0xD800 ∨ 0xE000 ≤ n) : IsSpelled (Char.ofNat n) ['\\', 'u', a, b, c, d]
  | pair {a b c d a' b' c' d' : Char} {high low : Nat}
      (hhigh : radixValue? 16 [a, b, c, d] = some high) (hhigh' : 0xD800 ≤ high ∧ high < 0xDC00)
      (hlow : radixValue? 16 [a', b', c', d'] = some low) (hlow' : 0xDC00 ≤ low ∧ low < 0xE000) :
      IsSpelled (Char.ofNat (0x10000 + (high - 0xD800) * 0x400 + (low - 0xDC00)))
        ['\\', 'u', a, b, c, d, '\\', 'u', a', b', c', d']

inductive AreSpelled : List Char → List Char → Prop where
  | nil : AreSpelled [] []
  | cons {c : Char} {text written later : List Char} (hc : IsSpelled c written)
      (h : AreSpelled text later) : AreSpelled (c :: text) (written ++ later)

theorem letter?_eq_some_iff {c d : Char} : letter? c = some d ↔ (c, d) ∈ letters := by
  constructor
  · intro h
    unfold letter? at h
    split at h
    case h_9 => cases h
    all_goals
      cases h
      decide
  · intro h
    simp only [letters, List.mem_cons, Prod.mk.injEq, List.not_mem_nil, or_false] at h
    rcases h with h | h | h | h | h | h | h | h
    all_goals
      rcases h with ⟨rfl, rfl⟩
      rfl

theorem unit?_eq (a b c d : Char) : unit? a b c d = radixValue? 16 [a, b, c, d] := by
  simp only [unit?, radixValue?, List.foldlM_cons, List.foldlM_nil]
  simp only [Option.map_eq_bind, Option.bind_eq_bind, Option.bind_assoc, Option.bind_some,
    Nat.mul_comm 16, Nat.zero_mul, Nat.zero_add, Function.comp_apply]
  rfl

theorem isHighSurrogate_iff {n : Nat} : isHighSurrogate n = true ↔ 0xD800 ≤ n ∧ n < 0xDC00 := by
  rw [isHighSurrogate, Bool.and_eq_true, decide_eq_true_iff, decide_eq_true_iff]

theorem isLowSurrogate_iff {n : Nat} : isLowSurrogate n = true ↔ 0xDC00 ≤ n ∧ n < 0xE000 := by
  rw [isLowSurrogate, Bool.and_eq_true, decide_eq_true_iff, decide_eq_true_iff]

def prepend (c : Char) (found : List Char × List Char) : List Char × List Char :=
  (c :: found.1, found.2)

theorem IsSpelled.ne_nil {c : Char} {written : List Char} (h : IsSpelled c written) :
    written ≠ [] := by
  cases h with
  | _ => exact List.cons_ne_nil _ _

theorem IsSpelled.read {c : Char} {written : List Char} (h : IsSpelled c written)
    (cs : List Char) : readRest (written ++ cs) = (readRest cs).map (prepend c) := by
  cases h with
  | plain hquote hbackslash hcontrol =>
      have hplain : ¬ (c = '\\' ∨ c.toNat < 0x20) :=
        not_or.mpr ⟨hbackslash, Nat.not_lt_of_le hcontrol⟩
      show readRest (c :: cs) = _
      rw [readRest]
      · rw [if_neg hplain]
        exact (Option.map_eq_bind ..).symm
      · exact hquote
      · rintro _ _ _ _ _ rfl
        exact absurd rfl hbackslash
      · rintro _ _ rfl
        exact absurd rfl hbackslash
  | @letter c d h =>
      have hletter := letter?_eq_some_iff.mpr h
      have hu : c ≠ 'u' := by
        rintro rfl
        cases hletter
      show readRest ('\\' :: c :: cs) = _
      rw [readRest]
      · simp only [hletter, Option.bind_eq_bind, Option.bind_some]
        exact (Option.map_eq_bind ..).symm
      · rintro _ _ _ _ _ rfl
        exact absurd rfl hu
  | @unit a b c d n h hplain =>
      have hhigh : ¬ isHighSurrogate n = true := by
        rw [isHighSurrogate_iff]
        omega
      have hlow : ¬ isLowSurrogate n = true := by
        rw [isLowSurrogate_iff]
        omega
      show readRest ('\\' :: 'u' :: a :: b :: c :: d :: cs) = _
      rw [readRest]
      simp only [unit?_eq, h, Option.bind_eq_bind, Option.bind_some]
      rw [if_neg hhigh, if_neg hlow]
      exact (Option.map_eq_bind ..).symm
  | @pair a b c d a' b' c' d' high low hhigh hhigh' hlow hlow' =>
      show readRest ('\\' :: 'u' :: a :: b :: c :: d ::
        '\\' :: 'u' :: a' :: b' :: c' :: d' :: cs) = _
      rw [readRest]
      simp only [unit?_eq, hhigh, hlow, Option.bind_eq_bind, Option.bind_some,
        isHighSurrogate_iff.mpr hhigh', isLowSurrogate_iff.mpr hlow', if_true]
      exact (Option.map_eq_bind ..).symm

theorem readRest_cases {cs text rest : List Char} (h : readRest cs = some (text, rest)) :
    (cs = '"' :: rest ∧ text = []) ∨
      ∃ c written later, cs = written ++ later ∧ IsSpelled c written := by
  rw [readRest.eq_def] at h
  split at h
  · cases h
  · cases h
    exact Or.inl ⟨rfl, rfl⟩
  · next a b c d cs =>
      right
      cases hunit : unit? a b c d with
      | none => simp [hunit] at h
      | some unit =>
          rw [unit?_eq] at hunit
          simp only [unit?_eq, hunit, Option.bind_eq_bind, Option.bind_some] at h
          by_cases hhigh : isHighSurrogate unit = true
          · rw [if_pos hhigh] at h
            split at h
            · next a' b' c' d' cs =>
                cases hunit' : unit? a' b' c' d' with
                | none => simp [← unit?_eq, hunit'] at h
                | some low =>
                    by_cases hlow : isLowSurrogate low = true
                    · exact ⟨_, ['\\', 'u', a, b, c, d, '\\', 'u', a', b', c', d'], cs, rfl,
                        .pair hunit (isHighSurrogate_iff.mp hhigh) (unit?_eq .. ▸ hunit')
                          (isLowSurrogate_iff.mp hlow)⟩
                    · simp [← unit?_eq, hunit', hlow] at h
            · cases h
          · rw [if_neg hhigh] at h
            by_cases hlow : isLowSurrogate unit = true
            · rw [if_pos hlow] at h
              cases h
            · rw [isHighSurrogate_iff] at hhigh
              rw [isLowSurrogate_iff] at hlow
              exact ⟨_, ['\\', 'u', a, b, c, d], cs, rfl, .unit hunit (by omega)⟩
  · next c cs _ =>
      right
      cases hletter : letter? c with
      | none => simp [hletter] at h
      | some d =>
          exact ⟨d, ['\\', c], cs, rfl, .letter (letter?_eq_some_iff.mp hletter)⟩
  · next c cs hquote _ _ =>
      right
      by_cases hspecial : c = '\\' ∨ c.toNat < 0x20
      · rw [if_pos hspecial] at h
        cases h
      · rw [not_or] at hspecial
        exact ⟨c, [c], cs, rfl, .plain hquote hspecial.1 (Nat.le_of_not_lt hspecial.2)⟩

/-- What has been read up to the closing quote is written for its characters. The induction is
on the length of the text, as a character may be written in more than one. -/
theorem exists_of_readRest {cs text rest : List Char} (h : readRest cs = some (text, rest)) :
    ∃ used, cs = used ++ '"' :: rest ∧ AreSpelled text used := by
  rcases readRest_cases h with ⟨rfl, rfl⟩ | ⟨c, written, later, rfl, hc⟩
  · exact ⟨[], rfl, .nil⟩
  · rw [hc.read, Option.map_eq_some_iff] at h
    rcases h with ⟨⟨text, rest⟩, hlater, hfound⟩
    cases hfound
    have hlength : later.length < (written ++ later).length := by
      rw [List.length_append]
      have hpos := List.length_pos_of_ne_nil hc.ne_nil
      omega
    rcases exists_of_readRest hlater with ⟨used, rfl, hused⟩
    exact ⟨written ++ used, (List.append_assoc ..).symm, .cons hc hused⟩
termination_by cs.length

/-- A string is read before any other text. -/
theorem AreSpelled.read {text used : List Char} (h : AreSpelled text used) (more : List Char) :
    readRest (used ++ '"' :: more) = some (text, more) := by
  induction h with
  | nil => rfl
  | cons hc _ ih =>
      rw [List.append_assoc, hc.read, ih]
      rfl

end Quoted

end StaticSite.Json
