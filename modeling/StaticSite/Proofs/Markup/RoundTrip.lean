import StaticSite.Markup.Serial
import StaticSite.Proofs.Markup.Leaves
/-!
# Values written to JSON and read back

JSON has no place for markup and for numbers that are not finite, so a value does not
always come back as it was. What comes back is its normal form
(`Value.ofJson?_toJson`), and a value is its own normal form exactly if it holds neither.
-/

namespace StaticSite

namespace Json.Number

theorem toValue_ofInt64 (n : Int64) : (ofInt64 n).toValue = .int n := by
  unfold ofInt64
  by_cases hsign : 0 ≤ n
  · have hnat : ((n.toUInt64.toNat : Nat) : Int) = n.toInt := by
      rw [Int64.toNat_toUInt64_of_le hsign, Int64.toInt_eq_toNatClampNeg hsign]
    have hlow : Int64.minValue.toInt ≤ n.toInt := Int64.minValue_le_toInt n
    have hhigh : n.toInt ≤ Int64.maxValue.toInt := Int64.le_iff_toInt_le.mp (Int64.le_maxValue n)
    rw [if_pos hsign, toValue, hnat, Value.ofInt, if_pos ⟨hlow, hhigh⟩, Int64.ofInt_toInt]
  · rw [if_neg hsign, toValue]

end Json.Number

namespace Value

mutual

/-- What is left of a value in JSON: markup is text there, and numbers that are not finite
are null. -/
def normalize : Value → Value
  | .markup content => .text content.html
  | .float x => if x.isFinite then .float x else .null
  | .list items => .list (normalizeAll items)
  | v => v

def normalizeAll : List Value → List Value
  | [] => []
  | v :: vs => normalize v :: normalizeAll vs

end

mutual

/-- What is read back is the normal form. -/
theorem ofJson?_toJson (v : Value) : ofJson? v.toJson = some v.normalize := by
  cases v with
  | list items =>
      rw [toJson, ofJson?, ofJsons?_toJsons items, Option.map_some, normalize]
  | float x =>
      rw [toJson, normalize]
      by_cases hfinite : x.isFinite = true
      · rw [if_pos hfinite, if_pos hfinite]
        rfl
      · rw [if_neg hfinite, if_neg hfinite]
        rfl
  | int n =>
      rw [toJson, ofJson?, Json.Number.toValue_ofInt64]
      rfl
  | _ => rfl

theorem ofJsons?_toJsons (vs : List Value) : ofJsons? (toJsons vs) = some (normalizeAll vs) := by
  cases vs with
  | nil => rfl
  | cons v vs =>
      rw [toJsons, ofJsons?, ofJson?_toJson v, ofJsons?_toJsons vs, normalizeAll]
      rfl

end

/-!
## Normal forms
-/

/-- Whether a leaf is written to JSON as what it is. -/
def isPlain (leaf : Value) : Bool := !leaf.isMarkup && !leaf.isNonFinite

mutual

theorem leaves_normalize_all (v : Value) : v.normalize.leaves.all isPlain = true := by
  cases v with
  | list items => exact allLeaves_normalizeAll_all items
  | float x =>
      rw [normalize]
      by_cases hfinite : x.isFinite = true
      · rw [if_pos hfinite]
        simp [leaves, isPlain, isMarkup, isNonFinite, hfinite]
      · rw [if_neg hfinite]
        rfl
  | _ => rfl

theorem allLeaves_normalizeAll_all (vs : List Value) :
    (allLeaves (normalizeAll vs)).all isPlain = true := by
  cases vs with
  | nil => rfl
  | cons v vs =>
      rw [normalizeAll, allLeaves, List.all_append, leaves_normalize_all v,
        allLeaves_normalizeAll_all vs, Bool.and_self]

end

mutual

theorem normalize_of_all (v : Value) (h : v.leaves.all isPlain = true) : v.normalize = v := by
  cases v with
  | list items => rw [normalize, normalizeAll_of_all items h]
  | float x =>
      have hfinite : x.isFinite = true := by
        simpa [leaves, isPlain, isMarkup, isNonFinite] using h
      rw [normalize, if_pos hfinite]
  | markup content => simp [leaves, isPlain, isMarkup] at h
  | _ => rfl

theorem normalizeAll_of_all (vs : List Value) (h : (allLeaves vs).all isPlain = true) :
    normalizeAll vs = vs := by
  cases vs with
  | nil => rfl
  | cons v vs =>
      rw [allLeaves, List.all_append, Bool.and_eq_true] at h
      rw [normalizeAll, normalize_of_all v h.1, normalizeAll_of_all vs h.2]

end

theorem all_isPlain_iff (v : Value) :
    v.leaves.all isPlain = true ↔ v.isMarkupFree = true ∧ v.hasFiniteNumbers = true := by
  simp only [isMarkupFree, hasFiniteNumbers, isPlain, List.all_eq_true, Bool.and_eq_true]
  exact ⟨fun h => ⟨fun leaf hleaf => (h leaf hleaf).1, fun leaf hleaf => (h leaf hleaf).2⟩,
    fun h leaf hleaf => ⟨h.1 leaf hleaf, h.2 leaf hleaf⟩⟩

theorem normalize_eq_self_iff (v : Value) :
    v.normalize = v ↔ v.isMarkupFree = true ∧ v.hasFiniteNumbers = true := by
  rw [← all_isPlain_iff]
  constructor
  · intro hself
    rw [← hself]
    exact leaves_normalize_all v
  · exact normalize_of_all v

theorem normalize_normalize (v : Value) : v.normalize.normalize = v.normalize :=
  normalize_of_all _ (leaves_normalize_all v)

mutual

/-- What a value is shown as stays, if all its numbers are finite. -/
theorem displayText_normalize (v : Value) (h : v.hasFiniteNumbers = true) :
    v.normalize.displayText = v.displayText := by
  cases v with
  | list items => rw [normalize, displayText, displayText, displayTexts_normalizeAll items h]
  | float x =>
      have hfinite : x.isFinite = true := by
        simpa [hasFiniteNumbers, leaves, isNonFinite] using h
      rw [normalize, if_pos hfinite]
  | _ => rfl

theorem displayTexts_normalizeAll (vs : List Value)
    (h : (allLeaves vs).all (!·.isNonFinite) = true) :
    displayTexts (normalizeAll vs) = displayTexts vs := by
  cases vs with
  | nil => rfl
  | cons v vs =>
      rw [allLeaves, List.all_append, Bool.and_eq_true] at h
      rw [normalizeAll, displayTexts, displayTexts, displayText_normalize v h.1,
        displayTexts_normalizeAll vs h.2]

end

/-- A value written to JSON comes back as its normal form. It is what it was exactly if it
holds no markup and no number beyond JSON; coming back once more changes nothing; and what
it is shown as stays, unless there is such a number in it. -/
theorem ofJson?_toJson_normalizes (v : Value) :
    ofJson? v.toJson = some v.normalize ∧
      (ofJson? v.toJson = some v ↔ v.isMarkupFree = true ∧ v.hasFiniteNumbers = true) ∧
      (ofJson? v.toJson).bind (fun w => ofJson? w.toJson) = ofJson? v.toJson ∧
      (v.hasFiniteNumbers = true → (ofJson? v.toJson).map displayText = some v.displayText) := by
  rw [ofJson?_toJson]
  refine ⟨rfl, ?_, ?_, ?_⟩
  · rw [Option.some_inj]
    exact normalize_eq_self_iff v
  · rw [Option.bind_some, ofJson?_toJson, normalize_normalize]
  · intro hfinite
    rw [Option.map_some, displayText_normalize v hfinite]

theorem ofJson?_toJson_normalizes_nested :
    let v : Value := .list [.list [.markup ⟨"<b>"⟩, .int Int64.minValue],
      .float ⟨0x8000000000000000⟩]
    v.hasFiniteNumbers = true ∧
      (ofJson? v.toJson).map displayText = some v.displayText :=
  ⟨by decide, (ofJson?_toJson_normalizes _).2.2.2 (by decide)⟩

end Value

end StaticSite
