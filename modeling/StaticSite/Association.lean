/-!
# Associations

An association is a list of pairs of a key and a value, in which every key is
meant to occur once. Keys keep the order in which they were first put. The view
of an association is `List.lookup`; the lemmas say what `put` and a filter of the keys do to
it.
-/

namespace StaticSite.Association

variable {κ α : Type} [BEq κ]

/-- The association with a value put under a key: in the place of the value that was
there, or at the end. -/
def put (key : κ) (value : α) : List (κ × α) → List (κ × α)
  | [] => [(key, value)]
  | (other, old) :: rest =>
    if key == other then (key, value) :: rest else (other, old) :: put key value rest

theorem lookup_put_self [LawfulBEq κ] (key : κ) (value : α) (pairs : List (κ × α)) :
    (put key value pairs).lookup key = some value := by
  induction pairs with
  | nil => simp [put]
  | cons pair rest ih =>
    obtain ⟨other, old⟩ := pair
    by_cases h : key == other
    · simp [put, h]
    · simp [put, h, List.lookup_cons, ih]

theorem lookup_put_of_ne [LawfulBEq κ] {key other : κ} (value : α) (pairs : List (κ × α))
    (h : other ≠ key) : (put key value pairs).lookup other = pairs.lookup other := by
  have hb : (other == key) = false := beq_false_of_ne h
  induction pairs with
  | nil => simp [put, List.lookup_cons, hb]
  | cons pair rest ih =>
    obtain ⟨third, old⟩ := pair
    by_cases hk : key == third
    · obtain rfl := LawfulBEq.eq_of_beq hk
      simp [put, List.lookup_cons, hb]
    · simp [put, hk, List.lookup_cons, ih]

theorem put_of_not_mem [LawfulBEq κ] {key : κ} (value : α) {pairs : List (κ × α)}
    (h : key ∉ pairs.map Prod.fst) : put key value pairs = pairs ++ [(key, value)] := by
  induction pairs with
  | nil => rfl
  | cons pair rest ih =>
    obtain ⟨other, old⟩ := pair
    rw [List.map_cons, List.mem_cons, not_or] at h
    have hne : (key == other) = false := beq_false_of_ne h.1
    rw [put, hne, ih h.2]
    rfl

theorem map_fst_put [LawfulBEq κ] (key : κ) (value : α) (pairs : List (κ × α)) :
    (put key value pairs).map Prod.fst =
      if key ∈ pairs.map Prod.fst then pairs.map Prod.fst else pairs.map Prod.fst ++ [key] := by
  split
  · next hmem =>
    induction pairs with
    | nil => cases hmem
    | cons pair rest ih =>
      obtain ⟨other, old⟩ := pair
      by_cases hk : key == other
      · obtain rfl := LawfulBEq.eq_of_beq hk
        simp [put]
      · have hne : key ≠ other := fun h => hk (beq_iff_eq.mpr h)
        have hrest := ih ((List.mem_cons.mp hmem).resolve_left hne)
        rw [put, if_neg hk, List.map_cons, hrest, List.map_cons]
  · next hmem =>
    rw [put_of_not_mem value hmem, List.map_append, List.map_cons, List.map_nil]

/-- Where no key occurs twice, what is found under a key is the pair that has it. -/
theorem lookup_eq_some_iff_mem [LawfulBEq κ] {key : κ} {value : α} {pairs : List (κ × α)}
    (h : (pairs.map Prod.fst).Nodup) :
    pairs.lookup key = some value ↔ (key, value) ∈ pairs := by
  rw [List.lookup_eq_some_iff]
  constructor
  · rintro ⟨before, after, rfl, -⟩
    exact List.mem_append_right before (List.mem_cons_self ..)
  · intro hmem
    rcases List.append_of_mem hmem with ⟨before, after, rfl⟩
    refine ⟨before, after, rfl, ?_⟩
    intro pair hpair
    rw [List.map_append, List.map_cons, List.nodup_append] at h
    rw [bne_iff_ne]
    exact (h.2.2 pair.1 (List.mem_map_of_mem hpair) key (List.mem_cons_self ..)).symm

theorem lookup_filter [LawfulBEq κ] (keep : κ → Bool) (key : κ) (pairs : List (κ × α)) :
    (pairs.filter fun pair => keep pair.1).lookup key =
      if keep key then pairs.lookup key else none := by
  induction pairs with
  | nil => simp
  | cons pair rest ih =>
    obtain ⟨other, value⟩ := pair
    by_cases hk : key == other
    · obtain rfl := LawfulBEq.eq_of_beq hk
      by_cases h : keep key
      · simp [h]
      · simp [h, ih]
    · by_cases h : keep other
      · simp [h, List.lookup_cons, hk, ih]
      · simp [h, List.lookup_cons, hk, ih]

end StaticSite.Association
