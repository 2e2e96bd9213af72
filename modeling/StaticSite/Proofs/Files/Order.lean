import StaticSite.Files.Walk
import StaticSite.Proofs.Files.Steps
import StaticSite.Proofs.Files.Walking
/-!
# Names and their order

The names of entries are ordered by their bytes, and locations name by name. On names that
can be those of entries this is the lexicographic order of lists of bytes, so locations that
are sorted and listed once are strictly ordered.
-/

namespace StaticSite

/-- Whether a segment can be the name of an entry. -/
structure Segment.IsFileName (segment : Segment) : Prop where
  isStepDown : segment.isStepDown
  slash_not_mem : .char '/' ∉ segment
  short : segment.bytes.length ≤ Files.nameLimit
  canonical : Utf8.parts none segment.bytes = segment

instance (segment : Segment) : Decidable segment.IsFileName :=
  decidable_of_iff
    ((segment.isIdle = false ∧ segment ≠ Segment.up) ∧ .char '/' ∉ segment ∧
      segment.bytes.length ≤ Files.nameLimit ∧ Utf8.parts none segment.bytes = segment)
    ⟨fun ⟨isStepDown, slash_not_mem, short, canonical⟩ =>
        ⟨isStepDown, slash_not_mem, short, canonical⟩,
      fun h => ⟨h.isStepDown, h.slash_not_mem, h.short, h.canonical⟩⟩

theorem Segment.IsFileName.bytes_inj {a b : Segment} (ha : a.IsFileName) (hb : b.IsFileName)
    (h : a.bytes = b.bytes) : a = b := by
  rw [← ha.canonical, h, hb.canonical]

theorem Segment.precedes_iff {a b : Segment} :
    Segment.precedes a b = true ↔ a.bytes < b.bytes := by
  have hbytes : (fun x y : UInt8 => decide (x.toNat < y.toNat)) = fun x y => decide (x < y) := by
    funext x y
    exact decide_eq_decide.mpr UInt8.lt_iff_toNat_lt.symm
  rw [Segment.precedes, hbytes]
  exact List.lex_eq_true_iff_lt

namespace Location

def IsNamed (place : Location) : Prop := ∀ segment ∈ place, segment.IsFileName

instance (place : Location) : Decidable place.IsNamed :=
  inferInstanceAs (Decidable (∀ segment ∈ place, Segment.IsFileName segment))

def bytes (place : Location) : List (List UInt8) := place.map Segment.bytes

variable {a b : Location} {places : List Location}

theorem bytes_inj (ha : IsNamed a) (hb : IsNamed b) (h : bytes a = bytes b) : a = b := by
  induction a generalizing b with
  | nil => exact (List.map_eq_nil_iff.mp h.symm).symm
  | cons x a ih =>
      cases b with
      | nil => cases h
      | cons y b =>
          rcases List.cons_eq_cons.mp h with ⟨hxy, hrest⟩
          rw [IsNamed, List.forall_mem_cons] at ha hb
          rw [ha.1.bytes_inj hb.1 hxy, ih ha.2 hb.2 hrest]

theorem precedes_iff (ha : IsNamed a) (hb : IsNamed b) :
    Location.precedes a b = true ↔ bytes a ≤ bytes b := by
  induction a generalizing b with
  | nil => simp [Location.precedes, bytes]
  | cons x a ih =>
      cases b with
      | nil => simp [Location.precedes, bytes]
      | cons y b =>
          rw [IsNamed, List.forall_mem_cons] at ha hb
          have hxy : x = y ↔ x.bytes = y.bytes :=
            ⟨fun h => by rw [h], fun h => ha.1.bytes_inj hb.1 h⟩
          rw [Location.precedes, Bool.or_eq_true, Bool.and_eq_true, Segment.precedes_iff,
            beq_iff_eq, ih ha.2 hb.2, hxy]
          exact List.cons_le_cons_iff.symm

theorem pairwise_mergeSort (hnamed : ∀ place ∈ places, IsNamed place) (hnodup : places.Nodup) :
    (places.mergeSort Location.precedes).Pairwise fun a b => bytes a < bytes b := by
  have hperm := List.mergeSort_perm places Location.precedes
  have hsorted : ((places.mergeSort Location.precedes).map bytes).Pairwise (· ≤ ·) := by
    have hmap := List.map_mergeSort (r := Location.precedes)
      (s := fun x y => decide (x ≤ y)) (f := bytes) (l := places) ?_
    · rw [hmap]
      refine (List.pairwise_mergeSort ?_ ?_ _).imp of_decide_eq_true
      · intro x y z hxy hyz
        exact decide_eq_true (List.le_trans (of_decide_eq_true hxy) (of_decide_eq_true hyz))
      · intro x y
        rw [Bool.or_eq_true, decide_eq_true_iff, decide_eq_true_iff]
        exact List.le_total x y
    · intro x hx y hy
      rw [Bool.eq_iff_iff, decide_eq_true_iff]
      exact precedes_iff (hnamed x hx) (hnamed y hy)
  have hstrict := (List.pairwise_map.mp hsorted).and (hperm.nodup_iff.mpr hnodup)
  refine hstrict.imp_of_mem ?_
  intro x y hx hy hxy
  rw [← List.not_le]
  intro hyx
  have hsame := List.le_antisymm hxy.1 hyx
  exact hxy.2 (bytes_inj (hnamed x (hperm.mem_iff.mp hx)) (hnamed y (hperm.mem_iff.mp hy)) hsame)

/-- Locations that are listed once are sorted in one way only. -/
theorem mergeSort_congr {other : List Location} (hnamed : ∀ place ∈ places, IsNamed place)
    (hnodup : places.Nodup) (hperm : places.Perm other) :
    places.mergeSort Location.precedes = other.mergeSort Location.precedes := by
  have hsorted := pairwise_mergeSort hnamed hnodup
  have hsorted' := pairwise_mergeSort (fun place h => hnamed place (hperm.mem_iff.mpr h))
    (hperm.nodup_iff.mp hnodup)
  have hsame := (List.mergeSort_perm places Location.precedes).trans
    (hperm.trans (List.mergeSort_perm other Location.precedes).symm)
  refine List.Perm.eq_of_pairwise ?_ hsorted hsorted' hsame
  intro a b _ _ hab hba
  exact absurd (List.lt_trans hab hba) (List.lt_irrefl _)

end Location

/-!
## Paths of locations
-/

namespace Path

def names (p : Path) : List (List UInt8) := Location.bytes p.segments

variable {a b : Location}

theorem isAbsolute_name {name : Segment} (hname : name.IsFileName) : isAbsolute ⟨name⟩ = false := by
  rw [isAbsolute, beq_eq_false_iff_ne]
  intro hhead
  exact hname.slash_not_mem (List.mem_of_head? hhead)

theorem isAbsolute_ofSegments (h : Location.IsNamed a) : (ofSegments a).isAbsolute = false := by
  apply not_isAbsolute_ofSegments
  · intro s hs
    exact (h s hs).slash_not_mem
  · intro hhead
    have hmem := List.mem_of_mem_head? (Option.mem_def.mpr hhead)
    exact Segment.isStepDown_ne_nil (h [] hmem).isStepDown rfl

theorem segments_ofSegments_of_isNamed (h : Location.IsNamed a) (hne : a ≠ []) :
    (ofSegments a).segments = a :=
  segments_ofSegments (fun x hx => (h x hx).slash_not_mem) hne

theorem names_ofSegments (h : Location.IsNamed a) (hne : a ≠ []) :
    (ofSegments a).names = Location.bytes a := by
  rw [names, segments_ofSegments_of_isNamed h hne]

theorem ofSegments_inj (ha : Location.IsNamed a) (hb : Location.IsNamed b) (hane : a ≠ [])
    (hbne : b ≠ []) (h : ofSegments a = ofSegments b) : a = b := by
  rw [← segments_ofSegments_of_isNamed ha hane, h, segments_ofSegments_of_isNamed hb hbne]

end Path

end StaticSite
