import StaticSite.Proofs.Files.Order
import StaticSite.Proofs.Files.Places
/-!
# Trees

What stands below a directory is seen from it. It is listed as a whole, and each place
once, or directory by directory.
-/

namespace StaticSite.Files

variable {fs : Files} {top location place : Location} {name : Segment} {entry other : Entry}
  {root : Path}

def IsNamed (fs : Files) : Prop :=
  ∀ location entry, fs.find? location = some entry → location.IsNamed

theorem isNamed_iff_entries :
    fs.IsNamed ↔ ∀ location ∈ fs.entries.map Prod.fst, location.IsNamed := by
  constructor
  · intro h location hmem
    rcases exists_find?_of_mem_keys hmem with ⟨entry, hentry⟩
    exact h location entry hentry
  · intro h location entry hentry
    by_cases hne : location = []
    · subst hne
      intro segment hsegment
      cases hsegment
    · exact h location (mem_keys_of_find? hentry hne)

instance (fs : Files) : Decidable fs.IsNamed := decidable_of_iff _ isNamed_iff_entries.symm

def StandsBelow (fs : Files) (root : Path) (place : Location) (entry : Entry) : Prop :=
  ∃ top, fs.locate .target root = .ok (.entry top .directory) ∧ place ≠ [] ∧
    fs.find? (top ++ place) = some entry

/-- Whether a file stands at a place below a directory. All that is no directory counts as
a file. -/
def HoldsFile (fs : Files) (root : Path) (place : Location) : Prop :=
  ∃ entry, fs.StandsBelow root place entry ∧ entry ≠ .directory

theorem StandsBelow.isNamed (hnamed : fs.IsNamed) (h : fs.StandsBelow root place entry) :
    place.IsNamed := by
  rcases h with ⟨top, -, -, hfind⟩
  intro segment hsegment
  exact hnamed _ _ hfind segment (List.mem_append_right top hsegment)

theorem StandsBelow.ne_nil (h : fs.StandsBelow root place entry) : place ≠ [] := by
  rcases h with ⟨-, -, hne, -⟩
  exact hne

theorem standsBelow_iff (htop : fs.locate .target root = .ok (.entry top .directory)) :
    fs.StandsBelow root place entry ↔ place ≠ [] ∧ fs.find? (top ++ place) = some entry := by
  constructor
  · intro h
    rcases h with ⟨top', htop', hne, hfind⟩
    rw [htop] at htop'
    cases htop'
    exact ⟨hne, hfind⟩
  · intro h
    exact ⟨top, htop, h⟩

/-!
## What stands below a directory

All that is below a location is listed at once, by a look at every entry there is.
-/

def entriesBelow (fs : Files) (top : Location) : List (Location × Entry) :=
  fs.entries.filterMap fun (place, entry) =>
    if isBelow place top then some (place.drop top.length, entry) else none

/-- Where the files below a location are, seen from it. -/
def filesBelow (fs : Files) (top : Location) : List Location :=
  ((fs.entriesBelow top).filter fun pair => pair.2 != .directory).map Prod.fst

theorem mem_entriesBelow_iff (hwf : fs.WellFormed) :
    (place, entry) ∈ fs.entriesBelow top ↔
      place ≠ [] ∧ fs.find? (top ++ place) = some entry := by
  rw [entriesBelow, List.mem_filterMap]
  constructor
  · intro h
    rcases h with ⟨⟨location, e⟩, hmem, hplace⟩
    dsimp only at hplace
    split at hplace
    · next hbelow =>
        cases hplace
        rcases isBelow_iff.mp hbelow with ⟨⟨rest, rfl⟩, hne⟩
        rw [List.drop_left]
        exact ⟨by simpa using hne, ((mem_entries_iff hwf).mp hmem).2⟩
    · cases hplace
  · intro h
    rcases h with ⟨hne, hfind⟩
    refine ⟨(top ++ place, entry), (mem_entries_iff hwf).mpr ⟨by simp [hne], hfind⟩, ?_⟩
    simp only [isBelow_append hne, if_true, List.drop_left]

theorem nodup_entriesBelow (hwf : fs.WellFormed) (top : Location) :
    ((fs.entriesBelow top).map Prod.fst).Nodup := by
  have hpairwise := List.pairwise_map.mp hwf.nodup
  rw [List.Nodup, List.pairwise_map, entriesBelow]
  refine hpairwise.filterMap _ ?_
  intro a a' hne b hb b' hb' hsame
  dsimp only at hb hb'
  split at hb
  · next hbelow =>
      split at hb'
      · next hbelow' =>
          cases hb
          cases hb'
          rcases isBelow_iff.mp hbelow with ⟨⟨rest, hrest⟩, -⟩
          rcases isBelow_iff.mp hbelow' with ⟨⟨rest', hrest'⟩, -⟩
          apply hne
          rw [← hrest, ← hrest', List.drop_left, List.drop_left] at hsame
          obtain rfl : rest = rest' := hsame
          rw [← hrest, ← hrest']
      · cases hb'
  · cases hb

theorem mem_filesBelow_iff (hwf : fs.WellFormed) :
    place ∈ fs.filesBelow top ↔
      place ≠ [] ∧ ∃ entry, fs.find? (top ++ place) = some entry ∧ entry ≠ .directory := by
  rw [filesBelow, List.mem_map]
  constructor
  · intro h
    rcases h with ⟨⟨_, entry⟩, hmem, rfl⟩
    rcases List.mem_filter.mp hmem with ⟨hbelow, hfile⟩
    rcases (mem_entriesBelow_iff hwf).mp hbelow with ⟨hne, hfind⟩
    exact ⟨hne, entry, hfind, bne_iff_ne.mp hfile⟩
  · intro h
    rcases h with ⟨hne, entry, hfind, hfile⟩
    exact ⟨(place, entry), List.mem_filter.mpr
      ⟨(mem_entriesBelow_iff hwf).mpr ⟨hne, hfind⟩, bne_iff_ne.mpr hfile⟩, rfl⟩

theorem nodup_filesBelow (hwf : fs.WellFormed) (top : Location) : (fs.filesBelow top).Nodup :=
  (nodup_entriesBelow hwf top).sublist (List.filter_sublist.map Prod.fst)

theorem mem_filesBelow_iff_holdsFile (hwf : fs.WellFormed)
    (htop : fs.locate .target root = .ok (.entry top .directory)) :
    place ∈ fs.filesBelow top ↔ fs.HoldsFile root place := by
  simp only [mem_filesBelow_iff hwf, HoldsFile, standsBelow_iff htop]
  constructor
  · intro h
    rcases h with ⟨hne, entry, hfind, hfile⟩
    exact ⟨entry, ⟨hne, hfind⟩, hfile⟩
  · intro h
    rcases h with ⟨entry, ⟨hne, hfind⟩, hfile⟩
    exact ⟨hne, entry, hfind, hfile⟩

/-!
## What stands in a directory
-/

theorem mem_children_iff (hwf : fs.WellFormed) :
    (name, entry) ∈ fs.children top ↔ fs.find? (top ++ [name]) = some entry := by
  rw [children, List.mem_filterMap]
  constructor
  · intro h
    rcases h with ⟨⟨location, other⟩, hmem, hname⟩
    rcases Option.bind_eq_some_iff.mp hname with ⟨last, hlast, hif⟩
    rcases List.getLast?_eq_some_iff.mp hlast with ⟨init, rfl⟩
    rw [List.dropLast_concat, Option.ite_none_right_eq_some] at hif
    rcases hif with ⟨rfl, heq⟩
    cases heq
    exact ((mem_entries_iff hwf).mp hmem).2
  · intro hfind
    refine ⟨(top ++ [name], entry), (mem_entries_iff hwf).mpr ⟨by simp, hfind⟩, ?_⟩
    simp

theorem nodup_children (hwf : fs.WellFormed) (top : Location) :
    ((fs.children top).map Prod.fst).Nodup := by
  have hpairwise := List.pairwise_map.mp hwf.nodup
  rw [List.Nodup, List.pairwise_map, children]
  refine hpairwise.filterMap _ ?_
  intro a a' hne b hb b' hb' hsame
  rcases Option.bind_eq_some_iff.mp hb with ⟨last, hlast, hif⟩
  rcases Option.bind_eq_some_iff.mp hb' with ⟨last', hlast', hif'⟩
  rcases List.getLast?_eq_some_iff.mp hlast with ⟨init, hinit⟩
  rcases List.getLast?_eq_some_iff.mp hlast' with ⟨init', hinit'⟩
  rw [hinit, List.dropLast_concat, Option.ite_none_right_eq_some] at hif
  rw [hinit', List.dropLast_concat, Option.ite_none_right_eq_some] at hif'
  rcases hif with ⟨rfl, heq⟩
  rcases hif' with ⟨rfl, heq'⟩
  cases heq
  cases heq'
  obtain rfl : last = last' := hsame
  exact hne (hinit.trans hinit'.symm)

/-- The files at or below an entry of a directory, seen from that directory. -/
def filesAt (fs : Files) (top : Location) (child : Segment × Entry) : List Location :=
  if child.2 = .directory then (fs.filesBelow (top ++ [child.1])).map (child.1 :: ·)
  else [[child.1]]

theorem head?_of_mem_filesAt {child : Segment × Entry} (h : place ∈ fs.filesAt top child) :
    place.head? = some child.1 := by
  rw [filesAt] at h
  split at h
  · rcases List.mem_map.mp h with ⟨rest, -, rfl⟩
    rfl
  · rw [List.mem_singleton.mp h]
    rfl

theorem mem_flatMap_filesAt_iff (hwf : fs.WellFormed) :
    place ∈ (fs.children top).flatMap (fs.filesAt top) ↔ place ∈ fs.filesBelow top := by
  rw [List.mem_flatMap, mem_filesBelow_iff hwf]
  constructor
  · intro h
    rcases h with ⟨⟨name, entry⟩, hchild, hplace⟩
    have hfind := (mem_children_iff hwf).mp hchild
    rw [filesAt] at hplace
    split at hplace
    · rcases List.mem_map.mp hplace with ⟨rest, hrest, rfl⟩
      rcases (mem_filesBelow_iff hwf).mp hrest with ⟨-, other, hother, hfile⟩
      exact ⟨List.cons_ne_nil name rest, other, by rwa [List.append_cons], hfile⟩
    · next hfile =>
        rw [List.mem_singleton.mp hplace]
        exact ⟨List.cons_ne_nil name [], entry, hfind, hfile⟩
  · intro h
    rcases h with ⟨hne, entry, hfind, hfile⟩
    rcases List.exists_cons_of_ne_nil hne with ⟨name, rest, rfl⟩
    by_cases hrest : rest = []
    · subst hrest
      refine ⟨(name, entry), (mem_children_iff hwf).mpr hfind, ?_⟩
      rw [filesAt, if_neg hfile]
      exact List.mem_singleton.mpr rfl
    · rw [List.append_cons] at hfind
      have hdirectory := hwf.find?_of_append hrest hfind
      refine ⟨(name, .directory), (mem_children_iff hwf).mpr hdirectory, ?_⟩
      rw [filesAt, if_pos rfl]
      exact List.mem_map_of_mem ((mem_filesBelow_iff hwf).mpr ⟨hrest, entry, hfind, hfile⟩)

theorem nodup_flatMap_filesAt (hwf : fs.WellFormed) (top : Location) :
    ((fs.children top).flatMap (fs.filesAt top)).Nodup := by
  rw [List.nodup_flatMap]
  constructor
  · intro child _
    rw [filesAt]
    split
    · exact (nodup_filesBelow hwf _).map (List.cons_injective (a := child.1))
    · exact List.nodup_singleton _
  · refine (List.pairwise_map.mp (nodup_children hwf top)).imp ?_
    intro child other hne place hplace hplace'
    have hhead := head?_of_mem_filesAt hplace
    rw [head?_of_mem_filesAt hplace'] at hhead
    exact hne (Option.some.inj hhead).symm

/-- What is below a directory is what is at or below what stands in it. -/
theorem filesBelow_perm (hwf : fs.WellFormed) (top : Location) :
    (fs.filesBelow top).Perm ((fs.children top).flatMap (fs.filesAt top)) := by
  rw [List.perm_ext_iff_of_nodup (nodup_filesBelow hwf top) (nodup_flatMap_filesAt hwf top)]
  intro place
  exact (mem_flatMap_filesAt_iff hwf).symm

theorem readDirectory_of_locate (h : fs.locate .target root = .ok (.entry top .directory)) :
    fs.readDirectory root = .ok (fs.children top) := by
  rw [readDirectory, h]
  rfl

theorem isDirectory_of_readDirectory {entries : List (Segment × Entry)}
    (h : fs.readDirectory root = .ok entries) : fs.isDirectory root = true := by
  unfold isDirectory
  rcases bind_eq_ok h with ⟨place, hplace, h⟩
  rw [hplace]
  cases place with
  | free location => cases h
  | removed => rfl
  | entry location entry =>
      cases entry with
      | file content => cases h
      | link target => cases h
      | directory => rfl

end StaticSite.Files
