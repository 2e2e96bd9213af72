import Mathlib.Data.List.Induction
import Mathlib.Data.List.Nodup
import Mathlib.Tactic.ByContra
import StaticSite.Files.Writing
/-!
# Well-formed files

What stands at a location stands below directories only. Changes keep that: an entry is
put into a directory and takes the place of no directory, and what is removed takes all
that is below it with it.
-/

namespace StaticSite

namespace Files

variable {fs : Files} {location other : Location}

/-!
## Locations below others
-/

theorem isBelow_iff : isBelow other location = true ↔ location <+: other ∧ other ≠ location := by
  simp [isBelow]

theorem isBelow_append {rest : Location} (h : rest ≠ []) :
    isBelow (location ++ rest) location = true := by
  rw [isBelow_iff]
  exact ⟨List.prefix_append .., by simpa using h⟩

theorem isBelow_of_isBelow_dropLast (h : isBelow other.dropLast location = true) :
    isBelow other location = true := by
  rw [isBelow_iff] at h ⊢
  refine ⟨h.1.trans (List.dropLast_prefix other), ?_⟩
  rintro rfl
  have hlength := h.1.length_le
  rw [List.length_dropLast] at hlength
  apply h.2
  exact h.1.eq_of_length_le (by simp) |>.symm

theorem mem_keys_of_find? {entry : Entry} (h : fs.find? location = some entry)
    (hne : location ≠ []) : location ∈ fs.entries.map Prod.fst := by
  rw [find?, if_neg hne] at h
  have hsome : (fs.entries.lookup location).isSome = true := by rw [h]; rfl
  rcases List.lookup_isSome_iff.mp hsome with ⟨pair, hpair, hkey⟩
  exact List.mem_map.mpr ⟨pair, hpair, (eq_of_beq hkey).symm⟩

theorem exists_find?_of_mem_keys (h : location ∈ fs.entries.map Prod.fst) :
    ∃ entry, fs.find? location = some entry := by
  rcases List.mem_map.mp h with ⟨pair, hpair, rfl⟩
  by_cases hne : pair.1 = []
  · exact ⟨.directory, by rw [find?, if_pos hne]⟩
  · rw [find?, if_neg hne]
    exact Option.isSome_iff_exists.mp (List.lookup_isSome_iff.mpr ⟨pair, hpair, by simp⟩)

theorem mem_entries_iff (hwf : fs.WellFormed) :
    (location, entry) ∈ fs.entries ↔ location ≠ [] ∧ fs.find? location = some entry := by
  rw [← Association.lookup_eq_some_iff_mem hwf.nodup]
  constructor
  · intro h
    have hmem := (Association.lookup_eq_some_iff_mem hwf.nodup).mp h
    have hne := hwf.ne_root location (List.mem_map_of_mem (f := Prod.fst) hmem)
    exact ⟨hne, by rwa [find?, if_neg hne]⟩
  · rintro ⟨hne, hfind⟩
    rwa [find?, if_neg hne] at hfind

theorem not_isOccupied_iff :
    fs.isOccupied location = false ↔
      ∀ other, isBelow other location = true → fs.find? other = none := by
  constructor
  · intro h other hbelow
    by_contra hfind
    rcases Option.ne_none_iff_exists'.mp hfind with ⟨entry, hentry⟩
    have hne : other ≠ [] := by
      rintro rfl
      simp [isBelow_iff] at hbelow
    rcases List.mem_map.mp (mem_keys_of_find? hentry hne) with ⟨pair, hpair, rfl⟩
    exact List.any_eq_false.mp h pair hpair hbelow
  · intro h
    apply List.any_eq_false.mpr
    intro pair hpair hbelow
    rcases exists_find?_of_mem_keys (List.mem_map_of_mem (f := Prod.fst) hpair) with ⟨entry, hentry⟩
    rw [h _ hbelow] at hentry
    cases hentry

theorem base_clear (location : Location) (s : WorkingDirectory) :
    (clearWorkingDirectory location s).base =
      if isBelow s.base location then location else s.base := by
  cases s with
  | standing place =>
      rw [clearWorkingDirectory, WorkingDirectory.base]
      split <;> rfl
  | removed levels above =>
      rw [clearWorkingDirectory, WorkingDirectory.base]
      split <;> rfl

theorem base_erase (location : Location) (s : WorkingDirectory) :
    (eraseWorkingDirectory location s).base =
      if s.base = location then location.dropLast else s.base := by
  cases s with
  | standing place =>
      rw [eraseWorkingDirectory, WorkingDirectory.base]
      split <;> rfl
  | removed levels above =>
      rw [eraseWorkingDirectory, WorkingDirectory.base]
      split <;> rfl

/-- Whether files are well-formed can be computed. -/
instance : Decidable fs.WellFormed :=
  decidable_of_iff
    ((fs.entries.map Prod.fst).Nodup ∧ (∀ location ∈ fs.entries.map Prod.fst, location ≠ []) ∧
      (∀ location ∈ fs.entries.map Prod.fst, fs.find? location.dropLast = some .directory) ∧
      fs.find? fs.workingDirectory.base = some .directory)
    ⟨fun ⟨nodup, ne_root, parent, base⟩ => ⟨nodup, ne_root, parent, base⟩,
      fun h => ⟨h.nodup, h.ne_root, h.parent, h.base⟩⟩

/-!
## What stands below what
-/

namespace WellFormed

variable (hwf : fs.WellFormed)
include hwf

theorem find?_dropLast {entry : Entry} (h : fs.find? location = some entry) :
    fs.find? location.dropLast = some .directory := by
  by_cases hne : location = []
  · subst hne
    exact find?_root fs
  · exact hwf.parent location (mem_keys_of_find? h hne)

theorem find?_of_append {rest : Location} {entry : Entry} (hne : rest ≠ [])
    (h : fs.find? (location ++ rest) = some entry) : fs.find? location = some .directory := by
  induction rest using List.reverseRecOn generalizing entry with
  | nil => exact absurd rfl hne
  | append_singleton rest segment ih =>
      have hparent := hwf.find?_dropLast h
      rw [← List.append_assoc, List.dropLast_concat] at hparent
      by_cases hrest : rest = []
      · subst hrest
        rwa [List.append_nil] at hparent
      · exact ih hrest hparent

theorem find?_of_isBelow {entry : Entry} (hbelow : isBelow other location = true)
    (h : fs.find? other = some entry) : fs.find? location = some .directory := by
  rcases isBelow_iff.mp hbelow with ⟨⟨rest, rfl⟩, hne⟩
  exact hwf.find?_of_append (by simpa using hne) h

theorem not_isOccupied (h : fs.find? location ≠ some .directory) :
    fs.isOccupied location = false := by
  rw [not_isOccupied_iff]
  intro other hbelow
  by_contra hfind
  rcases Option.ne_none_iff_exists'.mp hfind with ⟨entry, hentry⟩
  exact h (hwf.find?_of_isBelow hbelow hentry)

/-!
## Changes
-/

theorem put {entry : Entry} (hne : location ≠ [])
    (hparent : fs.find? location.dropLast = some .directory)
    (hkind : fs.find? location = some .directory → entry = .directory) :
    (fs.put location entry).WellFormed := by
  have hkeep : ∀ other, fs.find? other = some .directory →
      (fs.put location entry).find? other = some .directory := by
    intro other h
    by_cases hother : other = location
    · subst hother
      rw [find?_put_self _ _ hne, hkind h]
    · rwa [find?_put_of_ne _ _ hother]
  have hkeys : ∀ other ∈ (fs.put location entry).entries.map Prod.fst,
      other ∈ fs.entries.map Prod.fst ∨ other = location := by
    intro other hother
    have hput : other ∈ (Association.put location entry fs.entries).map Prod.fst := hother
    rw [Association.map_fst_put] at hput
    split at hput
    · exact Or.inl hput
    · simpa using hput
  refine ⟨?_, ?_, ?_, hkeep _ hwf.base⟩
  · show ((Association.put location entry fs.entries).map Prod.fst).Nodup
    rw [Association.map_fst_put]
    split
    · exact hwf.nodup
    · next hmem =>
        rw [← List.concat_eq_append]
        exact List.Nodup.concat hmem hwf.nodup
  · intro other hother
    rcases hkeys other hother with hother | rfl
    · exact hwf.ne_root other hother
    · exact hne
  · intro other hother
    rcases hkeys other hother with hother | rfl
    · exact hkeep _ (hwf.parent other hother)
    · exact hkeep _ hparent

theorem clear (location : Location) : (fs.clear location).WellFormed := by
  have hsub : ((fs.clear location).entries.map Prod.fst).Sublist (fs.entries.map Prod.fst) :=
    List.filter_sublist.map Prod.fst
  have hkeep : ∀ other, isBelow other location = false →
      (fs.clear location).find? other = fs.find? other := by
    intro other h
    rw [find?_clear, h, if_neg Bool.false_ne_true]
  refine ⟨hwf.nodup.sublist hsub, fun other h => hwf.ne_root other (hsub.subset h), ?_, ?_⟩
  · intro other hother
    have hbelow : isBelow other location = false := by
      rcases List.mem_map.mp hother with ⟨pair, hpair, rfl⟩
      simpa using (List.mem_filter.mp hpair).2
    have hparent : isBelow other.dropLast location = false := by
      rw [Bool.eq_false_iff] at hbelow ⊢
      exact fun h => hbelow (isBelow_of_isBelow_dropLast h)
    rw [hkeep _ hparent]
    exact hwf.parent other (hsub.subset hother)
  · rw [show (fs.clear location).workingDirectory =
      clearWorkingDirectory location fs.workingDirectory from rfl, base_clear]
    split
    · next hbelow =>
        rw [hkeep _ (by simp [isBelow])]
        exact hwf.find?_of_isBelow hbelow hwf.base
    · next hbelow =>
        rw [hkeep _ (by simpa using hbelow)]
        exact hwf.base

theorem erase (hne : location ≠ []) (hempty : fs.isOccupied location = false) :
    (fs.erase location).WellFormed := by
  have hsub : ((fs.erase location).entries.map Prod.fst).Sublist (fs.entries.map Prod.fst) :=
    List.filter_sublist.map Prod.fst
  have hkeep : ∀ other, other ≠ location → (fs.erase location).find? other = fs.find? other := by
    intro other h
    rw [find?_erase _ _ hne, if_neg h]
  have hparent : location.dropLast ≠ location := by
    intro h
    have hlength := congrArg List.length h
    have hpos := List.length_pos_iff.mpr hne
    rw [List.length_dropLast] at hlength
    omega
  refine ⟨hwf.nodup.sublist hsub, fun other h => hwf.ne_root other (hsub.subset h), ?_, ?_⟩
  · intro other hother
    have hfind := hwf.parent other (hsub.subset hother)
    have hother' : other ≠ location := by
      rcases List.mem_map.mp hother with ⟨pair, hpair, rfl⟩
      simpa using (List.mem_filter.mp hpair).2
    rwa [hkeep]
    intro hdrop
    have hbelow : isBelow other location = true := by
      rw [isBelow_iff]
      exact ⟨hdrop ▸ List.dropLast_prefix other, hother'⟩
    rcases exists_find?_of_mem_keys (hsub.subset hother) with ⟨entry, hentry⟩
    rw [not_isOccupied_iff.mp hempty other hbelow] at hentry
    cases hentry
  · rw [show (fs.erase location).workingDirectory =
      eraseWorkingDirectory location fs.workingDirectory from rfl, base_erase]
    split
    · next hbase =>
        rw [hkeep _ hparent]
        exact hwf.find?_dropLast (hbase ▸ hwf.base)
    · next hbase =>
        rw [hkeep _ hbase]
        exact hwf.base

end WellFormed

end Files

end StaticSite
