import StaticSite.Proofs.Files.Trees
import StaticSite.Site.Compare
import Mathlib.Data.List.Perm.Basic
/-!
# Collecting files

A walk reads a directory, and goes on in each directory that it finds there. If all
directories can be opened, it finds the files below its directory, and each of them once.
-/

namespace StaticSite

namespace Path

theorem size_lt_join {name : Segment} (p : Path) (hname : name.IsFileName) :
    p.size < (p.join ⟨name⟩).size := by
  have hbytes : name.bytes ≠ [] := by
    intro hnil
    have hcanonical := hname.canonical
    rw [hnil] at hcanonical
    exact Segment.isStepDown_ne_nil hname.isStepDown hcanonical.symm
  rcases p.exists_front_join with ⟨front, hbegins, hfront⟩
  have hle := (hbegins.sublist.flatMap Utf8.Part.bytes).length_le
  have hpos : 0 < (name.flatMap Utf8.Part.bytes).length := List.length_pos_iff.mpr hbytes
  rw [hfront _ (isAbsolute_name hname), size, size, List.flatMap_append, List.length_append]
  exact Nat.lt_of_le_of_lt hle (Nat.lt_add_of_pos_right hpos)

end Path

namespace Compare

open Files

variable {fs : Files} {root dir : Path} {top place below : Location} {name : Segment}
  {entries : List (Segment × Entry)} {files found : List Location} {levels enough : Nat}
  {look look' : Segment × Entry → Except CompareError (List Location)}
  {within : Segment × Entry → List Location}

theorem pathBelow_singleton (dir : Path) (name : Segment) :
    pathBelow dir [name] = dir.join ⟨name⟩ := by
  simp [pathBelow, Path.ofSegments]

theorem pathBelow_join (hname : name.IsFileName) (hnamed : place.IsNamed) (hne : place ≠ []) :
    pathBelow (dir.join ⟨name⟩) place = pathBelow dir (name :: place) := by
  rcases List.exists_cons_of_ne_nil hne with ⟨next, rest, rfl⟩
  rw [pathBelow, pathBelow, Path.join_join _ (Segment.isStepDown_ne_nil hname.isStepDown)
    hname.slash_not_mem (Path.isAbsolute_ofSegments hnamed), ← Path.ofSegments_cons_cons]

/-!
## Opening directories
-/

/-- Whether all directories below a directory can be opened by their paths. -/
def OpensDirectories (fs : Files) (root : Path) : Prop :=
  ∀ place, fs.StandsBelow root place .directory → fs.isDirectory (pathBelow root place) = true

theorem size_le_of_locate {p : Path} {there : Place} (h : fs.locate .target p = .ok there) :
    p.size ≤ pathLimit :=
  (checkPath_eq_ok_iff.mp (locate_eq_ok_iff.mp h).1).2.2

/-- A path by which a directory is opened, below which everything has names that entries can
have. -/
structure IsOpenAt (fs : Files) (dir : Path) (top : Location) : Prop where
  locate : fs.locate .target dir = .ok (.entry top .directory)
  named : ∀ place entry, fs.StandsBelow dir place entry → place.IsNamed

namespace IsOpenAt

theorem isFileName (h : IsOpenAt fs dir top) {entry : Entry}
    (hfind : fs.find? (top ++ [name]) = some entry) : name.IsFileName := by
  have hstands := (standsBelow_iff h.locate).mpr ⟨List.cons_ne_nil name [], hfind⟩
  exact h.named [name] entry hstands name (List.mem_singleton.mpr rfl)

theorem locate_join (h : IsOpenAt fs dir top) (hwf : fs.WellFormed)
    (hfind : fs.find? (top ++ [name]) = some .directory)
    (hopen : fs.isDirectory (dir.join ⟨name⟩) = true) :
    fs.locate .target (dir.join ⟨name⟩) = .ok (.entry (top ++ [name]) .directory) := by
  have hname := h.isFileName hfind
  have habs := Path.isAbsolute_name hname
  have hdir := isEmpty_of_locate h.locate
  rcases reaches_of_locate h.locate with ⟨-, hreaches⟩
  rcases isDirectory_iff.mp hopen with ⟨hcheck, -⟩
  have hstep : Path.steps ⟨name⟩ = [name] := by
    have hsteps := Path.steps_ofSegments (List.forall_mem_singleton.mpr hname.slash_not_mem)
    rw [Path.stepsOf_eq_self (List.forall_mem_singleton.mpr hname.isStepDown.1)] at hsteps
    rw [← hsteps, Path.steps, Path.steps, Path.segments, Path.segments, Path.ofSegments_singleton]
  have hbelow := hreaches.to_directory hwf (List.forall_mem_singleton.mpr hname.isStepDown)
    (List.forall_mem_singleton.mpr hname.short) hfind
  have hsteps := Path.steps_join hdir habs
  rw [hstep] at hsteps
  rw [← hsteps, ← Path.isAbsolute_join hdir habs] at hbelow
  exact locate_of_reaches hcheck hbelow

theorem standsBelow_cons (h : IsOpenAt fs dir top) (hwf : fs.WellFormed)
    (hfind : fs.find? (top ++ [name]) = some .directory)
    (hopen : fs.isDirectory (dir.join ⟨name⟩) = true) {entry : Entry} (hne : place ≠ []) :
    fs.StandsBelow (dir.join ⟨name⟩) place entry ↔ fs.StandsBelow dir (name :: place) entry := by
  rw [standsBelow_iff (h.locate_join hwf hfind hopen), standsBelow_iff h.locate, ← List.append_cons]
  simp [hne]

theorem join (h : IsOpenAt fs dir top) (hwf : fs.WellFormed)
    (hfind : fs.find? (top ++ [name]) = some .directory)
    (hopen : fs.isDirectory (dir.join ⟨name⟩) = true) :
    IsOpenAt fs (dir.join ⟨name⟩) (top ++ [name]) := by
  refine ⟨h.locate_join hwf hfind hopen, ?_⟩
  intro place entry hstands segment hsegment
  have hcons := (h.standsBelow_cons hwf hfind hopen hstands.ne_nil).mp hstands
  exact h.named _ entry hcons segment (List.mem_cons_of_mem name hsegment)

theorem opensDirectories_iff (h : IsOpenAt fs dir top) (hwf : fs.WellFormed) :
    OpensDirectories fs dir ↔ ∀ name, (name, Entry.directory) ∈ fs.children top →
      fs.isDirectory (dir.join ⟨name⟩) = true ∧ OpensDirectories fs (dir.join ⟨name⟩) := by
  constructor
  · intro hopens name hchild
    have hfind := (mem_children_iff hwf).mp hchild
    have hopen := hopens [name] ((standsBelow_iff h.locate).mpr ⟨List.cons_ne_nil name [], hfind⟩)
    rw [pathBelow_singleton] at hopen
    refine ⟨hopen, ?_⟩
    intro place hstands
    have hnamed := (h.join hwf hfind hopen).named place _ hstands
    rw [pathBelow_join (h.isFileName hfind) hnamed hstands.ne_nil]
    exact hopens _ ((h.standsBelow_cons hwf hfind hopen hstands.ne_nil).mp hstands)
  · intro hall place hstands
    rcases List.exists_cons_of_ne_nil hstands.ne_nil with ⟨name, rest, rfl⟩
    have hplace := ((standsBelow_iff h.locate).mp hstands).2
    by_cases hrest : rest = []
    · subst hrest
      rw [pathBelow_singleton]
      exact (hall name ((mem_children_iff hwf).mpr hplace)).1
    · rw [List.append_cons] at hplace
      have hfind := hwf.find?_of_append hrest hplace
      rcases hall name ((mem_children_iff hwf).mpr hfind) with ⟨hopen, hopens⟩
      have hbelow := (h.standsBelow_cons hwf hfind hopen hrest).mpr hstands
      have hnamed := (h.join hwf hfind hopen).named rest _ hbelow
      rw [← pathBelow_join (h.isFileName hfind) hnamed hrest]
      exact hopens rest hbelow

end IsOpenAt

/-!
## Visiting entries
-/

theorem visitAll_congr (h : ∀ child ∈ entries, look' child = look child) :
    visitAll look' entries = visitAll look entries := by
  induction entries with
  | nil => rfl
  | cons child rest ih =>
      rw [List.forall_mem_cons] at h
      rw [visitAll, visitAll, h.1, ih h.2]

theorem visitAll_eq_ok (h : ∀ child ∈ entries, look child = .ok (within child)) :
    visitAll look entries = .ok (entries.flatMap within) := by
  induction entries with
  | nil => rfl
  | cons child rest ih =>
      rw [List.forall_mem_cons] at h
      rw [visitAll, h.1, ih h.2]
      rfl

theorem exists_of_visitAll (h : visitAll look entries = .ok found) :
    ∀ child ∈ entries, ∃ inside, look child = .ok inside := by
  induction entries generalizing found with
  | nil =>
      intro child hchild
      cases hchild
  | cons child rest ih =>
      rcases bind_eq_ok h with ⟨here, hhere, h⟩
      rcases bind_eq_ok h with ⟨later, hlater, -⟩
      exact List.forall_mem_cons.mpr ⟨⟨here, hhere⟩, ih hlater⟩

theorem visit_directory (enter : Path → Location → Except CompareError (List Location))
    (dir : Path) (below : Location) (name : Segment) :
    visit enter dir below (name, .directory) = enter (dir.join ⟨name⟩) (below ++ [name]) :=
  if_pos rfl

/-!
## Walking
-/

theorem walk_succ (h : fs.locate .target dir = .ok (.entry top .directory)) :
    walk fs (levels + 1) dir below =
      visitAll (visit (walk fs levels) dir below) (fs.children top) := by
  rw [walk, readDirectory_of_locate h]
  rfl

/-- A walk finds the files below its directory, if all directories there can be opened. -/
theorem walk_eq_ok (hwf : fs.WellFormed) (h : IsOpenAt fs dir top)
    (hopens : OpensDirectories fs dir) (hlevels : pathLimit < dir.size + levels) :
    ∃ found, walk fs levels dir below = .ok found ∧
      found.Perm ((fs.filesBelow top).map (below ++ ·)) := by
  induction levels generalizing dir top below with
  | zero => exact absurd (size_le_of_locate h.locate) (Nat.not_le_of_lt hlevels)
  | succ levels ih =>
      have hchild : ∀ child ∈ fs.children top, ∃ inside,
          visit (walk fs levels) dir below child = .ok inside ∧
            inside.Perm ((fs.filesAt top child).map (below ++ ·)) := by
        intro child hmem
        rcases child with ⟨name, entry⟩
        rw [visit, filesAt]
        by_cases hentry : entry = .directory
        · subst hentry
          have hfind := (mem_children_iff hwf).mp hmem
          rcases (h.opensDirectories_iff hwf).mp hopens name hmem with ⟨hopen, hinner⟩
          have hsize := dir.size_lt_join (h.isFileName hfind)
          rcases ih (h.join hwf hfind hopen) hinner (by omega) with ⟨inside, hwalk, hperm⟩
          refine ⟨inside, hwalk, ?_⟩
          simpa [Function.comp_def] using hperm
        · refine ⟨_, if_neg hentry, ?_⟩
          rw [if_neg hentry]
          exact .refl _
      choose! within hwithin using hchild
      refine ⟨(fs.children top).flatMap within, ?_, ?_⟩
      · rw [walk_succ h.locate]
        exact visitAll_eq_ok fun child hmem => (hwithin child hmem).1
      · have hparts := List.Perm.flatMap_left _ fun child hmem => (hwithin child hmem).2
        rw [← List.map_flatMap] at hparts
        exact hparts.trans ((filesBelow_perm hwf top).map (below ++ ·)).symm

theorem isDirectory_of_walk (h : walk fs levels dir below = .ok found) :
    fs.isDirectory dir = true := by
  cases levels with
  | zero => cases h
  | succ levels =>
      rw [walk] at h
      rcases bind_eq_ok h with ⟨entries, hentries, -⟩
      cases hread : fs.readDirectory dir with
      | ok entries => exact isDirectory_of_readDirectory hread
      | error e =>
          rw [hread] at hentries
          cases hentries

theorem opensDirectories_of_walk (hwf : fs.WellFormed) (h : IsOpenAt fs dir top)
    (hwalk : walk fs levels dir below = .ok found) : OpensDirectories fs dir := by
  induction levels generalizing dir top below found with
  | zero => cases hwalk
  | succ levels ih =>
      rw [walk_succ h.locate] at hwalk
      rw [h.opensDirectories_iff hwf]
      intro name hmem
      rcases exists_of_visitAll hwalk _ hmem with ⟨inside, hinside⟩
      rw [visit_directory] at hinside
      have hopen := isDirectory_of_walk hinside
      exact ⟨hopen, ih (h.join hwf ((mem_children_iff hwf).mp hmem) hopen) hinside⟩

theorem walk_of_walk (hwf : fs.WellFormed) (h : IsOpenAt fs dir top)
    (hwalk : walk fs levels dir below = .ok found) (henough : pathLimit < dir.size + enough) :
    walk fs enough dir below = .ok found := by
  induction levels generalizing enough dir top below found with
  | zero => cases hwalk
  | succ levels ih =>
      cases enough with
      | zero => exact absurd (size_le_of_locate h.locate) (Nat.not_le_of_lt henough)
      | succ enough =>
          rw [walk_succ h.locate] at hwalk ⊢
          rw [← hwalk]
          apply visitAll_congr
          intro child hmem
          rcases child with ⟨name, entry⟩
          rcases exists_of_visitAll hwalk _ hmem with ⟨inside, hinside⟩
          by_cases hentry : entry = .directory
          · subst hentry
            rw [visit_directory] at hinside ⊢
            have hfind := (mem_children_iff hwf).mp hmem
            have hopen := isDirectory_of_walk hinside
            have hsize := dir.size_lt_join (h.isFileName hfind)
            rw [visit_directory, hinside]
            exact ih (h.join hwf hfind hopen) hinside (by omega)
          · rw [visit, visit, if_neg hentry, if_neg hentry]

/-!
## Collecting
-/

/-- What is collected is what a walk finds with any number of levels. -/
theorem collect_of_walk (hwf : fs.WellFormed) (h : IsOpenAt fs root top)
    (hwalk : walk fs levels root [] = .ok found) :
    collect fs root = .ok (found.mergeSort Location.precedes) := by
  have hlimit := walk_of_walk hwf h hwalk (show pathLimit < root.size + (pathLimit + 1) by omega)
  rw [collect, hlimit]
  rfl

/-- What is collected are the files below the directory in the order of their paths, if all
directories there can be opened. -/
theorem collect_eq_mergeSort (hwf : fs.WellFormed) (h : IsOpenAt fs root top)
    (hopens : OpensDirectories fs root) :
    collect fs root = .ok ((fs.filesBelow top).mergeSort Location.precedes) := by
  obtain ⟨found, hwalk, hperm⟩ : ∃ found, walk fs (pathLimit + 1) root [] = .ok found ∧
      found.Perm ((fs.filesBelow top).map ([] ++ ·)) := walk_eq_ok hwf h hopens (by omega)
  have hsame : (fs.filesBelow top).map ([] ++ ·) = fs.filesBelow top := List.map_id _
  rw [hsame] at hperm
  have hnamed : ∀ place ∈ fs.filesBelow top, place.IsNamed := by
    intro place hplace
    rcases (mem_filesBelow_iff_holdsFile hwf h.locate).mp hplace with ⟨entry, hstands, -⟩
    exact h.named place entry hstands
  rw [collect_of_walk hwf h hwalk,
    Location.mergeSort_congr hnamed (nodup_filesBelow hwf top) hperm.symm]

theorem collect_of_removed (h : fs.locate .target root = .ok .removed) :
    collect fs root = .ok [] := by
  rw [collect, walk, readDirectory, h]
  show Except.ok (List.mergeSort [] Location.precedes) = _
  rw [List.mergeSort_nil]

/-- Files are collected if and only if all directories below can be opened. -/
theorem collect_succeeds_iff (hwf : fs.WellFormed) (h : IsOpenAt fs root top) :
    (∃ files, collect fs root = .ok files) ↔ OpensDirectories fs root := by
  constructor
  · intro hfiles
    rcases hfiles with ⟨files, hfiles⟩
    rcases bind_eq_ok hfiles with ⟨found, hfound, -⟩
    exact opensDirectories_of_walk hwf h hfound
  · intro hopens
    exact ⟨_, collect_eq_mergeSort hwf h hopens⟩

end Compare

end StaticSite
