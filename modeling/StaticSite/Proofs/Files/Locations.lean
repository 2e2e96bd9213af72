import StaticSite.Files.Reading
import StaticSite.Proofs.Files.Order
import StaticSite.Proofs.Files.Places
/-!
# Paths of locations

The absolute path of a location has the names of the location for its segments, so the parent
of such a path is the path of the location above. What an absolute path leads to depends on the
files only, not on the working directory.
-/

namespace StaticSite

/-- Whether a segment can be a name in a path that is opened: besides being the name of an entry it
does not have the character that would end the path. -/
structure Segment.IsPathName (name : Segment) : Prop extends name.IsFileName where
  nul_not_mem : .char '\x00' ∉ name

instance (name : Segment) : Decidable name.IsPathName :=
  decidable_of_iff (name.IsFileName ∧ .char '\x00' ∉ name)
    ⟨fun h => ⟨h.1, h.2⟩, fun h => ⟨h.toIsFileName, h.nul_not_mem⟩⟩

namespace Path

variable {location : Location} {name : Segment}

theorem segments_ofRoot_names (h : ∀ s ∈ location, s.IsPathName) (hne : location ≠ []) :
    (ofRoot location).segments = [] :: location := by
  rw [segments_ofRoot, segments_ofSegments (fun s hs => (h s hs).slash_not_mem) hne]

theorem parts_ofSegments_concat (hne : location ≠ []) (name : Segment) :
    (ofSegments (location ++ [name])).parts = (ofSegments location).parts ++ .char '/' :: name := by
  induction location with
  | nil => exact absurd rfl hne
  | cons first location ih =>
      cases location with
      | nil => simp [ofSegments, List.intercalate_cons_cons]
      | cons second location =>
          have hrest := ih (List.cons_ne_nil second location)
          simp only [ofSegments, List.cons_append, List.intercalate_cons_cons] at hrest ⊢
          rw [hrest, List.append_assoc, List.append_assoc, List.append_assoc]

theorem getLast?_ofRoot (h : ∀ s ∈ location, s.IsPathName) (hne : location ≠ []) :
    (ofRoot location).parts.getLast? ≠ some (.char '/') := by
  intro hlast
  rcases List.getLast?_eq_some_iff.mp hlast with ⟨init, hinit⟩
  have hsegments : (ofRoot location).segments = init.splitOn (.char '/') ++ [[]] := by
    rw [segments, hinit, List.splitOn_append_cons_self, List.splitOn_nil]
  rw [segments_ofRoot_names h hne] at hsegments
  have hend : location.getLast hne = [] := by
    have hlasts := congrArg List.getLast? hsegments
    rw [List.getLast?_cons_of_ne_nil hne, List.getLast?_concat,
      List.getLast?_eq_some_getLast hne] at hlasts
    exact Option.some.inj hlasts
  exact Segment.isStepDown_ne_nil (h _ (List.getLast_mem hne)).isStepDown hend

theorem ofRoot_join (h : ∀ s ∈ location, s.IsPathName) (hname : name.IsPathName) :
    (ofRoot location).join ⟨name⟩ = ofRoot (location ++ [name]) := by
  have hempty : (ofRoot location).isEmpty = false := rfl
  rw [join, isAbsolute_name hname.toIsFileName, if_neg Bool.false_ne_true, hempty, Bool.false_or]
  by_cases hne : location = []
  · subst hne
    have hlast : ((ofRoot []).parts.getLast? == some (.char '/')) = true := rfl
    rw [hlast, if_pos rfl]
    simp [ofRoot, ofSegments]
  · rw [beq_eq_false_iff_ne.mpr (getLast?_ofRoot h hne), if_neg Bool.false_ne_true, ofRoot, ofRoot,
      parts_ofSegments_concat hne, List.cons_append]

theorem trimEnd_names (h : ∀ s ∈ location, s.IsPathName) : trimEnd location = location := by
  rw [trimEnd_eq, List.rdropWhile_eq_self_iff]
  intro hne
  simp [(h _ (List.getLast_mem hne)).isStepDown.1]

theorem parent?_ofRoot_concat (h : ∀ s ∈ location, s.IsPathName) (hname : name.IsPathName) :
    (ofRoot (location ++ [name])).parent? = some (ofRoot location) := by
  have hall : ∀ s ∈ location ++ [name], s.IsPathName :=
    List.forall_mem_append.mpr ⟨h, List.forall_mem_singleton.mpr hname⟩
  have hne : location ++ [name] ≠ [] := by simp
  have hsegments := segments_ofRoot_names hall hne
  have hdrop : dropLast? (location ++ [name]) = some location := by
    rw [dropLast?, trimEnd_names hall]
    split
    · next hnil => exact absurd hnil hne
    · rw [List.dropLast_concat, trimEnd_names h]
  cases hcons : location ++ [name] with
  | nil => exact absurd hcons hne
  | cons s rest =>
      rw [hcons] at hsegments hdrop
      rw [parent?, hsegments]
      simp only [hdrop, Option.map_some]

end Path

namespace Files

variable {fs other : Files} {purpose : Purpose}

/-!
## Files with another working directory
-/

def standingAt (fs : Files) (location : Location) : Files :=
  { fs with workingDirectory := .standing location }

@[simp] theorem find?_standingAt (fs : Files) (location place : Location) :
    (fs.standingAt location).find? place = fs.find? place := rfl

theorem walkSegments_congr (h : ∀ location, other.find? location = fs.find? location)
    (onLink : Location → Path → List Segment → Except FileError Place) (current : Location)
    (segments : List Segment) :
    other.walkSegments purpose onLink current segments =
      fs.walkSegments purpose onLink current segments := by
  induction segments generalizing current with
  | nil => rw [walkSegments, walkSegments]
  | cons segment rest ih => rw [walkSegments.eq_def, walkSegments.eq_def]; simp only [ih, h]

theorem followLink_congr (h : ∀ location, other.find? location = fs.find? location) (links : Nat) :
    other.followLink purpose links = fs.followLink purpose links := by
  induction links with
  | zero => rfl
  | succ links ih =>
      funext current target rest
      rw [followLink, followLink, walkSegments_congr h, ih]

/-- What an absolute path leads to does not depend on the working directory. -/
theorem locate_congr (h : ∀ location, other.find? location = fs.find? location) {p : Path}
    (hp : p.isAbsolute = true) : other.locate purpose p = fs.locate purpose p := by
  rw [locate, locate, hp, enter, enter, if_pos rfl, if_pos rfl, walk, walk,
    walkSegments_congr h, followLink_congr h]

theorem readText_congr (h : ∀ location, other.find? location = fs.find? location) {p : Path}
    (hp : p.isAbsolute = true) : other.readText p = fs.readText p := by
  rw [readText, readText, read, read, locate_congr h hp]

/-!
## What stands in a directory
-/

/-- Whether a directory has something under a name. A link has to lead to something. -/
def HasEntry (fs : Files) (directory : Location) (name : Segment) : Prop :=
  ∃ entry, fs.find? (directory ++ [name]) = some entry ∧
    ∀ target, entry = .link target →
      ∃ place, fs.followLink .target linkLimit directory target [] = .ok place ∧
        ∀ free, place ≠ .free free

theorem HasEntry.congr {directory : Location} {name : Segment}
    (h : ∀ location, other.find? location = fs.find? location) :
    other.HasEntry directory name ↔ fs.HasEntry directory name := by
  rw [HasEntry, HasEntry, followLink_congr h, h]

theorem nul_not_mem_ofRoot {location : Location} (h : ∀ s ∈ location, s.IsPathName) :
    .char '\x00' ∉ (Path.ofRoot location).parts := by
  induction location using List.reverseRecOn with
  | nil => simp [Path.ofRoot, Path.ofSegments]
  | append_singleton location name ih =>
      have hlocation : ∀ s ∈ location, s.IsPathName :=
        fun s hs => h s (List.mem_append_left [name] hs)
      have hname := (h name (by simp)).nul_not_mem
      have hrest := ih hlocation
      by_cases hne : location = []
      · subst hne
        simpa [Path.ofRoot, Path.ofSegments] using hname
      · rw [Path.ofRoot, Path.parts_ofSegments_concat hne]
        simp only [Path.ofRoot, List.mem_cons, List.mem_append, not_or] at hrest ⊢
        exact ⟨hrest.1, hrest.2, by decide, hname⟩

theorem WellFormed.walkFrom_root (hwf : fs.WellFormed) {directory : Location} {name : Segment}
    (hdirectory : fs.find? directory = some .directory) (h : ∀ s ∈ directory, s.IsPathName)
    (hname : name.IsPathName) (links : Nat) :
    fs.walkFrom purpose links (.standing []) ([] :: (directory ++ [name])) =
      fs.walkFrom purpose links (.standing directory) [name] := by
  have hsteps : Path.stepsOf directory = directory :=
    Path.stepsOf_eq_self fun s hs => (h s hs).isStepDown.1
  have hup : Segment.up ∉ Path.stepsOf directory := by
    rw [hsteps]
    intro hmem
    exact (h _ hmem).isStepDown.2 rfl
  have hshort : ∀ s ∈ Path.stepsOf directory, s.bytes.length ≤ nameLimit := by
    rw [hsteps]
    exact fun s hs => (h s hs).short
  have hfind : fs.find? ([] ++ Path.stepsOf directory) = some .directory := by
    rwa [hsteps, List.nil_append]
  have hleads : Leads fs links (.standing []) directory links (.standing directory) [] := by
    have hall := hwf.leads_of_directory hup hshort hfind links
    rwa [hsteps, List.nil_append] at hall
  rw [walkFrom_idle rfl,
    hleads.walkFrom_append (List.mem_singleton.mpr rfl)
      (Segment.isStepDown_ne_nil hname.isStepDown),
    List.nil_append]

theorem exists_place_iff {directory : Location} {name : Segment} (hname : name.IsPathName) :
    (∃ place, fs.walkFrom .target linkLimit (.standing directory) [name] = .ok place ∧
        ∀ free, place ≠ .free free) ↔ fs.HasEntry directory name := by
  rw [walkFrom_standing hname.isStepDown, Purpose.refuses_nil, if_neg Bool.false_ne_true,
    if_neg (Nat.not_lt_of_le hname.short), HasEntry]
  cases fs.find? (directory ++ [name]) with
  | none => simp
  | some entry =>
      cases entry with
      | file content => simp
      | link target => simp
      | directory => simp [walkFrom_nil, WorkingDirectory.place]

theorem WellFormed.isPresent_ofRoot_iff (hwf : fs.WellFormed) {directory : Location}
    {name : Segment} (hdirectory : fs.find? directory = some .directory)
    (h : ∀ s ∈ directory, s.IsPathName) (hname : name.IsPathName) :
    fs.isPresent (Path.ofRoot (directory ++ [name])) = true ↔
      (Path.ofRoot (directory ++ [name])).size ≤ pathLimit ∧ fs.HasEntry directory name := by
  have hall : ∀ s ∈ directory ++ [name], s.IsPathName :=
    List.forall_mem_append.mpr ⟨h, List.forall_mem_singleton.mpr hname⟩
  have hcheck : checkPath (Path.ofRoot (directory ++ [name])) = .ok () ↔
      (Path.ofRoot (directory ++ [name])).size ≤ pathLimit := by
    rw [checkPath_eq_ok_iff]
    constructor
    · intro hcheck
      exact hcheck.2.2
    · intro hsize
      exact ⟨nul_not_mem_ofRoot hall, rfl, hsize⟩
  have hwalk : ∀ place, fs.locate .target (Path.ofRoot (directory ++ [name])) = .ok place ↔
      (Path.ofRoot (directory ++ [name])).size ≤ pathLimit ∧
        fs.walkFrom .target linkLimit (.standing directory) [name] = .ok place := by
    intro place
    rw [locate_eq_ok_iff, hcheck, Path.segments_ofRoot_names hall (by simp)]
    show _ ∧ fs.walkFrom .target linkLimit (.standing []) _ = _ ↔ _
    rw [hwf.walkFrom_root hdirectory h hname]
  rw [isPresent_iff, ← exists_place_iff hname]
  simp only [hwalk]
  constructor
  · intro hpresent
    rcases hpresent with ⟨place, ⟨hsize, hplace⟩, hfree⟩
    exact ⟨hsize, place, hplace, hfree⟩
  · intro hpresent
    rcases hpresent with ⟨hsize, place, hplace, hfree⟩
    exact ⟨place, ⟨hsize, hplace⟩, hfree⟩

end Files

end StaticSite
