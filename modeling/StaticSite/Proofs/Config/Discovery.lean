import StaticSite.Config.Load
import StaticSite.Proofs.Config.Validation
import StaticSite.Proofs.Files.Locations
/-!
# Which configuration is found

The search for a configuration goes up from the working directory, one directory at a time, and
ends at the first one that has a file with the usual name, or at the root. So what it finds is
the nearest one, and it is the same from all directories to which it is the nearest. What is
loaded from there has its paths related to the directory of the file.
-/

namespace StaticSite.Config

open Files (standingAt pathLimit)

variable {fs : Files} {here nearest : Location}

def usualName : Segment := Segment.ofText "sx.toml"

def pathIn (directory : Location) : Path := .ofRoot (directory ++ [usualName])

/-- Whether a directory has a file under the usual name, with a path that is not too long. -/
def HasConfig (fs : Files) (directory : Location) : Prop :=
  (pathIn directory).size ≤ pathLimit ∧ fs.HasEntry directory usualName

/-- Whether a directory is the nearest one with some property: it is the given one or above it, and
all others of these that have the property are above it. -/
structure IsClosest (p : Location → Prop) (here nearest : Location) : Prop where
  above : nearest <+: here
  has : p nearest
  closest : ∀ directory, directory <+: here → p directory → directory <+: nearest

/-- Whether a directory is the nearest one that has a file with a configuration. -/
def IsNearest (fs : Files) (here nearest : Location) : Prop := IsClosest (HasConfig fs) here nearest

theorem isPathName_usualName : usualName.IsPathName := by
  decide

theorem join_fileName (h : ∀ s ∈ here, s.IsPathName) :
    (Path.ofRoot here).join fileName = pathIn here :=
  Path.ofRoot_join h isPathName_usualName

theorem directoryOf_pathIn (h : ∀ s ∈ here, s.IsPathName) :
    directoryOf (pathIn here) = .ofRoot here := by
  rw [directoryOf, pathIn, Path.parent?_ofRoot_concat h isPathName_usualName, Option.getD_some]

/-!
## Going upwards
-/

theorem upwards_concat (here : Location) (name : Segment) :
    upwards (here ++ [name]) = (here ++ [name]) :: upwards here := by
  have htake : ∀ n ∈ (List.range (here.length + 1)).reverse,
      (here ++ [name]).take n = here.take n := by
    intro n hn
    rw [List.mem_reverse, List.mem_range] at hn
    exact List.take_append_of_le_length (Nat.le_of_lt_succ hn)
  rw [upwards, List.length_append, List.length_singleton, List.range_succ, List.reverse_concat,
    List.map_cons, List.map_congr_left htake, upwards, ← List.length_singleton,
    ← List.length_append, List.take_length]

theorem mem_upwards {directory : Location} : directory ∈ upwards here ↔ directory <+: here := by
  induction here using List.reverseRecOn with
  | nil => rw [List.prefix_nil]; exact List.mem_singleton
  | append_singleton here name ih =>
      rw [upwards_concat, List.mem_cons, ih, List.prefix_concat_iff]

theorem isClosest_nil {p : Location → Prop} : IsClosest p [] nearest ↔ nearest = [] ∧ p [] := by
  constructor
  · intro h
    have hnearest := List.prefix_nil.mp h.above
    exact ⟨hnearest, hnearest ▸ h.has⟩
  · intro h
    rcases h with ⟨rfl, hp⟩
    exact ⟨List.prefix_rfl, hp, fun directory hdirectory _ => hdirectory⟩

theorem isClosest_concat_of_pos {p : Location → Prop} {name : Segment} (h : p (here ++ [name])) :
    IsClosest p (here ++ [name]) nearest ↔ nearest = here ++ [name] := by
  constructor
  · intro hclosest
    have hwhole := hclosest.closest _ List.prefix_rfl h
    exact hclosest.above.eq_of_length_le hwhole.length_le
  · rintro rfl
    exact ⟨List.prefix_rfl, h, fun directory hdirectory _ => hdirectory⟩

theorem isClosest_concat_of_neg {p : Location → Prop} {name : Segment} (h : ¬ p (here ++ [name])) :
    IsClosest p (here ++ [name]) nearest ↔ IsClosest p here nearest := by
  have hbelow : ∀ directory, p directory →
      (directory <+: here ++ [name] ↔ directory <+: here) := by
    intro directory hp
    rw [List.prefix_concat_iff, or_iff_right]
    rintro rfl
    exact h hp
  constructor
  · intro hclosest
    refine ⟨(hbelow nearest hclosest.has).mp hclosest.above, hclosest.has, ?_⟩
    intro directory hdirectory hp
    exact hclosest.closest directory ((hbelow directory hp).mpr hdirectory) hp
  · intro hclosest
    refine ⟨(hbelow nearest hclosest.has).mpr hclosest.above, hclosest.has, ?_⟩
    intro directory hdirectory hp
    exact hclosest.closest directory ((hbelow directory hp).mp hdirectory) hp

/-- Going upwards ends at the closest directory that will do. -/
theorem find?_upwards_eq_some_iff {p : Location → Bool} :
    (upwards here).find? p = some nearest ↔ IsClosest (p · = true) here nearest := by
  induction here using List.reverseRecOn with
  | nil =>
      show List.find? p [[]] = some nearest ↔ _
      rw [List.find?_singleton, isClosest_nil]
      cases p [] <;> simp [eq_comm]
  | append_singleton here name ih =>
      rw [upwards_concat, List.find?_cons]
      cases hname : p (here ++ [name]) with
      | true =>
          rw [isClosest_concat_of_pos hname]
          simp [eq_comm]
      | false =>
          rw [isClosest_concat_of_neg (by simp [hname])]
          exact ih

theorem IsClosest.congr {p q : Location → Prop}
    (h : ∀ directory, directory <+: here → (p directory ↔ q directory)) :
    IsClosest p here nearest ↔ IsClosest q here nearest := by
  constructor
  · intro hclosest
    refine ⟨hclosest.above, (h _ hclosest.above).mp hclosest.has, ?_⟩
    intro directory hdirectory hq
    exact hclosest.closest directory hdirectory ((h directory hdirectory).mpr hq)
  · intro hclosest
    refine ⟨hclosest.above, (h _ hclosest.above).mpr hclosest.has, ?_⟩
    intro directory hdirectory hp
    exact hclosest.closest directory hdirectory ((h directory hdirectory).mp hp)

/-!
## What is found
-/

theorem names_above {directory : Location} (h : ∀ s ∈ here, s.IsPathName)
    (hdirectory : directory <+: here) : ∀ s ∈ directory, s.IsPathName :=
  fun s hs => h s (hdirectory.subset hs)

theorem HasConfig.congr {other : Files} {directory : Location}
    (h : ∀ location, other.find? location = fs.find? location) :
    HasConfig other directory ↔ HasConfig fs directory := by
  rw [HasConfig, HasConfig, Files.HasEntry.congr h]

theorem isPresent_pathIn_iff (hwf : (fs.standingAt here).WellFormed)
    (h : ∀ s ∈ here, s.IsPathName) {directory : Location} (hdirectory : directory <+: here) :
    (fs.standingAt here).isPresent (pathIn directory) = true ↔ HasConfig fs directory := by
  have hbase : (fs.standingAt here).find? here = some .directory := hwf.base
  have hstands : (fs.standingAt here).find? directory = some .directory := by
    rcases hdirectory with ⟨rest, rfl⟩
    by_cases hrest : rest = []
    · rwa [hrest, List.append_nil] at hbase
    · exact hwf.find?_of_append hrest hbase
  rw [pathIn, hwf.isPresent_ofRoot_iff hstands (names_above h hdirectory) isPathName_usualName]
  exact HasConfig.congr fun _ => rfl

theorem discover?_standingAt (h : ∀ s ∈ here, s.IsPathName) :
    discover? (fs.standingAt here) =
      ((upwards here).find? fun directory =>
        (fs.standingAt here).isPresent (pathIn directory)).map pathIn := by
  have hpaths : (upwards here).map (fun above => (Path.ofRoot above).join fileName) =
      (upwards here).map pathIn := by
    apply List.map_congr_left
    intro directory hdirectory
    exact join_fileName (names_above h (mem_upwards.mp hdirectory))
  show nearest? _ here = _
  rw [nearest?, hpaths, List.find?_map]
  rfl

theorem find?_upwards_iff (hwf : (fs.standingAt here).WellFormed) (h : ∀ s ∈ here, s.IsPathName) :
    ((upwards here).find? fun directory =>
        (fs.standingAt here).isPresent (pathIn directory)) = some nearest ↔
      IsNearest fs here nearest := by
  rw [find?_upwards_eq_some_iff]
  exact IsClosest.congr fun directory hdirectory => isPresent_pathIn_iff hwf h hdirectory

theorem discover?_eq_some_iff (hwf : (fs.standingAt here).WellFormed)
    (h : ∀ s ∈ here, s.IsPathName) {p : Path} :
    discover? (fs.standingAt here) = some p ↔
      ∃ nearest, IsNearest fs here nearest ∧ p = pathIn nearest := by
  rw [discover?_standingAt h, Option.map_eq_some_iff]
  simp only [find?_upwards_iff hwf h, eq_comm]

theorem discover?_eq_none_iff (hwf : (fs.standingAt here).WellFormed)
    (h : ∀ s ∈ here, s.IsPathName) :
    discover? (fs.standingAt here) = none ↔
      ∀ directory, directory <+: here → ¬ HasConfig fs directory := by
  rw [discover?_standingAt h, Option.map_eq_none_iff, List.find?_eq_none]
  simp only [mem_upwards]
  constructor
  · intro hnone directory hdirectory
    rw [← isPresent_pathIn_iff hwf h hdirectory]
    exact hnone directory hdirectory
  · intro hnone directory hdirectory
    rw [isPresent_pathIn_iff hwf h hdirectory]
    exact hnone directory hdirectory

/-!
## What is loaded
-/

/-- What a text says with its variables replaced, before its paths are related to a directory. -/
def written (env : Environment) (text : String) : Except ConfigError Config :=
  match Toml.Document.read? text with
  | none => malformed
  | some members => do expandAll env (← ofMembers members)

theorem isAbsolute_pathIn (directory : Location) : (pathIn directory).isAbsolute = true := rfl

theorem isAbsolute_join_ofRoot (directory : Location) (p : Path) :
    ((Path.ofRoot directory).join p).isAbsolute = true := by
  cases hp : p.isAbsolute with
  | true => rw [Path.join, if_pos hp, hp]
  | false => exact Path.isAbsolute_join rfl hp

theorem ofText_eq_ok {env : Environment} {base : Path} {text : String} {config : Config}
    (h : ofText env base text = .ok config) :
    ∃ source, written env text = .ok source ∧ config = source.resolvePaths base := by
  unfold ofText at h
  unfold written
  cases hread : Toml.Document.read? text with
  | none =>
      rw [hread] at h
      cases h
  | some members =>
      rw [hread] at h
      rcases bind_eq_ok h with ⟨described, hdescribed, h⟩
      rcases bind_eq_ok h with ⟨expanded, hexpanded, h⟩
      rcases bind_eq_ok h with ⟨⟨⟩, -, h⟩
      cases h
      refine ⟨expanded, ?_, rfl⟩
      show (ofMembers members >>= expandAll env) = _
      rw [hdescribed]
      exact hexpanded

theorem ofFile_standingAt (fs : Files) (here directory : Location) (env : Environment) :
    ofFile env (fs.standingAt here) (pathIn directory) = ofFile env fs (pathIn directory) := by
  have hread := Files.readText_congr (Files.find?_standingAt fs here) (isAbsolute_pathIn directory)
  rw [ofFile, ofFile, hread]

theorem ofFile_eq_ok {env : Environment} {p : Path} {config : Config}
    (h : ofFile env fs p = .ok config) :
    ∃ text source, fs.readText p = .ok text ∧ written env text = .ok source ∧
      config = { source.resolvePaths (directoryOf p) with configPath := some p } := by
  unfold ofFile at h
  split at h
  · cases h
  · next text htext =>
      rcases bind_eq_ok h with ⟨read, hread, h⟩
      rcases ofText_eq_ok hread with ⟨source, hsource, rfl⟩
      cases h
      exact ⟨text, source, htext, hsource, rfl⟩

theorem locateAndLoad_nearest (hwf : (fs.standingAt here).WellFormed)
    (h : ∀ s ∈ here, s.IsPathName) (hnearest : IsNearest fs here nearest) (env : Environment) :
    locateAndLoad env (fs.standingAt here) none = ofFile env fs (pathIn nearest) := by
  have hdiscover : discover? (fs.standingAt here) = some (pathIn nearest) :=
    (discover?_eq_some_iff hwf h).mpr ⟨nearest, hnearest, rfl⟩
  rw [locateAndLoad, hdiscover]
  exact ofFile_standingAt fs here nearest env

theorem locateAndLoad_pathIn (hwf : (fs.standingAt here).WellFormed)
    (h : ∀ s ∈ here, s.IsPathName) (hnearest : IsNearest fs here nearest) (env : Environment) :
    locateAndLoad env (fs.standingAt here) (some (pathIn nearest)) =
      ofFile env fs (pathIn nearest) := by
  rw [locateAndLoad, if_pos ((isPresent_pathIn_iff hwf h hnearest.above).mpr hnearest.has),
    ofFile_standingAt]

theorem outDir_resolvePaths (base : Path) (source : Config) :
    (source.resolvePaths base).outDir = base.join (.ofText (source.site.outDir.getD "site")) := by
  rw [resolvePaths, defaultOutDir]
  cases source.site.outDir <;> rfl

theorem isAbsolute_of_resolveEntry {entry : PageEntry} {p : Path}
    (h : (resolveEntry (.ofRoot here) entry).source = some p) : p.isAbsolute = true := by
  rcases Option.map_eq_some_iff.mp h with ⟨q, -, rfl⟩
  exact isAbsolute_join_ofRoot here q

/-- What is found is the nearest configuration, if there is one. What is loaded from there is
the same from everywhere to which it is the nearest, and the same as if the file had been
given. All its paths are related to the directory of the file. -/
theorem load_from_nearest (fs : Files) (here : Location)
    (hwf : (fs.standingAt here).WellFormed) (hnames : ∀ name ∈ here, name.IsPathName) :
    (∀ p, discover? (fs.standingAt here) = some p ↔
      ∃ nearest, IsNearest fs here nearest ∧ p = pathIn nearest) ∧
    (discover? (fs.standingAt here) = none ↔
      ∀ directory, directory <+: here → ¬ HasConfig fs directory) ∧
    ∀ nearest, IsNearest fs here nearest → ∀ env out?,
      load env (fs.standingAt here) none out? =
        load env (fs.standingAt here) (some (pathIn nearest)) out? ∧
      (∀ there, (fs.standingAt there).WellFormed → (∀ name ∈ there, name.IsPathName) →
        IsNearest fs there nearest →
        load env (fs.standingAt there) none out? = load env (fs.standingAt here) none out?) ∧
      ∀ config, load env (fs.standingAt here) none out? = .ok config →
        ∃ text source, fs.readText (pathIn nearest) = .ok text ∧
          written env text = .ok source ∧
          config.configPath = some (pathIn nearest) ∧ config.site = source.site ∧
          config.outDir =
            out?.getD ((Path.ofRoot nearest).join (.ofText (source.site.outDir.getD "site"))) ∧
          config.pages = source.pages.map (fun entry =>
            { entry with source := entry.source.map (Path.ofRoot nearest).join }) ∧
          (out? = none → config.outDir.isAbsolute = true) ∧
          ∀ entry ∈ config.pages, ∀ p, entry.source = some p → p.isAbsolute = true := by
  constructor
  · intro p
    exact discover?_eq_some_iff hwf hnames
  constructor
  · exact discover?_eq_none_iff hwf hnames
  intro nearest hnearest env out?
  have hfile := locateAndLoad_nearest hwf hnames hnearest env
  refine ⟨?_, ?_, ?_⟩
  · rw [load, load, hfile, locateAndLoad_pathIn hwf hnames hnearest env]
  · intro there hwf' hnames' hnearest'
    rw [load, load, hfile, locateAndLoad_nearest hwf' hnames' hnearest' env]
  · intro config h
    rw [load, hfile] at h
    rcases bind_eq_ok h with ⟨located, hlocated, h⟩
    cases h
    rcases ofFile_eq_ok hlocated with ⟨text, source, htext, hsource, rfl⟩
    rw [directoryOf_pathIn (names_above hnames hnearest.above)]
    refine ⟨text, source, htext, hsource, rfl, rfl, ?_, rfl, ?_, ?_⟩
    · rw [← outDir_resolvePaths]
    · rintro rfl
      exact isAbsolute_join_ofRoot nearest _
    · intro entry hentry p hp
      rcases List.mem_map.mp hentry with ⟨read, -, rfl⟩
      exact isAbsolute_of_resolveEntry hp

theorem load_from_nearest_above :
    let a := Segment.ofText "a"
    let b := Segment.ofText "b"
    let text := "[[pages]]\nsource = \"x\"\ntitle = \"A\"\nurl = \"a\"\n"
    let fs : Files :=
      { entries := [([a], .directory), ([a, b], .directory),
          ([a, usualName], .file (Utf8.encode text))] }
    let env : Environment := fun _ => none
    let loaded : Config :=
      { pages := [⟨"A", "a", some (.ofText "/a/x"), none⟩], outDir := .ofText "/a/site",
        configPath := some (.ofText "/a/sx.toml") }
    (fs.standingAt [a, b]).WellFormed ∧ (∀ name ∈ [a, b], name.IsPathName) ∧
      IsNearest fs [a, b] [a] ∧ discover? (fs.standingAt [a, b]) = some (pathIn [a]) ∧
      load env (fs.standingAt [a, b]) none none = .ok loaded ∧
      load env (fs.standingAt [a, b]) (some (pathIn [a])) none = .ok loaded ∧
      load env (fs.standingAt [a]) none none = .ok loaded ∧
      ∀ entry ∈ loaded.pages, ∀ p, entry.source = some p → p.isAbsolute = true := by
  intro a b text fs env loaded
  have hwf : ∀ here ∈ [[a], [a, b]], (fs.standingAt here).WellFormed := by
    intro here hhere
    constructor
    · show (fs.entries.map Prod.fst).Nodup
      decide
    · show ∀ location ∈ fs.entries.map Prod.fst, location ≠ []
      decide
    · show ∀ location ∈ fs.entries.map Prod.fst, fs.find? location.dropLast = some .directory
      decide
    · show fs.find? here = some .directory
      revert hhere
      revert here
      decide
  have hnames : ∀ name ∈ [a, b], name.IsPathName := by
    decide
  have hhas : HasConfig fs [a] := ⟨by decide, _, rfl, fun target htarget => by cases htarget⟩
  have hnearest : IsNearest fs [a, b] [a] := by
    constructor
    · exact List.prefix_append [a] [b]
    · exact hhas
    · intro directory hdirectory hconfig
      rcases List.prefix_concat_iff.mp
        (show directory <+: [a] ++ [b] from hdirectory) with
        rfl | hdirectory
      · rcases hconfig.2 with ⟨entry, hentry, -⟩
        cases hentry
      · exact hdirectory
  have hself : IsNearest fs [a] [a] := ⟨List.prefix_rfl, hhas, fun _ hdirectory _ => hdirectory⟩
  have hloaded : load env (fs.standingAt [a, b]) none none = .ok loaded := by
    have htext : fs.readText (pathIn [a]) = .ok text := eq_ok_of_toOption (by decide +kernel)
    rw [load, locateAndLoad_nearest (hwf _ (by simp)) hnames hnearest, ofFile, htext]
    show ((ofText env _ text >>= _) >>= _) = _
    rw [ofText_of_isPage (show (_ : Option _).any (isPage "x" "A" "a") = true by decide +kernel)]
    exact eq_ok_of_toOption (by decide +kernel)
  rcases load_from_nearest fs [a, b] (hwf _ (by simp)) hnames with ⟨hdiscover, -, hload⟩
  rcases hload [a] hnearest env none with ⟨hgiven, hthere, hall⟩
  refine ⟨hwf _ (by simp), hnames, hnearest, (hdiscover _).mpr ⟨[a], hnearest, rfl⟩, hloaded,
    hgiven.symm.trans hloaded, ?_, ?_⟩
  · exact (hthere [a] (hwf _ (by simp))
      (fun name hname => hnames name (List.mem_append_left [b] hname)) hself).trans hloaded
  · rcases hall loaded hloaded with ⟨-, -, -, -, -, -, -, -, -, habsolute⟩
    exact habsolute

/-!
## What the search passes over
-/

/-- Whether a directory has anything under the usual name. -/
def HasName (fs : Files) (directory : Location) : Prop :=
  ∃ entry, fs.find? (directory ++ [usualName]) = some entry

/-- A file is passed over if its path is too long. -/
theorem not_forall_discover?_nearest :
    ¬ ∀ (fs : Files) (here nearest : Location), (fs.standingAt here).WellFormed →
      (∀ name ∈ here, name.IsPathName) → IsClosest (HasName fs) here nearest →
      discover? (fs.standingAt here) = some (pathIn nearest) := by
  intro hall
  let here : Location := List.replicate 17 (List.replicate 250 (.char 'n'))
  let fs : Files :=
    { entries := (here.inits.tail.map fun above => (above, Entry.directory)) ++
        [(here ++ [usualName], .file [])] }
  have hwf : (fs.standingAt here).WellFormed := by decide +kernel
  have hnames : ∀ name ∈ here, name.IsPathName := by decide +kernel
  have hhas : HasName fs here := ⟨.file [], by decide +kernel⟩
  have hclosest : IsClosest (HasName fs) here here :=
    ⟨List.prefix_rfl, hhas, fun _ hdirectory _ => hdirectory⟩
  rcases (discover?_eq_some_iff hwf hnames).mp (hall fs here here hwf hnames hclosest) with
    ⟨nearest, hnearest, hpath⟩
  have hsize := hnearest.has.1
  rw [← hpath] at hsize
  revert hsize
  decide +kernel

/-- A link is passed over if it leads to nothing. -/
theorem not_forall_discover?_nearest_of_short :
    ¬ ∀ (fs : Files) (here nearest : Location), (fs.standingAt here).WellFormed →
      (∀ name ∈ here, name.IsPathName) → (pathIn here).size ≤ pathLimit →
      IsClosest (HasName fs) here nearest →
      discover? (fs.standingAt here) = some (pathIn nearest) := by
  intro hall
  let fs : Files := { entries := [([usualName], .link (.ofText "a"))] }
  have hclosest : IsClosest (HasName fs) [] [] := isClosest_nil.mpr ⟨rfl, _, rfl⟩
  have hdiscover := hall fs [] [] (by decide) (by simp) (by decide) hclosest
  revert hdiscover
  decide +kernel

end StaticSite.Config
