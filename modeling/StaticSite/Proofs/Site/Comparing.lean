import StaticSite.Proofs.Site.Collecting
/-!
# What a comparison says

If all files of two directories can be read, and all directories below them can be opened,
then a comparison says of each file that stands in only one of them that it is missing or
not expected, and of each that stands in both of them with different contents what these
are, and nothing else.
-/

namespace StaticSite

namespace Difference

def path : Difference → Path
  | .missing path => path
  | .mismatch path _ _ => path
  | .unexpected path => path

def isUnexpected : Difference → Bool
  | .unexpected _ => true
  | _ => false

def swap : Difference → Difference
  | .missing path => .unexpected path
  | .mismatch path expected actual => .mismatch path actual expected
  | .unexpected path => .missing path

@[simp] theorem swap_swap (d : Difference) : d.swap.swap = d := by
  cases d <;> rfl

end Difference

namespace Compare

open Files

variable {fs : Files} {root expected actual : Path} {top place file : Location}
  {files actualFiles expectedFiles : List Location} {d : Difference}

/-!
## Files in order
-/

/-- The files below a directory, in the order of their paths. -/
structure AreFiles (fs : Files) (root : Path) (files : List Location) : Prop where
  mem_iff : ∀ place, place ∈ files ↔ fs.HoldsFile root place
  named : ∀ place ∈ files, place.IsNamed
  ordered : files.Pairwise fun a b => (Path.ofSegments a).names < (Path.ofSegments b).names

theorem AreFiles.ne_nil (h : AreFiles fs root files) (hplace : place ∈ files) : place ≠ [] := by
  rcases (h.mem_iff place).mp hplace with ⟨entry, hstands, -⟩
  exact hstands.ne_nil

theorem IsOpenAt.areFiles (h : IsOpenAt fs root top) (hwf : fs.WellFormed) :
    AreFiles fs root ((fs.filesBelow top).mergeSort Location.precedes) := by
  have hmem : ∀ place, place ∈ (fs.filesBelow top).mergeSort Location.precedes ↔
      fs.HoldsFile root place := by
    intro place
    rw [(List.mergeSort_perm _ _).mem_iff, mem_filesBelow_iff_holdsFile hwf h.locate]
  have hnames : ∀ place ∈ (fs.filesBelow top).mergeSort Location.precedes,
      place.IsNamed ∧ place ≠ [] := by
    intro place hplace
    rcases (hmem place).mp hplace with ⟨entry, hstands, -⟩
    exact ⟨h.named place entry hstands, hstands.ne_nil⟩
  refine ⟨hmem, fun place hplace => (hnames place hplace).1, ?_⟩
  have hsorted := Location.pairwise_mergeSort (fun place hplace =>
    (hnames place ((List.mergeSort_perm _ _).mem_iff.mpr hplace)).1) (nodup_filesBelow hwf top)
  refine hsorted.imp_of_mem ?_
  intro a b ha hb hab
  rwa [Path.names_ofSegments (hnames a ha).1 (hnames a ha).2,
    Path.names_ofSegments (hnames b hb).1 (hnames b hb).2]

theorem areFiles_of_removed (h : fs.locate .target root = .ok .removed) : AreFiles fs root [] := by
  refine ⟨?_, List.forall_mem_nil _, List.Pairwise.nil⟩
  intro place
  constructor
  · intro hmem
    cases hmem
  · intro hfile
    rcases hfile with ⟨entry, ⟨top, htop, -⟩, -⟩
    rw [h] at htop
    cases htop

theorem collect_eq_ok (hwf : fs.WellFormed)
    (hnamed : ∀ place entry, fs.StandsBelow root place entry → place.IsNamed)
    (hroot : fs.isDirectory root = true) (hopens : OpensDirectories fs root) :
    ∃ files, collect fs root = .ok files ∧ AreFiles fs root files := by
  unfold isDirectory at hroot
  split at hroot
  · next top htop =>
      have hopen : IsOpenAt fs root top := ⟨htop, hnamed⟩
      exact ⟨_, collect_eq_mergeSort hwf hopen hopens, hopen.areFiles hwf⟩
  · next hremoved => exact ⟨[], collect_of_removed hremoved, areFiles_of_removed hremoved⟩
  · cases hroot

/-!
## Comparing files
-/

def IsReadBoth (fs : Files) (expected actual : Path) (file : Location) : Prop :=
  ∃ x y, fs.read (pathBelow expected file) = .ok x ∧ fs.read (pathBelow actual file) = .ok y

def differenceAt (fs : Files) (expected actual : Path) (actualFiles : List Location)
    (file : Location) : Option Difference :=
  match difference? fs expected actual actualFiles file with
  | .ok found => found
  | .error _ => none

theorem difference?_of_not_mem (h : file ∉ actualFiles) :
    difference? fs expected actual actualFiles file =
      .ok (some (.missing (.ofSegments file))) := by
  rw [difference?, if_neg (by simpa using h)]

theorem difference?_of_mem {x y : List UInt8} (h : file ∈ actualFiles)
    (hx : fs.read (pathBelow expected file) = .ok x)
    (hy : fs.read (pathBelow actual file) = .ok y) :
    difference? fs expected actual actualFiles file =
      .ok (if x = y then none
        else some (.mismatch (.ofSegments file) (Utf8.decodeLossy x) (Utf8.decodeLossy y))) := by
  rw [difference?, if_pos (by simpa using h)]
  simp only [readBelow, hx, hy, reported, Bind.bind, Except.bind]
  split <;> rfl

theorem differences_eq_ok
    (h : ∀ file ∈ files, file ∈ actualFiles → IsReadBoth fs expected actual file) :
    differences fs expected actual actualFiles files =
      .ok (files.filterMap (differenceAt fs expected actual actualFiles)) := by
  induction files with
  | nil => rfl
  | cons file rest ih =>
      rw [List.forall_mem_cons] at h
      obtain ⟨found, hfound⟩ : ∃ found,
          difference? fs expected actual actualFiles file = .ok found := by
        by_cases hmem : file ∈ actualFiles
        · rcases h.1 hmem with ⟨x, y, hx, hy⟩
          exact ⟨_, difference?_of_mem hmem hx hy⟩
        · exact ⟨_, difference?_of_not_mem hmem⟩
      have hat : differenceAt fs expected actual actualFiles file = found := by
        rw [differenceAt, hfound]
      rw [differences, hfound, ih h.2, List.filterMap_cons, hat]
      cases found with
      | none => rfl
      | some d => rfl

/-- What is found at a file that is expected. -/
inductive IsFoundAt (fs : Files) (expected actual : Path) (actualFiles : List Location)
    (file : Location) : Difference → Prop where
  | missing : file ∉ actualFiles →
      IsFoundAt fs expected actual actualFiles file (.missing (.ofSegments file))
  | mismatch {x y : List UInt8} : file ∈ actualFiles →
      fs.read (pathBelow expected file) = .ok x → fs.read (pathBelow actual file) = .ok y →
      x ≠ y → IsFoundAt fs expected actual actualFiles file
        (.mismatch (.ofSegments file) (Utf8.decodeLossy x) (Utf8.decodeLossy y))

theorem IsFoundAt.path_eq (h : IsFoundAt fs expected actual actualFiles file d) :
    d.path = .ofSegments file := by
  cases h with
  | missing _ => rfl
  | mismatch _ _ _ _ => rfl

theorem IsFoundAt.isUnexpected_eq (h : IsFoundAt fs expected actual actualFiles file d) :
    d.isUnexpected = false := by
  cases h with
  | missing _ => rfl
  | mismatch _ _ _ _ => rfl

theorem differenceAt_eq_some_iff
    (h : file ∈ actualFiles → IsReadBoth fs expected actual file) :
    differenceAt fs expected actual actualFiles file = some d ↔
      IsFoundAt fs expected actual actualFiles file d := by
  by_cases hmem : file ∈ actualFiles
  · rcases h hmem with ⟨x, y, hx, hy⟩
    rw [differenceAt, difference?_of_mem hmem hx hy]
    constructor
    · intro heq
      dsimp only at heq
      split at heq
      · cases heq
      · next hne =>
          cases heq
          exact .mismatch hmem hx hy hne
    · intro hfound
      cases hfound with
      | missing hnot => exact absurd hmem hnot
      | mismatch _ hx' hy' hne =>
          rw [hx] at hx'
          rw [hy] at hy'
          cases hx'
          cases hy'
          exact if_neg hne
  · rw [differenceAt, difference?_of_not_mem hmem]
    constructor
    · intro heq
      cases heq
      exact .missing hmem
    · intro hfound
      cases hfound with
      | missing _ => rfl
      | mismatch hmem' _ _ _ => exact absurd hmem' hmem

/-!
## Comparing directories
-/

/-- The differences between two directories, given where their files are. -/
def differencesAt (fs : Files) (expected actual : Path)
    (expectedFiles actualFiles : List Location) : List Difference :=
  expectedFiles.filterMap (differenceAt fs expected actual actualFiles) ++
    (actualFiles.filter (!expectedFiles.contains ·)).map fun file => .unexpected (.ofSegments file)

theorem compareDirectories_eq_ok (hexpected : collect fs expected = .ok expectedFiles)
    (hactual : collect fs actual = .ok actualFiles)
    (h : ∀ file ∈ expectedFiles, file ∈ actualFiles → IsReadBoth fs expected actual file) :
    compareDirectories fs expected actual =
      .ok (differencesAt fs expected actual expectedFiles actualFiles) := by
  rw [compareDirectories, hexpected, hactual]
  simp only [Bind.bind, Except.bind, differences_eq_ok h]
  rfl

/-- What a comparison has to say: each difference at the path of a file, and each once, those
at files that are expected before those at others, and both in the order of their paths. -/
structure IsComparison (fs : Files) (expected actual : Path) (found : List Difference) :
    Prop where
  missing_iff : ∀ p, .missing p ∈ found ↔
    ∃ place, p = .ofSegments place ∧ fs.HoldsFile expected place ∧ ¬ fs.HoldsFile actual place
  mismatch_iff : ∀ p wanted given, .mismatch p wanted given ∈ found ↔
    ∃ place x y, p = .ofSegments place ∧ fs.HoldsFile expected place ∧
      fs.HoldsFile actual place ∧ fs.read (pathBelow expected place) = .ok x ∧
      fs.read (pathBelow actual place) = .ok y ∧ x ≠ y ∧
      wanted = Utf8.decodeLossy x ∧ given = Utf8.decodeLossy y
  unexpected_iff : ∀ p, .unexpected p ∈ found ↔
    ∃ place, p = .ofSegments place ∧ fs.HoldsFile actual place ∧ ¬ fs.HoldsFile expected place
  nodup : (found.map Difference.path).Nodup
  ordered : ∃ first others, found = first ++ others ∧
    (∀ d ∈ first, d.isUnexpected = false) ∧ (∀ d ∈ others, d.isUnexpected = true) ∧
    (first.Pairwise fun d e => d.path.names < e.path.names) ∧
    others.Pairwise fun d e => d.path.names < e.path.names

section

variable (hexpected : AreFiles fs expected expectedFiles) (hactual : AreFiles fs actual actualFiles)
  (hread : ∀ file ∈ expectedFiles, file ∈ actualFiles → IsReadBoth fs expected actual file)

include hread in
theorem mem_filterMap_differenceAt :
    d ∈ expectedFiles.filterMap (differenceAt fs expected actual actualFiles) ↔
      ∃ file ∈ expectedFiles, IsFoundAt fs expected actual actualFiles file d := by
  rw [List.mem_filterMap]
  apply exists_congr
  intro file
  apply and_congr_right
  intro hfile
  exact differenceAt_eq_some_iff (hread file hfile)

theorem mem_map_unexpected :
    d ∈ (actualFiles.filter (!expectedFiles.contains ·)).map
        (fun file => Difference.unexpected (.ofSegments file)) ↔
      ∃ file ∈ actualFiles, file ∉ expectedFiles ∧ d = .unexpected (.ofSegments file) := by
  rw [List.mem_map]
  constructor
  · intro h
    rcases h with ⟨file, hfile, rfl⟩
    rw [List.mem_filter] at hfile
    exact ⟨file, hfile.1, by simpa using hfile.2, rfl⟩
  · intro h
    rcases h with ⟨file, hfile, hnot, rfl⟩
    exact ⟨file, List.mem_filter.mpr ⟨hfile, by simpa using hnot⟩, rfl⟩

include hread in
theorem mem_differencesAt_iff :
    d ∈ differencesAt fs expected actual expectedFiles actualFiles ↔
      (∃ file ∈ expectedFiles, IsFoundAt fs expected actual actualFiles file d) ∨
        ∃ file ∈ actualFiles, file ∉ expectedFiles ∧ d = .unexpected (.ofSegments file) := by
  rw [differencesAt, List.mem_append, mem_filterMap_differenceAt hread, mem_map_unexpected]

include hexpected hread in
theorem pairwise_filterMap_differenceAt :
    (expectedFiles.filterMap (differenceAt fs expected actual actualFiles)).Pairwise
      fun d e => d.path.names < e.path.names := by
  rw [List.pairwise_filterMap]
  refine hexpected.ordered.imp_of_mem ?_
  intro a b ha hb hab d hd e he
  rwa [((differenceAt_eq_some_iff (hread a ha)).mp hd).path_eq,
    ((differenceAt_eq_some_iff (hread b hb)).mp he).path_eq]

include hactual in
theorem pairwise_map_unexpected :
    ((actualFiles.filter (!expectedFiles.contains ·)).map
      fun file => Difference.unexpected (.ofSegments file)).Pairwise
        fun d e => d.path.names < e.path.names := by
  rw [List.pairwise_map]
  exact hactual.ordered.filter _

theorem nodup_of_pairwise {found : List Difference}
    (h : found.Pairwise fun d e => d.path.names < e.path.names) :
    (found.map Difference.path).Nodup := by
  rw [List.Nodup, List.pairwise_map]
  refine h.imp ?_
  intro d e hde hsame
  rw [hsame] at hde
  exact List.lt_irrefl _ hde

include hexpected hactual hread in
theorem nodup_differencesAt :
    ((differencesAt fs expected actual expectedFiles actualFiles).map Difference.path).Nodup := by
  rw [differencesAt, List.map_append, List.nodup_append]
  refine ⟨nodup_of_pairwise (pairwise_filterMap_differenceAt hexpected hread),
    nodup_of_pairwise (pairwise_map_unexpected hactual), ?_⟩
  intro p hp q hq hsame
  rcases List.mem_map.mp hp with ⟨d, hd, rfl⟩
  rcases List.mem_map.mp hq with ⟨e, he, rfl⟩
  rcases (mem_filterMap_differenceAt hread).mp hd with ⟨file, hfile, hfound⟩
  rcases mem_map_unexpected.mp he with ⟨file', hfile', hnot, rfl⟩
  rw [hfound.path_eq] at hsame
  have hplace := Path.ofSegments_inj (hexpected.named file hfile)
    (hactual.named file' hfile') (hexpected.ne_nil hfile) (hactual.ne_nil hfile') hsame
  exact hnot (hplace ▸ hfile)

include hexpected hactual hread in
theorem isComparison_differencesAt :
    IsComparison fs expected actual
      (differencesAt fs expected actual expectedFiles actualFiles) := by
  constructor
  · intro p
    rw [mem_differencesAt_iff hread]
    constructor
    · intro h
      rcases h with ⟨file, hfile, hfound⟩ | ⟨file, -, -, heq⟩
      · cases hfound with
        | missing hnot =>
            exact ⟨file, rfl, (hexpected.mem_iff file).mp hfile,
              fun h => hnot ((hactual.mem_iff file).mpr h)⟩
      · cases heq
    · intro h
      rcases h with ⟨place, rfl, hplace, hnot⟩
      exact Or.inl ⟨place, (hexpected.mem_iff place).mpr hplace,
        .missing fun h => hnot ((hactual.mem_iff place).mp h)⟩
  · intro p wanted given
    rw [mem_differencesAt_iff hread]
    constructor
    · intro h
      rcases h with ⟨file, hfile, hfound⟩ | ⟨file, -, -, heq⟩
      · cases hfound with
        | mismatch hmem hx hy hne =>
            exact ⟨file, _, _, rfl, (hexpected.mem_iff file).mp hfile,
              (hactual.mem_iff file).mp hmem, hx, hy, hne, rfl, rfl⟩
      · cases heq
    · intro h
      rcases h with ⟨place, x, y, rfl, hplace, hplace', hx, hy, hne, rfl, rfl⟩
      exact Or.inl ⟨place, (hexpected.mem_iff place).mpr hplace,
        .mismatch ((hactual.mem_iff place).mpr hplace') hx hy hne⟩
  · intro p
    rw [mem_differencesAt_iff hread]
    constructor
    · intro h
      rcases h with ⟨file, -, hfound⟩ | ⟨file, hfile, hnot, heq⟩
      · cases hfound
      · cases heq
        exact ⟨file, rfl, (hactual.mem_iff file).mp hfile,
          fun h => hnot ((hexpected.mem_iff file).mpr h)⟩
    · intro h
      rcases h with ⟨place, rfl, hplace, hnot⟩
      exact Or.inr ⟨place, (hactual.mem_iff place).mpr hplace,
        fun h => hnot ((hexpected.mem_iff place).mp h), rfl⟩
  · exact nodup_differencesAt hexpected hactual hread
  · refine ⟨_, _, rfl, ?_, ?_, pairwise_filterMap_differenceAt hexpected hread,
      pairwise_map_unexpected hactual⟩
    · intro d hd
      rcases (mem_filterMap_differenceAt hread).mp hd with ⟨file, -, hfound⟩
      exact hfound.isUnexpected_eq
    · intro d hd
      rcases mem_map_unexpected.mp hd with ⟨file, -, -, rfl⟩
      rfl

end

/-!
## The two directions
-/

theorem IsComparison.mem_swap_iff {found swapped : List Difference}
    (h : IsComparison fs expected actual found) (h' : IsComparison fs actual expected swapped) :
    d ∈ swapped ↔ d.swap ∈ found := by
  cases d with
  | missing p => rw [h'.missing_iff, Difference.swap, h.unexpected_iff]
  | unexpected p => rw [h'.unexpected_iff, Difference.swap, h.missing_iff]
  | mismatch p wanted given =>
      rw [h'.mismatch_iff, Difference.swap, h.mismatch_iff]
      constructor
      · intro hmem
        rcases hmem with ⟨place, x, y, hp, hplace, hplace', hx, hy, hne, hwanted, hgiven⟩
        exact ⟨place, y, x, hp, hplace', hplace, hy, hx, hne.symm, hgiven, hwanted⟩
      · intro hmem
        rcases hmem with ⟨place, x, y, hp, hplace, hplace', hx, hy, hne, hwanted, hgiven⟩
        exact ⟨place, y, x, hp, hplace', hplace, hy, hx, hne.symm, hgiven, hwanted⟩

/-- A comparison the other way round finds the same, seen from the other directory. -/
theorem IsComparison.swap_perm {found swapped : List Difference}
    (h : IsComparison fs expected actual found) (h' : IsComparison fs actual expected swapped) :
    swapped.Perm (found.map Difference.swap) := by
  have hinj : Function.Injective Difference.swap :=
    Function.LeftInverse.injective Difference.swap_swap
  rw [List.perm_ext_iff_of_nodup (List.Nodup.of_map _ h'.nodup)
    ((List.Nodup.of_map _ h.nodup).map hinj)]
  intro d
  rw [h.mem_swap_iff h', List.mem_map]
  constructor
  · intro hmem
    exact ⟨d.swap, hmem, d.swap_swap⟩
  · intro hmem
    rcases hmem with ⟨e, he, rfl⟩
    rwa [e.swap_swap]

def HaveSameFiles (fs : Files) (expected actual : Path) : Prop :=
  (∀ place, fs.HoldsFile expected place ↔ fs.HoldsFile actual place) ∧
    ∀ place, fs.HoldsFile expected place →
      fs.read (pathBelow expected place) = fs.read (pathBelow actual place)

theorem IsComparison.eq_nil_iff {found : List Difference}
    (h : IsComparison fs expected actual found)
    (hread : ∀ place, fs.HoldsFile expected place → fs.HoldsFile actual place →
      IsReadBoth fs expected actual place) :
    found = [] ↔ HaveSameFiles fs expected actual := by
  constructor
  · intro hnil
    subst hnil
    have hsame : ∀ place, fs.HoldsFile expected place ↔ fs.HoldsFile actual place := by
      intro place
      constructor
      · intro hplace
        by_contra hnot
        have hmem := (h.missing_iff _).mpr ⟨place, rfl, hplace, hnot⟩
        cases hmem
      · intro hplace
        by_contra hnot
        have hmem := (h.unexpected_iff _).mpr ⟨place, rfl, hplace, hnot⟩
        cases hmem
    refine ⟨hsame, ?_⟩
    intro place hplace
    rcases hread place hplace ((hsame place).mp hplace) with ⟨x, y, hx, hy⟩
    rw [hx, hy]
    by_contra hne
    have hmem := (h.mismatch_iff _ _ _).mpr ⟨place, x, y, rfl, hplace, (hsame place).mp hplace,
      hx, hy, fun hxy => hne (by rw [hxy]), rfl, rfl⟩
    cases hmem
  · intro hsame
    rcases hsame with ⟨hfiles, hcontents⟩
    rw [List.eq_nil_iff_forall_not_mem]
    intro d hd
    cases d with
    | missing p =>
        rcases (h.missing_iff p).mp hd with ⟨place, -, hplace, hnot⟩
        exact hnot ((hfiles place).mp hplace)
    | unexpected p =>
        rcases (h.unexpected_iff p).mp hd with ⟨place, -, hplace, hnot⟩
        exact hnot ((hfiles place).mpr hplace)
    | mismatch p wanted given =>
        rcases (h.mismatch_iff p wanted given).mp hd with
          ⟨place, x, y, -, hplace, -, hx, hy, hne, -⟩
        have heq := hcontents place hplace
        rw [hx, hy] at heq
        exact hne (Except.ok.inj heq)

theorem IsComparison.pairwise {found : List Difference}
    (h : IsComparison fs expected actual found)
    (hsub : ∀ place, fs.HoldsFile actual place → fs.HoldsFile expected place) :
    found.Pairwise fun d e => d.path.names < e.path.names := by
  rcases h.ordered with ⟨first, others, hsplit, -, hothers, hfirst, -⟩
  have hnil : others = [] := by
    rw [List.eq_nil_iff_forall_not_mem]
    intro d hmem
    have hunexpected := hothers d hmem
    cases d with
    | missing p => cases hunexpected
    | mismatch p wanted given => cases hunexpected
    | unexpected p =>
        rcases (h.unexpected_iff p).mp (hsplit ▸ List.mem_append_right first hmem) with
          ⟨place, -, hplace, hnot⟩
        exact hnot (hsub place hplace)
  rw [hnil, List.append_nil] at hsplit
  rwa [hsplit]

/-!
## Directories that can be compared
-/

/-- A directory below which every file can be read by its path. -/
structure HasReadableFiles (fs : Files) (root : Path) : Prop where
  isDirectory : fs.isDirectory root = true
  read : ∀ place, fs.HoldsFile root place →
    ∃ content, fs.read (pathBelow root place) = .ok content

/-- A comparison of directories whose files can be read and whose directories can be opened
finds what it has to say, nothing if they have the same files with the same contents, and
the same the other way round. -/
theorem compareDirectories_exact (hwf : fs.WellFormed) (hnamed : fs.IsNamed)
    (hexpected : HasReadableFiles fs expected) (hactual : HasReadableFiles fs actual)
    (hopens : OpensDirectories fs expected) (hopens' : OpensDirectories fs actual) :
    ∃ found, compareDirectories fs expected actual = .ok found ∧
      IsComparison fs expected actual found ∧
      (found = [] ↔ HaveSameFiles fs expected actual) ∧
      ∃ swapped, compareDirectories fs actual expected = .ok swapped ∧
        IsComparison fs actual expected swapped ∧
        swapped.Perm (found.map Difference.swap) := by
  have hnames : ∀ root place entry, fs.StandsBelow root place entry → place.IsNamed :=
    fun root place entry h => h.isNamed hnamed
  have hread : ∀ place, fs.HoldsFile expected place → fs.HoldsFile actual place →
      IsReadBoth fs expected actual place := by
    intro place hplace hplace'
    rcases hexpected.read place hplace with ⟨x, hx⟩
    rcases hactual.read place hplace' with ⟨y, hy⟩
    exact ⟨x, y, hx, hy⟩
  rcases collect_eq_ok hwf (hnames expected) hexpected.isDirectory hopens with ⟨E, hE, hfilesE⟩
  rcases collect_eq_ok hwf (hnames actual) hactual.isDirectory hopens' with ⟨A, hA, hfilesA⟩
  have hreadE : ∀ file ∈ E, file ∈ A → IsReadBoth fs expected actual file := by
    intro file hfile hfile'
    exact hread file ((hfilesE.mem_iff file).mp hfile) ((hfilesA.mem_iff file).mp hfile')
  have hreadA : ∀ file ∈ A, file ∈ E → IsReadBoth fs actual expected file := by
    intro file hfile hfile'
    rcases hreadE file hfile' hfile with ⟨x, y, hx, hy⟩
    exact ⟨y, x, hy, hx⟩
  have hfound := isComparison_differencesAt hfilesE hfilesA hreadE
  have hswapped := isComparison_differencesAt hfilesA hfilesE hreadA
  exact ⟨_, compareDirectories_eq_ok hE hA hreadE, hfound, hfound.eq_nil_iff hread,
    _, compareDirectories_eq_ok hA hE hreadA, hswapped, hfound.swap_perm hswapped⟩

section

variable (hwf : fs.WellFormed) (htop : fs.locate .target root = .ok (.entry top .directory))

include hwf htop in
theorem hasReadableFiles_of_entries
    (h : ∀ pair ∈ fs.entriesBelow top, pair.2 ≠ .directory →
      (fs.read (pathBelow root pair.1)).isOk = true) : HasReadableFiles fs root := by
  constructor
  · rw [isDirectory, htop]
  · intro place hplace
    rcases hplace with ⟨entry, hstands, hne⟩
    have hmem := (mem_entriesBelow_iff hwf).mpr ((standsBelow_iff htop).mp hstands)
    exact exists_ok_of_isOk (h (place, entry) hmem hne)

include hwf htop in
theorem opensDirectories_of_entries
    (h : ∀ pair ∈ fs.entriesBelow top, pair.2 = .directory →
      fs.isDirectory (pathBelow root pair.1) = true) : OpensDirectories fs root := by
  intro place hstands
  exact h (place, .directory)
    ((mem_entriesBelow_iff hwf).mpr ((standsBelow_iff htop).mp hstands)) rfl

end

theorem compareDirectories_exact_nested :
    let fs : Files :=
      { entries := [([.ofText "a"], .directory), ([.ofText "a", .ofText "x"], .directory),
          ([.ofText "a", .ofText "x", .ofText "f"], .file [1]),
          ([.ofText "b"], .directory), ([.ofText "b", .ofText "x"], .file [2])] }
    (fs.WellFormed ∧ fs.IsNamed ∧ HasReadableFiles fs (.ofText "a") ∧
        HasReadableFiles fs (.ofText "b") ∧ OpensDirectories fs (.ofText "a") ∧
        OpensDirectories fs (.ofText "b")) ∧
      ∃ found, compareDirectories fs (.ofText "a") (.ofText "b") = .ok found ∧
        IsComparison fs (.ofText "a") (.ofText "b") found ∧
        (found = [] ↔ HaveSameFiles fs (.ofText "a") (.ofText "b")) ∧
        ∃ swapped, compareDirectories fs (.ofText "b") (.ofText "a") = .ok swapped ∧
          IsComparison fs (.ofText "b") (.ofText "a") swapped ∧
          swapped.Perm (found.map Difference.swap) := by
  intro fs
  have hwf : fs.WellFormed := by decide +kernel
  have hnamed : fs.IsNamed := by decide +kernel
  have htop : fs.locate .target (.ofText "a") = .ok (.entry [.ofText "a"] .directory) :=
    eq_ok_of_toOption (by decide +kernel)
  have htop' : fs.locate .target (.ofText "b") = .ok (.entry [.ofText "b"] .directory) :=
    eq_ok_of_toOption (by decide +kernel)
  have hexpected := hasReadableFiles_of_entries hwf htop (by decide +kernel)
  have hactual := hasReadableFiles_of_entries hwf htop' (by decide +kernel)
  have hopens := opensDirectories_of_entries hwf htop (by decide +kernel)
  have hopens' := opensDirectories_of_entries hwf htop' (by decide +kernel)
  exact ⟨⟨hwf, hnamed, hexpected, hactual, hopens, hopens'⟩,
    compareDirectories_exact hwf hnamed hexpected hactual hopens hopens'⟩

/-- A directory below another one cannot be opened if its path is too long. -/
theorem not_forall_compareDirectories_succeeds :
    ¬ ∀ (fs : Files) (expected actual : Path), fs.WellFormed → fs.IsNamed →
      HasReadableFiles fs expected → HasReadableFiles fs actual →
      ∃ found, compareDirectories fs expected actual = .ok found := by
  intro hall
  let name : Segment := List.replicate 250 (.char 'n')
  let fs : Files :=
    { entries := [([.ofText "e"], .directory), ([.ofText "e", name], .directory),
        ([.ofText "a"], .directory)] }
  let expected : Path := ⟨.char 'e' :: List.replicate 3899 (.char '/')⟩
  have hwf : fs.WellFormed := by decide +kernel
  have htop : fs.locate .target expected = .ok (.entry [.ofText "e"] .directory) :=
    eq_ok_of_toOption (by decide +kernel)
  have htop' : fs.locate .target (.ofText "a") = .ok (.entry [.ofText "a"] .directory) :=
    eq_ok_of_toOption (by decide +kernel)
  have hfails : (compareDirectories fs expected (.ofText "a")).isOk = false := by
    decide +kernel
  rcases hall fs expected (.ofText "a") hwf (by decide +kernel)
    (hasReadableFiles_of_entries hwf htop (by decide +kernel))
    (hasReadableFiles_of_entries hwf htop' (by decide +kernel)) with ⟨found, hfound⟩
  rw [hfound] at hfails
  cases hfails

end Compare

end StaticSite
