import StaticSite.Proofs.Site.Building
/-!
# The output directory

After a build that succeeds, the output directory holds the documents and the directories
that they need, and nothing else. Whatever comes of a build, nothing but that directory is
changed, apart from missing directories above it.
-/

namespace StaticSite.BuildPlan

open Files

variable {fs changed : Files} {outDir : Path} {top : Location} {docs : List Document}

/-- What is below a location is documents, by the names of their urls, and the directories
above those. -/
structure HoldsExactly (fs : Files) (top : Location) (docs : List Document) : Prop where
  file_iff : ∀ names, names ≠ [] →
    ((∃ content, fs.find? (top ++ names) = some (.file content)) ↔
      ∃ d ∈ docs, urlNames d.url = names)
  directory_iff : ∀ names, names ≠ [] →
    (fs.find? (top ++ names) = some .directory ↔
      ∃ d ∈ docs, names <+: urlNames d.url ∧ names ≠ urlNames d.url)
  not_link : ∀ names target, names ≠ [] → fs.find? (top ++ names) ≠ some (.link target)
  last : ∀ before d after, docs = before ++ d :: after →
    (∀ other ∈ after, urlNames other.url ≠ urlNames d.url) →
    fs.find? (top ++ urlNames d.url) = some (.file (Utf8.encode d.html.html))

/-!
## What the writing loop leaves
-/

theorem entryAt_eq_file_iff {names : List Segment} :
    (∃ content, entryAt docs names = some (.file content)) ↔
      ∃ d ∈ docs, urlNames d.url = names := by
  cases hfind : docs.reverse.find? fun d => urlNames d.url = names with
  | some d =>
      have hd : d ∈ docs := by simpa using List.mem_of_find?_eq_some hfind
      have hnames : urlNames d.url = names := by simpa using List.find?_some hfind
      simp only [entryAt, hfind]
      exact ⟨fun _ => ⟨d, hd, hnames⟩, fun _ => ⟨_, rfl⟩⟩
  | none =>
      have hnone : ∀ d ∈ docs, urlNames d.url ≠ names := by simpa using hfind
      simp only [entryAt, hfind]
      constructor
      · rintro ⟨content, h⟩
        split at h <;> cases h
      · rintro ⟨d, hd, hnames⟩
        exact absurd hnames (hnone d hd)

theorem entryAt_ne_link {names : List Segment} (target : Path) :
    entryAt docs names ≠ some (.link target) := by
  unfold entryAt
  split
  · simp
  · split <;> simp

theorem exists_of_entryAt_eq_directory {names : List Segment}
    (h : entryAt docs names = some .directory) :
    ∃ d ∈ docs, names <+: urlNames d.url ∧ names ≠ urlNames d.url := by
  cases hfind : docs.reverse.find? fun d => urlNames d.url = names with
  | some d => simp [entryAt, hfind] at h
  | none =>
      have hnone : ∀ d ∈ docs, urlNames d.url ≠ names := by simpa using hfind
      simp only [entryAt, hfind] at h
      split at h
      · next hany =>
          rcases List.any_eq_true.mp hany with ⟨d, hd, hbegins⟩
          exact ⟨d, hd, List.isPrefixOf_iff_prefix.mp hbegins, fun heq => hnone d hd heq.symm⟩
      · cases h

theorem entryAt_last {before after : List Document} {d : Document}
    (h : ∀ other ∈ after, urlNames other.url ≠ urlNames d.url) :
    entryAt (before ++ d :: after) (urlNames d.url) =
      some (.file (Utf8.encode d.html.html)) := by
  have hafter : after.reverse.find? (fun other => urlNames other.url = urlNames d.url) = none := by
    simpa using h
  simp [entryAt, hafter]

theorem holdsExactly_of_entryAt (hwf : fs.WellFormed)
    (h : ∀ names, names ≠ [] → fs.find? (top ++ names) = entryAt docs names)
    (hdocs : ∀ d ∈ docs, urlNames d.url ≠ []) : HoldsExactly fs top docs := by
  refine ⟨?_, ?_, ?_, ?_⟩
  · intro names hne
    rw [h names hne]
    exact entryAt_eq_file_iff
  · intro names hne
    constructor
    · intro hdirectory
      rw [h names hne] at hdirectory
      exact exists_of_entryAt_eq_directory hdirectory
    · rintro ⟨d, hd, ⟨rest, hrest⟩, hproper⟩
      rcases entryAt_eq_file_iff.mpr ⟨d, hd, rfl⟩ with ⟨content, hfile⟩
      rw [← h _ (hdocs d hd), ← hrest, ← List.append_assoc] at hfile
      refine hwf.find?_of_append ?_ hfile
      rintro rfl
      exact hproper (by simpa using hrest)
  · intro names target hne
    rw [h names hne]
    exact entryAt_ne_link target
  · intro before d after hsplit hafter
    have hd : d ∈ docs := by simp [hsplit]
    rw [h _ (hdocs d hd), hsplit]
    exact entryAt_last hafter

theorem exists_top_of_build {plan : BuildPlan} {pages : List Page} {result : BuildResult}
    (hwf : fs.WellFormed) (hfresh : IsFresh fs outDir)
    (hbuild : plan.build pages outDir fs = .ok result changed) :
    result = ⟨outDir, pages.map fun page => outDir.join (.ofText page.url)⟩ ∧
      ∃ top, changed.locate .target outDir = .ok (.entry top .directory) ∧
        changed.WellFormed ∧
        (∀ d ∈ Layout.documents pages plan.settings, IsNames d.url) ∧
        ∀ names, names ≠ [] → changed.find? (top ++ names) =
          entryAt (Layout.documents pages plan.settings) names := by
  rcases exists_of_build hbuild with ⟨written, made, rfl, hrefusal, hrenew, hwrite⟩
  have hnames := isNames_of_refusal?_eq_none hrefusal
  rcases hfresh made hrenew with ⟨top, hlocate, hempty⟩
  have hwf' := (renewOutDir_addsDirectories hwf outDir).wellFormed
  rw [FileAction.after_of_ok hrenew] at hwf'
  rcases outputAt_of_empty hwf' hlocate hempty with ⟨houtput, hout⟩
  rcases locate_eq_ok_iff.mp hlocate with ⟨hcheck, -⟩
  have hinv := find?_eq_entryAt_nil hempty
  rcases writeDocuments_eq_ok hout hnames houtput hinv hwrite with ⟨rfl, htree⟩
  rcases writeDocuments_changesBelow hout hnames houtput with ⟨hfinal, -⟩
  rw [FileAction.after_of_ok hwrite] at hfinal
  refine ⟨?_, top, locate_of_reaches hcheck hfinal.reaches, hfinal.wellFormed, hnames, htree⟩
  rw [Layout.documents, List.map_map]
  rfl

/-!
## What a build leaves alone
-/

/-- Where a build may change something: at or below what stands at the output directory,
which is a directory or a link that is not followed; at or below the new output directory,
if nothing stood there; and where a directory above it was missing. -/
def MayChange (fs changed : Files) (outDir : Path) (location : Location) : Prop :=
  (∃ top entry, fs.locate .itself outDir = .ok (.entry top entry) ∧
      (∀ content, entry ≠ .file content) ∧ top <+: location) ∨
    (∃ top, changed.locate .target outDir = .ok (.entry top .directory) ∧
      fs.find? top = none ∧ top <+: location) ∨
    (fs.find? location = none ∧ changed.find? location = some .directory ∧
      ∃ q ∈ ancestors (outDir.segments.length + 1) outDir,
        changed.locate .target q = .ok (.entry location .directory))

theorem mayChange_of_removes {cleared : Files} (h : Removes outDir fs cleared)
    {location : Location} (hne : cleared.find? location ≠ fs.find? location) :
    ∃ top entry, fs.locate .itself outDir = .ok (.entry top entry) ∧
      (∀ content, entry ≠ .file content) ∧ top <+: location := by
  rcases h.removed location with hsame | ⟨top, hlocate, hbegins⟩ | ⟨target, hlocate⟩
  · exact absurd hsame hne
  · exact ⟨top, .directory, hlocate, by simp, hbegins⟩
  · exact ⟨location, .link target, hlocate, by simp, List.prefix_rfl⟩

/-- Once the output directory was made again, a build keeps the directories and links, and
changes only what is below the new directory, whose place was free. -/
theorem build_after_renewal (plan : BuildPlan) (pages : List Page) (hwf : fs.WellFormed)
    (hout : outDir.isEmpty = false) (hgrounded : (fs.without outDir).Grounded outDir)
    (location : Location) :
    (plan.build pages outDir).after fs = fs ∨
      KeepsWays ((renewOutDir outDir).after fs) ((plan.build pages outDir).after fs) ∧
        (((plan.build pages outDir).after fs).find? location =
            ((renewOutDir outDir).after fs).find? location ∨
          ∃ top, ((plan.build pages outDir).after fs).locate .target outDir =
              .ok (.entry top .directory) ∧
            ((clearOutDir outDir).after fs).find? top = none ∧ top <+: location) := by
  have hfresh := isFresh_of_grounded hwf hout hgrounded
  rcases build_stages plan pages hwf hfresh with ⟨-, h⟩ | h |
    ⟨made, top, hrenew, hlocate, -, houtput, hchanges⟩
  · exact Or.inl h
  · rw [h]
    exact Or.inr ⟨.refl _, Or.inl rfl⟩
  · right
    rw [FileAction.after_of_ok hrenew]
    refine ⟨hchanges.keepsWays, ?_⟩
    cases hbelow : isBelow location top with
    | false => exact Or.inl (hchanges.outside location hbelow)
    | true =>
        rcases locate_eq_ok_iff.mp hlocate with ⟨hcheck, -⟩
        rcases locate_of_renewOutDir hwf hout hgrounded hrenew with ⟨top', hlocate', hfree, -⟩
        rw [hlocate] at hlocate'
        cases hlocate'
        exact Or.inr ⟨top, locate_of_reaches hcheck houtput.reaches, hfree,
          (isBelow_iff.mp hbelow).1⟩

theorem mayChange_of_build (plan : BuildPlan) (pages : List Page) (hwf : fs.WellFormed)
    (hout : outDir.isEmpty = false) (hgrounded : (fs.without outDir).Grounded outDir)
    {location : Location}
    (hne : ((plan.build pages outDir).after fs).find? location ≠ fs.find? location) :
    MayChange fs ((plan.build pages outDir).after fs) outDir location := by
  have hremoves := clearOutDir_removes hwf outDir
  have hadds := renewOutDir_addsDirectories hwf outDir
  have hlast := build_after_renewal plan pages hwf hout hgrounded location
  generalize (plan.build pages outDir).after fs = after at hne hlast ⊢
  generalize (clearOutDir outDir).after fs = cleared at hremoves hadds hlast
  rcases hlast with rfl | ⟨hkeeps, hlast⟩
  · exact absurd rfl hne
  · by_cases hcleared : cleared.find? location = fs.find? location
    · rcases hlast with hsame | ⟨top, hlocate, hfree, hbegins⟩
      · rcases hadds.added location with hold | ⟨hnone, hdirectory, q, hq, hcheck, hreaches⟩
        · exact absurd (hsame.trans (hold.trans hcleared)) hne
        · right
          right
          exact ⟨hcleared ▸ hnone, hkeeps.directory _ hdirectory, q, hq,
            locate_of_reaches hcheck (hkeeps.reaches hreaches)⟩
      · by_cases hfs : fs.find? top = none
        · exact Or.inr (Or.inl ⟨top, hlocate, hfs, hbegins⟩)
        · -- The new directory takes the place of something that was removed.
          have hgone : cleared.find? top ≠ fs.find? top := by
            rw [hfree]
            exact Ne.symm hfs
          rcases mayChange_of_removes hremoves hgone with ⟨above, entry, hlocate, hentry, habove⟩
          exact Or.inl ⟨above, entry, hlocate, hentry, habove.trans hbegins⟩
    · exact Or.inl (mayChange_of_removes hremoves hcleared)

/-!
## Exact builds
-/

/-- What is promised of a build from given files. -/
structure ExactBuild (plan : BuildPlan) (pages : List Page) (outDir : Path) (fs : Files) :
    Prop where
  /-- The output directory holds the documents and nothing else. -/
  output : ∀ result changed, plan.build pages outDir fs = .ok result changed →
    ∃ top, changed.locate .target outDir = .ok (.entry top .directory) ∧
      HoldsExactly changed top (Layout.documents pages plan.settings)
  /-- The files are reported in the order of the pages. -/
  written : ∀ result changed, plan.build pages outDir fs = .ok result changed →
    result = ⟨outDir, pages.map fun page => outDir.join (.ofText page.url)⟩
  /-- The same build from other files leaves the same below the output directory. -/
  rebuilt : ∀ result changed other result' changed', other.WellFormed →
    plan.build pages outDir fs = .ok result changed →
    plan.build pages outDir other = .ok result' changed' →
    ∃ top top', changed.locate .target outDir = .ok (.entry top .directory) ∧
      changed'.locate .target outDir = .ok (.entry top' .directory) ∧
      ∀ names, changed.find? (top ++ names) = changed'.find? (top' ++ names)
  /-- Whatever comes of the build, the files are well-formed, and all else is kept. -/
  wellFormed : ((plan.build pages outDir).after fs).WellFormed
  unchanged : ∀ location,
    ((plan.build pages outDir).after fs).find? location ≠ fs.find? location →
    MayChange fs ((plan.build pages outDir).after fs) outDir location

/-- Every build below an output directory that is made of names is exact. -/
theorem build_exact (plan : BuildPlan) (pages : List Page) (hwf : fs.WellFormed)
    (hordinary : outDir.isOrdinary = true) : plan.ExactBuild pages outDir fs := by
  have hout := Path.isEmpty_of_steps_ne_nil (Path.isOrdinary.steps_ne_nil hordinary)
  have hgrounded : ∀ files : Files, files.Grounded outDir :=
    fun _ => grounded_of_not_mem (Path.isOrdinary.up_not_mem hordinary)
  have hfresh := isFresh_of_grounded hwf hout (hgrounded _)
  refine ⟨?_, ?_, ?_, ?_, ?_⟩
  · intro result changed hbuild
    obtain ⟨-, top, hlocate, hwf', hnames, htree⟩ :=
      exists_top_of_build hwf hfresh hbuild
    exact ⟨top, hlocate, holdsExactly_of_entryAt hwf' htree fun d hd => (hnames d hd).ne_nil⟩
  · intro result changed hbuild
    exact (exists_top_of_build hwf hfresh hbuild).1
  · intro result changed other result' changed' hother hbuild hbuild'
    obtain ⟨-, top, hlocate, hwf₁, -, htree⟩ :=
      exists_top_of_build hwf hfresh hbuild
    obtain ⟨-, top', hlocate', hwf₂, -, htree'⟩ :=
      exists_top_of_build hother (isFresh_of_grounded hother hout (hgrounded _)) hbuild'
    refine ⟨top, top', hlocate, hlocate', fun names => ?_⟩
    by_cases hne : names = []
    · rw [hne, List.append_nil, List.append_nil, hwf₁.find?_of_locate hlocate,
        hwf₂.find?_of_locate hlocate']
    · rw [htree names hne, htree' names hne]
  · rcases build_stages plan pages hwf hfresh with ⟨-, h⟩ | h | ⟨made, top, -, -, -, houtput, -⟩
    · rw [h]
      exact hwf
    · rw [h]
      exact (renewOutDir_addsDirectories hwf outDir).wellFormed
    · exact houtput.wellFormed
  · intro location hne
    exact mayChange_of_build plan pages hwf hout (hgrounded _) hne

theorem build_exact_stale :
    let fs : Files :=
      { entries := [([.ofText "out"], .directory), ([.ofText "out", .ofText "old"], .file [1])] }
    let pages : List Page := [⟨"A", "blog/a", ⟨"x"⟩⟩, ⟨"B", "blog//b", ⟨"y"⟩⟩]
    fs.WellFormed ∧ (Path.ofText "out").isOrdinary = true ∧
      (({} : BuildPlan).build pages (.ofText "out") fs matches .ok _ _) = true ∧
      ExactBuild {} pages (.ofText "out") fs := by
  refine ⟨by decide, by decide, by decide +kernel, ?_⟩
  exact build_exact {} _ (by decide) (by decide)

end StaticSite.BuildPlan
