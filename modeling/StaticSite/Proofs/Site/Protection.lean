import StaticSite.Proofs.Site.Building
/-!
# Protected paths

A build is refused if a protected path leads to the output directory or below it. That
protects what the path leads to, if the output directory is empty once it was removed and
made again, and if the way of the protected path does not lead through it.
-/

namespace StaticSite.BuildPlan

open Files

variable {fs changed : Files} {outDir p : Path}

/-- A change that keeps what a path leads to: the content of a file, or that there is a
directory. -/
structure KeepsPath (fs changed : Files) (p : Path) : Prop where
  read : ∀ content, fs.read p = .ok content → changed.read p = .ok content
  isDirectory : fs.isDirectory p = true → changed.isDirectory p = true

theorem KeepsPath.refl (fs : Files) (p : Path) : KeepsPath fs fs p :=
  ⟨fun _ h => h, fun h => h⟩

theorem KeepsPath.trans {last : Files} (h : KeepsPath fs changed p)
    (h' : KeepsPath changed last p) : KeepsPath fs last p :=
  ⟨fun content hread => h'.read content (h.read content hread),
    fun hdirectory => h'.isDirectory (h.isDirectory hdirectory)⟩

theorem keepsPath_of_eq (hread : changed.read p = fs.read p)
    (hdirectory : changed.isDirectory p = fs.isDirectory p) : KeepsPath fs changed p :=
  ⟨fun _ h => hread.trans h, fun h => hdirectory.trans h⟩

theorem keepsPath_of_partOf {part : Files} (h : PartOf part changed)
    (hsame : part.locate .target p = fs.locate .target p) : KeepsPath fs changed p := by
  constructor
  · intro content hread
    rcases read_eq_ok_iff.mp hread with ⟨location, hlocate⟩
    exact read_eq_ok_iff.mpr ⟨location, h.locate_entry (hsame.trans hlocate)⟩
  · intro hdirectory
    have hpart : part.isDirectory p = true := by
      unfold Files.isDirectory at hdirectory ⊢
      rwa [hsame]
    rcases isDirectory_iff.mp hpart with ⟨hcheck, s, hreaches⟩
    exact isDirectory_iff.mpr ⟨hcheck, h.reaches hreaches⟩

theorem ChangesBelow.partOf {top : Location} (h : ChangesBelow top fs changed)
    (hempty : fs.isOccupied top = false) : PartOf fs changed where
  find? location entry hfind := by
    rw [h.outside location, hfind]
    rw [Bool.eq_false_iff]
    intro hbelow
    rw [not_isOccupied_iff.mp hempty location hbelow] at hfind
    cases hfind
  workingDirectory := by
    rw [h.keepsWays.workingDirectory]
    exact .refl _

/-!
## Builds that keep a path
-/

theorem refusal?_ne_none_of_nil {plan : BuildPlan} (pages : List Page)
    (h : plan.refusal? [] outDir fs ≠ none) : plan.refusal? pages outDir fs ≠ none := by
  unfold refusal? at h ⊢
  split
  · simp
  · exact h

theorem after_build_of_refusal? {plan : BuildPlan} {pages : List Page}
    (h : plan.refusal? pages outDir fs ≠ none) : (plan.build pages outDir).after fs = fs := by
  rcases Option.ne_none_iff_exists'.mp h with ⟨problem, hproblem⟩
  apply FileAction.after_of_error (e := problem)
  simp only [build, hproblem]

theorem after_build_nil {plan : BuildPlan} (h : plan.refusal? [] outDir fs = none) :
    (plan.build [] outDir).after fs = (renewOutDir outDir).after fs := by
  rcases build_cases plan [] outDir fs with ⟨problem, hrefusal, -⟩ |
    ⟨-, ⟨e, e', made, hrenew, hbuild⟩ |
      ⟨made, hrenew, ⟨e, changed, hwrite, -⟩ | ⟨written, changed, hwrite, hbuild⟩⟩⟩
  · rw [h] at hrefusal
    cases hrefusal
  · rw [FileAction.after_of_error hbuild, FileAction.after_of_error hrenew]
  · cases hwrite
  · cases hwrite
    rw [FileAction.after_of_ok hbuild, FileAction.after_of_ok hrenew]

theorem build_keepsPath (plan : BuildPlan) (pages : List Page) (hwf : fs.WellFormed)
    (hfresh : IsFresh fs outDir) (h : KeepsPath fs ((renewOutDir outDir).after fs) p) :
    KeepsPath fs ((plan.build pages outDir).after fs) p := by
  rcases build_stages plan pages hwf hfresh with ⟨-, hbuild⟩ | hbuild |
    ⟨made, top, hrenew, -, hempty, -, hchanges⟩
  · rw [hbuild]
    exact .refl fs p
  · rw [hbuild]
    exact h
  · rw [FileAction.after_of_ok hrenew] at h
    exact h.trans (keepsPath_of_partOf (hchanges.partOf hempty) rfl)

/-!
## Paths that the check covers
-/

/-- Whether a path leads to the output directory or below it, as far as the check can see. -/
def LeadsInto (fs : Files) (outDir p : Path) : Prop :=
  ∃ top place, fs.canonical outDir = .ok top ∧ fs.canonical p = .ok place ∧ top <+: place

theorem exposed?_ne_none_iff {plan : BuildPlan} {top : Location} :
    plan.exposed? fs top ≠ none ↔
      ∃ q ∈ plan.guarded, ∃ place, fs.canonical q = .ok place ∧ top <+: place := by
  rw [Option.ne_none_iff_isSome, exposed?, List.find?_isSome]
  apply exists_congr
  intro q
  apply and_congr_right
  intro _
  cases fs.canonical q with
  | error e => simp
  | ok place => simp

/-- Without pages, a build is refused if and only if a protected path leads to the output
directory or below it. -/
theorem refusal?_nil_ne_none_iff {plan : BuildPlan} :
    plan.refusal? [] outDir fs ≠ none ↔ ∃ q ∈ plan.guarded, LeadsInto fs outDir q := by
  simp only [refusal?, urlProblem?, LeadsInto]
  cases fs.canonical outDir with
  | error e => simp
  | ok top =>
      have hexposed : plan.exposed? fs top ≠ none ↔ _ := exposed?_ne_none_iff
      rw [Ne, Option.map_eq_none_iff, ← Ne, hexposed]
      simp

/-- Whether the check of the output directory covers a path: it leads to the output
directory or below it, or to the same place if the output directory is removed. -/
def IsCovered (fs : Files) (outDir p : Path) : Prop :=
  LeadsInto fs outDir p ∨ (fs.without outDir).locate .target p = fs.locate .target p

/-- A build keeps every protected path that its check covers, whatever comes of it. -/
theorem build_keepsPath_of_isCovered (plan : BuildPlan) (pages : List Page)
    (hwf : fs.WellFormed) (hfresh : IsFresh fs outDir) (hp : p ∈ plan.guarded)
    (hcovered : IsCovered fs outDir p) :
    KeepsPath fs ((plan.build pages outDir).after fs) p := by
  rcases hcovered with hinto | hsame
  · have hrefusal := refusal?_nil_ne_none_iff.mpr ⟨p, hp, hinto⟩
    rw [after_build_of_refusal? (refusal?_ne_none_of_nil pages hrefusal)]
    exact .refl fs p
  · exact build_keepsPath plan pages hwf hfresh
      (keepsPath_of_partOf (partOf_renewOutDir hwf outDir) hsame)

/-- A path is kept by the builds of all pages if and only if the check refuses them, or it is
kept when the output directory is removed and made again. -/
theorem forall_build_keepsPath_iff (plan : BuildPlan) (hwf : fs.WellFormed)
    (hfresh : IsFresh fs outDir) (p : Path) :
    (∀ pages, KeepsPath fs ((plan.build pages outDir).after fs) p) ↔
      (∃ q ∈ plan.guarded, LeadsInto fs outDir q) ∨
        KeepsPath fs ((renewOutDir outDir).after fs) p := by
  rw [← refusal?_nil_ne_none_iff]
  constructor
  · intro hkeeps
    by_cases hrefusal : plan.refusal? [] outDir fs = none
    · exact Or.inr (after_build_nil hrefusal ▸ hkeeps [])
    · exact Or.inl hrefusal
  · rintro (hrefusal | hrenewed) pages
    · rw [after_build_of_refusal? (refusal?_ne_none_of_nil pages hrefusal)]
      exact .refl fs p
    · exact build_keepsPath plan pages hwf hfresh hrenewed

/-!
## Paths without links

The way of a path that is made of names and leads along no links cannot lead through the
output directory without leading to below it.
-/

/-- A path that is made of names, where relative paths start in a directory that stands, no
link is below it, and no absolute path is too long. -/
structure IsPlain (fs : Files) (p : Path) : Prop where
  standing : ∃ location, fs.workingDirectory = .standing location
  links : fs.HasNoLinksBelow (fs.start p.isAbsolute).base
  up_not_mem : Segment.up ∉ p.steps
  short : ∀ location ∈ fs.entries.map Prod.fst, (Path.ofRoot location).size ≤ pathLimit

theorem canonical_of_short
    (h : ∀ location ∈ fs.entries.map Prod.fst, (Path.ofRoot location).size ≤ pathLimit)
    (p : Path) : fs.canonical p = fs.resolve p := by
  have hall : fs.nameable = fs := by
    have hfilter : fs.entries.filter
        (fun pair => (Path.ofRoot pair.1).size ≤ pathLimit) = fs.entries := by
      rw [List.filter_eq_self]
      intro pair hpair
      exact decide_eq_true (h pair.1 (List.mem_map_of_mem hpair))
    rw [nameable, hfilter]
  rw [canonical, hall]

theorem resolve_of_locate {location place : Location} {entry : Entry}
    (hwd : fs.workingDirectory = .standing location)
    (h : fs.locate .target p = .ok (.entry place entry)) : fs.resolve p = .ok place := by
  rcases locate_eq_ok_iff.mp h with ⟨hcheck, hwalk⟩
  have hparts : checkParts p = .ok () := by
    unfold checkPath at hcheck
    cases hparts : checkParts p with
    | ok => rfl
    | error e =>
        rw [hparts] at hcheck
        cases hcheck
  have hstart : fs.startsRemoved p = false := by rw [startsRemoved, hwd]
  rw [resolve, hparts, enter_eq, hwalk]
  simp [Bind.bind, Except.bind, hstart]

theorem not_link_of_names {first top : Location} {names : List Segment} {entry : Entry}
    (hwf : fs.WellFormed) (hstands : fs.find? first = some .directory)
    (hlinks : fs.HasNoLinksBelow first) (hentry : fs.find? (first ++ names) = some entry)
    (hbegins : top <+: first ++ names) (target : Path) : fs.find? top ≠ some (.link target) := by
  intro hlink
  by_cases heq : first ++ names = top
  · subst heq
    by_cases hnil : names = []
    · rw [hnil, List.append_nil, hstands] at hlink
      cases hlink
    · exact hlinks names target hnil hlink
  · rw [hwf.find?_of_isBelow (isBelow_iff.mpr ⟨hbegins, heq⟩) hentry] at hlink
    cases hlink

theorem locate_without_of_names {first top : Location} {place : Place}
    (hstart : fs.start p.isAbsolute = .standing first) (hlinks : fs.HasNoLinksBelow first)
    (hup : Segment.up ∉ p.steps) (hlocate : fs.locate .target p = .ok place)
    (hagree : ∀ location, ¬ top <+: location →
      (fs.without outDir).find? location = fs.find? location)
    (hstay : ∀ location, ¬ top <+: location → fs.workingDirectory = .standing location →
      (fs.without outDir).workingDirectory = .standing location)
    (hbegins : ¬ top <+: first ++ p.steps) :
    (fs.without outDir).locate .target p = .ok place := by
  rcases locate_eq_ok_iff.mp hlocate with ⟨hcheck, hwalk⟩
  have hway : ∀ more, more <+: first ++ p.steps → ¬ top <+: more :=
    fun more hmore htop => hbegins (htop.trans hmore)
  have hstart' : (fs.without outDir).start p.isAbsolute = .standing first := by
    cases habs : p.isAbsolute with
    | true =>
        rw [habs] at hstart
        exact hstart
    | false =>
        rw [habs] at hstart
        exact hstay first (hway first (List.prefix_append ..)) hstart
  refine locate_eq_ok_iff.mpr ⟨hcheck, ?_⟩
  rw [hstart, ← List.append_nil first] at hwalk
  rw [hstart', ← List.append_nil first]
  refine walkFrom_of_agree hlinks hup (fun more hmore => hagree _ (hway _ ?_)) hwalk
  rw [List.append_nil]
  exact (List.prefix_append_right_inj first).mpr hmore

theorem isCovered_of_isPlain (hwf : fs.WellFormed) (hplain : IsPlain fs p)
    (hpresent : fs.isPresent p = true) (outDir : Path) : IsCovered fs outDir p := by
  rcases hplain.standing with ⟨location, hwd⟩
  have hlinks := hplain.links
  rcases isPresent_iff.mp hpresent with ⟨place, hlocate, hfree⟩
  rcases locate_eq_ok_iff.mp hlocate with ⟨-, hwalk⟩
  obtain ⟨first, hstart⟩ : ∃ first, fs.start p.isAbsolute = .standing first := by
    rw [start, hwd]
    split
    · exact ⟨_, rfl⟩
    · exact ⟨_, rfl⟩
  rw [hstart, WorkingDirectory.base] at hlinks
  obtain ⟨entry, rfl⟩ : ∃ entry, place = .entry (first ++ p.steps) entry := by
    rw [hstart, ← List.append_nil first] at hwalk
    rcases walkFrom_names hlinks hplain.up_not_mem hwalk with hplace | ⟨entry, hplace⟩
    · exact absurd hplace (hfree _)
    · rw [List.append_nil] at hplace
      exact ⟨entry, hplace⟩
  rcases without_cases fs outDir with hsame | ⟨top, there, htop, hthere, hagree, hstay⟩
  · exact Or.inr (by rw [hsame])
  · by_cases hbegins : top <+: first ++ p.steps
    · rcases hthere with rfl | ⟨target, rfl⟩
      · left
        have htarget := locate_target_of_itself htop
        refine ⟨top, first ++ p.steps, ?_, ?_, hbegins⟩
        · rw [canonical_of_short hplain.short, resolve_of_locate hwd htarget]
        · rw [canonical_of_short hplain.short, resolve_of_locate hwd hlocate]
      · have hstands := hwf.stands_start p.isAbsolute
        rw [hstart, Stands, WorkingDirectory.base] at hstands
        exact absurd (hwf.find?_of_locate htop) (not_link_of_names hwf hstands hlinks
          (hwf.find?_of_locate hlocate) hbegins target)
    · right
      rw [hlocate]
      exact locate_without_of_names hstart hlinks hplain.up_not_mem hlocate hagree hstay hbegins

/-- A build keeps every protected path that is plain. -/
theorem build_keepsPath_of_isPlain (plan : BuildPlan) (pages : List Page)
    (hwf : fs.WellFormed) (hfresh : IsFresh fs outDir) (hp : p ∈ plan.guarded)
    (hplain : IsPlain fs p) : KeepsPath fs ((plan.build pages outDir).after fs) p := by
  by_cases hpresent : fs.isPresent p = true
  · exact build_keepsPath_of_isCovered plan pages hwf hfresh hp
      (isCovered_of_isPlain hwf hplain hpresent outDir)
  · constructor
    · intro content hread
      rcases read_eq_ok_iff.mp hread with ⟨place, hlocate⟩
      exact absurd (isPresent_iff.mpr ⟨_, hlocate, by simp⟩) hpresent
    · intro hdirectory
      exact absurd (isPresent_of_isDirectory hdirectory) hpresent

/-!
## What builds keep
-/

/-- If the output directory is empty once it was removed and made again, then builds keep every
protected path that the check covers, and every one that is plain. Any path is kept by the
builds of all pages if and only if a protected path leads to the output directory or below it,
so that they are refused, or the path is kept when the output directory is renewed. -/
theorem build_protects (plan : BuildPlan) (hwf : fs.WellFormed) (hfresh : IsFresh fs outDir) :
    (∀ p ∈ plan.guarded, IsCovered fs outDir p →
      ∀ pages, KeepsPath fs ((plan.build pages outDir).after fs) p) ∧
    (∀ p ∈ plan.guarded, IsPlain fs p →
      ∀ pages, KeepsPath fs ((plan.build pages outDir).after fs) p) ∧
    ∀ p, (∀ pages, KeepsPath fs ((plan.build pages outDir).after fs) p) ↔
      (∃ q ∈ plan.guarded, LeadsInto fs outDir q) ∨
        KeepsPath fs ((renewOutDir outDir).after fs) p := by
  refine ⟨?_, ?_, forall_build_keepsPath_iff plan hwf hfresh⟩
  · intro p hp hcovered pages
    exact build_keepsPath_of_isCovered plan pages hwf hfresh hp hcovered
  · intro p hp hplain pages
    exact build_keepsPath_of_isPlain plan pages hwf hfresh hp hplain

theorem build_protects_source :
    let fs : Files :=
      { entries := [([.ofText "src"], .directory), ([.ofText "src", .ofText "a"], .file [1]),
          ([.ofText "out"], .directory), ([.ofText "out", .ofText "old"], .file [2])] }
    let p : Path := .ofText "src/a"
    let plan : BuildPlan := { guarded := [p] }
    fs.read p = .ok [1] ∧
      plan.refusal? [] (.ofText "src") fs = some (.unsafeOutDir (.ofText "src") p) ∧
      (∀ pages, KeepsPath fs ((plan.build pages (.ofText "src")).after fs) p) ∧
      plan.refusal? [] (.ofText "out") fs = none ∧
      (∀ pages, KeepsPath fs ((plan.build pages (.ofText "out")).after fs) p) ∧
      (∀ pages, KeepsPath fs ((plan.build pages (.ofText "out")).after fs) (.ofText "src")) ∧
      ¬ ∀ pages,
        KeepsPath fs ((plan.build pages (.ofText "out")).after fs) (.ofText "out/old") := by
  intro fs p plan
  have hwf : fs.WellFormed := by decide
  have hfresh : ∀ text, (Path.ofText text).isEmpty = false →
      Segment.up ∉ (Path.ofText text).steps → IsFresh fs (.ofText text) :=
    fun text hne hup => isFresh_of_grounded hwf hne (grounded_of_not_mem hup)
  have hsrc := build_protects plan hwf (hfresh "src" (by decide) (by decide))
  have hout := build_protects plan hwf (hfresh "out" (by decide) (by decide))
  have hp : p ∈ plan.guarded := List.mem_singleton.mpr rfl
  have hinto : LeadsInto fs (.ofText "src") p :=
    ⟨[.ofText "src"], [.ofText "src", .ofText "a"], eq_ok_of_toOption (by decide +kernel),
      eq_ok_of_toOption (by decide +kernel), by decide⟩
  have hplain : IsPlain fs p :=
    ⟨⟨[], rfl⟩, hwf.hasNoLinksBelow (by simp [fs]) _, by decide, by decide +kernel⟩
  have hfree : plan.refusal? [] (.ofText "out") fs = none := by decide +kernel
  refine ⟨by decide +kernel, by decide +kernel, hsrc.1 p hp (Or.inl hinto), hfree,
    hout.2.1 p hp hplain, (hout.2.2 (.ofText "src")).mpr (Or.inr ?_), ?_⟩
  · exact keepsPath_of_eq (by decide +kernel) (by decide +kernel)
  · intro hkeeps
    rcases (hout.2.2 (.ofText "out/old")).mp hkeeps with hleads | hkept
    · exact refusal?_nil_ne_none_iff.mpr hleads hfree
    · have hread := hkept.read [2] (by decide +kernel)
      revert hread
      decide +kernel

/-!
## What the check misses

Each of the conditions is needed.
-/

/-- The check is skipped for an output directory without a path, which is the working
directory, and a page may have the url of a protected file. -/
theorem not_forall_build_keepsPath :
    ¬ ∀ (plan : BuildPlan) (pages : List Page) (outDir : Path) (fs : Files), fs.WellFormed →
      ∀ p ∈ plan.guarded, KeepsPath fs ((plan.build pages outDir).after fs) p := by
  intro hall
  let fs : Files := { entries := [([.ofText "a"], .file [1])] }
  have hkeeps := hall { guarded := [.ofText "a"] } [⟨"A", "a", ⟨"x"⟩⟩] .empty fs (by decide)
    (.ofText "a") (List.mem_singleton.mpr rfl)
  have hread := hkeeps.read [1] (by decide +kernel)
  revert hread
  decide +kernel

/-- Two dots after a missing name lead to a directory that was there before. -/
theorem not_forall_build_keepsPath_of_not_fresh :
    ¬ ∀ (plan : BuildPlan) (pages : List Page) (outDir : Path) (fs : Files), fs.WellFormed →
      outDir.isEmpty = false → ∀ p ∈ plan.guarded,
      KeepsPath fs ((renewOutDir outDir).after fs) p →
      KeepsPath fs ((plan.build pages outDir).after fs) p := by
  intro hall
  let fs : Files := { entries := [([.ofText "a"], .file [1])] }
  have hkeeps := hall { guarded := [.ofText "a"] } [⟨"A", "a", ⟨"x"⟩⟩] (.ofText "new/..") fs
    (by decide) (by decide) (.ofText "a") (List.mem_singleton.mpr rfl)
    (keepsPath_of_eq (by decide +kernel) (by decide +kernel))
  have hread := hkeeps.read [1] (by decide +kernel)
  revert hread
  decide +kernel

/-- A protected path may lead through the output directory to what is not below it. -/
theorem not_forall_build_keepsPath_of_fresh :
    ¬ ∀ (plan : BuildPlan) (pages : List Page) (outDir : Path) (fs : Files), fs.WellFormed →
      IsFresh fs outDir → ∀ p ∈ plan.guarded,
      KeepsPath fs ((plan.build pages outDir).after fs) p := by
  intro hall
  let fs : Files :=
    { entries := [([.ofText "a"], .file [1]), ([.ofText "out"], .directory),
        ([.ofText "out", .ofText "back"], .link (.ofText ".."))] }
  have hwf : fs.WellFormed := by decide
  have hkeeps := hall { guarded := [.ofText "out/back/a"] } [] (.ofText "out") fs hwf
    (isFresh_of_grounded hwf (by decide) (grounded_of_not_mem (by decide)))
    (.ofText "out/back/a") (List.mem_singleton.mpr rfl)
  have hread := hkeeps.read [1] (by decide +kernel)
  revert hread
  decide +kernel

/-- A protected path is not checked if its absolute path is too long, although it leads to a file
from the working directory. -/
theorem not_forall_build_keepsPath_of_no_links :
    ¬ ∀ (plan : BuildPlan) (pages : List Page) (outDir : Path) (fs : Files), fs.WellFormed →
      IsFresh fs outDir → ∀ p ∈ plan.guarded, (∃ place, fs.workingDirectory = .standing place) →
      fs.HasNoLinksBelow (fs.start p.isAbsolute).base → Segment.up ∉ p.steps →
      KeepsPath fs ((plan.build pages outDir).after fs) p := by
  intro hall
  let name : Segment := List.replicate 250 (.char 'n')
  let deep : Location := List.replicate 16 name
  let fs : Files :=
    { entries := (deep.inits.tail.map fun above => (above, Entry.directory)) ++
        [(deep ++ [.ofText "out"], .directory), (deep ++ [.ofText "out", name], .file [1])],
      workingDirectory := .standing deep }
  let p : Path := Path.join (.ofText "out") ⟨name⟩
  have hwf : fs.WellFormed := by decide +kernel
  have hlinks : ∀ pair ∈ fs.entries, ∀ target, pair.2 ≠ .link target := by
    intro pair hpair target
    rcases List.mem_append.mp hpair with habove | hrest
    · rcases List.mem_map.mp habove with ⟨above, -, rfl⟩
      simp
    · rcases List.mem_pair.mp hrest with rfl | rfl
      · simp
      · simp
  have hkeeps := hall { guarded := [p] } [] (.ofText "out") fs hwf
    (isFresh_of_grounded hwf (by decide) (grounded_of_not_mem (by decide)))
    p (List.mem_singleton.mpr rfl) ⟨deep, rfl⟩ (hwf.hasNoLinksBelow hlinks _) (by decide +kernel)
  have hread := hkeeps.read [1] (by decide +kernel)
  revert hread
  decide +kernel

end StaticSite.BuildPlan
