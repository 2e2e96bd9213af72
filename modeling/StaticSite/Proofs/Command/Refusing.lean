import StaticSite.Command.Run
/-!
# Builds that are refused

A build command goes through three steps: its configuration is loaded, the pages are read,
and the site is built. Files are changed in the last step only, and there only after the
urls and the output directory were checked. From then on nothing but the files themselves
can be in the way, so all other failures leave the files as they were.
-/

namespace StaticSite

/-- Why a build command failed, by the step that failed. -/
inductive BuildFailure where
  | config (cause : ConfigError)
  | page (cause : BuildError)
  | site (cause : BuildError)

namespace BuildFailure

def message : BuildFailure → String
  | .config cause => cause.message
  | .page cause => cause.message
  | .site cause => cause.message

/-- Whether a build command failed with anything but a file that could not be removed or
written. -/
def isRefusal : BuildFailure → Bool
  | .site (.io _ _) => false
  | _ => true

end BuildFailure

/-!
## What actions fail with
-/

namespace FileAction

variable {ε α β : Type} {holds : ε → Prop}

def FailsWith (holds : ε → Prop) (action : FileAction ε α) : Prop :=
  ∀ fs e changed, action fs = .error e changed → holds e

theorem failsWith_pure (a : α) : FailsWith holds (pure a : FileAction ε α) := by
  intro fs e changed h
  cases h

theorem FailsWith.bind {action : FileAction ε α} {next : α → FileAction ε β}
    (h : FailsWith holds action) (hnext : ∀ a, FailsWith holds (next a)) :
    FailsWith holds (action >>= next) := by
  intro fs e changed hfail
  simp only [Bind.bind, EStateM.bind] at hfail
  cases haction : action fs with
  | ok a middle =>
      rw [haction] at hfail
      exact hnext a middle e changed hfail
  | error e' middle =>
      rw [haction] at hfail
      cases hfail
      exact h fs e changed haction

end FileAction

namespace BuildPlan

open FileAction (FailsWith)

variable {fs changed : Files}

def IsIo (e : BuildError) : Prop := ∃ path cause, e = .io path cause

theorem failsWith_reportedAt {α : Type} (p : Path) (action : FileAction FileError α) :
    FailsWith IsIo (reportedAt p action) := by
  intro fs e changed h
  simp only [reportedAt, FileAction.mapError] at h
  split at h
  · cases h
  · cases h
    exact ⟨p, _, rfl⟩

theorem failsWith_writeDocument (outDir : Path) (d : Document) :
    FailsWith IsIo (writeDocument outDir d) := by
  unfold writeDocument
  dsimp only
  split
  · apply (failsWith_reportedAt _ _).bind
    intro _
    apply (failsWith_reportedAt _ _).bind
    intro _
    exact FileAction.failsWith_pure _
  · apply (failsWith_reportedAt _ _).bind
    intro _
    exact FileAction.failsWith_pure _

theorem failsWith_writeDocuments (outDir : Path) (docs : List Document) :
    FailsWith IsIo (writeDocuments outDir docs) := by
  induction docs with
  | nil => exact FileAction.failsWith_pure _
  | cons d rest ih =>
      unfold writeDocuments
      apply (failsWith_writeDocument outDir d).bind
      intro path
      apply ih.bind
      intro paths
      exact FileAction.failsWith_pure _

/-- A build fails before it has changed anything, or with an error about a file. -/
theorem build_eq_error {plan : BuildPlan} {pages : List Page} {outDir : Path} {e : BuildError}
    (h : plan.build pages outDir fs = .error e changed) :
    (plan.refusal? pages outDir fs = some e ∧ changed = fs) ∨
      (plan.refusal? pages outDir fs = none ∧ IsIo e) := by
  unfold build at h
  cases hrefusal : plan.refusal? pages outDir fs with
  | some problem =>
      rw [hrefusal] at h
      cases h
      exact Or.inl ⟨rfl, rfl⟩
  | none =>
      rw [hrefusal] at h
      refine Or.inr ⟨rfl, ?_⟩
      refine FailsWith.bind (failsWith_reportedAt _ _) (fun _ => ?_) fs e changed h
      apply (failsWith_reportedAt _ _).bind
      intro _
      apply (failsWith_writeDocuments _ _).bind
      intro written
      exact FileAction.failsWith_pure _

end BuildPlan

/-!
## The steps of a build command
-/

namespace Command

variable {env : Environment} {file? outDir? : Option Path} {fs changed : Files}

def buildSteps (env : Environment) (file? outDir? : Option Path) :
    FileAction BuildFailure BuildResult := do
  let config ← FileAction.mapError .config (.look (Config.load env · file? outDir?))
  let pages ← FileAction.mapError .page (.look (Page.ofConfig · config))
  FileAction.mapError .site ((BuildPlan.ofConfig config).build pages config.outDir)

theorem buildSteps_cases (env : Environment) (file? outDir? : Option Path) (fs : Files) :
    (∃ e, Config.load env fs file? outDir? = .error e ∧
        buildSteps env file? outDir? fs = .error (.config e) fs) ∨
      ∃ config, Config.load env fs file? outDir? = .ok config ∧
        ((∃ e, Page.ofConfig fs config = .error e ∧
            buildSteps env file? outDir? fs = .error (.page e) fs) ∨
          ∃ pages, Page.ofConfig fs config = .ok pages ∧
            ((∃ e changed,
                (BuildPlan.ofConfig config).build pages config.outDir fs = .error e changed ∧
                buildSteps env file? outDir? fs = .error (.site e) changed) ∨
              ∃ result changed,
                (BuildPlan.ofConfig config).build pages config.outDir fs = .ok result changed ∧
                buildSteps env file? outDir? fs = .ok result changed)) := by
  generalize hsteps : buildSteps env file? outDir? fs = steps
  simp only [buildSteps, Bind.bind, EStateM.bind, FileAction.mapError, FileAction.look] at hsteps
  cases hload : Config.load env fs file? outDir? with
  | error e =>
      rw [hload] at hsteps
      exact Or.inl ⟨e, rfl, hsteps.symm⟩
  | ok config =>
      rw [hload] at hsteps
      refine Or.inr ⟨config, rfl, ?_⟩
      cases hpages : Page.ofConfig fs config with
      | error e =>
          simp only [hpages] at hsteps
          exact Or.inl ⟨e, rfl, hsteps.symm⟩
      | ok pages =>
          simp only [hpages] at hsteps
          refine Or.inr ⟨pages, rfl, ?_⟩
          cases hbuild : (BuildPlan.ofConfig config).build pages config.outDir fs with
          | error e changed =>
              simp only [hbuild] at hsteps
              exact Or.inl ⟨e, changed, rfl, hsteps.symm⟩
          | ok result changed =>
              simp only [hbuild] at hsteps
              exact Or.inr ⟨result, changed, rfl, hsteps.symm⟩

/-- A build command ends with the files that its steps end with, and reports why they
failed. -/
theorem build_of_buildSteps_error {f : BuildFailure}
    (h : buildSteps env file? outDir? fs = .error f changed) :
    ∃ noted, build env file? outDir? fs = (⟨1, "", noted ++ [failure f.message]⟩, changed) := by
  rcases buildSteps_cases env file? outDir? fs with ⟨e, hload, hsteps⟩ |
    ⟨config, hload, ⟨e, hpages, hsteps⟩ |
      ⟨pages, hpages, ⟨e, last, hbuild, hsteps⟩ | ⟨result, last, hbuild, hsteps⟩⟩⟩
  · rw [h] at hsteps
    cases hsteps
    refine ⟨[], ?_⟩
    rw [build, hload]
    rfl
  · rw [h] at hsteps
    cases hsteps
    rw [build, hload]
    simp only [buildConfig, hpages]
    exact ⟨_, rfl⟩
  · rw [h] at hsteps
    cases hsteps
    rw [build, hload]
    simp only [buildConfig, hpages, hbuild]
    exact ⟨_, rfl⟩
  · rw [h] at hsteps
    cases hsteps

/-- A build command that fails with anything but an error about a file that it was to
remove or write leaves all files as they were. -/
theorem build_of_isRefusal {f : BuildFailure}
    (h : buildSteps env file? outDir? fs = .error f changed) (hf : f.isRefusal = true) :
    changed = fs ∧
      ∃ noted, build env file? outDir? fs = (⟨1, "", noted ++ [failure f.message]⟩, fs) := by
  have hsame : changed = fs := by
    rcases buildSteps_cases env file? outDir? fs with ⟨e, -, hsteps⟩ |
      ⟨config, -, ⟨e, -, hsteps⟩ |
        ⟨pages, -, ⟨e, last, hbuild, hsteps⟩ | ⟨result, last, -, hsteps⟩⟩⟩
    · rw [h] at hsteps
      cases hsteps
      rfl
    · rw [h] at hsteps
      cases hsteps
      rfl
    · rw [h] at hsteps
      cases hsteps
      rcases BuildPlan.build_eq_error hbuild with ⟨-, hsame⟩ | ⟨-, path, cause, rfl⟩
      · exact hsame
      · cases hf
    · rw [h] at hsteps
      cases hsteps
  subst hsame
  exact ⟨rfl, build_of_buildSteps_error h⟩

theorem build_of_isRefusal_here :
    let fs : Files :=
      { entries := [([.ofText "site"], .directory), ([.ofText "site", .ofText "old"], .file [1])] }
    let e : BuildError := .unsafeOutDir (.ofText ".") (.ofText ".")
    let f : BuildFailure := .site e
    (buildSteps (fun _ => none) none (some (.ofText ".")) fs = .error f fs ∧
        f.isRefusal = true) ∧
      fs = fs ∧ ∃ noted, build (fun _ => none) none (some (.ofText ".")) fs =
        (⟨1, "", noted ++ [failure f.message]⟩, fs) := by
  intro fs e f
  have hrun : (match buildSteps (fun _ => none) none (some (.ofText ".")) fs with
      | .error (.site cause) changed => decide (cause = e ∧ changed = fs)
      | _ => false) = true := by decide +kernel
  have h : buildSteps (fun _ => none) none (some (.ofText ".")) fs = .error f fs := by
    split at hrun
    · next cause changed hsteps =>
        rcases of_decide_eq_true hrun with ⟨rfl, rfl⟩
        exact hsteps
    · cases hrun
  exact ⟨⟨h, rfl⟩, build_of_isRefusal h rfl⟩

end Command

end StaticSite
