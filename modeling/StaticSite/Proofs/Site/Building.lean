import StaticSite.Proofs.Files.Removing
import StaticSite.Proofs.Site.Writing
/-!
# The stages of a build

A build that is not refused removes what is at the output directory, makes it again with
the directories above it, and writes the documents. It may end after any part of that.
-/

namespace StaticSite.BuildPlan

open Files

variable {fs cleared made changed : Files} {outDir : Path} {top : Location}

def renewOutDir (outDir : Path) : FileAction FileError Unit := do
  clearOutDir outDir
  makeDirectories outDir

theorem renewOutDir_cases (outDir : Path) (fs : Files) :
    (∃ e cleared, clearOutDir outDir fs = .error e cleared ∧
        renewOutDir outDir fs = .error e cleared) ∨
      ∃ cleared, clearOutDir outDir fs = .ok () cleared ∧
        renewOutDir outDir fs = makeDirectories outDir cleared := by
  unfold renewOutDir
  simp only [bind, EStateM.bind]
  cases hclear : clearOutDir outDir fs with
  | error e cleared => exact Or.inl ⟨e, cleared, rfl, rfl⟩
  | ok u cleared => exact Or.inr ⟨cleared, rfl, rfl⟩

theorem build_cases (plan : BuildPlan) (pages : List Page) (outDir : Path) (fs : Files) :
    (∃ problem, plan.refusal? pages outDir fs = some problem ∧
        plan.build pages outDir fs = .error problem fs) ∨
      (plan.refusal? pages outDir fs = none ∧
        ((∃ e e' made, renewOutDir outDir fs = .error e made ∧
            plan.build pages outDir fs = .error e' made) ∨
          ∃ made, renewOutDir outDir fs = .ok () made ∧
            ((∃ e changed,
                writeDocuments outDir (Layout.documents pages plan.settings) made =
                  .error e changed ∧
                plan.build pages outDir fs = .error e changed) ∨
              ∃ written changed,
                writeDocuments outDir (Layout.documents pages plan.settings) made =
                  .ok written changed ∧
                plan.build pages outDir fs = .ok ⟨outDir, written⟩ changed))) := by
  generalize hresult : plan.build pages outDir fs = result
  unfold build at hresult
  cases hrefusal : plan.refusal? pages outDir fs with
  | some problem =>
      rw [hrefusal] at hresult
      exact Or.inl ⟨problem, rfl, hresult.symm⟩
  | none =>
      rw [hrefusal] at hresult
      simp only [bind, EStateM.bind, reportedAt, FileAction.mapError, pure,
        EStateM.pure] at hresult
      right
      refine ⟨rfl, ?_⟩
      rcases renewOutDir_cases outDir fs with ⟨e, cleared, hclear, hrenew⟩ |
        ⟨cleared, hclear, hrenew⟩
      · rw [hclear] at hresult
        exact Or.inl ⟨e, _, cleared, hrenew, hresult.symm⟩
      · rw [hclear] at hresult
        rw [hrenew]
        cases hmake : makeDirectories outDir cleared with
        | error e made =>
            simp only [hmake] at hresult
            exact Or.inl ⟨e, _, made, rfl, hresult.symm⟩
        | ok u made =>
            simp only [hmake] at hresult
            refine Or.inr ⟨made, rfl, ?_⟩
            cases hwrite : writeDocuments outDir (Layout.documents pages plan.settings) made with
            | error e changed =>
                simp only [hwrite] at hresult
                exact Or.inl ⟨e, changed, rfl, hresult.symm⟩
            | ok written changed =>
                simp only [hwrite] at hresult
                exact Or.inr ⟨written, changed, rfl, hresult.symm⟩

theorem exists_of_build {plan : BuildPlan} {pages : List Page} {result : BuildResult}
    (h : plan.build pages outDir fs = .ok result changed) :
    ∃ written made, result = ⟨outDir, written⟩ ∧ plan.refusal? pages outDir fs = none ∧
      renewOutDir outDir fs = .ok () made ∧
      writeDocuments outDir (Layout.documents pages plan.settings) made = .ok written changed := by
  rcases build_cases plan pages outDir fs with ⟨problem, -, heq⟩ |
    ⟨hrefusal, ⟨e, e', made, -, heq⟩ | ⟨made, hrenew, ⟨e, last, -, heq⟩ |
      ⟨written, last, hwrite, heq⟩⟩⟩ <;> rw [heq] at h <;> cases h
  exact ⟨written, made, rfl, hrefusal, hrenew, hwrite⟩

/-!
## Clearing
-/

theorem clearOutDir_removes (hwf : fs.WellFormed) (outDir : Path) :
    Removes outDir fs ((clearOutDir outDir).after fs) := by
  by_cases hpresent : fs.isPresent outDir = true
  · have h : (clearOutDir outDir).after fs = (removeTree outDir).after fs := by
      simp only [FileAction.after, clearOutDir, if_pos hpresent]
    rw [h]
    exact removeTree_removes hwf hpresent
  · have h : clearOutDir outDir fs = .ok () fs := by
      simp only [clearOutDir, if_neg hpresent]
    rw [FileAction.after_of_ok h]
    exact .refl hwf outDir

theorem not_isPresent_of_clearOutDir (hwf : fs.WellFormed)
    (h : clearOutDir outDir fs = .ok () cleared) : cleared.isPresent outDir = false := by
  by_cases hpresent : fs.isPresent outDir = true
  · simp only [clearOutDir, if_pos hpresent] at h
    exact not_isPresent_of_removeTree hwf h
  · simp only [clearOutDir, if_neg hpresent] at h
    cases h
    simpa using hpresent

/-!
## The new output directory
-/

/-- Whether the output directory is empty if it can be removed and made again. -/
def IsFresh (fs : Files) (outDir : Path) : Prop :=
  ∀ made, renewOutDir outDir fs = .ok () made →
    ∃ top, made.locate .target outDir = .ok (.entry top .directory) ∧
      made.isOccupied top = false

theorem renewOutDir_addsDirectories (hwf : fs.WellFormed) (outDir : Path) :
    AddsDirectories (ancestors (outDir.segments.length + 1) outDir)
      ((clearOutDir outDir).after fs) ((renewOutDir outDir).after fs) := by
  have hremoves := clearOutDir_removes hwf outDir
  rcases renewOutDir_cases outDir fs with ⟨e, cleared, hclear, hrenew⟩ |
    ⟨cleared, hclear, hrenew⟩
  · rw [FileAction.after_of_error hclear] at hremoves ⊢
    rw [FileAction.after_of_error hrenew]
    exact .refl hremoves.wellFormed _
  · rw [FileAction.after_of_ok hclear] at hremoves ⊢
    have hsame : (renewOutDir outDir).after fs = (makeDirectories outDir).after cleared := by
      rw [FileAction.after, FileAction.after, hrenew]
    rw [hsame]
    exact makeFirst_addsDirectories hremoves.wellFormed _

theorem partOf_renewOutDir (hwf : fs.WellFormed) (outDir : Path) :
    PartOf (fs.without outDir) ((renewOutDir outDir).after fs) :=
  (clearOutDir_removes hwf outDir).without.trans (renewOutDir_addsDirectories hwf outDir).partOf

/-- The output directory is new after it was cleared and made again, if all steps upwards
in its path can be taken by then. -/
theorem locate_of_renewOutDir (hwf : fs.WellFormed) (hout : outDir.isEmpty = false)
    (hgrounded : (fs.without outDir).Grounded outDir)
    (h : renewOutDir outDir fs = .ok () made) :
    ∃ top, made.locate .target outDir = .ok (.entry top .directory) ∧
      ((clearOutDir outDir).after fs).find? top = none ∧ made.isOccupied top = false := by
  have hremoves := clearOutDir_removes hwf outDir
  rcases renewOutDir_cases outDir fs with ⟨e, cleared, -, hrenew⟩ | ⟨cleared, hclear, hrenew⟩
  · rw [h] at hrenew
    cases hrenew
  · rw [FileAction.after_of_ok hclear] at hremoves ⊢
    have habsent := not_isPresent_of_clearOutDir hwf hclear
    have hmake : makeFirst (ancestors (outDir.segments.length + 1) outDir) cleared =
        .ok () made := hrenew.symm.trans h
    rcases newlyReaches_of_makeFirst hremoves.wellFormed
        (hgrounded.of_partOf hremoves.without) hmake with
      ⟨-, hzero | hempty | hdirectory⟩ | ⟨hcheck, top, hreaches, hfree, hempty⟩
    · cases hzero
    · rw [hout] at hempty
      cases hempty
    · rw [isPresent_of_isDirectory hdirectory] at habsent
      cases habsent
    · exact ⟨top, locate_of_reaches hcheck hreaches, hfree, hempty⟩

theorem isFresh_of_grounded (hwf : fs.WellFormed) (hout : outDir.isEmpty = false)
    (hgrounded : (fs.without outDir).Grounded outDir) : IsFresh fs outDir := by
  intro made h
  rcases locate_of_renewOutDir hwf hout hgrounded h with ⟨top, hlocate, -, hempty⟩
  exact ⟨top, hlocate, hempty⟩

theorem outputAt_of_empty (hwf : fs.WellFormed)
    (hlocate : fs.locate .target outDir = .ok (.entry top .directory))
    (hempty : fs.isOccupied top = false) :
    OutputAt fs outDir top ∧ outDir.isEmpty = false := by
  refine ⟨⟨hwf, (reaches_of_locate hlocate).2, ?_⟩, isEmpty_of_locate hlocate⟩
  intro rest target hne hfind
  rw [not_isOccupied_iff.mp hempty _ (isBelow_append hne)] at hfind
  cases hfind

/-!
## The stages
-/

theorem isNames_of_refusal?_eq_none {plan : BuildPlan} {pages : List Page}
    (h : plan.refusal? pages outDir fs = none) :
    ∀ d ∈ Layout.documents pages plan.settings, IsNames d.url := by
  have hproblem : urlProblem? [] pages = none := by
    unfold refusal? at h
    split at h
    · cases h
    · next hproblem => exact hproblem
  intro d hd
  rcases List.mem_map.mp hd with ⟨page, hpage, rfl⟩
  exact isNames_of_isAcceptable ((urlProblem?_eq_none_iff.mp hproblem).1 page hpage).1

/-- Whatever comes of a build, it changes nothing, or it removes the output directory and
makes it again, and then changes only what is below it. -/
theorem build_stages (plan : BuildPlan) (pages : List Page) (hwf : fs.WellFormed)
    (hfresh : IsFresh fs outDir) :
    (plan.refusal? pages outDir fs ≠ none ∧ (plan.build pages outDir).after fs = fs) ∨
      (plan.build pages outDir).after fs = (renewOutDir outDir).after fs ∨
      ∃ made top, renewOutDir outDir fs = .ok () made ∧
        made.locate .target outDir = .ok (.entry top .directory) ∧
        made.isOccupied top = false ∧
        OutputAt ((plan.build pages outDir).after fs) outDir top ∧
        ChangesBelow top made ((plan.build pages outDir).after fs) := by
  rcases build_cases plan pages outDir fs with ⟨problem, hrefusal, hbuild⟩ |
    ⟨hrefusal, ⟨e, e', made, hrenew, hbuild⟩ | ⟨made, hrenew, hrest⟩⟩
  · exact Or.inl ⟨by simp [hrefusal], FileAction.after_of_error hbuild⟩
  · rw [FileAction.after_of_error hbuild, FileAction.after_of_error hrenew]
    exact Or.inr (Or.inl rfl)
  · rcases hfresh made hrenew with ⟨top, hlocate, hempty⟩
    have hwf' := (renewOutDir_addsDirectories hwf outDir).wellFormed
    rw [FileAction.after_of_ok hrenew] at hwf'
    rcases outputAt_of_empty hwf' hlocate hempty with ⟨houtput, hout⟩
    obtain ⟨hfinal, hchanges⟩ :=
      writeDocuments_changesBelow hout (isNames_of_refusal?_eq_none hrefusal) houtput
    refine Or.inr (Or.inr ⟨made, top, hrenew, hlocate, hempty, ?_⟩)
    rcases hrest with ⟨e, changed, hwrite, hbuild⟩ | ⟨written, changed, hwrite, hbuild⟩
    · rw [FileAction.after_of_error hwrite] at hfinal hchanges
      rw [FileAction.after_of_error hbuild]
      exact ⟨hfinal, hchanges⟩
    · rw [FileAction.after_of_ok hwrite] at hfinal hchanges
      rw [FileAction.after_of_ok hbuild]
      exact ⟨hfinal, hchanges⟩

end StaticSite.BuildPlan
