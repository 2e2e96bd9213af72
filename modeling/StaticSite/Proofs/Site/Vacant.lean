import StaticSite.Proofs.Site.Output
/-!
# Builds beside other directories

At a vacant path there is nothing, or an empty directory. A build there keeps every
directory that is apart from its output directory, with all that is below it, and it is
found by the same path. If there was an empty directory, it is made again where it was,
which matters only to a walk that starts in it.
-/

namespace StaticSite

namespace Files

variable {fs changed cleared made : Files} {p q : Path} {top other location : Location}
  {n m : Nat} {s t : WorkingDirectory} {segments left : List Segment}

/-- A path at which nothing stands, or an empty directory, and in which all steps upwards
can be taken without it. -/
structure IsVacant (fs : Files) (p : Path) : Prop where
  isEmpty : p.isEmpty = false
  grounded : (fs.without p).Grounded p
  vacant : fs.isPresent p = false ∨
    ∃ top, fs.locate .itself p = .ok (.entry top .directory) ∧ fs.isOccupied top = false

/-!
## Walks that start in an erased directory
-/

def startingAt (fs : Files) (s : WorkingDirectory) : Files := { fs with workingDirectory := s }

@[simp] theorem find?_startingAt (fs : Files) (s : WorkingDirectory) (location : Location) :
    (fs.startingAt s).find? location = fs.find? location :=
  rfl

@[simp] theorem isOccupied_startingAt (fs : Files) (s : WorkingDirectory) (location : Location) :
    (fs.startingAt s).isOccupied location = fs.isOccupied location :=
  rfl

theorem Leads.of_find?_eq (hsame : ∀ location, changed.find? location = fs.find? location)
    (h : Leads fs n s segments m t left) : Leads changed n s segments m t left := by
  induction h with
  | refl => exact .refl ..
  | idle hidle _ ih => exact .idle hidle ih
  | up _ ih => exact .up ih
  | down hstep hlength hfind _ ih => exact .down hstep hlength ((hsame _).trans hfind) ih
  | link hstep hlength hfind _ ih => exact .link hstep hlength ((hsame _).trans hfind) ih

/-- What leads away from an empty directory starts with steps upwards, so it leads to the
same place after the directory was erased. -/
theorem Leads.of_erase (hsame : ∀ location, changed.find? location = fs.find? location)
    (hempty : fs.isOccupied top = false) (hother : other ≠ top)
    (h : Leads fs n s segments m (.standing other) []) :
    Leads changed n (eraseWorkingDirectory top s) segments m (.standing other) [] := by
  by_cases hs : s.base = top
  · generalize ht : WorkingDirectory.standing other = t at h ⊢
    generalize hleft : ([] : List Segment) = left at h ⊢
    have hnone : ∀ segment, fs.find? (top ++ [segment]) = none :=
      fun segment => not_isOccupied_iff.mp hempty _ (isBelow_append (by simp))
    induction h with
    | refl links s segments =>
        subst ht
        exact absurd hs hother
    | idle hidle _ ih => exact .idle hidle (ih hs ht hleft)
    | @up links m s t rest left htail ih =>
        apply Leads.up
        cases s with
        | standing place =>
            obtain rfl : place = top := hs
            rw [eraseWorkingDirectory, if_pos rfl]
            exact htail.of_find?_eq hsame
        | removed levels above =>
            obtain rfl : above = top := hs
            cases levels with
            | zero => simpa [eraseWorkingDirectory, WorkingDirectory.up] using ih rfl ht hleft
            | succ levels =>
                simpa [eraseWorkingDirectory, WorkingDirectory.up] using ih rfl ht hleft
    | @down links m location t segment rest left _ _ hfind _ _ =>
        obtain rfl : location = top := hs
        rw [hnone segment] at hfind
        cases hfind
    | @link links m location t segment target rest left _ _ hfind _ _ =>
        obtain rfl : location = top := hs
        rw [hnone segment] at hfind
        cases hfind
  · have hstay : eraseWorkingDirectory top s = s := by
      cases s with
      | standing place => exact if_neg hs
      | removed levels above => exact if_neg hs
    rw [hstay]
    exact h.of_find?_eq hsame

/-!
## New directories are above the new output directory
-/

theorem isPrefix_of_added {fuel : Nat} (hwf : cleared.WellFormed) (hgrounded : cleared.Grounded p)
    (hadds : AddsDirectories (ancestors fuel p) cleared made)
    (hreaches : made.Reaches p.isAbsolute p.steps (.standing top))
    (hfree : cleared.find? location = none) (hq : q ∈ ancestors fuel p)
    (hadded : made.Reaches q.isAbsolute q.steps (.standing location)) : location <+: top := by
  rcases Path.steps_of_mem_ancestors hq with ⟨habs, names, hsteps⟩
  rw [habs] at hadded
  rw [← hsteps] at hreaches
  have hup : Segment.up ∉ names := by
    intro hmem
    rcases List.append_of_mem hmem with ⟨before, after, rfl⟩
    have hbegins : (q.steps ++ before) ++ [Segment.up] <+: p.steps := ⟨after, by simp [← hsteps]⟩
    rcases hgrounded _ hbegins with ⟨s, hs⟩
    rw [List.append_assoc] at hs
    rcases hs.of_prefix (List.prefix_append ..) with ⟨t, ht⟩
    obtain rfl := hadded.eq_standing (hadds.keepsWays.reaches ht)
    have hstands := ht.stands hwf
    rw [Stands, WorkingDirectory.base, hfree] at hstands
    cases hstands
  have hlinks : made.HasNoLinksBelow location := by
    intro rest target hne hfind
    rcases hadds.added (location ++ rest) with hsame | ⟨-, hdirectory, -⟩
    · rw [hsame] at hfind
      have hdirectory := hwf.find?_of_append hne hfind
      rw [hfree] at hdirectory
      cases hdirectory
    · rw [hdirectory] at hfind
      cases hfind
  have hidle : ∀ x ∈ names, x.isIdle = false := by
    intro x hx
    have hmem : x ∈ p.steps := hsteps ▸ List.mem_append_right _ hx
    exact Path.not_isIdle_of_mem_stepsOf hmem
  rw [hadded.append_names hlinks hup hidle hreaches]
  exact List.prefix_append ..

/-!
## Clearing a vacant path
-/

theorem clear_of_not_isOccupied (hwf : fs.WellFormed) (hempty : fs.isOccupied top = false) :
    fs.clear top = fs := by
  have hentries : fs.entries.filter (fun pair => !isBelow pair.1 top) = fs.entries := by
    rw [List.filter_eq_self]
    intro pair hpair
    have hbelow := List.any_eq_false.mp hempty pair hpair
    simpa using hbelow
  have hbase : isBelow fs.workingDirectory.base top = false := by
    rw [Bool.eq_false_iff]
    intro hbelow
    have hbase := hwf.base
    rw [not_isOccupied_iff.mp hempty _ hbelow] at hbase
    cases hbase
  have hstay : clearWorkingDirectory top fs.workingDirectory = fs.workingDirectory := by
    cases hwd : fs.workingDirectory with
    | standing place =>
        rw [hwd, WorkingDirectory.base] at hbase
        rw [clearWorkingDirectory, hbase, if_neg Bool.false_ne_true]
    | removed levels above =>
        rw [hwd, WorkingDirectory.base] at hbase
        rw [clearWorkingDirectory, hbase, if_neg Bool.false_ne_true]
  rw [clear, hentries, hstay]

end Files

namespace BuildPlan

open Files

variable {fs cleared made changed : Files} {outDir p : Path} {top other : Location}

theorem clearOutDir_of_isVacant (hwf : fs.WellFormed) (hvacant : fs.IsVacant outDir)
    (h : clearOutDir outDir fs = .ok () cleared) :
    cleared = fs ∨ ∃ top, fs.locate .target outDir = .ok (.entry top .directory) ∧
      fs.isOccupied top = false ∧ top ≠ [] ∧ cleared = fs.erase top := by
  rcases hvacant.vacant with habsent | ⟨top, hlocate, hempty⟩
  · rw [clearOutDir, habsent, if_neg Bool.false_ne_true] at h
    cases h
    exact Or.inl rfl
  · have htarget := locate_target_of_itself hlocate
    have hpresent : fs.isPresent outDir = true :=
      isPresent_iff.mpr ⟨_, htarget, by simp⟩
    rw [clearOutDir, hpresent, if_pos rfl, removeTree, hlocate] at h
    dsimp only at h
    rcases removeCleared_cases outDir (fs.clear top) with ⟨removed, hremoved, heq⟩ |
      ⟨hmissing, heq⟩ | ⟨e, heq⟩
    · rw [heq] at h
      cases h
      rcases removeDirectory_clear hlocate hremoved with ⟨hne, rfl⟩
      rw [clear_of_not_isOccupied hwf hempty]
      exact Or.inr ⟨top, htarget, hempty, hne, rfl⟩
    · rw [clear_of_not_isOccupied hwf hempty] at hmissing
      rw [not_isPresent_of_missing hmissing] at hpresent
      cases hpresent
    · rw [heq] at h
      cases h

/-- What a change keeps of a directory apart from what it is about: that the path leads to
it, and all that is below it. -/
structure KeepsDirectory (fs changed : Files) (p : Path) (location : Location) : Prop where
  locate : changed.locate .target p = .ok (.entry location .directory)
  find? : ∀ rest, changed.find? (location ++ rest) = fs.find? (location ++ rest)

theorem KeepsDirectory.trans {location : Location} (h : KeepsDirectory fs made p location)
    (h' : KeepsDirectory made changed p location) : KeepsDirectory fs changed p location :=
  ⟨h'.locate, fun rest => (h'.find? rest).trans (h.find? rest)⟩

theorem find?_of_addsDirectories {fuel : Nat} (hwf : cleared.WellFormed)
    (hgrounded : cleared.Grounded outDir)
    (hadds : AddsDirectories (ancestors fuel outDir) cleared made)
    (hreaches : made.Reaches outDir.isAbsolute outDir.steps (.standing top))
    (hnot : ¬ other <+: top) (rest : Location) :
    made.find? (other ++ rest) = cleared.find? (other ++ rest) := by
  rcases hadds.added (other ++ rest) with hsame | ⟨hfree, -, q, hq, -, hadded⟩
  · exact hsame
  · have habove := isPrefix_of_added hwf hgrounded hadds hreaches hfree hq hadded
    exact absurd ((List.prefix_append other rest).trans habove) hnot

/-- An empty output directory is made again where it was: with the old working directory,
both the old files and the new ones are a part of the new files with that directory. -/
theorem top_of_erase {fuel : Nat} (hwf : fs.WellFormed)
    (hlocate : fs.locate .target outDir = .ok (.entry top .directory)) (hne : top ≠ [])
    (hadds : AddsDirectories (ancestors fuel outDir) (fs.erase top) made)
    (hmade : made.locate .target outDir = .ok (.entry other .directory)) :
    other = top ∧ PartOf fs (made.startingAt fs.workingDirectory) := by
  have htop : ∀ entry, made.find? top = some entry → entry = .directory := by
    intro entry hentry
    rcases hadds.added top with hsame | ⟨-, hdirectory, -⟩
    · rw [hsame, find?_erase _ _ hne, if_pos rfl] at hentry
      cases hentry
    · rw [hdirectory] at hentry
      exact (Option.some.inj hentry).symm
  have hold : ∀ location entry, location ≠ top → fs.find? location = some entry →
      made.find? location = some entry := by
    intro location entry hother hentry
    apply hadds.partOf.find?
    rwa [find?_erase _ _ hne, if_neg hother]
  have hdirectory : fs.find? top = some .directory := hwf.find?_of_locate hlocate
  have hput := find?_put_self made .directory hne
  have hfs : PartOf fs ((made.put top .directory).startingAt fs.workingDirectory) := by
    constructor
    · intro location entry hentry
      by_cases heq : location = top
      · rw [heq, hdirectory] at hentry
        rw [heq, ← hentry]
        exact hput
      · exact (find?_put_of_ne made .directory heq).trans (hold location entry heq hentry)
    · exact .refl _
  have hnew : PartOf made ((made.put top .directory).startingAt fs.workingDirectory) := by
    constructor
    · intro location entry hentry
      by_cases heq : location = top
      · rw [heq] at hentry
        rw [heq, htop entry hentry]
        exact hput
      · exact (find?_put_of_ne made .directory heq).trans hentry
    · rw [hadds.workingDirectory]
      exact Sunk.erase top fs.workingDirectory
  have hsame := (hnew.locate_entry hmade).symm.trans (hfs.locate_entry hlocate)
  cases hsame
  refine ⟨rfl, ?_, .refl _⟩
  intro location entry hentry
  by_cases heq : location = top
  · rw [heq, hdirectory] at hentry
    rw [heq, ← hentry]
    exact hadds.wellFormed.find?_of_locate hmade
  · exact hold location entry heq hentry

theorem locate_of_erase (hpart : PartOf fs (made.startingAt fs.workingDirectory))
    (hempty : made.isOccupied top = false) (hne : top ≠ [])
    (hwd : made.workingDirectory = eraseWorkingDirectory top fs.workingDirectory)
    (hother : other ≠ top) (hp : fs.locate .target p = .ok (.entry other .directory)) :
    made.locate .target p = .ok (.entry other .directory) := by
  rcases reaches_of_locate (hpart.locate_entry hp) with ⟨hcheck, links, hleads⟩
  rw [← isOccupied_startingAt made fs.workingDirectory] at hempty
  have haway := hleads.of_erase
    (fun location => (find?_startingAt made fs.workingDirectory location).symm) hempty hother
  have hstart : eraseWorkingDirectory top
      ((made.startingAt fs.workingDirectory).start p.isAbsolute) = made.start p.isAbsolute := by
    cases p.isAbsolute with
    | true => exact if_neg fun heq => hne heq.symm
    | false => exact hwd.symm
  rw [hstart] at haway
  exact locate_of_reaches hcheck ⟨links, haway⟩

theorem renewOutDir_keepsDirectory (hwf : fs.WellFormed) (hvacant : fs.IsVacant outDir)
    (hrenew : renewOutDir outDir fs = .ok () made)
    (hmade : made.locate .target outDir = .ok (.entry top .directory))
    (hp : fs.locate .target p = .ok (.entry other .directory))
    (hnot : ¬ top <+: other) (hnot' : ¬ other <+: top) : KeepsDirectory fs made p other := by
  have hremoves := clearOutDir_removes hwf outDir
  have hadds := renewOutDir_addsDirectories hwf outDir
  rcases renewOutDir_cases outDir fs with ⟨e, cleared, -, heq⟩ | ⟨cleared, hclear, -⟩
  · rw [hrenew] at heq
    cases heq
  rw [FileAction.after_of_ok hclear] at hremoves hadds
  rw [FileAction.after_of_ok hrenew] at hadds
  have hreaches := (reaches_of_locate hmade).2
  have hfind := find?_of_addsDirectories hremoves.wellFormed
    (hvacant.grounded.of_partOf hremoves.without) hadds hreaches hnot'
  rcases clearOutDir_of_isVacant hwf hvacant hclear with rfl | ⟨top', hlocate, -, hne, rfl⟩
  · exact ⟨hadds.partOf.locate_entry hp, hfind⟩
  · rcases top_of_erase hwf hlocate hne hadds hmade with ⟨rfl, hpart⟩
    constructor
    · rcases locate_of_renewOutDir hwf hvacant.isEmpty hvacant.grounded hrenew with
        ⟨top', hlocate', -, hempty⟩
      rw [hmade] at hlocate'
      cases hlocate'
      have hother : other ≠ top := fun heq => hnot (heq ▸ List.prefix_rfl)
      exact locate_of_erase hpart hempty hne hadds.workingDirectory hother hp
    · intro rest
      rw [hfind rest, find?_erase _ _ hne, if_neg]
      intro heq
      exact hnot' (heq ▸ List.prefix_append other rest)

/-- A build at a vacant path keeps every directory that is apart from its output
directory. -/
theorem build_keepsDirectory {plan : BuildPlan} {pages : List Page} {result : BuildResult}
    (hwf : fs.WellFormed) (hvacant : fs.IsVacant outDir)
    (hbuild : plan.build pages outDir fs = .ok result changed)
    (hchanged : changed.locate .target outDir = .ok (.entry top .directory))
    (hp : fs.locate .target p = .ok (.entry other .directory))
    (hnot : ¬ top <+: other) (hnot' : ¬ other <+: top) : KeepsDirectory fs changed p other := by
  rcases exists_of_build hbuild with ⟨written, made, -, hrefusal, hrenew, hwrite⟩
  rcases locate_of_renewOutDir hwf hvacant.isEmpty hvacant.grounded hrenew with
    ⟨top', hmade, -, hempty⟩
  have hwf' := (renewOutDir_addsDirectories hwf outDir).wellFormed
  rw [FileAction.after_of_ok hrenew] at hwf'
  rcases outputAt_of_empty hwf' hmade hempty with ⟨houtput, -⟩
  obtain ⟨hfinal, hchanges⟩ := writeDocuments_changesBelow hvacant.isEmpty
    (isNames_of_refusal?_eq_none hrefusal) houtput
  rw [FileAction.after_of_ok hwrite] at hfinal hchanges
  have hsame := locate_of_reaches (reaches_of_locate hmade).1 hfinal.reaches
  rw [hchanged] at hsame
  cases hsame
  have hkept := renewOutDir_keepsDirectory hwf hvacant hrenew hmade hp hnot hnot'
  refine hkept.trans ⟨?_, ?_⟩
  · rcases reaches_of_locate hkept.locate with ⟨hcheck, hreaches⟩
    exact locate_of_reaches hcheck (hchanges.keepsWays.reaches hreaches)
  · intro rest
    apply hchanges.outside
    rw [Bool.eq_false_iff]
    intro hbelow
    rcases List.prefix_or_prefix_of_prefix (isBelow_iff.mp hbelow).1
        (List.prefix_append other rest) with htop | hother
    · exact hnot htop
    · exact hnot' hother

end BuildPlan

end StaticSite
