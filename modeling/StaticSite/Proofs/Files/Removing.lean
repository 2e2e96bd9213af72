import StaticSite.Proofs.Files.Changing
/-!
# Removing directories

A directory is removed with all that is below it, or only that is removed, and of a link
only the link. If that succeeds, then the path leads nowhere.
-/

namespace StaticSite.Files

variable {fs changed removed : Files} {purpose : Purpose} {p : Path} {n : Nat}
  {s : WorkingDirectory} {segments : List Segment}

/-!
## Less files
-/

theorem PartOf.clear (fs : Files) (location : Location) : PartOf (fs.clear location) fs where
  find? other entry h := by
    rw [find?_clear] at h
    split at h
    · cases h
    · exact h
  workingDirectory := Sunk.clear location fs.workingDirectory

theorem find?_erase_root (fs : Files) (other : Location) :
    (fs.erase []).find? other = fs.find? other := by
  by_cases h : other = []
  · rw [h, find?_root, find?_root]
  · simp [find?, erase, h, Association.lookup_filter fun place => place != []]

theorem PartOf.erase (fs : Files) (location : Location) : PartOf (fs.erase location) fs where
  find? other entry h := by
    by_cases hne : location = []
    · rwa [hne, find?_erase_root] at h
    · rw [find?_erase _ _ hne] at h
      split at h
      · cases h
      · exact h
  workingDirectory := Sunk.erase location fs.workingDirectory

theorem not_isOccupied_clear (fs : Files) (location : Location) :
    (fs.clear location).isOccupied location = false := by
  rw [not_isOccupied_iff]
  intro other hbelow
  rw [find?_clear, if_pos hbelow]

/-!
## Slashes at the end
-/

theorem exists_trimSlashes (segments : List Segment) :
    ∃ slashes, segments = trimSlashes segments ++ slashes ∧
      ∀ x ∈ slashes, x.isIdle = true := by
  refine ⟨segments.rtakeWhile (· == []), ?_, ?_⟩
  · exact List.rdropWhile_append_rtakeWhile.symm
  · intro x hx
    have hempty := List.mem_rtakeWhile_imp hx
    rw [eq_of_beq hempty]
    rfl

theorem getLast?_trimSlashes {x : Segment} (h : (trimSlashes segments).getLast? = some x) :
    x ≠ [] := by
  have hne : trimSlashes segments ≠ [] := by
    intro hnil
    rw [hnil] at h
    cases h
  have hlast := List.rdropWhile_last_not (· == []) segments hne
  rw [List.getLast?_eq_some_getLast hne] at h
  rintro rfl
  exact hlast (beq_iff_eq.mpr (Option.some.inj h))

theorem isStepDown_of_getLast? {x : Segment} (h : (trimSlashes segments).getLast? = some x)
    (hhere : x ≠ Segment.here) (hup : x ≠ Segment.up) : x.isStepDown := by
  refine ⟨?_, hup⟩
  simp only [Segment.isIdle, Bool.or_eq_false_iff, beq_eq_false_iff_ne]
  exact ⟨getLast?_trimSlashes h, hhere⟩

theorem walkFrom_trimSlashes {place : Place}
    (h : fs.walkFrom .target n s segments = .ok place) :
    fs.walkFrom .target n s (trimSlashes segments) = .ok place := by
  rcases exists_trimSlashes segments with ⟨slashes, hsegments, hslashes⟩
  by_cases hnil : slashes = []
  · rw [hnil, List.append_nil] at hsegments
    rwa [← hsegments]
  · rw [hsegments] at h
    rcases split_of_walkFrom hnil h with ⟨m, t, hleads, hwalk⟩
    have hidles : Leads fs m t slashes m t [] := by
      simpa using Leads.idles_append hslashes (.refl m t [])
    rw [hidles.walkFrom_place] at hwalk
    rw [hleads.walkFrom_place, hwalk]

/-!
## The directory itself
-/

theorem ne_root_of_walkFrom {x : Segment} (hx : x.isStepDown) {location : Location}
    {entry : Entry}
    (h : fs.walkFrom .itself n s (segments ++ [x]) = .ok (.entry location entry)) :
    location ≠ [] := by
  rcases split_of_walkFrom (by simp) h with ⟨m, t, -, hwalk⟩
  cases t with
  | removed levels above =>
      rw [walkFrom_removed hx] at hwalk
      cases hwalk
  | standing l =>
      obtain ⟨-, -, ⟨-, -, hplace⟩ | ⟨-, hwalk⟩ | ⟨_, -, -, hplace⟩ |
        ⟨_, -, ⟨-, -, hplace⟩ | ⟨_, -, hend, -⟩⟩⟩ := walkFrom_standing_cases hx hwalk
      · cases hplace
      · rw [walkFrom_nil] at hwalk
        cases hwalk
        simp
      · cases hplace
        simp
      · cases hplace
        simp
      · exact absurd ⟨rfl, rfl⟩ hend

theorem removeDirectory_eq_ok (h : removeDirectory p fs = .ok removed) :
    ∃ location, fs.walkFrom .itself linkLimit (fs.start p.isAbsolute) (trimSlashes p.segments) =
        .ok (.entry location .directory) ∧
      location ≠ [] ∧ fs.isOccupied location = false ∧ removed = fs.erase location ∧
      ∃ front x, trimSlashes p.segments = front ++ [x] ∧ x.isStepDown := by
  rcases checkPath_cases p with hcheck | ⟨e, hcheck⟩
  · rw [removeDirectory, hcheck] at h
    simp only [Bind.bind, Except.bind, enter_eq] at h
    split at h
    · cases h
    · split at h <;> cases h
    · split at h <;> cases h
    · next x hhere hup hlast =>
        have hstep := isStepDown_of_getLast? hlast hhere hup
        rcases List.getLast?_eq_some_iff.mp hlast with ⟨front, hfront⟩
        split at h
        · cases h
        · next place hwalk =>
            split at h
            · next location =>
                split at h
                · cases h
                · next hempty =>
                    refine ⟨location, hwalk, ?_, by simpa using hempty,
                      (Except.ok.inj h).symm, front, x, hfront, hstep⟩
                    rw [hfront] at hwalk
                    exact ne_root_of_walkFrom hstep hwalk
            · cases h
            · cases h
  · rw [removeDirectory, hcheck] at h
    cases h

theorem not_isPresent_of_missing (h : removeDirectory p fs = .error .missing) :
    fs.isPresent p = false := by
  rw [Bool.eq_false_iff]
  intro hpresent
  rcases isPresent_iff.mp hpresent with ⟨place, hlocate, hfree⟩
  rcases locate_eq_ok_iff.mp hlocate with ⟨hcheck, hwalk⟩
  have htrim := walkFrom_trimSlashes hwalk
  rw [removeDirectory, hcheck] at h
  simp only [Bind.bind, Except.bind, enter_eq] at h
  have habove : ∀ x, (trimSlashes p.segments).getLast? = some x →
      ∃ t : WorkingDirectory, fs.walkFrom .target linkLimit (fs.start p.isAbsolute)
        ((trimSlashes p.segments).dropLast ++ [Segment.here]) = .ok t.place := by
    intro x hlast
    rcases List.getLast?_eq_some_iff.mp hlast with ⟨front, hfront⟩
    rw [hfront] at htrim
    rcases split_of_walkFrom (by simp) htrim with ⟨m, t, hleads, -⟩
    refine ⟨t, ?_⟩
    rw [hfront, List.dropLast_concat]
    exact (hleads.append_trans (.idle rfl (.refl ..))).walkFrom_place
  split at h
  · cases h
  · next hlast =>
      rcases habove _ hlast with ⟨t, ht⟩
      rw [ht] at h
      cases h
  · next hlast =>
      rcases habove _ hlast with ⟨t, ht⟩
      rw [ht] at h
      cases h
  · next x hhere hup hlast =>
      have hstep := isStepDown_of_getLast? hlast hhere hup
      rcases List.getLast?_eq_some_iff.mp hlast with ⟨front, hfront⟩
      rcases walkFrom_itself_of_target htrim with hitself | ⟨l, target, hitself⟩
      · rw [hitself] at h
        cases place with
        | free l => exact hfree l rfl
        | removed =>
            rcases leads_of_walkFrom_removed htrim with ⟨m, levels, above, hleads⟩
            rw [hfront] at hleads
            exact hleads.ne_removed hstep levels above rfl
        | entry l e =>
            cases e with
            | file content => cases h
            | link target => cases h
            | directory =>
                simp only at h
                split at h <;> cases h
      · rw [hitself] at h
        cases h

theorem removeCleared_cases (p : Path) (fs : Files) :
    (∃ removed, removeDirectory p fs = .ok removed ∧ removeCleared p fs = .ok () removed) ∨
      (removeDirectory p fs = .error .missing ∧ removeCleared p fs = .ok () fs) ∨
      ∃ e, removeCleared p fs = .error e fs := by
  unfold removeCleared
  split
  · next removed h => exact Or.inl ⟨removed, h, rfl⟩
  · next h => exact Or.inr (Or.inl ⟨h, rfl⟩)
  · next e _ _ => exact Or.inr (Or.inr ⟨e, rfl⟩)

theorem not_isPresent_of_removeCleared (hwf : fs.WellFormed)
    (h : removeCleared p fs = .ok () removed) : removed.isPresent p = false := by
  rcases removeCleared_cases p fs with ⟨left, hremove, heq⟩ | ⟨hmissing, heq⟩ | ⟨e, heq⟩
  · rw [heq] at h
    cases h
    obtain ⟨location, hitself, hne, hempty, rfl, front, x, hfront, hstep⟩ :=
      removeDirectory_eq_ok hremove
    rcases leads_of_walkFrom_directory hitself with ⟨m, hleads⟩
    rw [Bool.eq_false_iff]
    intro hpresent
    rcases isPresent_iff.mp hpresent with ⟨place, hlocate, hfree⟩
    have htrim := walkFrom_trimSlashes (locate_eq_ok_iff.mp hlocate).2
    have hpart := PartOf.erase fs location
    rcases hpart.walkFrom (hpart.start _) htrim hfree with hwhole | ⟨rfl, -⟩
    · rw [hleads.walkFrom_place] at hwhole
      cases hwhole
      have hwf' := hwf.erase hne hempty
      have hfind := hwf'.find?_of_walkFrom (hwf'.stands_start _) htrim
      rw [find?_erase _ _ hne, if_pos rfl] at hfind
      cases hfind
    · rcases leads_of_walkFrom_removed htrim with ⟨m, levels, above, hremoved⟩
      rw [hfront] at hremoved
      exact hremoved.ne_removed hstep levels above rfl
  · rw [heq] at h
    cases h
    exact not_isPresent_of_missing hmissing
  · rw [heq] at h
    cases h

/-!
## All that is below
-/

def without (fs : Files) (p : Path) : Files :=
  if fs.isPresent p then
    match fs.locate .itself p with
    | .ok (.entry location (.link _)) => fs.erase location
    | .ok (.entry location .directory) => (fs.clear location).erase location
    | _ => fs
  else fs

theorem without_cases (fs : Files) (p : Path) :
    fs.without p = fs ∨
      ∃ top entry, fs.locate .itself p = .ok (.entry top entry) ∧
        (entry = .directory ∨ ∃ target, entry = .link target) ∧
        (∀ location, ¬ top <+: location →
          (fs.without p).find? location = fs.find? location) ∧
        ∀ location, ¬ top <+: location → fs.workingDirectory = .standing location →
          (fs.without p).workingDirectory = .standing location := by
  have herase : ∀ (files : Files) {top location : Location}, ¬ top <+: location →
      (files.erase top).find? location = files.find? location := by
    intro files top location hnot
    have htop : top ≠ [] := fun hnil => hnot (hnil ▸ List.nil_prefix)
    rw [find?_erase _ _ htop, if_neg fun heq : location = top => hnot (heq ▸ List.prefix_rfl)]
  have hstay : ∀ {top location : Location}, ¬ top <+: location →
      eraseWorkingDirectory top (.standing location) = .standing location := by
    intro top location hnot
    rw [eraseWorkingDirectory, if_neg fun heq : location = top => hnot (heq ▸ List.prefix_rfl)]
  generalize hwithout : fs.without p = part
  unfold Files.without at hwithout
  split at hwithout
  · split at hwithout
    · next top target hlocate =>
        subst hwithout
        refine Or.inr ⟨top, _, hlocate, Or.inr ⟨target, rfl⟩, fun l hl => herase fs hl, ?_⟩
        intro location hnot hwd
        rw [erase, hwd, hstay hnot]
    · next top hlocate =>
        subst hwithout
        have hclear : ∀ {location}, ¬ top <+: location → isBelow location top = false := by
          intro location hnot
          rw [Bool.eq_false_iff]
          exact fun hbelow => hnot (isBelow_iff.mp hbelow).1
        refine Or.inr ⟨top, _, hlocate, Or.inl rfl, fun l hl => ?_, ?_⟩
        · rw [herase _ hl, find?_clear, hclear hl, if_neg Bool.false_ne_true]
        · intro location hnot hwd
          rw [erase, clear, hwd, clearWorkingDirectory, hclear hnot, if_neg Bool.false_ne_true,
            hstay hnot]
    · exact Or.inl hwithout.symm
  · exact Or.inl hwithout.symm

/-- A change that removes at most what is at a path. -/
structure Removes (p : Path) (fs changed : Files) : Prop where
  wellFormed : changed.WellFormed
  partOf : PartOf changed fs
  without : PartOf (fs.without p) changed
  removed : ∀ location, changed.find? location = fs.find? location ∨
    (∃ top, fs.locate .itself p = .ok (.entry top .directory) ∧ top <+: location) ∨
      ∃ target, fs.locate .itself p = .ok (.entry location (.link target))

theorem without_partOf (fs : Files) (p : Path) : PartOf (fs.without p) fs := by
  unfold Files.without
  split
  · split
    · exact PartOf.erase fs _
    · exact (PartOf.erase _ _).trans (PartOf.clear fs _)
    · exact .refl fs
  · exact .refl fs

theorem Removes.refl (hwf : fs.WellFormed) (p : Path) : Removes p fs fs :=
  ⟨hwf, .refl fs, without_partOf fs p, fun _ => Or.inl rfl⟩

theorem Removes.of_link {location : Location} {target : Path} (hwf : fs.WellFormed)
    (hpresent : fs.isPresent p = true)
    (hlocate : fs.locate .itself p = .ok (.entry location (.link target))) :
    Removes p fs (fs.erase location) := by
  have hfind := hwf.find?_of_locate hlocate
  have hne : location ≠ [] := by
    rintro rfl
    rw [find?_root] at hfind
    cases hfind
  refine ⟨hwf.erase hne (hwf.not_isOccupied (by rw [hfind]; simp)), PartOf.erase fs location,
    ?_, ?_⟩
  · rw [Files.without, if_pos hpresent, hlocate]
    exact .refl _
  · intro other
    by_cases heq : other = location
    · exact Or.inr (Or.inr ⟨target, heq ▸ hlocate⟩)
    · left
      rw [find?_erase _ _ hne, if_neg heq]

theorem Removes.of_clear {location : Location} (hwf : fs.WellFormed)
    (hpresent : fs.isPresent p = true)
    (hlocate : fs.locate .itself p = .ok (.entry location .directory)) :
    Removes p fs (fs.clear location) := by
  refine ⟨hwf.clear location, PartOf.clear fs location, ?_, ?_⟩
  · rw [Files.without, if_pos hpresent, hlocate]
    exact PartOf.erase _ _
  · intro other
    by_cases hbelow : isBelow other location = true
    · exact Or.inr (Or.inl ⟨location, hlocate, (isBelow_iff.mp hbelow).1⟩)
    · left
      rw [find?_clear, if_neg hbelow]

theorem Removes.of_erase {location : Location} (hwf : fs.WellFormed) (hne : location ≠ [])
    (hpresent : fs.isPresent p = true)
    (hlocate : fs.locate .itself p = .ok (.entry location .directory)) :
    Removes p fs ((fs.clear location).erase location) := by
  refine ⟨(hwf.clear location).erase hne (not_isOccupied_clear fs location),
    (PartOf.erase _ _).trans (PartOf.clear fs location), ?_, ?_⟩
  · rw [Files.without, if_pos hpresent, hlocate]
    exact .refl _
  · intro other
    by_cases hbegins : location <+: other
    · exact Or.inr (Or.inl ⟨location, hlocate, hbegins⟩)
    · have hne' : other ≠ location := fun heq => hbegins (heq ▸ List.prefix_rfl)
      left
      rw [find?_erase _ _ hne, if_neg hne', find?_clear,
        if_neg fun hbelow => hbegins (isBelow_iff.mp hbelow).1]

/-- The directory that is removed in the end is the one that was emptied. -/
theorem removeDirectory_clear {location : Location}
    (hlocate : fs.locate .itself p = .ok (.entry location .directory))
    (h : removeDirectory p (fs.clear location) = .ok removed) :
    location ≠ [] ∧ removed = (fs.clear location).erase location := by
  rcases removeDirectory_eq_ok h with ⟨other, hitself, hne, -, rfl, -⟩
  rcases leads_of_walkFrom_directory hitself with ⟨m, hleads⟩
  rcases leads_of_walkFrom_directory (locate_eq_ok_iff.mp hlocate).2 with ⟨k, hleads'⟩
  have htrim := hleads'.of_stepsOf_eq (Path.stepsOf_trimSlashes p.segments)
  have hpart := PartOf.clear fs location
  rcases hpart.walkFrom (hpart.start _) hleads.walkFrom_place
      (fun l hl => by cases hl) with hwhole | ⟨hplace, -⟩
  · rw [htrim.walkFrom_place] at hwhole
    cases hwhole
    exact ⟨hne, rfl⟩
  · cases hplace

theorem removeCleared_of_removed (hlocate : fs.locate .itself p = .ok .removed) :
    (removeCleared p).after fs = fs := by
  rcases removeCleared_cases p fs with ⟨left, hremove, heq⟩ | ⟨-, heq⟩ | ⟨e, heq⟩
  · exfalso
    rcases removeDirectory_eq_ok hremove with ⟨location, hitself, -⟩
    rcases leads_of_walkFrom_directory hitself with ⟨m, hleads⟩
    obtain ⟨k, levels, above, hremoved⟩ :=
      leads_of_walkFrom_removed (locate_eq_ok_iff.mp hlocate).2
    have htrim := hremoved.of_stepsOf_eq (Path.stepsOf_trimSlashes p.segments)
    have hplace := htrim.walkFrom_place.symm.trans hleads.walkFrom_place
    cases hplace
  · rw [FileAction.after_of_ok heq]
  · rw [FileAction.after_of_error heq]

/-- Whatever comes of a removal, only what is at the path is gone. -/
theorem removeTree_removes (hwf : fs.WellFormed) (hpresent : fs.isPresent p = true) :
    Removes p fs ((removeTree p).after fs) := by
  cases hlocate : fs.locate .itself p with
  | error e =>
      have h : removeTree p fs = .error e fs := by simp only [removeTree, hlocate]
      rw [FileAction.after_of_error h]
      exact .refl hwf p
  | ok place =>
      cases place with
      | free location =>
          have h : removeTree p fs = .error .missing fs := by simp only [removeTree, hlocate]
          rw [FileAction.after_of_error h]
          exact .refl hwf p
      | removed =>
          have h : (removeTree p).after fs = (removeCleared p).after fs := by
            simp only [FileAction.after, removeTree, hlocate]
          rw [h, removeCleared_of_removed hlocate]
          exact .refl hwf p
      | entry location entry =>
          cases entry with
          | file content =>
              have h : removeTree p fs = .error .notDirectory fs := by
                simp only [removeTree, hlocate]
              rw [FileAction.after_of_error h]
              exact .refl hwf p
          | link target =>
              have h : removeTree p fs = .ok () (fs.erase location) := by
                simp only [removeTree, hlocate]
              rw [FileAction.after_of_ok h]
              exact .of_link hwf hpresent hlocate
          | directory =>
              have h : (removeTree p).after fs = (removeCleared p).after (fs.clear location) := by
                simp only [FileAction.after, removeTree, hlocate]
              rw [h]
              rcases removeCleared_cases p (fs.clear location) with
                ⟨left, hremove, heq⟩ | ⟨-, heq⟩ | ⟨e, heq⟩
              · rw [FileAction.after_of_ok heq]
                rcases removeDirectory_clear hlocate hremove with ⟨hne, rfl⟩
                exact .of_erase hwf hne hpresent hlocate
              · rw [FileAction.after_of_ok heq]
                exact .of_clear hwf hpresent hlocate
              · rw [FileAction.after_of_error heq]
                exact .of_clear hwf hpresent hlocate

theorem not_isPresent_erase_link {location : Location} {target : Path} (hwf : fs.WellFormed)
    (hlocate : fs.locate .itself p = .ok (.entry location (.link target))) :
    (fs.erase location).isPresent p = false := by
  rw [Bool.eq_false_iff]
  intro hpresent
  have hfind := hwf.find?_of_locate hlocate
  have hne : location ≠ [] := by
    rintro rfl
    rw [find?_root] at hfind
    cases hfind
  have hwf' := hwf.erase hne (hwf.not_isOccupied (by rw [hfind]; simp))
  rcases isPresent_iff.mp hpresent with ⟨place, hplace, hfree⟩
  rcases locate_eq_ok_iff.mp hplace with ⟨hcheck, hwalk⟩
  -- What is at the path now was there before, but the link was.
  have hitself : ∃ there, (fs.erase location).locate .itself p = .ok there ∧
      ∀ l, there ≠ .free l := by
    rcases walkFrom_itself_of_target hwalk with h | ⟨l, target, h⟩
    · exact ⟨place, locate_eq_ok_iff.mpr ⟨hcheck, h⟩, hfree⟩
    · exact ⟨_, locate_eq_ok_iff.mpr ⟨hcheck, h⟩, fun l hl => by cases hl⟩
  rcases hitself with ⟨there, hthere, hfree'⟩
  rcases (PartOf.erase fs location).locate hthere hfree' with h | ⟨-, l, h⟩
  · rw [hlocate] at h
    cases h
    have hgone := hwf'.find?_of_locate hthere
    rw [find?_erase _ _ hne, if_pos rfl] at hgone
    cases hgone
  · rw [hlocate] at h
    cases h

/-- After a removal that succeeds the path leads nowhere. -/
theorem not_isPresent_of_removeTree (hwf : fs.WellFormed)
    (h : removeTree p fs = .ok () removed) : removed.isPresent p = false := by
  cases hlocate : fs.locate .itself p with
  | error e =>
      simp only [removeTree, hlocate] at h
      cases h
  | ok place =>
      cases place with
      | free location =>
          simp only [removeTree, hlocate] at h
          cases h
      | removed =>
          simp only [removeTree, hlocate] at h
          exact not_isPresent_of_removeCleared hwf h
      | entry location entry =>
          cases entry with
          | file content =>
              simp only [removeTree, hlocate] at h
              cases h
          | directory =>
              simp only [removeTree, hlocate] at h
              exact not_isPresent_of_removeCleared (hwf.clear location) h
          | link target =>
              simp only [removeTree, hlocate] at h
              cases h
              exact not_isPresent_erase_link hwf hlocate

end StaticSite.Files
