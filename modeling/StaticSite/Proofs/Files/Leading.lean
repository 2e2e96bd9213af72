import StaticSite.Proofs.Files.Walking
/-!
# Where segments lead to

The steps of a walk as a relation: from a working directory with a number of links that
may be followed, segments lead to another working directory, with fewer links and other
segments left.
-/

namespace StaticSite.Files

inductive Leads (fs : Files) : Nat → WorkingDirectory → List Segment →
    Nat → WorkingDirectory → List Segment → Prop where
  | refl (links : Nat) (s : WorkingDirectory) (segments : List Segment) :
      Leads fs links s segments links s segments
  | idle {links m : Nat} {s t : WorkingDirectory} {segment : Segment}
      {rest left : List Segment} :
      segment.isIdle = true → Leads fs links s rest m t left →
      Leads fs links s (segment :: rest) m t left
  | up {links m : Nat} {s t : WorkingDirectory} {rest left : List Segment} :
      Leads fs links s.up rest m t left → Leads fs links s (Segment.up :: rest) m t left
  | down {links m : Nat} {location : Location} {t : WorkingDirectory} {segment : Segment}
      {rest left : List Segment} :
      segment.isStepDown → segment.bytes.length ≤ nameLimit →
      fs.find? (location ++ [segment]) = some .directory →
      Leads fs links (.standing (location ++ [segment])) rest m t left →
      Leads fs links (.standing location) (segment :: rest) m t left
  | link {links m : Nat} {location : Location} {t : WorkingDirectory} {segment : Segment}
      {target : Path} {rest left : List Segment} :
      segment.isStepDown → segment.bytes.length ≤ nameLimit →
      fs.find? (location ++ [segment]) = some (.link target) →
      Leads fs links (linkStart location target) (target.segments ++ rest) m t left →
      Leads fs (links + 1) (.standing location) (segment :: rest) m t left

variable {fs : Files} {purpose : Purpose} {n m k : Nat} {s t u : WorkingDirectory}
  {segments rest left : List Segment}

namespace Leads

/-!
## Composition
-/

theorem trans (h : Leads fs n s segments m t rest) (h' : Leads fs m t rest k u left) :
    Leads fs n s segments k u left := by
  induction h with
  | refl => exact h'
  | idle hidle _ ih => exact .idle hidle (ih h')
  | up _ ih => exact .up (ih h')
  | down hstep hlength hfind _ ih => exact .down hstep hlength hfind (ih h')
  | link hstep hlength hfind _ ih => exact .link hstep hlength hfind (ih h')

theorem append (h : Leads fs n s segments m t left) (rest : List Segment) :
    Leads fs n s (segments ++ rest) m t (left ++ rest) := by
  induction h with
  | refl => exact .refl ..
  | idle hidle _ ih => exact .idle hidle ih
  | up _ ih => exact .up ih
  | down hstep hlength hfind _ ih => exact .down hstep hlength hfind ih
  | link hstep hlength hfind _ ih =>
      rw [List.append_assoc] at ih
      exact .link hstep hlength hfind ih

theorem append_trans (h : Leads fs n s segments m t []) (h' : Leads fs m t rest k u left) :
    Leads fs n s (segments ++ rest) k u left := by
  have happend := h.append rest
  rw [List.nil_append] at happend
  exact happend.trans h'

theorem split (h : Leads fs n s (segments ++ rest) m t []) :
    ∃ k u, Leads fs n s segments k u [] ∧ Leads fs k u rest m t [] := by
  generalize hall : segments ++ rest = all at h
  generalize hleft : ([] : List Segment) = left at h
  induction h generalizing segments with
  | refl links s all =>
      subst hleft
      rcases List.append_eq_nil_iff.mp hall with ⟨rfl, rfl⟩
      exact ⟨_, _, .refl .., .refl ..⟩
  | @idle links m s t segment all left hidle htail ih =>
      cases segments with
      | nil =>
          subst hall hleft
          exact ⟨_, _, .refl .., .idle hidle htail⟩
      | cons first segments =>
          rcases List.cons_eq_cons.mp hall with ⟨rfl, rfl⟩
          rcases ih rfl hleft with ⟨k, u, hfirst, hrest⟩
          exact ⟨k, u, .idle hidle hfirst, hrest⟩
  | @up links m s t all left htail ih =>
      cases segments with
      | nil =>
          subst hall hleft
          exact ⟨_, _, .refl .., .up htail⟩
      | cons first segments =>
          rcases List.cons_eq_cons.mp hall with ⟨rfl, rfl⟩
          rcases ih rfl hleft with ⟨k, u, hfirst, hrest⟩
          exact ⟨k, u, .up hfirst, hrest⟩
  | @down links m location t segment all left hstep hlength hfind htail ih =>
      cases segments with
      | nil =>
          subst hall hleft
          exact ⟨_, _, .refl .., .down hstep hlength hfind htail⟩
      | cons first segments =>
          rcases List.cons_eq_cons.mp hall with ⟨rfl, rfl⟩
          rcases ih rfl hleft with ⟨k, u, hfirst, hrest⟩
          exact ⟨k, u, .down hstep hlength hfind hfirst, hrest⟩
  | @link links m location t segment target all left hstep hlength hfind htail ih =>
      cases segments with
      | nil =>
          subst hall hleft
          exact ⟨_, _, .refl .., .link hstep hlength hfind htail⟩
      | cons first segments =>
          rcases List.cons_eq_cons.mp hall with ⟨rfl, rfl⟩
          rcases ih (List.append_assoc ..) hleft with ⟨k, u, hfirst, hrest⟩
          exact ⟨k, u, .link hstep hlength hfind hfirst, hrest⟩

/-!
## Idle segments

Only the steps of segments matter to where they lead.
-/

theorem exists_of_stepsOf_eq_cons {x : Segment} {xs : List Segment}
    (h : Path.stepsOf segments = x :: xs) :
    ∃ idles rest, segments = idles ++ x :: rest ∧ (∀ y ∈ idles, y.isIdle = true) ∧
      Path.stepsOf rest = xs := by
  rcases List.filter_eq_cons_iff.mp h with ⟨idles, rest, rfl, hidles, -, hrest⟩
  exact ⟨idles, rest, rfl, fun y hy => by simpa using hidles y hy, hrest⟩

theorem idles_append {idles : List Segment} (hidles : ∀ x ∈ idles, x.isIdle = true)
    (h : Leads fs n s segments m t left) : Leads fs n s (idles ++ segments) m t left := by
  induction idles with
  | nil => exact h
  | cons x idles ih =>
      exact .idle (hidles x (List.mem_cons_self ..))
        (ih fun y hy => hidles y (List.mem_cons_of_mem _ hy))

theorem of_stepsOf_eq (h : Leads fs n s segments m t [])
    (hsteps : Path.stepsOf rest = Path.stepsOf segments) : Leads fs n s rest m t [] := by
  generalize hleft : ([] : List Segment) = left at h
  induction h generalizing rest with
  | refl links s segments =>
      subst hleft
      have hidles : ∀ x ∈ rest, x.isIdle = true := by
        intro x hx
        simpa using List.filter_eq_nil_iff.mp hsteps x hx
      simpa using idles_append hidles (.refl links s [])
  | idle hidle _ ih => exact ih (hsteps.trans (Path.stepsOf_cons_of_isIdle hidle _)) hleft
  | up _ ih =>
      rw [Path.stepsOf_cons_of_not_isIdle (by decide)] at hsteps
      rcases exists_of_stepsOf_eq_cons hsteps with ⟨idles, rest, rfl, hidles, hrest⟩
      exact idles_append hidles (.up (ih hrest hleft))
  | down hstep hlength hfind _ ih =>
      rw [Path.stepsOf_cons_of_not_isIdle hstep.1] at hsteps
      rcases exists_of_stepsOf_eq_cons hsteps with ⟨idles, rest, rfl, hidles, hrest⟩
      exact idles_append hidles (.down hstep hlength hfind (ih hrest hleft))
  | link hstep hlength hfind _ ih =>
      rw [Path.stepsOf_cons_of_not_isIdle hstep.1] at hsteps
      rcases exists_of_stepsOf_eq_cons hsteps with ⟨idles, rest, rfl, hidles, hrest⟩
      refine idles_append hidles (.link hstep hlength hfind (ih ?_ hleft))
      rw [Path.stepsOf_append, Path.stepsOf_append, hrest]

end Leads

/-!
## Walks along segments that lead somewhere
-/

/-- Where a walk ends: in a directory, or at what a directory holds under the last name,
which is a link only if it is not followed there. -/
inductive Halts (fs : Files) (purpose : Purpose) : WorkingDirectory → List Segment → Place → Prop
    where
  | here (s : WorkingDirectory) : Halts fs purpose s [] s.place
  | free {location : Location} {segment : Segment} :
      segment.isStepDown → segment.bytes.length ≤ nameLimit →
      fs.find? (location ++ [segment]) = none →
      Halts fs purpose (.standing location) [segment] (.free (location ++ [segment]))
  | file {location : Location} {segment : Segment} {content : List UInt8} :
      segment.isStepDown → fs.find? (location ++ [segment]) = some (.file content) →
      Halts fs purpose (.standing location) [segment]
        (.entry (location ++ [segment]) (.file content))
  | link {location : Location} {segment : Segment} {target : Path} :
      segment.isStepDown → fs.find? (location ++ [segment]) = some (.link target) →
      purpose = .itself →
      Halts fs purpose (.standing location) [segment]
        (.entry (location ++ [segment]) (.link target))

theorem leads_of_walkFrom {place : Place} (h : fs.walkFrom purpose n s segments = .ok place) :
    ∃ m t left, Leads fs n s segments m t left ∧ Halts fs purpose t left place := by
  induction n, s, segments using walk_induct fs with
  | nil links s =>
      rw [walkFrom_nil] at h
      cases h
      exact ⟨links, s, [], .refl .., .here s⟩
  | idle links s segment rest hidle ih =>
      rw [walkFrom_idle hidle] at h
      rcases ih h with ⟨m, t, left, hleads, hhalts⟩
      exact ⟨m, t, left, .idle hidle hleads, hhalts⟩
  | up links s rest ih =>
      rw [walkFrom_up] at h
      rcases ih h with ⟨m, t, left, hleads, hhalts⟩
      exact ⟨m, t, left, .up hleads, hhalts⟩
  | removed links levels above segment rest hstep =>
      rw [walkFrom_removed hstep] at h
      cases h
  | standing links location segment rest hstep ihDown ihLink =>
      obtain ⟨hlength, -, ⟨hfind, rfl, rfl⟩ | ⟨hfind, h⟩ | ⟨content, hfind, rfl, rfl⟩ |
        ⟨target, hfind, ⟨rfl, hpurpose, rfl⟩ | ⟨left, rfl, -, h⟩⟩⟩ :=
          walkFrom_standing_cases hstep h
      · exact ⟨links, _, _, .refl .., .free hstep hlength hfind⟩
      · rcases ihDown hfind h with ⟨m, t, left, hleads, hhalts⟩
        exact ⟨m, t, left, .down hstep hlength hfind hleads, hhalts⟩
      · exact ⟨links, _, _, .refl .., .file hstep hfind⟩
      · exact ⟨links, _, _, .refl .., .link hstep hfind hpurpose⟩
      · rcases ihLink left target rfl hfind h with ⟨m, t, left, hleads, hhalts⟩
        exact ⟨m, t, left, .link hstep hlength hfind hleads, hhalts⟩

theorem split_of_walkFrom {place : Place} (hrest : rest ≠ [])
    (h : fs.walkFrom purpose n s (segments ++ rest) = .ok place) :
    ∃ m t, Leads fs n s segments m t [] ∧ fs.walkFrom purpose m t rest = .ok place := by
  generalize hall : segments ++ rest = all at h
  induction n, s, all using walk_induct fs generalizing segments with
  | nil => simp [hrest] at hall
  | idle links s segment all hidle ih =>
      cases segments with
      | nil =>
          obtain rfl : rest = _ := hall
          exact ⟨links, s, .refl .., h⟩
      | cons first segments =>
          rcases List.cons_eq_cons.mp hall with ⟨rfl, rfl⟩
          rw [walkFrom_idle hidle] at h
          rcases ih rfl h with ⟨m, t, hleads, hwalk⟩
          exact ⟨m, t, .idle hidle hleads, hwalk⟩
  | up links s all ih =>
      cases segments with
      | nil =>
          obtain rfl : rest = _ := hall
          exact ⟨links, s, .refl .., h⟩
      | cons first segments =>
          rcases List.cons_eq_cons.mp hall with ⟨rfl, rfl⟩
          rw [walkFrom_up] at h
          rcases ih rfl h with ⟨m, t, hleads, hwalk⟩
          exact ⟨m, t, .up hleads, hwalk⟩
  | removed links levels above segment all hstep =>
      cases segments with
      | nil =>
          obtain rfl : rest = _ := hall
          exact ⟨links, _, .refl .., h⟩
      | cons first segments =>
          rw [walkFrom_removed hstep] at h
          cases h
  | standing links location segment all hstep ihDown ihLink =>
      cases segments with
      | nil =>
          obtain rfl : rest = _ := hall
          exact ⟨links, _, .refl .., h⟩
      | cons first segments =>
          rw [List.cons_append] at hall
          rcases List.cons_eq_cons.mp hall with ⟨rfl, rfl⟩
          have hne : segments ++ rest ≠ [] := by simp [hrest]
          obtain ⟨hlength, -, ⟨-, hnil, -⟩ | ⟨hfind, h⟩ | ⟨content, -, hnil, -⟩ |
            ⟨target, hfind, ⟨hnil, -, -⟩ | ⟨left, rfl, -, h⟩⟩⟩ :=
              walkFrom_standing_cases hstep h
          · exact absurd hnil hne
          · rcases ihDown hfind rfl h with ⟨m, t, hleads, hwalk⟩
            exact ⟨m, t, .down hstep hlength hfind hleads, hwalk⟩
          · exact absurd hnil hne
          · exact absurd hnil hne
          · rcases ihLink left target rfl hfind (List.append_assoc ..) h with ⟨m, t, hleads, hwalk⟩
            exact ⟨m, t, .link hstep hlength hfind hleads, hwalk⟩

namespace Leads

theorem walkFrom_append (h : Leads fs n s segments m t left) {x : Segment} (hx : x ∈ rest)
    (hne : x ≠ []) (purpose : Purpose) :
    fs.walkFrom purpose n s (segments ++ rest) = fs.walkFrom purpose m t (left ++ rest) := by
  induction h with
  | refl => rfl
  | idle hidle _ ih => rw [List.cons_append, walkFrom_idle hidle, ih]
  | up _ ih => rw [List.cons_append, walkFrom_up, ih]
  | @down links m location t segment after left hstep hlength hfind _ ih =>
      have hrefuses := Purpose.refuses_of_mem (List.mem_append_right after hx) hne purpose
      rw [List.cons_append, walkFrom_down hstep hlength hfind hrefuses, ih]
  | @link links m location t segment target after left hstep hlength hfind _ ih =>
      have hrefuses := Purpose.refuses_of_mem (List.mem_append_right after hx) hne purpose
      have hafter : after ++ rest ≠ [] := List.ne_nil_of_mem (List.mem_append_right _ hx)
      rw [List.cons_append, walkFrom_link hstep hlength hfind hrefuses fun hend => hafter hend.1,
        ← List.append_assoc, ih]

/-- A walk to what segments lead to goes on from where they lead to. -/
theorem walkFrom_target (h : Leads fs n s segments m t left) :
    fs.walkFrom .target n s segments = fs.walkFrom .target m t left := by
  have hrefuses := Purpose.refuses_of_ne_writing .target (by decide)
  induction h with
  | refl => rfl
  | idle hidle _ ih => rw [walkFrom_idle hidle, ih]
  | up _ ih => rw [walkFrom_up, ih]
  | down hstep hlength hfind _ ih => rw [walkFrom_down hstep hlength hfind (hrefuses _), ih]
  | link hstep hlength hfind _ ih =>
      rw [walkFrom_link hstep hlength hfind (hrefuses _) (by simp), ih]

theorem walkFrom_place (h : Leads fs n s segments m t []) :
    fs.walkFrom .target n s segments = .ok t.place := by
  rw [h.walkFrom_target, walkFrom_nil]

/-- Where segments lead to is determined by them. -/
theorem eq_standing {location : Location} (h : Leads fs n s segments m (.standing location) [])
    (h' : Leads fs n s segments k t []) : t = .standing location := by
  have hplace := h'.walkFrom_place.symm.trans h.walkFrom_place
  cases t with
  | standing l =>
      obtain rfl : l = location := by simpa [WorkingDirectory.place] using hplace
      rfl
  | removed levels above => cases hplace

theorem walkFrom_removed {levels : Nat} {above : Location}
    (h : Leads fs n s segments m (.removed levels above) []) (purpose : Purpose) :
    (∃ k a, s = .removed k a) ∧ fs.walkFrom purpose n s segments = .ok .removed := by
  generalize ht : WorkingDirectory.removed levels above = t at h
  generalize hleft : ([] : List Segment) = left at h
  induction h with
  | refl links s segments =>
      subst ht hleft
      exact ⟨⟨_, _, rfl⟩, walkFrom_nil ..⟩
  | idle hidle _ ih =>
      rw [walkFrom_idle hidle]
      exact ih ht hleft
  | @up links m s t rest left _ ih =>
      rw [walkFrom_up]
      rcases ih ht hleft with ⟨⟨k, a, hup⟩, hwalk⟩
      refine ⟨?_, hwalk⟩
      cases s with
      | standing location => cases hup
      | removed levels above => exact ⟨levels, above, rfl⟩
  | down _ _ _ _ ih =>
      rcases ih ht hleft with ⟨⟨k, a, hstart⟩, -⟩
      cases hstart
  | link _ _ _ _ ih =>
      rcases ih ht hleft with ⟨⟨k, a, hstart⟩, -⟩
      cases hstart

end Leads

theorem leads_of_walkFrom_directory {location : Location}
    (h : fs.walkFrom purpose n s segments = .ok (.entry location .directory)) :
    ∃ m, Leads fs n s segments m (.standing location) [] := by
  rcases leads_of_walkFrom h with ⟨m, t, left, hleads, hhalts⟩
  generalize hplace : Place.entry location .directory = place at hhalts
  cases hhalts with
  | here =>
      cases t with
      | standing l =>
          cases hplace
          exact ⟨m, hleads⟩
      | removed => cases hplace
  | free => cases hplace
  | file => cases hplace
  | link => cases hplace

theorem leads_of_walkFrom_removed
    (h : fs.walkFrom purpose n s segments = .ok .removed) :
    ∃ m levels above, Leads fs n s segments m (.removed levels above) [] := by
  rcases leads_of_walkFrom h with ⟨m, t, left, hleads, hhalts⟩
  generalize hplace : Place.removed = place at hhalts
  cases hhalts with
  | here =>
      cases t with
      | standing l => cases hplace
      | removed levels above => exact ⟨m, levels, above, hleads⟩
  | free => cases hplace
  | file => cases hplace
  | link => cases hplace

theorem Leads.ne_removed {x : Segment} (hx : x.isStepDown)
    (h : Leads fs n s (segments ++ [x]) m t []) (levels : Nat) (above : Location) :
    t ≠ .removed levels above := by
  rintro rfl
  rcases h.split with ⟨k, u, -, hlast⟩
  rcases hlast.walkFrom_removed .target with ⟨⟨levels', above', rfl⟩, hwalk⟩
  rw [Files.walkFrom_removed hx] at hwalk
  cases hwalk

theorem walkFrom_itself_of_target {place : Place}
    (h : fs.walkFrom .target n s segments = .ok place) :
    fs.walkFrom .itself n s segments = .ok place ∨
      ∃ l target, fs.walkFrom .itself n s segments = .ok (.entry l (.link target)) := by
  have hitself := Purpose.refuses_of_ne_writing .itself (by decide)
  induction n, s, segments using walk_induct fs with
  | nil links s =>
      rw [walkFrom_nil] at h ⊢
      exact Or.inl h
  | idle links s segment rest hidle ih =>
      rw [walkFrom_idle hidle] at h ⊢
      exact ih h
  | up links s rest ih =>
      rw [walkFrom_up] at h ⊢
      exact ih h
  | removed links levels above segment rest hstep =>
      rw [walkFrom_removed hstep] at h
      cases h
  | standing links location segment rest hstep ihDown ihLink =>
      obtain ⟨hlength, -, ⟨hfind, rfl, rfl⟩ | ⟨hfind, h⟩ | ⟨content, hfind, rfl, rfl⟩ |
        ⟨target, hfind, ⟨-, hpurpose, -⟩ | ⟨left, rfl, -, h⟩⟩⟩ :=
          walkFrom_standing_cases hstep h
      · left
        rw [walkFrom_standing hstep, hitself, if_neg Bool.false_ne_true,
          if_neg (Nat.not_lt_of_le hlength), hfind]
        rfl
      · rw [walkFrom_down hstep hlength hfind (hitself rest)]
        exact ihDown hfind h
      · left
        rw [walkFrom_standing hstep, hitself, if_neg Bool.false_ne_true,
          if_neg (Nat.not_lt_of_le hlength), hfind]
        rfl
      · cases hpurpose
      · by_cases hrest : rest = []
        · right
          refine ⟨location ++ [segment], target, ?_⟩
          rw [walkFrom_standing hstep, hitself, if_neg Bool.false_ne_true,
            if_neg (Nat.not_lt_of_le hlength), hfind]
          simp only [hrest, true_and, if_true]
        · rw [walkFrom_link hstep hlength hfind (hitself rest) fun hend => hrest hend.1]
          exact ihLink left target rfl hfind h

end StaticSite.Files
