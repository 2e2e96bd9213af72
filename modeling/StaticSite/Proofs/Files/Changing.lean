import StaticSite.Proofs.Files.Places
/-!
# Making directories and writing files

Directories are only made where nothing stands, also if not all of them can be made that
are wanted. If the last one of a path is made, then nothing is below it.
-/

namespace StaticSite

namespace FileAction

variable {ε α : Type}

def after (action : FileAction ε α) (fs : Files) : Files :=
  match action fs with
  | .ok _ changed => changed
  | .error _ changed => changed

theorem after_of_ok {action : FileAction ε α} {fs changed : Files} {a : α}
    (h : action fs = .ok a changed) : action.after fs = changed := by
  rw [after, h]

theorem after_of_error {action : FileAction ε α} {fs changed : Files} {e : ε}
    (h : action fs = .error e changed) : action.after fs = changed := by
  rw [after, h]

theorem exists_of_matches {action : FileAction ε α} {fs : Files}
    (h : (action fs matches .ok _ _) = true) : ∃ a, action fs = .ok a (action.after fs) := by
  unfold after
  cases haction : action fs with
  | ok a changed => exact ⟨a, rfl⟩
  | error e changed =>
      rw [haction] at h
      cases h

end FileAction

namespace Files

variable {fs changed made : Files} {p : Path} {paths : List Path}

theorem PartOf.put {location : Location} (hfree : fs.find? location = none) (entry : Entry) :
    PartOf fs (fs.put location entry) where
  find? other e h := by
    rw [find?_put_of_ne _ _ fun heq => ?_]
    · exact h
    · rw [heq, hfree] at h
      cases h
  workingDirectory := .refl _

/-!
## One directory
-/

theorem makeDirectory_of_checkPath (hcheck : checkPath p = .ok ()) :
    makeDirectory p fs =
      match fs.walkFrom .itself linkLimit (fs.start p.isAbsolute) (trimSlashes p.segments) with
      | .ok (.free location) => .ok (fs.put location .directory)
      | .ok _ => .error .alreadyExists
      | .error e => .error e := by
  rw [makeDirectory, hcheck, enter_eq]
  cases fs.walkFrom .itself linkLimit (fs.start p.isAbsolute) (trimSlashes p.segments) with
  | error e => rfl
  | ok place => cases place <;> rfl

theorem checkPath_of_makeDirectory {result : Files} (h : makeDirectory p fs = .ok result) :
    checkPath p = .ok () := by
  rcases checkPath_cases p with hcheck | ⟨e, hcheck⟩
  · exact hcheck
  · rw [makeDirectory, hcheck] at h
    cases h

theorem makeDirectory_eq_ok (hwf : fs.WellFormed) (h : makeDirectory p fs = .ok made) :
    ∃ location, made = fs.put location .directory ∧ fs.find? location = none ∧
      made.WellFormed ∧ made.find? location = some .directory ∧
      made.Reaches p.isAbsolute p.steps (.standing location) := by
  rw [makeDirectory_of_checkPath (checkPath_of_makeDirectory h)] at h
  split at h
  · next location hwalk =>
      cases h
      obtain ⟨hfree, above, segment, m, rfl, habove, hstep, hlength, hleads⟩ :=
        hwf.free_of_walkFrom (hwf.stands_start p.isAbsolute) hwalk
      have hne : above ++ [segment] ≠ [] := by simp
      have hmade := find?_put_self fs .directory hne
      have hkeeps := (PartOf.put hfree .directory).keepsWays rfl
      have hall := (hleads.mono hkeeps).trans (.down hstep hlength hmade (.refl ..))
      refine ⟨_, rfl, hfree, ?_, hmade, m, hall.of_stepsOf_eq (by simp [Path.steps])⟩
      exact hwf.put hne (by rwa [List.dropLast_concat]) (fun _ => rfl)
  · cases h
  · cases h

theorem makeDirectory_of_reaches {s : WorkingDirectory} (hcheck : checkPath p = .ok ())
    (h : fs.Reaches p.isAbsolute p.steps s) : makeDirectory p fs = .error .alreadyExists := by
  rcases h with ⟨links, hleads⟩
  have htrim : Path.stepsOf (trimSlashes p.segments) = Path.stepsOf p.steps := by
    simp [Path.steps]
  have hwalk := (hleads.of_stepsOf_eq htrim).walkFrom_place
  rw [makeDirectory_of_checkPath hcheck]
  rcases walkFrom_itself_of_target hwalk with h | ⟨l, target, h⟩
  · rw [h]
    cases s with
    | standing location => rfl
    | removed levels above => rfl
  · rw [h]

/-!
## Directories above others
-/

/-- A change that adds directories only, where one of some paths leads to then. -/
structure AddsDirectories (paths : List Path) (fs changed : Files) : Prop where
  wellFormed : changed.WellFormed
  workingDirectory : changed.workingDirectory = fs.workingDirectory
  added : ∀ location, changed.find? location = fs.find? location ∨
    (fs.find? location = none ∧ changed.find? location = some .directory ∧
      ∃ q ∈ paths, checkPath q = .ok () ∧
        changed.Reaches q.isAbsolute q.steps (.standing location))

namespace AddsDirectories

theorem refl (hwf : fs.WellFormed) (paths : List Path) : AddsDirectories paths fs fs :=
  ⟨hwf, rfl, fun _ => Or.inl rfl⟩

theorem partOf (h : AddsDirectories paths fs changed) : PartOf fs changed where
  find? location entry hfind := by
    rcases h.added location with hsame | ⟨hnone, -⟩
    · rw [hsame, hfind]
    · rw [hnone] at hfind
      cases hfind
  workingDirectory := h.workingDirectory ▸ .refl _

theorem keepsWays (h : AddsDirectories paths fs changed) : KeepsWays fs changed :=
  h.partOf.keepsWays h.workingDirectory

theorem trans {last : Files} (h : AddsDirectories paths fs changed)
    (h' : AddsDirectories paths changed last) : AddsDirectories paths fs last := by
  refine ⟨h'.wellFormed, h'.workingDirectory.trans h.workingDirectory, ?_⟩
  intro location
  rcases h'.added location with hsame | ⟨hnone, hlast, q, hq, hreaches⟩
  · rw [hsame]
    rcases h.added location with hsame' | ⟨hnone, hchanged, q, hq, hcheck, hreaches⟩
    · exact Or.inl hsame'
    · exact Or.inr ⟨hnone, hchanged, q, hq, hcheck, h'.keepsWays.reaches hreaches⟩
  · right
    refine ⟨?_, hlast, q, hq, hreaches⟩
    rcases h.added location with hsame | ⟨hnone', -⟩
    · rw [← hsame, hnone]
    · exact hnone'

theorem mono {more : List Path} (hsub : ∀ q ∈ paths, q ∈ more)
    (h : AddsDirectories paths fs changed) : AddsDirectories more fs changed := by
  refine ⟨h.wellFormed, h.workingDirectory, ?_⟩
  intro location
  rcases h.added location with hsame | ⟨hnone, hchanged, q, hq, hreaches⟩
  · exact Or.inl hsame
  · exact Or.inr ⟨hnone, hchanged, q, hsub q hq, hreaches⟩

end AddsDirectories

theorem addsDirectories_of_makeDirectory (hwf : fs.WellFormed) (hp : p ∈ paths)
    (h : makeDirectory p fs = .ok made) : AddsDirectories paths fs made := by
  rcases makeDirectory_eq_ok hwf h with ⟨location, rfl, hfree, hwf', hmade, hreaches⟩
  refine ⟨hwf', rfl, ?_⟩
  intro other
  by_cases heq : other = location
  · subst heq
    exact Or.inr ⟨hfree, hmade, p, hp, checkPath_of_makeDirectory h, hreaches⟩
  · exact Or.inl (find?_put_of_ne _ _ heq)

theorem makeFirst_cons_cases (p : Path) (above : List Path) (fs : Files) :
    (p.isEmpty = true ∧ makeFirst (p :: above) fs = .ok () fs) ∨
      (∃ made, makeDirectory p fs = .ok made ∧ makeFirst (p :: above) fs = .ok () made) ∨
      (∃ e changed, makeDirectory p fs = .error .missing ∧ makeFirst above fs = .error e changed ∧
        makeFirst (p :: above) fs = .error e changed) ∨
      (∃ changed, makeDirectory p fs = .error .missing ∧ makeFirst above fs = .ok () changed ∧
        ((∃ made, makeDirectory p changed = .ok made ∧
            makeFirst (p :: above) fs = .ok () made) ∨
          (changed.isDirectory p = true ∧ makeFirst (p :: above) fs = .ok () changed) ∨
          ∃ e, makeDirectory p changed = .error e ∧ changed.isDirectory p = false ∧
            makeFirst (p :: above) fs = .error e changed)) ∨
      (fs.isDirectory p = true ∧ makeFirst (p :: above) fs = .ok () fs) ∨
      ∃ e, makeDirectory p fs = .error e ∧ e ≠ .missing ∧ fs.isDirectory p = false ∧
        makeFirst (p :: above) fs = .error e fs := by
  generalize hresult : makeFirst (p :: above) fs = result
  simp only [makeFirst] at hresult
  by_cases hempty : p.isEmpty = true
  · rw [if_pos hempty] at hresult
    exact Or.inl ⟨hempty, hresult.symm⟩
  · right
    rw [if_neg hempty] at hresult
    split at hresult
    · next made hmade => exact Or.inl ⟨made, hmade, hresult.symm⟩
    · next hmissing =>
        right
        split at hresult
        · next e changed habove => exact Or.inl ⟨e, changed, hmissing, habove, hresult.symm⟩
        · next changed habove =>
            right
            left
            refine ⟨changed, hmissing, habove, ?_⟩
            split at hresult
            · next made hmade => exact Or.inl ⟨made, hmade, hresult.symm⟩
            · next e he =>
                split at hresult
                · next hdirectory => exact Or.inr (Or.inl ⟨hdirectory, hresult.symm⟩)
                · next hdirectory =>
                    exact Or.inr (Or.inr ⟨e, he, by simpa using hdirectory, hresult.symm⟩)
    · next e hother he =>
        right
        right
        right
        split at hresult
        · next hdirectory => exact Or.inl ⟨hdirectory, hresult.symm⟩
        · next hdirectory =>
            refine Or.inr ⟨e, he, ?_, by simpa using hdirectory, hresult.symm⟩
            rintro rfl
            exact hother rfl

theorem makeFirst_cons_eq_ok {above : List Path}
    (h : makeFirst (p :: above) fs = .ok () changed) :
    (p.isEmpty = true ∧ changed = fs) ∨ makeDirectory p fs = .ok changed ∨
      (fs.isDirectory p = true ∧ changed = fs) ∨
      ∃ middle, makeDirectory p fs = .error .missing ∧ makeFirst above fs = .ok () middle ∧
        (makeDirectory p middle = .ok changed ∨
          (middle.isDirectory p = true ∧ changed = middle)) := by
  rcases makeFirst_cons_cases p above fs with ⟨hempty, heq⟩ | ⟨made, hmade, heq⟩ |
    ⟨e, middle, -, -, heq⟩ |
    ⟨middle, hmissing, hmiddle, ⟨made, hmade, heq⟩ | ⟨hdirectory, heq⟩ | ⟨e, -, -, heq⟩⟩ |
    ⟨hdirectory, heq⟩ | ⟨e, -, -, -, heq⟩ <;> rw [heq] at h <;> cases h
  · exact Or.inl ⟨hempty, rfl⟩
  · exact Or.inr (Or.inl hmade)
  · exact Or.inr (Or.inr (Or.inr ⟨middle, hmissing, hmiddle, Or.inl hmade⟩))
  · exact Or.inr (Or.inr (Or.inr ⟨_, hmissing, hmiddle, Or.inr ⟨hdirectory, rfl⟩⟩))
  · exact Or.inr (Or.inr (Or.inl ⟨hdirectory, rfl⟩))

theorem makeFirst_of_reaches {s : WorkingDirectory} (hcheck : checkPath p = .ok ())
    (h : fs.Reaches p.isAbsolute p.steps s) (above : List Path) :
    makeFirst (p :: above) fs = .ok () fs := by
  simp only [makeFirst, makeDirectory_of_reaches hcheck h,
    isDirectory_iff.mpr ⟨hcheck, s, h⟩, if_true, ite_self]

theorem makeFirst_of_made (hne : p.isEmpty = false) (h : makeDirectory p fs = .ok made)
    (above : List Path) : makeFirst (p :: above) fs = .ok () made := by
  simp only [makeFirst, hne, Bool.false_eq_true, if_false, h]

theorem makeFirst_of_missing {above : List Path} (hne : p.isEmpty = false)
    (hmissing : makeDirectory p fs = .error .missing)
    (habove : makeFirst above fs = .ok () changed) (h : makeDirectory p changed = .ok made) :
    makeFirst (p :: above) fs = .ok () made := by
  simp only [makeFirst, hne, Bool.false_eq_true, if_false, hmissing, habove, h]

theorem makeFirst_addsDirectories (hwf : fs.WellFormed) (paths : List Path) :
    AddsDirectories paths fs ((makeFirst paths).after fs) := by
  induction paths generalizing fs with
  | nil => exact .refl hwf []
  | cons p above ih =>
      have hp : p ∈ p :: above := List.mem_cons_self ..
      have hrest : AddsDirectories (p :: above) fs ((makeFirst above).after fs) :=
        (ih hwf).mono fun q hq => List.mem_cons_of_mem p hq
      rcases makeFirst_cons_cases p above fs with ⟨-, h⟩ | ⟨made, hmade, h⟩ |
        ⟨e, changed, -, habove, h⟩ | ⟨changed, -, habove, hlast⟩ | ⟨-, h⟩ | ⟨e, -, -, -, h⟩
      · rw [FileAction.after_of_ok h]
        exact .refl hwf _
      · rw [FileAction.after_of_ok h]
        exact addsDirectories_of_makeDirectory hwf hp hmade
      · rw [FileAction.after_of_error h, ← FileAction.after_of_error habove]
        exact hrest
      · rw [FileAction.after_of_ok habove] at hrest
        rcases hlast with ⟨made, hmade, h⟩ | ⟨-, h⟩ | ⟨e, -, -, h⟩
        · rw [FileAction.after_of_ok h]
          exact hrest.trans (addsDirectories_of_makeDirectory hrest.wellFormed hp hmade)
        · rw [FileAction.after_of_ok h]
          exact hrest
        · rw [FileAction.after_of_error h]
          exact hrest
      · rw [FileAction.after_of_ok h]
        exact .refl hwf _
      · rw [FileAction.after_of_error h]
        exact .refl hwf _

theorem reaches_of_makeFirst (hwf : fs.WellFormed) {fuel : Nat}
    (h : makeFirst (ancestors (fuel + 1) p) fs = .ok () changed) :
    ∃ s, changed.Reaches p.isAbsolute p.steps s := by
  obtain ⟨above, habove⟩ : ∃ above, ancestors (fuel + 1) p = p :: above := by
    rw [ancestors]
    split
    · exact ⟨_, rfl⟩
    · exact ⟨_, rfl⟩
  rw [habove] at h
  rcases makeFirst_cons_eq_ok h with ⟨hempty, rfl⟩ | hmade | ⟨hdirectory, rfl⟩ |
    ⟨middle, -, hmiddle, hmade | ⟨hdirectory, rfl⟩⟩
  · rw [Path.eq_empty_of_isEmpty hempty]
    exact ⟨_, linkLimit, .refl ..⟩
  · rcases makeDirectory_eq_ok hwf hmade with ⟨location, -, -, -, -, hreaches⟩
    exact ⟨_, hreaches⟩
  · exact (isDirectory_iff.mp hdirectory).2
  · have hadds := makeFirst_addsDirectories hwf above
    rw [FileAction.after_of_ok hmiddle] at hadds
    rcases makeDirectory_eq_ok hadds.wellFormed hmade with ⟨location, -, -, -, -, hreaches⟩
    exact ⟨_, hreaches⟩
  · exact (isDirectory_iff.mp hdirectory).2

/-!
## A new directory

A path may lead to an old directory after the directories above it are made, if two dots
come after a name that led nowhere.
-/

/-- Whether all steps upwards in a path can be taken. -/
def Grounded (fs : Files) (p : Path) : Prop :=
  ∀ front, front ++ [Segment.up] <+: p.steps →
    ∃ s, fs.Reaches p.isAbsolute (front ++ [Segment.up]) s

theorem grounded_of_not_mem (h : Segment.up ∉ p.steps) : fs.Grounded p := by
  intro front hfront
  exact absurd (hfront.subset (List.mem_append_right _ (List.mem_singleton.mpr rfl))) h

theorem Grounded.parent? {q : Path} (h : fs.Grounded p) (hq : p.parent? = some q) :
    fs.Grounded q := by
  rcases Path.steps_parent? hq with ⟨habs, hsteps⟩
  intro front hfront
  rw [habs]
  rw [hsteps] at hfront
  exact h front (hfront.trans (List.dropLast_prefix _))

theorem Grounded.of_partOf (h : fs.Grounded p) (hpart : PartOf fs changed) :
    changed.Grounded p := by
  intro front hfront
  rcases h front hfront with ⟨s, hs⟩
  exact hpart.reaches hs

/-- Whether a path leads to a directory that was not there before and holds nothing. -/
def NewlyReaches (fs changed : Files) (p : Path) : Prop :=
  checkPath p = .ok () ∧ ∃ location,
    changed.Reaches p.isAbsolute p.steps (.standing location) ∧
      fs.find? location = none ∧ changed.isOccupied location = false

theorem newlyReaches_of_makeDirectory (hwf : fs.WellFormed)
    (h : makeDirectory p fs = .ok made) : NewlyReaches fs made p := by
  rcases makeDirectory_eq_ok hwf h with ⟨location, rfl, hfree, hwf', -, hreaches⟩
  refine ⟨checkPath_of_makeDirectory h, location, hreaches, hfree, ?_⟩
  have hempty : fs.isOccupied location = false := hwf.not_isOccupied (by rw [hfree]; simp)
  rw [not_isOccupied_iff] at hempty ⊢
  intro other hbelow
  rw [find?_put_of_ne _ _ (isBelow_iff.mp hbelow).2]
  exact hempty other hbelow

theorem NewlyReaches.of_partOf (hpart : PartOf fs changed) (h : NewlyReaches changed made p) :
    NewlyReaches fs made p := by
  rcases h with ⟨hcheck, location, hreaches, hfree, hempty⟩
  refine ⟨hcheck, location, hreaches, ?_, hempty⟩
  cases hfs : fs.find? location with
  | none => rfl
  | some entry =>
      rw [hpart.find? location entry hfs] at hfree
      cases hfree

theorem NewlyReaches.not_isDirectory {q : Path} (hgrounded : fs.Grounded p)
    (hmissing : makeDirectory p fs = .error .missing) (hq : p.parent? = some q)
    (hnew : NewlyReaches fs changed q) : changed.isDirectory p = false := by
  rw [Bool.eq_false_iff]
  intro hdirectory
  rcases isDirectory_iff.mp hdirectory with ⟨hcheck, s, hreaches⟩
  have hnowhere : ∀ s, ¬ fs.Reaches p.isAbsolute p.steps s := by
    intro s hs
    rw [makeDirectory_of_reaches hcheck hs] at hmissing
    cases hmissing
  rcases Path.steps_parent? hq with ⟨habs, hsteps⟩
  by_cases hnil : p.steps = []
  · apply hnowhere (fs.start p.isAbsolute)
    rw [hnil]
    exact ⟨linkLimit, .refl ..⟩
  · have hsplit := List.dropLast_append_getLast hnil
    rw [← hsteps] at hsplit
    generalize hx : p.steps.getLast hnil = x at hsplit
    have hidle : x.isIdle = false :=
      Path.not_isIdle_of_mem_stepsOf (hx ▸ List.getLast_mem hnil : x ∈ p.steps)
    by_cases hup : x = Segment.up
    · subst hup
      rcases hgrounded q.steps (hsplit ▸ List.prefix_rfl) with ⟨s, hs⟩
      rw [hsplit] at hs
      exact hnowhere s hs
    · rcases hnew with ⟨-, location, hlocation, -, hempty⟩
      rw [habs] at hlocation
      rw [← hsplit] at hreaches
      rcases hlocation.walkFrom_rest hreaches with ⟨k, hwalk⟩
      have hfree : changed.find? (location ++ [x]) = none :=
        not_isOccupied_iff.mp hempty _ (isBelow_append (by simp))
      obtain ⟨-, -, ⟨-, -, hplace⟩ | ⟨hfind, -⟩ | ⟨_, hfind, -⟩ | ⟨_, hfind, -⟩⟩ :=
        walkFrom_standing_cases ⟨hidle, hup⟩ hwalk
      · cases s with
        | standing l => cases hplace
        | removed levels l => cases hplace
      · rw [hfree] at hfind
        cases hfind
      · rw [hfree] at hfind
        cases hfind
      · rw [hfree] at hfind
        cases hfind

/-- The directories made for a path lead to a new one, unless there is nothing to make. -/
theorem newlyReaches_of_makeFirst (hwf : fs.WellFormed) {fuel : Nat} (hgrounded : fs.Grounded p)
    (h : makeFirst (ancestors fuel p) fs = .ok () changed) :
    (changed = fs ∧ (fuel = 0 ∨ p.isEmpty = true ∨ fs.isDirectory p = true)) ∨
      NewlyReaches fs changed p := by
  induction fuel generalizing p changed with
  | zero =>
      cases h
      exact Or.inl ⟨rfl, Or.inl rfl⟩
  | succ fuel ih =>
      obtain ⟨above, habove, hrest⟩ : ∃ above, ancestors (fuel + 1) p = p :: above ∧
          ∀ middle, makeFirst above fs = .ok () middle →
            middle = fs ∨ ∃ q, p.parent? = some q ∧ NewlyReaches fs middle q := by
        rw [ancestors]
        split
        · refine ⟨[], rfl, fun middle hmiddle => Or.inl ?_⟩
          cases hmiddle
          rfl
        · next q hq =>
            refine ⟨_, rfl, fun middle hmiddle => ?_⟩
            rcases ih (hgrounded.parent? hq) hmiddle with ⟨hsame, -⟩ | hnew
            · exact Or.inl hsame
            · exact Or.inr ⟨q, hq, hnew⟩
      rw [habove] at h
      rcases makeFirst_cons_eq_ok h with ⟨hempty, rfl⟩ | hmade | ⟨hdirectory, rfl⟩ |
        ⟨middle, hmissing, hmiddle, hlast⟩
      · exact Or.inl ⟨rfl, Or.inr (Or.inl hempty)⟩
      · exact Or.inr (newlyReaches_of_makeDirectory hwf hmade)
      · exact Or.inl ⟨rfl, Or.inr (Or.inr hdirectory)⟩
      · have hadds := makeFirst_addsDirectories hwf above
        rw [FileAction.after_of_ok hmiddle] at hadds
        rcases hlast with hmade | ⟨hdirectory, rfl⟩
        · exact Or.inr
            ((newlyReaches_of_makeDirectory hadds.wellFormed hmade).of_partOf hadds.partOf)
        · exfalso
          rcases hrest changed hmiddle with rfl | ⟨q, hq, hnew⟩
          · rcases isDirectory_iff.mp hdirectory with ⟨hcheck, s, hs⟩
            rw [makeDirectory_of_reaches hcheck hs] at hmissing
            cases hmissing
          · rw [hnew.not_isDirectory hgrounded hmissing hq] at hdirectory
            cases hdirectory

/-!
## Writing a file
-/

theorem write_eq_ok {content : List UInt8} (h : write p content fs = .ok changed) :
    ∃ location, changed = fs.put location (.file content) ∧
      (fs.locate .writing p = .ok (.free location) ∨
        ∃ old, fs.locate .writing p = .ok (.entry location (.file old))) := by
  unfold write at h
  cases hlocate : fs.locate .writing p with
  | error e =>
      rw [hlocate] at h
      cases h
  | ok place =>
      rw [hlocate] at h
      cases place with
      | free location =>
          cases h
          exact ⟨location, rfl, Or.inl rfl⟩
      | entry location entry =>
          cases entry with
          | file old =>
              cases h
              exact ⟨location, rfl, Or.inr ⟨old, rfl⟩⟩
          | link target => cases h
          | directory => cases h
      | removed => cases h

end Files

end StaticSite
