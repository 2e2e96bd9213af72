import Mathlib.Data.List.Flatten
import StaticSite.Proofs.Files.Leading
import StaticSite.Proofs.Files.WellFormed
import StaticSite.Proofs.Outcomes
/-!
# Places

What a walk says about the files: at the place where it ends stands what it found there,
or nothing, in a directory. The same place is found again in files that have more in
them, and by the same steps.
-/

namespace StaticSite.Files

variable {fs changed part whole : Files} {purpose : Purpose} {n m : Nat}
  {s t : WorkingDirectory} {segments left : List Segment}

/-- A working directory is a directory, or can be left to one. -/
def Stands (fs : Files) (s : WorkingDirectory) : Prop := fs.find? s.base = some .directory

theorem WellFormed.stands_start (hwf : fs.WellFormed) (isAbsolute : Bool) :
    fs.Stands (fs.start isAbsolute) := by
  cases isAbsolute with
  | true => exact find?_root fs
  | false => exact hwf.base

theorem WellFormed.stands_up (hwf : fs.WellFormed) (h : fs.Stands s) : fs.Stands s.up := by
  cases s with
  | standing location => exact hwf.find?_dropLast h
  | removed levels above =>
      cases levels with
      | zero => exact h
      | succ levels => exact h

theorem Leads.stands (hwf : fs.WellFormed) (h : Leads fs n s segments m t left)
    (hs : fs.Stands s) : fs.Stands t := by
  induction h with
  | refl => exact hs
  | idle _ _ ih => exact ih hs
  | up _ ih => exact ih (hwf.stands_up hs)
  | down _ _ hfind _ ih => exact ih hfind
  | @link links m location t segment target rest left _ _ hfind _ ih =>
      apply ih
      rw [linkStart]
      split
      · exact find?_root fs
      · exact hs

theorem WellFormed.find?_of_walkFrom (hwf : fs.WellFormed) (hs : fs.Stands s)
    {location : Location} {entry : Entry}
    (h : fs.walkFrom purpose n s segments = .ok (.entry location entry)) :
    fs.find? location = some entry := by
  rcases leads_of_walkFrom h with ⟨m, t, left, hleads, hhalts⟩
  have ht := hleads.stands hwf hs
  generalize hplace : Place.entry location entry = place at hhalts
  cases hhalts with
  | here =>
      cases t with
      | standing l =>
          cases hplace
          exact ht
      | removed => cases hplace
  | free => cases hplace
  | file _ hfind =>
      cases hplace
      exact hfind
  | link _ hfind =>
      cases hplace
      exact hfind

theorem WellFormed.free_of_walkFrom (hwf : fs.WellFormed) (hs : fs.Stands s)
    {location : Location} (h : fs.walkFrom purpose n s segments = .ok (.free location)) :
    fs.find? location = none ∧ ∃ above segment m, location = above ++ [segment] ∧
      fs.find? above = some .directory ∧ segment.isStepDown ∧
      segment.bytes.length ≤ nameLimit ∧
      Leads fs n s segments m (.standing above) [segment] := by
  rcases leads_of_walkFrom h with ⟨m, t, left, hleads, hhalts⟩
  have ht := hleads.stands hwf hs
  generalize hplace : Place.free location = place at hhalts
  cases hhalts with
  | here =>
      cases t with
      | standing l => cases hplace
      | removed => cases hplace
  | @free above segment hstep hlength hfind =>
      cases hplace
      exact ⟨hfind, above, segment, m, rfl, ht, hstep, hlength, hleads⟩
  | file => cases hplace
  | link => cases hplace

/-!
## Ways that are kept

Where segments lead to depends on the directories and links only.
-/

/-- A change that keeps all directories and links, and the working directory. -/
structure KeepsWays (fs changed : Files) : Prop where
  directory : ∀ location, fs.find? location = some .directory →
    changed.find? location = some .directory
  link : ∀ location target, fs.find? location = some (.link target) →
    changed.find? location = some (.link target)
  workingDirectory : changed.workingDirectory = fs.workingDirectory

theorem KeepsWays.refl (fs : Files) : KeepsWays fs fs :=
  ⟨fun _ h => h, fun _ _ h => h, rfl⟩

theorem KeepsWays.trans {last : Files} (h : KeepsWays fs changed) (h' : KeepsWays changed last) :
    KeepsWays fs last where
  directory location hfind := h'.directory location (h.directory location hfind)
  link location target hfind := h'.link location target (h.link location target hfind)
  workingDirectory := h'.workingDirectory.trans h.workingDirectory

theorem Leads.mono (hkeeps : KeepsWays fs changed) (h : Leads fs n s segments m t left) :
    Leads changed n s segments m t left := by
  induction h with
  | refl => exact .refl ..
  | idle hidle _ ih => exact .idle hidle ih
  | up _ ih => exact .up ih
  | down hstep hlength hfind _ ih => exact .down hstep hlength (hkeeps.directory _ hfind) ih
  | link hstep hlength hfind _ ih => exact .link hstep hlength (hkeeps.link _ _ hfind) ih

/-- Segments lead from where a path starts to a directory. -/
def Reaches (fs : Files) (isAbsolute : Bool) (segments : List Segment) (s : WorkingDirectory) :
    Prop :=
  ∃ links, Leads fs linkLimit (fs.start isAbsolute) segments links s []

theorem KeepsWays.reaches (hkeeps : KeepsWays fs changed) {isAbsolute : Bool}
    (h : fs.Reaches isAbsolute segments s) : changed.Reaches isAbsolute segments s := by
  rcases h with ⟨links, h⟩
  have hstart : changed.start isAbsolute = fs.start isAbsolute := by
    rw [start, start, hkeeps.workingDirectory]
  refine ⟨links, ?_⟩
  rw [hstart]
  exact h.mono hkeeps

theorem Reaches.of_stepsOf_eq {isAbsolute : Bool} {rest : List Segment}
    (h : fs.Reaches isAbsolute segments s) (hsteps : Path.stepsOf rest = Path.stepsOf segments) :
    fs.Reaches isAbsolute rest s := by
  rcases h with ⟨links, h⟩
  exact ⟨links, h.of_stepsOf_eq hsteps⟩

theorem Reaches.eq_standing {isAbsolute : Bool} {location : Location}
    (h : fs.Reaches isAbsolute segments (.standing location))
    (h' : fs.Reaches isAbsolute segments s) : s = .standing location := by
  rcases h with ⟨_, h⟩
  rcases h' with ⟨_, h'⟩
  exact h.eq_standing h'

theorem Reaches.of_prefix {isAbsolute : Bool} {front : List Segment}
    (h : fs.Reaches isAbsolute segments s) (hbegins : front <+: segments) :
    ∃ t, fs.Reaches isAbsolute front t := by
  rcases hbegins with ⟨rest, rfl⟩
  rcases h with ⟨_, h⟩
  rcases h.split with ⟨k, t, hfront, -⟩
  exact ⟨t, k, hfront⟩

theorem Reaches.stands {isAbsolute : Bool} (hwf : fs.WellFormed)
    (h : fs.Reaches isAbsolute segments s) : fs.Stands s := by
  rcases h with ⟨links, h⟩
  exact h.stands hwf (hwf.stands_start isAbsolute)

/-!
## Paths
-/

theorem checkPath_cases (p : Path) :
    checkPath p = .ok () ∨ ∃ e, checkPath p = .error e := by
  cases checkPath p with
  | ok => exact Or.inl rfl
  | error e => exact Or.inr ⟨e, rfl⟩

theorem checkPath_eq_ok_iff {p : Path} :
    checkPath p = .ok () ↔
      .char '\x00' ∉ p.parts ∧ p.isEmpty = false ∧ p.size ≤ pathLimit := by
  unfold checkPath checkParts
  by_cases hnul : .char '\x00' ∈ p.parts
  · simp [hnul, Bind.bind, Except.bind]
  · by_cases hempty : p.isEmpty = true
    · simp [hnul, hempty, Bind.bind, Except.bind]
    · by_cases hsize : pathLimit < p.size
      · simp [hnul, hempty, hsize, Bind.bind, Except.bind]
      · simp [hnul, hempty, hsize, Nat.le_of_not_lt hsize, Bind.bind, Except.bind]

theorem checkPath_of_sublist {p q : Path} (hsub : q.parts.Sublist p.parts)
    (hne : q.isEmpty = false) (h : checkPath p = .ok ()) : checkPath q = .ok () := by
  rcases checkPath_eq_ok_iff.mp h with ⟨hnul, -, hsize⟩
  refine checkPath_eq_ok_iff.mpr ⟨fun hmem => hnul (hsub.subset hmem), hne, ?_⟩
  exact (hsub.flatMap Utf8.Part.bytes).length_le.trans hsize

theorem locate_eq_ok_iff {p : Path} {place : Place} :
    fs.locate purpose p = .ok place ↔
      checkPath p = .ok () ∧
        fs.walkFrom purpose linkLimit (fs.start p.isAbsolute) p.segments = .ok place := by
  rw [locate, enter_eq]
  cases checkPath p with
  | ok => simp [Bind.bind, Except.bind]
  | error e => simp [Bind.bind, Except.bind]

theorem WellFormed.find?_of_locate (hwf : fs.WellFormed) {p : Path} {location : Location}
    {entry : Entry} (h : fs.locate purpose p = .ok (.entry location entry)) :
    fs.find? location = some entry :=
  hwf.find?_of_walkFrom (hwf.stands_start _) (locate_eq_ok_iff.mp h).2

theorem isPresent_iff {p : Path} :
    fs.isPresent p = true ↔
      ∃ place, fs.locate .target p = .ok place ∧ ∀ l, place ≠ .free l := by
  unfold isPresent
  cases fs.locate .target p with
  | error e => simp
  | ok place => cases place <;> simp

theorem isPresent_of_isDirectory {p : Path} (h : fs.isDirectory p = true) :
    fs.isPresent p = true := by
  unfold isDirectory at h
  unfold isPresent
  split at h
  · next hlocate => rw [hlocate]
  · next hlocate => rw [hlocate]
  · cases h

theorem locate_of_reaches {p : Path} (hcheck : checkPath p = .ok ())
    (h : fs.Reaches p.isAbsolute p.steps s) : fs.locate .target p = .ok s.place := by
  rcases h with ⟨links, hleads⟩
  have hsteps : Path.stepsOf p.segments = Path.stepsOf p.steps := by
    rw [Path.stepsOf_steps, Path.steps]
  exact locate_eq_ok_iff.mpr ⟨hcheck, (hleads.of_stepsOf_eq hsteps).walkFrom_place⟩

theorem reaches_of_locate {p : Path} {purpose : Purpose} {location : Location}
    (h : fs.locate purpose p = .ok (.entry location .directory)) :
    checkPath p = .ok () ∧ fs.Reaches p.isAbsolute p.steps (.standing location) := by
  rcases locate_eq_ok_iff.mp h with ⟨hcheck, hwalk⟩
  rcases leads_of_walkFrom_directory hwalk with ⟨links, hleads⟩
  exact ⟨hcheck, links, hleads.of_stepsOf_eq (by rw [Path.stepsOf_steps, Path.steps])⟩

theorem locate_target_of_itself {p : Path} {location : Location}
    (h : fs.locate .itself p = .ok (.entry location .directory)) :
    fs.locate .target p = .ok (.entry location .directory) := by
  rcases reaches_of_locate h with ⟨hcheck, hreaches⟩
  exact locate_of_reaches hcheck hreaches

theorem isEmpty_of_locate {p : Path} {purpose : Purpose} {place : Place}
    (h : fs.locate purpose p = .ok place) : p.isEmpty = false := by
  rcases locate_eq_ok_iff.mp h with ⟨hcheck, -⟩
  exact (checkPath_eq_ok_iff.mp hcheck).2.1

theorem isDirectory_iff {p : Path} :
    fs.isDirectory p = true ↔
      checkPath p = .ok () ∧ ∃ s, fs.Reaches p.isAbsolute p.steps s := by
  have hsteps : Path.stepsOf p.segments = Path.stepsOf p.steps := by
    rw [Path.stepsOf_steps, Path.steps]
  constructor
  · intro h
    unfold isDirectory at h
    split at h
    · next location hlocate =>
        rcases reaches_of_locate hlocate with ⟨hcheck, hreaches⟩
        exact ⟨hcheck, _, hreaches⟩
    · next hlocate =>
        rcases locate_eq_ok_iff.mp hlocate with ⟨hcheck, hwalk⟩
        rcases leads_of_walkFrom_removed hwalk with ⟨links, levels, above, hleads⟩
        exact ⟨hcheck, _, links, hleads.of_stepsOf_eq hsteps.symm⟩
    · cases h
  · rintro ⟨hcheck, s, hreaches⟩
    unfold isDirectory
    rw [locate_of_reaches hcheck hreaches]
    cases s with
    | standing location => rfl
    | removed levels above => rfl

theorem read_eq_ok_iff {p : Path} {content : List UInt8} :
    fs.read p = .ok content ↔
      ∃ location, fs.locate .target p = .ok (.entry location (.file content)) := by
  unfold Files.read
  cases fs.locate .target p with
  | error e => simp [Bind.bind, Except.bind]
  | ok place =>
      cases place with
      | free location => simp [Bind.bind, Except.bind]
      | removed => simp [Bind.bind, Except.bind]
      | entry location entry => cases entry <;> simp [Bind.bind, Except.bind]

/-!
## Names below a directory

Below a location without links, names lead to what they spell.
-/

def HasNoLinksBelow (fs : Files) (location : Location) : Prop :=
  ∀ rest target, rest ≠ [] → fs.find? (location ++ rest) ≠ some (.link target)

theorem WellFormed.hasNoLinksBelow (hwf : fs.WellFormed)
    (h : ∀ pair ∈ fs.entries, ∀ target, pair.2 ≠ .link target) (location : Location) :
    fs.HasNoLinksBelow location := by
  intro rest target hne hfind
  have hmem := (mem_entries_iff hwf).mpr ⟨by simp [hne], hfind⟩
  exact h _ hmem target rfl

theorem walkFrom_names {top rest : Location} {place : Place}
    (hlinks : fs.HasNoLinksBelow top) (hup : Segment.up ∉ Path.stepsOf segments)
    (h : fs.walkFrom purpose n (.standing (top ++ rest)) segments = .ok place) :
    place = .free (top ++ rest ++ Path.stepsOf segments) ∨
      ∃ e, place = .entry (top ++ rest ++ Path.stepsOf segments) e := by
  induction segments generalizing rest with
  | nil =>
      rw [walkFrom_nil] at h
      cases h
      right
      exact ⟨.directory, by rw [Path.stepsOf_nil, List.append_nil]; rfl⟩
  | cons segment segments ih =>
      by_cases hidle : segment.isIdle = true
      · rw [Path.stepsOf_cons_of_isIdle hidle] at hup ⊢
        rw [walkFrom_idle hidle] at h
        exact ih hup h
      · rw [Path.stepsOf_cons_of_not_isIdle (by simpa using hidle)] at hup ⊢
        rcases List.ne_and_not_mem_of_not_mem_cons hup with ⟨hne, hup⟩
        have hstep : segment.isStepDown := ⟨by simpa using hidle, hne.symm⟩
        obtain ⟨-, -, ⟨-, rfl, rfl⟩ | ⟨-, h⟩ | ⟨content, -, rfl, rfl⟩ | ⟨target, hfind, -⟩⟩ :=
          walkFrom_standing_cases hstep h
        · exact Or.inl rfl
        · rw [List.append_assoc] at h
          have hplace := ih hup h
          rwa [← List.append_assoc, List.append_assoc _ [segment], List.singleton_append] at hplace
        · exact Or.inr ⟨_, rfl⟩
        · rw [List.append_assoc] at hfind
          exact absurd hfind (hlinks _ target (by simp))

/-- What names lead to that is no directory has a name that is not too long, and so have
the directories on the way; the name comes last. -/
theorem last_of_walkFrom {top rest : Location} {place : Place}
    (hlinks : fs.HasNoLinksBelow top) (hup : Segment.up ∉ Path.stepsOf segments)
    (h : fs.walkFrom purpose n (.standing (top ++ rest)) segments = .ok place)
    (hplace : ∀ l, place ≠ .entry l .directory) :
    (∀ x ∈ Path.stepsOf segments, x.bytes.length ≤ nameLimit) ∧
      ∀ x, segments.getLast? = some x → x.isIdle = false := by
  induction segments generalizing rest with
  | nil =>
      rw [walkFrom_nil] at h
      cases h
      exact absurd rfl (hplace _)
  | cons segment segments ih =>
      have hnil : segments = [] → fs.walkFrom purpose n (.standing (top ++ rest)) segments =
          .ok (.entry (top ++ rest) .directory) := by
        rintro rfl
        exact walkFrom_nil ..
      by_cases hidle : segment.isIdle = true
      · rw [Path.stepsOf_cons_of_isIdle hidle] at hup ⊢
        rw [walkFrom_idle hidle] at h
        have hne : segments ≠ [] := by
          intro heq
          rw [hnil heq] at h
          exact hplace _ (Except.ok.inj h).symm
        rw [List.getLast?_cons_of_ne_nil hne]
        exact ih hup h
      · have hidle' : segment.isIdle = false := by simpa using hidle
        rw [Path.stepsOf_cons_of_not_isIdle hidle'] at hup ⊢
        rcases List.ne_and_not_mem_of_not_mem_cons hup with ⟨hne, hup⟩
        obtain ⟨hlength, -, ⟨-, rfl, rfl⟩ | ⟨-, h⟩ | ⟨content, -, rfl, rfl⟩ | ⟨target, hfind, -⟩⟩ :=
          walkFrom_standing_cases ⟨hidle', hne.symm⟩ h
        · simp [hlength, hidle']
        · rw [List.append_assoc] at h
          have hrest : segments ≠ [] := by
            rintro rfl
            rw [walkFrom_nil] at h
            exact hplace _ (Except.ok.inj h).symm
          rcases ih hup h with ⟨hshort, hlast⟩
          rw [List.getLast?_cons_of_ne_nil hrest]
          exact ⟨List.forall_mem_cons.mpr ⟨hlength, hshort⟩, hlast⟩
        · simp [hlength, hidle']
        · rw [List.append_assoc] at hfind
          exact absurd hfind (hlinks _ target (by simp))

theorem WellFormed.leads_of_directory (hwf : fs.WellFormed) {location : Location}
    (hup : Segment.up ∉ Path.stepsOf segments)
    (hshort : ∀ x ∈ Path.stepsOf segments, x.bytes.length ≤ nameLimit)
    (h : fs.find? (location ++ Path.stepsOf segments) = some .directory) (n : Nat) :
    Leads fs n (.standing location) segments n
      (.standing (location ++ Path.stepsOf segments)) [] := by
  induction segments generalizing location with
  | nil =>
      rw [Path.stepsOf_nil, List.append_nil]
      exact .refl ..
  | cons segment segments ih =>
      by_cases hidle : segment.isIdle = true
      · rw [Path.stepsOf_cons_of_isIdle hidle] at hup hshort h ⊢
        exact .idle hidle (ih hup hshort h)
      · have hidle' : segment.isIdle = false := by simpa using hidle
        rw [Path.stepsOf_cons_of_not_isIdle hidle'] at hup hshort h ⊢
        rcases List.ne_and_not_mem_of_not_mem_cons hup with ⟨hne, hup⟩
        rw [List.append_cons] at h ⊢
        have hfind : fs.find? (location ++ [segment]) = some .directory := by
          by_cases hnil : Path.stepsOf segments = []
          · rwa [hnil, List.append_nil] at h
          · exact hwf.find?_of_append hnil h
        exact .down ⟨hidle', hne.symm⟩ (hshort _ (List.mem_cons_self ..)) hfind
          (ih hup (fun x hx => hshort x (List.mem_cons_of_mem _ hx)) h)

theorem Reaches.to_directory {isAbsolute : Bool} {top names : Location} (hwf : fs.WellFormed)
    (h : fs.Reaches isAbsolute segments (.standing top)) (hnames : ∀ y ∈ names, y.isStepDown)
    (hshort : ∀ y ∈ names, y.bytes.length ≤ nameLimit)
    (hdirectory : fs.find? (top ++ names) = some .directory) :
    fs.Reaches isAbsolute (segments ++ names) (.standing (top ++ names)) := by
  have hsame : Path.stepsOf names = names := Path.stepsOf_eq_self fun y hy => (hnames y hy).1
  rcases h with ⟨links, hleads⟩
  have hrest : Leads fs links (.standing top) names links
      (.standing (top ++ Path.stepsOf names)) [] := hwf.leads_of_directory
    (by rw [hsame]; exact fun hup => (hnames _ hup).2 rfl) (by rwa [hsame]) (by rwa [hsame]) links
  rw [hsame] at hrest
  exact ⟨links, hleads.append_trans hrest⟩

theorem walkFrom_free {location : Location} {x : Segment} (hx : x.isStepDown)
    (hlength : x.bytes.length ≤ nameLimit) (h : fs.find? (location ++ [x]) = none) (n : Nat) :
    fs.walkFrom purpose n (.standing location) [x] = .ok (.free (location ++ [x])) := by
  rw [walkFrom_standing hx, Purpose.refuses_nil, if_neg Bool.false_ne_true,
    if_neg (Nat.not_lt_of_le hlength), h]
  rfl

theorem walkFrom_missing {location : Location} {x : Segment} (hx : x ≠ [])
    (hup : Segment.up ∉ Path.stepsOf segments)
    (hshort : ∀ y ∈ Path.stepsOf segments, y.bytes.length ≤ nameLimit)
    (hroom : ∀ first, first <+: Path.stepsOf segments →
      fs.find? (location ++ first) = none ∨ fs.find? (location ++ first) = some .directory)
    (hstands : fs.find? location = some .directory)
    (h : fs.find? (location ++ Path.stepsOf segments) = none) (n : Nat) :
    fs.walkFrom purpose n (.standing location) (segments ++ [x]) = .error .missing := by
  induction segments generalizing location with
  | nil =>
      rw [Path.stepsOf_nil, List.append_nil, hstands] at h
      cases h
  | cons segment segments ih =>
      rw [List.cons_append]
      by_cases hidle : segment.isIdle = true
      · rw [Path.stepsOf_cons_of_isIdle hidle] at hup hshort hroom h
        rw [walkFrom_idle hidle]
        exact ih hup hshort hroom hstands h
      · have hidle' : segment.isIdle = false := by simpa using hidle
        rw [Path.stepsOf_cons_of_not_isIdle hidle'] at hup hshort hroom h
        rcases List.ne_and_not_mem_of_not_mem_cons hup with ⟨hne, hup⟩
        have hstep : segment.isStepDown := ⟨hidle', hne.symm⟩
        have hlength := hshort _ (List.mem_cons_self ..)
        have hrefuses := Purpose.refuses_of_mem (List.mem_append_right segments
          (List.mem_singleton.mpr rfl)) hx purpose
        rcases hroom [segment] (List.prefix_append [segment] _) with hfind | hfind
        · rw [walkFrom_standing hstep, hrefuses, if_neg Bool.false_ne_true,
            if_neg (Nat.not_lt_of_le hlength), hfind]
          exact if_neg (by simp)
        · rw [walkFrom_down hstep hlength hfind hrefuses]
          refine ih hup (fun y hy => hshort y (List.mem_cons_of_mem _ hy)) ?_ hfind
            (by simpa using h)
          intro first hfirst
          simpa using hroom (segment :: first) ((List.prefix_cons_inj segment).mpr hfirst)

theorem walkFrom_of_agree {top rest : Location} {place : Place}
    (hlinks : fs.HasNoLinksBelow top) (hup : Segment.up ∉ Path.stepsOf segments)
    (hagree : ∀ first, first <+: Path.stepsOf segments →
      changed.find? (top ++ rest ++ first) = fs.find? (top ++ rest ++ first))
    (h : fs.walkFrom purpose n (.standing (top ++ rest)) segments = .ok place) :
    changed.walkFrom purpose n (.standing (top ++ rest)) segments = .ok place := by
  induction segments generalizing rest with
  | nil =>
      rw [walkFrom_nil] at h ⊢
      exact h
  | cons segment segments ih =>
      by_cases hidle : segment.isIdle = true
      · rw [Path.stepsOf_cons_of_isIdle hidle] at hup hagree
        rw [walkFrom_idle hidle] at h ⊢
        exact ih hup hagree h
      · rw [Path.stepsOf_cons_of_not_isIdle (by simpa using hidle)] at hup hagree
        rcases List.ne_and_not_mem_of_not_mem_cons hup with ⟨hne, hup⟩
        have hstep : segment.isStepDown := ⟨by simpa using hidle, hne.symm⟩
        have hsame := hagree [segment] (List.prefix_append [segment] _)
        obtain ⟨hlength, hrefuses, ⟨hfind, rfl, rfl⟩ | ⟨hfind, h⟩ | ⟨content, hfind, rfl, rfl⟩ |
          ⟨target, hfind, -⟩⟩ := walkFrom_standing_cases hstep h
        · rw [walkFrom_standing hstep, hrefuses, if_neg Bool.false_ne_true,
            if_neg (Nat.not_lt_of_le hlength), hsame, hfind]
          rfl
        · rw [walkFrom_down hstep hlength (hsame.trans hfind) hrefuses]
          rw [List.append_assoc] at h ⊢
          refine ih hup (fun first hfirst => ?_) h
          have hmore := hagree (segment :: first) ((List.prefix_cons_inj segment).mpr hfirst)
          simpa using hmore
        · rw [walkFrom_standing hstep, hrefuses, if_neg Bool.false_ne_true,
            if_neg (Nat.not_lt_of_le hlength), hsame, hfind]
          rfl
        · rw [List.append_assoc] at hfind
          exact absurd hfind (hlinks _ target (by simp))

/-- What segments lead to that begin with others is found from where those lead to. -/
theorem Reaches.walkFrom_rest {isAbsolute : Bool} {top : Location} {rest : List Segment}
    (htop : fs.Reaches isAbsolute segments (.standing top))
    (h : fs.Reaches isAbsolute (segments ++ rest) s) :
    ∃ k, fs.walkFrom .target k (.standing top) rest = .ok s.place := by
  rcases htop with ⟨_, htop⟩
  rcases h with ⟨_, h⟩
  rcases h.split with ⟨k, u, hu, hrest⟩
  obtain rfl := htop.eq_standing hu
  exact ⟨k, hrest.walkFrom_place⟩

theorem Reaches.append_names {isAbsolute : Bool} {top location : Location}
    {names : List Segment} (hlinks : fs.HasNoLinksBelow top) (hup : Segment.up ∉ names)
    (hidle : ∀ x ∈ names, x.isIdle = false)
    (htop : fs.Reaches isAbsolute segments (.standing top))
    (h : fs.Reaches isAbsolute (segments ++ names) (.standing location)) :
    location = top ++ names := by
  have hnames : Path.stepsOf names = names := Path.stepsOf_eq_self hidle
  rcases htop.walkFrom_rest h with ⟨k, hwalk⟩
  rw [← List.append_nil top] at hwalk
  rcases walkFrom_names hlinks (by rwa [hnames]) hwalk with hfree | ⟨e, hentry⟩
  · cases hfree
  · rw [hnames, List.append_nil] at hentry
    rcases Place.entry.inj hentry with ⟨hlocation, -⟩
    exact hlocation

/-!
## Files that have more in them
-/

/-- Whether a removed working directory is one of those above which the other one is. -/
inductive Sunk : WorkingDirectory → WorkingDirectory → Prop where
  | refl (s : WorkingDirectory) : Sunk s s
  | lowest {s : WorkingDirectory} {above : Location} :
      s.up = .standing above → Sunk (.removed 0 above) s
  | deeper {levels : Nat} {s : WorkingDirectory} {above : Location} :
      Sunk (.removed levels above) s.up → Sunk (.removed (levels + 1) above) s

namespace Sunk

theorem up (h : Sunk s t) : Sunk s.up t.up := by
  cases h with
  | refl => exact .refl _
  | lowest hup => rw [hup, WorkingDirectory.up]; exact .refl _
  | deeper h => exact h

theorem standing {location : Location} (h : Sunk (.standing location) t) :
    t = .standing location := by
  cases h
  rfl

theorem trans {u : WorkingDirectory} (h : Sunk s t) (h' : Sunk t u) : Sunk s u := by
  induction h generalizing u with
  | refl => exact h'
  | lowest hup =>
      have hu := h'.up
      rw [hup] at hu
      exact .lowest hu.standing
  | deeper _ ih => exact .deeper (ih h'.up)

theorem of_below (above : Location) {rest : Location} {levels : Nat}
    (h : rest.length = levels + 1) : Sunk (.removed levels above) (.standing (above ++ rest)) := by
  have hne : rest ≠ [] := List.ne_nil_of_length_eq_add_one h
  have hup : (WorkingDirectory.standing (above ++ rest)).up =
      .standing (above ++ rest.dropLast) := by
    rw [WorkingDirectory.up, List.dropLast_append_of_ne_nil hne]
  induction levels generalizing rest with
  | zero =>
      rcases List.length_eq_one_iff.mp h with ⟨segment, rfl⟩
      exact .lowest (by rw [hup]; simp)
  | succ levels ih =>
      apply Sunk.deeper
      rw [hup]
      have hlength : rest.dropLast.length = levels + 1 := by
        rw [List.length_dropLast, h, Nat.add_sub_cancel]
      have hne' : rest.dropLast ≠ [] := List.ne_nil_of_length_eq_add_one hlength
      exact ih hlength hne' (by rw [WorkingDirectory.up, List.dropLast_append_of_ne_nil hne'])

theorem clear (location : Location) (s : WorkingDirectory) :
    Sunk (clearWorkingDirectory location s) s := by
  cases s with
  | standing place =>
      rw [clearWorkingDirectory]
      split
      · next h =>
          rcases isBelow_iff.mp h with ⟨⟨rest, rfl⟩, hne⟩
          have hpos : 0 < rest.length := List.length_pos_iff.mpr (by simpa using hne)
          exact of_below location (by rw [List.length_append]; omega)
      · exact .refl _
  | removed levels above =>
      rw [clearWorkingDirectory]
      split
      · next h =>
          rcases isBelow_iff.mp h with ⟨⟨rest, rfl⟩, hne⟩
          have hpos : 0 < rest.length := List.length_pos_iff.mpr (by simpa using hne)
          obtain ⟨k, hk⟩ : ∃ k, rest.length = k + 1 := ⟨rest.length - 1, by omega⟩
          rw [List.length_append, Nat.add_sub_cancel_left, hk, ← Nat.add_assoc]
          induction levels with
          | zero => exact .deeper (by rw [WorkingDirectory.up, Nat.zero_add]; exact of_below _ hk)
          | succ levels ih =>
              rw [Nat.add_right_comm levels 1 k]
              exact .deeper ih
      · exact .refl _

theorem erase (location : Location) (s : WorkingDirectory) :
    Sunk (eraseWorkingDirectory location s) s := by
  cases s with
  | standing place =>
      rw [eraseWorkingDirectory]
      split
      · next heq =>
          subst heq
          exact .lowest rfl
      · exact .refl _
  | removed levels above =>
      rw [eraseWorkingDirectory]
      split
      · next heq =>
          subst heq
          induction levels with
          | zero => exact .deeper (.lowest rfl)
          | succ levels ih => exact .deeper ih
      · exact .refl _

end Sunk

/-- Whether all that stands in some files stands in others as well. -/
structure PartOf (part whole : Files) : Prop where
  find? : ∀ location entry, part.find? location = some entry → whole.find? location = some entry
  workingDirectory : Sunk part.workingDirectory whole.workingDirectory

namespace PartOf

theorem refl (fs : Files) : PartOf fs fs := ⟨fun _ _ h => h, .refl _⟩

theorem trans {last : Files} (h : PartOf fs changed) (h' : PartOf changed last) :
    PartOf fs last where
  find? location entry hfind := h'.find? location entry (h.find? location entry hfind)
  workingDirectory := h.workingDirectory.trans h'.workingDirectory

theorem keepsWays (h : PartOf fs changed)
    (hwd : changed.workingDirectory = fs.workingDirectory) : KeepsWays fs changed :=
  ⟨fun l => h.find? l _, fun l _ => h.find? l _, hwd⟩

theorem start (h : PartOf part whole) (isAbsolute : Bool) :
    Sunk (part.start isAbsolute) (whole.start isAbsolute) := by
  cases isAbsolute with
  | true => exact .refl _
  | false => exact h.workingDirectory

theorem walkFrom (h : PartOf part whole) {place : Place} (hs : Sunk s t)
    (hwalk : part.walkFrom purpose n s segments = .ok place)
    (hfree : ∀ l, place ≠ .free l) :
    whole.walkFrom purpose n t segments = .ok place ∨
      (place = .removed ∧
        ∃ l, whole.walkFrom purpose n t segments = .ok (.entry l .directory)) := by
  induction n, s, segments using walk_induct part generalizing t with
  | nil links s =>
      rw [walkFrom_nil] at hwalk ⊢
      cases hwalk
      cases s with
      | standing location =>
          left
          rw [hs.standing]
      | removed levels above =>
          cases t with
          | standing location => exact Or.inr ⟨rfl, location, rfl⟩
          | removed => exact Or.inl rfl
  | idle links s segment rest hidle ih =>
      rw [walkFrom_idle hidle] at hwalk ⊢
      exact ih hs hwalk
  | up links s rest ih =>
      rw [walkFrom_up] at hwalk ⊢
      exact ih hs.up hwalk
  | removed links levels above segment rest hstep =>
      rw [walkFrom_removed hstep] at hwalk
      cases hwalk
  | standing links location segment rest hstep ihDown ihLink =>
      obtain rfl := hs.standing
      obtain ⟨hlength, hrefuses, ⟨-, -, rfl⟩ | ⟨hfind, hwalk⟩ | ⟨content, hfind, rfl, rfl⟩ |
        ⟨target, hfind, ⟨rfl, hpurpose, rfl⟩ | ⟨left, rfl, hend, hwalk⟩⟩⟩ :=
          walkFrom_standing_cases hstep hwalk
      · exact absurd rfl (hfree _)
      · rw [walkFrom_down hstep hlength (h.find? _ _ hfind) hrefuses]
        exact ihDown hfind (.refl _) hwalk
      · left
        rw [walkFrom_standing hstep, hrefuses, if_neg Bool.false_ne_true,
          if_neg (Nat.not_lt_of_le hlength), h.find? _ _ hfind]
        rfl
      · left
        rw [walkFrom_standing hstep, hrefuses, if_neg Bool.false_ne_true,
          if_neg (Nat.not_lt_of_le hlength), h.find? _ _ hfind]
        simp only [hpurpose, true_and, if_true]
      · rw [walkFrom_link hstep hlength (h.find? _ _ hfind) hrefuses hend]
        exact ihLink left target rfl hfind (.refl _) hwalk

theorem locate (h : PartOf part whole) {p : Path} {place : Place}
    (hlocate : part.locate purpose p = .ok place) (hfree : ∀ l, place ≠ .free l) :
    whole.locate purpose p = .ok place ∨
      (place = .removed ∧ ∃ l, whole.locate purpose p = .ok (.entry l .directory)) := by
  rcases locate_eq_ok_iff.mp hlocate with ⟨hcheck, hwalk⟩
  rcases h.walkFrom (h.start _) hwalk hfree with hwhole | ⟨hplace, l, hwhole⟩
  · exact Or.inl (locate_eq_ok_iff.mpr ⟨hcheck, hwhole⟩)
  · exact Or.inr ⟨hplace, l, locate_eq_ok_iff.mpr ⟨hcheck, hwhole⟩⟩

theorem locate_entry (h : PartOf part whole) {p : Path} {location : Location} {entry : Entry}
    (hlocate : part.locate purpose p = .ok (.entry location entry)) :
    whole.locate purpose p = .ok (.entry location entry) := by
  rcases h.locate hlocate (fun l hl => by cases hl) with hwhole | ⟨hplace, -⟩
  · exact hwhole
  · cases hplace

theorem reaches (h : PartOf part whole) {isAbsolute : Bool}
    (hreaches : part.Reaches isAbsolute segments s) : ∃ t, whole.Reaches isAbsolute segments t := by
  rcases hreaches with ⟨links, hleads⟩
  rcases h.walkFrom (h.start isAbsolute) hleads.walkFrom_place
      (fun l hl => by cases s <;> cases hl) with hwalk | ⟨-, l, hwalk⟩
  · cases s with
    | standing location =>
        rcases leads_of_walkFrom_directory hwalk with ⟨k, hwhole⟩
        exact ⟨_, k, hwhole⟩
    | removed levels above =>
        rcases leads_of_walkFrom_removed hwalk with ⟨k, levels', above', hwhole⟩
        exact ⟨_, k, hwhole⟩
  · rcases leads_of_walkFrom_directory hwalk with ⟨k, hwhole⟩
    exact ⟨_, k, hwhole⟩

end PartOf

end StaticSite.Files
