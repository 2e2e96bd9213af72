import StaticSite.Proofs.Files.Changing
import StaticSite.Site.Build
/-!
# Writing documents

A document is written where the names of its url lead from the output directory. While
documents are written, only what is below the output directory changes, and what stands
there is what was written last under each url, with the directories that it takes.
-/

namespace StaticSite.BuildPlan

open Files

variable {fs middle changed : Files} {outDir : Path} {top : Location}

/-!
## Urls
-/

def urlNames (url : String) : List Segment := (Path.ofText url).steps

structure IsNames (url : String) : Prop where
  relative : (Path.ofText url).isAbsolute = false
  up_not_mem : Segment.up ∉ urlNames url
  ne_nil : urlNames url ≠ []

theorem isAcceptable_iff {url : String} : isAcceptable url = true ↔ IsNames url := by
  simp only [isAcceptable, Bool.and_eq_true, List.all_eq_true]
  constructor
  · rintro ⟨hall, hany⟩
    refine ⟨?_, ?_, Path.steps_ne_nil hany⟩
    · rw [Bool.eq_false_iff]
      intro habs
      simpa [Path.Component.isName] using hall _ (Path.root_mem_components habs)
    · apply Path.up_not_mem_steps
      intro hup
      simpa [Path.Component.isName] using hall _ hup
  · rintro ⟨hrelative, hup, hne⟩
    have hsteps : ∀ s ∈ (Path.ofText url).steps, Path.component s = .name s :=
      fun s hs => Path.component_of_ne_up fun heq => hup (heq ▸ hs)
    rw [Path.components_eq, List.any_append, List.map_congr_left hsteps]
    constructor
    · intro c hc
      rcases List.mem_append.mp hc with hstart | hname
      · rw [Path.start, hrelative, if_neg Bool.false_ne_true] at hstart
        split at hstart
        · rw [List.mem_singleton.mp hstart]
          rfl
        · cases hstart
      · rcases List.mem_map.mp hname with ⟨s, -, rfl⟩
        rfl
    · rcases List.exists_mem_of_ne_nil _ hne with ⟨s, hs⟩
      rw [Bool.or_eq_true]
      exact Or.inr (List.any_eq_true.mpr ⟨.name s, List.mem_map_of_mem hs, rfl⟩)

theorem isNames_of_isAcceptable {url : String} (h : isAcceptable url = true) : IsNames url :=
  isAcceptable_iff.mp h

theorem IsNames.isStepDown {url : String} (h : IsNames url) {x : Segment}
    (hx : x ∈ urlNames url) : x.isStepDown :=
  ⟨Path.not_isIdle_of_mem_stepsOf hx, fun hup => h.up_not_mem (hup ▸ hx)⟩

theorem IsNames.isStepDown_dropLast {url : String} (h : IsNames url) {x : Segment}
    (hx : x ∈ (urlNames url).dropLast) : x.isStepDown :=
  h.isStepDown ((List.dropLast_prefix _).subset hx)

theorem urlProblem?_eq_none_iff {seen : List String} {pages : List Page} :
    urlProblem? seen pages = none ↔
      (∀ page ∈ pages, isAcceptable page.url = true ∧ page.url ∉ seen) ∧
        (pages.map Page.url).Nodup := by
  induction pages generalizing seen with
  | nil => simp [urlProblem?]
  | cons page rest ih =>
      rw [urlProblem?]
      by_cases hok : isAcceptable page.url = true
      · by_cases hseen : page.url ∈ seen
        · simp [hok, hseen]
        · simp only [hok, hseen, Bool.not_true, Bool.false_eq_true, if_false, ih, List.mem_cons,
            not_or, List.map_cons, List.nodup_cons, List.mem_map, not_exists, not_and]
          constructor
          · rintro ⟨hrest, hnodup⟩
            refine ⟨?_, fun other hother heq => (hrest other hother).2.1 heq, hnodup⟩
            rintro other (rfl | hother)
            · exact ⟨hok, hseen⟩
            · exact ⟨(hrest other hother).1, (hrest other hother).2.2⟩
          · rintro ⟨hall, hfirst, hnodup⟩
            refine ⟨fun other hother => ⟨(hall other (Or.inr hother)).1, ?_, ?_⟩, hnodup⟩
            · exact fun heq => hfirst other hother heq
            · exact (hall other (Or.inr hother)).2
      · simp [hok]

/-!
## The output directory
-/

/-- The output directory stands at a location without links below it. -/
structure OutputAt (fs : Files) (outDir : Path) (top : Location) : Prop where
  wellFormed : fs.WellFormed
  reaches : fs.Reaches outDir.isAbsolute outDir.steps (.standing top)
  links : fs.HasNoLinksBelow top

/-- A change to what is below a location, which keeps the directories and links. -/
structure ChangesBelow (top : Location) (fs changed : Files) : Prop where
  keepsWays : KeepsWays fs changed
  outside : ∀ location, isBelow location top = false →
    changed.find? location = fs.find? location

theorem ChangesBelow.refl (top : Location) (fs : Files) : ChangesBelow top fs fs :=
  ⟨.refl fs, fun _ _ => rfl⟩

theorem ChangesBelow.trans {last : Files} (h : ChangesBelow top fs changed)
    (h' : ChangesBelow top changed last) : ChangesBelow top fs last where
  keepsWays := h.keepsWays.trans h'.keepsWays
  outside location hbelow := (h'.outside location hbelow).trans (h.outside location hbelow)

theorem documentPath {url : String} (hout : outDir.isEmpty = false) (hnames : IsNames url) :
    (outDir.join (.ofText url)).isAbsolute = outDir.isAbsolute ∧
      (outDir.join (.ofText url)).steps = outDir.steps ++ urlNames url :=
  ⟨Path.isAbsolute_join hout hnames.relative, Path.steps_join hout hnames.relative⟩

theorem documentParent {url : String} (hout : outDir.isEmpty = false) (hnames : IsNames url) :
    ∃ above, (outDir.join (.ofText url)).parent? = some above ∧
      above.isAbsolute = outDir.isAbsolute ∧
      above.steps = outDir.steps ++ (urlNames url).dropLast := by
  rcases documentPath hout hnames with ⟨habs, hsteps⟩
  cases habove : (outDir.join (.ofText url)).parent? with
  | none =>
      have hnil := Path.steps_of_parent?_eq_none habove
      rw [hsteps] at hnil
      exact absurd (List.append_eq_nil_iff.mp hnil).2 hnames.ne_nil
  | some above =>
      rcases Path.steps_parent? habove with ⟨habs', hsteps'⟩
      refine ⟨above, rfl, habs'.trans habs, ?_⟩
      rw [hsteps', hsteps, List.dropLast_append_of_ne_nil hnames.ne_nil]

/-!
## Directories of a document
-/

/-- The directories that are made for a document are on the way of its names. -/
structure AddsNames (top : Location) (names : List Segment) (fs middle : Files) : Prop where
  keepsWays : KeepsWays fs middle
  added : ∀ location, middle.find? location = fs.find? location ∨
    (fs.find? location = none ∧ middle.find? location = some .directory ∧
      ∃ first, first ≠ [] ∧ first <+: names ∧ location = top ++ first)

theorem addsNames_of_addsDirectories {names : List Segment} {paths : List Path}
    (hnames : ∀ x ∈ names, x.isStepDown) (h : OutputAt fs outDir top)
    (hpaths : ∀ q ∈ paths, q.isAbsolute = outDir.isAbsolute ∧ q.steps <+: outDir.steps ++ names)
    (hadds : AddsDirectories paths fs middle) : AddsNames top names fs middle := by
  have hkeeps := hadds.keepsWays
  -- No directory is made on the way to the output directory: all of them stand.
  have hway : ∀ front location, front <+: outDir.steps →
      middle.Reaches outDir.isAbsolute front (.standing location) →
      fs.find? location = some .directory := by
    intro front location hfront hreaches
    rcases h.reaches.of_prefix hfront with ⟨t, ht⟩
    obtain rfl := hreaches.eq_standing (hkeeps.reaches ht)
    exact ht.stands h.wellFormed
  have hlinks : middle.HasNoLinksBelow top := by
    intro rest target hne hfind
    rcases hadds.added (top ++ rest) with hsame | ⟨-, hdirectory, -⟩
    · exact h.links rest target hne (hsame ▸ hfind)
    · rw [hdirectory] at hfind
      cases hfind
  refine ⟨hkeeps, ?_⟩
  intro location
  rcases hadds.added location with hsame | ⟨hnone, hmiddle, q, hq, -, hreaches⟩
  · exact Or.inl hsame
  · right
    rcases hpaths q hq with ⟨habs, hbegins⟩
    rw [habs] at hreaches
    have hnot : ¬ q.steps <+: outDir.steps := by
      intro hfront
      rw [hway _ _ hfront hreaches] at hnone
      cases hnone
    rcases List.prefix_or_prefix_of_prefix hbegins (List.prefix_append ..) with hfront | hrest
    · exact absurd hfront hnot
    · rcases hrest with ⟨first, hsteps⟩
      rw [← hsteps] at hbegins hreaches hnot
      have hfirst := (List.prefix_append_right_inj _).mp hbegins
      refine ⟨hnone, hmiddle, first, ?_, hfirst, ?_⟩
      · rintro rfl
        exact hnot (by simp)
      · exact (hkeeps.reaches h.reaches).append_names hlinks
          (fun hup => (hnames _ (hfirst.subset hup)).2 rfl)
          (fun x hx => (hnames x (hfirst.subset hx)).1) hreaches

theorem AddsNames.outputAt {names : List Segment} (h : OutputAt fs outDir top)
    (hwf : middle.WellFormed) (hadds : AddsNames top names fs middle) :
    OutputAt middle outDir top ∧ ChangesBelow top fs middle := by
  refine ⟨⟨hwf, hadds.keepsWays.reaches h.reaches, ?_⟩, hadds.keepsWays, ?_⟩
  · intro rest target hne hfind
    rcases hadds.added (top ++ rest) with hsame | ⟨-, hdirectory, -⟩
    · exact h.links rest target hne (hsame ▸ hfind)
    · rw [hdirectory] at hfind
      cases hfind
  · intro location hout
    rcases hadds.added location with hsame | ⟨-, -, first, hne, -, rfl⟩
    · exact hsame
    · rw [isBelow_append hne] at hout
      cases hout

theorem makeFirst_addsNames (fuel : Nat) {names : List Segment} {above : Path}
    (hnames : ∀ x ∈ names, x.isStepDown) (h : OutputAt fs outDir top)
    (habs : above.isAbsolute = outDir.isAbsolute)
    (hsteps : above.steps = outDir.steps ++ names) :
    ((makeFirst (ancestors fuel above)).after fs).WellFormed ∧
      AddsNames top names fs ((makeFirst (ancestors fuel above)).after fs) := by
  have hadds := makeFirst_addsDirectories h.wellFormed (ancestors fuel above)
  refine ⟨hadds.wellFormed, addsNames_of_addsDirectories hnames h ?_ hadds⟩
  intro q hq
  rcases Path.steps_of_mem_ancestors hq with ⟨habs', hbegins⟩
  exact ⟨habs'.trans habs, hsteps ▸ hbegins⟩

theorem outputAt_of_makeFirst {names : List Segment} {above : Path} {fuel : Nat}
    (hnames : ∀ x ∈ names, x.isStepDown) (h : OutputAt fs outDir top)
    (habs : above.isAbsolute = outDir.isAbsolute)
    (hsteps : above.steps = outDir.steps ++ names)
    (hmake : makeFirst (ancestors (fuel + 1) above) fs = .ok () middle) :
    OutputAt middle outDir top ∧ middle.find? (top ++ names) = some .directory ∧
      AddsNames top names fs middle := by
  rcases makeFirst_addsNames (fuel + 1) hnames h habs hsteps with ⟨hwf, hadds⟩
  rw [FileAction.after_of_ok hmake] at hwf hadds
  rcases hadds.outputAt h hwf with ⟨hout, -⟩
  refine ⟨hout, ?_, hadds⟩
  rcases reaches_of_makeFirst h.wellFormed hmake with ⟨s, hs⟩
  rw [habs, hsteps] at hs
  rcases hout.reaches.walkFrom_rest hs with ⟨k, hwalk⟩
  have hsame : Path.stepsOf names = names := Path.stepsOf_eq_self fun x hx => (hnames x hx).1
  rw [← List.append_nil top] at hwalk
  rcases walkFrom_names hout.links (by
    rw [hsame]
    exact fun hup => (hnames _ hup).2 rfl) hwalk with hfree | ⟨e, hentry⟩
  · cases s with
    | standing l => cases hfree
    | removed levels l => cases hfree
  · rw [hsame, List.append_nil] at hentry
    cases s with
    | standing l =>
        have hstands := hs.stands hwf
        cases hentry
        exact hstands
    | removed levels l => cases hentry

/-!
## The file of a document
-/

theorem walkFrom_url {url : String} (hout : outDir.isEmpty = false) (hnames : IsNames url)
    (h : OutputAt fs outDir top) :
    ∃ links, ∀ purpose,
      fs.walkFrom purpose linkLimit (fs.start (outDir.join (.ofText url)).isAbsolute)
          (outDir.join (.ofText url)).segments =
        fs.walkFrom purpose links (.standing top) (Path.ofText url).segments := by
  rcases Path.segments_join hout hnames.relative with ⟨front, hsegments, hfront, -⟩
  have hsteps : Path.stepsOf front = Path.stepsOf outDir.steps := by
    rw [hfront, Path.stepsOf_steps]
  rcases h.reaches.of_stepsOf_eq hsteps with ⟨links, hleads⟩
  rcases List.exists_mem_of_ne_nil _ hnames.ne_nil with ⟨x, hx⟩
  have hne := Segment.isStepDown_ne_nil (hnames.isStepDown hx)
  refine ⟨links, fun purpose => ?_⟩
  rw [hsegments, (documentPath hout hnames).1,
    hleads.walkFrom_append (List.mem_filter.mp hx).1 hne, List.nil_append]

theorem place_document {purpose : Purpose} {url : String} (hout : outDir.isEmpty = false)
    (hnames : IsNames url) (h : OutputAt fs outDir top) {place : Place}
    (hlocate : fs.locate purpose (outDir.join (.ofText url)) = .ok place) :
    place = .free (top ++ urlNames url) ∨ ∃ e, place = .entry (top ++ urlNames url) e := by
  rcases walkFrom_url hout hnames h with ⟨links, hurl⟩
  have hwalk := (locate_eq_ok_iff.mp hlocate).2
  rw [hurl, ← List.append_nil top] at hwalk
  have hplace := walkFrom_names h.links hnames.up_not_mem hwalk
  rwa [List.append_nil] at hplace

theorem write_document {url : String} {content : List UInt8} (hout : outDir.isEmpty = false)
    (hnames : IsNames url) (h : OutputAt fs outDir top)
    (hwrite : Files.write (outDir.join (.ofText url)) content fs = .ok changed) :
    changed = fs.put (top ++ urlNames url) (.file content) ∧ changed.WellFormed ∧
      (fs.find? (top ++ urlNames url) = none ∨
        ∃ old, fs.find? (top ++ urlNames url) = some (.file old)) := by
  rcases write_eq_ok hwrite with ⟨location, rfl, hlocate⟩
  have hne : top ++ urlNames url ≠ [] := by simp [hnames.ne_nil]
  have hstands := h.wellFormed.stands_start (outDir.join (.ofText url)).isAbsolute
  rcases hlocate with hlocate | ⟨old, hlocate⟩
  · obtain rfl : location = top ++ urlNames url := by
      rcases place_document hout hnames h hlocate with hplace | ⟨e, hplace⟩
      · cases hplace
        rfl
      · cases hplace
    obtain ⟨hfree, above, segment, -, hlocation, habove, -⟩ :=
      h.wellFormed.free_of_walkFrom hstands (locate_eq_ok_iff.mp hlocate).2
    refine ⟨rfl, h.wellFormed.put hne ?_ ?_, Or.inl hfree⟩
    · rwa [hlocation, List.dropLast_concat]
    · rw [hfree]
      intro hdirectory
      cases hdirectory
  · obtain rfl : location = top ++ urlNames url := by
      rcases place_document hout hnames h hlocate with hplace | ⟨e, hplace⟩
      · cases hplace
      · cases hplace
        rfl
    have hfind := h.wellFormed.find?_of_walkFrom hstands (locate_eq_ok_iff.mp hlocate).2
    refine ⟨rfl, h.wellFormed.put hne (h.wellFormed.find?_dropLast hfind) ?_, Or.inr ⟨old, hfind⟩⟩
    rw [hfind]
    intro hdirectory
    cases hdirectory

theorem OutputAt.put_file {names : List Segment} {content : List UInt8} (hne : names ≠ [])
    (h : OutputAt fs outDir top) (hwf : (fs.put (top ++ names) (.file content)).WellFormed)
    (hfile : fs.find? (top ++ names) = none ∨ ∃ old, fs.find? (top ++ names) = some (.file old)) :
    OutputAt (fs.put (top ++ names) (.file content)) outDir top ∧
      ChangesBelow top fs (fs.put (top ++ names) (.file content)) := by
  have hother : ∀ location entry, fs.find? location = some entry →
      (∀ old, entry ≠ .file old) →
      (fs.put (top ++ names) (.file content)).find? location = some entry := by
    intro location entry hfind hentry
    rw [find?_put_of_ne _ _ ?_]
    · exact hfind
    · rintro rfl
      rcases hfile with hnone | ⟨old, hold⟩
      · rw [hnone] at hfind
        cases hfind
      · rw [hold] at hfind
        exact hentry old (Option.some.inj hfind).symm
  have hkeeps : KeepsWays fs (fs.put (top ++ names) (.file content)) :=
    ⟨fun l hl => hother l _ hl (by simp), fun l _ hl => hother l _ hl (by simp), rfl⟩
  refine ⟨⟨hwf, hkeeps.reaches h.reaches, ?_⟩, hkeeps, ?_⟩
  · intro rest target hrest hfind
    by_cases heq : top ++ rest = top ++ names
    · rw [heq, find?_put_self _ _ (by simp [hne])] at hfind
      cases hfind
    · rw [find?_put_of_ne _ _ heq] at hfind
      exact h.links rest target hrest hfind
  · intro location hbelow
    apply find?_put_of_ne
    rintro rfl
    rw [isBelow_append hne] at hbelow
    cases hbelow

/-!
## One document
-/

theorem writeDocument_cases {d : Document} {above : Path}
    (habove : (outDir.join (.ofText d.url)).parent? = some above) (fs : Files) :
    (∃ e middle, makeFirst (ancestors (above.segments.length + 1) above) fs = .error e middle ∧
        writeDocument outDir d fs = .error (.io above e) middle) ∨
      (∃ middle, makeFirst (ancestors (above.segments.length + 1) above) fs = .ok () middle ∧
        ((∃ e, Files.write (outDir.join (.ofText d.url)) (Utf8.encode d.html.html) middle =
              .error e ∧
            writeDocument outDir d fs = .error (.io (outDir.join (.ofText d.url)) e) middle) ∨
          ∃ changed,
            Files.write (outDir.join (.ofText d.url)) (Utf8.encode d.html.html) middle =
              .ok changed ∧
            writeDocument outDir d fs = .ok (outDir.join (.ofText d.url)) changed)) := by
  generalize hresult : writeDocument outDir d fs = result
  simp only [writeDocument, habove, bind, EStateM.bind, reportedAt, FileAction.mapError,
    FileAction.change, pure, EStateM.pure, makeDirectories] at hresult
  cases hmake : makeFirst (ancestors (above.segments.length + 1) above) fs with
  | error e middle =>
      rw [hmake] at hresult
      exact Or.inl ⟨e, middle, rfl, hresult.symm⟩
  | ok u middle =>
      rw [hmake] at hresult
      right
      refine ⟨middle, rfl, ?_⟩
      cases hwrite : Files.write (outDir.join (.ofText d.url)) (Utf8.encode d.html.html) middle with
      | error e =>
          simp only [hwrite] at hresult
          exact Or.inl ⟨e, rfl, hresult.symm⟩
      | ok changed =>
          simp only [hwrite] at hresult
          exact Or.inr ⟨changed, rfl, hresult.symm⟩

theorem exists_of_writeDocument {d : Document} {above path : Path}
    (habove : (outDir.join (.ofText d.url)).parent? = some above)
    (h : writeDocument outDir d fs = .ok path changed) :
    path = outDir.join (.ofText d.url) ∧
      ∃ middle, makeFirst (ancestors (above.segments.length + 1) above) fs = .ok () middle ∧
        Files.write path (Utf8.encode d.html.html) middle = .ok changed := by
  rcases writeDocument_cases habove fs with ⟨e, middle, -, heq⟩ |
    ⟨middle, hmake, ⟨e, -, heq⟩ | ⟨last, hput, heq⟩⟩ <;> rw [heq] at h <;> cases h
  exact ⟨rfl, middle, hmake, hput⟩

theorem writeDocument_of_ok {d : Document} {above : Path}
    (habove : (outDir.join (.ofText d.url)).parent? = some above)
    (hmake : makeFirst (ancestors (above.segments.length + 1) above) fs = .ok () middle)
    (hput : Files.write (outDir.join (.ofText d.url)) (Utf8.encode d.html.html) middle =
      .ok changed) :
    writeDocument outDir d fs = .ok (outDir.join (.ofText d.url)) changed := by
  simp only [writeDocument, habove, bind, EStateM.bind, reportedAt, FileAction.mapError,
    FileAction.change, pure, EStateM.pure, makeDirectories, hmake, hput]

/-- Whatever comes of writing a document, only what is below the output directory
changes. -/
theorem writeDocument_changesBelow {d : Document} (hout : outDir.isEmpty = false)
    (hnames : IsNames d.url) (h : OutputAt fs outDir top) :
    OutputAt ((writeDocument outDir d).after fs) outDir top ∧
      ChangesBelow top fs ((writeDocument outDir d).after fs) := by
  rcases documentParent hout hnames with ⟨above, habove, habs, hsteps⟩
  obtain ⟨hwf, hadds⟩ := makeFirst_addsNames (above.segments.length + 1)
    (fun x hx => hnames.isStepDown_dropLast hx) h habs hsteps
  rcases hadds.outputAt h hwf with ⟨hmiddle, hchanges⟩
  rcases writeDocument_cases habove fs with ⟨e, middle, hmake, hwrite⟩ |
    ⟨middle, hmake, ⟨e, -, hwrite⟩ | ⟨changed, hput, hwrite⟩⟩
  · rw [FileAction.after_of_error hmake] at hmiddle hchanges
    rw [FileAction.after_of_error hwrite]
    exact ⟨hmiddle, hchanges⟩
  · rw [FileAction.after_of_ok hmake] at hmiddle hchanges
    rw [FileAction.after_of_error hwrite]
    exact ⟨hmiddle, hchanges⟩
  · rw [FileAction.after_of_ok hmake] at hmiddle hchanges
    rw [FileAction.after_of_ok hwrite]
    rcases write_document hout hnames hmiddle hput with ⟨rfl, hwf', hfile⟩
    rcases hmiddle.put_file hnames.ne_nil hwf' hfile with ⟨hchanged, hchanges'⟩
    exact ⟨hchanged, hchanges.trans hchanges'⟩

/-- What a written document does to the files below the output directory. -/
structure Writes (top : Location) (d : Document) (fs changed : Files) : Prop where
  file : changed.find? (top ++ urlNames d.url) = some (.file (Utf8.encode d.html.html))
  directory : ∀ rest, rest ≠ [] → rest <+: urlNames d.url → rest ≠ urlNames d.url →
    changed.find? (top ++ rest) = some .directory ∧
      (fs.find? (top ++ rest) = none ∨ fs.find? (top ++ rest) = some .directory)
  other : ∀ rest, ¬ rest <+: urlNames d.url →
    changed.find? (top ++ rest) = fs.find? (top ++ rest)

theorem writeDocument_eq_ok {d : Document} {path : Path} (hout : outDir.isEmpty = false)
    (hnames : IsNames d.url) (h : OutputAt fs outDir top)
    (hwrite : writeDocument outDir d fs = .ok path changed) :
    path = outDir.join (.ofText d.url) ∧ Writes top d fs changed := by
  rcases documentParent hout hnames with ⟨above, habove, habs, hsteps⟩
  rcases exists_of_writeDocument habove hwrite with ⟨rfl, middle, hmake, hput⟩
  obtain ⟨hmiddle, hdirectory, hadds⟩ :=
    outputAt_of_makeFirst (fun x hx => hnames.isStepDown_dropLast hx) h habs hsteps hmake
  rcases write_document hout hnames hmiddle hput with ⟨rfl, -, hfile⟩
  have hput' : ∀ rest, rest ≠ urlNames d.url →
      (middle.put (top ++ urlNames d.url) (.file (Utf8.encode d.html.html))).find?
        (top ++ rest) = middle.find? (top ++ rest) :=
    fun rest hrest => find?_put_of_ne _ _ (by simpa using hrest)
  refine ⟨rfl, find?_put_self _ _ (by simp [hnames.ne_nil]), ?_, ?_⟩
  · intro rest hne hbegins hrest
    have hbelow : rest <+: (urlNames d.url).dropLast := by
      rw [← List.dropLast_append_getLast hnames.ne_nil] at hbegins hrest
      exact (List.prefix_concat_iff.mp hbegins).resolve_left hrest
    have hstands : middle.find? (top ++ rest) = some .directory := by
      rcases hbelow with ⟨more, hmore⟩
      by_cases hnil : more = []
      · rw [hnil, List.append_nil] at hmore
        rw [hmore, hdirectory]
      · rw [← hmore, ← List.append_assoc] at hdirectory
        exact hmiddle.wellFormed.find?_of_append hnil hdirectory
    refine ⟨(hput' rest hrest).trans hstands, ?_⟩
    rcases hadds.added (top ++ rest) with hsame | ⟨hnone, -⟩
    · exact Or.inr (hsame ▸ hstands)
    · exact Or.inl hnone
  · intro rest hnot
    rw [hput' rest fun heq => hnot (heq ▸ List.prefix_rfl)]
    rcases hadds.added (top ++ rest) with hsame | ⟨-, -, first, -, hfirst, hsplit⟩
    · exact hsame
    · obtain rfl := List.append_cancel_left hsplit
      exact absurd (hfirst.trans (List.dropLast_prefix _)) hnot

/-!
## All documents
-/

/-- What stands below the output directory after documents were written there, seen from
it: the last one that has the names as a file, and the directories that hold files. -/
def entryAt (docs : List Document) (names : List Segment) : Option Entry :=
  match docs.reverse.find? fun d => urlNames d.url = names with
  | some d => some (.file (Utf8.encode d.html.html))
  | none => if docs.any fun d => names.isPrefixOf (urlNames d.url) then some .directory else none

theorem find?_eq_entryAt_nil (hempty : fs.isOccupied top = false) (names : List Segment)
    (hne : names ≠ []) : fs.find? (top ++ names) = entryAt [] names :=
  not_isOccupied_iff.mp hempty _ (isBelow_append hne)

theorem entryAt_concat_self (docs : List Document) (d : Document) :
    entryAt (docs ++ [d]) (urlNames d.url) = some (.file (Utf8.encode d.html.html)) := by
  simp [entryAt]

theorem entryAt_concat_of_not_prefix {docs : List Document} {d : Document}
    {names : List Segment} (h : ¬ names <+: urlNames d.url) :
    entryAt (docs ++ [d]) names = entryAt docs names := by
  have hne : urlNames d.url ≠ names := fun heq => h (heq ▸ List.prefix_rfl)
  simp [entryAt, hne, h]

theorem entryAt_concat_of_prefix {docs : List Document} {d : Document} {names : List Segment}
    (hbegins : names <+: urlNames d.url) (hne : names ≠ urlNames d.url)
    (h : entryAt docs names = none ∨ entryAt docs names = some .directory) :
    entryAt (docs ++ [d]) names = some .directory := by
  have hnone : docs.reverse.find? (fun d => urlNames d.url = names) = none := by
    cases hfind : docs.reverse.find? (fun d => urlNames d.url = names) with
    | none => rfl
    | some d => simp [entryAt, hfind] at h
  simp [entryAt, hne.symm, hbegins, hnone]

/-- The step of the invariant of the loop. -/
theorem entryAt_of_writes {docs : List Document} {d : Document}
    (hinv : ∀ names, names ≠ [] → fs.find? (top ++ names) = entryAt docs names)
    (h : Writes top d fs changed) {names : List Segment} (hne : names ≠ []) :
    changed.find? (top ++ names) = entryAt (docs ++ [d]) names := by
  by_cases hself : names = urlNames d.url
  · rw [hself, h.file, entryAt_concat_self]
  · by_cases hbegins : names <+: urlNames d.url
    · rcases h.directory names hne hbegins hself with ⟨hdirectory, hbefore⟩
      rw [hinv names hne] at hbefore
      rw [hdirectory, entryAt_concat_of_prefix hbegins hself hbefore]
    · rw [h.other names hbegins, hinv names hne, entryAt_concat_of_not_prefix hbegins]

theorem writeDocuments_cons_cases (outDir : Path) (d : Document) (rest : List Document)
    (fs : Files) :
    (∃ e changed, writeDocument outDir d fs = .error e changed ∧
        writeDocuments outDir (d :: rest) fs = .error e changed) ∨
      ∃ path middle, writeDocument outDir d fs = .ok path middle ∧
        ((∃ e changed, writeDocuments outDir rest middle = .error e changed ∧
            writeDocuments outDir (d :: rest) fs = .error e changed) ∨
          ∃ paths changed, writeDocuments outDir rest middle = .ok paths changed ∧
            writeDocuments outDir (d :: rest) fs = .ok (path :: paths) changed) := by
  generalize hresult : writeDocuments outDir (d :: rest) fs = result
  simp only [writeDocuments, bind, EStateM.bind, pure, EStateM.pure] at hresult
  cases hfirst : writeDocument outDir d fs with
  | error e changed =>
      rw [hfirst] at hresult
      exact Or.inl ⟨e, changed, rfl, hresult.symm⟩
  | ok path middle =>
      rw [hfirst] at hresult
      right
      refine ⟨path, middle, rfl, ?_⟩
      cases hrest : writeDocuments outDir rest middle with
      | error e changed =>
          simp only [hrest] at hresult
          exact Or.inl ⟨e, changed, rfl, hresult.symm⟩
      | ok paths changed =>
          simp only [hrest] at hresult
          exact Or.inr ⟨paths, changed, rfl, hresult.symm⟩

theorem exists_of_writeDocuments_cons {d : Document} {rest : List Document} {paths : List Path}
    (h : writeDocuments outDir (d :: rest) fs = .ok paths changed) :
    ∃ path others middle, paths = path :: others ∧ writeDocument outDir d fs = .ok path middle ∧
      writeDocuments outDir rest middle = .ok others changed := by
  rcases writeDocuments_cons_cases outDir d rest fs with ⟨e, _, -, heq⟩ |
    ⟨path, middle, hone, ⟨e, _, -, heq⟩ | ⟨others, last, hlast, heq⟩⟩ <;> rw [heq] at h <;> cases h
  exact ⟨path, others, middle, rfl, hone, hlast⟩

theorem writeDocuments_cons_of_ok {d : Document} {rest : List Document} {path : Path}
    {paths : List Path} (hone : writeDocument outDir d fs = .ok path middle)
    (hrest : writeDocuments outDir rest middle = .ok paths changed) :
    writeDocuments outDir (d :: rest) fs = .ok (path :: paths) changed := by
  simp only [writeDocuments, bind, EStateM.bind, pure, EStateM.pure, hone, hrest]

theorem writeDocuments_changesBelow {docs : List Document} (hout : outDir.isEmpty = false)
    (hnames : ∀ d ∈ docs, IsNames d.url) (h : OutputAt fs outDir top) :
    OutputAt ((writeDocuments outDir docs).after fs) outDir top ∧
      ChangesBelow top fs ((writeDocuments outDir docs).after fs) := by
  induction docs generalizing fs with
  | nil => exact ⟨h, .refl top fs⟩
  | cons d rest ih =>
      obtain ⟨hfirst, hchanges⟩ :=
        writeDocument_changesBelow hout (hnames d (List.mem_cons_self ..)) h
      have hrest : ∀ d ∈ rest, IsNames d.url := fun d hd => hnames d (List.mem_cons_of_mem _ hd)
      rcases writeDocuments_cons_cases outDir d rest fs with ⟨e, changed, hwrite, heq⟩ |
        ⟨path, middle, hwrite, ⟨e, changed, hlast, heq⟩ | ⟨paths, changed, hlast, heq⟩⟩
      · rw [FileAction.after_of_error hwrite] at hfirst hchanges
        rw [FileAction.after_of_error heq]
        exact ⟨hfirst, hchanges⟩
      · rw [FileAction.after_of_ok hwrite] at hfirst hchanges
        rcases ih hrest hfirst with ⟨houtput, hchanges'⟩
        rw [FileAction.after_of_error hlast] at houtput hchanges'
        rw [FileAction.after_of_error heq]
        exact ⟨houtput, hchanges.trans hchanges'⟩
      · rw [FileAction.after_of_ok hwrite] at hfirst hchanges
        rcases ih hrest hfirst with ⟨houtput, hchanges'⟩
        rw [FileAction.after_of_ok hlast] at houtput hchanges'
        rw [FileAction.after_of_ok heq]
        exact ⟨houtput, hchanges.trans hchanges'⟩

/-- After documents were written, what they say stands below the output directory, if
what stood there before is what earlier documents say. -/
theorem writeDocuments_eq_ok {done docs : List Document} {paths : List Path}
    (hout : outDir.isEmpty = false) (hnames : ∀ d ∈ docs, IsNames d.url)
    (h : OutputAt fs outDir top)
    (hinv : ∀ names, names ≠ [] → fs.find? (top ++ names) = entryAt done names)
    (hwrite : writeDocuments outDir docs fs = .ok paths changed) :
    paths = docs.map (fun d => outDir.join (.ofText d.url)) ∧
      ∀ names, names ≠ [] → changed.find? (top ++ names) = entryAt (done ++ docs) names := by
  induction docs generalizing fs done paths with
  | nil =>
      cases hwrite
      exact ⟨rfl, by simpa using hinv⟩
  | cons d rest ih =>
      have hfirst := hnames d (List.mem_cons_self ..)
      have hrest : ∀ d ∈ rest, IsNames d.url := fun d hd => hnames d (List.mem_cons_of_mem _ hd)
      rcases exists_of_writeDocuments_cons hwrite with ⟨path, others, middle, rfl, hone, hlast⟩
      rcases writeDocument_eq_ok hout hfirst h hone with ⟨rfl, hwrites⟩
      rcases writeDocument_changesBelow hout hfirst h with ⟨houtput, -⟩
      rw [FileAction.after_of_ok hone] at houtput
      obtain ⟨rfl, hfinal⟩ := ih hrest houtput
        (fun names hne => entryAt_of_writes hinv hwrites hne) hlast
      refine ⟨rfl, fun names hne => ?_⟩
      rw [hfinal names hne, List.append_assoc, List.singleton_append]

end StaticSite.BuildPlan
