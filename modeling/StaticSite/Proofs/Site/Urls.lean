import StaticSite.Proofs.Site.Output
/-!
# Urls of files

Different urls may lead to one file, and the file of one may be in the way of another. All
documents are written, each to a file of its own, if and only if each url can be the path of
a file and no url has the first names of another one.
-/

namespace StaticSite

namespace Files

variable {fs changed : Files} {outDir p q : Path} {top : Location}

/-!
## Paths below the output directory
-/

/-- A path that leads from the output directory along names, and ends with one. -/
structure IsBelow (outDir q : Path) (names : List Segment) : Prop where
  isAbsolute : q.isAbsolute = outDir.isAbsolute
  steps : q.steps = outDir.steps ++ names
  checked : q.isEmpty = false → checkPath q = .ok ()
  last : names ≠ [] → ∀ x, q.segments.getLast? = some x → x.isIdle = false

theorem IsBelow.parent? {names : List Segment} {x : Segment}
    (h : IsBelow outDir q (names ++ [x])) :
    ∃ above, q.parent? = some above ∧ IsBelow outDir above names := by
  have hsteps := h.steps
  cases habove : q.parent? with
  | none =>
      rw [Path.steps_of_parent?_eq_none habove] at hsteps
      simp at hsteps
  | some above =>
      rcases Path.steps_parent? habove with ⟨habs, hparent⟩
      rw [hsteps, ← List.append_assoc, List.dropLast_concat] at hparent
      have hq : q.isEmpty = false :=
        Path.isEmpty_of_steps_ne_nil (by rw [hsteps]; simp)
      refine ⟨above, rfl, habs.trans h.isAbsolute, hparent, ?_, ?_⟩
      · intro hne
        exact checkPath_of_sublist (Path.parts_parent? habove).sublist hne (h.checked hq)
      · intro hne y hy
        exact Path.isIdle_of_parent? habove (by rw [hparent]; simp [hne]) hy

theorem IsBelow.walkFrom_eq {names : List Segment} {x : Segment}
    (hx : x.isStepDown) (h : fs.Reaches outDir.isAbsolute outDir.steps (.standing top))
    (hq : IsBelow outDir q (names ++ [x])) :
    ∃ k init, q.segments.getLast? = some x ∧ Path.stepsOf init = names ∧ ∀ purpose,
      fs.walkFrom purpose linkLimit (fs.start q.isAbsolute) q.segments =
        fs.walkFrom purpose k (.standing top) (init ++ [x]) := by
  have hsteps := hq.steps
  rw [← List.append_assoc] at hsteps
  rcases Path.segments_eq_concat hsteps (hq.last (by simp)) with ⟨all, hsegments, hall⟩
  rcases List.filter_eq_append_iff.mp hall with ⟨front, init, rfl, hfront, hinit⟩
  have hsame : Path.stepsOf front = Path.stepsOf outDir.steps := by
    rw [Path.stepsOf_steps]
    exact hfront
  rcases h.of_stepsOf_eq hsame with ⟨k, hleads⟩
  refine ⟨k, init, by simp [hsegments], hinit, fun purpose => ?_⟩
  rw [hsegments, hq.isAbsolute, List.append_assoc,
    hleads.walkFrom_append (List.mem_append_right init (List.mem_singleton.mpr rfl))
      (Segment.isStepDown_ne_nil hx), List.nil_append]

theorem trimSlashes_of_getLast? {segments : List Segment} {x : Segment}
    (h : segments.getLast? = some x) (hx : x ≠ []) : trimSlashes segments = segments := by
  rcases List.getLast?_eq_some_iff.mp h with ⟨init, rfl⟩
  exact List.rdropWhile_concat_neg _ _ _ (by simpa using hx)

/-- Whether no file and no link stands where names lead to, or on the way. -/
def HasRoom (fs : Files) (top : Location) (names : List Segment) : Prop :=
  ∀ first, first <+: names →
    fs.find? (top ++ first) = none ∨ fs.find? (top ++ first) = some .directory

theorem walkFrom_of_free {names : List Segment} {x : Segment} (hwf : fs.WellFormed)
    (hreaches : fs.Reaches outDir.isAbsolute outDir.steps (.standing top))
    (hnames : ∀ y ∈ names ++ [x], y.isStepDown)
    (hshort : ∀ y ∈ names ++ [x], y.bytes.length ≤ nameLimit)
    (hq : IsBelow outDir q (names ++ [x]))
    (hdirectory : fs.find? (top ++ names) = some .directory)
    (hfree : fs.find? (top ++ (names ++ [x])) = none) (purpose : Purpose) :
    fs.walkFrom purpose linkLimit (fs.start q.isAbsolute) q.segments =
      .ok (.free (top ++ (names ++ [x]))) := by
  have hx := hnames x (List.mem_append_right names (List.mem_singleton.mpr rfl))
  have hxshort := hshort x (List.mem_append_right names (List.mem_singleton.mpr rfl))
  rcases hq.walkFrom_eq hx hreaches with ⟨k, init, -, rfl, hwalk⟩
  have hleads := hwf.leads_of_directory
    (fun hup => (hnames _ (List.mem_append_left _ hup)).2 rfl)
    (fun y hy => hshort y (List.mem_append_left _ hy)) hdirectory k
  rw [← List.append_assoc] at hfree ⊢
  rw [hwalk, hleads.walkFrom_append (List.mem_singleton.mpr rfl) (Segment.isStepDown_ne_nil hx),
    List.nil_append, walkFrom_free hx hxshort hfree]

theorem makeDirectory_below {names : List Segment} {x : Segment} (hwf : fs.WellFormed)
    (hreaches : fs.Reaches outDir.isAbsolute outDir.steps (.standing top))
    (hnames : ∀ y ∈ names ++ [x], y.isStepDown)
    (hshort : ∀ y ∈ names ++ [x], y.bytes.length ≤ nameLimit)
    (hroom : HasRoom fs top names) (hq : IsBelow outDir q (names ++ [x]))
    (hfree : fs.find? (top ++ (names ++ [x])) = none) :
    makeDirectory q fs =
      if fs.find? (top ++ names) = some .directory then
        .ok (fs.put (top ++ (names ++ [x])) .directory)
      else .error .missing := by
  have hx := hnames x (List.mem_append_right names (List.mem_singleton.mpr rfl))
  have hcheck := hq.checked (Path.isEmpty_of_steps_ne_nil (by rw [hq.steps]; simp))
  rcases hq.walkFrom_eq hx hreaches with ⟨k, init, hlast, hinit, hwalk⟩
  rw [makeDirectory_of_checkPath hcheck,
    trimSlashes_of_getLast? hlast (Segment.isStepDown_ne_nil hx)]
  rcases hroom names List.prefix_rfl with hnone | hdirectory
  · subst hinit
    rw [hwalk, walkFrom_missing (Segment.isStepDown_ne_nil hx)
      (fun hup => (hnames _ (List.mem_append_left _ hup)).2 rfl)
      (fun y hy => hshort y (List.mem_append_left _ hy)) hroom (hreaches.stands hwf) hnone,
      hnone]
    rfl
  · rw [walkFrom_of_free hwf hreaches hnames hshort hq hdirectory hfree, if_pos hdirectory]

theorem reaches_of_directory {names : List Segment} (hwf : fs.WellFormed)
    (hreaches : fs.Reaches outDir.isAbsolute outDir.steps (.standing top))
    (hnames : ∀ y ∈ names, y.isStepDown) (hshort : ∀ y ∈ names, y.bytes.length ≤ nameLimit)
    (hq : IsBelow outDir q names) (hdirectory : fs.find? (top ++ names) = some .directory) :
    fs.Reaches q.isAbsolute q.steps (.standing (top ++ names)) := by
  rw [hq.isAbsolute, hq.steps]
  exact hreaches.to_directory hwf hnames hshort hdirectory

end Files

namespace BuildPlan

open Files

variable {fs middle changed : Files} {outDir q : Path} {top : Location}

/-!
## Making directories succeeds
-/

theorem AddsNames.find?_concat {names : List Segment} {x : Segment}
    (hadds : AddsNames top names fs middle) (hnone : fs.find? (top ++ (names ++ [x])) = none) :
    middle.find? (top ++ (names ++ [x])) = none := by
  rcases hadds.added (top ++ (names ++ [x])) with hsame | ⟨-, -, first, -, hfirst, hsplit⟩
  · rw [hsame, hnone]
  · obtain rfl := List.append_cancel_left hsplit
    have hle := hfirst.length_le
    rw [List.length_append, List.length_singleton] at hle
    omega

theorem hasRoom_of_addsNames {names rest : List Segment} (hroom : HasRoom fs top rest)
    (hadds : AddsNames top names fs middle) : HasRoom middle top rest := by
  intro first hfirst
  rcases hadds.added (top ++ first) with hsame | ⟨-, hdirectory, -⟩
  · rw [hsame]
    exact hroom first hfirst
  · exact Or.inr hdirectory

theorem makeFirst_succeeds {fuel : Nat} {names : List Segment}
    (hnames : ∀ y ∈ names, y.isStepDown) (hshort : ∀ y ∈ names, y.bytes.length ≤ nameLimit)
    (h : OutputAt fs outDir top) (hq : IsBelow outDir q names) (hroom : HasRoom fs top names)
    (hfuel : names.length < fuel) :
    ∃ changed, makeFirst (ancestors fuel q) fs = .ok () changed := by
  induction fuel generalizing q names with
  | zero => exact absurd hfuel (Nat.not_lt_zero _)
  | succ fuel ih =>
      obtain ⟨above, hancestors, habove⟩ : ∃ above, ancestors (fuel + 1) q = q :: above ∧
          ∀ r, q.parent? = some r → above = ancestors fuel r := by
        rw [ancestors]
        split
        · next hnone => exact ⟨_, rfl, fun r hr => by rw [hnone] at hr; cases hr⟩
        · next r hsome =>
            exact ⟨_, rfl, fun r' hr' => by rw [hsome] at hr'; rw [Option.some.inj hr']⟩
      rw [hancestors]
      by_cases hempty : q.isEmpty = true
      · exact ⟨fs, by simp only [makeFirst, hempty, if_true]⟩
      have hne : q.isEmpty = false := by simpa using hempty
      rcases hroom names List.prefix_rfl with hnone | hdirectory
      · rcases List.eq_nil_or_concat names with rfl | ⟨front, x, rfl⟩
        · have hstands := h.reaches.stands h.wellFormed
          rw [List.append_nil] at hnone
          rw [Stands, WorkingDirectory.base, hnone] at hstands
          cases hstands
        · rw [List.concat_eq_append] at *
          have hfront : HasRoom fs top front :=
            fun first hfirst => hroom first (hfirst.trans (List.prefix_append ..))
          have hmake := makeDirectory_below h.wellFormed h.reaches hnames hshort hfront hq hnone
          by_cases hdirectory : fs.find? (top ++ front) = some .directory
          · rw [if_pos hdirectory] at hmake
            exact ⟨_, makeFirst_of_made hne hmake above⟩
          · rw [if_neg hdirectory] at hmake
            rcases hq.parent? with ⟨r, hr, hbelow⟩
            have hnames' : ∀ y ∈ front, y.isStepDown :=
              fun y hy => hnames y (List.mem_append_left _ hy)
            have hshort' : ∀ y ∈ front, y.bytes.length ≤ nameLimit :=
              fun y hy => hshort y (List.mem_append_left _ hy)
            have hlength : front.length < fuel := by
              rw [List.length_append, List.length_singleton] at hfuel
              omega
            rcases ih hnames' hshort' hbelow hfront hlength with ⟨middle, hmiddle⟩
            rcases Nat.exists_eq_add_of_lt hlength with ⟨more, rfl⟩
            obtain ⟨hout, hstands, hadds⟩ :=
              outputAt_of_makeFirst hnames' h hbelow.isAbsolute hbelow.steps hmiddle
            have hmake' := makeDirectory_below hout.wellFormed hout.reaches hnames hshort
              (hasRoom_of_addsNames hfront hadds) hq (hadds.find?_concat hnone)
            rw [if_pos hstands] at hmake'
            rw [← habove r hr] at hmiddle
            exact ⟨_, makeFirst_of_missing hne hmake hmiddle hmake'⟩
      · exact ⟨fs, makeFirst_of_reaches (hq.checked hne)
          (reaches_of_directory h.wellFormed h.reaches hnames hshort hq hdirectory) above⟩

/-!
## Writing a document succeeds
-/

/-- Whether a url can be the path of a file below the output directory: the system allows
its length and that of its names, and it ends with a name. -/
structure FitsIn (outDir : Path) (url : String) : Prop where
  checked : checkPath (outDir.join (.ofText url)) = .ok ()
  short : ∀ x ∈ urlNames url, x.bytes.length ≤ nameLimit
  named : ∀ x, (Path.ofText url).segments.getLast? = some x → x.isIdle = false

theorem isBelow_document {url : String} (hout : outDir.isEmpty = false) (hnames : IsNames url)
    (hfits : FitsIn outDir url) : IsBelow outDir (outDir.join (.ofText url)) (urlNames url) := by
  rcases documentPath hout hnames with ⟨habs, hsteps⟩
  refine ⟨habs, hsteps, fun _ => hfits.checked, fun _ x hx => hfits.named x ?_⟩
  rcases Path.segments_join hout hnames.relative with ⟨front, hsegments, -⟩
  have hne : (Path.ofText url).segments ≠ [] := List.splitOn_ne_nil _ _
  rwa [hsegments, List.getLast?_append_of_ne_nil _ hne] at hx

theorem writeDocument_succeeds {d : Document} (hout : outDir.isEmpty = false)
    (hnames : IsNames d.url) (hfits : FitsIn outDir d.url) (h : OutputAt fs outDir top)
    (hroom : HasRoom fs top (urlNames d.url).dropLast)
    (hfree : fs.find? (top ++ urlNames d.url) = none) :
    ∃ path changed, writeDocument outDir d fs = .ok path changed := by
  have hq := isBelow_document hout hnames hfits
  have hsteps : ∀ y ∈ urlNames d.url, y.isStepDown := fun y hy => hnames.isStepDown hy
  have hshort := hfits.short
  generalize hpath : outDir.join (.ofText d.url) = path at hq
  rcases (List.eq_nil_or_concat (urlNames d.url)).resolve_left hnames.ne_nil with ⟨front, x, hfront⟩
  rw [List.concat_eq_append] at hfront
  rw [hfront] at hq hroom hfree hsteps hshort
  rw [List.dropLast_concat] at hroom
  rcases hq.parent? with ⟨above, habove, hbelow⟩
  have hnames' : ∀ y ∈ front, y.isStepDown := fun y hy => hsteps y (List.mem_append_left _ hy)
  have hlength : front.length < above.segments.length + 1 := by
    have hle : above.steps.length ≤ above.segments.length := List.length_filter_le ..
    rw [hbelow.steps, List.length_append] at hle
    omega
  obtain ⟨middle, hmiddle⟩ := makeFirst_succeeds hnames'
    (fun y hy => hshort y (List.mem_append_left _ hy)) h hbelow hroom hlength
  obtain ⟨hout', hstands, hadds⟩ :=
    outputAt_of_makeFirst hnames' h hbelow.isAbsolute hbelow.steps hmiddle
  have hwalk := walkFrom_of_free hout'.wellFormed hout'.reaches hsteps hshort hq hstands
    (hadds.find?_concat hfree) .writing
  have hlocate : middle.locate .writing path = .ok (.free (top ++ (front ++ [x]))) :=
    locate_eq_ok_iff.mpr ⟨hpath ▸ hfits.checked, hwalk⟩
  subst hpath
  have hput : Files.write (outDir.join (.ofText d.url)) (Utf8.encode d.html.html) middle =
      .ok (middle.put (top ++ (front ++ [x])) (.file (Utf8.encode d.html.html))) := by
    rw [Files.write, hlocate]
    rfl
  exact ⟨_, _, writeDocument_of_ok habove hmiddle hput⟩

theorem fitsIn_of_writeDocument {d : Document} {path : Path} (hout : outDir.isEmpty = false)
    (hnames : IsNames d.url) (h : OutputAt fs outDir top)
    (hwrite : writeDocument outDir d fs = .ok path changed) : FitsIn outDir d.url := by
  rcases documentParent hout hnames with ⟨above, habove, habs, hsteps⟩
  rcases exists_of_writeDocument habove hwrite with ⟨rfl, middle, hmake, hput⟩
  obtain ⟨hmiddle, -⟩ :=
    outputAt_of_makeFirst (fun x hx => hnames.isStepDown_dropLast hx) h habs hsteps hmake
  obtain ⟨place, hlocate, hplace⟩ : ∃ place,
      middle.locate .writing (outDir.join (.ofText d.url)) = .ok place ∧
        ∀ l, place ≠ .entry l .directory := by
    rcases write_eq_ok hput with ⟨location, -, hlocate | ⟨old, hlocate⟩⟩
    · exact ⟨_, hlocate, by simp⟩
    · exact ⟨_, hlocate, by simp⟩
  rcases locate_eq_ok_iff.mp hlocate with ⟨hcheck, hwalk⟩
  rcases walkFrom_url hout hnames hmiddle with ⟨links, hurl⟩
  rw [hurl, ← List.append_nil top] at hwalk
  obtain ⟨hshort, hnamed⟩ :=
    last_of_walkFrom hmiddle.links hnames.up_not_mem hwalk hplace
  exact ⟨hcheck, hshort, hnamed⟩

/-!
## Writing all documents succeeds
-/

def Apart (names others : List Segment) : Prop := ¬ names <+: others ∧ ¬ others <+: names

theorem entryAt_cases (docs : List Document) (names : List Segment) :
    entryAt docs names = none ∨ entryAt docs names = some .directory ∨
      ∃ d ∈ docs, urlNames d.url = names := by
  cases hentry : entryAt docs names with
  | none => exact Or.inl rfl
  | some entry =>
      cases entry with
      | directory => exact Or.inr (Or.inl rfl)
      | link target => exact absurd hentry (entryAt_ne_link target)
      | file content => exact Or.inr (Or.inr (entryAt_eq_file_iff.mp ⟨content, hentry⟩))

/-- Documents whose urls are apart from another one leave room for its directories. -/
theorem hasRoom_of_apart {done : List Document} {names : List Segment} (h : OutputAt fs outDir top)
    (hinv : ∀ names, names ≠ [] → fs.find? (top ++ names) = entryAt done names)
    (hapart : ∀ other ∈ done, Apart (urlNames other.url) names) :
    HasRoom fs top names.dropLast := by
  intro first hfirst
  by_cases hne : first = []
  · right
    rw [hne, List.append_nil]
    exact h.reaches.stands h.wellFormed
  · rw [hinv first hne]
    rcases entryAt_cases done first with hnone | hdirectory | ⟨other, hother, rfl⟩
    · exact Or.inl hnone
    · exact Or.inr hdirectory
    · exact absurd (hfirst.trans (List.dropLast_prefix _)) (hapart other hother).1

theorem entryAt_of_apart {done : List Document} {names : List Segment}
    (hapart : ∀ other ∈ done, Apart (urlNames other.url) names) : entryAt done names = none := by
  rcases entryAt_cases done names with hnone | hdirectory | ⟨other, hother, hsame⟩
  · exact hnone
  · rcases exists_of_entryAt_eq_directory hdirectory with ⟨other, hother, hbegins, -⟩
    exact absurd hbegins (hapart other hother).2
  · exact absurd (hsame ▸ List.prefix_rfl) (hapart other hother).1

theorem writeDocuments_succeeds (done : List Document) {docs : List Document}
    (hout : outDir.isEmpty = false)
    (hnames : ∀ d ∈ docs, IsNames d.url) (hfits : ∀ d ∈ docs, FitsIn outDir d.url)
    (h : OutputAt fs outDir top)
    (hinv : ∀ names, names ≠ [] → fs.find? (top ++ names) = entryAt done names)
    (hapart : (done ++ docs).Pairwise fun a b => Apart (urlNames a.url) (urlNames b.url)) :
    ∃ written changed, writeDocuments outDir docs fs = .ok written changed := by
  induction docs generalizing fs done with
  | nil => exact ⟨[], fs, rfl⟩
  | cons d rest ih =>
      have hd := hnames d (List.mem_cons_self ..)
      have hdone : ∀ other ∈ done, Apart (urlNames other.url) (urlNames d.url) :=
        fun other hother => (List.pairwise_append.mp hapart).2.2 other hother d
          (List.mem_cons_self ..)
      have hroom := hasRoom_of_apart h hinv hdone
      have hfree : fs.find? (top ++ urlNames d.url) = none :=
        (hinv _ hd.ne_nil).trans (entryAt_of_apart hdone)
      obtain ⟨path, middle, hwrite⟩ :=
        writeDocument_succeeds hout hd (hfits d (List.mem_cons_self ..)) h hroom hfree
      rcases writeDocument_eq_ok hout hd h hwrite with ⟨-, hwrites⟩
      rcases writeDocument_changesBelow hout hd h with ⟨hmiddle, -⟩
      rw [FileAction.after_of_ok hwrite] at hmiddle
      obtain ⟨written, changed, hrest⟩ := ih (done ++ [d])
        (fun other hother => hnames other (List.mem_cons_of_mem _ hother))
        (fun other hother => hfits other (List.mem_cons_of_mem _ hother)) hmiddle
        (fun names hne => entryAt_of_writes hinv hwrites hne)
        (by rwa [List.append_assoc, List.singleton_append])
      exact ⟨path :: written, changed, writeDocuments_cons_of_ok hwrite hrest⟩

theorem fitsIn_of_writeDocuments {docs : List Document} {written : List Path}
    (hout : outDir.isEmpty = false) (hnames : ∀ d ∈ docs, IsNames d.url)
    (h : OutputAt fs outDir top) (hwrite : writeDocuments outDir docs fs = .ok written changed) :
    ∀ d ∈ docs, FitsIn outDir d.url := by
  induction docs generalizing fs written with
  | nil => simp
  | cons d rest ih =>
      have hd := hnames d (List.mem_cons_self ..)
      rcases exists_of_writeDocuments_cons hwrite with ⟨path, paths, middle, rfl, hfirst, hlast⟩
      rcases writeDocument_changesBelow hout hd h with ⟨hmiddle, -⟩
      rw [FileAction.after_of_ok hfirst] at hmiddle
      exact List.forall_mem_cons.mpr ⟨fitsIn_of_writeDocument hout hd h hfirst,
        ih (fun other hother => hnames other (List.mem_cons_of_mem _ hother)) hmiddle hlast⟩

/-- Files whose names begin with those of other files cannot all stand. -/
theorem apart_of_files {docs : List Document} (hwf : fs.WellFormed)
    (hfiles : ∀ d ∈ docs,
      fs.find? (top ++ urlNames d.url) = some (.file (Utf8.encode d.html.html)))
    {a b : Document} (ha : a ∈ docs) (hb : b ∈ docs) (hne : urlNames a.url ≠ urlNames b.url) :
    ¬ urlNames a.url <+: urlNames b.url := by
  rintro ⟨rest, hrest⟩
  have hfile := hfiles b hb
  rw [← hrest, ← List.append_assoc] at hfile
  have hdirectory := hwf.find?_of_append (by rintro rfl; simp [hne] at hrest) hfile
  rw [hfiles a ha] at hdirectory
  cases hdirectory

/-- Accepted pages are all written to an empty output directory, and each to a file of its
own, if and only if their urls can be paths of files and neither of two of them has the
first names of the other. -/
theorem writeDocuments_succeed_iff {pages : List Page} (settings : LayoutSettings)
    (hwf : fs.WellFormed) (hlocate : fs.locate .target outDir = .ok (.entry top .directory))
    (hempty : fs.isOccupied top = false) (haccepted : urlProblem? [] pages = none) :
    ((∃ written changed,
          writeDocuments outDir (Layout.documents pages settings) fs = .ok written changed ∧
          ∀ d ∈ Layout.documents pages settings,
            changed.find? (top ++ urlNames d.url) =
              some (.file (Utf8.encode d.html.html))) ∧
        (pages.map fun page => urlNames page.url).Nodup) ↔
      (∀ page ∈ pages, FitsIn outDir page.url) ∧
        pages.Pairwise fun a b => Apart (urlNames a.url) (urlNames b.url) := by
  rcases outputAt_of_empty hwf hlocate hempty with ⟨h, hout⟩
  have hnames : ∀ d ∈ Layout.documents pages settings, IsNames d.url := by
    intro d hd
    rcases List.mem_map.mp hd with ⟨page, hpage, rfl⟩
    exact isNames_of_isAcceptable ((urlProblem?_eq_none_iff.mp haccepted).1 page hpage).1
  have hmem : ∀ page ∈ pages, (⟨page.url, Layout.document pages settings page⟩ : Document) ∈
      Layout.documents pages settings := fun page hpage => List.mem_map_of_mem hpage
  have hinv := find?_eq_entryAt_nil hempty
  constructor
  · rintro ⟨⟨written, changed, hwrite, hfiles⟩, hnodup⟩
    rcases writeDocuments_changesBelow hout hnames h with ⟨hfinal, -⟩
    rw [FileAction.after_of_ok hwrite] at hfinal
    refine ⟨fun page hpage =>
      fitsIn_of_writeDocuments hout hnames h hwrite _ (hmem page hpage), ?_⟩
    refine (List.pairwise_map.mp hnodup).imp_of_mem ?_
    intro a b ha hb hne
    have hab := apart_of_files hfinal.wellFormed hfiles (hmem a ha) (hmem b hb) hne
    have hba := apart_of_files hfinal.wellFormed hfiles (hmem b hb) (hmem a ha) hne.symm
    exact ⟨hab, hba⟩
  · rintro ⟨hfits, hapart⟩
    have hapart' : (Layout.documents pages settings).Pairwise fun a b =>
        Apart (urlNames a.url) (urlNames b.url) := by
      rw [Layout.documents, List.pairwise_map]
      exact hapart
    have hfits' : ∀ d ∈ Layout.documents pages settings, FitsIn outDir d.url := by
      intro d hd
      rcases List.mem_map.mp hd with ⟨page, hpage, rfl⟩
      exact hfits page hpage
    obtain ⟨written, changed, hwrite⟩ :=
      writeDocuments_succeeds [] hout hnames hfits' h hinv hapart'
    rcases writeDocuments_eq_ok hout hnames h hinv hwrite with ⟨-, htree⟩
    refine ⟨⟨written, changed, hwrite, ?_⟩, ?_⟩
    · intro d hd
      rw [htree _ (hnames d hd).ne_nil, List.nil_append]
      rcases List.append_of_mem hd with ⟨before, after, hsplit⟩
      rw [hsplit] at hapart' ⊢
      refine entryAt_last fun other hother hsame => ?_
      have hfirst := (List.pairwise_append.mp hapart').2.1
      exact (List.rel_of_pairwise_cons hfirst hother).2 (hsame ▸ List.prefix_rfl)
    · refine List.pairwise_map.mpr (hapart.imp ?_)
      intro a b hab heq
      exact hab.1 (heq ▸ List.prefix_rfl)

theorem writeDocuments_succeed_iff_blog :
    let fs : Files := { entries := [([.ofText "out"], .directory)] }
    let pages : List Page := [⟨"A", "blog/a", ⟨"x"⟩⟩, ⟨"B", "./blog//b", ⟨"y"⟩⟩]
    urlProblem? [] pages = none ∧
      (((∃ written changed,
            writeDocuments (.ofText "out") (Layout.documents pages {}) fs = .ok written changed ∧
            ∀ d ∈ Layout.documents pages {},
              changed.find? ([.ofText "out"] ++ urlNames d.url) =
                some (.file (Utf8.encode d.html.html))) ∧
          (pages.map fun page => urlNames page.url).Nodup) ↔
        (∀ page ∈ pages, FitsIn (.ofText "out") page.url) ∧
          pages.Pairwise fun a b => Apart (urlNames a.url) (urlNames b.url)) := by
  intro fs pages
  exact ⟨by decide, writeDocuments_succeed_iff {} (by decide) (by decide) (by decide) (by decide)⟩

/-- Accepted urls may have the same names. -/
theorem not_forall_accepted_apart :
    ¬ ∀ pages : List Page, urlProblem? [] pages = none →
      (pages.map fun page => urlNames page.url).Nodup ∧
        (pages.Pairwise fun a b => Apart (urlNames a.url) (urlNames b.url)) ∧
        ∀ page ∈ pages, ∀ x, (Path.ofText page.url).segments.getLast? = some x →
          x.isIdle = false := by
  intro hall
  have haccepted : urlProblem? [] [⟨"A", "a", ⟨"x"⟩⟩, ⟨"B", "./a", ⟨"y"⟩⟩] = none := by decide
  rcases hall _ haccepted with ⟨hnodup, -⟩
  revert hnodup
  decide

end BuildPlan

end StaticSite
