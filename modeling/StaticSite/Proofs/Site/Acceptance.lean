import StaticSite.Proofs.Scanning
import StaticSite.Proofs.Site.Writing
/-!
# Acceptable urls

A url is accepted for what stands between its slashes: it starts with none, nothing in it leads
upwards, and something in it is a name. The components of the path of an accepted url are those
of the output directory and then its names, so its file is below the output directory. Of pages
that are not accepted the first is reported.
-/

namespace StaticSite

theorem splitOn_map {α β : Type} [BEq α] [LawfulBEq α] [BEq β] [LawfulBEq β] {f : α → β}
    (hf : Function.Injective f) (a : α) (l : List α) :
    (l.map f).splitOn (f a) = (l.splitOn a).map (List.map f) := by
  induction l with
  | nil => simp
  | cons b l ih =>
      rw [List.map_cons, List.splitOn_cons_eq_if_modifyHead, List.splitOn_cons_eq_if_modifyHead, ih]
      by_cases h : b = a
      · simp [h]
      · have hne : f b ≠ f a := hf.ne h
        simp only [beq_eq_false_iff_ne.mpr h, beq_eq_false_iff_ne.mpr hne]
        cases l.splitOn a <;> rfl

namespace Segment

theorem char_injective : Function.Injective Utf8.Part.char := fun _ _ h => Utf8.Part.char.inj h

theorem ofText_injective : Function.Injective ofText := fun _ _ h =>
  String.toList_inj.mp (List.map_injective_iff.mpr char_injective h)

theorem isIdle_ofText {text : String} :
    (ofText text).isIdle = false ↔ text ≠ "" ∧ text ≠ "." := by
  have hempty : ofText text = [] ↔ text = "" := ofText_injective.eq_iff (b := "")
  have hhere : ofText text = here ↔ text = "." := ofText_injective.eq_iff (b := ".")
  rw [isIdle, Bool.or_eq_false_iff, beq_eq_false_iff_ne, beq_eq_false_iff_ne, ne_eq, hempty,
    ne_eq, hhere]

end Segment

namespace BuildPlan

variable {url : String} {pages : List Page}

/-!
## What stands between slashes
-/

def urlSegments (url : String) : List String := (url.toList.splitOn '/').map String.ofList

/-- The texts between the slashes of a url that mean something. -/
def ordinarySegments (url : String) : List String :=
  (urlSegments url).filter fun text => text ≠ "" ∧ text ≠ "."

/-- What a url has to be for its file to be below the directory that it is related to. -/
structure IsInside (url : String) : Prop where
  relative : url.toList.head? ≠ some '/'
  up_not_mem : ".." ∉ urlSegments url
  named : ∃ text ∈ urlSegments url, text ≠ "" ∧ text ≠ "."

theorem segments_ofText (url : String) :
    (Path.ofText url).segments = (urlSegments url).map Segment.ofText := by
  rw [Path.segments, Path.ofText, splitOn_map Segment.char_injective, urlSegments, List.map_map]
  refine List.map_congr_left fun chars _ => ?_
  rw [Function.comp_apply, Segment.ofText, String.toList_ofList]

theorem urlNames_eq (url : String) : urlNames url = (ordinarySegments url).map Segment.ofText := by
  rw [urlNames, Path.steps, segments_ofText, Path.stepsOf, List.filter_map, ordinarySegments]
  congr 1
  refine List.filter_congr fun text _ => ?_
  rw [Function.comp_apply, Bool.eq_iff_iff, Bool.not_eq_true', Segment.isIdle_ofText,
    decide_eq_true_iff]

theorem isAbsolute_ofText : (Path.ofText url).isAbsolute = false ↔ url.toList.head? ≠ some '/' := by
  rw [Path.isAbsolute, Path.ofText, List.head?_map, beq_eq_false_iff_ne]
  exact (Option.map_injective Segment.char_injective).ne_iff (y := some '/')

theorem up_mem_urlNames : Segment.up ∈ urlNames url ↔ ".." ∈ urlSegments url := by
  have hup : Segment.up = Segment.ofText ".." := rfl
  rw [urlNames_eq, hup, List.mem_map_of_injective Segment.ofText_injective, ordinarySegments,
    List.mem_filter]
  exact and_iff_left (by decide)

theorem urlNames_ne_nil : urlNames url ≠ [] ↔ ∃ text ∈ urlSegments url, text ≠ "" ∧ text ≠ "." := by
  rw [urlNames_eq, ne_eq, List.map_eq_nil_iff, ordinarySegments, List.filter_eq_nil_iff]
  simp

theorem isAcceptable_iff_isInside : isAcceptable url = true ↔ IsInside url := by
  rw [isAcceptable_iff]
  constructor
  · rintro ⟨hrelative, hup, hne⟩
    exact ⟨isAbsolute_ofText.mp hrelative, mt up_mem_urlNames.mpr hup, urlNames_ne_nil.mp hne⟩
  · rintro ⟨hrelative, hup, hnamed⟩
    exact ⟨isAbsolute_ofText.mpr hrelative, mt up_mem_urlNames.mp hup, urlNames_ne_nil.mpr hnamed⟩

theorem components_document {outDir : Path} (hout : outDir.isEmpty = false) (h : IsInside url) :
    (outDir.join (.ofText url)).components =
      outDir.components ++ (ordinarySegments url).map fun text => .name (.ofText text) := by
  have hnames := isAcceptable_iff.mp (isAcceptable_iff_isInside.mpr h)
  have hsteps : ∀ s ∈ urlNames url, Path.component s = .name s :=
    fun s hs => Path.component_of_ne_up (hnames.isStepDown hs).2
  rw [Path.components_join hout hnames.relative]
  show outDir.components ++ (urlNames url).map Path.component = _
  rw [List.map_congr_left hsteps, urlNames_eq, List.map_map]
  rfl

/-!
## The first problem
-/

/-- What is reported of pages that are not accepted: the first page whose url does not lead
inside, or is that of a page before it. -/
inductive FirstUrlProblem : List Page → BuildError → Prop where
  | invalid {before after : List Page} {page : Page}
      (hbefore : ∀ earlier ∈ before, IsInside earlier.url)
      (hdistinct : (before.map Page.url).Nodup) (hpage : ¬ IsInside page.url) :
      FirstUrlProblem (before ++ page :: after) (.invalidUrl page.url)
  | duplicate {before after : List Page} {page : Page}
      (hbefore : ∀ earlier ∈ before, IsInside earlier.url)
      (hdistinct : (before.map Page.url).Nodup) (hpage : IsInside page.url)
      (hseen : page.url ∈ before.map Page.url) :
      FirstUrlProblem (before ++ page :: after) (.duplicateUrl page.url)

theorem urlProblem?_eq_none_iff_isInside :
    urlProblem? [] pages = none ↔
      (∀ page ∈ pages, IsInside page.url) ∧ (pages.map Page.url).Nodup := by
  simp only [urlProblem?_eq_none_iff, isAcceptable_iff_isInside, List.not_mem_nil,
    not_false_eq_true, and_true]

/-- What a page alone is reported for, next to the urls of the pages before it. -/
def pageUrlProblem? (seen : List String) (page : Page) : Option BuildError :=
  if !isAcceptable page.url then some (.invalidUrl page.url)
  else if page.url ∈ seen then some (.duplicateUrl page.url)
  else none

theorem isScan_urlProblem? :
    IsScan urlProblem? pageUrlProblem? fun seen page => page.url :: seen where
  nil _ := rfl
  cons seen page rest := by
    rw [urlProblem?, pageUrlProblem?]
    split
    · rfl
    · split <;> rfl

theorem pageUrlProblem?_eq_some_iff {seen : List String} {page : Page} {problem : BuildError} :
    pageUrlProblem? seen page = some problem ↔
      (¬ IsInside page.url ∧ problem = .invalidUrl page.url) ∨
        (IsInside page.url ∧ page.url ∈ seen ∧ problem = .duplicateUrl page.url) := by
  rw [pageUrlProblem?, ← isAcceptable_iff_isInside]
  cases hok : isAcceptable page.url with
  | false => simp [eq_comm]
  | true => by_cases hseen : page.url ∈ seen <;> simp [hseen, eq_comm]

theorem mem_foldl_urls {before : List Page} {url : String} :
    url ∈ before.foldl (fun seen page => page.url :: seen) [] ↔ url ∈ before.map Page.url := by
  rw [List.foldl_flip_cons_eq_append, List.append_nil, List.mem_reverse]

theorem urlProblem?_eq_some_iff {problem : BuildError} :
    urlProblem? [] pages = some problem ↔ FirstUrlProblem pages problem := by
  rw [isScan_urlProblem?.eq_some_iff []]
  constructor
  · rintro ⟨before, page, after, rfl, hbefore, hpage⟩
    rcases urlProblem?_eq_none_iff_isInside.mp hbefore with ⟨hinside, hdistinct⟩
    rcases pageUrlProblem?_eq_some_iff.mp hpage with ⟨hbad, rfl⟩ | ⟨hgood, hseen, rfl⟩
    · exact .invalid hinside hdistinct hbad
    · exact .duplicate hinside hdistinct hgood (mem_foldl_urls.mp hseen)
  · intro h
    cases h with
    | @invalid before after page hbefore hdistinct hpage =>
        exact ⟨before, page, after, rfl,
          urlProblem?_eq_none_iff_isInside.mpr ⟨hbefore, hdistinct⟩,
          pageUrlProblem?_eq_some_iff.mpr (Or.inl ⟨hpage, rfl⟩)⟩
    | @duplicate before after page hbefore hdistinct hpage hseen =>
        exact ⟨before, page, after, rfl,
          urlProblem?_eq_none_iff_isInside.mpr ⟨hbefore, hdistinct⟩,
          pageUrlProblem?_eq_some_iff.mpr (Or.inr ⟨hpage, mem_foldl_urls.mpr hseen, rfl⟩)⟩

/-- Pages are accepted if and only if their urls lead inside and are distinct, and otherwise the
first page that breaks this is reported. The path of an accepted url has the components of the
output directory and then at least one more, all of them names. -/
theorem urlProblem?_exact (pages : List Page) :
    (urlProblem? [] pages = none ↔
        (∀ page ∈ pages, IsInside page.url) ∧ (pages.map Page.url).Nodup) ∧
      (∀ problem, urlProblem? [] pages = some problem ↔ FirstUrlProblem pages problem) ∧
      (urlProblem? [] pages = none → ∀ page ∈ pages, ∀ outDir : Path, outDir.isEmpty = false →
        (outDir.join (.ofText page.url)).components =
            outDir.components ++
              (ordinarySegments page.url).map (fun text => .name (.ofText text)) ∧
          ordinarySegments page.url ≠ [] ∧ ".." ∉ ordinarySegments page.url) := by
  refine ⟨urlProblem?_eq_none_iff_isInside, fun _ => urlProblem?_eq_some_iff, ?_⟩
  intro haccepted page hpage outDir hout
  have hinside := (urlProblem?_eq_none_iff_isInside.mp haccepted).1 page hpage
  rcases hinside.named with ⟨text, htext, hmeant⟩
  refine ⟨components_document hout hinside, ?_, ?_⟩
  · exact List.ne_nil_of_mem (List.mem_filter.mpr ⟨htext, by simpa using hmeant⟩)
  · intro hup
    exact hinside.up_not_mem (List.mem_filter.mp hup).1

theorem urlProblem?_exact_dots :
    let page : Page := ⟨"A", ".//blog/...//.", ⟨"x"⟩⟩
    let pages : List Page := [page, ⟨"B", "./blog/...", ⟨"y"⟩⟩]
    let outDir := Path.ofText "./out/"
    (urlProblem? [] pages = none ∧ page ∈ pages ∧ outDir.isEmpty = false) ∧
      (outDir.join (.ofText page.url)).components =
          [.here, .name (.ofText "out"), .name (.ofText "blog"), .name (.ofText "...")] ∧
        ordinarySegments page.url ≠ [] ∧ ".." ∉ ordinarySegments page.url := by
  intro page pages outDir
  have haccepted : urlProblem? [] pages = none := by decide
  have hpage : page ∈ pages := List.mem_cons_self ..
  rcases (urlProblem?_exact pages).2.2 haccepted page hpage outDir rfl with
    ⟨hcomponents, hnamed, hup⟩
  exact ⟨⟨haccepted, hpage, rfl⟩, hcomponents.trans (by decide), hnamed, hup⟩

end BuildPlan

end StaticSite
