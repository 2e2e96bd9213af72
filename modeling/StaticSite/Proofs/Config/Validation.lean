import StaticSite.Config.Load
import StaticSite.Proofs.Outcomes
import Mathlib.Data.List.Basic
import Mathlib.Tactic.SplitIfs
import Mathlib.Tactic.Tauto
/-!
# Valid configurations

Validation goes through the pages once and remembers the urls that it has seen. A
configuration passes if its stylesheets and the entries of its pages are fine by themselves
and no two pages have the same url. Whatever configuration is loaded has passed.
-/

namespace StaticSite

/-- What validation asks of an entry without regard to the others. -/
structure PageEntry.IsComplete (entry : PageEntry) : Prop where
  title_ne : entry.title ≠ ""
  url_ne : entry.url ≠ ""
  content : entry.content? ≠ none

namespace Config

variable {seen : List String} {config : Config}

structure IsValid (config : Config) : Prop where
  stylesheets : "" ∉ config.site.stylesheets
  entries : ∀ entry ∈ config.pages, entry.IsComplete
  urls : (config.pages.map PageEntry.url).Nodup

/-!
## What passes
-/

theorem pageProblem?_eq_none_iff {index : Nat} {entry : PageEntry} :
    pageProblem? index seen entry = none ↔ entry.IsComplete ∧ entry.url ∉ seen := by
  unfold pageProblem?
  constructor
  · intro h
    split_ifs at h with htitle hurl hcontent hseen
    have hsome : entry.content? ≠ none := by rwa [Option.isNone_iff_eq_none] at hcontent
    exact ⟨⟨htitle, hurl, hsome⟩, hseen⟩
  · rintro ⟨⟨htitle, hurl, hcontent⟩, hseen⟩
    rw [if_neg htitle, if_neg hurl, if_neg (by rwa [Option.isNone_iff_eq_none]), if_neg hseen]

theorem pagesProblem?_eq_none_iff {index : Nat} {entries : List PageEntry} :
    pagesProblem? index seen entries = none ↔
      (∀ entry ∈ entries, entry.IsComplete) ∧ (entries.map PageEntry.url).Disjoint seen ∧
        (entries.map PageEntry.url).Nodup := by
  induction entries generalizing index seen with
  | nil => simp [pagesProblem?]
  | cons entry rest ih =>
      have hcons : pagesProblem? index seen (entry :: rest) = none ↔
          pageProblem? index seen entry = none ∧
            pagesProblem? (index + 1) (entry.url :: seen) rest = none := by
        rw [pagesProblem?]
        cases pageProblem? index seen entry <;> simp
      -- A url that is seen later on is either one of `seen` or that of this entry.
      rw [hcons, pageProblem?_eq_none_iff, ih, List.forall_mem_cons, List.map_cons,
        List.disjoint_cons_left, List.disjoint_cons_right, List.nodup_cons]
      tauto

theorem validate_eq_ok_iff : config.validate = .ok () ↔ config.IsValid := by
  have hproblem : config.validate = .ok () ↔ config.problem? = none := by
    unfold validate
    cases config.problem? <;> simp
  rw [hproblem, problem?]
  constructor
  · intro h
    split_ifs at h with hstylesheets
    rcases pagesProblem?_eq_none_iff.mp h with ⟨hentries, -, hurls⟩
    exact ⟨hstylesheets, hentries, hurls⟩
  · rintro ⟨hstylesheets, hentries, hurls⟩
    rw [if_neg hstylesheets]
    exact pagesProblem?_eq_none_iff.mpr ⟨hentries, List.disjoint_nil_right _, hurls⟩

/-!
## What is loaded
-/

theorem sorted_of_pairwise {members : Toml.Members}
    (h : (members.map Prod.fst).Pairwise (· ≤ ·)) : sorted members = members := by
  apply List.mergeSort_of_pairwise
  exact (List.pairwise_map.mp h).imp decide_eq_true

theorem readPage_of_texts (source title url : String) :
    readPage (.table .header [("source", .text source), ("title", .text title),
      ("url", .text url)]) = .ok ⟨title, url, some (.ofText source), none⟩ := by
  have hnames : ["source", "title", "url"].Pairwise (· ≤ ·) := by decide
  rw [readPage, sorted_of_pairwise]
  · rfl
  · exact hnames

/-- Whether a document has a page with a source, a title and a url, and nothing else. -/
def isPage (source title url : String) : Toml.Members → Bool
  | [("pages", .series [[("source", .text source'), ("title", .text title'),
      ("url", .text url')]])] => source' == source && title' == title && url' == url
  | _ => false

theorem ofMembers_of_isPage {source title url : String} {members : Toml.Members}
    (h : isPage source title url members = true) :
    ofMembers members = .ok { pages := [⟨title, url, some (.ofText source), none⟩] } := by
  unfold isPage at h
  split at h
  · next source' title' url' =>
      rw [Bool.and_eq_true, Bool.and_eq_true, beq_iff_eq, beq_iff_eq, beq_iff_eq] at h
      rcases h with ⟨⟨rfl, rfl⟩, rfl⟩
      rw [ofMembers, sorted_of_pairwise (List.pairwise_singleton ..)]
      show (([Toml.Value.table .header _].mapM readPage >>= _) >>= _) = _
      rw [List.mapM_cons, readPage_of_texts]
      rfl
  · cases h

/-- A text that describes a page is read as the page, and goes on to be filled in. -/
theorem ofText_of_isPage {env : Environment} {base : Path} {text source title url : String}
    (h : (Toml.Document.read? text).any (isPage source title url) = true) :
    ofText env base text =
      (expandAll env { pages := [⟨title, url, some (.ofText source), none⟩] } >>=
        fun expanded => (expanded.resolvePaths base).validate >>=
          fun _ => .ok (expanded.resolvePaths base)) := by
  rcases (Option.any_eq_true ..).mp h with ⟨members, hread, hpage⟩
  rw [ofText, hread]
  show (ofMembers members >>= _) = _
  rw [ofMembers_of_isPage hpage]
  rfl

theorem validate_ofText {env : Environment} {base : Path} {text : String}
    (h : ofText env base text = .ok config) : config.validate = .ok () := by
  unfold ofText at h
  split at h
  · cases h
  · rcases bind_eq_ok h with ⟨read, -, h⟩
    rcases bind_eq_ok h with ⟨expanded, -, h⟩
    rcases bind_eq_ok h with ⟨⟨⟩, hvalid, h⟩
    cases h
    exact hvalid

theorem validate_ofFile {env : Environment} {fs : Files} {p : Path}
    (h : ofFile env fs p = .ok config) : config.validate = .ok () := by
  unfold ofFile at h
  split at h
  · cases h
  · rcases bind_eq_ok h with ⟨read, hread, h⟩
    have hvalid : read.validate = .ok () := validate_ofText hread
    cases h
    exact hvalid

theorem validate_locateAndLoad {env : Environment} {fs : Files} {file? : Option Path}
    (h : locateAndLoad env fs file? = .ok config) : config.validate = .ok () := by
  unfold locateAndLoad at h
  split at h
  · split at h
    · exact validate_ofFile h
    · cases h
  · split at h
    · exact validate_ofFile h
    · cases h
      rfl

theorem validate_load {env : Environment} {fs : Files} {file? outDir? : Option Path}
    (h : load env fs file? outDir? = .ok config) : config.validate = .ok () := by
  unfold load at h
  rcases bind_eq_ok h with ⟨located, hlocated, h⟩
  have hvalid : located.validate = .ok () := validate_locateAndLoad hlocated
  cases h
  exact hvalid

end Config

end StaticSite
