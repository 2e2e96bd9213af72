import StaticSite.Proofs.Command.Refusing
import StaticSite.Proofs.Config.Validation
import StaticSite.Proofs.Files.Trees
import StaticSite.Proofs.Site.Documents
import Mathlib.Data.List.Forall2
/-!
# The pages of a valid configuration

Once a configuration is valid, its pages can fail to be read for one reason only, which is a
source that is no readable text. The pages that were read have the urls of their entries, so
the build does not find one twice.
-/

namespace StaticSite

/-!
## Pages of entries
-/

/-- Whether a page is that of an entry, whose content is a text or the text of a file. -/
inductive Page.IsOf (fs : Files) : PageEntry → Page → Prop where
  | text (title url content : String) :
      IsOf fs ⟨title, url, none, some content⟩
        ⟨title, url, ⟨"<div>" ++ Markup.escapeText content ++ "</div>"⟩⟩
  | file (title url : String) {path : Path} {html : String} (h : fs.readText path = .ok html) :
      IsOf fs ⟨title, url, some path, none⟩ ⟨title, url, ⟨html⟩⟩

/-- What reading the pages of entries in order comes to, which is the pages of all entries, or
the failure of the first source that cannot be read. -/
inductive Page.Reads (fs : Files) : List PageEntry → Except BuildError (List Page) → Prop where
  | all {entries : List PageEntry} {pages : List Page}
      (hpages : List.Forall₂ (IsOf fs) entries pages) : Reads fs entries (.ok pages)
  | unreadable {before after : List PageEntry} {entry : PageEntry} {path : Path}
      {cause : FileError} (hbefore : ∀ earlier ∈ before, ∃ page, IsOf fs earlier page)
      (hsource : entry.source = some path) (hread : fs.readText path = .error cause) :
      Reads fs (before ++ entry :: after) (.error (.io path cause))

namespace Page

variable {fs : Files} {entry : PageEntry} {page : Page}

theorem IsOf.url_eq (h : IsOf fs entry page) : page.url = entry.url := by
  cases h with
  | text => rfl
  | file => rfl

theorem wrap_div (content : String) :
    Node.wrap "div" [.text content] = ⟨"<div>" ++ Markup.escapeText content ++ "</div>"⟩ := by
  apply Markup.eq_mk_of_html_eq
  rw [Layout.html_wrap rfl, Layout.renderAllInto_singleton, Layout.render_text]
  rfl

theorem ofEntry_cases (hcontent : entry.content? ≠ none) :
    (∃ page, ofEntry fs entry = .ok page ∧ IsOf fs entry page) ∨
      ∃ path cause, entry.source = some path ∧ fs.readText path = .error cause ∧
        ofEntry fs entry = .error (.io path cause) := by
  rcases entry with ⟨title, url, _ | path, _ | content⟩
  · exact absurd rfl hcontent
  · refine Or.inl ⟨_, ?_, IsOf.text title url content⟩
    rw [← wrap_div]
    rfl
  · cases hread : fs.readText path with
    | ok html =>
        refine Or.inl ⟨_, ?_, IsOf.file title url hread⟩
        simp only [ofEntry, PageEntry.content?, hread]
    | error cause =>
        refine Or.inr ⟨path, cause, rfl, hread, ?_⟩
        simp only [ofEntry, PageEntry.content?, hread]
  · exact absurd rfl hcontent

theorem Reads.cons {entries : List PageEntry} {result : Except BuildError (List Page)}
    (hpage : IsOf fs entry page) (h : Reads fs entries result) :
    Reads fs (entry :: entries) (result.map (page :: ·)) := by
  cases h with
  | all hpages => exact Reads.all (List.Forall₂.cons hpage hpages)
  | unreadable hbefore hsource hread =>
      have hearlier := List.forall_mem_cons.mpr ⟨⟨page, hpage⟩, hbefore⟩
      exact Reads.unreadable hearlier hsource hread

theorem reads_mapM {entries : List PageEntry}
    (hcontent : ∀ entry ∈ entries, entry.content? ≠ none) :
    Reads fs entries (entries.mapM (ofEntry fs)) := by
  induction entries with
  | nil => exact Reads.all List.Forall₂.nil
  | cons entry rest ih =>
      rcases List.forall_mem_cons.mp hcontent with ⟨hentry, hrest⟩
      rw [List.mapM_cons]
      rcases ofEntry_cases hentry with ⟨page, hpage, hisOf⟩ | ⟨path, cause, hsource, hread, hpage⟩
      · have h := (ih hrest).cons hisOf
        rw [hpage]
        cases hpages : rest.mapM (ofEntry fs) with
        | error e => rwa [hpages] at h
        | ok pages => rwa [hpages] at h
      · have hbefore : ∀ earlier ∈ ([] : List PageEntry), ∃ page, IsOf fs earlier page :=
          List.forall_mem_nil _
        rw [hpage]
        exact Reads.unreadable hbefore hsource hread

theorem Reads.map_url {entries : List PageEntry} {pages : List Page}
    (h : Reads fs entries (.ok pages)) : pages.map Page.url = entries.map PageEntry.url := by
  cases h with
  | all hpages =>
      induction hpages with
      | nil => rfl
      | cons hpage _ ih => rw [List.map_cons, List.map_cons, hpage.url_eq, ih]

end Page

/-!
## Building the pages
-/

namespace BuildPlan

variable {seen : List String} {pages : List Page} {plan : BuildPlan}

theorem urlProblem?_ne_duplicateUrl (hnodup : (pages.map Page.url).Nodup)
    (hseen : (pages.map Page.url).Disjoint seen) (url : String) :
    urlProblem? seen pages ≠ some (.duplicateUrl url) := by
  induction pages generalizing seen with
  | nil => simp [urlProblem?]
  | cons page rest ih =>
      rw [List.map_cons, List.nodup_cons] at hnodup
      rcases List.disjoint_cons_left.mp hseen with ⟨hpage, hrest⟩
      have hlater : (rest.map Page.url).Disjoint (page.url :: seen) :=
        List.disjoint_cons_right.mpr ⟨hnodup.1, hrest⟩
      rw [urlProblem?]
      cases hok : isAcceptable page.url with
      | false => simp
      | true =>
          rw [Bool.not_true, if_neg Bool.false_ne_true, if_neg hpage]
          exact ih hnodup.2 hlater

theorem refusal?_ne_duplicateUrl {outDir : Path} {fs : Files}
    (hnodup : (pages.map Page.url).Nodup) (url : String) :
    plan.refusal? pages outDir fs ≠ some (.duplicateUrl url) := by
  have hproblem : urlProblem? [] pages ≠ some (.duplicateUrl url) :=
    urlProblem?_ne_duplicateUrl hnodup (List.disjoint_nil_right _) url
  unfold refusal?
  cases hurls : urlProblem? [] pages with
  | some problem => rwa [hurls] at hproblem
  | none =>
      cases fs.canonical outDir with
      | error cause => simp
      | ok location => simp

/-- A build finds no url twice if there is none twice. -/
theorem build_ne_duplicateUrl {outDir : Path} {fs changed : Files}
    (hnodup : (pages.map Page.url).Nodup) (url : String) :
    plan.build pages outDir fs ≠ .error (.duplicateUrl url) changed := by
  intro h
  rcases build_eq_error h with ⟨hrefusal, -⟩ | ⟨-, path, cause, hio⟩
  · exact refusal?_ne_duplicateUrl hnodup url hrefusal
  · cases hio

end BuildPlan

namespace Config

/-- Whatever is loaded is valid. The pages of a valid configuration are read, up to the first
source that cannot be, and no build of them finds a url twice. -/
theorem reads_of_validate :
    (∀ env base text config, ofText env base text = .ok config → config.validate = .ok ()) ∧
      (∀ env fs file? outDir? config,
        load env fs file? outDir? = .ok config → config.validate = .ok ()) ∧
      ∀ config : Config, config.validate = .ok () → ∀ fs,
        Page.Reads fs config.pages (Page.ofConfig fs config) ∧
        ∀ pages, Page.ofConfig fs config = .ok pages →
          ∀ (plan : BuildPlan) outDir files url changed,
            plan.build pages outDir files ≠ .error (.duplicateUrl url) changed := by
  refine ⟨fun _ _ _ _ => validate_ofText, fun _ _ _ _ _ => validate_load, ?_⟩
  intro config hvalidate fs
  have hvalid := validate_eq_ok_iff.mp hvalidate
  have hreads : Page.Reads fs config.pages (Page.ofConfig fs config) :=
    Page.reads_mapM fun entry hentry => (hvalid.entries entry hentry).content
  refine ⟨hreads, ?_⟩
  intro pages hpages plan outDir files url changed
  rw [hpages] at hreads
  have hurls : (pages.map Page.url).Nodup := by
    rw [hreads.map_url]
    exact hvalid.urls
  exact BuildPlan.build_ne_duplicateUrl hurls url

theorem reads_of_validate_diary :
    let env : Environment := fun _ => none
    let file := Path.ofText "sx.toml"
    let text := "[[pages]]\nsource = \"y\"\ntitle = \"B\"\nurl = \"b\"\n"
    let fs : Files := ⟨[([.ofText "sx.toml"], .file (Utf8.encode text)),
      ([.ofText "y"], .file (Utf8.encode "<p>"))], .standing []⟩
    let noted : PageEntry := ⟨"A", "a", none, some "x"⟩
    let filed : PageEntry := ⟨"B", "b", some (.ofText "y"), none⟩
    let read : Config := { pages := [filed], outDir := .ofText "site" }
    let loaded : Config :=
      { pages := [filed], outDir := .ofText "site", configPath := some file }
    let config : Config := { pages := [noted, filed] }
    let pages : List Page := [⟨"A", "a", ⟨"<div>x</div>"⟩⟩, ⟨"B", "b", ⟨"<p>"⟩⟩]
    (ofText env .empty text = .ok read ∧ read.validate = .ok ()) ∧
      (load env fs (some file) none = .ok loaded ∧ loaded.validate = .ok ()) ∧
      config.validate = .ok () ∧ Page.Reads fs config.pages (Page.ofConfig fs config) ∧
      Page.ofConfig fs config = .ok pages ∧
        BuildPlan.build {} pages (.ofText "site") fs ≠ .error (.duplicateUrl "a") fs := by
  intro env file text fs noted filed read loaded config pages
  have hread : ofText env .empty text = .ok read := by
    rw [ofText_of_isPage (show (_ : Option _).any (isPage "y" "B" "b") = true by decide +kernel)]
    exact eq_ok_of_toOption (by decide +kernel)
  have hload : load env fs (some file) none = .ok loaded := by
    have htext : fs.readText file = .ok text := eq_ok_of_toOption (by decide +kernel)
    have hbase : directoryOf file = .empty := by decide +kernel
    rw [load, locateAndLoad, if_pos (by decide +kernel), ofFile, htext, hbase]
    show ((ofText env .empty text >>= _) >>= _) = _
    rw [hread]
    exact eq_ok_of_toOption (by decide +kernel)
  have hvalid : config.validate = .ok () := rfl
  have hpages : Page.ofConfig fs config = .ok pages :=
    eq_ok_of_toOption (by decide +kernel)
  rcases reads_of_validate with ⟨hofText, hofLoad, hreads⟩
  exact ⟨⟨hread, hofText _ _ _ _ hread⟩, ⟨hload, hofLoad _ _ _ _ _ hload⟩, hvalid,
    (hreads config hvalid fs).1, hpages, (hreads config hvalid fs).2 pages hpages _ _ _ _ _⟩

end Config

end StaticSite
