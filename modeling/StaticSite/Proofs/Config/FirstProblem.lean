import StaticSite.Proofs.Config.Messages
import StaticSite.Proofs.Config.Validation
import StaticSite.Proofs.Scanning
/-!
# The problem that is reported

If a configuration does not pass then its first problem is reported: an empty stylesheet, or
else what is wrong with the first page that breaks a condition, of the conditions the first
that it breaks. A page whose url is used already is otherwise complete. The message for a
problem is that of no other, so it says all of this too.
-/

namespace StaticSite

theorem PageEntry.content?_eq_none_iff (entry : PageEntry) :
    entry.content? = none ↔ entry.source.isSome = entry.text.isSome := by
  unfold content?
  cases entry.source <;> cases entry.text <;> simp

theorem PageEntry.isComplete_iff {entry : PageEntry} :
    entry.IsComplete ↔
      entry.title ≠ "" ∧ entry.url ≠ "" ∧ entry.source.isSome ≠ entry.text.isSome := by
  have hcontent := not_congr entry.content?_eq_none_iff
  constructor
  · intro h
    exact ⟨h.title_ne, h.url_ne, hcontent.mp h.content⟩
  · rintro ⟨htitle, hurl, hchoice⟩
    exact ⟨htitle, hurl, hcontent.mpr hchoice⟩

namespace Config

variable {config : Config} {problem : ConfigProblem}

/-- Nothing is wrong before an entry: not with the stylesheets, and not with the entries before
it among themselves. -/
structure IsReached (config : Config) (index : Nat) (entry : PageEntry) : Prop where
  stylesheets : "" ∉ config.site.stylesheets
  entry : config.pages[index]? = some entry
  complete : ∀ earlier ∈ config.pages.take index, earlier.IsComplete
  distinct : ((config.pages.take index).map PageEntry.url).Nodup

/-- What is wrong with a configuration first. -/
inductive FirstProblem (config : Config) : ConfigProblem → Prop where
  | stylesheet (h : "" ∈ config.site.stylesheets) : FirstProblem config .emptyStylesheet
  | title {index : Nat} {entry : PageEntry} (hreached : config.IsReached index entry)
      (h : entry.title = "") : FirstProblem config (.emptyTitle index)
  | url {index : Nat} {entry : PageEntry} (hreached : config.IsReached index entry)
      (htitle : entry.title ≠ "") (h : entry.url = "") : FirstProblem config (.emptyUrl index)
  | content {index : Nat} {entry : PageEntry} (hreached : config.IsReached index entry)
      (htitle : entry.title ≠ "") (hurl : entry.url ≠ "")
      (h : entry.source.isSome = entry.text.isSome) :
      FirstProblem config (.contentChoice index)
  | repeated {index : Nat} {entry : PageEntry} (hreached : config.IsReached index entry)
      (hcomplete : entry.IsComplete)
      (h : ∃ earlier ∈ config.pages.take index, earlier.url = entry.url) :
      FirstProblem config (.repeatedUrl index entry.url)

/-!
## Going through the pages
-/

/-- What validation remembers: the number of the next page, and the urls of those before. -/
def remember (state : Nat × List String) (entry : PageEntry) : Nat × List String :=
  (state.1 + 1, entry.url :: state.2)

theorem isScan_pagesProblem? :
    IsScan (fun state => pagesProblem? state.1 state.2) (fun state => pageProblem? state.1 state.2)
      remember where
  nil _ := rfl
  cons state entry rest := by
    rw [pagesProblem?]
    cases pageProblem? state.1 state.2 entry <;> rfl

theorem foldl_remember (before : List PageEntry) (index : Nat) (seen : List String) :
    before.foldl remember (index, seen) =
      (index + before.length, (before.map PageEntry.url).reverse ++ seen) := by
  induction before generalizing index seen with
  | nil => rfl
  | cons entry before ih =>
      rw [List.foldl_cons, remember, ih, List.length_cons, List.map_cons, List.reverse_cons,
        List.append_assoc, List.singleton_append, Nat.add_assoc, Nat.add_comm 1]

/-- The urls of the entries before an entry, the last one first. -/
def urlsBefore (config : Config) (index : Nat) : List String :=
  ((config.pages.take index).map PageEntry.url).reverse

theorem mem_urlsBefore {index : Nat} {url : String} :
    url ∈ config.urlsBefore index ↔ ∃ earlier ∈ config.pages.take index, earlier.url = url := by
  rw [urlsBefore, List.mem_reverse, List.mem_map]

theorem pagesProblem?_eq_some_iff (hstylesheets : "" ∉ config.site.stylesheets) :
    pagesProblem? 0 [] config.pages = some problem ↔
      ∃ index entry, config.IsReached index entry ∧
        pageProblem? index (config.urlsBefore index) entry = some problem := by
  rw [isScan_pagesProblem?.eq_some_iff (0, [])]
  constructor
  · rintro ⟨before, entry, after, hpages, hbefore, hentry⟩
    have htake : config.pages.take before.length = before := by rw [hpages, List.take_left]
    rcases pagesProblem?_eq_none_iff.mp hbefore with ⟨hcomplete, -, hdistinct⟩
    refine ⟨before.length, entry, ⟨hstylesheets, ?_, ?_, ?_⟩, ?_⟩
    · simp [hpages]
    · rwa [htake]
    · rwa [htake]
    · simpa [foldl_remember, urlsBefore, htake] using hentry
  · rintro ⟨index, entry, hreached, hentry⟩
    rcases List.getElem?_eq_some_iff.mp hreached.entry with ⟨hlt, hget⟩
    refine ⟨config.pages.take index, entry, config.pages.drop (index + 1), ?_, ?_, ?_⟩
    · rw [← hget, ← List.drop_eq_getElem_cons hlt, List.take_append_drop]
    · exact pagesProblem?_eq_none_iff.mpr
        ⟨hreached.complete, List.disjoint_nil_right _, hreached.distinct⟩
    · simpa [foldl_remember, urlsBefore, Nat.min_eq_left (Nat.le_of_lt hlt)] using hentry

/-!
## The first problem
-/

theorem IsReached.firstProblem {index : Nat} {entry : PageEntry}
    (hreached : config.IsReached index entry)
    (h : pageProblem? index (config.urlsBefore index) entry = some problem) :
    FirstProblem config problem := by
  unfold pageProblem? at h
  split_ifs at h with htitle hurl hcontent hseen
  · cases h
    exact .title hreached htitle
  · cases h
    exact .url hreached htitle hurl
  · cases h
    rw [Option.isNone_iff_eq_none, PageEntry.content?_eq_none_iff] at hcontent
    exact .content hreached htitle hurl hcontent
  · cases h
    have hcomplete : entry.IsComplete :=
      ⟨htitle, hurl, by rwa [Option.isNone_iff_eq_none] at hcontent⟩
    exact .repeated hreached hcomplete (mem_urlsBefore.mp hseen)

theorem FirstProblem.exists_isReached (h : FirstProblem config problem)
    (hstylesheets : "" ∉ config.site.stylesheets) :
    ∃ index entry, config.IsReached index entry ∧
      pageProblem? index (config.urlsBefore index) entry = some problem := by
  cases h with
  | stylesheet h => exact absurd h hstylesheets
  | @title index entry hreached h =>
      refine ⟨index, entry, hreached, ?_⟩
      rw [pageProblem?, if_pos h]
  | @url index entry hreached htitle h =>
      refine ⟨index, entry, hreached, ?_⟩
      rw [pageProblem?, if_neg htitle, if_pos h]
  | @content index entry hreached htitle hurl h =>
      refine ⟨index, entry, hreached, ?_⟩
      have hnone : entry.content?.isNone := by
        rw [Option.isNone_iff_eq_none, PageEntry.content?_eq_none_iff]
        exact h
      rw [pageProblem?, if_neg htitle, if_neg hurl, if_pos hnone]
  | @repeated index entry hreached hcomplete h =>
      refine ⟨index, entry, hreached, ?_⟩
      have hsome : ¬ entry.content?.isNone := by
        rw [Option.isNone_iff_eq_none]
        exact hcomplete.content
      rw [pageProblem?, if_neg hcomplete.title_ne, if_neg hcomplete.url_ne, if_neg hsome,
        if_pos (mem_urlsBefore.mpr h)]

theorem problem?_eq_some_iff : config.problem? = some problem ↔ FirstProblem config problem := by
  unfold problem?
  split
  · rename_i hstylesheets
    constructor
    · intro h
      cases h
      exact .stylesheet hstylesheets
    · intro h
      cases h with
      | stylesheet => rfl
      | title hreached => exact absurd hstylesheets hreached.stylesheets
      | url hreached => exact absurd hstylesheets hreached.stylesheets
      | content hreached => exact absurd hstylesheets hreached.stylesheets
      | repeated hreached => exact absurd hstylesheets hreached.stylesheets
  · rename_i hstylesheets
    rw [pagesProblem?_eq_some_iff hstylesheets]
    constructor
    · rintro ⟨index, entry, hreached, h⟩
      exact hreached.firstProblem h
    · intro h
      exact h.exists_isReached hstylesheets

-- A url that is used twice is reported before an empty title further on.
example :
    problem?
      { pages := [⟨"A", "a.html", none, some "x"⟩, ⟨"B", "a.html", none, some "y"⟩,
          ⟨"", "c.html", none, none⟩] } =
      some (.repeatedUrl 1 "a.html") := by
  decide

/-!
## What is reported
-/

theorem validate_eq_error_iff {error : ConfigError} :
    config.validate = .error error ↔
      ∃ problem, error = .invalid problem ∧ FirstProblem config problem := by
  simp only [← problem?_eq_some_iff]
  unfold validate
  cases config.problem? with
  | none => simp
  | some found => simp [eq_comm]

theorem exists_message_iff :
    (∃ error, config.validate = .error error ∧
      error.message = "Configuration error: " ++ problem.message) ↔
      FirstProblem config problem := by
  constructor
  · rintro ⟨error, herror, hmessage⟩
    rcases validate_eq_error_iff.mp herror with ⟨found, rfl, hfound⟩
    have hsame : found.message = problem.message := (String.append_right_inj _).mp hmessage
    cases ConfigProblem.message_injective hsame
    exact hfound
  · intro h
    exact ⟨.invalid problem, validate_eq_error_iff.mpr ⟨problem, rfl, h⟩, rfl⟩

/-- A configuration passes if and only if everything in it is given and no url is used twice,
and otherwise the error that is returned, and what its message says, is the first problem. -/
theorem validate_exact (config : Config) :
    (config.validate = .ok () ↔
        "" ∉ config.site.stylesheets ∧
          (∀ entry ∈ config.pages, entry.title ≠ "" ∧ entry.url ≠ "" ∧
            entry.source.isSome ≠ entry.text.isSome) ∧
          (config.pages.map PageEntry.url).Nodup) ∧
      (∀ error, config.validate = .error error ↔
        ∃ problem, error = .invalid problem ∧ FirstProblem config problem) ∧
      ∀ problem : ConfigProblem,
        (∃ error, config.validate = .error error ∧
          error.message = "Configuration error: " ++ problem.message) ↔
        FirstProblem config problem := by
  have hvalid : config.IsValid ↔ "" ∉ config.site.stylesheets ∧
      (∀ entry ∈ config.pages, entry.IsComplete) ∧ (config.pages.map PageEntry.url).Nodup :=
    ⟨fun h => ⟨h.stylesheets, h.entries, h.urls⟩, fun h => ⟨h.1, h.2.1, h.2.2⟩⟩
  refine ⟨?_, fun error => validate_eq_error_iff, fun problem => ?_⟩
  · simp only [validate_eq_ok_iff, ← PageEntry.isComplete_iff]
    exact hvalid
  · exact exists_message_iff

end Config

end StaticSite
