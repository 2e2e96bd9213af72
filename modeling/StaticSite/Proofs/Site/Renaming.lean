import StaticSite.Proofs.Site.Snapshots
import StaticSite.Proofs.Site.Titles
import StaticSite.Proofs.Site.Vacant
/-!
# Renamed pages

If a site is built twice, and one page has another title the second time, then a comparison
of the two directories finds that every document differs. If the title is the same, it
finds nothing.
-/

namespace StaticSite.BuildPlan

open Files

variable {fs changed first second : Files} {outDir : Path} {top top' : Location}
  {docs : List Document} {pages : List Page} {k : Nat} {title : String}

/-!
## Another title
-/

def renamed (pages : List Page) (k : Nat) (title : String) : List Page :=
  pages.modify k fun page => { page with title }

theorem exists_split (hk : k < pages.length) (title : String) :
    ∃ before after, pages = before ++ pages[k] :: after ∧
      renamed pages k title = before ++ { pages[k] with title } :: after := by
  refine ⟨pages.take k, pages.drop (k + 1), ?_, List.modify_eq_take_cons_drop hk⟩
  rw [List.getElem_cons_drop, List.take_append_drop]

theorem length_renamed (pages : List Page) (k : Nat) (title : String) :
    (renamed pages k title).length = pages.length :=
  List.length_modify ..

theorem eq_of_mem_zip_self {a b : Page} (h : (a, b) ∈ pages.zip pages) : b = a := by
  induction pages with
  | nil => cases h
  | cons page rest ih =>
      rw [List.zip_cons_cons, List.mem_cons] at h
      rcases h with heq | h
      · cases heq
        rfl
      · exact ih h

theorem mem_zip_renamed {a b : Page} (hk : k < pages.length)
    (h : (a, b) ∈ pages.zip (renamed pages k title)) :
    b = a ∨ (a = pages[k] ∧ b = { pages[k] with title }) := by
  rcases exists_split hk title with ⟨before, after, hsplit, hrenamed⟩
  rw [hrenamed] at h
  generalize pages[k] = page at hsplit h ⊢
  subst hsplit
  rw [List.zip_append rfl, List.zip_cons_cons, List.mem_append, List.mem_cons] at h
  rcases h with h | heq | h
  · exact Or.inl (eq_of_mem_zip_self h)
  · cases heq
    exact Or.inr ⟨rfl, rfl⟩
  · exact Or.inl (eq_of_mem_zip_self h)

theorem renamed_self (hk : k < pages.length) : renamed pages k pages[k].title = pages := by
  rcases exists_split hk pages[k].title with ⟨before, after, hsplit, hrenamed⟩
  exact hrenamed.trans hsplit.symm

theorem map_url_renamed (hk : k < pages.length) (title : String) :
    (renamed pages k title).map Page.url = pages.map Page.url := by
  rcases exists_split hk title with ⟨before, after, hsplit, hrenamed⟩
  rw [hrenamed, congrArg (List.map Page.url) hsplit, List.map_append, List.map_append]
  rfl

theorem document_ne_of_mem_zip {a b : Page} (hk : k < pages.length)
    (htitle : title ≠ pages[k].title) (h : (a, b) ∈ pages.zip (renamed pages k title))
    (settings : LayoutSettings) :
    Layout.document pages settings a ≠ Layout.document (renamed pages k title) settings b := by
  have hpair := mem_zip_renamed hk h
  rcases exists_split hk title with ⟨before, after, hsplit, hrenamed⟩
  rw [hrenamed]
  generalize pages[k] = page at hsplit htitle hpair ⊢
  subst hsplit
  intro hsame
  have hchars := congrArg (fun html : Markup => html.html.toList) hsame
  rcases hpair with rfl | ⟨rfl, rfl⟩
  · exact htitle
      ((Layout.document_shows_once before after page b settings).injective Nat.one_pos hchars).symm
  · exact htitle
      ((Layout.document_shows_twice before after a settings).injective Nat.two_pos hchars).symm

/-!
## Two builds
-/

theorem sameUrls_renamed (hk : k < pages.length) (settings : LayoutSettings) :
    SameUrls (Layout.documents pages settings)
      (Layout.documents (renamed pages k title) settings) := by
  rw [SameUrls, Layout.documents, Layout.documents, List.forall₂_map_left_iff,
    List.forall₂_map_right_iff, List.forall₂_iff_zip]
  refine ⟨(length_renamed pages k title).symm, ?_⟩
  intro a b h
  rcases mem_zip_renamed hk h with rfl | ⟨rfl, rfl⟩
  · rfl
  · rfl

theorem apart_renamed (hk : k < pages.length)
    (h : pages.Pairwise fun a b => Apart (urlNames a.url) (urlNames b.url)) :
    (renamed pages k title).Pairwise fun a b => Apart (urlNames a.url) (urlNames b.url) := by
  have hurls : ((renamed pages k title).map Page.url).Pairwise
      fun a b => Apart (urlNames a) (urlNames b) := by
    rw [map_url_renamed hk, List.pairwise_map]
    exact h
  rw [List.pairwise_map] at hurls
  exact hurls

theorem HoldsDocuments.of_keepsDirectory (h : HoldsDocuments fs outDir docs)
    (hwf : changed.WellFormed) (hlocate : fs.locate .target outDir = .ok (.entry top .directory))
    (hkeeps : KeepsDirectory fs changed outDir top) : HoldsDocuments changed outDir docs := by
  refine ⟨hwf, ⟨top, hkeeps.locate, ?_⟩, h.isNames, h.fits, h.apart⟩
  intro names hne
  rcases h.stands with ⟨top', hlocate', htree⟩
  rw [hlocate] at hlocate'
  cases hlocate'
  rw [hkeeps.find?, htree names hne]

/-- The differences between the documents of pages and those of other pages, if all of them
differ. -/
def pageDifferences (settings : LayoutSettings) (pages pages' : List Page) : List Difference :=
  (pages.zip pages').map fun pair => .mismatch (.ofSegments (urlNames pair.1.url))
    (Layout.document pages settings pair.1).html (Layout.document pages' settings pair.2).html

theorem versions_renamed (hk : k < pages.length) (htitle : title ≠ pages[k].title)
    (settings : LayoutSettings) :
    ((Layout.documents pages settings).zip
        (Layout.documents (renamed pages k title) settings)).filterMap versionDifference? =
      pageDifferences settings pages (renamed pages k title) := by
  rw [Layout.documents, Layout.documents, List.zip_map, List.filterMap_map, pageDifferences,
    ← List.filterMap_eq_map]
  apply List.filterMap_congr
  intro pair hpair
  exact if_neg (document_ne_of_mem_zip hk htitle hpair settings)

theorem versions_self (docs : List Document) :
    (docs.zip docs).filterMap versionDifference? = [] := by
  induction docs with
  | nil => rfl
  | cons d rest ih =>
      have hnone : versionDifference? (d, d) = none := if_pos rfl
      rw [List.zip_cons_cons, List.filterMap_cons, hnone, ih]

/-- Two builds of a site at vacant paths apart from each other, with another title for one
page in the second, differ in the document of every page, and not at all if the title is
the same. -/
theorem compareDirectories_renamed {plan : BuildPlan} {oldDir newDir : Path}
    {result result' : BuildResult} (hk : k < pages.length) (title : String)
    (hapart : pages.Pairwise fun a b => Apart (urlNames a.url) (urlNames b.url))
    (hwf : fs.WellFormed) (hvacant : fs.IsVacant oldDir)
    (hbuild : plan.build pages oldDir fs = .ok result first)
    (hvacant' : first.IsVacant newDir)
    (hbuild' : plan.build (renamed pages k title) newDir first = .ok result' second)
    (hlocate : first.locate .target oldDir = .ok (.entry top .directory))
    (hlocate' : second.locate .target newDir = .ok (.entry top' .directory))
    (hnot : ¬ top <+: top') (hnot' : ¬ top' <+: top) :
    ∃ found, compareDirectories second oldDir newDir = .ok found ∧
      (title = pages[k].title → found = []) ∧
      (title ≠ pages[k].title → found.length = pages.length ∧
        (found.Pairwise fun d e => d.path.names < e.path.names) ∧
        found.Perm (pageDifferences plan.settings pages (renamed pages k title))) := by
  have hfresh := isFresh_of_grounded hwf hvacant.isEmpty hvacant.grounded
  have hfirst := holdsDocuments_of_build hwf hfresh hapart hbuild
  have hfresh' := isFresh_of_grounded hfirst.wellFormed hvacant'.isEmpty hvacant'.grounded
  have hsecond := holdsDocuments_of_build hfirst.wellFormed hfresh' (apart_renamed hk hapart)
    hbuild'
  have hkeeps := build_keepsDirectory hfirst.wellFormed hvacant' hbuild' hlocate' hlocate
    hnot' hnot
  have hold := hfirst.of_keepsDirectory hsecond.wellFormed hlocate hkeeps
  rcases compareDirectories_versions hold hsecond (sameUrls_renamed hk plan.settings) with
    ⟨found, hfound, hperm, hordered⟩
  refine ⟨found, hfound, ?_, ?_⟩
  · intro htitle
    rw [htitle, renamed_self hk, versions_self] at hperm
    exact hperm.eq_nil
  · intro htitle
    rw [versions_renamed hk htitle] at hperm
    refine ⟨?_, hordered, hperm⟩
    rw [hperm.length_eq, pageDifferences, List.length_map, List.length_zip, length_renamed,
      Nat.min_self]

theorem compareDirectories_renamed_blog :
    let plan : BuildPlan := {}
    let pages : List Page := [⟨"A", "a", ⟨"x"⟩⟩, ⟨"B", "b/c", ⟨"y"⟩⟩]
    let first := (plan.build pages (.ofText "old")).after {}
    let second := (plan.build (renamed pages 1 "C") (.ofText "new")).after first
    ((pages.Pairwise fun a b => Apart (urlNames a.url) (urlNames b.url)) ∧
        ({} : Files).WellFormed ∧ ({} : Files).IsVacant (.ofText "old") ∧
        first.IsVacant (.ofText "new") ∧
        first.locate .target (.ofText "old") = .ok (.entry [.ofText "old"] .directory) ∧
        second.locate .target (.ofText "new") = .ok (.entry [.ofText "new"] .directory)) ∧
      ∃ found, compareDirectories second (.ofText "old") (.ofText "new") = .ok found ∧
        found.length = 2 ∧ (found.Pairwise fun d e => d.path.names < e.path.names) ∧
        found.Perm (pageDifferences plan.settings pages (renamed pages 1 "C")) := by
  intro plan pages first second
  have hapart : pages.Pairwise fun a b => Apart (urlNames a.url) (urlNames b.url) := by
    unfold Apart
    decide +kernel
  have hwf : ({} : Files).WellFormed := by decide
  have hvacant : ({} : Files).IsVacant (.ofText "old") :=
    ⟨rfl, grounded_of_not_mem (by decide), Or.inl (by decide)⟩
  have hvacant' : first.IsVacant (.ofText "new") :=
    ⟨rfl, grounded_of_not_mem (by decide), Or.inl (by decide +kernel)⟩
  have hlocate : first.locate .target (.ofText "old") =
      .ok (.entry [.ofText "old"] .directory) := eq_ok_of_toOption (by decide +kernel)
  have hlocate' : second.locate .target (.ofText "new") =
      .ok (.entry [.ofText "new"] .directory) := eq_ok_of_toOption (by decide +kernel)
  have hfirst : ∃ result, plan.build pages (.ofText "old") {} = .ok result first :=
    FileAction.exists_of_matches (by decide +kernel)
  have hsecond : ∃ result,
      plan.build (renamed pages 1 "C") (.ofText "new") first = .ok result second :=
    FileAction.exists_of_matches (by decide +kernel)
  rcases hfirst with ⟨result, hbuild⟩
  rcases hsecond with ⟨result', hbuild'⟩
  rcases compareDirectories_renamed (by decide) "C" hapart hwf hvacant hbuild hvacant' hbuild'
    hlocate hlocate' (by decide) (by decide) with ⟨found, hfound, -, hdiffers⟩
  exact ⟨⟨hapart, hwf, hvacant, hvacant', hlocate, hlocate'⟩, found, hfound,
    hdiffers (by decide)⟩

end StaticSite.BuildPlan
