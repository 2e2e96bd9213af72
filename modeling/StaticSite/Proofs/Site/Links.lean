import StaticSite.Proofs.Markup.Reading
import StaticSite.Proofs.Site.Documents
import StaticSite.Proofs.Site.Writing
/-!
# Links of the navigation

The navigation of a document links the other pages by their urls as they are given, which are
paths from the output directory. A link is followed from the directory of the document that
it stands in. So it leads to the page that it names from the documents directly in the output
directory, and from no others.
-/

namespace StaticSite

namespace Markup

theorem escapeAttribute_injective {text other : String}
    (h : escapeAttribute text = escapeAttribute other) : text = other := by
  have hchars := congrArg (fun escaped : String => Tree.unescape escaped.toList) h
  simp only [toList_escapeAttribute] at hchars
  rw [Tree.unescape_flatMap Tree.unescape_attributeReference,
    Tree.unescape_flatMap Tree.unescape_attributeReference] at hchars
  exact String.toList_inj.mp hchars

end Markup

/-!
## What a link is written as
-/

/-- Whether the navigation of the document at `current` links a page by a reference. -/
def Layout.LinksBy (current : String) (page : Page) (href : String) : Prop :=
  (navigationEntry current page).html =
    "<li>" ++ ("<a href=\"" ++ Markup.escapeAttribute href ++ "\">" ++
      Markup.escapeText page.title ++ "</a>") ++ "</li>"

theorem Layout.linksBy_iff {current href : String} {page : Page} (hne : page.url ≠ current) :
    LinksBy current page href ↔ href = page.url := by
  rw [LinksBy, html_navigationEntry, entryText, if_neg hne]
  constructor
  · intro h
    have hescaped : Markup.escapeAttribute page.url = Markup.escapeAttribute href := by
      simpa only [String.append_left_inj, String.append_right_inj] using h
    exact (Markup.escapeAttribute_injective hescaped).symm
  · rintro rfl
    rfl

/-!
## Where a link leads
-/

namespace Path

theorem empty_join {q : Path} (hq : q.isAbsolute = false) : empty.join q = q := by
  rw [join, hq]
  rfl

theorem steps_join_of_not_isAbsolute (p : Path) {q : Path} (hq : q.isAbsolute = false) :
    (p.join q).steps = p.steps ++ q.steps := by
  cases hp : p.isEmpty with
  | false => exact steps_join hp hq
  | true =>
      obtain rfl := eq_empty_of_isEmpty hp
      rw [empty_join hq]
      rfl

end Path

namespace BuildPlan

variable {pages : List Page} {page other : Page}

/-- The path from the output directory to where a reference leads in the document of a url:
the reference is seen from the directory of that document. -/
def linkPath (url href : String) : Path :=
  ((Path.ofText url).parent?.getD .empty).join (.ofText href)

theorem steps_linkPath {url href : String} (hurl : IsNames url) (hhref : IsNames href) :
    (linkPath url href).isAbsolute = false ∧
      (linkPath url href).steps = (urlNames url).dropLast ++ urlNames href := by
  cases habove : (Path.ofText url).parent? with
  | none => exact absurd (Path.steps_of_parent?_eq_none habove) hurl.ne_nil
  | some above =>
      rcases Path.steps_parent? habove with ⟨habs, hsteps⟩
      rw [linkPath, habove, Option.getD_some]
      constructor
      · cases hempty : above.isEmpty with
        | false => rw [Path.isAbsolute_join hempty hhref.relative, habs, hurl.relative]
        | true =>
            obtain rfl := Path.eq_empty_of_isEmpty hempty
            rw [Path.empty_join hhref.relative, hhref.relative]
      · rw [Path.steps_join_of_not_isAbsolute above hhref.relative, hsteps]
        rfl

theorem steps_join_linkPath (outDir : Path) {url href : String} (hurl : IsNames url)
    (hhref : IsNames href) :
    (outDir.join (linkPath url href)).steps =
      outDir.steps ++ ((urlNames url).dropLast ++ urlNames href) := by
  rcases steps_linkPath hurl hhref with ⟨habs, hsteps⟩
  rw [Path.steps_join_of_not_isAbsolute outDir habs, hsteps]

/-- The links of the navigation of a document are followed to the files of the pages that they
name if and only if the document is written directly to the output directory. -/
theorem link_leads_iff (haccepted : urlProblem? [] pages = none) (hpage : page ∈ pages)
    (hother : other ∈ pages) (hne : other.url ≠ page.url) (outDir : Path) :
    (∃ href, Layout.LinksBy page.url other href) ∧
      ∀ href, Layout.LinksBy page.url other href →
        ((outDir.join (linkPath page.url href)).steps = (outDir.join (.ofText other.url)).steps ↔
          (urlNames page.url).length = 1) := by
  rcases urlProblem?_eq_none_iff.mp haccepted with ⟨hall, -⟩
  have hurl := isNames_of_isAcceptable (hall page hpage).1
  have hhref := isNames_of_isAcceptable (hall other hother).1
  refine ⟨⟨other.url, (Layout.linksBy_iff hne).mpr rfl⟩, ?_⟩
  intro href hlink
  obtain rfl := (Layout.linksBy_iff hne).mp hlink
  rw [steps_join_linkPath outDir hurl hhref,
    Path.steps_join_of_not_isAbsolute outDir hhref.relative]
  show _ = outDir.steps ++ urlNames other.url ↔ _
  rw [List.append_right_inj, List.append_left_eq_self]
  constructor
  · intro hnil
    have hlength := congrArg List.length hnil
    have hpos := List.length_pos_iff.mpr hurl.ne_nil
    rw [List.length_dropLast, List.length_nil] at hlength
    omega
  · intro hone
    rcases List.length_eq_one_iff.mp hone with ⟨name, hname⟩
    rw [hname]
    rfl

theorem link_leads_iff_nested :
    let page : Page := ⟨"A", "./a.html", ⟨"x"⟩⟩
    let other : Page := ⟨"B", "nested/b.html", ⟨"y"⟩⟩
    (urlProblem? [] [page, other] = none ∧ page ∈ [page, other] ∧ other ∈ [page, other] ∧
        other.url ≠ page.url) ∧
      (∃ href, Layout.LinksBy page.url other href) ∧
        ∀ href, Layout.LinksBy page.url other href →
          (((Path.ofText "out").join (linkPath page.url href)).steps =
              ((Path.ofText "out").join (.ofText other.url)).steps ↔
            (urlNames page.url).length = 1) := by
  intro page other
  have haccepted : urlProblem? [] [page, other] = none := by decide
  have hpage : page ∈ [page, other] := List.mem_cons_self ..
  have hother : other ∈ [page, other] := List.mem_cons_of_mem _ (List.mem_cons_self ..)
  have hne : other.url ≠ page.url := by decide
  exact ⟨⟨haccepted, hpage, hother, hne⟩, link_leads_iff haccepted hpage hother hne _⟩

/-- A document in a directory of its own links another page as if that stood beside it. -/
theorem not_forall_link_leads :
    ¬ ∀ pages : List Page, urlProblem? [] pages = none →
      (pages.map fun page => urlNames page.url).Nodup →
      ∀ page ∈ pages, ∀ other ∈ pages, other.url ≠ page.url →
      ∀ href, Layout.LinksBy page.url other href →
        (linkPath page.url href).steps = (Path.ofText other.url).steps := by
  intro hall
  have hleads := hall [⟨"A", "a.html", ⟨"x"⟩⟩, ⟨"B", "nested/b.html", ⟨"y"⟩⟩]
    (by decide) (by decide) ⟨"B", "nested/b.html", ⟨"y"⟩⟩ (by simp) ⟨"A", "a.html", ⟨"x"⟩⟩ (by simp)
    (by decide) "a.html" ((Layout.linksBy_iff (by decide)).mpr rfl)
  revert hleads
  decide

end BuildPlan

end StaticSite
