import StaticSite.Proofs.Markup.Children
import StaticSite.Proofs.Markup.Rendering
import StaticSite.Site.Layout
/-!
# The text of a document

A document is one text: fixed markup around the title of the page, the stylesheets, an entry
for every page, the content of the page and the footer. Texts are escaped once for the place
that they stand in, and the content is written as it is. Of the other pages a document shows
the titles and the urls only.
-/

namespace StaticSite.Layout

open Value (renderAllInto)

variable (pages : List Page) (settings : LayoutSettings) (page : Page)

/-!
## What is written
-/

def langText : Option String → String
  | none => ""
  | some lang => " lang=\"" ++ Markup.escapeAttribute lang ++ "\""

def stylesheetText (href : String) : String :=
  "<link rel=\"stylesheet\" href=\"" ++ Markup.escapeAttribute href ++ "\"/>"

def entryText (current title url : String) : String :=
  "<li>" ++
    (if url = current then Markup.escapeText title
      else "<a href=\"" ++ Markup.escapeAttribute url ++ "\">" ++
        Markup.escapeText title ++ "</a>") ++
    "</li>"

def footerText : Option String → String
  | none => ""
  | some text => "<footer>" ++ Markup.escapeText text ++ "</footer>"

def documentText : String :=
  "<!DOCTYPE html>" ++ "<html" ++ langText settings.lang ++ ">" ++
    "<head>" ++ "<meta charset=\"utf-8\"/>" ++
    "<meta name=\"viewport\" content=\"width=device-width, initial-scale=1\"/>" ++
    "<title>" ++ Markup.escapeText page.title ++ "</title>" ++
    String.join (settings.stylesheets.map stylesheetText) ++ "</head>" ++
    "<body>" ++ "<nav><ul>" ++
    String.join (pages.map fun other => entryText page.url other.title other.url) ++
    "</ul></nav>" ++ "<main>" ++ page.content.html ++ "</main>" ++
    footerText settings.footer ++ "</body>" ++ "</html>"

/-!
## Elements
-/

def attributeText : String × Value → String
  | (name, value) => " " ++ name ++ "=\"" ++ Markup.escapeAttribute value.displayText ++ "\""

theorem writeAttributes_eq (out : String) (attributes : List (String × Value)) :
    Node.writeAttributes out attributes = out ++ String.join (attributes.map attributeText) := by
  induction attributes generalizing out with
  | nil => exact (String.append_empty).symm
  | cons pair rest ih =>
      rw [List.map_cons, String.join_cons, ← String.append_assoc, ← ih]
      simp only [Node.writeAttributes, List.foldl_cons, attributeText, String.append_assoc]

theorem html_element {tag : String} (htag : Node.isVoidElement tag = false) (p : Props)
    (children : List Value) :
    (Node.render (.tag tag) p children).html =
      "<" ++ tag ++ String.join (p.attributes.map attributeText) ++ ">" ++
        renderAllInto "" children ++ ("</" ++ tag ++ ">") := by
  simp only [Node.render, htag, Bool.false_eq_true, if_false]
  rw [Value.renderAllInto_eq_append, writeAttributes_eq]
  simp only [String.append_assoc]

theorem html_wrap {tag : String} (htag : Node.isVoidElement tag = false) (children : List Value) :
    (Node.wrap tag children).html =
      "<" ++ tag ++ ">" ++ renderAllInto "" children ++ ("</" ++ tag ++ ">") := by
  rw [Node.wrap, html_element htag]
  show "<" ++ tag ++ "" ++ ">" ++ _ ++ _ = _
  rw [String.append_empty]

theorem html_emptyElement {tag : String} (htag : Node.isVoidElement tag = true)
    {attributes : List (String × String)} (hnodup : (attributes.map Prod.fst).Nodup)
    (hchildren : Props.childrenName ∉ attributes.map Prod.fst) :
    (emptyElement tag attributes).render.html =
      "<" ++ tag ++ String.join (attributes.map fun (name, content) =>
        attributeText (name, .text content)) ++ "/>" := by
  have hnames : (attributes.map fun (name, content) => (name, Value.text content)).map Prod.fst =
      attributes.map Prod.fst := by
    rw [List.map_map]
    rfl
  rw [← hnames] at hnodup hchildren
  simp only [emptyElement, Value.render, Node.render, htag, if_true]
  rw [writeAttributes_eq, Props.attributes_ofList _ hnodup hchildren, List.map_map]
  rfl

theorem render_text (content : String) :
    (Value.text content).render.html = Markup.escapeText content :=
  rfl

theorem renderAllInto_singleton (v : Value) : renderAllInto "" [v] = v.render.html := by
  rw [Value.renderAllInto_cons, renderAllInto, String.append_empty]

theorem renderAllInto_map {α : Type} (f : α → Value) (items : List α) :
    renderAllInto "" (items.map f) = String.join (items.map fun item => (f item).render.html) := by
  induction items with
  | nil => rfl
  | cons item rest ih =>
      rw [List.map_cons, Value.renderAllInto_cons, ih, List.map_cons, String.join_cons]

/-!
## Parts of a document
-/

theorem html_navigationEntry (current : String) :
    (navigationEntry current page).html = entryText current page.title page.url := by
  unfold navigationEntry entryText
  rw [html_wrap rfl, renderAllInto_singleton]
  by_cases h : page.url = current
  · rw [if_pos h, if_pos h, render_text]
    rfl
  · have hattributes := Props.attributes_ofList [("href", .text page.url)]
      (by simp) (by simp [Props.childrenName])
    rw [if_neg h, if_neg h, Value.render, html_element rfl, hattributes, renderAllInto_singleton,
      render_text, List.map_singleton, attributeText, Value.displayText]
    apply String.toList_inj.mp
    simp

theorem html_navigation (current : String) :
    (navigation pages current).html =
      "<nav><ul>" ++
        String.join (pages.map fun other => entryText current other.title other.url) ++
        "</ul></nav>" := by
  have hentries : renderAllInto ""
      (pages.map fun other => .markup (navigationEntry current other)) =
        String.join (pages.map fun other => entryText current other.title other.url) := by
    rw [renderAllInto_map]
    simp only [Value.render, html_navigationEntry]
  unfold navigation
  rw [html_wrap rfl, renderAllInto_singleton, Value.render, html_wrap rfl,
    renderAllInto_singleton, Value.render, hentries]
  apply String.toList_inj.mp
  simp

theorem isVoidElement_meta : Node.isVoidElement "meta" = true := by
  simp [Node.isVoidElement, Node.voidElements]

theorem isVoidElement_link : Node.isVoidElement "link" = true := by
  simp [Node.isVoidElement, Node.voidElements]

theorem escapeAttribute_stylesheet : Markup.escapeAttribute "stylesheet" = "stylesheet" := by
  apply String.toList_inj.mp
  simp [Markup.attributeReference, Markup.textReference]

theorem html_stylesheetLink (href : String) :
    (emptyElement "link" [("rel", "stylesheet"), ("href", href)]).render.html =
      stylesheetText href := by
  rw [html_emptyElement isVoidElement_link (by simp) (by simp [Props.childrenName])]
  unfold stylesheetText
  simp only [List.map_cons, List.map_nil, attributeText, Value.displayText,
    escapeAttribute_stylesheet]
  apply String.toList_inj.mp
  simp

theorem html_charset :
    (emptyElement "meta" [("charset", "utf-8")]).render.html = "<meta charset=\"utf-8\"/>" := by
  rw [html_emptyElement isVoidElement_meta (by simp) (by simp [Props.childrenName])]
  apply String.toList_inj.mp
  simp [attributeText, Value.displayText, Markup.attributeReference, Markup.textReference]

theorem html_viewport :
    (emptyElement "meta"
        [("name", "viewport"), ("content", "width=device-width, initial-scale=1")]).render.html =
      "<meta name=\"viewport\" content=\"width=device-width, initial-scale=1\"/>" := by
  rw [html_emptyElement isVoidElement_meta (by simp) (by simp [Props.childrenName])]
  apply String.toList_inj.mp
  simp [attributeText, Value.displayText, Markup.attributeReference, Markup.textReference]

theorem html_head (title : String) (stylesheets : List String) :
    (head title stylesheets).html =
      "<head>" ++ "<meta charset=\"utf-8\"/>" ++
        "<meta name=\"viewport\" content=\"width=device-width, initial-scale=1\"/>" ++
        "<title>" ++ Markup.escapeText title ++ "</title>" ++
        String.join (stylesheets.map stylesheetText) ++ "</head>" := by
  have htitle : (Value.markup (Node.wrap "title" [.text title])).render.html =
      "<title>" ++ Markup.escapeText title ++ "</title>" := by
    rw [Value.render, html_wrap rfl, renderAllInto_singleton, render_text]
    rfl
  have hlinks : (Value.list (stylesheetLinks stylesheets)).render.html =
      String.join (stylesheets.map stylesheetText) := by
    rw [Value.render, stylesheetLinks, renderAllInto_map]
    simp only [html_stylesheetLink]
  unfold head
  rw [html_wrap rfl, Value.renderAllInto_cons, Value.renderAllInto_cons,
    Value.renderAllInto_cons, renderAllInto_singleton, html_charset, html_viewport, htitle, hlinks]
  show "<head>" ++ _ ++ "</head>" = _
  simp only [String.append_assoc]

theorem html_footer (text? : Option String) :
    (Value.ofOption (text?.map fun text => .markup (footer text))).render.html =
      footerText text? := by
  cases text? with
  | none => rfl
  | some text =>
      show (footer text).html = footerText (some text)
      rw [footer, html_wrap rfl, renderAllInto_singleton, render_text]
      rfl

theorem html_body :
    (body pages settings page).html =
      "<body>" ++ (navigation pages page.url).html ++ "<main>" ++ page.content.html ++
        "</main>" ++ footerText settings.footer ++ "</body>" := by
  have hmain : (Value.markup (Node.wrap "main" [.markup page.content])).render.html =
      "<main>" ++ page.content.html ++ "</main>" := by
    rw [Value.render, html_wrap rfl, renderAllInto_singleton, Value.render]
    rfl
  unfold body
  rw [html_wrap rfl, Value.renderAllInto_cons, Value.renderAllInto_cons,
    renderAllInto_singleton, hmain, html_footer, Value.render]
  show "<body>" ++ _ ++ "</body>" = _
  simp only [String.append_assoc]

theorem attributes_rootProps :
    String.join ((rootProps settings).attributes.map attributeText) = langText settings.lang := by
  unfold rootProps
  cases settings.lang with
  | none => rfl
  | some lang =>
      have hattributes := Props.attributes_ofList [("lang", .text lang)] (by simp)
        (by simp [Props.childrenName])
      rw [Option.toList_some, List.map_singleton, hattributes, List.map_singleton, attributeText,
        Value.displayText]
      unfold langText
      apply String.toList_inj.mp
      simp

theorem html_document :
    (document pages settings page).html = documentText pages settings page := by
  have hroot : (Node.render (.tag "html") (rootProps settings)
      [.markup (head page.title settings.stylesheets), .markup (body pages settings page)]).html =
        "<html" ++ langText settings.lang ++ ">" ++
          ((head page.title settings.stylesheets).html ++ (body pages settings page).html) ++
            "</html>" := by
    rw [html_element rfl, attributes_rootProps, Value.renderAllInto_cons, renderAllInto_singleton]
    rfl
  have hdocument : (document pages settings page).html = "<!DOCTYPE html>" ++
      (Node.render (.tag "html") (rootProps settings)
        [.markup (head page.title settings.stylesheets),
          .markup (body pages settings page)]).html := by
    unfold document
    rw [Value.render, Value.renderAllInto_cons, renderAllInto_singleton]
    rfl
  rw [hdocument, hroot, html_head, html_body, html_navigation]
  unfold documentText
  simp only [String.append_assoc]

theorem document_eq : document pages settings page = ⟨documentText pages settings page⟩ :=
  Markup.eq_mk_of_html_eq (html_document pages settings page)

/-!
## The layout as a component
-/

/-- The layout as a component, which finds the title and the url of a page among its props,
and the content as its children. -/
def component : Node := .component fun p =>
  .markup (Node.render .fragment .empty [
    .markup doctype,
    .markup (Node.render (.tag "html") (rootProps settings) [
      .markup (Node.wrap "head" [
        emptyElement "meta" [("charset", "utf-8")],
        emptyElement "meta"
          [("name", "viewport"), ("content", "width=device-width, initial-scale=1")],
        .markup (Node.wrap "title" [.ofOption (p.takeChildren.2.get? "title")]),
        .list (stylesheetLinks settings.stylesheets)]),
      .markup (Node.wrap "body" [
        .markup (navigation pages (p.takeChildren.2.text "url")),
        .markup (Node.wrap "main" [p.takeChildren.1]),
        .ofOption (settings.footer.map fun text => .markup (footer text))])])])

/-- A document is what the layout gives for a page as a component. -/
theorem render_component :
    Node.render (component pages settings)
      (.ofList [("title", .text page.title), ("url", .text page.url)])
      [.markup page.content] = document pages settings page := by
  have hattributes := Props.attributes_ofList
    [("title", .text page.title), ("url", .text page.url)] (by simp)
    (by simp [Props.childrenName])
  have hprops : Node.componentProps
      (.ofList [("title", .text page.title), ("url", .text page.url)]) [.markup page.content] =
        ⟨[("title", .text page.title), ("url", .text page.url)],
          .list [.markup page.content]⟩ := by
    rw [Node.componentProps, Props.setChildren, hattributes]
  have htitle : Props.get? ⟨[("title", .text page.title), ("url", .text page.url)], .null⟩
      "title" = some (.text page.title) := by
    simp [Props.get?, Props.childrenName]
  have hurl : Props.text ⟨[("title", .text page.title), ("url", .text page.url)], .null⟩
      "url" = page.url := by
    simp [Props.text, Props.get?, Props.childrenName, List.lookup_cons, Value.displayText]
  rw [component, Node.render, hprops]
  simp only [Props.takeChildren, Props.setChildren, htitle, hurl]
  rfl

/-!
## Documents of all pages
-/

theorem documentText_congr {others : List Page} {other : Page}
    (hcontent : other.content = page.content) (htitle : other.title = page.title)
    (hurl : other.url = page.url) (hothers : (others.map fun page => (page.title, page.url)) =
      pages.map fun page => (page.title, page.url)) :
    documentText others settings other = documentText pages settings page := by
  have hentries : (others.map fun entry => entryText page.url entry.title entry.url) =
      pages.map fun entry => entryText page.url entry.title entry.url := by
    have hmapped := congrArg (List.map fun entry => entryText page.url entry.1 entry.2) hothers
    rwa [List.map_map, List.map_map] at hmapped
  unfold documentText
  rw [hcontent, htitle, hurl, hentries]

theorem getElem?_documents {i : Nat} {page : Page} (h : pages[i]? = some page) :
    (documents pages settings)[i]? =
      some ⟨page.url, ⟨documentText pages settings page⟩⟩ := by
  rw [documents, List.getElem?_map, h, Option.map_some, document_eq]

/-- The documents are in the order of the pages, each with the url of its page and the text
that the layout as a component gives for it. They stay as they are if other pages have other
contents. -/
theorem documents_eq_documentText :
    (documents pages settings).length = pages.length ∧
      (∀ (i : Nat) (page : Page), pages[i]? = some page →
        (documents pages settings)[i]? =
            some ⟨page.url, ⟨documentText pages settings page⟩⟩ ∧
          Node.render (component pages settings)
              (.ofList [("title", .text page.title), ("url", .text page.url)])
              [.markup page.content] = ⟨documentText pages settings page⟩) ∧
      ∀ (others : List Page) (i : Nat),
        (others.map fun page => (page.title, page.url)) =
          (pages.map fun page => (page.title, page.url)) →
        others[i]?.map Page.content = pages[i]?.map Page.content →
        (documents others settings)[i]? = (documents pages settings)[i]? := by
  refine ⟨List.length_map .., ?_, ?_⟩
  · intro i page h
    refine ⟨getElem?_documents pages settings h, ?_⟩
    rw [render_component, document_eq]
  · intro others i hothers hcontent
    have hentry := congrArg (·[i]?) hothers
    simp only [List.getElem?_map] at hentry
    cases hpage : pages[i]? with
    | none =>
        rw [hpage] at hcontent
        have hnone := Option.map_eq_none_iff.mp hcontent
        rw [documents, documents, List.getElem?_map, List.getElem?_map, hpage, hnone,
          Option.map_none, Option.map_none]
    | some page =>
        rw [hpage] at hcontent hentry
        rcases Option.map_eq_some_iff.mp hcontent with ⟨other, hother, hsame⟩
        rw [hother, Option.map_some, Option.map_some, Option.some_inj, Prod.mk.injEq] at hentry
        rw [getElem?_documents pages settings hpage, getElem?_documents others settings hother,
          documentText_congr pages settings page hsame hentry.1 hentry.2 hothers, hentry.2]

theorem documents_eq_documentText_blog :
    let settings : LayoutSettings := ⟨some "en", some "\u00a9 <me>", ["a.css", "b.css"]⟩
    let pages : List Page := [⟨"Q&A", "faq.html", ⟨"<p>x</p>"⟩⟩, ⟨"Home", "index.html", ⟨"y"⟩⟩]
    let others : List Page := [⟨"Q&A", "faq.html", ⟨"<p>x</p>"⟩⟩, ⟨"Home", "index.html", ⟨"z"⟩⟩]
    ((others.map fun page => (page.title, page.url)) =
          (pages.map fun page => (page.title, page.url)) ∧
        others[0]?.map Page.content = pages[0]?.map Page.content) ∧
      (documents others settings)[0]? = (documents pages settings)[0]? := by
  intro settings pages others
  have hothers : (others.map fun page => (page.title, page.url)) =
      pages.map fun page => (page.title, page.url) := by simp [others, pages]
  have hcontent : others[0]?.map Page.content = pages[0]?.map Page.content := by
    simp [others, pages]
  exact ⟨⟨hothers, hcontent⟩,
    (documents_eq_documentText pages settings).2.2 others 0 hothers hcontent⟩

end StaticSite.Layout
