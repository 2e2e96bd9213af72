import StaticSite.Markup.Node
import StaticSite.Site.Page
/-!
# Layout

A page becomes a document with a head, which names the title and the
stylesheets, and a body, which holds the navigation, the content of the page and
the footer. The navigation lists all pages in order and links each of them but
the current one.
-/

namespace StaticSite.Layout

open Node (wrap)

def doctype : Markup := ⟨"<!DOCTYPE html>"⟩

/-- The entry of a page in the navigation of the page at `current`. -/
def navigationEntry (current : String) (page : Page) : Markup :=
  let label := Value.text page.title
  wrap "li" [
    if page.url = current then label
    else .markup (Node.render (.tag "a") (.ofList [("href", .text page.url)]) [label])]

def navigation (pages : List Page) (current : String) : Markup :=
  let entries := pages.map fun page => Value.markup (navigationEntry current page)
  wrap "nav" [.markup (wrap "ul" [.list entries])]

def emptyElement (tag : String) (attributes : List (String × String)) : Value :=
  .markup (Node.render (.tag tag)
    (.ofList (attributes.map fun (name, content) => (name, .text content))) [])

def stylesheetLinks (stylesheets : List String) : List Value :=
  stylesheets.map fun href => emptyElement "link" [("rel", "stylesheet"), ("href", href)]

def head (title : String) (stylesheets : List String) : Markup :=
  wrap "head" [
    emptyElement "meta" [("charset", "utf-8")],
    emptyElement "meta"
      [("name", "viewport"), ("content", "width=device-width, initial-scale=1")],
    .markup (wrap "title" [.text title]),
    .list (stylesheetLinks stylesheets)]

def footer (text : String) : Markup := wrap "footer" [.text text]

def body (pages : List Page) (settings : LayoutSettings) (page : Page) : Markup :=
  wrap "body" [
    .markup (navigation pages page.url),
    .markup (wrap "main" [.markup page.content]),
    .ofOption (settings.footer.map fun text => .markup (footer text))]

def rootProps (settings : LayoutSettings) : Props :=
  .ofList (settings.lang.toList.map fun lang => ("lang", .text lang))

def document (pages : List Page) (settings : LayoutSettings) (page : Page) : Markup :=
  Value.render (.list [
    .markup doctype,
    .markup (Node.render (.tag "html") (rootProps settings) [
      .markup (head page.title settings.stylesheets),
      .markup (body pages settings page)])])

def documents (pages : List Page) (settings : LayoutSettings) : List Document :=
  pages.map fun page => ⟨page.url, document pages settings page⟩

end StaticSite.Layout
