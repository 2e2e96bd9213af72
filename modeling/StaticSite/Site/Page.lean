import StaticSite.Markup.Value
/-!
# Pages

A page of a site has a title, a url relative to the root of the site, and its
content as finished markup. All pages of a site share the settings of the layout.
-/

namespace StaticSite

/-- A page before it is laid out. -/
structure Page where
  title : String
  url : String
  content : Markup
deriving DecidableEq, Repr

structure Document where
  url : String
  html : Markup
deriving DecidableEq, Repr

/-- The settings of the layout of a site: the language of the documents, the text of the
footer, and the urls of the stylesheets. -/
structure LayoutSettings where
  lang : Option String := none
  footer : Option String := none
  stylesheets : List String := []
deriving DecidableEq, Repr, Inhabited

end StaticSite
