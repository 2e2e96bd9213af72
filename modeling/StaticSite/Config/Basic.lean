import StaticSite.Config.Template
import StaticSite.Files.Error
import StaticSite.Files.Path
import StaticSite.Site.Page
import StaticSite.Text.Quoted
/-!
# Configurations

A configuration lists the options of a site and its pages. The content of a page
is either a file or a text. Of what can be wrong with a configuration, the first
problem is reported: first the stylesheets are looked at, then the pages in
order, and of a page its title, its url, its content, and whether its url is
used by a page before it.
-/

namespace StaticSite

structure SiteOptions where
  outDir : Option String := none
  lang : Option String := none
  footer : Option String := none
  stylesheets : List String := []
deriving DecidableEq, Repr

structure PageEntry where
  title : String
  url : String
  source : Option Path := none
  text : Option String := none
deriving DecidableEq, Repr

inductive ContentSource where
  | file (path : Path)
  | text (content : String)
deriving DecidableEq, Repr

/-- A configuration: the options of the site, its pages in order, the directory that
the site is built in, and the file that the configuration was read from. -/
structure Config where
  site : SiteOptions := {}
  pages : List PageEntry := []
  outDir : Path := .empty
  configPath : Option Path := none
deriving DecidableEq, Repr

/-- The content of a page, if exactly one is given. -/
def PageEntry.content? (entry : PageEntry) : Option ContentSource :=
  match entry.source, entry.text with
  | some path, none => some (.file path)
  | none, some content => some (.text content)
  | _, _ => none

/-- The part of the options that the layout of pages depends on. -/
def SiteOptions.layout (site : SiteOptions) : LayoutSettings :=
  ⟨site.lang, site.footer, site.stylesheets⟩

/-- A string of a configuration in which variables are replaced. -/
inductive ConfigField where
  | outDir
  | lang
  | footer
  | title (index : Nat)
deriving DecidableEq, Repr

/-- What is wrong with a configuration. Pages are counted from zero. -/
inductive ConfigProblem where
  | emptyStylesheet
  | emptyTitle (index : Nat)
  | emptyUrl (index : Nat)
  | contentChoice (index : Nat)
  | repeatedUrl (index : Nat) (url : String)
deriving DecidableEq, Repr

inductive RequiredField where
  | title
  | url
deriving DecidableEq, Repr

inductive ConfigError where
  | notFound (path : Path)
  | io (cause : FileError)
  /-- The document does not say what a configuration says; a required field may be
  missing. -/
  | malformed (missing? : Option RequiredField)
  | invalid (problem : ConfigProblem)
  | expansion (field : ConfigField) (cause : TemplateError)
deriving DecidableEq, Repr

def pageFieldName (index : Nat) (field : String) : String :=
  "pages[" ++ index.repr ++ "]" ++ field

def ConfigField.name : ConfigField → String
  | .outDir => "site.out_dir"
  | .lang => "site.lang"
  | .footer => "site.footer"
  | .title index => pageFieldName index ".title"

def ConfigProblem.message : ConfigProblem → String
  | .emptyStylesheet => "site.stylesheets[] cannot be empty"
  | .emptyTitle index => pageFieldName index ".title cannot be empty"
  | .emptyUrl index => pageFieldName index ".url cannot be empty"
  | .contentChoice index => pageFieldName index " must set exactly one of source or text"
  | .repeatedUrl index url =>
    pageFieldName index ".url " ++ Text.quoted url ++ " is used by another page"

def RequiredField.message : RequiredField → String
  | .title => "missing field \x60title\x60"
  | .url => "missing field \x60url\x60"

def ConfigError.message : ConfigError → String
  | .notFound path => "Configuration file not found: " ++ path.text
  | .io cause => "I/O error: " ++ cause.message
  | .malformed none => "TOML parse error"
  | .malformed (some field) => "TOML parse error: " ++ field.message
  | .invalid problem => "Configuration error: " ++ problem.message
  | .expansion field cause =>
    "Environment variable error in " ++ field.name ++ ": " ++ cause.message

namespace Config

/-- The first problem of a page, given its index and the urls of the pages before
it. -/
def pageProblem? (index : Nat) (seen : List String) (entry : PageEntry) : Option ConfigProblem :=
  if entry.title = "" then some (.emptyTitle index)
  else if entry.url = "" then some (.emptyUrl index)
  else if entry.content?.isNone then some (.contentChoice index)
  else if entry.url ∈ seen then some (.repeatedUrl index entry.url)
  else none

def pagesProblem? (index : Nat) (seen : List String) : List PageEntry → Option ConfigProblem
  | [] => none
  | entry :: rest =>
    match pageProblem? index seen entry with
    | some problem => some problem
    | none => pagesProblem? (index + 1) (entry.url :: seen) rest

def problem? (config : Config) : Option ConfigProblem :=
  if "" ∈ config.site.stylesheets then some .emptyStylesheet
  else pagesProblem? 0 [] config.pages

def validate (config : Config) : Except ConfigError Unit :=
  match config.problem? with
  | some problem => .error (.invalid problem)
  | none => .ok ()

def expandField (env : Environment) (field : ConfigField) (text : String) :
    Except ConfigError String :=
  match expand env text with
  | .ok expanded => .ok expanded
  | .error cause => .error (.expansion field cause)

def expandField? (env : Environment) (field : ConfigField) :
    Option String → Except ConfigError (Option String)
  | none => .ok none
  | some text => do .ok (some (← expandField env field text))

def expandTitles (env : Environment) (index : Nat) :
    List PageEntry → Except ConfigError (List PageEntry)
  | [] => .ok []
  | entry :: rest => do
    let title ← expandField env (.title index) entry.title
    let rest ← expandTitles env (index + 1) rest
    .ok ({ entry with title } :: rest)

/-- Replaces the references in all strings that may have them, in order. -/
def expandAll (env : Environment) (config : Config) : Except ConfigError Config := do
  let outDir ← expandField? env .outDir config.site.outDir
  let lang ← expandField? env .lang config.site.lang
  let footer ← expandField? env .footer config.site.footer
  let pages ← expandTitles env 0 config.pages
  .ok { config with site := { config.site with outDir, lang, footer }, pages }

def defaultOutDir : Path := .ofText "site"

def resolveEntry (base : Path) (entry : PageEntry) : PageEntry :=
  { entry with source := entry.source.map base.join }

def resolvePaths (base : Path) (config : Config) : Config :=
  let outDir := (config.site.outDir.map Path.ofText).getD defaultOutDir
  { config with outDir := base.join outDir, pages := config.pages.map (resolveEntry base) }

/-- The configuration that is used where none is found. -/
def defaultAt (base : Path) : Config := { outDir := base.join defaultOutDir }

end Config

end StaticSite
