import StaticSite.Config.Basic
import StaticSite.Files.Writing
import StaticSite.Site.Layout
/-!
# Building a site

The documents of all pages are written below an output directory, which is
cleared first. Before anything is changed the urls of the pages are checked, and
the output directory is refused if it is or contains one of the protected
paths. What is compared then are the locations that the paths lead to, so a path
that leads nowhere, or along a way that is too long, protects nothing.
-/

namespace StaticSite

inductive BuildError where
  | io (path : Path) (cause : FileError)
  | invalidUrl (url : String)
  | duplicateUrl (url : String)
  | missingContent (url : String)
  | unsafeOutDir (outDir guarded : Path)
deriving DecidableEq, Repr

def BuildError.message : BuildError → String
  | .io path cause => "I/O error at " ++ path.text ++ ": " ++ cause.message
  | .invalidUrl url =>
    "Invalid page url " ++ Text.quoted url ++ ": must be a relative path without '..'"
  | .duplicateUrl url => "Duplicate page url " ++ Text.quoted url
  | .missingContent url => "Page " ++ Text.quoted url ++ " has no content source"
  | .unsafeOutDir outDir guarded =>
    "Refusing to clear output directory " ++ outDir.text ++ ": it contains " ++ guarded.text

/-- How a site is built: the settings of the layout, and the paths that must not be
removed. -/
structure BuildPlan where
  settings : LayoutSettings := {}
  guarded : List Path := []
deriving DecidableEq, Repr

structure BuildResult where
  outDir : Path
  written : List Path
deriving DecidableEq, Repr

namespace BuildPlan

/-- The directory of a configuration, which is the working directory for one that
was not read from a file. -/
def configDirectory (config : Config) : Path :=
  match config.configPath.bind Path.parent? with
  | some p => if p.isEmpty then .ofText "." else p
  | none => .ofText "."

/-- The plan for a configuration, whose directory and sources are protected. -/
def ofConfig (config : Config) : BuildPlan where
  settings := config.site.layout
  guarded := configDirectory config :: config.pages.filterMap PageEntry.source

def protect (plan : BuildPlan) (p : Path) : BuildPlan :=
  { plan with guarded := plan.guarded ++ [p] }

/-- Whether a url names a file below the directory that it is related to: it is
relative, does not lead upwards, and has a name in it. -/
def isAcceptable (url : String) : Bool :=
  let components := Path.components (.ofText url)
  components.all (fun c => c.isName || c == .here) && components.any Path.Component.isName

/-- The first page whose url is not acceptable or is that of a page before it. -/
def urlProblem? (seen : List String) : List Page → Option BuildError
  | [] => none
  | page :: rest =>
    if !isAcceptable page.url then some (.invalidUrl page.url)
    else if page.url ∈ seen then some (.duplicateUrl page.url)
    else urlProblem? (page.url :: seen) rest

/-- The first protected path that leads to a given location or below it. -/
def exposed? (plan : BuildPlan) (fs : Files) (location : Location) : Option Path :=
  plan.guarded.find? fun p =>
    match fs.canonical p with
    | .ok place => location.isPrefixOf place
    | .error _ => false

def refusal? (plan : BuildPlan) (pages : List Page) (outDir : Path) (fs : Files) :
    Option BuildError :=
  match urlProblem? [] pages with
  | some problem => some problem
  | none =>
    match fs.canonical outDir with
    | .error _ => none
    | .ok location => (plan.exposed? fs location).map (.unsafeOutDir outDir)

/-- An action on files whose failure is reported with a path. -/
def reportedAt {α : Type} (p : Path) (action : FileAction FileError α) :
    FileAction BuildError α :=
  action.mapError (.io p)

def clearOutDir (outDir : Path) : FileAction FileError Unit := fun fs =>
  if fs.isPresent outDir then Files.removeTree outDir fs else .ok () fs

/-- Writes a document below a directory, and returns the path of its file. -/
def writeDocument (outDir : Path) (d : Document) : FileAction BuildError Path := do
  let path := outDir.join (.ofText d.url)
  if let some above := path.parent? then reportedAt above (Files.makeDirectories above)
  reportedAt path (.change (Files.write path (Utf8.encode d.html.html)))
  return path

def writeDocuments (outDir : Path) : List Document → FileAction BuildError (List Path)
  | [] => return []
  | d :: rest => do
    let path ← writeDocument outDir d
    let paths ← writeDocuments outDir rest
    return path :: paths

def build (plan : BuildPlan) (pages : List Page) (outDir : Path) :
    FileAction BuildError BuildResult := fun fs =>
  match plan.refusal? pages outDir fs with
  | some problem => .error problem fs
  | none =>
    (do
      reportedAt outDir (clearOutDir outDir)
      reportedAt outDir (Files.makeDirectories outDir)
      let written ← writeDocuments outDir (Layout.documents pages plan.settings)
      return ⟨outDir, written⟩ : FileAction BuildError BuildResult) fs

end BuildPlan

namespace Page

/-- The page of an entry. The content of a file is taken as markup, and a text is
escaped and put into an element of its own. -/
def ofEntry (fs : Files) (entry : PageEntry) : Except BuildError Page :=
  match entry.content? with
  | some (.file path) =>
    match fs.readText path with
    | .ok html => .ok ⟨entry.title, entry.url, ⟨html⟩⟩
    | .error cause => .error (.io path cause)
  | some (.text content) => .ok ⟨entry.title, entry.url, Node.wrap "div" [.text content]⟩
  | none => .error (.missingContent entry.url)

/-- The pages of a configuration, up to the first that has no content. -/
def ofConfig (fs : Files) (config : Config) : Except BuildError (List Page) :=
  config.pages.mapM (ofEntry fs)

end Page

end StaticSite
