import StaticSite.Config.Document
import StaticSite.Files.Reading
/-!
# Loading configurations

A configuration is loaded from a given file, or else from the nearest file with
the usual name in the working directory or above it. Its paths are related to
the directory of that file. Without any such file there is a configuration
without pages. A directory given for the output replaces the configured one.
-/

namespace StaticSite.Config

def fileName : Path := .ofText "sx.toml"

def directoryOf (p : Path) : Path := p.parent?.getD (.ofText ".")

def ofFile (env : Environment) (fs : Files) (p : Path) : Except ConfigError Config :=
  match fs.readText p with
  | .error cause => .error (.io cause)
  | .ok text => do
    let config ← ofText env (directoryOf p) text
    .ok { config with configPath := some p }

def upwards (location : Location) : List Location :=
  (List.range (location.length + 1)).reverse.map location.take

/-- The file with a configuration that is nearest to a location, in a directory at it
or above it. -/
def nearest? (fs : Files) (location : Location) : Option Path :=
  ((upwards location).map fun above => (Path.ofRoot above).join fileName).find? fs.isPresent

/-- The file with a configuration that is nearest to the working directory. A
directory that was removed has no location to start from. -/
def discover? (fs : Files) : Option Path :=
  match fs.workingDirectory with
  | .standing location => nearest? fs location
  | .removed _ _ => none

/-- The path of the working directory, which is empty for one that was removed. -/
def currentPath (fs : Files) : Path :=
  match fs.workingDirectory with
  | .standing location => .ofRoot location
  | .removed _ _ => .empty

/-- The configuration of a given file, or of the one that is discovered. -/
def locateAndLoad (env : Environment) (fs : Files) : Option Path → Except ConfigError Config
  | some p => if fs.isPresent p then ofFile env fs p else .error (.notFound p)
  | none =>
    match discover? fs with
    | some p => ofFile env fs p
    | none => .ok (defaultAt (currentPath fs))

/-- Loads a configuration, given its file and the directory for the output, either
of which may be left open. -/
def load (env : Environment) (fs : Files) (file? outDir? : Option Path) :
    Except ConfigError Config := do
  let config ← locateAndLoad env fs file?
  .ok { config with outDir := outDir?.getD config.outDir }

end StaticSite.Config
