import StaticSite.Command.Arguments
import StaticSite.Config.Load
import StaticSite.Site.Build
import StaticSite.Site.Compare
/-!
# Commands

A command is run on all files, of which it may change some, and ends with an
outcome: a code, a text, and lines that report what was done or what went
wrong.
-/

namespace StaticSite

/-- How a command ended. A code other than zero stands for a failure: one if the
command failed, and two if it had no meaning. -/
structure Outcome where
  code : UInt8
  output : String
  reports : List String
deriving DecidableEq, Repr

namespace Command

def versionText : String := "sx 0.1.0\n"

def helpText : String :=
  "Usage: sx <COMMAND>\n\n"
    ++ "  build [-c <CONFIG>] [-o <OUT_DIR>] [-v]  Build the site\n"
    ++ "  verify <EXPECTED> <ACTUAL>               Compare a built site with an expected one\n"

def failure (message : String) : String := "Error: " ++ message

def buildConfig (config : Config) (fs : Files) : Outcome × Files :=
  let noted := (config.configPath.map fun path => "Config: " ++ path.text).toList
  match Page.ofConfig fs config with
  | .error e => (⟨1, "", noted ++ [failure e.message]⟩, fs)
  | .ok pages =>
    let noted := noted ++ (if pages.isEmpty then ["No pages configured"] else [])
    match (BuildPlan.ofConfig config).build pages config.outDir fs with
    | .error e changed => (⟨1, "", noted ++ [failure e.message]⟩, changed)
    | .ok report changed =>
      let built := "Built " ++ report.written.length.repr ++ " page(s) into " ++ report.outDir.text
      (⟨0, "", noted ++ [built]⟩, changed)

def build (env : Environment) (file? outDir? : Option Path) (fs : Files) : Outcome × Files :=
  match Config.load env fs file? outDir? with
  | .error e => (⟨1, "", [failure e.message]⟩, fs)
  | .ok config => buildConfig config fs

def verify (fs : Files) (expected actual : Path) : Outcome :=
  match compareDirectories fs expected actual with
  | .error e => ⟨1, "", [failure e.message]⟩
  | .ok [] => ⟨0, "", [actual.text ++ " matches " ++ expected.text]⟩
  | .ok found =>
    let count := "site does not match snapshot (" ++ found.length.repr ++ " differences)"
    ⟨1, "", found.map Difference.message ++ [failure count]⟩

def runRequest (env : Environment) (fs : Files) : Request → Outcome × Files
  | .help => (⟨0, helpText, []⟩, fs)
  | .version => (⟨0, versionText, []⟩, fs)
  | .build file? outDir? _ => build env file? outDir? fs
  | .verify expected actual => (verify fs expected actual, fs)

def run (env : Environment) (fs : Files) (arguments : List String) : Outcome × Files :=
  match Arguments.read env arguments with
  | .ok request => runRequest env fs request
  | .error e => (⟨2, "", [failure e.message]⟩, fs)

end Command

end StaticSite
