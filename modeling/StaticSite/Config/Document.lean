import StaticSite.Config.Basic
import StaticSite.Toml.Document
/-!
# Configurations in TOML

A configuration is a document with a table `site` and a list of tables `pages`.
Keys that mean nothing are passed over, but numbers under them must be within
the limits. Members are looked at in the order of their names, and a required
field that is missing is noticed after all members of its page.

A table may also be given as a list of the values of its fields, in a fixed
order. Where a table is expected, a date counts as one without any known field.
-/

namespace StaticSite.Config

open Toml (Members)

def malformed {α : Type} : Except ConfigError α := .error (.malformed none)

def sorted (m : Members) : Members := m.mergeSort fun a b => decide (a.1 ≤ b.1)

def readText : Toml.Value → Except ConfigError String
  | .text content => .ok content
  | _ => malformed

def readList : Toml.Value → Except ConfigError (List Toml.Value)
  | .array items => .ok items
  | .series tables => .ok (tables.map (.table .header ·))
  | _ => malformed

/-- Passes over a value, which has to be within the limits. -/
def passOver (v : Toml.Value) : Except ConfigError Unit :=
  if v.isRepresentable then .ok () else malformed

def readTexts (v : Toml.Value) : Except ConfigError (List String) := do
  (← readList v).mapM readText

def takeSiteMember (site : SiteOptions) : String × Toml.Value → Except ConfigError SiteOptions
  | ("footer", v) => do .ok { site with footer := some (← readText v) }
  | ("lang", v) => do .ok { site with lang := some (← readText v) }
  | ("out_dir", v) => do .ok { site with outDir := some (← readText v) }
  | ("stylesheets", v) => do .ok { site with stylesheets := ← readTexts v }
  | (_, v) => do passOver v; .ok site

def readSite : Toml.Value → Except ConfigError SiteOptions
  | .table _ members => (sorted members).foldlM takeSiteMember {}
  | .moment _ => .ok {}
  | v => do
    let fields := ["out_dir", "lang", "footer", "stylesheets"].zip (← readList v)
    fields.foldlM takeSiteMember {}

/-- A page of which some members have been taken. -/
structure PartialEntry where
  title : Option String := none
  url : Option String := none
  source : Option String := none
  text : Option String := none

def takePageMember (entry : PartialEntry) :
    String × Toml.Value → Except ConfigError PartialEntry
  | ("source", v) => do .ok { entry with source := some (← readText v) }
  | ("text", v) => do .ok { entry with text := some (← readText v) }
  | ("title", v) => do .ok { entry with title := some (← readText v) }
  | ("url", v) => do .ok { entry with url := some (← readText v) }
  | (_, v) => do passOver v; .ok entry

def PartialEntry.finish (entry : PartialEntry) : Except RequiredField PageEntry :=
  match entry.title, entry.url with
  | some title, some url =>
    .ok { title, url, source := entry.source.map Path.ofText, text := entry.text }
  | none, _ => .error .title
  | some _, none => .error .url

/-- A page. Where it is given as a list, a missing field is not named. -/
def readPage : Toml.Value → Except ConfigError PageEntry
  | .table _ members => do
    let entry ← (sorted members).foldlM takePageMember {}
    match entry.finish with
    | .ok page => .ok page
    | .error field => .error (.malformed (some field))
  | .moment _ => .error (.malformed (some .title))
  | v => do
    let fields := ["title", "url", "source", "text"].zip (← readList v)
    let entry ← fields.foldlM takePageMember {}
    match entry.finish with
    | .ok page => .ok page
    | .error _ => malformed

def takeMember (config : Config) : String × Toml.Value → Except ConfigError Config
  | ("pages", v) => do .ok { config with pages := ← (← readList v).mapM readPage }
  | ("site", v) => do .ok { config with site := ← readSite v }
  | (_, v) => do passOver v; .ok config

/-- The configuration that a root table describes, before anything is replaced in
it. -/
def ofMembers (members : Members) : Except ConfigError Config :=
  (sorted members).foldlM takeMember {}

/-- The configuration that a document describes. Paths are related to a directory. -/
def ofText (env : Environment) (base : Path) (text : String) : Except ConfigError Config :=
  match Toml.Document.read? text with
  | none => malformed
  | some members => do
    let config ← expandAll env (← ofMembers members)
    let config := config.resolvePaths base
    config.validate
    .ok config

end StaticSite.Config
