import StaticSite.Command.Run
/-!
# Command line

The outer layer of the program. What a command may look at is captured from the
disk, the command is run on that, and what it changed is then done on the disk.
A symbolic link is captured as one to the file that it leads to in the end, and
one that leads nowhere as a link to itself. On the disk all names are texts; the
invalid parts of a path are replaced by the characters that show them.
-/

namespace StaticSite.CommandLine

def locationOf (text : String) : Location :=
  (Path.ofText text).segments.filter (!Segment.isIdle ·)

def leading (p : Path) : List Path :=
  let segments := p.segments
  let beginnings := (List.range segments.length).map fun n =>
    Path.ofSegments (segments.take (n + 1))
  beginnings.filter fun q => !q.isEmpty

def withDirectories (fs : Files) (location : Location) : Files :=
  (List.range (location.length - 1)).foldl
    (fun fs n => fs.put (location.take (n + 1)) .directory) fs

/-- The files with an entry, if it is not the root. -/
def withEntry (fs : Files) (location : Location) (entry : Entry) : Files :=
  if location = [] then fs else (withDirectories fs location).put location entry

/-- The path without links that a path leads to, if it leads anywhere. -/
def realPath? (text : String) : IO (Option String) := do
  try return some (← IO.FS.realPath text).toString
  catch _ => return none

/-- What stands at a path without links, directories being taken without what is in
them. -/
def captureReal (fs : Files) (real : String) : IO Files := do
  try
    let place := (← IO.currentDir) / real
    if ← place.isDir then return withEntry fs (locationOf real) .directory
    let content ← IO.FS.readBinFile place
    return withEntry fs (locationOf real) (.file content.toList)
  catch _ => return fs

/-- What stands at a name in a directory without links, and what it leads to. -/
def captureName (fs : Files) (directory name : String) : IO Files := do
  let place := (← IO.currentDir) / directory / name
  let location := locationOf directory ++ [Segment.ofText name]
  try
    let kind := (← place.symlinkMetadata).type
    match ← realPath? place.toString with
    | some real =>
      let fs ← captureReal fs real
      return if kind matches .symlink then withEntry fs location (.link (.ofText real)) else fs
    | none => return withEntry fs location (.link (.ofRoot location))
  catch _ => return fs

/-- What stands on the way along a path. -/
def capturePath (fs : Files) (p : Path) : IO Files := do
  let mut fs := fs
  for q in leading p do
    let segment := q.segments.getLast?.getD []
    let above := (q.parent?.getD .empty).text
    if Segment.isIdle segment || segment == Segment.up then
      if let some real ← realPath? q.text then fs ← captureReal fs real
    else if let some real ← realPath? (if above.isEmpty then "." else above) then
      fs ← captureName fs real (Path.ofSegments [segment]).text
  return fs

/-- What stands below a directory without links. -/
partial def captureBelow (fs : Files) (directory : String) : IO Files := do
  let mut fs := fs
  let place := (← IO.currentDir) / directory
  for found in ← place.readDir do
    fs ← captureName fs directory found.fileName
    if (← found.path.symlinkMetadata).type matches .dir then
      fs ← captureBelow fs found.path.toString
  return fs

/-- What stands on the way along a path and below the directory that it leads to. -/
def captureTree (fs : Files) (p : Path) : IO Files := do
  let fs ← capturePath fs p
  match ← realPath? p.text with
  | some real => if fs.isDirectory p then captureBelow fs real else return fs
  | none => return fs

/-- What a request may look at. Where a configuration is loaded, that is known only
once it is. -/
def captureRequest (env : Environment) (fs : Files) : Request → IO Files
  | .build file? outDir? _ => do
    let mut fs := fs
    match file? with
    | some file => fs ← capturePath fs file
    | none =>
      if let .standing location := fs.workingDirectory then
        for above in Config.upwards location do
          fs ← capturePath fs ((Path.ofRoot above).join Config.fileName)
    match Config.load env fs file? outDir? with
    | .error _ => return fs
    | .ok config =>
      for guarded in (BuildPlan.ofConfig config).guarded do
        fs ← capturePath fs guarded
      captureTree fs config.outDir
  | .verify expected actual => do captureTree (← captureTree fs expected) actual
  | _ => return fs

/-- The files that only have the working directory. -/
def captureStart : IO Files := do
  try
    let text := (← IO.currentDir).toString
    let fs ← captureReal {} text
    return { fs with workingDirectory := .standing (locationOf text) }
  catch _ => return { workingDirectory := .removed 0 [] }

/-- Does on the disk what leads from the captured files to the changed ones: what is
gone is removed from below upwards, and the rest is made from above downwards. -/
def apply (captured changed : Files) : IO Unit := do
  let inOrder (entries : List (Location × Entry)) :=
    entries.mergeSort fun a b => Location.precedes a.1 b.1
  let gone := captured.entries.filter fun (location, entry) => changed.find? location != some entry
  let made := changed.entries.filter fun (location, entry) =>
    captured.find? location != some entry
  for (location, entry) in (inOrder gone).reverse do
    let text := (Path.ofRoot location).text
    if entry = .directory then IO.FS.removeDir text else IO.FS.removeFile text
  for (location, entry) in inOrder made do
    let text := (Path.ofRoot location).text
    match entry with
    | .directory => IO.FS.createDir text
    | .file content => IO.FS.writeBinFile text ⟨content.toArray⟩
    | .link _ => pure ()

def captureEnvironment : IO Environment := do
  let bytes ← try (·.toList) <$> IO.FS.readBinFile "/proc/self/environ" catch _ => pure []
  return .ofAssignments (bytes.splitOn 0)

def run (arguments : List String) : IO UInt32 := do
  let env ← captureEnvironment
  let start ← captureStart
  let captured ← match Arguments.read env arguments with
    | .ok request => captureRequest env start request
    | .error _ => pure start
  let (outcome, changed) := Command.run env captured arguments
  apply captured changed
  IO.print outcome.output
  for report in outcome.reports do IO.eprintln report
  return outcome.code.toUInt32

end StaticSite.CommandLine

def main (arguments : List String) : IO UInt32 := StaticSite.CommandLine.run arguments
