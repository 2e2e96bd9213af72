import StaticSite.Files.Walk
import StaticSite.Text.Utf8
/-!
# Reading files

What can be learned about files by a path without changing them.
-/

namespace StaticSite.Files

def isPresent (fs : Files) (p : Path) : Bool :=
  match fs.locate .target p with
  | .ok (.entry _ _) => true
  | .ok .removed => true
  | _ => false

def isDirectory (fs : Files) (p : Path) : Bool :=
  match fs.locate .target p with
  | .ok (.entry _ .directory) => true
  | .ok .removed => true
  | _ => false

def startsRemoved (fs : Files) (p : Path) : Bool :=
  match fs.workingDirectory with
  | .standing _ => false
  | .removed _ _ => !p.isAbsolute

/-- The location that a path leads to, which may be of any length. A working
directory that was removed has no location to start from. -/
def resolve (fs : Files) (p : Path) : Except FileError Location := do
  checkParts p
  match ← fs.enter .target p.isAbsolute p.segments with
  | .entry location _ => if fs.startsRemoved p then .error .missing else .ok location
  | .free _ => .error .missing
  | .removed => .error .missing

/-- The files whose absolute paths are not too long to be used. -/
def nameable (fs : Files) : Files :=
  { fs with entries := fs.entries.filter fun pair => (Path.ofRoot pair.1).size ≤ pathLimit }

/-- The location that a path leads to, found by looking at all that is on its way by its
absolute path. -/
def canonical (fs : Files) (p : Path) : Except FileError Location := fs.nameable.resolve p

def read (fs : Files) (p : Path) : Except FileError (List UInt8) := do
  match ← fs.locate .target p with
  | .entry _ (.file content) => .ok content
  | .entry _ .directory => .error .isDirectory
  | .removed => .error .isDirectory
  | _ => .error .missing

def readText (fs : Files) (p : Path) : Except FileError String := do
  match Utf8.decode? (← fs.read p) with
  | some text => .ok text
  | none => .error .notText

/-- What stands in the directory at a location, by its names. -/
def children (fs : Files) (directory : Location) : List (Segment × Entry) :=
  fs.entries.filterMap fun (place, entry) =>
    place.getLast?.bind fun name =>
      if place.dropLast = directory then some (name, entry) else none

/-- What stands in the directory that a path leads to, in no particular order. -/
def readDirectory (fs : Files) (p : Path) : Except FileError (List (Segment × Entry)) := do
  match ← fs.locate .target p with
  | .entry location .directory => .ok (fs.children location)
  | .removed => .ok []
  | .entry _ (.file _) => .error .notDirectory
  | _ => .error .missing

end StaticSite.Files
