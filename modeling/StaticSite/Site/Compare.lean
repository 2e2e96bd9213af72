import StaticSite.Files.Reading
/-!
# Comparing directories

Two directories are compared file by file. Files that are missing or have other
contents come first, in the order of their paths, and then the files that are
not expected. Paths are ordered component by component. Symbolic links count as
files.
-/

namespace StaticSite

/-- A difference between an expected directory and an actual one, at a path seen
from both. -/
inductive Difference where
  | missing (path : Path)
  | mismatch (path : Path) (expected actual : String)
  | unexpected (path : Path)
deriving DecidableEq, Repr

def Difference.message : Difference → String
  | .missing path => "expected file " ++ path.text ++ " is not present"
  | .mismatch path expected actual =>
    "contents of file " ++ path.text ++ " do not match:\nexpected: " ++ expected
      ++ "\nactual: " ++ actual
  | .unexpected path => "file " ++ path.text ++ " is not expected"

structure CompareError where
  path : Path
  cause : FileError
deriving DecidableEq, Repr

def CompareError.message (e : CompareError) : String :=
  "I/O error at " ++ e.path.text ++ ": " ++ e.cause.message

namespace Compare

def reported {α : Type} (p : Path) : Except FileError α → Except CompareError α
  | .ok a => .ok a
  | .error cause => .error ⟨p, cause⟩

def pathBelow (root : Path) (place : Location) : Path := root.join (.ofSegments place)

/-- What is found at an entry of a directory, given the path of the directory and its
location below the one where the walk started. `enter` goes on in a directory, given the
same of it. -/
def visit (enter : Path → Location → Except CompareError (List Location)) (dir : Path)
    (below : Location) (child : Segment × Entry) : Except CompareError (List Location) :=
  if child.2 = .directory then enter (dir.join ⟨child.1⟩) (below ++ [child.1])
  else .ok [below ++ [child.1]]

/-- What is found at the entries of a directory, up to the first that fails. -/
def visitAll (look : Segment × Entry → Except CompareError (List Location)) :
    List (Segment × Entry) → Except CompareError (List Location)
  | [] => .ok []
  | child :: rest => do
    let here ← look child
    let later ← visitAll look rest
    .ok (here ++ later)

/-- The files in a directory and in all directories below it. The number says how many levels
of directories may be entered. -/
def walk (fs : Files) : Nat → Path → Location → Except CompareError (List Location)
  | 0, dir, _ => .error ⟨dir, .nameTooLong⟩
  | levels + 1, dir, below => do
    let entries ← reported dir (fs.readDirectory dir)
    visitAll (visit (walk fs levels) dir below) entries

/-- The files below a directory in the order of their paths. A directory has a longer path
than the one it is in, so the levels suffice for all paths that can be used. -/
def collect (fs : Files) (root : Path) : Except CompareError (List Location) := do
  let files ← walk fs (Files.pathLimit + 1) root []
  .ok (files.mergeSort Location.precedes)

def readBelow (fs : Files) (root : Path) (file : Location) : Except CompareError (List UInt8) :=
  let path := pathBelow root file
  reported path (fs.read path)

def difference? (fs : Files) (expected actual : Path) (actualFiles : List Location)
    (file : Location) : Except CompareError (Option Difference) :=
  if actualFiles.contains file then do
    let wanted ← readBelow fs expected file
    let found ← readBelow fs actual file
    if wanted = found then .ok none
    else
      .ok (some (.mismatch (.ofSegments file) (Utf8.decodeLossy wanted) (Utf8.decodeLossy found)))
  else .ok (some (.missing (.ofSegments file)))

def differences (fs : Files) (expected actual : Path) (actualFiles : List Location) :
    List Location → Except CompareError (List Difference)
  | [] => .ok []
  | file :: rest => do
    let here ← difference? fs expected actual actualFiles file
    let later ← differences fs expected actual actualFiles rest
    .ok (here.toList ++ later)

end Compare

def compareDirectories (fs : Files) (expected actual : Path) :
    Except CompareError (List Difference) := do
  let expectedFiles ← Compare.collect fs expected
  let actualFiles ← Compare.collect fs actual
  let found ← Compare.differences fs expected actual actualFiles expectedFiles
  let others := actualFiles.filter (!expectedFiles.contains ·)
  .ok (found ++ others.map fun file => .unexpected (.ofSegments file))

end StaticSite
