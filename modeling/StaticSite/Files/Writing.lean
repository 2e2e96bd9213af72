import StaticSite.Files.Reading
/-!
# Changing files

Changes to files by a path. A change that may do a part of its work before it
fails is a `FileAction`; it ends with the files as they are then.
-/

namespace StaticSite

/-- A change to files with a result, which may fail after a part of the work. -/
abbrev FileAction (ε α : Type) : Type := EStateM ε Files α

namespace FileAction

def look {ε α : Type} (f : Files → Except ε α) : FileAction ε α := fun fs =>
  match f fs with
  | .ok a => .ok a fs
  | .error e => .error e fs

/-- A change that is done as a whole or not at all. -/
def change {ε : Type} (f : Files → Except ε Files) : FileAction ε Unit := fun fs =>
  match f fs with
  | .ok changed => .ok () changed
  | .error e => .error e fs

def mapError {ε ε' α : Type} (f : ε → ε') (action : FileAction ε α) : FileAction ε' α :=
  fun fs =>
    match action fs with
    | .ok a changed => .ok a changed
    | .error e changed => .error (f e) changed

end FileAction

namespace Files

def trimSlashes (segments : List Segment) : List Segment :=
  (segments.reverse.dropWhile (· == [])).reverse

/-- Makes a directory. What stands at the end of the path is not followed. -/
def makeDirectory (p : Path) (fs : Files) : Except FileError Files := do
  checkPath p
  match ← fs.enter .itself p.isAbsolute (trimSlashes p.segments) with
  | .free location => .ok (fs.put location .directory)
  | _ => .error .alreadyExists

def makeLink (target p : Path) (fs : Files) : Except FileError Files := do
  match ← fs.locate .itself p with
  | .free location => .ok (fs.put location (.link target))
  | _ => .error .alreadyExists

/-- Writes a file. Links are followed, also to a place where nothing stands. -/
def write (p : Path) (content : List UInt8) (fs : Files) : Except FileError Files := do
  match ← fs.locate .writing p with
  | .free location => .ok (fs.put location (.file content))
  | .entry location (.file _) => .ok (fs.put location (.file content))
  | _ => .error .isDirectory

/-- Removes an empty directory, which must be named by the last segment of the
path. -/
def removeDirectory (p : Path) (fs : Files) : Except FileError Files := do
  checkPath p
  let segments := trimSlashes p.segments
  let above := fs.enter .target p.isAbsolute (segments.dropLast ++ [Segment.here])
  match segments.getLast? with
  | none => .error .busy
  | some [.char '.'] => do let _ ← above; .error .invalid
  | some [.char '.', .char '.'] => do let _ ← above; .error .notEmpty
  | some _ =>
    match ← fs.enter .itself p.isAbsolute segments with
    | .entry location .directory =>
      if fs.isOccupied location then .error .notEmpty else .ok (fs.erase location)
    | .entry _ _ => .error .notDirectory
    | _ => .error .missing

/-- Removes a directory in which nothing is left. It counts as removed if its path
leads nowhere by then. -/
def removeCleared (p : Path) : FileAction FileError Unit := fun fs =>
  match removeDirectory p fs with
  | .ok removed => .ok () removed
  | .error .missing => .ok () fs
  | .error e => .error e fs

/-- Removes a directory with all that is below it. Of a symbolic link only the link
is removed. What is below the directory is gone also if the directory itself
cannot be removed. -/
def removeTree (p : Path) : FileAction FileError Unit := fun fs =>
  match fs.locate .itself p with
  | .error e => .error e fs
  | .ok (.entry location (.link _)) => .ok () (fs.erase location)
  | .ok (.entry location .directory) => removeCleared p (fs.clear location)
  | .ok (.entry _ (.file _)) => .error .notDirectory fs
  | .ok (.free _) => .error .missing fs
  | .ok .removed => removeCleared p fs

/-- A path and those above it, as far as they are named. -/
def ancestors : Nat → Path → List Path
  | 0, _ => []
  | fuel + 1, p =>
    match p.parent? with
    | none => [p]
    | some above => p :: ancestors fuel above

/-- Makes the first of a list of directories, each of which is above the one before
it, and those of the others that it needs. A directory that stands already is
kept. -/
def makeFirst : List Path → FileAction FileError Unit
  | [] => pure ()
  | p :: above => fun fs =>
    if p.isEmpty then .ok () fs
    else
      match makeDirectory p fs with
      | .ok made => .ok () made
      | .error .missing =>
        match makeFirst above fs with
        | .error e changed => .error e changed
        | .ok () changed =>
          match makeDirectory p changed with
          | .ok made => .ok () made
          | .error e => if changed.isDirectory p then .ok () changed else .error e changed
      | .error e => if fs.isDirectory p then .ok () fs else .error e fs

def makeDirectories (p : Path) : FileAction FileError Unit :=
  makeFirst (ancestors (p.segments.length + 1) p)

end Files

end StaticSite
