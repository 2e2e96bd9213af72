import StaticSite.Files.Basic
import StaticSite.Files.Error
/-!
# Walking along paths

A path leads to a place, segment by segment. An idle segment stays in the
directory that was reached, two dots lead to the directory above it, and a name
leads to what the directory holds under it. A symbolic link on the way is
replaced by its target; at the end of a path that depends on what the place is
wanted for. Of a walk 40 links at most are followed.
-/

namespace StaticSite

/-- What the place at the end of a path is wanted for: what it leads to, what it is
itself, or a file that is written there. -/
inductive Purpose where
  | target
  | itself
  | writing
deriving DecidableEq, Repr

/-- Where a path leads: to an entry, to a location in a directory at which nothing
stands, or to the removed working directory. -/
inductive Place where
  | entry (location : Location) (entry : Entry)
  | free (location : Location)
  | removed
deriving DecidableEq, Repr

/-- Whether a name cannot be what is wanted because of the segments after it: a file
that is written has no slashes after its name. -/
def Purpose.refuses (purpose : Purpose) (rest : List Segment) : Bool :=
  purpose == .writing && rest != [] && rest.all (· == [])

namespace Files

def nameLimit : Nat := 255

def pathLimit : Nat := 4095

def linkLimit : Nat := 40

/-- Walks from a directory along segments. `onLink` goes on at a link, given its
directory, its target and the segments after it. A name that is followed only by
slashes must be a directory. -/
def walkSegments (fs : Files) (purpose : Purpose)
    (onLink : Location → Path → List Segment → Except FileError Place) :
    Location → List Segment → Except FileError Place
  | current, [] => .ok (.entry current .directory)
  | current, segment :: rest =>
    if Segment.isIdle segment then walkSegments fs purpose onLink current rest
    else if segment = Segment.up then walkSegments fs purpose onLink current.dropLast rest
    else if purpose.refuses rest then .error .isDirectory
    else if nameLimit < (Segment.bytes segment).length then .error .nameTooLong
    else
      match fs.find? (current ++ [segment]) with
      | none => if rest = [] then .ok (.free (current ++ [segment])) else .error .missing
      | some .directory => walkSegments fs purpose onLink (current ++ [segment]) rest
      | some (.file content) =>
        if rest = [] then .ok (.entry (current ++ [segment]) (.file content))
        else .error .notDirectory
      | some (.link target) =>
        if rest = [] ∧ purpose = .itself then .ok (.entry (current ++ [segment]) (.link target))
        else onLink current target rest

/-- Walks on from a link, given its directory, its target and the segments after it.
The number says how many links may still be followed. -/
def followLink (fs : Files) (purpose : Purpose) :
    Nat → Location → Path → List Segment → Except FileError Place
  | 0, _, _, _ => .error .tooManyLinks
  | links + 1, current, target, rest =>
    walkSegments fs purpose (followLink fs purpose links)
      (if target.isAbsolute then [] else current) (target.segments ++ rest)

def walk (fs : Files) (purpose : Purpose) (current : Location) (segments : List Segment) :
    Except FileError Place :=
  walkSegments fs purpose (followLink fs purpose linkLimit) current segments

/-- Walks from the removed working directory, which holds nothing, along
segments. -/
def walkRemoved (fs : Files) (purpose : Purpose) (above : Location) :
    Nat → List Segment → Except FileError Place
  | _, [] => .ok .removed
  | levels, segment :: rest =>
    if Segment.isIdle segment then walkRemoved fs purpose above levels rest
    else if segment = Segment.up then
      match levels with
      | 0 => walk fs purpose above rest
      | levels + 1 => walkRemoved fs purpose above levels rest
    else if purpose.refuses rest then .error .isDirectory
    else .error .missing

/-- Walks along segments, which start at the root or at the working directory. -/
def enter (fs : Files) (purpose : Purpose) (isAbsolute : Bool) (segments : List Segment) :
    Except FileError Place :=
  if isAbsolute then walk fs purpose [] segments
  else
    match fs.workingDirectory with
    | .standing location => walk fs purpose location segments
    | .removed levels above => walkRemoved fs purpose above levels segments

/-- Refuses a path that leads nowhere because of what is written in it. -/
def checkParts (p : Path) : Except FileError Unit :=
  if p.parts.contains (.char '\x00') then .error .nulInPath
  else if p.isEmpty then .error .missing
  else .ok ()

def checkPath (p : Path) : Except FileError Unit := do
  checkParts p
  if pathLimit < p.size then .error .nameTooLong else .ok ()

def locate (fs : Files) (purpose : Purpose) (p : Path) : Except FileError Place := do
  checkPath p
  enter fs purpose p.isAbsolute p.segments

end Files

end StaticSite
