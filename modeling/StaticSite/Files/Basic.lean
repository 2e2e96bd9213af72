import StaticSite.Association
import StaticSite.Files.Path
/-!
# Files

All files, directories and symbolic links by their location: the names that lead
to them from the root. The root itself is always a directory and is not listed.
Every other location with an entry lies in a directory (`Files.WellFormed`).

The working directory is a location too, unless it was removed. It can still be
left upwards then, through the directories removed with it and on to one that
stands.

The view of all files is `Files.find?`; the lemmas at the end say what each change
does to it.
-/

namespace StaticSite

/-- The names that lead from the root to a place. -/
abbrev Location := List Segment

/-- The order of names by their bytes, and of each name before those that it
begins. -/
def Segment.precedes (a b : Segment) : Bool :=
  List.lex a.bytes b.bytes fun x y => decide (x.toNat < y.toNat)

/-- The order of locations: name by name, and each location before those below it. -/
def Location.precedes : Location → Location → Bool
  | [], _ => true
  | _ :: _, [] => false
  | a :: as, b :: bs => Segment.precedes a b || (a == b && Location.precedes as bs)

/-- What stands at a location. The target of a symbolic link may be missing. -/
inductive Entry where
  | file (content : List UInt8)
  | link (target : Path)
  | directory
deriving DecidableEq, Repr

/-- The directory in which relative paths start. Of one that was removed it is known
how many directories above it were removed as well, and where the nearest one is
that stands. -/
inductive WorkingDirectory where
  | standing (location : Location)
  | removed (levels : Nat) (above : Location)
deriving DecidableEq, Repr

def WorkingDirectory.base : WorkingDirectory → Location
  | .standing location => location
  | .removed _ above => above

/-- All files with the working directory. -/
structure Files where
  entries : List (Location × Entry) := []
  workingDirectory : WorkingDirectory := .standing []
deriving DecidableEq, Repr

namespace Files

def find? (fs : Files) (location : Location) : Option Entry :=
  if location = [] then some .directory else fs.entries.lookup location

/-- Every location is listed once, is not the root, and lies in a directory. The working
directory is a directory, or can be left to one. -/
structure WellFormed (fs : Files) : Prop where
  nodup : (fs.entries.map Prod.fst).Nodup
  ne_root : ∀ location ∈ fs.entries.map Prod.fst, location ≠ []
  parent : ∀ location ∈ fs.entries.map Prod.fst, fs.find? location.dropLast = some .directory
  base : fs.find? fs.workingDirectory.base = some .directory

def put (fs : Files) (location : Location) (entry : Entry) : Files :=
  { fs with entries := Association.put location entry fs.entries }

def isBelow (location above : Location) : Bool := above.isPrefixOf location && location != above

/-- The working directory after the removal of all that is below a location. -/
def clearWorkingDirectory (location : Location) : WorkingDirectory → WorkingDirectory
  | .standing place =>
    if isBelow place location then .removed (place.length - location.length - 1) location
    else .standing place
  | .removed levels above =>
    if isBelow above location then .removed (levels + (above.length - location.length)) location
    else .removed levels above

/-- The working directory after the removal of an empty directory. -/
def eraseWorkingDirectory (location : Location) : WorkingDirectory → WorkingDirectory
  | .standing place => if place = location then .removed 0 location.dropLast else .standing place
  | .removed levels above =>
    if above = location then .removed (levels + 1) location.dropLast else .removed levels above

def clear (fs : Files) (location : Location) : Files where
  entries := fs.entries.filter fun pair => !isBelow pair.1 location
  workingDirectory := clearWorkingDirectory location fs.workingDirectory

/-- The files without what is at a location. Nothing may be below it. -/
def erase (fs : Files) (location : Location) : Files where
  entries := fs.entries.filter fun pair => pair.1 != location
  workingDirectory := eraseWorkingDirectory location fs.workingDirectory

def isOccupied (fs : Files) (location : Location) : Bool :=
  fs.entries.any fun pair => isBelow pair.1 location

@[simp] theorem find?_root (fs : Files) : fs.find? [] = some .directory := by
  simp [find?]

theorem find?_put_self (fs : Files) {location : Location} (entry : Entry) (h : location ≠ []) :
    (fs.put location entry).find? location = some entry := by
  simp [find?, put, h, Association.lookup_put_self]

theorem find?_put_of_ne (fs : Files) {location other : Location} (entry : Entry)
    (h : other ≠ location) : (fs.put location entry).find? other = fs.find? other := by
  simp [find?, put, Association.lookup_put_of_ne _ _ h]

theorem find?_clear (fs : Files) (location other : Location) :
    (fs.clear location).find? other =
      if isBelow other location then none else fs.find? other := by
  by_cases hr : other = []
  · subst hr
    cases location <;> simp [isBelow]
  · by_cases h : isBelow other location <;>
      simp [find?, clear, hr, h, Association.lookup_filter fun place => !isBelow place location]

theorem find?_erase (fs : Files) {location : Location} (other : Location) (h : location ≠ []) :
    (fs.erase location).find? other = if other = location then none else fs.find? other := by
  by_cases hr : other = []
  · subst hr
    simp [h.symm]
  · by_cases ho : other = location
    · simp [find?, erase, h, ho, Association.lookup_filter fun place => place != location]
    · simp [find?, erase, hr, ho, Association.lookup_filter fun place => place != location]

end Files

end StaticSite
