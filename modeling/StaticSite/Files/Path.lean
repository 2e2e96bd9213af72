import StaticSite.Text.Utf8
/-!
# Paths

A path is a text whose segments are separated by slashes. A path that is given by
bytes may also have parts that are no text; they are kept as they are. Nothing is
normalised: two paths that lead to the same file may be different. The components
of a path are what its segments mean; an empty segment means nothing, and neither
does a single dot, unless the path starts with it.
-/

namespace StaticSite

/-- What stands between two slashes of a path. -/
abbrev Segment := List Utf8.Part

namespace Segment

def ofText (text : String) : Segment := text.toList.map .char

def here : Segment := [.char '.']

def up : Segment := [.char '.', .char '.']

def bytes (segment : Segment) : List UInt8 := segment.flatMap Utf8.Part.bytes

/-- Whether a segment means nothing after the start of a path. -/
def isIdle (segment : Segment) : Bool := segment == [] || segment == here

end Segment

/-- A path, absolute if it starts with a slash. -/
structure Path where
  parts : List Utf8.Part
deriving DecidableEq, Repr, Inhabited

namespace Path

def ofText (text : String) : Path := ⟨text.toList.map .char⟩

def ofBytes (bytes : List UInt8) : Path := ⟨Utf8.parts none bytes⟩

def text (p : Path) : String := String.ofList (p.parts.map Utf8.Part.shown)

@[simp] theorem text_ofText (shown : String) : (ofText shown).text = shown := by
  simp [ofText, text, Function.comp_def, Utf8.Part.shown]

def size (p : Path) : Nat := (p.parts.flatMap Utf8.Part.bytes).length

def empty : Path := ⟨[]⟩

def isEmpty (p : Path) : Bool := p.parts.isEmpty

def isAbsolute (p : Path) : Bool := p.parts.head? == some (.char '/')

/-- What stands between the slashes. The segments of an absolute path start with an
empty one, and those of a path that ends with a slash end with one. -/
def segments (p : Path) : List Segment := p.parts.splitOn (.char '/')

def ofSegments (segments : List Segment) : Path := ⟨[.char '/'].intercalate segments⟩

def ofRoot (segments : List Segment) : Path := ⟨.char '/' :: (ofSegments segments).parts⟩

/-- A path seen from another one. An absolute path stays as it is, and any other is
appended after a slash, unless there is one already or nothing to append to. -/
def join (p q : Path) : Path :=
  if q.isAbsolute then q
  else if p.isEmpty || p.parts.getLast? == some (.char '/') then ⟨p.parts ++ q.parts⟩
  else ⟨p.parts ++ .char '/' :: q.parts⟩

/-- What a segment of a path means. -/
inductive Component where
  | root
  | here
  | up
  | name (segment : Segment)
deriving DecidableEq, Repr

def Component.isName : Component → Bool
  | .name _ => true
  | _ => false

def component (segment : Segment) : Component :=
  if segment = Segment.up then .up else .name segment

def laterComponents (segments : List Segment) : List Component :=
  (segments.filter (!Segment.isIdle ·)).map component

def components (p : Path) : List Component :=
  match p.segments with
  | [] :: s :: rest => .root :: laterComponents (s :: rest)
  | [.char '.'] :: rest => .here :: laterComponents rest
  | segments => laterComponents segments

def trimEnd (segments : List Segment) : List Segment :=
  (segments.reverse.dropWhile Segment.isIdle).reverse

/-- Segments without the last one that is not idle, if there is one. -/
def dropLast? (segments : List Segment) : Option (List Segment) :=
  match trimEnd segments with
  | [] => none
  | trimmed => some (trimEnd trimmed.dropLast)

/-- The path without its last component. The root and the path without any text
have no parent; a path that is only a dot has the path without any text. -/
def parent? (p : Path) : Option Path :=
  match p.segments with
  | [] :: s :: rest => (dropLast? (s :: rest)).map ofRoot
  | [.char '.'] :: rest =>
    match dropLast? rest with
    | none => some .empty
    | some left => some (ofSegments (Segment.here :: left))
  | segments => (dropLast? segments).map ofSegments

end Path

end StaticSite
