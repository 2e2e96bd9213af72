import StaticSite.Proofs.Markup.Rendering
/-!
# Trees and their normal forms

A tree is made of leaves, lists, groups and elements, and of no finished markup.
Its normal form is what a reader of the document can know of it: the texts that
stand between two tags are one text, empty texts are gone, and lists and groups
leave nothing but their contents. A tree renders as its normal form is written
(`Tree.toList_render`).
-/

namespace StaticSite

/-- A value that is shown as a text of its own. -/
inductive Tree.Leaf where
  | null
  | text (content : String)
  | int (n : Int64)
  | float (x : Double)
  | bool (b : Bool)

def Tree.Leaf.toValue : Tree.Leaf → Value
  | .null => .null
  | .text content => .text content
  | .int n => .int n
  | .float x => .float x
  | .bool b => .bool b

/-- What is rendered without the help of finished markup. -/
inductive Tree where
  | leaf (content : Tree.Leaf)
  | list (items : List Tree)
  | group (p : Props) (children : List Tree)
  | element (tag : String) (p : Props) (children : List Tree)

/-- A part of a document as it can be told from its neighbours. -/
inductive Tree.Piece where
  | text (content : String)
  | void (tag : String) (attributes : List (String × String))
  | element (tag : String) (attributes : List (String × String)) (children : List Tree.Piece)
deriving Repr

/-- An element with nothing but its tag, the names of its attributes, and the
elements in it. -/
inductive Tree.Outline where
  | element (tag : String) (names : List String) (children : List Tree.Outline)
deriving Repr

/-!
## Pieces
-/

namespace Tree

namespace Piece

/-- Puts a text before pieces, joined to the text that they start with. -/
def prependText (content : String) : List Piece → List Piece
  | .text later :: ps => .text (content ++ later) :: ps
  | ps => if content = "" then ps else .text content :: ps

/-- Pieces without empty texts and without neighbouring texts. -/
def merge : List Piece → List Piece
  | [] => []
  | .text content :: ps => prependText content (merge ps)
  | p :: ps => p :: merge ps

mutual

def chars : Piece → List Char
  | .text content => content.toList.flatMap Markup.textReference
  | .void tag attributes => '<' :: (tag.toList ++ Node.attributeChars attributes ++ ['/', '>'])
  | .element tag attributes children =>
    '<' :: (tag.toList ++ Node.attributeChars attributes ++ '>' :: (allChars children ++
      '<' :: '/' :: (tag.toList ++ ['>'])))

def allChars : List Piece → List Char
  | [] => []
  | p :: ps => chars p ++ allChars ps

end

mutual

def outline : Piece → List Outline
  | .text _ => []
  | .void tag attributes => [.element tag (attributes.map Prod.fst) []]
  | .element tag attributes children =>
    [.element tag (attributes.map Prod.fst) (outlines children)]

def outlines : List Piece → List Outline
  | [] => []
  | p :: ps => outline p ++ outlines ps

end

theorem allChars_append (ps qs : List Piece) :
    allChars (ps ++ qs) = allChars ps ++ allChars qs := by
  induction ps with
  | nil => rfl
  | cons p ps ih =>
      simp [allChars, ih]

theorem outlines_append (ps qs : List Piece) :
    outlines (ps ++ qs) = outlines ps ++ outlines qs := by
  induction ps with
  | nil => rfl
  | cons p ps ih =>
      simp [outlines, ih]

theorem allChars_prependText (content : String) (ps : List Piece) :
    allChars (prependText content ps) =
      content.toList.flatMap Markup.textReference ++ allChars ps := by
  unfold prependText
  split
  · simp [allChars, chars]
  · by_cases h : content = ""
    · simp [h]
    · simp [h, allChars, chars]

theorem allChars_merge (ps : List Piece) : allChars (merge ps) = allChars ps := by
  induction ps with
  | nil => rfl
  | cons p ps ih =>
      cases p with
      | text content =>
          rw [merge, allChars_prependText, ih, allChars, chars]
      | void tag attributes =>
          simp [merge, allChars, ih]
      | element tag attributes children =>
          simp [merge, allChars, ih]

theorem outlines_prependText (content : String) (ps : List Piece) :
    outlines (prependText content ps) = outlines ps := by
  unfold prependText
  split
  · simp [outlines, outline]
  · by_cases h : content = ""
    · simp [h]
    · simp [h, outlines, outline]

theorem outlines_merge (ps : List Piece) : outlines (merge ps) = outlines ps := by
  induction ps with
  | nil => rfl
  | cons p ps ih =>
      cases p with
      | text content =>
          rw [merge, outlines_prependText, ih, outlines, outline, List.nil_append]
      | void tag attributes =>
          simp [merge, outlines, ih]
      | element tag attributes children =>
          simp [merge, outlines, ih]

end Piece

/-!
## Trees
-/

mutual

def toValue : Tree → Value
  | .leaf content => content.toValue
  | .list items => .list (toValues items)
  | .group p children => .markup (Node.render .fragment p (toValues children))
  | .element tag p children => .markup (Node.render (.tag tag) p (toValues children))

def toValues : List Tree → List Value
  | [] => []
  | t :: ts => toValue t :: toValues ts

end

def render (t : Tree) : String := t.toValue.render.html

mutual

/-- The pieces of a tree in order, with the texts as they come. -/
def pieces : Tree → List Piece
  | .leaf content => [.text content.toValue.displayText]
  | .list items => allPieces items
  | .group _ children => allPieces children
  | .element tag p children =>
    if Node.isVoidElement tag then [.void tag (Node.shownAttributes p.attributes)]
    else [.element tag (Node.shownAttributes p.attributes) (Piece.merge (allPieces children))]

def allPieces : List Tree → List Piece
  | [] => []
  | t :: ts => pieces t ++ allPieces ts

end

/-- What can be known of a tree from its document. -/
def normalForm (t : Tree) : List Piece := Piece.merge t.pieces

mutual

def outline : Tree → List Outline
  | .leaf _ => []
  | .list items => outlines items
  | .group _ children => outlines children
  | .element tag p children =>
    [.element tag (p.attributes.map Prod.fst)
      (if Node.isVoidElement tag then [] else outlines children)]

def outlines : List Tree → List Outline
  | [] => []
  | t :: ts => outline t ++ outlines ts

end

theorem toList_render_leaf (content : Leaf) :
    content.toValue.render.html.toList =
      content.toValue.displayText.toList.flatMap Markup.textReference := by
  cases content with
  | null =>
      simp [Leaf.toValue, Value.render, Value.displayText, Markup.empty]
  | text content => exact String.toList_ofList
  | int n => exact String.toList_ofList
  | float x => exact String.toList_ofList
  | bool b => exact String.toList_ofList

mutual

theorem toList_render_pieces (t : Tree) :
    t.toValue.render.html.toList = Piece.allChars t.pieces := by
  cases t with
  | leaf content =>
      simp [toValue, pieces, Piece.allChars, Piece.chars, toList_render_leaf]
  | list items =>
      simpa [toValue, pieces, Value.render] using toList_renderAll items
  | group p children =>
      simpa [toValue, pieces, Value.render, Node.render_fragment] using toList_renderAll children
  | element tag p children =>
      have hchildren := toList_renderAll children
      rw [toValue, Value.render, Node.toList_render_tag, Node.elementChars, pieces]
      by_cases h : Node.isVoidElement tag
      · simp [h, Piece.allChars, Piece.chars]
      · simp [h, Piece.allChars, Piece.chars, Piece.allChars_merge, hchildren]

theorem toList_renderAll (ts : List Tree) :
    (Value.renderAllInto "" (toValues ts)).toList = Piece.allChars (allPieces ts) := by
  cases ts with
  | nil => rfl
  | cons t ts =>
      rw [toValues, Value.renderAllInto_cons, String.toList_append, toList_render_pieces t,
        toList_renderAll ts, allPieces, Piece.allChars_append]

end

/-- A tree renders as its normal form is written. -/
theorem toList_render (t : Tree) : t.render.toList = Piece.allChars t.normalForm := by
  rw [render, normalForm, Piece.allChars_merge, toList_render_pieces]

mutual

theorem outlines_pieces (t : Tree) : Piece.outlines t.pieces = t.outline := by
  cases t with
  | leaf content => rfl
  | list items =>
      simpa [pieces, outline] using outlines_allPieces items
  | group p children =>
      simpa [pieces, outline] using outlines_allPieces children
  | element tag p children =>
      have hnames : (Node.shownAttributes p.attributes).map Prod.fst =
          p.attributes.map Prod.fst := by
        simp [Node.shownAttributes]
      have hchildren := outlines_allPieces children
      rw [pieces, outline]
      by_cases h : Node.isVoidElement tag
      · simp [h, Piece.outlines, Piece.outline, hnames]
      · simp [h, Piece.outlines, Piece.outline, Piece.outlines_merge, hnames, hchildren]

theorem outlines_allPieces (ts : List Tree) : Piece.outlines (allPieces ts) = outlines ts := by
  cases ts with
  | nil => rfl
  | cons t ts =>
      rw [allPieces, Piece.outlines_append, outlines_pieces t, outlines_allPieces ts, outlines]

end

theorem outlines_normalForm (t : Tree) : Piece.outlines t.normalForm = t.outline := by
  rw [normalForm, Piece.outlines_merge, outlines_pieces]

end Tree

end StaticSite
