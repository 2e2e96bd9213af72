import StaticSite.Proofs.Markup.Tree
/-!
# Reading documents back

A reader goes through a document character by character. It knows the mode that it
is in, the pieces before it in the innermost element that is open, and the
elements that enclose it. References are undone only when a text or a value ends,
so no character of a text or a value is ever taken for one of the markup.

What is written for pieces is read back as these pieces, if their names are names
and no two texts are neighbours (`Tree.read_allChars`). The document of a tree
therefore determines its normal form, and nothing else.
-/

namespace StaticSite.Tree

def delimiters : List Char := [' ', '=', '"', '<', '>', '/']

/-- Whether a text can be the name of an element or of an attribute. -/
def isName (name : String) : Bool :=
  !name.toList.isEmpty && name.toList.all fun c => !delimiters.contains c

mutual

/-- Whether all elements and attributes of a tree have names. -/
def isWellNamed : Tree → Bool
  | .leaf _ => true
  | .list items => areWellNamed items
  | .group _ children => areWellNamed children
  | .element tag p children =>
    isName tag && p.attributes.all (fun pair => isName pair.1) && areWellNamed children

def areWellNamed : List Tree → Bool
  | [] => true
  | t :: ts => isWellNamed t && areWellNamed ts

end

def startsWithText : List Piece → Bool
  | .text _ :: _ => true
  | _ => false

mutual

/-- Whether a piece can be told from what surrounds it. -/
def Piece.isReadable : Piece → Bool
  | .text content => content != ""
  | .void tag attributes => isName tag && attributes.all (fun pair => isName pair.1)
  | .element tag attributes children =>
    isName tag && attributes.all (fun pair => isName pair.1) && Piece.areReadable children

/-- Whether pieces can be told from one another: no two neighbours are texts. -/
def Piece.areReadable : List Piece → Bool
  | [] => true
  | p :: ps =>
    p.isReadable && Piece.areReadable ps && !(startsWithText [p] && startsWithText ps)

end

def unescape : List Char → List Char
  | '&' :: 'a' :: 'm' :: 'p' :: ';' :: cs => '&' :: unescape cs
  | '&' :: 'l' :: 't' :: ';' :: cs => '<' :: unescape cs
  | '&' :: 'g' :: 't' :: ';' :: cs => '>' :: unescape cs
  | '&' :: '#' :: '3' :: '9' :: ';' :: cs => '\'' :: unescape cs
  | '&' :: 'q' :: 'u' :: 'o' :: 't' :: ';' :: cs => '"' :: unescape cs
  | c :: cs => c :: unescape cs
  | [] => []

/-!
## The reader
-/

structure StartTag where
  name : String
  attributes : List (String × String) := []

/-- What is being read, and the characters of it so far. -/
inductive Mode where
  | text (raw : List Char)
  | opening
  | tagName (name : List Char)
  | attributeName (tag : StartTag) (name : List Char)
  | valueStart (tag : StartTag) (name : List Char)
  | value (tag : StartTag) (name raw : List Char)
  | valueEnd (tag : StartTag)
  | voidEnd (tag : StartTag)
  | endTag (name : List Char)

/-- A reader on its way: the pieces before it in the innermost open element, the last
one first, and the open elements with the pieces before them. -/
structure Reader where
  mode : Mode
  before : List Piece
  enclosing : List (StartTag × List Piece)

namespace Reader

def flush (raw : List Char) (before : List Piece) : List Piece :=
  if raw.isEmpty then before else .text (String.ofList (unescape raw)) :: before

def stepStartTag (r : Reader) (tag : StartTag) : Char → Option Reader
  | ' ' => some { r with mode := .attributeName tag [] }
  | '/' => some { r with mode := .voidEnd tag }
  | '>' => some ⟨.text [], [], (tag, r.before) :: r.enclosing⟩
  | _ => none

def close (r : Reader) (name : String) : Option Reader :=
  match r.enclosing with
  | (tag, before) :: enclosing =>
    if tag.name = name then
      some ⟨.text [], .element tag.name tag.attributes r.before.reverse :: before, enclosing⟩
    else none
  | [] => none

def step (r : Reader) (c : Char) : Option Reader :=
  match r.mode with
  | .text raw =>
    if c = '<' then some { r with mode := .opening, before := flush raw r.before }
    else some { r with mode := .text (raw ++ [c]) }
  | .opening => some { r with mode := if c = '/' then .endTag [] else .tagName [c] }
  | .tagName name =>
    if delimiters.contains c then r.stepStartTag ⟨String.ofList name, []⟩ c
    else some { r with mode := .tagName (name ++ [c]) }
  | .attributeName tag name =>
    if c = '=' then some { r with mode := .valueStart tag name }
    else some { r with mode := .attributeName tag (name ++ [c]) }
  | .valueStart tag name => if c = '"' then some { r with mode := .value tag name [] } else none
  | .value tag name raw =>
    if c = '"' then
      let pair := (String.ofList name, String.ofList (unescape raw))
      some { r with mode := .valueEnd { tag with attributes := tag.attributes ++ [pair] } }
    else some { r with mode := .value tag name (raw ++ [c]) }
  | .valueEnd tag => r.stepStartTag tag c
  | .voidEnd tag =>
    if c = '>' then some ⟨.text [], .void tag.name tag.attributes :: r.before, r.enclosing⟩
    else none
  | .endTag name =>
    if c = '>' then r.close (String.ofList name)
    else some { r with mode := .endTag (name ++ [c]) }

def run (r : Reader) (cs : List Char) : Option Reader := cs.foldlM step r

def finish (r : Reader) : Option (List Piece) :=
  match r.mode, r.enclosing with
  | .text raw, [] => some (flush raw r.before).reverse
  | _, _ => none

end Reader

/-- The pieces of a document, if it is one. -/
def read (document : String) : Option (List Piece) :=
  (Reader.run ⟨.text [], [], []⟩ document.toList).bind Reader.finish

/-!
## References
-/

theorem unescape_cons_of_ne {c : Char} (h : c ≠ '&') (cs : List Char) :
    unescape (c :: cs) = c :: unescape cs := by
  conv => lhs; unfold unescape
  split <;> simp_all

theorem unescape_textReference (c : Char) (cs : List Char) :
    unescape (Markup.textReference c ++ cs) = c :: unescape cs := by
  unfold Markup.textReference
  split
  · rfl
  · rfl
  · rfl
  · next hamp _ _ => exact unescape_cons_of_ne hamp cs

theorem unescape_attributeReference (c : Char) (cs : List Char) :
    unescape (Markup.attributeReference c ++ cs) = c :: unescape cs := by
  unfold Markup.attributeReference
  split
  · rfl
  · rfl
  · exact unescape_textReference c cs

theorem unescape_flatMap {reference : Char → List Char}
    (h : ∀ c cs, unescape (reference c ++ cs) = c :: unescape cs) (cs : List Char) :
    unescape (cs.flatMap reference) = cs := by
  induction cs with
  | nil => rfl
  | cons c cs ih =>
      rw [List.flatMap_cons, h, ih]

theorem ne_lt_of_mem_textReference {c d : Char} (h : d ∈ Markup.textReference c) : d ≠ '<' := by
  unfold Markup.textReference at h
  split at h <;> grind

theorem ne_quote_of_mem_attributeReference {c d : Char}
    (h : d ∈ Markup.attributeReference c) : d ≠ '"' := by
  unfold Markup.attributeReference Markup.textReference at h
  split at h
  · grind
  · grind
  · split at h <;> grind

theorem textReference_ne_nil (c : Char) : Markup.textReference c ≠ [] := by
  unfold Markup.textReference
  split <;> simp

theorem isEmpty_escaped {content : String} (h : content ≠ "") :
    (content.toList.flatMap Markup.textReference).isEmpty = false := by
  cases hcs : content.toList with
  | nil => exact absurd (String.toList_eq_nil_iff.mp hcs) h
  | cons c cs =>
      simp [textReference_ne_nil]

/-!
## Runs of the reader
-/

namespace Reader

theorem run_append (r : Reader) (cs ds : List Char) :
    run r (cs ++ ds) = (run r cs).bind fun r => run r ds := by
  simp [run, List.foldlM_append]

theorem run_cons (r : Reader) (c : Char) (cs : List Char) :
    run r (c :: cs) = (step r c).bind fun r => run r cs := by
  simp [run]

theorem run_scan (mode : List Char → Mode) (accepts : Char → Prop)
    {before : List Piece} {enclosing : List (StartTag × List Piece)}
    (hstep : ∀ acc c, accepts c →
      step ⟨mode acc, before, enclosing⟩ c = some ⟨mode (acc ++ [c]), before, enclosing⟩)
    (acc cs : List Char) (h : ∀ c ∈ cs, accepts c) :
    run ⟨mode acc, before, enclosing⟩ cs = some ⟨mode (acc ++ cs), before, enclosing⟩ := by
  induction cs generalizing acc with
  | nil => simp [run]
  | cons c cs ih =>
      rw [run_cons, hstep acc c (h c (by simp)), Option.bind_some,
        ih (acc ++ [c]) fun d hd => h d (by simp [hd])]
      simp

variable (before : List Piece) (enclosing : List (StartTag × List Piece))

theorem run_text (raw : List Char) (content : String) :
    run ⟨.text raw, before, enclosing⟩ (content.toList.flatMap Markup.textReference) =
      some ⟨.text (raw ++ content.toList.flatMap Markup.textReference), before, enclosing⟩ := by
  apply run_scan .text (· ≠ '<')
  · intro acc c hc
    simp [step, hc]
  · intro c hc
    rcases List.mem_flatMap.mp hc with ⟨d, _, hd⟩
    exact ne_lt_of_mem_textReference hd

theorem run_value (tag : StartTag) (name : List Char) (content : String) :
    run ⟨.value tag name [], before, enclosing⟩
        (content.toList.flatMap Markup.attributeReference) =
      some ⟨.value tag name (content.toList.flatMap Markup.attributeReference), before,
        enclosing⟩ := by
  apply run_scan (.value tag name) (· ≠ '"')
  · intro acc c hc
    simp [step, hc]
  · intro c hc
    rcases List.mem_flatMap.mp hc with ⟨d, _, hd⟩
    exact ne_quote_of_mem_attributeReference hd

theorem not_contains_of_isName {name : String} (h : isName name = true) :
    ∀ c ∈ name.toList, delimiters.contains c = false := by
  intro c hc
  have hall := (Bool.and_eq_true _ _ ▸ h).2
  simpa using List.all_eq_true.mp hall c hc

theorem run_attributeName (tag : StartTag) {name : String} (h : isName name = true) :
    run ⟨.attributeName tag [], before, enclosing⟩ name.toList =
      some ⟨.attributeName tag name.toList, before, enclosing⟩ := by
  apply run_scan (.attributeName tag) (delimiters.contains · = false)
  · intro acc c hc
    have hne : c ≠ '=' := by
      rintro rfl
      simp [delimiters] at hc
    simp [step, hne]
  · exact not_contains_of_isName h

theorem run_endTag {name : String} (h : isName name = true) :
    run ⟨.endTag [], before, enclosing⟩ name.toList =
      some ⟨.endTag name.toList, before, enclosing⟩ := by
  apply run_scan .endTag (delimiters.contains · = false)
  · intro acc c hc
    have hne : c ≠ '>' := by
      rintro rfl
      simp [delimiters] at hc
    simp [step, hne]
  · exact not_contains_of_isName h

theorem run_opening {name : String} (h : isName name = true) :
    run ⟨.opening, before, enclosing⟩ name.toList =
      some ⟨.tagName name.toList, before, enclosing⟩ := by
  have hchars := not_contains_of_isName h
  cases hname : name.toList with
  | nil => simp [isName, hname] at h
  | cons c cs =>
      rw [hname] at hchars
      have hne : c ≠ '/' := by
        rintro rfl
        simpa [delimiters] using hchars '/' (by simp)
      rw [run_cons, step, if_neg hne, Option.bind_some]
      refine run_scan .tagName (delimiters.contains · = false) ?_ [c] cs ?_
      · intro acc d hd
        simp only [step, hd]
        rfl
      · exact fun d hd => hchars d (by simp [hd])

theorem run_pair (tag : StartTag) {name : String} (h : isName name = true) (content : String) :
    run ⟨.valueEnd tag, before, enclosing⟩ (Node.attributeChars [(name, content)]) =
      some ⟨.valueEnd { tag with attributes := tag.attributes ++ [(name, content)] }, before,
        enclosing⟩ := by
  have hchars : Node.attributeChars [(name, content)] =
      [' '] ++ (name.toList ++ (['=', '"'] ++
        (content.toList.flatMap Markup.attributeReference ++ ['"']))) := by
    simp [Node.attributeChars]
  have hspace : run ⟨.valueEnd tag, before, enclosing⟩ [' '] =
      some ⟨.attributeName tag [], before, enclosing⟩ := rfl
  have hstart : run ⟨.attributeName tag name.toList, before, enclosing⟩ ['=', '"'] =
      some ⟨.value tag name.toList [], before, enclosing⟩ := rfl
  have hvalue : unescape (content.toList.flatMap Markup.attributeReference) = content.toList :=
    unescape_flatMap unescape_attributeReference content.toList
  rw [hchars, run_append, hspace, Option.bind_some, run_append,
    run_attributeName before enclosing tag h, Option.bind_some, run_append, hstart,
    Option.bind_some, run_append, run_value, Option.bind_some]
  simp [run, step, hvalue]

theorem run_attributes (tag : StartTag) (attributes : List (String × String))
    (h : attributes.all (fun pair => isName pair.1) = true) :
    run ⟨.valueEnd tag, before, enclosing⟩ (Node.attributeChars attributes) =
      some ⟨.valueEnd { tag with attributes := tag.attributes ++ attributes }, before,
        enclosing⟩ := by
  induction attributes generalizing tag with
  | nil => simp [Node.attributeChars, run]
  | cons pair rest ih =>
      simp only [List.all_cons, Bool.and_eq_true] at h
      have hchars : Node.attributeChars (pair :: rest) =
          Node.attributeChars [pair] ++ Node.attributeChars rest := by
        simp [Node.attributeChars]
      rw [hchars, run_append, run_pair before enclosing tag h.1, Option.bind_some, ih _ h.2]
      simp

theorem run_startTag {name : String} (hname : isName name = true)
    {attributes : List (String × String)}
    (h : attributes.all (fun pair => isName pair.1) = true)
    {c : Char} (hc : delimiters.contains c = true) (cs : List Char) :
    run ⟨.opening, before, enclosing⟩
        (name.toList ++ Node.attributeChars attributes ++ c :: cs) =
      run ⟨.valueEnd ⟨name, attributes⟩, before, enclosing⟩ (c :: cs) := by
  have hname' : ∀ d ds, delimiters.contains d = true →
      run ⟨.tagName name.toList, before, enclosing⟩ (d :: ds) =
        run ⟨.valueEnd ⟨name, []⟩, before, enclosing⟩ (d :: ds) := by
    intro d ds hd
    rw [run_cons, run_cons]
    simp only [step, hd, if_true, String.ofList_toList]
    rfl
  rw [List.append_assoc, run_append, run_opening before enclosing hname, Option.bind_some]
  cases attributes with
  | nil => exact hname' c cs hc
  | cons pair rest =>
      have hchars : Node.attributeChars (pair :: rest) ++ c :: cs =
          ' ' :: (Node.attributeChars (pair :: rest) ++ c :: cs).tail := by
        simp [Node.attributeChars]
      rw [hchars, hname' ' ' _ rfl, ← hchars, run_append, run_attributes before enclosing _ _ h]
      simp

theorem run_void {name : String} (hname : isName name = true)
    {attributes : List (String × String)}
    (h : attributes.all (fun pair => isName pair.1) = true) (raw : List Char) :
    run ⟨.text raw, before, enclosing⟩ (Piece.chars (.void name attributes)) =
      some ⟨.text [], .void name attributes :: flush raw before, enclosing⟩ := by
  have hopen : step ⟨.text raw, before, enclosing⟩ '<' =
      some ⟨.opening, flush raw before, enclosing⟩ := rfl
  rw [Piece.chars, run_cons, hopen, Option.bind_some, run_startTag _ _ hname h rfl]
  rfl

/-- An element that follows a text ends it, and is put before what is read next, if its
children are read from nothing. -/
theorem run_element {name : String} {attributes : List (String × String)}
    {children before' : List Piece} {raw' : List Char} (hname : isName name = true)
    (hattributes : attributes.all (fun pair => isName pair.1) = true) (raw : List Char)
    (hrun : run ⟨.text [], [], (⟨name, attributes⟩, flush raw before) :: enclosing⟩
        (Piece.allChars children) =
      some ⟨.text raw', before', (⟨name, attributes⟩, flush raw before) :: enclosing⟩)
    (hflush : flush raw' before' = children.reverse) :
    run ⟨.text raw, before, enclosing⟩ (Piece.chars (.element name attributes children)) =
      some ⟨.text [], .element name attributes children :: flush raw before, enclosing⟩ := by
  have hopen : step ⟨.text raw, before, enclosing⟩ '<' =
      some ⟨.opening, flush raw before, enclosing⟩ := rfl
  have hstart : ∀ r : Reader, r.mode = .valueEnd ⟨name, attributes⟩ →
      step r '>' = some ⟨.text [], [], (⟨name, attributes⟩, r.before) :: r.enclosing⟩ := by
    intro r hr
    simp [step, hr, stepStartTag]
  rw [Piece.chars, run_cons, hopen, Option.bind_some, run_startTag _ _ hname hattributes rfl,
    run_cons, hstart _ rfl, Option.bind_some, run_append, hrun, Option.bind_some, run_cons]
  have hclosing :
      step ⟨.text raw', before', (⟨name, attributes⟩, flush raw before) :: enclosing⟩ '<' =
        some ⟨.opening, children.reverse, (⟨name, attributes⟩, flush raw before) :: enclosing⟩ := by
    rw [← hflush]
    rfl
  have hslash : ∀ before' enclosing', step ⟨.opening, before', enclosing'⟩ '/' =
      some ⟨.endTag [], before', enclosing'⟩ := fun _ _ => rfl
  rw [hclosing, Option.bind_some, run_cons, hslash, Option.bind_some, run_append,
    run_endTag _ _ hname, Option.bind_some]
  simp [run, step, close]

/-- Pieces are read in their order, after a text that they do not go on with. -/
theorem run_pieces (ps : List Piece) (h : Piece.areReadable ps = true) (raw : List Char)
    (before : List Piece) (enclosing : List (StartTag × List Piece))
    (hraw : raw = [] ∨ startsWithText ps = false) :
    ∃ raw' before', run ⟨.text raw, before, enclosing⟩ (Piece.allChars ps) =
      some ⟨.text raw', before', enclosing⟩ ∧
        flush raw' before' = ps.reverse ++ flush raw before := by
  cases ps with
  | nil => exact ⟨raw, before, rfl, rfl⟩
  | cons p ps =>
      simp only [Piece.areReadable, Bool.and_eq_true] at h
      rcases h with ⟨⟨hp, hps⟩, halternate⟩
      rw [Piece.allChars, run_append]
      cases p with
      | text content =>
          obtain rfl : raw = [] := by simpa [startsWithText] using hraw
          have hne : content ≠ "" := by simpa [Piece.isReadable] using hp
          have hrest : startsWithText ps = false := by simpa [startsWithText] using halternate
          obtain ⟨raw', before', hrun, hflush⟩ :=
            run_pieces ps hps (content.toList.flatMap Markup.textReference) before enclosing
              (Or.inr hrest)
          refine ⟨raw', before', ?_, ?_⟩
          · rw [Piece.chars, run_text, Option.bind_some, List.nil_append]
            exact hrun
          · rw [hflush, flush, isEmpty_escaped hne, unescape_flatMap unescape_textReference]
            simp [flush]
      | void name attributes =>
          simp only [Piece.isReadable, Bool.and_eq_true] at hp
          obtain ⟨raw', before', hrun, hflush⟩ :=
            run_pieces ps hps [] (.void name attributes :: flush raw before) enclosing
              (Or.inl rfl)
          refine ⟨raw', before', ?_, ?_⟩
          · rw [run_void _ _ hp.1 hp.2, Option.bind_some]
            exact hrun
          · simpa [flush] using hflush
      | element name attributes children =>
          simp only [Piece.isReadable, Bool.and_eq_true] at hp
          rcases hp with ⟨⟨hname, hattributes⟩, hchildren⟩
          obtain ⟨raw', before', hinner, hinner'⟩ :=
            run_pieces children hchildren [] []
              ((⟨name, attributes⟩, flush raw before) :: enclosing) (Or.inl rfl)
          have helement := run_element before enclosing hname hattributes raw hinner
            (by simpa [flush] using hinner')
          obtain ⟨raw'', before'', hrun, hflush⟩ :=
            run_pieces ps hps [] (.element name attributes children :: flush raw before) enclosing
              (Or.inl rfl)
          refine ⟨raw'', before'', ?_, ?_⟩
          · rw [helement, Option.bind_some]
            exact hrun
          · simpa [flush] using hflush
termination_by sizeOf ps

end Reader

/-- What is written for readable pieces is read back as these pieces. -/
theorem read_allChars (ps : List Piece) (h : Piece.areReadable ps = true) :
    read (String.ofList (Piece.allChars ps)) = some ps := by
  rcases Reader.run_pieces ps h [] [] [] (Or.inl rfl) with ⟨raw, before, hrun, hflush⟩
  have hall : Reader.flush raw before = ps.reverse := by
    simpa [Reader.flush] using hflush
  rw [read, String.toList_ofList, hrun, Option.bind_some]
  simp [Reader.finish, hall]

/-!
## Normal forms are readable
-/

theorem areReadable_prependText (content : String) {ps : List Piece}
    (h : Piece.areReadable ps = true) :
    Piece.areReadable (Piece.prependText content ps) = true := by
  unfold Piece.prependText
  split
  · simp_all [Piece.areReadable, Piece.isReadable, startsWithText]
  · next hstart =>
      by_cases hc : content = ""
      · simpa [hc] using h
      · have hrest : startsWithText ps = false := by
          unfold startsWithText
          split
          · exact absurd rfl (hstart _ _)
          · rfl
        simp [hc, Piece.areReadable, Piece.isReadable, h, hrest]

theorem areReadable_merge (ps : List Piece)
    (h : ∀ p ∈ ps, startsWithText [p] = true ∨ p.isReadable = true) :
    Piece.areReadable (Piece.merge ps) = true := by
  induction ps with
  | nil => rfl
  | cons p ps ih =>
      have hrest := ih fun q hq => h q (by simp [hq])
      have hp := h p (by simp)
      cases p with
      | text content => exact areReadable_prependText content hrest
      | void tag attributes =>
          simpa [Piece.merge, Piece.areReadable, hrest, startsWithText] using hp
      | element tag attributes children =>
          simpa [Piece.merge, Piece.areReadable, hrest, startsWithText] using hp

mutual

theorem isReadable_of_mem_pieces (t : Tree) (h : t.isWellNamed = true) :
    ∀ p ∈ t.pieces, startsWithText [p] = true ∨ p.isReadable = true := by
  cases t with
  | leaf content =>
      simp [pieces, startsWithText]
  | list items =>
      simpa [pieces] using isReadable_of_mem_allPieces items (by simpa [isWellNamed] using h)
  | group p children =>
      simpa [pieces] using isReadable_of_mem_allPieces children (by simpa [isWellNamed] using h)
  | element tag p children =>
      simp only [isWellNamed, Bool.and_eq_true] at h
      rcases h with ⟨⟨htag, hattributes⟩, hchildren⟩
      have hshown : (Node.shownAttributes p.attributes).all (fun pair => isName pair.1) = true := by
        simpa [Node.shownAttributes, Function.comp_def] using hattributes
      have hmerged := areReadable_merge _ (isReadable_of_mem_allPieces children hchildren)
      intro q hq
      by_cases hvoid : Node.isVoidElement tag
      · simp only [pieces, hvoid, if_true, List.mem_singleton] at hq
        simp [hq, Piece.isReadable, htag, hshown]
      · simp only [pieces, hvoid, Bool.false_eq_true, if_false, List.mem_singleton] at hq
        simp [hq, Piece.isReadable, htag, hshown, hmerged]

theorem isReadable_of_mem_allPieces (ts : List Tree) (h : areWellNamed ts = true) :
    ∀ p ∈ allPieces ts, startsWithText [p] = true ∨ p.isReadable = true := by
  cases ts with
  | nil => simp [allPieces]
  | cons t ts =>
      simp only [areWellNamed, Bool.and_eq_true] at h
      intro p hp
      rw [allPieces, List.mem_append] at hp
      rcases hp with hp | hp
      · exact isReadable_of_mem_pieces t h.1 p hp
      · exact isReadable_of_mem_allPieces ts h.2 p hp

end

/-- The document of a tree is read back as its normal form. -/
theorem read_render (t : Tree) (h : t.isWellNamed = true) : read t.render = some t.normalForm := by
  rw [← String.ofList_toList (s := t.render), toList_render]
  exact read_allChars _ (areReadable_merge _ (isReadable_of_mem_pieces t h))

/-- Trees have the same document if and only if they have the same normal form. The
tags and the names of attributes that are read off a document are those of the tree
itself, whatever its texts and the values of its attributes hold. -/
theorem render_uniquely_readable (t u : Tree) (ht : t.isWellNamed = true)
    (hu : u.isWellNamed = true) :
    (t.render = u.render ↔ t.normalForm = u.normalForm) ∧
      read t.render = some t.normalForm ∧
      (read t.render).map Piece.outlines = some t.outline := by
  have hread := read_render t ht
  refine ⟨⟨?_, ?_⟩, hread, ?_⟩
  · intro hrender
    have hsame : some t.normalForm = some u.normalForm := by
      rw [← hread, ← read_render u hu, hrender]
    exact Option.some.inj hsame
  · intro hnormal
    have hchars : t.render.toList = u.render.toList := by
      rw [toList_render, toList_render, hnormal]
    exact String.toList_inj.mp hchars
  · rw [hread, Option.map_some, outlines_normalForm]

theorem render_uniquely_readable_forged :
    let forged : Props := .ofList [("title", .text "\"><br/>")]
    let t : Tree := .element "p" forged
      [.list [.leaf (.text "</p"), .leaf .null], .group .empty [.leaf (.text ">")]]
    let u : Tree := .element "p" forged [.leaf (.text "</p>")]
    (t.isWellNamed = true ∧ u.isWellNamed = true) ∧
      (t.render = u.render ↔ t.normalForm = u.normalForm) ∧
      read t.render = some t.normalForm ∧
      (read t.render).map Piece.outlines = some [.element "p" ["title"] []] :=
  ⟨⟨by decide, by decide⟩, render_uniquely_readable _ _ (by decide) (by decide)⟩

end StaticSite.Tree
