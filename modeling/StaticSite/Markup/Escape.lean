/-!
# Escaping

Text is written into a document in two places: between tags, and inside a
double-quoted attribute value. Each has its own set of characters that may not
stand for themselves. Escaping replaces every character once and independently
of its neighbours, so a reference that was produced is never escaped again.
-/

namespace StaticSite.Markup

/-- What stands for a character between tags: `&`, `<` and `>` become entity
references. -/
def textReference : Char → List Char
  | '&' => ['&', 'a', 'm', 'p', ';']
  | '<' => ['&', 'l', 't', ';']
  | '>' => ['&', 'g', 't', ';']
  | c => [c]

/-- What stands for a character inside a quoted attribute value: as between
tags, and both quotes become entity references. -/
def attributeReference : Char → List Char
  | '\'' => ['&', '#', '3', '9', ';']
  | '"' => ['&', 'q', 'u', 'o', 't', ';']
  | c => textReference c

def escapeText (text : String) : String :=
  String.ofList (text.toList.flatMap textReference)

def escapeAttribute (text : String) : String :=
  String.ofList (text.toList.flatMap attributeReference)

@[simp] theorem toList_escapeText (text : String) :
    (escapeText text).toList = text.toList.flatMap textReference := by
  simp [escapeText]

@[simp] theorem toList_escapeAttribute (text : String) :
    (escapeAttribute text).toList = text.toList.flatMap attributeReference := by
  simp [escapeAttribute]

theorem escapeText_append (text later : String) :
    escapeText (text ++ later) = escapeText text ++ escapeText later := by
  rw [← String.toList_inj]
  simp

theorem escapeAttribute_append (text later : String) :
    escapeAttribute (text ++ later) = escapeAttribute text ++ escapeAttribute later := by
  rw [← String.toList_inj]
  simp

end StaticSite.Markup
