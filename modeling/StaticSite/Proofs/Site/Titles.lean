import StaticSite.Proofs.Markup.Reading
import StaticSite.Site.Layout
/-!
# Where titles are shown

The title of a page is shown once in the document of every other page, and twice in its
own: what is around it does not depend on it. So no document stays the same if the title
changes.
-/

namespace StaticSite

variable {m n : Nat} {f g : String → List Char} {t u : String}

/-- Whether characters depend on a text by showing it, escaped, so many times. -/
inductive Shows : Nat → (String → List Char) → Prop where
  | fixed (cs : List Char) : Shows 0 fun _ => cs
  | text : Shows 1 fun title => title.toList.flatMap Markup.textReference
  | append {m n : Nat} {f g : String → List Char} :
      Shows m f → Shows n g → Shows (m + n) fun title => f title ++ g title

namespace Shows

/-!
## Showing a text is injective

Two texts change the length of what shows them by the same amount at each place, so if the
results are equal, then the texts are escaped to the same length, and the results are equal
part by part.
-/

theorem length_add (h : Shows n f) (t u : String) :
    (f t).length + n * (u.toList.flatMap Markup.textReference).length =
      (f u).length + n * (t.toList.flatMap Markup.textReference).length := by
  induction h with
  | fixed cs => simp
  | text =>
      rw [Nat.one_mul, Nat.one_mul]
      exact Nat.add_comm _ _
  | append _ _ ihf ihg =>
      simp only [List.length_append, Nat.add_mul]
      omega

theorem escaped_eq (h : Shows n f) (hn : 0 < n)
    (hlength : (t.toList.flatMap Markup.textReference).length =
      (u.toList.flatMap Markup.textReference).length) (hsame : f t = f u) :
    t.toList.flatMap Markup.textReference = u.toList.flatMap Markup.textReference := by
  induction h with
  | fixed cs => cases hn
  | text => exact hsame
  | @append m n f g hf _ ihf ihg =>
      have hlengths := hf.length_add t u
      rw [hlength] at hlengths
      rcases List.append_inj hsame (Nat.add_right_cancel hlengths) with ⟨hfirst, hsecond⟩
      rcases Nat.eq_zero_or_pos m with rfl | hm
      · exact ihg (by omega) hsecond
      · exact ihf hm hfirst

theorem injective (h : Shows n f) (hn : 0 < n) (hsame : f t = f u) : t = u := by
  have hlengths := h.length_add t u
  rw [hsame] at hlengths
  have hlength := Nat.eq_of_mul_eq_mul_left hn (Nat.add_left_cancel hlengths)
  have hescaped := h.escaped_eq hn hlength.symm hsame
  have hchars := congrArg Tree.unescape hescaped
  rw [Tree.unescape_flatMap Tree.unescape_textReference,
    Tree.unescape_flatMap Tree.unescape_textReference] at hchars
  exact String.toList_inj.mp hchars

end Shows

/-!
## Values that show a text
-/

def Value.Shows (n : Nat) (v : String → Value) : Prop :=
  StaticSite.Shows n fun title => (v title).render.html.toList

def Value.AllShow (n : Nat) (vs : String → List Value) : Prop :=
  StaticSite.Shows n fun title => (Value.renderAllInto "" (vs title)).toList

namespace Value

variable {v : String → Value} {vs : String → List Value}

theorem shows_fixed (v : Value) : Value.Shows 0 fun _ => v := StaticSite.Shows.fixed _

theorem shows_text : Value.Shows 1 Value.text := by
  have h := StaticSite.Shows.text
  simpa only [Value.Shows, Value.render, Value.displayText, Markup.toList_escapeText] using h

theorem allShow_fixed (vs : List Value) : Value.AllShow 0 fun _ => vs :=
  StaticSite.Shows.fixed _

theorem AllShow.cons (h : Value.Shows m v) (hs : Value.AllShow n vs) :
    Value.AllShow (m + n) fun title => v title :: vs title := by
  have happend := StaticSite.Shows.append h hs
  simpa only [Value.AllShow, Value.renderAllInto_cons, String.toList_append] using happend

theorem AllShow.cons_fixed (v : Value) (h : Value.AllShow n vs) :
    Value.AllShow n fun title => v :: vs title := by
  have hcons := AllShow.cons (shows_fixed v) h
  rwa [Nat.zero_add] at hcons

theorem AllShow.append_fixed (before : List Value) (h : Value.AllShow n vs) :
    Value.AllShow n fun title => before ++ vs title := by
  induction before with
  | nil => exact h
  | cons v before ih => exact ih.cons_fixed v

theorem AllShow.list (h : Value.AllShow n vs) : Value.Shows n fun title => .list (vs title) := h

theorem AllShow.element (h : Value.AllShow n vs) (p : Props) {tag : String}
    (htag : Node.isVoidElement tag = false) :
    Value.Shows n fun title => .markup (Node.render (.tag tag) p (vs title)) := by
  have hstart := StaticSite.Shows.fixed
    (Node.writeAttributes ("<" ++ tag) p.attributes ++ ">").toList
  have hend := StaticSite.Shows.fixed ("</" ++ tag ++ ">").toList
  have happend := (hstart.append h).append hend
  rw [Nat.zero_add, Nat.add_zero] at happend
  have hrender : ∀ title, (Node.render (.tag tag) p (vs title)).html.toList =
      (Node.writeAttributes ("<" ++ tag) p.attributes ++ ">").toList ++
        (renderAllInto "" (vs title)).toList ++ ("</" ++ tag ++ ">").toList := by
    intro title
    simp only [Node.render, htag, Bool.false_eq_true, if_false]
    rw [renderAllInto_eq_append]
    simp only [String.toList_append, List.append_assoc]
  simpa only [Value.Shows, render, hrender] using happend

theorem AllShow.wrap (h : Value.AllShow n vs) {tag : String}
    (htag : Node.isVoidElement tag = false) :
    Value.Shows n fun title => .markup (Node.wrap tag (vs title)) :=
  h.element .empty htag

end Value

/-!
## Documents
-/

namespace Layout

variable (before after : List Page) (page other : Page) (settings : LayoutSettings)
  (current : String)

theorem shows_navigationEntry :
    Value.Shows 1 fun title => .markup (navigationEntry current { page with title }) := by
  simp only [navigationEntry]
  by_cases h : page.url = current
  · simp only [if_pos h]
    exact (Value.AllShow.cons Value.shows_text (Value.allShow_fixed [])).wrap rfl
  · simp only [if_neg h]
    have hlink := (Value.AllShow.cons Value.shows_text (Value.allShow_fixed [])).element
      (.ofList [("href", .text page.url)]) (rfl : Node.isVoidElement "a" = false)
    exact (Value.AllShow.cons hlink (Value.allShow_fixed [])).wrap rfl

theorem shows_navigation :
    Value.Shows 1 fun title =>
      .markup (navigation (before ++ { page with title } :: after) current) := by
  have hentries := (Value.AllShow.cons (shows_navigationEntry page current)
    (Value.allShow_fixed (after.map fun other => .markup (navigationEntry current other)))
    ).append_fixed (before.map fun other => .markup (navigationEntry current other))
  have hlist := (Value.AllShow.cons hentries.list (Value.allShow_fixed [])).wrap
    (rfl : Node.isVoidElement "ul" = false)
  have hnav := (Value.AllShow.cons hlist (Value.allShow_fixed [])).wrap
    (rfl : Node.isVoidElement "nav" = false)
  simpa only [navigation, List.map_append, List.map_cons] using hnav

theorem shows_body :
    Value.Shows 1 fun title =>
      .markup (body (before ++ { page with title } :: after) settings other) :=
  (Value.AllShow.cons (shows_navigation before after page other.url)
    (Value.allShow_fixed _)).wrap rfl

theorem shows_head (stylesheets : List String) :
    Value.Shows 1 fun title => .markup (head title stylesheets) := by
  have htitle := (Value.AllShow.cons Value.shows_text (Value.allShow_fixed [])).wrap
    (rfl : Node.isVoidElement "title" = false)
  have hlinks := Value.AllShow.cons htitle
    (Value.allShow_fixed [.list (stylesheetLinks stylesheets)])
  exact ((hlinks.cons_fixed _).cons_fixed _).wrap rfl

theorem shows_html {head body : String → Markup}
    (hhead : Value.Shows m fun title => .markup (head title))
    (hbody : Value.Shows n fun title => .markup (body title)) :
    Shows (m + n) fun title => (Value.render (.list [.markup doctype,
      .markup (Node.render (.tag "html") (rootProps settings)
        [.markup (head title), .markup (body title)])])).html.toList := by
  have hboth := Value.AllShow.cons hhead (Value.AllShow.cons hbody (Value.allShow_fixed []))
  have hhtml := hboth.element (rootProps settings) (rfl : Node.isVoidElement "html" = false)
  exact ((Value.AllShow.cons hhtml (Value.allShow_fixed [])).cons_fixed (.markup doctype)).list

theorem document_shows_once :
    Shows 1 fun title =>
      (document (before ++ { page with title } :: after) settings other).html.toList :=
  shows_html settings (Value.shows_fixed (.markup (head other.title settings.stylesheets)))
    (shows_body before after page other settings)

theorem document_shows_twice :
    Shows 2 fun title =>
      (document (before ++ { page with title } :: after) settings
        { page with title }).html.toList :=
  shows_html settings (shows_head settings.stylesheets)
    (shows_body before after page page settings)

end Layout

end StaticSite
