import StaticSite.Config.Basic
/-!
# Dollars outside of references

In a text with a reference in braces, what stands before and after the reference is read
for references as well. A dollar there stands for itself unless another dollar or a
character of a name comes after it.
-/

namespace StaticSite

namespace Template

variable {env : Environment} {cs : List Char}

/-- Whether a text has no opening brace after a dollar. -/
def HasNoBraces (cs : List Char) : Prop := ¬ ['$', '\x7b'] <:+: cs

/-- Whether no dollar has another one or a character of a name after it. -/
def IsBare (cs : List Char) : Prop :=
  ∀ c, ['$', c] <:+: cs → c ≠ '$' ∧ isNameChar c = false

/-!
## Pairs of characters
-/

theorem pair_infix_cons {x y c : Char} (h : c ≠ x) :
    [x, y] <:+: c :: cs ↔ [x, y] <:+: cs := by
  rw [List.infix_cons_iff]
  constructor
  · intro hpair
    rcases hpair with hpair | hpair
    · exact absurd (List.cons_prefix_cons.mp hpair).1 h.symm
    · exact hpair
  · exact Or.inr

theorem pair_infix_cons_self {x y : Char} :
    [x, y] <:+: x :: cs ↔ cs.head? = some y ∨ [x, y] <:+: cs := by
  rw [List.infix_cons_iff, List.cons_prefix_cons]
  cases cs with
  | nil => simp
  | cons d cs =>
      simp [eq_comm]

theorem HasNoBraces.of_suffix {rest : List Char} (h : HasNoBraces cs) (hrest : rest <:+ cs) :
    HasNoBraces rest := by
  intro hpair
  exact h (hpair.trans hrest.isInfix)

theorem isBare_cons {c : Char} (h : c ≠ '$') : IsBare (c :: cs) ↔ IsBare cs := by
  simp only [IsBare, pair_infix_cons h]

theorem isBare_dollar :
    IsBare ('$' :: cs) ↔
      (∀ c, cs.head? = some c → c ≠ '$' ∧ isNameChar c = false) ∧ IsBare cs := by
  simp only [IsBare, pair_infix_cons_self]
  constructor
  · intro h
    constructor
    · intro c hc
      exact h c (Or.inl hc)
    · intro c hc
      exact h c (Or.inr hc)
  · intro h c hc
    rcases hc with hc | hc
    · exact h.1 c hc
    · exact h.2 c hc

theorem hasReference_eq_false (h : HasNoBraces cs) : hasReference cs = false := by
  induction cs with
  | nil => rfl
  | cons c cs ih =>
      have hcs := ih (h.of_suffix (List.suffix_cons c cs))
      unfold hasReference
      split
      · next rest heq =>
          rcases List.cons_eq_cons.mp heq with ⟨rfl, rfl⟩
          exact absurd (List.prefix_append ['$', '\x7b'] rest).isInfix h
      · next heq =>
          rcases List.cons_eq_cons.mp heq with ⟨rfl, rfl⟩
          exact hcs
      · rfl

theorem hasReference_append (cs rest : List Char) :
    hasReference (cs ++ '$' :: '\x7b' :: rest) = true := by
  induction cs with
  | nil => rfl
  | cons c cs ih =>
      rw [List.cons_append]
      unfold hasReference
      split
      · rfl
      · next heq =>
          rcases List.cons_eq_cons.mp heq with ⟨rfl, rfl⟩
          exact ih
      · next heq => cases heq

theorem getLast?_of_suffix {rest : List Char} {c : Char} (hrest : rest <:+ cs)
    (h : rest.getLast? = some c) : cs.getLast? = some c := by
  rcases hrest with ⟨front, rfl⟩
  rw [List.getLast?_append, h, Option.some_or]

theorem takeWhile_append_cons {p : Char → Bool} {d : Char} (h : p d = false)
    (cs rest : List Char) : (cs ++ d :: rest).takeWhile p = cs.takeWhile p := by
  induction cs with
  | nil => simp [h]
  | cons c cs ih => by_cases hc : p c <;> simp [hc, ih]

theorem dropWhile_append_cons {p : Char → Bool} {d : Char} (h : p d = false)
    (cs rest : List Char) : (cs ++ d :: rest).dropWhile p = cs.dropWhile p ++ d :: rest := by
  induction cs with
  | nil => simp [h]
  | cons c cs ih => by_cases hc : p c <;> simp [hc, ih]

/-!
## What is read
-/

theorem isNameChar_dollar : isNameChar '$' = false := by
  decide +kernel

theorem isNameChar_brace : isNameChar '\x7b' = false := by
  decide +kernel

theorem scan_char {c : Char} (h : c ≠ '$') (cs : List Char) :
    scan (c :: cs) = .literal [c] :: scan cs := by
  rw [scan]
  · intro rest hc _
    exact h hc
  · intro rest hc _
    exact h hc
  · exact h

theorem scan_dollars (cs : List Char) : scan ('$' :: '$' :: cs) = .literal ['$'] :: scan cs := by
  rw [scan]

theorem scan_lone (h : ∀ c, cs.head? = some c → c ≠ '\x7b' ∧ c ≠ '$' ∧ isNameChar c = false) :
    scan ('$' :: cs) = .literal ['$'] :: scan cs := by
  have hname : cs.takeWhile isNameChar = [] := by
    cases cs with
    | nil => rfl
    | cons c cs => exact List.takeWhile_cons_of_neg (by simp [(h c rfl).2.2])
  rw [scan]
  · rw [if_pos hname]
  · intro rest hcs
    exact (h '\x7b' (by rw [hcs, List.head?_cons])).1 rfl
  · intro rest hcs
    exact (h '$' (by rw [hcs, List.head?_cons])).2.1 rfl

theorem scan_name {c : Char} (h : isNameChar c = true) (cs : List Char) :
    scan ('$' :: c :: cs) =
      .reference (String.ofList (c :: cs.takeWhile isNameChar)) none ::
        scan (cs.dropWhile isNameChar) := by
  have hname : (c :: cs).takeWhile isNameChar = c :: cs.takeWhile isNameChar :=
    List.takeWhile_cons_of_pos h
  rw [scan]
  · rw [hname, if_neg (List.cons_ne_nil _ _), List.dropWhile_cons_of_pos h]
  · intro rest hcs
    rcases List.cons_eq_cons.mp hcs with ⟨rfl, -⟩
    rw [isNameChar_brace] at h
    cases h
  · intro rest hcs
    rcases List.cons_eq_cons.mp hcs with ⟨rfl, -⟩
    rw [isNameChar_dollar] at h
    cases h

/-- How a text without braces after dollars is read. -/
inductive Plain : List Char → Prop where
  | nil : Plain []
  | char {c : Char} {cs : List Char} : c ≠ '$' → Plain cs → Plain (c :: cs)
  | dollars {cs : List Char} : Plain cs → Plain ('$' :: '$' :: cs)
  | lone {cs : List Char} :
      (∀ c, cs.head? = some c → c ≠ '\x7b' ∧ c ≠ '$' ∧ isNameChar c = false) →
      Plain cs → Plain ('$' :: cs)
  | name {c : Char} {cs : List Char} :
      isNameChar c = true → Plain (cs.dropWhile isNameChar) → Plain ('$' :: c :: cs)

theorem HasNoBraces.plain (h : HasNoBraces cs) : Plain cs := by
  induction cs using scan.induct with
  | case1 => exact .nil
  | case2 cs _ _ => exact absurd (List.prefix_append ['$', '\x7b'] cs).isInfix h
  | case3 cs _ _ => exact absurd (List.prefix_append ['$', '\x7b'] cs).isInfix h
  | case4 cs ih => exact .dollars (ih (h.of_suffix (List.suffix_append ['$', '$'] cs)))
  | case5 cs hbrace hdollar hname ih =>
      apply Plain.lone
      · intro c hc
        rcases List.head?_eq_some_iff.mp hc with ⟨rest, rfl⟩
        refine ⟨fun hcs => hbrace rest (by rw [hcs]), fun hcs => hdollar rest (by rw [hcs]), ?_⟩
        rw [Bool.eq_false_iff]
        intro hc
        rw [List.takeWhile_cons_of_pos hc] at hname
        cases hname
      · exact ih (h.of_suffix (List.suffix_cons _ cs))
  | case6 cs hbrace hdollar hname ih =>
      cases cs with
      | nil => exact absurd rfl hname
      | cons c cs =>
          have hc : isNameChar c = true := by
            cases hc : isNameChar c with
            | true => rfl
            | false => exact absurd (List.takeWhile_cons_of_neg (by simp [hc])) hname
          rw [List.dropWhile_cons_of_pos hc] at ih
          apply Plain.name hc
          apply ih
          exact h.of_suffix ((List.dropWhile_suffix _).trans (List.suffix_append ['$', c] cs))
  | case7 c cs _ _ hc ih => exact .char hc (ih (h.of_suffix (List.suffix_cons c cs)))

theorem Plain.scan_append_dollar (h : Plain cs) (hlast : cs.getLast? ≠ some '$')
    (rest : List Char) : scan (cs ++ '$' :: rest) = scan cs ++ scan ('$' :: rest) := by
  induction h with
  | nil => rw [scan, List.nil_append, List.nil_append]
  | @char c cs hc hcs ih =>
      rw [List.cons_append, scan_char hc, scan_char hc, List.cons_append]
      by_cases hne : cs = []
      · subst hne
        rw [scan, List.nil_append, List.nil_append]
      · rw [List.getLast?_cons_of_ne_nil hne] at hlast
        rw [ih hlast]
  | @dollars cs _ ih =>
      have hne : cs ≠ [] := by
        rintro rfl
        exact hlast rfl
      rw [List.getLast?_cons_of_ne_nil (by simp), List.getLast?_cons_of_ne_nil hne] at hlast
      rw [List.cons_append, List.cons_append, scan_dollars, scan_dollars, ih hlast,
        List.cons_append]
  | @lone cs hhead _ ih =>
      have hne : cs ≠ [] := by
        rintro rfl
        exact hlast rfl
      rw [List.getLast?_cons_of_ne_nil hne] at hlast
      have hhead' : (cs ++ '$' :: rest).head? = cs.head? := by
        rw [List.head?_append, List.head?_eq_some_head hne, Option.some_or]
      rw [List.cons_append, scan_lone hhead, scan_lone (hhead' ▸ hhead), ih hlast,
        List.cons_append]
  | @name c cs hc _ ih =>
      rw [List.cons_append, List.cons_append, scan_name hc, scan_name hc,
        takeWhile_append_cons isNameChar_dollar, dropWhile_append_cons isNameChar_dollar, ih,
        List.cons_append]
      intro hdrop
      apply hlast
      apply getLast?_of_suffix _ hdrop
      exact (List.dropWhile_suffix _).trans (List.suffix_append ['$', c] cs)

/-!
## References in braces
-/

theorem splitDefault?_eq_none (h : ¬ [':', '-'] <:+: cs) : splitDefault? cs = none := by
  induction cs with
  | nil => rfl
  | cons c cs ih =>
      have hcs := ih fun hpair => h (hpair.trans (List.suffix_cons c cs).isInfix)
      unfold splitDefault?
      split
      · next heq => cases heq
      · next rest heq =>
          rw [heq] at h
          exact absurd (List.prefix_append [':', '-'] rest).isInfix h
      · next d rest _ heq =>
          rcases List.cons_eq_cons.mp heq with ⟨rfl, rfl⟩
          rw [hcs, Option.map_none]

theorem reference_of_not_infix (h : ¬ [':', '-'] <:+: cs) :
    reference cs = .reference (String.ofList cs) none := by
  rw [reference, splitDefault?_eq_none h]

theorem scan_reference {name : List Char} (hname : '\x7d' ∉ name) (rest : List Char) :
    scan ('$' :: '\x7b' :: (name ++ '\x7d' :: rest)) = reference name :: scan rest := by
  have hne : ∀ c ∈ name, (c != '\x7d') = true := by
    intro c hc
    rw [bne_iff_ne]
    rintro rfl
    exact hname hc
  have htake : (name ++ '\x7d' :: rest).takeWhile (· != '\x7d') = name := by
    rw [List.takeWhile_append_of_pos hne, List.takeWhile_cons_of_neg (by decide),
      List.append_nil]
  have hdrop : (name ++ '\x7d' :: rest).dropWhile (· != '\x7d') = '\x7d' :: rest := by
    rw [List.dropWhile_append_of_pos hne, List.dropWhile_cons_of_neg (by decide)]
  rw [scan, if_pos (by simp), htake, hdrop, List.drop_one, List.tail_cons]

/-!
## What is filled in
-/

theorem fill_append (env : Environment) (before after : List Piece) :
    fill env (before ++ after) =
      (do
        let content ← fill env before
        let rest ← fill env after
        .ok (content ++ rest)) := by
  induction before with
  | nil =>
      rw [List.nil_append]
      cases fill env after <;> rfl
  | cons piece before ih =>
      rw [List.cons_append, fill, ih, fill]
      cases fillPiece env piece with
      | error e => rfl
      | ok content =>
          cases fill env before with
          | error e => rfl
          | ok more =>
              cases fill env after with
              | error e => rfl
              | ok rest => simp [bind, Except.bind]

theorem fill_literal (env : Environment) (content : List Char) (pieces : List Piece) :
    fill env (.literal content :: pieces) = (fill env pieces).map (content ++ ·) := by
  rw [fill]
  cases fill env pieces <;> rfl

theorem fill_reference {name w : String} (h : env name = some (.text w))
    (default? : Option String) (pieces : List Piece) :
    fill env (.reference name default? :: pieces) = (fill env pieces).map (w.toList ++ ·) := by
  simp only [fill, fillPiece, h]
  cases fill env pieces <;> rfl

/-- A text in which all dollars are bare stands for itself. -/
theorem Plain.fill_scan_of_isBare (h : Plain cs) (hbare : IsBare cs) :
    fill env (scan cs) = .ok cs := by
  induction h with
  | nil => rw [scan, fill]
  | char hc _ ih =>
      rw [isBare_cons hc] at hbare
      rw [scan_char hc, fill_literal, ih hbare]
      rfl
  | dollars _ _ =>
      exact absurd rfl ((isBare_dollar.mp hbare).1 '$' rfl).1
  | lone hhead _ ih =>
      rw [isBare_dollar] at hbare
      rw [scan_lone hhead, fill_literal, ih hbare.2]
      rfl
  | @name c cs hc _ _ =>
      have hbare := ((isBare_dollar.mp hbare).1 c rfl).2
      rw [hc] at hbare
      cases hbare

theorem exists_of_fill_literal {content filled : List Char} {pieces : List Piece}
    (h : fill env (.literal content :: pieces) = .ok filled) :
    ∃ rest, fill env pieces = .ok rest ∧ filled = content ++ rest := by
  rw [fill_literal] at h
  cases hrest : fill env pieces with
  | error e =>
      rw [hrest] at h
      cases h
  | ok rest =>
      rw [hrest] at h
      cases h
      exact ⟨rest, rfl, rfl⟩

theorem fill_of_reference {name : String} {filled : List Char} {pieces : List Piece}
    (henv : ∀ name value, env name = some value → value = .text "")
    (h : fill env (.reference name none :: pieces) = .ok filled) :
    fill env pieces = .ok filled := by
  cases hvalue : env name with
  | none =>
      simp only [fill, fillPiece, hvalue] at h
      cases h
  | some value =>
      obtain rfl := henv name value hvalue
      rw [fill_reference hvalue] at h
      cases hrest : fill env pieces with
      | error e =>
          rw [hrest] at h
          cases h
      | ok rest =>
          rw [hrest] at h
          exact h

theorem Plain.length_fill_scan (h : Plain cs) {content : List Char}
    (henv : ∀ name value, env name = some value → value = .text "")
    (hfill : fill env (scan cs) = .ok content) :
    content.length ≤ cs.length ∧ (content.length = cs.length → IsBare cs) := by
  induction h generalizing content with
  | nil =>
      rw [scan, fill] at hfill
      cases hfill
      constructor
      · exact Nat.le_refl _
      · intro _ c hc
        cases List.infix_nil.mp hc
  | @char c cs hc _ ih =>
      rw [scan_char hc] at hfill
      rcases exists_of_fill_literal hfill with ⟨rest, hrest, rfl⟩
      rcases ih hrest with ⟨hle, hbare⟩
      rw [isBare_cons hc]
      constructor
      · simpa using hle
      · intro hlength
        apply hbare
        simpa using hlength
  | @dollars cs _ ih =>
      rw [scan_dollars] at hfill
      rcases exists_of_fill_literal hfill with ⟨rest, hrest, rfl⟩
      have hle := (ih hrest).1
      simp only [List.length_append, List.length_cons, List.length_nil]
      constructor
      · omega
      · intro hlength
        omega
  | @lone cs hhead _ ih =>
      rw [scan_lone hhead] at hfill
      rcases exists_of_fill_literal hfill with ⟨rest, hrest, rfl⟩
      rcases ih hrest with ⟨hle, hbare⟩
      rw [isBare_dollar]
      constructor
      · simpa using hle
      · intro hlength
        constructor
        · intro c hc
          exact (hhead c hc).2
        · apply hbare
          simpa using hlength
  | @name c cs hc _ ih =>
      rw [scan_name hc] at hfill
      have hle := (ih (fill_of_reference henv hfill)).1
      have hdrop := (List.dropWhile_suffix (l := cs) isNameChar).length_le
      simp only [List.length_cons]
      constructor
      · omega
      · intro hlength
        omega

end Template

/-!
## Strings of a configuration
-/

namespace Config

open Template (HasNoBraces IsBare Plain)

variable {a b name : String}

theorem expandField_eq_ok_iff {env : Environment} {field : ConfigField} {text filled : String} :
    expandField env field text = .ok filled ↔
      Template.fill env (Template.ofString text) = .ok filled.toList := by
  rw [expandField, expand]
  cases Template.fill env (Template.ofString text) with
  | error e => simp [bind, Except.bind]
  | ok content =>
      simp only [bind, Except.bind, Except.ok.injEq]
      constructor
      · intro h
        rw [← h, String.toList_ofList]
      · intro h
        rw [h, String.ofList_toList]

theorem expandField_of_hasNoBraces (env : Environment) (field : ConfigField)
    (h : HasNoBraces a.toList) : expandField env field a = .ok a := by
  rw [expandField_eq_ok_iff, Template.ofString, Template.hasReference_eq_false h,
    if_neg Bool.false_ne_true]
  simp [Template.fill, Template.fillPiece, bind, Except.bind]

theorem toList_reference (a name b : String) :
    (a ++ TemplateError.braced name ++ b).toList =
      a.toList ++ '$' :: '\x7b' :: (name.toList ++ '\x7d' :: b.toList) := by
  simp [TemplateError.braced]

theorem ofString_reference (ha : HasNoBraces a.toList) (hlast : a.toList.getLast? ≠ some '$')
    (hname : '\x7d' ∉ name.toList) (hdefault : ¬ [':', '-'] <:+: name.toList) (b : String) :
    Template.ofString (a ++ TemplateError.braced name ++ b) =
      Template.scan a.toList ++ .reference name none :: Template.scan b.toList := by
  rw [Template.ofString, toList_reference, Template.hasReference_append, if_pos rfl,
    ha.plain.scan_append_dollar hlast, Template.scan_reference hname,
    Template.reference_of_not_infix hdefault, String.ofList_toList]

theorem expandField_reference {env : Environment} {w : String} (field : ConfigField)
    (ha : HasNoBraces a.toList) (hlast : a.toList.getLast? ≠ some '$')
    (hname : '\x7d' ∉ name.toList) (hdefault : ¬ [':', '-'] <:+: name.toList)
    (hw : env name = some (.text w)) {filled : String} :
    expandField env field (a ++ TemplateError.braced name ++ b) = .ok filled ↔
      ∃ before after, Template.fill env (Template.scan a.toList) = .ok before ∧
        Template.fill env (Template.scan b.toList) = .ok after ∧
        filled.toList = before ++ (w.toList ++ after) := by
  rw [expandField_eq_ok_iff, ofString_reference ha hlast hname hdefault, Template.fill_append,
    Template.fill_reference hw]
  cases Template.fill env (Template.scan a.toList) with
  | error e => simp [bind, Except.bind]
  | ok before =>
      cases Template.fill env (Template.scan b.toList) with
      | error e => simp [bind, Except.bind, Except.map]
      | ok after =>
          simp only [bind, Except.bind, Except.map, Except.ok.injEq]
          constructor
          · intro h
            exact ⟨before, after, rfl, rfl, h.symm⟩
          · intro h
            rcases h with ⟨_, _, rfl, rfl, h⟩
            exact h.symm

def onlyEmpty (name : String) : Environment := fun other =>
  if other = name then some (.text "") else none

/-- Text around a reference stands for itself only if all its dollars are bare. -/
theorem isBare_of_expandField (field : ConfigField)
    (ha : HasNoBraces a.toList) (hlast : a.toList.getLast? ≠ some '$')
    (hb : HasNoBraces b.toList) (hname : '\x7d' ∉ name.toList)
    (hdefault : ¬ [':', '-'] <:+: name.toList)
    (h : expandField (onlyEmpty name) field (a ++ TemplateError.braced name ++ b) = .ok (a ++ b)) :
    IsBare a.toList ∧ IsBare b.toList := by
  have henv : ∀ other value, onlyEmpty name other = some value → value = .text "" := by
    intro other value hvalue
    unfold onlyEmpty at hvalue
    split at hvalue
    · exact (Option.some.inj hvalue).symm
    · cases hvalue
  have hset : onlyEmpty name name = some (.text "") := if_pos rfl
  rcases (expandField_reference field ha hlast hname hdefault hset).mp h with
    ⟨before, after, hbefore, hafter, hfilled⟩
  rcases ha.plain.length_fill_scan henv hbefore with ⟨hle, hbare⟩
  rcases hb.plain.length_fill_scan henv hafter with ⟨hle', hbare'⟩
  have hlength := congrArg List.length hfilled
  simp only [String.toList_append, List.length_append, String.toList_empty, List.nil_append]
    at hlength
  constructor
  · apply hbare
    omega
  · apply hbare'
    omega

theorem expandField_of_isBare {env : Environment} {w : String} (field : ConfigField)
    (ha : HasNoBraces a.toList) (hlast : a.toList.getLast? ≠ some '$')
    (hb : HasNoBraces b.toList) (hname : '\x7d' ∉ name.toList)
    (hdefault : ¬ [':', '-'] <:+: name.toList) (hbare : IsBare a.toList)
    (hbare' : IsBare b.toList) (hw : env name = some (.text w)) :
    expandField env field (a ++ TemplateError.braced name ++ b) = .ok (a ++ w ++ b) := by
  rw [expandField_reference field ha hlast hname hdefault hw]
  refine ⟨_, _, ha.plain.fill_scan_of_isBare hbare, hb.plain.fill_scan_of_isBare hbare', ?_⟩
  simp

/-- Text without braces after dollars stands for itself in a string without a reference. In
one with a reference it does so whatever the environment holds if and only if none of its
dollars has another dollar or a character of a name after it. -/
theorem expandField_literal_iff (field : ConfigField)
    (ha : HasNoBraces a.toList) (hlast : a.toList.getLast? ≠ some '$')
    (hb : HasNoBraces b.toList) (hname : '\x7d' ∉ name.toList)
    (hdefault : ¬ [':', '-'] <:+: name.toList) :
    (∀ env, expandField env field a = .ok a ∧ expandField env field b = .ok b) ∧
      ((∀ env w, env name = some (.text w) →
          expandField env field (a ++ TemplateError.braced name ++ b) = .ok (a ++ w ++ b)) ↔
        IsBare a.toList ∧ IsBare b.toList) := by
  constructor
  · intro env
    exact ⟨expandField_of_hasNoBraces env field ha, expandField_of_hasNoBraces env field hb⟩
  · constructor
    · intro hall
      apply isBare_of_expandField field ha hlast hb hname hdefault
      rw [hall (onlyEmpty name) "" (if_pos rfl), String.append_empty]
    · intro hbare env w hw
      exact expandField_of_isBare field ha hlast hb hname hdefault hbare.1 hbare.2 hw

theorem expandField_literal_iff_price :
    let before := "Costs 5 $, since "
    let after := " ($-free)"
    (HasNoBraces before.toList ∧ before.toList.getLast? ≠ some '$' ∧ HasNoBraces after.toList ∧
        '\x7d' ∉ "YEAR".toList ∧ ¬ [':', '-'] <:+: "YEAR".toList) ∧
      (∀ env, expandField env .footer before = .ok before ∧
          expandField env .footer after = .ok after) ∧
      ((∀ env w, env "YEAR" = some (.text w) →
          expandField env .footer (before ++ TemplateError.braced "YEAR" ++ after) =
            .ok (before ++ w ++ after)) ↔
        IsBare before.toList ∧ IsBare after.toList) := by
  intro before after
  have hbefore : HasNoBraces before.toList := by
    unfold HasNoBraces
    decide +kernel
  have hafter : HasNoBraces after.toList := by
    unfold HasNoBraces
    decide +kernel
  refine ⟨⟨hbefore, by decide +kernel, hafter, by decide +kernel, by decide +kernel⟩, ?_⟩
  exact expandField_literal_iff .footer hbefore (by decide +kernel) hafter (by decide +kernel)
    (by decide +kernel)

/-- A price before a reference is read as a reference itself. -/
theorem not_forall_expandField_literal :
    ¬ ∀ (env : Environment) (field : ConfigField) (a name b w : String),
      HasNoBraces a.toList → a.toList.getLast? ≠ some '$' → HasNoBraces b.toList →
      '\x7d' ∉ name.toList → ¬ [':', '-'] <:+: name.toList → env name = some (.text w) →
      expandField env field (a ++ TemplateError.braced name ++ b) = .ok (a ++ w ++ b) := by
  intro hall
  have hprice : HasNoBraces "Costs $5, ".toList := by
    unfold HasNoBraces
    decide +kernel
  have hempty : HasNoBraces "".toList := by
    unfold HasNoBraces
    decide +kernel
  have hfilled := hall (onlyEmpty "YEAR") .footer "Costs $5, " "YEAR" "" "" hprice
    (by decide +kernel)
    hempty (by decide +kernel) (by decide +kernel) (if_pos rfl)
  have hbare := (isBare_of_expandField .footer hprice (by decide +kernel) hempty (by decide +kernel)
    (by decide +kernel) hfilled).1
  have hdigit := (hbare '5' (by decide +kernel)).2
  revert hdigit
  decide +kernel

end Config

end StaticSite
