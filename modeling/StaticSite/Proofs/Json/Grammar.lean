import StaticSite.Proofs.Json.Reading
/-!
# The grammar of JSON texts

A text is JSON if it can be put together by the rules of `Json.IsWritten`. Numbers and
strings are spelled by the grammars of tokens, blanks may stand around every value and every
name, and arrays and objects are nested no deeper than allowed.

The reader of trees reads exactly these texts (`Json.read_tree_eq_ok_iff`): what it has
read is put together by the rules, and whatever is put together by them it reads, with the
number of calls that it is given.
-/

namespace StaticSite.Json

inductive Part where
  | value (j : Json)
  | items (items : List Json)
  | members (members : List (String × Json))

/-- How a part is written, with arrays and objects nested to a given depth at most. The
contents of an array or an object end with its closing bracket. -/
inductive IsWritten : Nat → Part → List Char → Prop where
  | null (depth : Nat) : IsWritten depth (.value .null) "null".toList
  | yes (depth : Nat) : IsWritten depth (.value (.bool true)) "true".toList
  | no (depth : Nat) : IsWritten depth (.value (.bool false)) "false".toList
  | number (depth : Nat) {n : Number} {cs : List Char} (h : Number.IsSpelled n cs) :
      IsWritten depth (.value (.number n)) cs
  | string (depth : Nat) {text cs : List Char} (h : Quoted.AreSpelled text cs) :
      IsWritten depth (.value (.string (String.ofList text))) ('"' :: (cs ++ ['"']))
  | array {depth : Nat} {items : List Json} {cs : List Char}
      (h : IsWritten depth (.items items) cs) :
      IsWritten (depth + 1) (.value (.array items)) ('[' :: cs)
  | object {depth : Nat} {members : List (String × Json)} {cs : List Char}
      (h : IsWritten depth (.members members) cs) :
      IsWritten (depth + 1) (.value (.object members)) ('{' :: cs)
  | blankBefore {depth : Nat} {j : Json} {c : Char} {cs : List Char} (hc : isBlank c = true)
      (h : IsWritten depth (.value j) cs) : IsWritten depth (.value j) (c :: cs)
  | blankAfter {depth : Nat} {j : Json} {c : Char} {cs : List Char} (hc : isBlank c = true)
      (h : IsWritten depth (.value j) cs) : IsWritten depth (.value j) (cs ++ [c])
  | noItem (depth : Nat) {blanks : List Char} (h : ∀ c ∈ blanks, isBlank c = true) :
      IsWritten depth (.items []) (blanks ++ [']'])
  | lastItem {depth : Nat} {j : Json} {cs : List Char} (h : IsWritten depth (.value j) cs) :
      IsWritten depth (.items [j]) (cs ++ [']'])
  | item {depth : Nat} {j : Json} {items : List Json} {cs later : List Char}
      (h : IsWritten depth (.value j) cs) (hitems : IsWritten depth (.items items) later)
      (hne : items ≠ []) : IsWritten depth (.items (j :: items)) (cs ++ ',' :: later)
  | noMember (depth : Nat) {blanks : List Char} (h : ∀ c ∈ blanks, isBlank c = true) :
      IsWritten depth (.members []) (blanks ++ ['}'])
  | lastMember {depth : Nat} {name : String} {j : Json} {word cs : List Char}
      (hname : IsWritten depth (.value (.string name)) word)
      (h : IsWritten depth (.value j) cs) :
      IsWritten depth (.members [(name, j)]) (word ++ ':' :: (cs ++ ['}']))
  | member {depth : Nat} {name : String} {j : Json} {members : List (String × Json)}
      {word cs later : List Char} (hname : IsWritten depth (.value (.string name)) word)
      (h : IsWritten depth (.value j) cs) (hmembers : IsWritten depth (.members members) later)
      (hne : members ≠ []) :
      IsWritten depth (.members ((name, j) :: members)) (word ++ ':' :: (cs ++ ',' :: later))

namespace IsWritten

variable {depth : Nat} {j : Json} {cs : List Char}

theorem blanksBefore {blanks : List Char} (hblanks : ∀ c ∈ blanks, isBlank c = true)
    (h : IsWritten depth (.value j) cs) : IsWritten depth (.value j) (blanks ++ cs) := by
  induction blanks with
  | nil => exact h
  | cons c blanks ih =>
      rw [List.forall_mem_cons] at hblanks
      exact .blankBefore hblanks.1 (ih hblanks.2)

theorem blanksAfter {blanks : List Char} (hblanks : ∀ c ∈ blanks, isBlank c = true)
    (h : IsWritten depth (.value j) cs) : IsWritten depth (.value j) (cs ++ blanks) := by
  induction blanks generalizing cs with
  | nil => rwa [List.append_nil]
  | cons c blanks ih =>
      rw [List.forall_mem_cons] at hblanks
      have hstep := ih hblanks.2 (h.blankAfter hblanks.1)
      rwa [List.append_assoc, List.singleton_append] at hstep

theorem exists_skipBlanks (h : IsWritten depth (.value j) cs) (rest : List Char) :
    ∃ used, cs ++ rest = used ++ skipBlanks rest ∧ IsWritten depth (.value j) used := by
  rcases exists_blanks rest with ⟨blanks, hblanks, hrest⟩
  refine ⟨cs ++ blanks, ?_, h.blanksAfter hblanks⟩
  rw [List.append_assoc, ← hrest]

end IsWritten

/-!
## What has been read is written by the rules
-/

theorem stripStart?_eq_some {word cs rest : List Char} (h : stripStart? word cs = some rest) :
    cs = word ++ rest := by
  fun_induction stripStart? word cs with
  | case1 cs =>
      cases h
      rfl
  | case2 w word cs ih => rw [ih h, List.cons_append]
  | case3 => cases h
  | case4 => cases h

theorem readWord_eq_ok {α : Type} {word : String} {value found : α} {cs rest : List Char}
    (h : readWord word value cs = .ok (found, rest)) :
    found = value ∧ cs = word.toList ++ rest := by
  unfold readWord at h
  split at h
  · next hstrip =>
      cases h
      exact ⟨rfl, stripStart?_eq_some hstrip⟩
  · cases h

theorem map_orMalformed_eq_ok {α β : Type} {found : Option α} {f : α → β} {result : β}
    (h : (orMalformed found).map f = .ok result) : ∃ a, found = some a ∧ f a = result := by
  cases found with
  | none => cases h
  | some a =>
      cases h
      exact ⟨a, rfl, rfl⟩

theorem exists_skipped {cs start : List Char} (hstart : skipBlanks cs = start) :
    ∃ blanks, (∀ c ∈ blanks, isBlank c = true) ∧ cs = blanks ++ start := by
  rcases exists_blanks cs with ⟨blanks, hblanks, hcs⟩
  exact ⟨blanks, hblanks, hcs.trans (congrArg (blanks ++ ·) hstart)⟩

theorem isWritten_of_readRest (depth : Nat) {cs start text rest : List Char}
    (hstart : skipBlanks cs = '"' :: start) (h : Quoted.readRest start = some (text, rest)) :
    ∃ used, cs = used ++ rest ∧ IsWritten depth (.value (.string (String.ofList text))) used := by
  rcases exists_skipped hstart with ⟨blanks, hblanks, rfl⟩
  rcases Quoted.exists_of_readRest h with ⟨used, rfl, hused⟩
  refine ⟨blanks ++ '"' :: (used ++ ['"']), ?_, (IsWritten.string depth hused).blanksBefore hblanks⟩
  rw [List.append_assoc, List.cons_append, List.append_assoc, List.singleton_append]

mutual

theorem isWritten_of_readValue (fuel : Nat) {depth : Nat} {cs rest : List Char} {j : Json}
    (h : readValue .tree fuel depth cs = .ok (j, rest)) :
    ∃ used, cs = used ++ rest ∧ IsWritten depth (.value j) used := by
  cases fuel with
  | zero => cases h
  | succ fuel =>
      rcases exists_blanks cs with ⟨blanks, hblanks, hcs⟩
      suffices hstep : ∃ used, skipBlanks cs = used ++ rest ∧ IsWritten depth (.value j) used by
        rcases hstep with ⟨used, hused, hwritten⟩
        refine ⟨blanks ++ used, ?_, hwritten.blanksBefore hblanks⟩
        rw [List.append_assoc, ← hused, ← hcs]
      generalize hstart : skipBlanks cs = start
      cases Start.of start with
      | nothing =>
          rw [readValue_nothing hstart] at h
          cases h
      | null later =>
          rw [readValue_null hstart] at h
          rcases readWord_eq_ok h with ⟨rfl, hword⟩
          exact ⟨_, hword, .null depth⟩
      | yes later =>
          rw [readValue_yes hstart] at h
          rcases readWord_eq_ok h with ⟨rfl, hword⟩
          exact ⟨_, hword, .yes depth⟩
      | no later =>
          rw [readValue_no hstart] at h
          rcases readWord_eq_ok h with ⟨rfl, hword⟩
          exact ⟨_, hword, .no depth⟩
      | string later =>
          rw [readValue_string hstart] at h
          rcases map_orMalformed_eq_ok h with ⟨⟨text, after⟩, htext, hfound⟩
          cases hfound
          exact isWritten_of_readRest depth rfl htext
      | number c later hc =>
          rw [readValue_number hstart hc] at h
          rcases map_orMalformed_eq_ok h with ⟨⟨n, after⟩, hnumber, hfound⟩
          cases hfound
          rcases Number.exists_of_read hnumber with ⟨used, hused, hspelled⟩
          exact ⟨used, hused, .number depth hspelled⟩
      | array later =>
          cases depth with
          | zero =>
              rw [readValue_array_zero hstart] at h
              cases h
          | succ depth =>
              by_cases hclose : ∃ after, skipBlanks later = ']' :: after
              · rcases hclose with ⟨after, hclose⟩
                rw [readValue_array_nil hstart hclose] at h
                cases h
                rcases exists_skipped hclose with ⟨inner, hinner, rfl⟩
                exact ⟨'[' :: (inner ++ [']']), by simp, .array (.noItem depth hinner)⟩
              · rw [readValue_array hstart (not_exists.mp hclose)] at h
                rcases map_eq_ok_iff.mp h with ⟨⟨items, after⟩, hitems, hfound⟩
                cases hfound
                rcases isWritten_of_readItems fuel hitems with ⟨used, rfl, hwritten, _⟩
                exact ⟨'[' :: used, rfl, .array hwritten⟩
      | object later =>
          cases depth with
          | zero =>
              rw [readValue_object_zero hstart] at h
              cases h
          | succ depth =>
              by_cases hclose : ∃ after, skipBlanks later = '}' :: after
              · rcases hclose with ⟨after, hclose⟩
                rw [readValue_object_nil hstart rfl hclose] at h
                cases h
                rcases exists_skipped hclose with ⟨inner, hinner, rfl⟩
                exact ⟨'{' :: (inner ++ ['}']), by simp, .object (.noMember depth hinner)⟩
              · rw [readValue_object hstart rfl (not_exists.mp hclose)] at h
                rcases map_eq_ok_iff.mp h with ⟨⟨members, after⟩, hmembers, hfound⟩
                cases hfound
                rcases isWritten_of_readMembers fuel hmembers with ⟨used, rfl, hwritten, _⟩
                exact ⟨'{' :: used, rfl, .object hwritten⟩

theorem isWritten_of_readItems (fuel : Nat) {depth : Nat} {cs rest : List Char}
    {items : List Json} (h : readItems .tree fuel depth cs = .ok (items, rest)) :
    ∃ used, cs = used ++ rest ∧ IsWritten depth (.items items) used ∧ items ≠ [] := by
  cases fuel with
  | zero => cases h
  | succ fuel =>
      rcases readItems_eq_ok h with ⟨item, after, hitem, hrest⟩
      rcases isWritten_of_readValue fuel hitem with ⟨used, rfl, hwritten⟩
      rcases hwritten.exists_skipBlanks after with ⟨used, hused, hwritten⟩
      rw [hused]
      rcases hrest with ⟨hclose, rfl⟩ | ⟨later, more, hcomma, hmore, rfl⟩
      · refine ⟨used ++ [']'], ?_, .lastItem hwritten, List.cons_ne_nil _ _⟩
        rw [hclose, List.append_assoc, List.singleton_append]
      · rcases isWritten_of_readItems fuel hmore with ⟨usedLater, rfl, hlater, hne⟩
        refine ⟨used ++ ',' :: usedLater, ?_, .item hwritten hlater hne, List.cons_ne_nil _ _⟩
        rw [hcomma, List.append_assoc, List.cons_append]

theorem isWritten_of_readMembers (fuel : Nat) {depth : Nat} {cs rest : List Char}
    {members : List (String × Json)}
    (h : readMembers .tree fuel depth cs = .ok (members, rest)) :
    ∃ used, cs = used ++ rest ∧ IsWritten depth (.members members) used ∧ members ≠ [] := by
  cases fuel with
  | zero => cases h
  | succ fuel =>
      rcases readMembers_eq_ok h with ⟨name, value, after, hmember, hrest⟩
      rcases hmember with
        ⟨start, content, afterName, afterColon, hstart, hname, rfl, hcolon, hvalue⟩
      rcases isWritten_of_readRest depth hstart hname with ⟨word, rfl, hword⟩
      rcases hword.exists_skipBlanks afterName with ⟨word, hwordEq, hword⟩
      rcases isWritten_of_readValue fuel hvalue with ⟨used, rfl, hwritten⟩
      rcases hwritten.exists_skipBlanks after with ⟨used, hused, hwritten⟩
      rw [hwordEq, hcolon, hused]
      rcases hrest with ⟨hclose, rfl⟩ | ⟨later, more, hcomma, hmore, rfl⟩
      · refine ⟨word ++ ':' :: (used ++ ['}']), ?_, .lastMember hword hwritten,
          List.cons_ne_nil _ _⟩
        rw [hclose]
        simp
      · rcases isWritten_of_readMembers fuel hmore with ⟨usedLater, rfl, hlater, hne⟩
        refine ⟨word ++ ':' :: (used ++ ',' :: usedLater), ?_,
          .member hword hwritten hlater hne, List.cons_ne_nil _ _⟩
        rw [hcomma]
        simp

end

/-!
## What is written by the rules is read
-/

theorem stripStart?_append (word rest : List Char) :
    stripStart? word (word ++ rest) = some rest := by
  induction word with
  | nil => rfl
  | cons w word ih => rw [List.cons_append, stripStart?, if_pos rfl, ih]

theorem readWord_append {α : Type} (word : String) (value : α) (rest : List Char) :
    readWord word value (word.toList ++ rest) = .ok (value, rest) := by
  rw [readWord, stripStart?_append]

theorem Number.IsSpelled.start {n : Number} {cs : List Char} (h : IsSpelled n cs) :
    ∃ c later, cs = c :: later ∧ isBlank c = false ∧ c ∉ ['n', 't', 'f', '"', '[', '{'] ∧
      c ≠ ']' := by
  rcases h.exists_cons with ⟨c, later, rfl, hc⟩
  refine ⟨c, later, rfl, ?_⟩
  have hother : ∀ d : Char, d ≠ '-' → d.isDigit = false → c ≠ d := by
    rintro d hminus hdigit rfl
    rcases hc with rfl | hc
    · exact hminus rfl
    · rw [hdigit] at hc
      cases hc
  refine ⟨?_, ?_, hother ']' (by decide) (by decide)⟩
  · simp [isBlank, hother]
  · simp [hother]

theorem readItems_of_close {α : Type} {b : Builder α} {fuel depth : Nat} {cs after : List Char}
    (hclose : skipBlanks cs = ']' :: after) : readItems b fuel depth cs = .error .malformed := by
  rcases fuel with _ | _ | fuel
  · rfl
  · rfl
  · refine readItems_error ?_
    rw [readValue_number hclose (by decide)]
    cases hnumber : Number.read (']' :: after) with
    | none => rfl
    | some found =>
        rcases Number.exists_of_read hnumber with ⟨used, hused, hspelled⟩
        rcases hspelled.start with ⟨c, later, rfl, -, -, hc⟩
        exact absurd (List.cons.inj hused).1.symm hc

theorem readMembers_of_close {fuel depth : Nat} {cs after : List Char}
    {found : List (String × Json) × List Char} (hclose : skipBlanks cs = '}' :: after) :
    readMembers .tree fuel depth cs ≠ .ok found := by
  intro h
  cases fuel with
  | zero => cases h
  | succ fuel =>
      rcases readMembers_eq_ok h with ⟨_, _, _, ⟨start, _, _, _, hstart, _⟩, _⟩
      rw [hclose] at hstart
      cases hstart

/-- What the reader does with a part when something else follows it. Of what follows a
value, blanks may have been skipped. -/
def IsRead (depth : Nat) : Part → List Char → Prop
  | .value j, cs => ∀ fuel more, 2 * cs.length ≤ fuel + 1 → NotAhead isNumeric more →
      ∃ rest, readValue .tree fuel depth (cs ++ more) = .ok (j, rest) ∧
        skipBlanks rest = skipBlanks more
  | .items items, cs => ∀ fuel more, 2 * cs.length ≤ fuel →
      (items = [] ∧ skipBlanks (cs ++ more) = ']' :: more) ∨
        readItems .tree fuel depth (cs ++ more) = .ok (items, more)
  | .members members, cs => ∀ fuel more, 2 * cs.length ≤ fuel →
      (members = [] ∧ skipBlanks (cs ++ more) = '}' :: more) ∨
        readMembers .tree fuel depth (cs ++ more) = .ok (members, more)

theorem IsWritten.name {depth : Nat} {name : String} {word : List Char}
    (h : IsWritten depth (.value (.string name)) word) (more : List Char) :
    ∃ start content afterName, skipBlanks (word ++ more) = '"' :: start ∧
      Quoted.readRest start = some (content, afterName) ∧ name = String.ofList content ∧
      skipBlanks afterName = skipBlanks more := by
  generalize hpart : Part.value (.string name) = part at h
  induction h generalizing more with
  | @string depth text cs htext =>
      cases hpart
      refine ⟨cs ++ '"' :: more, text, more, ?_, htext.read more, rfl, rfl⟩
      rw [List.cons_append, List.append_assoc, List.singleton_append]
      rfl
  | blankBefore hc _ ih =>
      rcases ih more hpart with ⟨start, content, afterName, hstart, hrest⟩
      exact ⟨start, content, afterName, by rw [List.cons_append, skipBlanks_cons hc, hstart],
        hrest⟩
  | blankAfter hc _ ih =>
      rcases ih (_ :: more) hpart with ⟨start, content, afterName, hstart, hread, hname, hafter⟩
      refine ⟨start, content, afterName, ?_, hread, hname, ?_⟩
      · rw [List.append_assoc, List.singleton_append, hstart]
      · rw [hafter, skipBlanks_cons hc]
  | _ => cases hpart

theorem IsWritten.readsMember {depth : Nat} {name : String} {j : Json} {word cs : List Char}
    (hname : IsWritten depth (.value (.string name)) word)
    (hvalue : IsRead depth (.value j) cs) {fuel : Nat} {more : List Char}
    (hfuel : 2 * cs.length ≤ fuel + 1) (hmore : NotAhead isNumeric more) :
    ∃ rest, ReadsMember .tree fuel depth (word ++ ':' :: (cs ++ more)) name j rest ∧
      skipBlanks rest = skipBlanks more := by
  rcases hname.name (':' :: (cs ++ more)) with
    ⟨start, content, afterName, hstart, hread, rfl, hafter⟩
  rcases hvalue fuel more hfuel hmore with ⟨rest, hrest, hskip⟩
  exact ⟨rest, ⟨start, content, afterName, cs ++ more, hstart, hread, rfl, hafter, hrest⟩, hskip⟩

/-!
## Rule by rule
-/

namespace IsRead

variable {depth : Nat}

theorem word {word : String} {j : Json} (hne : word.toList ≠ [])
    (h : ∀ fuel more, readValue .tree (fuel + 1) depth (word.toList ++ more) =
      readWord word j (word.toList ++ more)) : IsRead depth (.value j) word.toList := by
  intro fuel more hfuel hmore
  have hlength := List.length_pos_iff.mpr hne
  cases fuel with
  | zero => omega
  | succ fuel => exact ⟨more, (h fuel more).trans (readWord_append word j more), rfl⟩

theorem number {n : Number} {cs : List Char} (h : Number.IsSpelled n cs) :
    IsRead depth (.value (.number n)) cs := by
  intro fuel more hfuel hmore
  have hread := h.read hmore
  rcases h.start with ⟨c, later, rfl, hblank, hkind, -⟩
  cases fuel with
  | zero => simp only [List.length_cons] at hfuel; omega
  | succ fuel =>
      refine ⟨more, ?_, rfl⟩
      rw [List.cons_append, readValue_number (skipBlanks_of_not_isBlank hblank _) hkind,
        ← List.cons_append, hread]
      rfl

theorem string {text cs : List Char} (h : Quoted.AreSpelled text cs) :
    IsRead depth (.value (.string (String.ofList text))) ('"' :: (cs ++ ['"'])) := by
  intro fuel more hfuel hmore
  cases fuel with
  | zero => simp only [List.length_cons] at hfuel; omega
  | succ fuel =>
      refine ⟨more, ?_, rfl⟩
      rw [List.cons_append, readValue_string rfl, List.append_assoc, List.singleton_append,
        h.read more]
      rfl

theorem array {items : List Json} {cs : List Char} (h : IsRead depth (.items items) cs) :
    IsRead (depth + 1) (.value (.array items)) ('[' :: cs) := by
  intro fuel more hfuel hmore
  simp only [List.length_cons] at hfuel
  cases fuel with
  | zero => omega
  | succ fuel =>
      rcases h fuel more (by omega) with ⟨rfl, hclose⟩ | hitems
      · exact ⟨more, readValue_array_nil rfl hclose, rfl⟩
      · have hclose : ∀ after, skipBlanks (cs ++ more) ≠ ']' :: after := by
          intro after hafter
          rw [readItems_of_close hafter] at hitems
          cases hitems
        refine ⟨more, ?_, rfl⟩
        rw [List.cons_append, readValue_array rfl hclose, hitems]
        rfl

theorem object {members : List (String × Json)} {cs : List Char}
    (h : IsRead depth (.members members) cs) :
    IsRead (depth + 1) (.value (.object members)) ('{' :: cs) := by
  intro fuel more hfuel hmore
  simp only [List.length_cons] at hfuel
  cases fuel with
  | zero => omega
  | succ fuel =>
      rcases h fuel more (by omega) with ⟨rfl, hclose⟩ | hmembers
      · exact ⟨more, readValue_object_nil rfl rfl hclose, rfl⟩
      · have hclose : ∀ after, skipBlanks (cs ++ more) ≠ '}' :: after :=
          fun after hafter => readMembers_of_close hafter hmembers
        refine ⟨more, ?_, rfl⟩
        rw [List.cons_append, readValue_object rfl rfl hclose, hmembers]
        rfl

theorem blankBefore {j : Json} {c : Char} {cs : List Char} (hc : isBlank c = true)
    (h : IsRead depth (.value j) cs) : IsRead depth (.value j) (c :: cs) := by
  intro fuel more hfuel hmore
  simp only [List.length_cons] at hfuel
  rcases h fuel more (by omega) hmore with ⟨rest, hrest, hskip⟩
  refine ⟨rest, ?_, hskip⟩
  rw [← readValue_skipBlanks, List.cons_append, skipBlanks_cons hc, readValue_skipBlanks, hrest]

theorem blankAfter {j : Json} {c : Char} {cs : List Char} (hc : isBlank c = true)
    (h : IsRead depth (.value j) cs) : IsRead depth (.value j) (cs ++ [c]) := by
  intro fuel more hfuel hmore
  simp only [List.length_append, List.length_cons, List.length_nil] at hfuel
  have hblank : isNumeric c = false := by
    simp only [isBlank, Bool.or_eq_true, beq_iff_eq] at hc
    rcases hc with ((rfl | rfl) | rfl) | rfl <;> decide
  rcases h fuel (c :: more) (by omega) (notAhead_cons.mpr hblank) with ⟨rest, hrest, hskip⟩
  refine ⟨rest, ?_, ?_⟩
  · rw [List.append_assoc, List.singleton_append, hrest]
  · rw [hskip, skipBlanks_cons hc]

theorem noItem {blanks : List Char} (h : ∀ c ∈ blanks, isBlank c = true) :
    IsRead depth (.items []) (blanks ++ [']']) := by
  intro fuel more hfuel
  left
  refine ⟨rfl, ?_⟩
  rw [List.append_assoc, skipBlanks_append h]
  rfl

theorem lastItem {j : Json} {cs : List Char} (h : IsRead depth (.value j) cs) :
    IsRead depth (.items [j]) (cs ++ [']']) := by
  intro fuel more hfuel
  right
  simp only [List.length_append, List.length_cons, List.length_nil] at hfuel
  cases fuel with
  | zero => omega
  | succ fuel =>
      rcases h fuel (']' :: more) (by omega) (notAhead_cons.mpr (by decide)) with
        ⟨rest, hrest, hskip⟩
      rw [List.append_assoc, List.singleton_append]
      exact readItems_last hrest hskip

theorem item {j : Json} {items : List Json} {cs later : List Char}
    (h : IsRead depth (.value j) cs) (hitems : IsRead depth (.items items) later)
    (hne : items ≠ []) : IsRead depth (.items (j :: items)) (cs ++ ',' :: later) := by
  intro fuel more hfuel
  right
  simp only [List.length_append, List.length_cons] at hfuel
  cases fuel with
  | zero => omega
  | succ fuel =>
      rcases h fuel (',' :: (later ++ more)) (by omega) (notAhead_cons.mpr (by decide)) with
        ⟨rest, hrest, hskip⟩
      rcases hitems fuel more (by omega) with ⟨hnil, _⟩ | hmore
      · exact absurd hnil hne
      · rw [List.append_assoc, List.cons_append, readItems_more hrest hskip, hmore]
        rfl

theorem noMember {blanks : List Char} (h : ∀ c ∈ blanks, isBlank c = true) :
    IsRead depth (.members []) (blanks ++ ['}']) := by
  intro fuel more hfuel
  left
  refine ⟨rfl, ?_⟩
  rw [List.append_assoc, skipBlanks_append h]
  rfl

theorem lastMember {name : String} {j : Json} {word cs : List Char}
    (hname : IsWritten depth (.value (.string name)) word) (h : IsRead depth (.value j) cs) :
    IsRead depth (.members [(name, j)]) (word ++ ':' :: (cs ++ ['}'])) := by
  intro fuel more hfuel
  right
  simp only [List.length_append, List.length_cons, List.length_nil] at hfuel
  cases fuel with
  | zero => omega
  | succ fuel =>
      have hcalls : 2 * cs.length ≤ fuel + 1 := by omega
      rcases hname.readsMember h hcalls
        (notAhead_cons.mpr (by decide) : NotAhead isNumeric ('}' :: more)) with
        ⟨rest, hmember, hskip⟩
      rw [List.append_assoc, List.cons_append, List.append_assoc, List.singleton_append]
      exact readMembers_last hmember hskip

theorem member {name : String} {j : Json} {members : List (String × Json)}
    {word cs later : List Char} (hname : IsWritten depth (.value (.string name)) word)
    (h : IsRead depth (.value j) cs) (hmembers : IsRead depth (.members members) later)
    (hne : members ≠ []) :
    IsRead depth (.members ((name, j) :: members)) (word ++ ':' :: (cs ++ ',' :: later)) := by
  intro fuel more hfuel
  right
  simp only [List.length_append, List.length_cons] at hfuel
  cases fuel with
  | zero => omega
  | succ fuel =>
      have hcalls : 2 * cs.length ≤ fuel + 1 := by omega
      rcases hname.readsMember h hcalls
        (notAhead_cons.mpr (by decide) : NotAhead isNumeric (',' :: (later ++ more))) with
        ⟨rest, hmember, hskip⟩
      rcases hmembers fuel more (by omega) with ⟨hnil, _⟩ | hmore
      · exact absurd hnil hne
      · rw [List.append_assoc, List.cons_append, List.append_assoc, List.cons_append,
          readMembers_more hmember hskip, hmore]
        rfl

end IsRead

/-- What is written by the rules is read, with two calls for every character. -/
theorem isRead_of_isWritten {depth : Nat} {part : Part} {cs : List Char}
    (h : IsWritten depth part cs) : IsRead depth part cs := by
  induction h with
  | null depth => exact .word (by decide) fun fuel more => readValue_null rfl
  | yes depth => exact .word (by decide) fun fuel more => readValue_yes rfl
  | no depth => exact .word (by decide) fun fuel more => readValue_no rfl
  | number depth h => exact .number h
  | string depth h => exact .string h
  | array _ ih => exact .array ih
  | object _ ih => exact .object ih
  | blankBefore hc _ ih => exact .blankBefore hc ih
  | blankAfter hc _ ih => exact .blankAfter hc ih
  | noItem depth h => exact .noItem h
  | lastItem _ ih => exact .lastItem ih
  | item _ _ hne ih ihItems => exact .item ih ihItems hne
  | noMember depth h => exact .noMember h
  | lastMember hname _ _ ih => exact .lastMember hname ih
  | member hname _ _ hne _ ih ihMembers => exact .member hname ih ihMembers hne

/-!
## Whole texts
-/

theorem finish_eq_ok_iff {α : Type} {a b : α} {rest : List Char} :
    finish (a, rest) = .ok b ↔ a = b ∧ skipBlanks rest = [] := by
  unfold finish
  by_cases h : skipBlanks rest = []
  · simp [h]
  · simp [h]

/-- The texts that are read as a tree are those that are written by the rules, with arrays
and objects nested no deeper than allowed. -/
theorem read_tree_eq_ok_iff (text : String) (j : Json) :
    read .tree text = .ok j ↔ IsWritten nestingLimit (.value j) text.toList := by
  constructor
  · intro h
    cases hvalue : readValue .tree (2 * text.length + 2) nestingLimit text.toList with
    | error e =>
        rw [read, hvalue] at h
        cases h
    | ok found =>
        rcases found with ⟨found, rest⟩
        rw [read, hvalue] at h
        rcases finish_eq_ok_iff.mp h with ⟨rfl, hrest⟩
        rcases isWritten_of_readValue _ hvalue with ⟨used, htext, hwritten⟩
        rcases hwritten.exists_skipBlanks rest with ⟨used, hused, hwritten⟩
        rw [htext, hused, hrest, List.append_nil]
        exact hwritten
  · intro h
    have hcalls : 2 * text.toList.length ≤ 2 * text.length + 2 + 1 := by
      rw [String.length_toList]
      omega
    rcases isRead_of_isWritten h (2 * text.length + 2) [] hcalls (notAhead_nil _) with
      ⟨rest, hvalue, hrest⟩
    rw [List.append_nil] at hvalue
    rw [read, hvalue]
    exact finish_eq_ok_iff.mpr ⟨rfl, hrest⟩

end StaticSite.Json
