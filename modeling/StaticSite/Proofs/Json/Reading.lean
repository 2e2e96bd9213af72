import StaticSite.Proofs.Json.Tokens
import StaticSite.Proofs.Outcomes
/-!
# Steps of the reader

What the reader does with a text is decided by the first character that is not blank. Each
kind of beginning has a lemma that says what is done then, so that proofs about the reader
go by the kinds of beginnings and need not look into it.
-/

namespace StaticSite.Json

/-- The kinds of beginnings of a text. A text that begins with no other is read as a
number. -/
inductive Start : List Char → Prop where
  | nothing : Start []
  | null (cs : List Char) : Start ('n' :: cs)
  | yes (cs : List Char) : Start ('t' :: cs)
  | no (cs : List Char) : Start ('f' :: cs)
  | string (cs : List Char) : Start ('"' :: cs)
  | array (cs : List Char) : Start ('[' :: cs)
  | object (cs : List Char) : Start ('{' :: cs)
  | number (c : Char) (cs : List Char) (h : c ∉ ['n', 't', 'f', '"', '[', '{']) :
      Start (c :: cs)

theorem Start.of (cs : List Char) : Start cs := by
  cases cs with
  | nil => exact .nothing
  | cons c cs =>
      by_cases h : c ∈ ['n', 't', 'f', '"', '[', '{']
      · simp only [List.mem_cons, List.not_mem_nil, or_false] at h
        rcases h with rfl | rfl | rfl | rfl | rfl | rfl
        · exact .null cs
        · exact .yes cs
        · exact .no cs
        · exact .string cs
        · exact .array cs
        · exact .object cs
      · exact .number c cs h

theorem orMalformed_ne_misplaced {α : Type} (found : Option α) :
    orMalformed found ≠ .error .misplaced := by
  cases found <;> simp [orMalformed]

theorem readWord_ne_misplaced {α : Type} (word : String) (value : α) (cs : List Char) :
    readWord word value cs ≠ .error .misplaced := by
  unfold readWord
  split <;> simp

section

variable {α : Type} {b : Builder α} {fuel depth : Nat} {cs rest : List Char}

/-!
## Steps
-/

section

-- The lemmas about single steps open the reader, so that others need not.
attribute [local simp] readValue readItems readMembers

theorem readValue_skipBlanks :
    readValue b fuel depth (skipBlanks cs) = readValue b fuel depth cs := by
  cases fuel with
  | zero => rfl
  | succ fuel => rw [readValue, readValue, skipBlanks_skipBlanks]

theorem readItems_skipBlanks :
    readItems b fuel depth (skipBlanks cs) = readItems b fuel depth cs := by
  cases fuel with
  | zero => rfl
  | succ fuel => rw [readItems, readItems, readValue_skipBlanks]

theorem readMembers_skipBlanks :
    readMembers b fuel depth (skipBlanks cs) = readMembers b fuel depth cs := by
  cases fuel with
  | zero => rfl
  | succ fuel => rw [readMembers, readMembers, skipBlanks_skipBlanks]

theorem readValue_nothing (h : skipBlanks cs = []) :
    readValue b (fuel + 1) depth cs = .error .malformed := by
  simp [h]

theorem readValue_null (h : skipBlanks cs = 'n' :: rest) :
    readValue b (fuel + 1) depth cs = readWord "null" b.null ('n' :: rest) := by
  simp [h]

theorem readValue_yes (h : skipBlanks cs = 't' :: rest) :
    readValue b (fuel + 1) depth cs = readWord "true" (b.bool true) ('t' :: rest) := by
  simp [h]

theorem readValue_no (h : skipBlanks cs = 'f' :: rest) :
    readValue b (fuel + 1) depth cs = readWord "false" (b.bool false) ('f' :: rest) := by
  simp [h]

theorem readValue_string (h : skipBlanks cs = '"' :: rest) :
    readValue b (fuel + 1) depth cs =
      (orMalformed (Quoted.readRest rest)).map fun found =>
        (b.string (String.ofList found.1), found.2) := by
  rw [readValue, h]
  rfl

theorem readValue_number {c : Char} (h : skipBlanks cs = c :: rest)
    (hc : c ∉ ['n', 't', 'f', '"', '[', '{']) :
    readValue b (fuel + 1) depth cs =
      (orMalformed (Number.read (c :: rest))).map fun found => (b.number found.1, found.2) := by
  simp only [List.mem_cons, List.not_mem_nil, or_false, not_or] at hc
  rw [readValue, h]
  split <;> simp_all
  rfl

theorem readValue_array_zero (h : skipBlanks cs = '[' :: rest) :
    readValue b (fuel + 1) 0 cs = .error .malformed := by
  simp [h]

theorem readValue_array_nil {after : List Char} (h : skipBlanks cs = '[' :: rest)
    (hclose : skipBlanks rest = ']' :: after) :
    readValue b (fuel + 1) (depth + 1) cs = .ok (b.array [], after) := by
  simp [h, hclose]

theorem readValue_array (h : skipBlanks cs = '[' :: rest)
    (hclose : ∀ after, skipBlanks rest ≠ ']' :: after) :
    readValue b (fuel + 1) (depth + 1) cs =
      (readItems b fuel depth rest).map fun found => (b.array found.1, found.2) := by
  rw [← readItems_skipBlanks, readValue, h]
  simp only
  rfl

theorem readValue_object_zero (h : skipBlanks cs = '{' :: rest) :
    readValue b (fuel + 1) 0 cs = .error .malformed := by
  simp [h]

theorem readValue_object_none (h : skipBlanks cs = '{' :: rest) (hb : b.object? = none) :
    readValue b (fuel + 1) (depth + 1) cs = .error .misplaced := by
  simp [h, hb]

variable {build : List (String × α) → α}

theorem readValue_object_nil {after : List Char} (h : skipBlanks cs = '{' :: rest)
    (hb : b.object? = some build) (hclose : skipBlanks rest = '}' :: after) :
    readValue b (fuel + 1) (depth + 1) cs = .ok (build [], after) := by
  simp [h, hb, hclose]

theorem readValue_object (h : skipBlanks cs = '{' :: rest) (hb : b.object? = some build)
    (hclose : ∀ after, skipBlanks rest ≠ '}' :: after) :
    readValue b (fuel + 1) (depth + 1) cs =
      (readMembers b fuel depth rest).map fun found => (build found.1, found.2) := by
  rw [← readMembers_skipBlanks, readValue, h]
  simp only [hb]
  rfl

variable {item : α} {after : List Char} {e : ReadError}

theorem readItems_last (hitem : readValue b fuel depth cs = .ok (item, rest))
    (h : skipBlanks rest = ']' :: after) :
    readItems b (fuel + 1) depth cs = .ok ([item], after) := by
  simp [hitem, bind, Except.bind, h]

theorem readItems_more (hitem : readValue b fuel depth cs = .ok (item, rest))
    (h : skipBlanks rest = ',' :: after) :
    readItems b (fuel + 1) depth cs =
      (readItems b fuel depth after).map fun found => (item :: found.1, found.2) := by
  simp only [readItems, hitem, bind, Except.bind, h]
  rfl

theorem readItems_unseparated (hitem : readValue b fuel depth cs = .ok (item, rest))
    (hclose : ∀ after, skipBlanks rest ≠ ']' :: after)
    (hcomma : ∀ after, skipBlanks rest ≠ ',' :: after) :
    readItems b (fuel + 1) depth cs = .error .malformed := by
  simp only [readItems, hitem, bind, Except.bind]

theorem readItems_error (hitem : readValue b fuel depth cs = .error e) :
    readItems b (fuel + 1) depth cs = .error e := by
  simp [hitem, bind, Except.bind]

def ReadsMember (b : Builder α) (fuel depth : Nat) (cs : List Char) (name : String) (value : α)
    (rest : List Char) : Prop :=
  ∃ start content afterName afterColon,
    skipBlanks cs = '"' :: start ∧ Quoted.readRest start = some (content, afterName) ∧
      name = String.ofList content ∧ skipBlanks afterName = ':' :: afterColon ∧
      readValue b fuel depth afterColon = .ok (value, rest)

variable {name : String} {value : α}

theorem readMembers_last (hmember : ReadsMember b fuel depth cs name value rest)
    (h : skipBlanks rest = '}' :: after) :
    readMembers b (fuel + 1) depth cs = .ok ([(name, value)], after) := by
  rcases hmember with ⟨start, content, afterName, afterColon, hstart, hname, rfl, hcolon, hvalue⟩
  simp only [readMembers, hstart, hname, orMalformed, bind, Except.bind, hcolon, hvalue, h]

theorem readMembers_more (hmember : ReadsMember b fuel depth cs name value rest)
    (h : skipBlanks rest = ',' :: after) :
    readMembers b (fuel + 1) depth cs =
      (readMembers b fuel depth after).map fun found => ((name, value) :: found.1, found.2) := by
  rcases hmember with ⟨start, content, afterName, afterColon, hstart, hname, rfl, hcolon, hvalue⟩
  simp only [readMembers, hstart, hname, orMalformed, bind, Except.bind, hcolon, hvalue, h]
  rfl

end

/-!
## What a step has done
-/

section

variable {item : α} {after : List Char}

theorem readValue_eq_misplaced (h : readValue b (fuel + 1) depth cs = .error .misplaced) :
    ∃ inner, depth = inner + 1 ∧
      ((∃ later, skipBlanks cs = '[' :: later ∧ readItems b fuel inner later = .error .misplaced) ∨
        ∃ later, skipBlanks cs = '{' :: later ∧
          (b.object? = none ∨ readMembers b fuel inner later = .error .misplaced)) := by
  generalize hstart : skipBlanks cs = start at *
  cases Start.of start with
  | nothing =>
      rw [readValue_nothing hstart] at h
      cases h
  | null later =>
      rw [readValue_null hstart] at h
      exact absurd h (readWord_ne_misplaced _ _ _)
  | yes later =>
      rw [readValue_yes hstart] at h
      exact absurd h (readWord_ne_misplaced _ _ _)
  | no later =>
      rw [readValue_no hstart] at h
      exact absurd h (readWord_ne_misplaced _ _ _)
  | string later =>
      rw [readValue_string hstart, map_eq_error_iff] at h
      exact absurd h (orMalformed_ne_misplaced _)
  | number c later hc =>
      rw [readValue_number hstart hc, map_eq_error_iff] at h
      exact absurd h (orMalformed_ne_misplaced _)
  | array later =>
      cases depth with
      | zero =>
          rw [readValue_array_zero hstart] at h
          cases h
      | succ depth =>
          by_cases hclose : ∃ after, skipBlanks later = ']' :: after
          · rcases hclose with ⟨after, hclose⟩
            rw [readValue_array_nil hstart hclose] at h
            cases h
          · rw [readValue_array hstart (not_exists.mp hclose), map_eq_error_iff] at h
            exact ⟨depth, rfl, Or.inl ⟨later, rfl, h⟩⟩
  | object later =>
      cases depth with
      | zero =>
          rw [readValue_object_zero hstart] at h
          cases h
      | succ depth =>
          refine ⟨depth, rfl, Or.inr ⟨later, rfl, ?_⟩⟩
          cases hb : b.object? with
          | none => exact Or.inl rfl
          | some build =>
              right
              by_cases hclose : ∃ after, skipBlanks later = '}' :: after
              · rcases hclose with ⟨after, hclose⟩
                rw [readValue_object_nil hstart hb hclose] at h
                cases h
              · rwa [readValue_object hstart hb (not_exists.mp hclose), map_eq_error_iff] at h

theorem readItems_cases (hitem : readValue b fuel depth cs = .ok (item, rest)) :
    (∃ after, skipBlanks rest = ']' :: after ∧
        readItems b (fuel + 1) depth cs = .ok ([item], after)) ∨
      (∃ later, skipBlanks rest = ',' :: later ∧
        readItems b (fuel + 1) depth cs =
          (readItems b fuel depth later).map fun found => (item :: found.1, found.2)) ∨
      readItems b (fuel + 1) depth cs = .error .malformed := by
  by_cases hclose : ∃ after, skipBlanks rest = ']' :: after
  · rcases hclose with ⟨after, hclose⟩
    exact Or.inl ⟨after, hclose, readItems_last hitem hclose⟩
  · right
    by_cases hcomma : ∃ later, skipBlanks rest = ',' :: later
    · rcases hcomma with ⟨later, hcomma⟩
      exact Or.inl ⟨later, hcomma, readItems_more hitem hcomma⟩
    · exact Or.inr (readItems_unseparated hitem (not_exists.mp hclose) (not_exists.mp hcomma))

theorem readItems_eq_ok {items : List α}
    (h : readItems b (fuel + 1) depth cs = .ok (items, after)) :
    ∃ item rest, readValue b fuel depth cs = .ok (item, rest) ∧
      ((skipBlanks rest = ']' :: after ∧ items = [item]) ∨
        ∃ later more, skipBlanks rest = ',' :: later ∧
          readItems b fuel depth later = .ok (more, after) ∧ items = item :: more) := by
  cases hitem : readValue b fuel depth cs with
  | error e =>
      rw [readItems_error hitem] at h
      cases h
  | ok found =>
      rcases found with ⟨item, rest⟩
      refine ⟨item, rest, rfl, ?_⟩
      rcases readItems_cases hitem with ⟨_, hclose, hread⟩ | ⟨later, hcomma, hread⟩ | hread
      · rw [hread] at h
        cases h
        exact Or.inl ⟨hclose, rfl⟩
      · rw [hread, map_eq_ok_iff] at h
        rcases h with ⟨⟨more, _⟩, hmore, heq⟩
        cases heq
        exact Or.inr ⟨later, more, hcomma, hmore, rfl⟩
      · rw [hread] at h
        cases h

theorem readItems_eq_misplaced (h : readItems b (fuel + 1) depth cs = .error .misplaced) :
    readValue b fuel depth cs = .error .misplaced ∨
      ∃ item rest later, readValue b fuel depth cs = .ok (item, rest) ∧
        skipBlanks rest = ',' :: later ∧ readItems b fuel depth later = .error .misplaced := by
  cases hitem : readValue b fuel depth cs with
  | error e =>
      rw [readItems_error hitem] at h
      cases h
      exact Or.inl rfl
  | ok found =>
      rcases found with ⟨item, rest⟩
      right
      rcases readItems_cases hitem with ⟨_, _, hread⟩ | ⟨later, hcomma, hread⟩ | hread
      · rw [hread] at h
        cases h
      · rw [hread, map_eq_error_iff] at h
        exact ⟨item, rest, later, rfl, hcomma, h⟩
      · rw [hread] at h
        cases h

/-- Members are read until something is wrong: with a name or what comes after a member, or
with a value. -/
theorem readMembers_cases (b : Builder α) (fuel depth : Nat) (cs : List Char) :
    readMembers b (fuel + 1) depth cs = .error .malformed ∨
      (∃ later e, readValue b fuel depth later = .error e ∧
        readMembers b (fuel + 1) depth cs = .error e) ∨
      ∃ name value rest, ReadsMember b fuel depth cs name value rest ∧
        ((∃ after, skipBlanks rest = '}' :: after ∧
            readMembers b (fuel + 1) depth cs = .ok ([(name, value)], after)) ∨
          ∃ later, skipBlanks rest = ',' :: later ∧
            readMembers b (fuel + 1) depth cs =
              (readMembers b fuel depth later).map fun found =>
                ((name, value) :: found.1, found.2)) := by
  generalize hread : readMembers b (fuel + 1) depth cs = found
  rw [readMembers] at hread
  split at hread
  · next start hstart =>
      cases hname : Quoted.readRest start with
      | none =>
          rw [hname] at hread
          exact Or.inl hread.symm
      | some named =>
          rcases named with ⟨content, afterName⟩
          rw [hname] at hread
          simp only [orMalformed, bind, Except.bind] at hread
          split at hread
          · next afterColon hcolon =>
              cases hvalue : readValue b fuel depth afterColon with
              | error e =>
                  rw [hvalue] at hread
                  exact Or.inr (Or.inl ⟨afterColon, e, hvalue, hread.symm⟩)
              | ok valued =>
                  rcases valued with ⟨value, rest⟩
                  have hmember : ReadsMember b fuel depth cs (String.ofList content) value rest :=
                    ⟨start, content, afterName, afterColon, hstart, hname, rfl, hcolon, hvalue⟩
                  rw [hvalue] at hread
                  simp only at hread
                  split at hread
                  · next after hclose =>
                      exact Or.inr (Or.inr ⟨_, value, rest, hmember,
                        Or.inl ⟨after, hclose, hread.symm⟩⟩)
                  · next later hcomma =>
                      exact Or.inr (Or.inr ⟨_, value, rest, hmember,
                        Or.inr ⟨later, hcomma, hread.symm⟩⟩)
                  · exact Or.inl hread.symm
          · exact Or.inl hread.symm
  · exact Or.inl hread.symm

theorem readMembers_eq_ok {members : List (String × α)}
    (h : readMembers b (fuel + 1) depth cs = .ok (members, after)) :
    ∃ name value rest, ReadsMember b fuel depth cs name value rest ∧
      ((skipBlanks rest = '}' :: after ∧ members = [(name, value)]) ∨
        ∃ later more, skipBlanks rest = ',' :: later ∧
          readMembers b fuel depth later = .ok (more, after) ∧
          members = (name, value) :: more) := by
  rcases readMembers_cases b fuel depth cs with
    hread | ⟨_, e, _, hread⟩ | ⟨name, value, rest, hmember, hrest⟩
  · rw [hread] at h
    cases h
  · rw [hread] at h
    cases h
  · refine ⟨name, value, rest, hmember, ?_⟩
    rcases hrest with ⟨_, hclose, hread⟩ | ⟨later, hcomma, hread⟩
    · rw [hread] at h
      cases h
      exact Or.inl ⟨hclose, rfl⟩
    · rw [hread, map_eq_ok_iff] at h
      rcases h with ⟨⟨more, _⟩, hmore, heq⟩
      cases heq
      exact Or.inr ⟨later, more, hcomma, hmore, rfl⟩

theorem readMembers_eq_misplaced (h : readMembers b (fuel + 1) depth cs = .error .misplaced) :
    (∃ later, readValue b fuel depth later = .error .misplaced) ∨
      ∃ later, readMembers b fuel depth later = .error .misplaced := by
  rcases readMembers_cases b fuel depth cs with
    hread | ⟨later, e, hvalue, hread⟩ | ⟨_, _, _, _, ⟨_, _, hread⟩ | ⟨later, _, hread⟩⟩
  · rw [hread] at h
    cases h
  · rw [hread] at h
    cases h
    exact Or.inl ⟨later, hvalue⟩
  · rw [hread] at h
    cases h
  · rw [hread, map_eq_error_iff] at h
    exact Or.inr ⟨later, h⟩

end

/-- What is misplaced in a text is misplaced in its value, not after it. -/
theorem read_eq_misplaced_iff {text : String} :
    read b text = .error .misplaced ↔
      readValue b (2 * text.length + 2) nestingLimit text.toList = .error .misplaced := by
  unfold read
  cases readValue b (2 * text.length + 2) nestingLimit text.toList with
  | error e => simp [bind, Except.bind]
  | ok found =>
      rcases found with ⟨value, rest⟩
      simp only [bind, Except.bind, finish]
      split <;> simp

end

end StaticSite.Json
