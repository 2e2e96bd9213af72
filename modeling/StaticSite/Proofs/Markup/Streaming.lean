import StaticSite.Markup.Serial
import StaticSite.Proofs.Json.Grammar
/-!
# Reading values with and without a tree

A value is read from a JSON text directly or by way of a tree. Both go through the text in
the same steps, but direct reading stops at the first object, whereas the tree is read to
its end before the value is taken from it. So the two give the same value for the same
texts, and differ at most in which of two failures they report
(`Value.ofJsonText_cases`). They do so for the texts that open an object before anything is
wrong with them, and are no JSON all the same.
-/

namespace StaticSite

namespace Json

mutual

def holdsObject : Json → Bool
  | .object _ => true
  | .array items => anyHoldsObject items
  | _ => false

def anyHoldsObject : List Json → Bool
  | [] => false
  | j :: js => holdsObject j || anyHoldsObject js

end

/-!
## Two readers in step

The outcome of direct reading follows from that of the reader of trees: it is what the tree
stands for, if it stands for anything. If it does not, or if the text turns out not to be
JSON after an object in it, direct reading has stopped at the object.
-/

/-- How the outcome of direct reading follows from that of reading a tree. -/
inductive Follows {α β : Type} (meaning? : β → Option α) :
    Except ReadError (β × List Char) → Except ReadError (α × List Char) → Prop where
  | read {b : β} {a : α} {rest : List Char} (h : meaning? b = some a) :
      Follows meaning? (.ok (b, rest)) (.ok (a, rest))
  | misplaced {b : β} {rest : List Char} (h : meaning? b = none) :
      Follows meaning? (.ok (b, rest)) (.error .misplaced)
  | malformed : Follows meaning? (.error .malformed) (.error .malformed)
  | stopped : Follows meaning? (.error .malformed) (.error .misplaced)

namespace Follows

variable {α β α' β' : Type} {meaning? : β → Option α} {meaning'? : β' → Option α'}
  {tree : Except ReadError (β × List Char)} {direct : Except ReadError (α × List Char)}

theorem ne_misplaced (h : Follows meaning? tree direct) : tree ≠ .error .misplaced := by
  cases h <;> simp

theorem eq_ok {b : β} {a : α} {rest : List Char} (h : Follows meaning? (.ok (b, rest)) direct)
    (hb : meaning? b = some a) : direct = .ok (a, rest) := by
  cases h with
  | read ha => rw [Option.some.inj (ha.symm.trans hb)]
  | misplaced hnone => rw [hnone] at hb; cases hb

theorem exists_of_ok {a : α} {rest : List Char} (h : Follows meaning? tree (.ok (a, rest))) :
    ∃ b, tree = .ok (b, rest) ∧ meaning? b = some a := by
  cases h with
  | read ha => exact ⟨_, rfl, ha⟩

theorem map (h : Follows meaning? tree direct) {f : β → β'} {g : α → α'}
    (hmeaning : ∀ b, meaning'? (f b) = (meaning? b).map g) :
    Follows meaning'? (tree.map fun found => (f found.1, found.2))
      (direct.map fun found => (g found.1, found.2)) := by
  cases h with
  | read hb => exact .read (by rw [hmeaning, hb, Option.map_some])
  | misplaced hb => exact .misplaced (by rw [hmeaning, hb, Option.map_none])
  | malformed => exact .malformed
  | stopped => exact .stopped

/-- Direct reading may stop where nothing that is read from there on stands for anything. -/
theorem of_misplaced (hne : tree ≠ .error .misplaced)
    (h : ∀ b rest, tree = .ok (b, rest) → meaning? b = none) :
    Follows meaning? tree (.error .misplaced) := by
  rcases tree with (_ | _) | ⟨b, rest⟩
  · exact .stopped
  · exact absurd rfl hne
  · exact .misplaced (h b rest rfl)

theorem token {γ : Type} (found : Option (γ × List Char)) {f : γ → β} {g : γ → α}
    (hmeaning : ∀ c, meaning? (f c) = some (g c)) :
    Follows meaning? ((orMalformed found).map fun found => (f found.1, found.2))
      ((orMalformed found).map fun found => (g found.1, found.2)) := by
  cases found with
  | none => exact .malformed
  | some found => exact .read (hmeaning found.1)

theorem word (word : String) {b : β} {a : α} (hmeaning : meaning? b = some a)
    (cs : List Char) : Follows meaning? (readWord word b cs) (readWord word a cs) := by
  unfold readWord
  split
  · exact .read hmeaning
  · exact .malformed

end Follows

end Json

namespace Value

open Json (Follows Start readValue readItems readMembers skipBlanks)

mutual

theorem ofJson?_isSome (j : Json) : (ofJson? j).isSome = !j.holdsObject := by
  cases j with
  | array items =>
      rw [ofJson?, Option.isSome_map, ofJsons?_isSome items, Json.holdsObject]
  | _ => rfl

theorem ofJsons?_isSome (js : List Json) : (ofJsons? js).isSome = !Json.anyHoldsObject js := by
  cases js with
  | nil => rfl
  | cons j js =>
      have hhead := ofJson?_isSome j
      have hrest := ofJsons?_isSome js
      rw [ofJsons?, Json.anyHoldsObject, Bool.not_or, ← hhead, ← hrest]
      cases ofJson? j with
      | none => rfl
      | some v =>
          cases ofJsons? js with
          | none => rfl
          | some vs => rfl

end

theorem ofJsons?_cons (j : Json) (js : List Json) :
    ofJsons? (j :: js) = (ofJson? j).bind fun v => (ofJsons? js).map (v :: ·) := by
  rw [ofJsons?]
  cases ofJson? j with
  | none => rfl
  | some v => exact (Option.map_eq_bind ..).symm

mutual

/-- Direct reading goes in step with the reader of trees, call by call. -/
theorem readValue_follows (fuel depth : Nat) (cs : List Char) :
    Follows ofJson? (readValue .tree fuel depth cs) (readValue builder fuel depth cs) := by
  cases fuel with
  | zero => exact .malformed
  | succ fuel =>
      generalize hstart : skipBlanks cs = start
      cases Start.of start with
      | nothing =>
          rw [Json.readValue_nothing hstart, Json.readValue_nothing hstart]
          exact .malformed
      | null later =>
          have hnull : ofJson? .null = some .null := rfl
          rw [Json.readValue_null hstart, Json.readValue_null hstart]
          exact .word "null" hnull _
      | yes later =>
          have hyes : ofJson? (.bool true) = some (.bool true) := rfl
          rw [Json.readValue_yes hstart, Json.readValue_yes hstart]
          exact .word "true" hyes _
      | no later =>
          have hno : ofJson? (.bool false) = some (.bool false) := rfl
          rw [Json.readValue_no hstart, Json.readValue_no hstart]
          exact .word "false" hno _
      | string later =>
          have hstring : ∀ content, ofJson? (.string (String.ofList content)) =
              some (.text (String.ofList content)) := fun _ => rfl
          rw [Json.readValue_string hstart, Json.readValue_string hstart]
          exact .token _ hstring
      | number c later hc =>
          have hnumber : ∀ n, ofJson? (.number n) = some n.toValue := fun _ => rfl
          rw [Json.readValue_number hstart hc, Json.readValue_number hstart hc]
          exact .token _ hnumber
      | array later =>
          cases depth with
          | zero =>
              rw [Json.readValue_array_zero hstart, Json.readValue_array_zero hstart]
              exact .malformed
          | succ depth =>
              by_cases hclose : ∃ after, skipBlanks later = ']' :: after
              · rcases hclose with ⟨after, hclose⟩
                rw [Json.readValue_array_nil hstart hclose, Json.readValue_array_nil hstart hclose]
                exact .read rfl
              · rw [Json.readValue_array hstart (not_exists.mp hclose),
                  Json.readValue_array hstart (not_exists.mp hclose)]
                exact (readItems_follows fuel depth later).map fun _ => rfl
      | object later =>
          cases depth with
          | zero =>
              rw [Json.readValue_object_zero hstart, Json.readValue_object_zero hstart]
              exact .malformed
          | succ depth =>
              rw [Json.readValue_object_none (b := builder) hstart rfl]
              by_cases hclose : ∃ after, skipBlanks later = '}' :: after
              · rcases hclose with ⟨after, hclose⟩
                rw [Json.readValue_object_nil hstart rfl hclose]
                exact .misplaced rfl
              · rw [Json.readValue_object hstart rfl (not_exists.mp hclose)]
                cases hmembers : readMembers .tree fuel depth later with
                | ok found => exact .misplaced rfl
                | error e =>
                    cases e with
                    | malformed => exact .stopped
                    | misplaced => exact absurd hmembers (readMembers_ne_misplaced fuel depth later)

theorem readItems_follows (fuel depth : Nat) (cs : List Char) :
    Follows ofJsons? (readItems .tree fuel depth cs) (readItems builder fuel depth cs) := by
  cases fuel with
  | zero => exact .malformed
  | succ fuel =>
      have hitem := readValue_follows fuel depth cs
      generalize htree : readValue .tree fuel depth cs = tree at hitem
      generalize hdirect : readValue builder fuel depth cs = direct at hitem
      cases hitem with
      | @read j v rest hj =>
          by_cases hclose : ∃ after, skipBlanks rest = ']' :: after
          · rcases hclose with ⟨after, hclose⟩
            rw [Json.readItems_last htree hclose, Json.readItems_last hdirect hclose]
            exact .read (by rw [ofJsons?_cons, hj]; rfl)
          · by_cases hcomma : ∃ after, skipBlanks rest = ',' :: after
            · rcases hcomma with ⟨after, hcomma⟩
              rw [Json.readItems_more htree hcomma, Json.readItems_more hdirect hcomma]
              refine (readItems_follows fuel depth after).map fun js => ?_
              rw [ofJsons?_cons, hj]
              rfl
            · rw [Json.readItems_unseparated htree (not_exists.mp hclose) (not_exists.mp hcomma),
                Json.readItems_unseparated hdirect (not_exists.mp hclose) (not_exists.mp hcomma)]
              exact .malformed
      | @misplaced j rest hj =>
          -- Here only the reader of trees goes on; whatever it finds holds the object.
          rw [Json.readItems_error hdirect]
          refine .of_misplaced ?_ ?_
          · intro hitems
            rcases Json.readItems_eq_misplaced hitems with hvalue | ⟨_, _, later, _, _, hlater⟩
            · rw [htree] at hvalue
              cases hvalue
            · exact (readItems_follows fuel depth later).ne_misplaced hlater
          · intro js after hitems
            rcases Json.readItems_eq_ok hitems with ⟨_, _, hvalue, hrest⟩
            rw [htree] at hvalue
            cases hvalue
            rcases hrest with ⟨_, rfl⟩ | ⟨_, _, _, _, rfl⟩
            · rw [ofJsons?_cons, hj]
              rfl
            · rw [ofJsons?_cons, hj]
              rfl
      | malformed =>
          rw [Json.readItems_error htree, Json.readItems_error hdirect]
          exact .malformed
      | stopped =>
          rw [Json.readItems_error htree, Json.readItems_error hdirect]
          exact .stopped

theorem readMembers_ne_misplaced (fuel depth : Nat) (cs : List Char) :
    readMembers .tree fuel depth cs ≠ .error .misplaced := by
  cases fuel with
  | zero => simp [readMembers]
  | succ fuel =>
      intro h
      rcases Json.readMembers_eq_misplaced h with ⟨later, hvalue⟩ | ⟨later, hmembers⟩
      · exact (readValue_follows fuel depth later).ne_misplaced hvalue
      · exact readMembers_ne_misplaced fuel depth later hmembers

end

/-!
## Whole texts
-/

theorem readTree_eq_ok_iff {α : Type} {meaning? : Json → Option α} {text : String} {a : α} :
    readTree meaning? text = .ok a ↔ ∃ j, Json.read .tree text = .ok j ∧ meaning? j = some a := by
  unfold readTree
  cases Json.read .tree text with
  | error e => simp [bind, Except.bind]
  | ok j => cases hj : meaning? j <;> simp [bind, Except.bind, hj]

/-- Direct reading comes to the same, or has stopped at an object in a text that is not
JSON. -/
theorem ofJsonText_cases (text : String) :
    ofJsonText text = ofJsonTree text ∨
      (ofJsonText text = .error .misplaced ∧ ofJsonTree text = .error .malformed) := by
  have hvalue := readValue_follows (2 * text.length + 2) Json.nestingLimit text.toList
  unfold ofJsonText ofJsonTree readTree Json.read
  generalize readValue .tree (2 * text.length + 2) Json.nestingLimit text.toList = tree at hvalue
  generalize readValue builder (2 * text.length + 2) Json.nestingLimit text.toList = direct
    at hvalue
  cases hvalue with
  | @read j v rest hj =>
      left
      by_cases hrest : (skipBlanks rest).isEmpty = true
      · simp [bind, Except.bind, Json.finish, hrest, hj]
      · simp [bind, Except.bind, Json.finish, hrest]
  | @misplaced j rest hj =>
      by_cases hrest : (skipBlanks rest).isEmpty = true
      · left
        simp [bind, Except.bind, Json.finish, hrest, hj]
      · right
        simp [bind, Except.bind, Json.finish, hrest]
  | malformed => exact Or.inl rfl
  | stopped => exact Or.inr ⟨rfl, rfl⟩

theorem ofJsonText_eq_ok_iff {text : String} {v : Value} :
    ofJsonText text = .ok v ↔ ofJsonTree text = .ok v := by
  rcases ofJsonText_cases text with heq | ⟨hdirect, htree⟩
  · rw [heq]
  · simp [hdirect, htree]

theorem map_ofOption_optionOfJson? (j : Json) : (optionOfJson? j).map ofOption = ofJson? j := by
  cases j with
  | null => rfl
  | _ => simp [optionOfJson?, Function.comp_def, ofOption]

theorem map_ofOption_optionOfJsonTree (text : String) :
    (optionOfJsonTree text).map ofOption = ofJsonTree text := by
  unfold optionOfJsonTree ofJsonTree readTree
  cases Json.read .tree text with
  | error e => rfl
  | ok j =>
      simp only [bind, Except.bind, ← map_ofOption_optionOfJson? j]
      cases optionOfJson? j <;> rfl

theorem exists_ofJson? {j : Json} : (∃ v, ofJson? j = some v) ↔ j.holdsObject = false := by
  rw [← Option.isSome_iff_exists, ofJson?_isSome, Bool.not_eq_true']

theorem ofJsonText_eq_ok_iff_isWritten {text : String} {v : Value} :
    ofJsonText text = .ok v ↔
      ∃ j, Json.IsWritten Json.nestingLimit (.value j) text.toList ∧ ofJson? j = some v := by
  rw [ofJsonText_eq_ok_iff, ofJsonTree, readTree_eq_ok_iff]
  simp only [Json.read_tree_eq_ok_iff]

end Value

/-!
## The first object

Direct reading refuses a text for an object in it if all that comes before the object is
right. What comes after the brace that opens it makes no difference.
-/

namespace Json

def IsObjectFree (depth : Nat) (cs : List Char) : Prop :=
  ∃ j, IsWritten depth (.value j) cs ∧ j.holdsObject = false

def withCommas (items : List (List Char)) : List Char := items.flatMap (· ++ [','])

theorem withCommas_cons (item : List Char) (items : List (List Char)) :
    withCommas (item :: items) = item ++ ',' :: withCommas items := by
  simp [withCommas]

/-- The beginning of a value up to the brace that opens the first object in it. -/
inductive OpensObject : Nat → List Char → Prop where
  | brace (depth : Nat) : OpensObject (depth + 1) ['{']
  | blank {depth : Nat} {c : Char} {cs : List Char} (hc : isBlank c = true)
      (h : OpensObject depth cs) : OpensObject depth (c :: cs)
  | array {depth : Nat} {items : List (List Char)} {cs : List Char}
      (hitems : ∀ item ∈ items, IsObjectFree depth item) (h : OpensObject depth cs) :
      OpensObject (depth + 1) ('[' :: (withCommas items ++ cs))

theorem OpensObject.blanks {depth : Nat} {blanks cs : List Char}
    (hblanks : ∀ c ∈ blanks, isBlank c = true) (h : OpensObject depth cs) :
    OpensObject depth (blanks ++ cs) := by
  induction blanks with
  | nil => exact h
  | cons c blanks ih =>
      rw [List.forall_mem_cons] at hblanks
      exact .blank hblanks.1 (ih hblanks.2)

theorem OpensObject.ne_nil {depth : Nat} {cs : List Char} (h : OpensObject depth cs) :
    cs ≠ [] := by
  cases h <;> simp

end Json

namespace Value

open Json (IsObjectFree OpensObject readValue readItems skipBlanks withCommas)

theorem isObjectFree_of_readValue {fuel depth : Nat} {cs rest : List Char} {v : Value}
    (h : readValue builder fuel depth cs = .ok (v, rest)) :
    ∃ used, cs = used ++ skipBlanks rest ∧ IsObjectFree depth used := by
  have hfollows := readValue_follows fuel depth cs
  rw [h] at hfollows
  rcases hfollows.exists_of_ok with ⟨j, htree, hj⟩
  rcases Json.isWritten_of_readValue fuel htree with ⟨used, rfl, hwritten⟩
  rcases hwritten.exists_skipBlanks rest with ⟨used', hused, hwritten⟩
  exact ⟨used', hused, j, hwritten, exists_ofJson?.mp ⟨v, hj⟩⟩

mutual

theorem opensObject_of_readValue (fuel : Nat) {depth : Nat} {cs : List Char}
    (h : readValue builder fuel depth cs = .error .misplaced) :
    ∃ used rest, cs = used ++ rest ∧ OpensObject depth used := by
  cases fuel with
  | zero => cases h
  | succ fuel =>
      rcases Json.exists_blanks cs with ⟨blanks, hblanks, hcs⟩
      rcases Json.readValue_eq_misplaced h with
        ⟨inner, rfl, ⟨later, hstart, hitems⟩ | ⟨later, hstart, _⟩⟩
      · rcases opensObject_of_readItems fuel hitems with ⟨items, used, rest, rfl, hfree, hopens⟩
        refine ⟨blanks ++ '[' :: (withCommas items ++ used), rest, ?_,
          (OpensObject.array hfree hopens).blanks hblanks⟩
        rw [hcs, hstart]
        simp
      · refine ⟨blanks ++ ['{'], later, ?_, (OpensObject.brace inner).blanks hblanks⟩
        rw [hcs, hstart]
        simp

theorem opensObject_of_readItems (fuel : Nat) {depth : Nat} {cs : List Char}
    (h : readItems builder fuel depth cs = .error .misplaced) :
    ∃ items used rest, cs = withCommas items ++ (used ++ rest) ∧
      (∀ item ∈ items, IsObjectFree depth item) ∧ OpensObject depth used := by
  cases fuel with
  | zero => cases h
  | succ fuel =>
      rcases Json.readItems_eq_misplaced h with hvalue | ⟨v, rest, later, hvalue, hcomma, hlater⟩
      · rcases opensObject_of_readValue fuel hvalue with ⟨used, rest, rfl, hopens⟩
        exact ⟨[], used, rest, rfl, by simp, hopens⟩
      · rcases isObjectFree_of_readValue hvalue with ⟨item, rfl, hitem⟩
        rcases opensObject_of_readItems fuel hlater with ⟨items, used, rest', rfl, hfree, hopens⟩
        refine ⟨item :: items, used, rest', ?_, List.forall_mem_cons.mpr ⟨hitem, hfree⟩, hopens⟩
        rw [hcomma, Json.withCommas_cons, List.append_assoc, List.cons_append]

end

theorem readItems_of_isObjectFree {fuel depth : Nat} {item : List Char}
    (hitem : IsObjectFree depth item) (hfuel : 2 * item.length ≤ fuel + 1) (later : List Char) :
    ∃ v, readItems builder (fuel + 1) depth (item ++ ',' :: later) =
      (readItems builder fuel depth later).map fun found => (v :: found.1, found.2) := by
  rcases hitem with ⟨j, hwritten, hj⟩
  rcases Json.isRead_of_isWritten hwritten fuel (',' :: later) hfuel
    (Json.notAhead_cons.mpr (by decide)) with ⟨rest, htree, hcomma⟩
  rcases exists_ofJson?.mpr hj with ⟨v, hv⟩
  have hfollows := readValue_follows fuel depth (item ++ ',' :: later)
  rw [htree] at hfollows
  exact ⟨v, Json.readItems_more (hfollows.eq_ok hv) hcomma⟩

theorem readItems_of_opened {depth : Nat} {items : List (List Char)} {cs more : List Char}
    (hitems : ∀ item ∈ items, IsObjectFree depth item) (hne : cs ≠ [])
    (h : ∀ fuel, 2 * cs.length ≤ fuel + 1 →
      readValue builder fuel depth (cs ++ more) = .error .misplaced) {fuel : Nat}
    (hfuel : 2 * (withCommas items ++ cs).length ≤ fuel) :
    readItems builder fuel depth (withCommas items ++ cs ++ more) =
      .error .misplaced := by
  have hlength := List.length_pos_iff.mpr hne
  rw [List.length_append] at hfuel
  induction items generalizing fuel with
  | nil =>
      cases fuel with
      | zero => omega
      | succ fuel => exact Json.readItems_error (h fuel (by simpa [withCommas] using hfuel))
  | cons item items ih =>
      rw [List.forall_mem_cons] at hitems
      rw [Json.withCommas_cons, List.length_append, List.length_cons] at hfuel
      cases fuel with
      | zero => omega
      | succ fuel =>
          have hitemFuel : 2 * item.length ≤ fuel + 1 := by omega
          have hrestFuel : 2 * ((withCommas items).length + cs.length) ≤ fuel := by omega
          rcases readItems_of_isObjectFree hitems.1 hitemFuel _ with ⟨v, hitem⟩
          rw [Json.withCommas_cons, List.append_assoc, List.append_assoc, List.cons_append,
            ← List.append_assoc, hitem, ih hitems.2 hrestFuel]
          rfl

theorem readValue_of_opensObject {depth : Nat} {cs : List Char} (h : OpensObject depth cs)
    (more : List Char) {fuel : Nat} (hfuel : 2 * cs.length ≤ fuel + 1) :
    readValue builder fuel depth (cs ++ more) = .error .misplaced := by
  induction h generalizing fuel with
  | brace depth =>
      cases fuel with
      | zero => simp at hfuel
      | succ fuel => exact Json.readValue_object_none rfl rfl
  | @blank depth c cs hc _ ih =>
      rw [← Json.readValue_skipBlanks, List.cons_append, Json.skipBlanks_cons hc,
        Json.readValue_skipBlanks]
      exact ih (by simp only [List.length_cons] at hfuel; omega)
  | @array depth items cs hitems hopens ih =>
      cases fuel with
      | zero => simp at hfuel; omega
      | succ fuel =>
          have hread := readItems_of_opened hitems hopens.ne_nil (fun _ => ih)
            (by simp only [List.length_cons] at hfuel; omega : _ ≤ fuel)
          rw [List.cons_append, Json.readValue_array rfl, hread]
          · rfl
          · intro after hclose
            rw [Json.readItems_of_close hclose] at hread
            cases hread

/-- Direct reading refuses exactly the texts that open an object before anything is wrong. -/
theorem ofJsonText_eq_misplaced_iff {text : String} :
    ofJsonText text = .error .misplaced ↔
      ∃ before after, text.toList = before ++ after ∧
        OpensObject Json.nestingLimit before := by
  rw [ofJsonText, Json.read_eq_misplaced_iff]
  constructor
  · intro h
    exact opensObject_of_readValue _ h
  · rintro ⟨before, after, htext, hopens⟩
    have hfuel : 2 * before.length ≤ 2 * text.length + 2 + 1 := by
      rw [← String.length_toList, htext, List.length_append]
      omega
    rw [htext]
    exact readValue_of_opensObject hopens after hfuel

/-- Reading by way of a tree finds fault exactly with the texts that are not JSON. -/
theorem ofJsonTree_eq_malformed_iff {text : String} :
    ofJsonTree text = .error .malformed ↔
      ∀ j, ¬ Json.IsWritten Json.nestingLimit (.value j) text.toList := by
  have hne : Json.read .tree text ≠ .error .misplaced := by
    rw [Ne, Json.read_eq_misplaced_iff]
    exact (readValue_follows _ _ _).ne_misplaced
  simp only [← Json.read_tree_eq_ok_iff]
  unfold ofJsonTree readTree
  cases htree : Json.read .tree text with
  | ok j => cases hj : ofJson? j <;> simp [bind, Except.bind, hj]
  | error e =>
      cases e with
      | malformed => simp [bind, Except.bind]
      | misplaced => exact absurd htree hne

/-- Reading a text directly and by way of a tree, be it as a value or as an optional one,
gives the same values, and these are the values of the texts that are JSON without objects.
If the two differ then in what they find fault with, and only for a text that is not JSON,
in which an object opens before anything is wrong. -/
theorem ofJsonText_agrees (text : String) :
    (∀ v, ofJsonText text = .ok v ↔ ofJsonTree text = .ok v) ∧
      (optionOfJsonTree text).map ofOption = ofJsonTree text ∧
      (∀ v, ofJsonText text = .ok v ↔
        ∃ j, Json.IsWritten Json.nestingLimit (.value j) text.toList ∧ ofJson? j = some v) ∧
      ((∃ v, ofJsonText text = .ok v) ↔ IsObjectFree Json.nestingLimit text.toList) ∧
      (ofJsonTree text = .error .misplaced → ofJsonText text = .error .misplaced) ∧
      (ofJsonText text = .error .malformed → ofJsonTree text = .error .malformed) ∧
      (ofJsonText text ≠ ofJsonTree text →
        ofJsonText text = .error .misplaced ∧ ofJsonTree text = .error .malformed) ∧
      (ofJsonText text ≠ ofJsonTree text ↔
        (∃ before after, text.toList = before ++ after ∧ OpensObject Json.nestingLimit before) ∧
          ∀ j, ¬ Json.IsWritten Json.nestingLimit (.value j) text.toList) := by
  refine ⟨fun v => ofJsonText_eq_ok_iff, map_ofOption_optionOfJsonTree text,
    fun v => ofJsonText_eq_ok_iff_isWritten, ?_, ?_, ?_, ?_, ?_⟩
  · simp only [ofJsonText_eq_ok_iff_isWritten, IsObjectFree, ← exists_ofJson?]
    exact ⟨fun ⟨v, j, hwritten, hj⟩ => ⟨j, hwritten, v, hj⟩,
      fun ⟨j, hwritten, v, hj⟩ => ⟨v, j, hwritten, hj⟩⟩
  · intro htree
    rcases ofJsonText_cases text with heq | ⟨hdirect, _⟩
    · rw [heq, htree]
    · exact hdirect
  · intro hdirect
    rcases ofJsonText_cases text with heq | ⟨_, htree⟩
    · rw [← heq, hdirect]
    · exact htree
  · intro hne
    exact (ofJsonText_cases text).resolve_left hne
  · rw [← ofJsonText_eq_misplaced_iff, ← ofJsonTree_eq_malformed_iff]
    constructor
    · exact (ofJsonText_cases text).resolve_left
    · rintro ⟨hdirect, htree⟩ heq
      rw [heq, htree] at hdirect
      cases hdirect

theorem ofJsonText_agrees_refused :
    ofJsonText "[null, \x7b\x7d]" = .error .misplaced ∧ ofJsonTree "[null, " = .error .malformed ∧
      (∃ before after, "[null, \x7b\x7d, ".toList = before ++ after ∧
        OpensObject Json.nestingLimit before) ∧
      ofJsonTree "[ -7,\"Caf\\u00e9\\n\"]" = .ok (.list [.int (-7), .text "Café\n"]) ∧
      IsObjectFree Json.nestingLimit "[ -7,\"Caf\\u00e9\\n\"]".toList := by
  refine ⟨?_, ?_, ?_, ?_⟩
  · have htree : ofJsonTree "[null, \x7b\x7d]" = .error .misplaced := by cbv
    exact (ofJsonText_agrees _).2.2.2.2.1 htree
  · have hdirect : ofJsonText "[null, " = .error .malformed := by cbv
    exact (ofJsonText_agrees _).2.2.2.2.2.1 hdirect
  · have hdirect : ofJsonText "[null, \x7b\x7d, " = .error .misplaced := by cbv
    have htree : ofJsonTree "[null, \x7b\x7d, " = .error .malformed := by cbv
    have hne : ofJsonText "[null, \x7b\x7d, " ≠ ofJsonTree "[null, \x7b\x7d, " := by
      simp [hdirect, htree]
    exact ((ofJsonText_agrees _).2.2.2.2.2.2.2.mp hne).1
  · -- The text that is read is put together by the rules.
    have hseven : Text.IsNumeral ['7'] 7 := Text.isNumeral_iff.mpr (by decide)
    have hnumber : Json.Number.IsSpelled (.negative (-7)) ['-', '7'] :=
      .minus (.parts hseven .none .none (by decide))
    have hstring : Json.Quoted.AreSpelled ['C', 'a', 'f', 'é', '\n']
        ['C', 'a', 'f', '\\', 'u', '0', '0', 'e', '9', '\\', 'n'] :=
      .cons (.plain (by decide) (by decide) (by decide)) <|
        .cons (.plain (by decide) (by decide) (by decide)) <|
        .cons (.plain (by decide) (by decide) (by decide)) <|
        .cons (.unit (n := 0xE9) (by decide) (by decide)) <|
        .cons (.letter (by decide)) .nil
    have hwritten : Json.IsWritten Json.nestingLimit
        (.value (.array [.number (.negative (-7)),
          .string (String.ofList ['C', 'a', 'f', 'é', '\n'])]))
        "[ -7,\"Caf\\u00e9\\n\"]".toList := by
      have hblank : Json.isBlank ' ' = true := by decide
      have hitems := Json.IsWritten.item (.blankBefore hblank (.number 126 hnumber))
        (.lastItem (.string 126 hstring)) (List.cons_ne_nil _ _)
      exact hitems.array
    have hdirect : ofJsonText "[ -7,\"Caf\\u00e9\\n\"]" =
        .ok (.list [.int (-7), .text "Café\n"]) :=
      ((ofJsonText_agrees _).2.2.1 _).mpr ⟨_, hwritten, rfl⟩
    exact ⟨((ofJsonText_agrees _).1 _).mp hdirect, (ofJsonText_agrees _).2.2.2.1.mp ⟨_, hdirect⟩⟩

end Value

end StaticSite
