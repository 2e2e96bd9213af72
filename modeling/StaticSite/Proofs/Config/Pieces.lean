import StaticSite.Proofs.Config.Template
/-!
# The pieces of a template

A text with references is read from left to right, one piece at a time. Which piece comes next is
decided by how the text begins: a character other than a dollar stands for itself, and what a
dollar stands for depends on what comes directly after it. What is written between braces goes
into the piece as it stands. The rules are stated here for one piece, and reading is shown to
follow them (`Template.reads_iff`, `Template.isTemplate_iff`).
-/

namespace StaticSite.Template

variable {cs rest name : List Char} {piece : Piece} {pieces : List Piece}

/-- How a piece is written at the beginning of a text. A name in braces ends at the first `:-`
unless that comes first. -/
inductive Spells : Piece → List Char → List Char → Prop where
  | char {c : Char} {rest : List Char} : c ≠ '$' → Spells (.literal [c]) (c :: rest) rest
  | dollars {rest : List Char} : Spells (.literal ['$']) ('$' :: '$' :: rest) rest
  | lone {rest : List Char} :
      (∀ c, rest.head? = some c → c ≠ '\x7b' ∧ c ≠ '$' ∧ isNameChar c = false) →
      Spells (.literal ['$']) ('$' :: rest) rest
  | unclosed {rest : List Char} : '\x7d' ∉ rest →
      Spells (.literal ['$', '\x7b']) ('$' :: '\x7b' :: rest) rest
  | name {name rest : List Char} : name ≠ [] → (∀ c ∈ name, isNameChar c = true) →
      (∀ c, rest.head? = some c → isNameChar c = false) →
      Spells (.reference (String.ofList name) none) ('$' :: (name ++ rest)) rest
  | braced {name rest : List Char} : '\x7d' ∉ name →
      ([':', '-'] <:+: name → [':', '-'] <+: name) →
      Spells (.reference (String.ofList name) none)
        ('$' :: '\x7b' :: (name ++ '\x7d' :: rest)) rest
  | withDefault {name default rest : List Char} : name ≠ [] → '\x7d' ∉ name ++ default →
      ¬ [':', '-'] <:+: name →
      Spells (.reference (String.ofList name) (some (String.ofList default)))
        ('$' :: '\x7b' :: (name ++ ':' :: '-' :: (default ++ '\x7d' :: rest))) rest

inductive Reads : List Char → List Piece → Prop where
  | nil : Reads [] []
  | cons {cs rest : List Char} {piece : Piece} {pieces : List Piece} :
      Spells piece cs rest → Reads rest pieces → Reads cs (piece :: pieces)

def IsTemplate (text : String) (pieces : List Piece) : Prop :=
  (HasNoBraces text.toList → pieces = [.literal text.toList]) ∧
    (¬ HasNoBraces text.toList → Reads text.toList pieces)

/-!
## Names and defaults
-/

theorem splitDefault?_eq_some {default : List Char} (h : splitDefault? cs = some (name, default)) :
    cs = name ++ ':' :: '-' :: default ∧ ¬ [':', '-'] <:+: name := by
  induction cs generalizing name with
  | nil => cases h
  | cons c cs ih =>
      unfold splitDefault? at h
      split at h
      · next heq => cases heq
      · next later heq =>
          cases h
          exact ⟨heq, by simp⟩
      · next d later hother heq =>
          rcases List.cons_eq_cons.mp heq with ⟨rfl, rfl⟩
          rcases Option.map_eq_some_iff.mp h with ⟨⟨front, back⟩, hsplit, hresult⟩
          cases hresult
          rcases ih hsplit with ⟨hcs, hfront⟩
          refine ⟨by rw [hcs, List.cons_append], ?_⟩
          rw [List.infix_cons_iff]
          intro hpair
          rcases hpair with hfirst | hpair
          · rcases hfirst with ⟨after, hafter⟩
            rcases List.cons_eq_cons.mp hafter with ⟨rfl, rfl⟩
            exact hother _ rfl (by rw [hcs]; rfl)
          · exact hfront hpair

theorem not_infix_of_splitDefault?_eq_none (h : splitDefault? cs = none) :
    ¬ [':', '-'] <:+: cs := by
  induction cs with
  | nil => simp
  | cons c cs ih =>
      unfold splitDefault? at h
      split at h
      · next heq => cases heq
      · cases h
      · next d later hother heq =>
          rcases List.cons_eq_cons.mp heq with ⟨rfl, rfl⟩
          rw [List.infix_cons_iff]
          intro hpair
          rcases hpair with hfirst | hpair
          · rcases hfirst with ⟨after, hafter⟩
            rcases List.cons_eq_cons.mp hafter with ⟨rfl, rfl⟩
            exact hother after rfl rfl
          · exact ih (Option.map_eq_none_iff.mp h) hpair

theorem splitDefault?_append (h : ¬ [':', '-'] <:+: name) (default : List Char) :
    splitDefault? (name ++ ':' :: '-' :: default) = some (name, default) := by
  induction name with
  | nil => rfl
  | cons c name ih =>
      have hname := ih fun hpair => h (hpair.trans (List.suffix_cons c name).isInfix)
      rw [List.cons_append]
      unfold splitDefault?
      split
      · next heq => cases heq
      · next rest heq =>
          rcases List.cons_eq_cons.mp heq with ⟨rfl, htail⟩
          cases name with
          | nil => cases htail
          | cons d name =>
              rcases List.cons_eq_cons.mp htail with ⟨rfl, -⟩
              exact absurd (List.prefix_append [':', '-'] name).isInfix h
      · next d rest _ heq =>
          rcases List.cons_eq_cons.mp heq with ⟨rfl, rfl⟩
          rw [hname, Option.map_some]

theorem reference_withDefault (hname : name ≠ []) (h : ¬ [':', '-'] <:+: name)
    (default : List Char) :
    reference (name ++ ':' :: '-' :: default) =
      .reference (String.ofList name) (some (String.ofList default)) := by
  rw [reference, splitDefault?_append h]
  cases name with
  | nil => exact absurd rfl hname
  | cons c name => rfl

theorem reference_braced (h : [':', '-'] <:+: name → [':', '-'] <+: name) :
    reference name = .reference (String.ofList name) none := by
  by_cases hpair : [':', '-'] <:+: name
  · rcases h hpair with ⟨default, rfl⟩
    rfl
  · exact reference_of_not_infix hpair

/-!
## Reading one piece
-/

theorem takeWhile_append_of_head? {p : Char → Bool} (hcs : ∀ c ∈ cs, p c = true)
    (hrest : ∀ c, rest.head? = some c → p c = false) : (cs ++ rest).takeWhile p = cs := by
  rw [List.takeWhile_append_of_pos hcs]
  cases rest with
  | nil => rw [List.takeWhile_nil, List.append_nil]
  | cons c rest =>
      rw [List.takeWhile_cons_of_neg (by simp [hrest c rfl]), List.append_nil]

theorem dropWhile_append_of_head? {p : Char → Bool} (hcs : ∀ c ∈ cs, p c = true)
    (hrest : ∀ c, rest.head? = some c → p c = false) : (cs ++ rest).dropWhile p = rest := by
  rw [List.dropWhile_append_of_pos hcs]
  cases rest with
  | nil => rfl
  | cons c rest => exact List.dropWhile_cons_of_neg (by simp [hrest c rfl])

theorem scan_unclosed (h : '\x7d' ∉ cs) :
    scan ('$' :: '\x7b' :: cs) = .literal ['$', '\x7b'] :: scan cs := by
  rw [scan, if_neg h]

theorem Spells.scan (h : Spells piece cs rest) : scan cs = piece :: Template.scan rest := by
  cases h with
  | char hc => exact scan_char hc rest
  | dollars => exact scan_dollars rest
  | lone hhead => exact scan_lone hhead
  | unclosed hbrace => exact scan_unclosed hbrace
  | @name name _ hne hname hhead =>
      cases name with
      | nil => exact absurd rfl hne
      | cons c name =>
          have hlater : ∀ d ∈ name, isNameChar d = true :=
            fun d hd => hname d (List.mem_cons_of_mem c hd)
          rw [List.cons_append, scan_name (hname c List.mem_cons_self),
            takeWhile_append_of_head? hlater hhead, dropWhile_append_of_head? hlater hhead]
  | braced hbrace hdefault =>
      rw [scan_reference hbrace, reference_braced hdefault]
  | @withDefault name default _ hne hbrace hdefault =>
      have hcontent : '\x7d' ∉ name ++ ':' :: '-' :: default := by
        simpa using hbrace
      rw [show name ++ ':' :: '-' :: (default ++ '\x7d' :: rest) =
          (name ++ ':' :: '-' :: default) ++ '\x7d' :: rest by simp,
        scan_reference hcontent, reference_withDefault hne hdefault]

theorem Spells.length_lt (h : Spells piece cs rest) : rest.length < cs.length := by
  cases h <;> simp <;> omega

theorem exists_spells_braced (cs : List Char) :
    ∃ piece rest, Spells piece ('$' :: '\x7b' :: cs) rest := by
  by_cases hbrace : '\x7d' ∈ cs
  · rcases List.eq_append_cons_of_mem hbrace with ⟨content, rest, rfl, hcontent⟩
    cases hsplit : splitDefault? content with
    | none =>
        have hdefault := not_infix_of_splitDefault?_eq_none hsplit
        exact ⟨_, rest, .braced hcontent fun hpair => absurd hpair hdefault⟩
    | some parts =>
        rcases parts with ⟨name, default⟩
        rcases splitDefault?_eq_some hsplit with ⟨rfl, hname⟩
        by_cases hne : name = []
        · subst hne
          exact ⟨_, rest, .braced hcontent fun _ => List.prefix_append [':', '-'] default⟩
        · have hparts : '\x7d' ∉ name ++ default := by
            simpa using hcontent
          rw [List.append_assoc, List.cons_append, List.cons_append]
          exact ⟨_, rest, .withDefault hne hparts hname⟩
  · exact ⟨_, cs, .unclosed hbrace⟩

theorem exists_spells_name {c : Char} (h : isNameChar c = true) (cs : List Char) :
    ∃ piece rest, Spells piece ('$' :: c :: cs) rest := by
  have hname : ∀ d ∈ c :: cs.takeWhile isNameChar, isNameChar d = true := by
    intro d hd
    rcases List.mem_cons.mp hd with rfl | hd
    · exact h
    · exact List.all_eq_true.mp List.all_takeWhile d hd
  have hhead : ∀ d, (cs.dropWhile isNameChar).head? = some d → isNameChar d = false := by
    intro d hd
    have hdrop := List.head?_dropWhile_not isNameChar cs
    rw [hd] at hdrop
    simpa using hdrop
  have hspells := Spells.name (List.cons_ne_nil c _) hname hhead
  rw [List.cons_append, List.takeWhile_append_dropWhile] at hspells
  exact ⟨_, _, hspells⟩

theorem exists_spells (c : Char) (cs : List Char) :
    ∃ piece rest, Spells piece (c :: cs) rest := by
  by_cases hc : c = '$'
  · subst hc
    cases cs with
    | nil => exact ⟨_, [], .lone (by simp)⟩
    | cons d cs =>
        by_cases hbrace : d = '\x7b'
        · subst hbrace
          exact exists_spells_braced cs
        by_cases hdollar : d = '$'
        · subst hdollar
          exact ⟨_, cs, .dollars⟩
        cases hd : isNameChar d with
        | false =>
            have hhead : ∀ e, (d :: cs).head? = some e →
                e ≠ '\x7b' ∧ e ≠ '$' ∧ isNameChar e = false := by
              intro e he
              rw [List.head?_cons, Option.some.injEq] at he
              subst he
              exact ⟨hbrace, hdollar, hd⟩
            exact ⟨_, d :: cs, .lone hhead⟩
        | true => exact exists_spells_name hd cs
  · exact ⟨_, cs, .char hc⟩

/-!
## Reading a text
-/

theorem reads_scan (cs : List Char) : Reads cs (scan cs) := by
  induction hlength : cs.length using Nat.strongRecOn generalizing cs with
  | ind length ih =>
      cases cs with
      | nil =>
          rw [scan]
          exact .nil
      | cons c cs =>
          rcases exists_spells c cs with ⟨piece, rest, hspells⟩
          rw [hspells.scan]
          apply Reads.cons hspells
          exact ih rest.length (hlength ▸ hspells.length_lt) rest rfl

theorem Reads.scan_eq (h : Reads cs pieces) : scan cs = pieces := by
  induction h with
  | nil => rw [scan]
  | cons hspells _ ih => rw [hspells.scan, ih]

/-- A text is read in one way, and that is how it is scanned. -/
theorem reads_iff : Reads cs pieces ↔ scan cs = pieces := by
  constructor
  · exact Reads.scan_eq
  · intro h
    rw [← h]
    exact reads_scan cs

-- A default ends at the first closing brace, whatever else is in it.
example :
    scan "$\x7bA:-$\x7bB\x7d$\x7d".toList =
      [.reference "A" (some "$\x7bB"), .literal ['$'], .literal ['\x7d']] := by
  decide +kernel

theorem hasReference_of_not_hasNoBraces (h : ¬ HasNoBraces cs) : hasReference cs = true := by
  rcases Classical.not_not.mp h with ⟨before, after, rfl⟩
  rw [List.append_assoc]
  exact hasReference_append before after

theorem isTemplate_iff {text : String} : IsTemplate text pieces ↔ ofString text = pieces := by
  unfold IsTemplate ofString
  by_cases h : HasNoBraces text.toList
  · rw [hasReference_eq_false h, if_neg Bool.false_ne_true]
    simp [h, eq_comm]
  · rw [hasReference_of_not_hasNoBraces h, if_pos rfl]
    simp [h, reads_iff]

end StaticSite.Template
