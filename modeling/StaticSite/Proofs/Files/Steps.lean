import Mathlib.Data.List.DropRight
import StaticSite.Files.Writing
/-!
# The steps of a path

The segments of a path that are not idle are its steps: names, and steps upwards.
They and whether the path is absolute say where it leads to among directories. The
parent of a path has all its steps but the last one, and a relative path seen from
another one has its own steps after those of the other.
-/

namespace StaticSite.Path

def stepsOf (segments : List Segment) : List Segment := segments.filter (!Segment.isIdle ·)

def steps (p : Path) : List Segment := stepsOf p.segments

@[simp] theorem stepsOf_nil : stepsOf [] = [] := rfl

@[simp] theorem stepsOf_append (segments rest : List Segment) :
    stepsOf (segments ++ rest) = stepsOf segments ++ stepsOf rest :=
  List.filter_append ..

theorem stepsOf_cons_of_isIdle {s : Segment} (h : s.isIdle = true) (rest : List Segment) :
    stepsOf (s :: rest) = stepsOf rest := by
  simp [stepsOf, h]

theorem stepsOf_cons_of_not_isIdle {s : Segment} (h : s.isIdle = false) (rest : List Segment) :
    stepsOf (s :: rest) = s :: stepsOf rest := by
  simp [stepsOf, h]

@[simp] theorem stepsOf_cons_nil (rest : List Segment) : stepsOf ([] :: rest) = stepsOf rest :=
  stepsOf_cons_of_isIdle rfl rest

@[simp] theorem stepsOf_cons_here (rest : List Segment) :
    stepsOf (Segment.here :: rest) = stepsOf rest :=
  stepsOf_cons_of_isIdle rfl rest

@[simp] theorem stepsOf_stepsOf (segments : List Segment) :
    stepsOf (stepsOf segments) = stepsOf segments := by
  simp [stepsOf]

@[simp] theorem stepsOf_steps (p : Path) : stepsOf p.steps = p.steps :=
  stepsOf_stepsOf p.segments

theorem stepsOf_eq_self {segments : List Segment} (h : ∀ s ∈ segments, s.isIdle = false) :
    stepsOf segments = segments :=
  List.filter_eq_self.mpr fun s hs => by simp [h s hs]

theorem not_isIdle_of_mem_stepsOf {s : Segment} {segments : List Segment}
    (h : s ∈ stepsOf segments) : s.isIdle = false := by
  simpa using (List.mem_filter.mp h).2

/-!
## Dropping idle segments at the end
-/

theorem stepsOf_rdropWhile {drops : Segment → Bool}
    (h : ∀ s, drops s = true → s.isIdle = true) (segments : List Segment) :
    stepsOf (segments.rdropWhile drops) = stepsOf segments := by
  induction segments using List.reverseRecOn with
  | nil => rfl
  | append_singleton segments s ih =>
      rw [List.rdropWhile_concat]
      split
      · next hs =>
          rw [ih, stepsOf_append, stepsOf_cons_of_isIdle (h s hs), stepsOf_nil,
            List.append_nil]
      · rfl

theorem trimEnd_eq (segments : List Segment) :
    trimEnd segments = segments.rdropWhile Segment.isIdle :=
  rfl

@[simp] theorem stepsOf_trimEnd (segments : List Segment) :
    stepsOf (trimEnd segments) = stepsOf segments :=
  stepsOf_rdropWhile (fun _ h => h) segments

@[simp] theorem stepsOf_trimSlashes (segments : List Segment) :
    stepsOf (Files.trimSlashes segments) = stepsOf segments := by
  show stepsOf (segments.rdropWhile (· == [])) = stepsOf segments
  apply stepsOf_rdropWhile
  intro s hs
  rw [eq_of_beq hs]
  rfl

theorem dropLast?_eq_none {segments : List Segment} (h : dropLast? segments = none) :
    stepsOf segments = [] := by
  unfold dropLast? at h
  split at h
  · next htrim => rw [← stepsOf_trimEnd, htrim, stepsOf_nil]
  · cases h

theorem dropLast?_eq_some {segments left : List Segment} (h : dropLast? segments = some left) :
    left <+: segments ∧ stepsOf left = (stepsOf segments).dropLast := by
  unfold dropLast? at h
  split at h
  · cases h
  · next htrim =>
      obtain rfl := Option.some.inj h
      have hne : segments.rdropWhile Segment.isIdle ≠ [] := htrim
      have hlast := List.rdropWhile_last_not Segment.isIdle segments hne
      constructor
      · exact (List.rdropWhile_prefix _ _).trans
          ((List.dropLast_prefix _).trans (List.rdropWhile_prefix _ _))
      · have hsplit := List.dropLast_append_getLast hne
        have hsteps : stepsOf segments =
            stepsOf (trimEnd segments).dropLast ++
              [(segments.rdropWhile Segment.isIdle).getLast hne] := by
          rw [← stepsOf_trimEnd, trimEnd_eq]
          conv => lhs; rw [← hsplit]
          rw [stepsOf_append, stepsOf_cons_of_not_isIdle (by simpa using hlast), stepsOf_nil]
        rw [stepsOf_trimEnd, hsteps, List.dropLast_concat]

/-!
## Segments and paths
-/

theorem not_mem_of_mem_splitOn {parts segment : List Utf8.Part}
    (h : segment ∈ parts.splitOn (.char '/')) : .char '/' ∉ segment := by
  induction parts generalizing segment with
  | nil => simp_all
  | cons part parts ih =>
      rw [List.splitOn_cons_eq_if_modifyHead] at h
      by_cases hp : part == .char '/'
      · rw [if_pos hp, List.mem_cons] at h
        rcases h with rfl | h
        · simp
        · exact ih h
      · obtain ⟨first, rest, hsplit⟩ :=
          List.exists_cons_of_ne_nil (List.splitOn_ne_nil (.char '/') parts)
        rw [if_neg hp, hsplit, List.modifyHead_cons, List.mem_cons] at h
        rw [hsplit] at ih
        rcases h with rfl | h
        · have hfirst := ih (List.mem_cons_self ..)
          simp only [List.mem_cons, not_or]
          exact ⟨fun heq => hp (by simp [heq]), hfirst⟩
        · exact ih (List.mem_cons_of_mem _ h)

theorem segments_eq_concat {p : Path} {front : List Segment} {x : Segment}
    (h : p.steps = front ++ [x])
    (hlast : ∀ y, p.segments.getLast? = some y → y.isIdle = false) :
    ∃ init, p.segments = init ++ [x] ∧ stepsOf init = front := by
  have hne : p.segments ≠ [] := List.splitOn_ne_nil _ _
  have hsplit := List.dropLast_append_getLast hne
  have hidle := hlast _ (List.getLast?_eq_some_getLast hne)
  rw [steps, ← hsplit, stepsOf_append, stepsOf_cons_of_not_isIdle hidle, stepsOf_nil] at h
  rcases List.append_inj' h rfl with ⟨hfront, hx⟩
  obtain rfl := List.singleton_inj.mp hx
  exact ⟨_, hsplit.symm, hfront⟩

theorem ofSegments_segments (p : Path) : ofSegments p.segments = p := by
  simp [ofSegments, segments]

theorem ofSegments_cons_cons (s t : Segment) (rest : List Segment) :
    (ofSegments (s :: t :: rest)).parts = s ++ .char '/' :: (ofSegments (t :: rest)).parts := by
  simp [ofSegments, List.intercalate_cons_cons]

theorem ofSegments_singleton (s : Segment) : (ofSegments [s]).parts = s := by
  simp [ofSegments]

theorem segments_ofSegments {segments : List Segment}
    (h : ∀ s ∈ segments, .char '/' ∉ s) (hne : segments ≠ []) :
    (ofSegments segments).segments = segments :=
  List.splitOn_intercalate _ h hne

theorem steps_ofSegments {segments : List Segment} (h : ∀ s ∈ segments, .char '/' ∉ s) :
    (ofSegments segments).steps = stepsOf segments := by
  by_cases hne : segments = []
  · subst hne
    rfl
  · rw [steps, segments_ofSegments h hne]

theorem segments_ofRoot (segments : List Segment) :
    (ofRoot segments).segments = [] :: (ofSegments segments).segments := by
  simp [ofRoot, Path.segments, List.splitOn_cons_eq_if_modifyHead]

theorem steps_ofRoot {segments : List Segment} (h : ∀ s ∈ segments, .char '/' ∉ s) :
    (ofRoot segments).steps = stepsOf segments := by
  rw [steps, segments_ofRoot, stepsOf_cons_nil, ← steps, steps_ofSegments h]

theorem isAbsolute_iff (p : Path) :
    p.isAbsolute = true ↔ ∃ s rest, p.segments = [] :: s :: rest := by
  rcases p with ⟨parts⟩
  constructor
  · intro h
    cases parts with
    | nil => simp [isAbsolute] at h
    | cons part parts =>
        obtain rfl : part = .char '/' := by simpa [isAbsolute] using h
        obtain ⟨s, rest, hsplit⟩ :=
          List.exists_cons_of_ne_nil (List.splitOn_ne_nil (.char '/') parts)
        exact ⟨s, rest, by simp [segments, List.splitOn_cons_eq_if_modifyHead, hsplit]⟩
  · rintro ⟨s, rest, h⟩
    have hparts : (ofSegments ([] :: s :: rest)).parts = parts := by
      rw [← h, ofSegments_segments]
    have hslash : parts = .char '/' :: (ofSegments (s :: rest)).parts := by
      rw [← hparts]
      simp [ofSegments, List.intercalate_cons_cons]
    simp [isAbsolute, hslash]

theorem isAbsolute_eq_false {p : Path} (h : ∀ s rest, p.segments ≠ [] :: s :: rest) :
    p.isAbsolute = false := by
  rw [Bool.eq_false_iff]
  intro habs
  rcases (isAbsolute_iff p).mp habs with ⟨s, rest, hsegments⟩
  exact h s rest hsegments

theorem not_isAbsolute_ofSegments {segments : List Segment}
    (h : ∀ s ∈ segments, .char '/' ∉ s) (hhead : segments.head? ≠ some []) :
    (ofSegments segments).isAbsolute = false := by
  by_cases hne : segments = []
  · subst hne
    rfl
  · rw [Bool.eq_false_iff]
    intro habs
    rcases (isAbsolute_iff _).mp habs with ⟨s, rest, hsegments⟩
    rw [segments_ofSegments h hne] at hsegments
    simp [hsegments] at hhead

/-!
## Parents and joined paths
-/

theorem head?_of_dropLast? {segments left : List Segment} (h : dropLast? segments = some left)
    (hrelative : ∀ s rest, segments ≠ [] :: s :: rest) : left.head? ≠ some [] := by
  intro hhead
  rcases (dropLast?_eq_some h).1 with ⟨rest, rfl⟩
  cases left with
  | nil => simp at hhead
  | cons first left =>
      obtain rfl : first = [] := by simpa using hhead
      cases hempty : left ++ rest with
      | nil =>
          rw [List.cons_append, hempty] at h
          cases h
      | cons t more => exact hrelative t more (by rw [List.cons_append, hempty])

/-- The parent of a path starts as the path does: with a slash, a dot, or neither. -/
theorem parent?_eq_some {p q : Path} (h : p.parent? = some q) :
    (∃ rest left, p.isAbsolute = true ∧ p.segments = [] :: rest ∧ dropLast? rest = some left ∧
        (∀ s ∈ left, .char '/' ∉ s) ∧ q = ofRoot left) ∨
      (∃ rest, p.isAbsolute = false ∧ p.segments = Segment.here :: rest ∧
        (dropLast? rest = none ∧ q = .empty ∨
          ∃ left, dropLast? rest = some left ∧ (∀ s ∈ Segment.here :: left, .char '/' ∉ s) ∧
            q = ofSegments (Segment.here :: left))) ∨
      ∃ left, p.isAbsolute = false ∧ dropLast? p.segments = some left ∧
        (∀ s ∈ left, .char '/' ∉ s) ∧ left.head? ≠ some [] ∧ q = ofSegments left := by
  have hslash : ∀ s ∈ p.segments, .char '/' ∉ s := fun s hs => not_mem_of_mem_splitOn hs
  unfold parent? at h
  split at h
  · next s rest hsegments =>
      rcases Option.map_eq_some_iff.mp h with ⟨left, hleft, rfl⟩
      rcases dropLast?_eq_some hleft with ⟨hbegins, -⟩
      rw [hsegments] at hslash
      exact Or.inl ⟨s :: rest, left, (isAbsolute_iff p).mpr ⟨s, rest, hsegments⟩, hsegments, hleft,
        fun t ht => hslash t (List.mem_cons_of_mem _ (hbegins.subset ht)), rfl⟩
  · next rest hsegments =>
      have habs : p.isAbsolute = false := isAbsolute_eq_false (by simp [hsegments])
      refine Or.inr (Or.inl ⟨rest, habs, hsegments, ?_⟩)
      split at h
      · next hnone => exact Or.inl ⟨hnone, (Option.some.inj h).symm⟩
      · next left hleft =>
          rcases dropLast?_eq_some hleft with ⟨hbegins, -⟩
          rw [hsegments] at hslash
          refine Or.inr ⟨left, hleft, ?_, (Option.some.inj h).symm⟩
          intro t ht
          rcases List.mem_cons.mp ht with rfl | ht
          · exact hslash _ (List.mem_cons_self ..)
          · exact hslash t (List.mem_cons_of_mem _ (hbegins.subset ht))
  · next habsolute _ =>
      have habs : p.isAbsolute = false := isAbsolute_eq_false habsolute
      rcases Option.map_eq_some_iff.mp h with ⟨left, hleft, rfl⟩
      rcases dropLast?_eq_some hleft with ⟨hbegins, -⟩
      exact Or.inr (Or.inr ⟨left, habs, hleft, fun t ht => hslash t (hbegins.subset ht),
        head?_of_dropLast? hleft habsolute, rfl⟩)

theorem steps_parent? {p q : Path} (h : p.parent? = some q) :
    q.isAbsolute = p.isAbsolute ∧ q.steps = p.steps.dropLast := by
  rcases parent?_eq_some h with ⟨rest, left, habs, hsegments, hleft, hslash, rfl⟩ |
    ⟨rest, habs, hsegments, ⟨hnone, rfl⟩ | ⟨left, hleft, hslash, rfl⟩⟩ |
    ⟨left, habs, hleft, hslash, hhead, rfl⟩
  · refine ⟨habs.symm, ?_⟩
    rw [steps_ofRoot hslash, (dropLast?_eq_some hleft).2, steps, hsegments, stepsOf_cons_nil]
  · have hsteps : p.steps = [] := by
      rw [steps, hsegments, stepsOf_cons_here, dropLast?_eq_none hnone]
    rw [habs, hsteps]
    exact ⟨rfl, rfl⟩
  · rw [habs, steps_ofSegments hslash, stepsOf_cons_here, (dropLast?_eq_some hleft).2, steps,
      hsegments, stepsOf_cons_here]
    exact ⟨not_isAbsolute_ofSegments hslash (by simp [Segment.here]), rfl⟩
  · rw [habs, steps_ofSegments hslash, (dropLast?_eq_some hleft).2, steps]
    exact ⟨not_isAbsolute_ofSegments hslash hhead, rfl⟩

theorem steps_of_parent?_eq_none {p : Path} (h : p.parent? = none) : p.steps = [] := by
  unfold parent? at h
  split at h
  · next hsegments =>
      rw [steps, hsegments, stepsOf_cons_nil]
      exact dropLast?_eq_none (Option.map_eq_none_iff.mp h)
  · split at h <;> cases h
  · exact dropLast?_eq_none (Option.map_eq_none_iff.mp h)

theorem intercalate_prefix {left segments : List Segment} (h : left <+: segments) :
    (ofSegments left).parts <+: (ofSegments segments).parts := by
  induction left generalizing segments with
  | nil => exact List.nil_prefix
  | cons s left ih =>
      rcases h with ⟨more, rfl⟩
      rw [List.cons_append]
      cases left with
      | nil =>
          cases more with
          | nil => exact List.prefix_rfl
          | cons t more => simp [ofSegments, List.intercalate_cons_cons]
      | cons t left =>
          have htail := ih (List.prefix_append (t :: left) more)
          simp only [ofSegments, List.cons_append, List.intercalate_cons_cons] at htail ⊢
          exact (List.prefix_append_right_inj _).mpr htail

theorem parts_parent? {p q : Path} (h : p.parent? = some q) : q.parts <+: p.parts := by
  have hp := congrArg Path.parts (ofSegments_segments p)
  rcases parent?_eq_some h with ⟨rest, left, -, hsegments, hleft, -, rfl⟩ |
    ⟨rest, -, hsegments, ⟨-, rfl⟩ | ⟨left, hleft, -, rfl⟩⟩ | ⟨left, -, hleft, -, -, rfl⟩
  · have hparts := intercalate_prefix (dropLast?_eq_some hleft).1
    cases rest with
    | nil => cases hleft
    | cons s rest =>
        rw [hsegments] at hp
        rw [← hp, ofRoot]
        simpa [ofSegments, List.intercalate_cons_cons] using hparts
  · exact List.nil_prefix
  · rw [← hp, hsegments]
    exact intercalate_prefix ((List.prefix_cons_inj Segment.here).mpr (dropLast?_eq_some hleft).1)
  · rw [← hp]
    exact intercalate_prefix (dropLast?_eq_some hleft).1

theorem isIdle_of_dropLast? {segments left : List Segment} (h : dropLast? segments = some left)
    {x : Segment} (hx : left.getLast? = some x) : x.isIdle = false := by
  unfold dropLast? at h
  split at h
  · cases h
  · obtain rfl := Option.some.inj h
    rw [trimEnd_eq] at hx
    have hne : (trimEnd segments).dropLast.rdropWhile Segment.isIdle ≠ [] := by
      intro hnil
      rw [hnil] at hx
      cases hx
    rw [List.getLast?_eq_some_getLast hne] at hx
    have hlast := List.rdropWhile_last_not Segment.isIdle _ hne
    rw [Option.some.inj hx] at hlast
    simpa using hlast

theorem isIdle_of_parent? {p q : Path} (h : p.parent? = some q) (hsteps : q.steps ≠ [])
    {x : Segment} (hx : q.segments.getLast? = some x) : x.isIdle = false := by
  rcases parent?_eq_some h with ⟨rest, left, -, -, hleft, hslash, rfl⟩ |
    ⟨rest, -, -, ⟨-, rfl⟩ | ⟨left, hleft, hslash, rfl⟩⟩ | ⟨left, -, hleft, hslash, -, rfl⟩
  · have hne : left ≠ [] := by
      rintro rfl
      exact hsteps (steps_ofRoot hslash)
    rw [segments_ofRoot, segments_ofSegments hslash hne, List.getLast?_cons_of_ne_nil hne] at hx
    exact isIdle_of_dropLast? hleft hx
  · exact absurd rfl hsteps
  · have hne : left ≠ [] := by
      rintro rfl
      exact hsteps (steps_ofSegments hslash)
    rw [segments_ofSegments hslash (by simp), List.getLast?_cons_of_ne_nil hne] at hx
    exact isIdle_of_dropLast? hleft hx
  · have hne : left ≠ [] := by
      rintro rfl
      exact hsteps rfl
    rw [segments_ofSegments hslash hne] at hx
    exact isIdle_of_dropLast? hleft hx

theorem isAbsolute_join {p q : Path} (hp : p.isEmpty = false) (hq : q.isAbsolute = false) :
    (p.join q).isAbsolute = p.isAbsolute := by
  rcases p with ⟨parts⟩
  cases parts with
  | nil => cases hp
  | cons part parts =>
      simp only [join, hq, Bool.false_eq_true, if_false]
      split <;> rfl

/-- The segments of a relative path stand at the end of its segments seen from another
path. Those before them are the segments of that path up to idle ones, and begin as they do. -/
theorem segments_join {p q : Path} (hp : p.isEmpty = false) (hq : q.isAbsolute = false) :
    ∃ front, (p.join q).segments = front ++ q.segments ∧ stepsOf front = p.steps ∧
      front.head? = p.segments.head? := by
  simp only [join, hq, Bool.false_eq_true, if_false, hp, Bool.false_or]
  split
  · next hlast =>
      rcases List.getLast?_eq_some_iff.mp (eq_of_beq hlast) with ⟨init, hinit⟩
      have hsegments : p.segments = init.splitOn (.char '/') ++ [[]] := by
        rw [segments, hinit, List.splitOn_append_cons_self, List.splitOn_nil]
      refine ⟨init.splitOn (.char '/'), ?_, ?_, ?_⟩
      · rw [segments, hinit, List.append_assoc, List.singleton_append,
          List.splitOn_append_cons_self, segments]
      · rw [steps, hsegments, stepsOf_append, stepsOf_cons_nil, stepsOf_nil, List.append_nil]
      · rw [hsegments, List.head?_append_of_ne_nil _ (List.splitOn_ne_nil _ _)]
  · exact ⟨p.segments, List.splitOn_append_cons_self .., rfl, rfl⟩

theorem steps_join {p q : Path} (hp : p.isEmpty = false) (hq : q.isAbsolute = false) :
    (p.join q).steps = p.steps ++ q.steps := by
  rcases segments_join hp hq with ⟨front, hsegments, hfront, -⟩
  rw [steps, hsegments, stepsOf_append, hfront, steps, steps]

theorem exists_front_join (p : Path) :
    ∃ front, p.parts <+: front ∧ ∀ q, q.isAbsolute = false → p.join q = ⟨front ++ q.parts⟩ := by
  by_cases hslash : (p.isEmpty || p.parts.getLast? == some (.char '/')) = true
  · refine ⟨p.parts, List.prefix_rfl, ?_⟩
    intro q hq
    rw [join, hq, if_neg Bool.false_ne_true, if_pos hslash]
  · refine ⟨p.parts ++ [.char '/'], List.prefix_append .., ?_⟩
    intro q hq
    rw [join, hq, if_neg Bool.false_ne_true, if_neg hslash, List.append_assoc,
      List.singleton_append]

theorem join_join {name : Segment} {q : Path} (p : Path) (hne : name ≠ [])
    (hname : .char '/' ∉ name) (hq : q.isAbsolute = false) :
    (p.join ⟨name⟩).join q = p.join ⟨name ++ .char '/' :: q.parts⟩ := by
  have habs : ∀ rest, isAbsolute ⟨name ++ rest⟩ = false := by
    intro rest
    rw [isAbsolute, List.head?_append_of_ne_nil _ hne, beq_eq_false_iff_ne]
    intro hhead
    exact hname (List.mem_of_head? hhead)
  have hlast : (name.getLast? == some (.char '/')) = false := by
    rw [beq_eq_false_iff_ne]
    intro hlast
    exact hname (List.mem_of_getLast? hlast)
  rcases p.exists_front_join with ⟨front, -, hfront⟩
  have hsame := habs []
  rw [List.append_nil] at hsame
  have hempty : isEmpty ⟨front ++ name⟩ = false := by
    simp [isEmpty, hne]
  rw [hfront _ hsame, hfront _ (habs _), join, hq, if_neg Bool.false_ne_true, hempty,
    List.getLast?_append_of_ne_nil _ hne, hlast, Bool.false_or, if_neg Bool.false_ne_true,
    List.append_assoc]

theorem steps_of_mem_ancestors {fuel : Nat} {p q : Path} (h : q ∈ Files.ancestors fuel p) :
    q.isAbsolute = p.isAbsolute ∧ q.steps <+: p.steps := by
  induction fuel generalizing p with
  | zero => cases h
  | succ fuel ih =>
      rw [Files.ancestors] at h
      split at h
      · obtain rfl := List.mem_singleton.mp h
        exact ⟨rfl, List.prefix_rfl⟩
      · next above habove =>
          rcases steps_parent? habove with ⟨habs, hsteps⟩
          rcases List.mem_cons.mp h with rfl | h
          · exact ⟨rfl, List.prefix_rfl⟩
          · rcases ih h with ⟨habs', hbegins⟩
            rw [hsteps] at hbegins
            exact ⟨habs'.trans habs, hbegins.trans (List.dropLast_prefix _)⟩

/-!
## Components

A path whose components are names, apart from the one that it starts with, has names
for steps.
-/

/-- Whether a path is made of names, after the root or not, and of at least one. -/
def isOrdinary (p : Path) : Bool :=
  p.components.all (fun c => c.isName || c == .root) && p.components.any Component.isName

theorem component_eq_up {s : Segment} : component s = .up ↔ s = Segment.up := by
  unfold component
  split <;> simp_all

theorem component_of_ne_up {s : Segment} (h : s ≠ Segment.up) : component s = .name s :=
  if_neg h

theorem laterComponents_eq (segments : List Segment) :
    laterComponents segments = (stepsOf segments).map component :=
  rfl

/-- What a path starts with besides its steps: the root, or a dot. -/
def start (p : Path) : List Component :=
  if p.isAbsolute then [.root]
  else if p.segments.head? = some Segment.here then [.here]
  else []

theorem isName_of_mem_start {p : Path} {c : Component} (h : c ∈ p.start) : c.isName = false := by
  unfold start at h
  split at h
  · rw [List.mem_singleton.mp h]
    rfl
  · split at h
    · rw [List.mem_singleton.mp h]
      rfl
    · cases h

theorem components_eq (p : Path) : p.components = p.start ++ p.steps.map component := by
  unfold components
  split
  · next s rest hsegments =>
      rw [start, if_pos ((isAbsolute_iff p).mpr ⟨s, rest, hsegments⟩), steps, hsegments,
        stepsOf_cons_nil, laterComponents_eq, List.singleton_append]
  · next rest hsegments =>
      have habs : p.isAbsolute = false := isAbsolute_eq_false (by simp [hsegments])
      have hsteps : p.steps = stepsOf rest := by
        rw [steps, hsegments]
        exact stepsOf_cons_here rest
      have hhead : p.segments.head? = some Segment.here := by
        rw [hsegments]
        rfl
      rw [start, habs, if_neg Bool.false_ne_true, if_pos hhead, hsteps, laterComponents_eq,
        List.singleton_append]
  · next hroot hhere =>
      have hhead : p.segments.head? ≠ some Segment.here := by
        intro hhead
        rcases List.head?_eq_some_iff.mp hhead with ⟨rest, hsegments⟩
        exact hhere rest hsegments
      rw [start, isAbsolute_eq_false hroot, if_neg Bool.false_ne_true, if_neg hhead,
        List.nil_append, laterComponents_eq]
      rfl

theorem start_join {p q : Path} (hp : p.isEmpty = false) (hq : q.isAbsolute = false) :
    (p.join q).start = p.start := by
  rcases segments_join hp hq with ⟨front, hsegments, -, hhead⟩
  have hne : front ≠ [] := by
    rintro rfl
    exact List.splitOn_ne_nil _ _ (List.head?_eq_none_iff.mp hhead.symm)
  rw [start, start, isAbsolute_join hp hq, hsegments, List.head?_append_of_ne_nil _ hne, hhead]

/-- A relative path seen from another one has the components of that and its own steps. -/
theorem components_join {p q : Path} (hp : p.isEmpty = false) (hq : q.isAbsolute = false) :
    (p.join q).components = p.components ++ q.steps.map component := by
  rw [components_eq, components_eq, start_join hp hq, steps_join hp hq, List.map_append,
    List.append_assoc]

theorem up_not_mem_steps {p : Path} (h : .up ∉ p.components) : Segment.up ∉ p.steps := by
  rw [components_eq] at h
  intro hup
  exact h (List.mem_append_right _ (List.mem_map.mpr ⟨_, hup, component_eq_up.mpr rfl⟩))

theorem steps_ne_nil {p : Path} (h : p.components.any Component.isName = true) :
    p.steps ≠ [] := by
  intro hnil
  rw [components_eq, hnil, List.map_nil, List.append_nil] at h
  rcases List.any_eq_true.mp h with ⟨c, hc, hname⟩
  rw [isName_of_mem_start hc] at hname
  cases hname

theorem root_mem_components {p : Path} (h : p.isAbsolute = true) : .root ∈ p.components := by
  rw [components_eq, start, if_pos h]
  exact List.mem_append_left _ (List.mem_singleton_self _)

theorem isOrdinary.up_not_mem {p : Path} (h : p.isOrdinary = true) : Segment.up ∉ p.steps := by
  simp only [isOrdinary, Bool.and_eq_true] at h
  apply up_not_mem_steps
  intro hup
  simpa [Component.isName] using List.all_eq_true.mp h.1 _ hup

theorem isOrdinary.steps_ne_nil {p : Path} (h : p.isOrdinary = true) : p.steps ≠ [] := by
  simp only [isOrdinary, Bool.and_eq_true] at h
  exact Path.steps_ne_nil h.2

theorem eq_empty_of_isEmpty {p : Path} (h : p.isEmpty = true) : p = .empty := by
  rcases p with ⟨parts⟩
  rw [isEmpty, List.isEmpty_iff] at h
  rw [empty, ← h]

theorem isEmpty_of_steps_ne_nil {p : Path} (h : p.steps ≠ []) : p.isEmpty = false := by
  rcases p with ⟨parts⟩
  cases parts with
  | nil => exact absurd rfl h
  | cons => rfl

end StaticSite.Path
