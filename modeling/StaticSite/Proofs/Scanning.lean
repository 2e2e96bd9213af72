/-!
# The first problem of a list

A scan goes through a list once. It checks every item against what it remembers of those
before, and ends at the first problem. So what it reports is the problem of an item that comes
after items without one, in the light of these.
-/

namespace StaticSite

variable {α σ ε : Type}

/-- Whether a function of a memory and a list reports the first problem of a check of each item
against the memory, where items that pass are remembered. -/
structure IsScan (scan : σ → List α → Option ε) (check : σ → α → Option ε)
    (remember : σ → α → σ) : Prop where
  nil : ∀ seen, scan seen [] = none
  cons : ∀ seen item rest,
    scan seen (item :: rest) = (check seen item).or (scan (remember seen item) rest)

namespace IsScan

variable {scan : σ → List α → Option ε} {check : σ → α → Option ε} {remember : σ → α → σ}

theorem append (h : IsScan scan check remember) (seen : σ) (before rest : List α) :
    scan seen (before ++ rest) =
      (scan seen before).or (scan (before.foldl remember seen) rest) := by
  induction before generalizing seen with
  | nil => rw [List.nil_append, h.nil, Option.none_or, List.foldl_nil]
  | cons item before ih =>
      rw [List.cons_append, h.cons, ih, h.cons, Option.or_assoc, List.foldl_cons]

/-- A reported problem is that of an item after items that pass. -/
theorem eq_some_iff (h : IsScan scan check remember) (seen : σ) {items : List α} {problem : ε} :
    scan seen items = some problem ↔
      ∃ before item after, items = before ++ item :: after ∧ scan seen before = none ∧
        check (before.foldl remember seen) item = some problem := by
  constructor
  · intro hsome
    induction items generalizing seen with
    | nil =>
        rw [h.nil] at hsome
        cases hsome
    | cons item rest ih =>
        rw [h.cons] at hsome
        cases hcheck : check seen item with
        | some found =>
            rw [hcheck, Option.some_or] at hsome
            exact ⟨[], item, rest, rfl, h.nil seen, hcheck.trans hsome⟩
        | none =>
            rw [hcheck, Option.none_or] at hsome
            rcases ih _ hsome with ⟨before, later, after, rfl, hbefore, hlater⟩
            refine ⟨item :: before, later, after, rfl, ?_, hlater⟩
            rw [h.cons, hcheck, Option.none_or, hbefore]
  · rintro ⟨before, item, after, rfl, hbefore, hcheck⟩
    rw [h.append, hbefore, Option.none_or, h.cons, hcheck, Option.some_or]

end IsScan

end StaticSite
