import Mathlib.Data.List.Basic
/-!
# Replacing characters

The library replaces a character of a string by way of a searcher, which walks the string
between positions and gives back the matches and the slices between them. What comes of it is
that every character is written by itself, the one to be replaced as its replacement
(`Text.toList_replace`). If several characters are replaced one after another, and none of
them is in a replacement made before, then it is as if all were replaced at once
(`Text.toList_replaceAll`).
-/

namespace StaticSite.Text

open String.Slice.Pattern String.Slice.Pattern.Model

def substitute : List (Char × String) → Char → List Char
  | [], d => [d]
  | (c, replacement) :: pairs, d => if d = c then replacement.toList else substitute pairs d

variable {pairs : List (Char × String)}

theorem substitute_of_not_mem {d : Char} (h : ∀ pair ∈ pairs, pair.1 ≠ d) :
    substitute pairs d = [d] := by
  induction pairs with
  | nil => rfl
  | cons pair pairs ih =>
      rw [List.forall_mem_cons] at h
      rw [substitute, if_neg (Ne.symm h.1), ih h.2]

theorem flatMap_substitute_of_not_mem {chars : List Char}
    (h : ∀ pair ∈ pairs, pair.1 ∉ chars) : chars.flatMap (substitute pairs) = chars := by
  have hsame : chars.flatMap (substitute pairs) = chars.flatMap fun d => [d] := by
    refine List.flatMap_congr fun d hd => substitute_of_not_mem fun pair hpair => ?_
    rintro rfl
    exact h pair hpair hd
  rw [hsame, List.flatMap_singleton']

/-!
## The steps of the search
-/

/-- Between two positions none of which, from the first on, is one of `c`, there is no `c`. -/
theorem not_mem_of_not_matchesAt {c : Char} {s : String.Slice} {start stop : s.Pos}
    {before between after : String} (hstart : start.Splits before (between ++ after))
    (hstop : stop.Splits (before ++ between) after)
    (h : ∀ p, start ≤ p → p < stop → ¬ MatchesAt c p) : c ∉ between.toList := by
  intro hmem
  rcases List.append_of_mem hmem with ⟨front, back, hsplit⟩
  have hbetween : between =
      String.ofList front ++ (String.singleton c ++ String.ofList back) := by
    rw [← String.toList_inj, hsplit]
    simp
  subst hbetween
  rw [String.append_assoc] at hstart
  have hp := hstart.splits_rotateRight
  refine h hstart.rotateRight ?_ ?_ ?_
  · rw [hstart.le_iff_exists_eq_append hp]
    exact ⟨_, rfl, rfl⟩
  · rw [hp.lt_iff_exists_eq_append hstop]
    refine ⟨String.singleton c ++ String.ofList back, ?_, ?_, rfl⟩
    · simp
    · rw [String.append_assoc]
  · rw [Char.matchesAt_iff_splits]
    exact ⟨_, String.ofList back ++ after, hp.of_eq rfl (by rw [String.append_assoc])⟩

def writeStep (replacement : String) {s : String.Slice} (written : String) :
    SearchStep s → String
  | .matched .. => written ++ replacement
  | .rejected start stop => written ++ (s.slice! start stop).copy

/-- From any position on, the steps of the search write what is after it. -/
theorem toList_foldl_writeStep {c : Char} (replacement : String) {s : String.Slice}
    {start : s.Pos} {steps : List (SearchStep s)} (h : IsValidSearchFrom c start steps)
    {before after : String} (hsplits : start.Splits before after) (written : String) :
    (steps.foldl (writeStep replacement) written).toList =
      written.toList ++ after.toList.flatMap (substitute [(c, replacement)]) := by
  induction h generalizing before after written with
  | endPos =>
      rw [(String.Slice.splits_endPos_iff.mp hsplits).2]
      simp
  | @matched rest start stop hmatch hrest ih =>
      rcases Char.isLongestMatchAt_iff.mp hmatch with ⟨hne, rfl, hget⟩
      rcases hsplits.exists_eq_singleton_append hne with ⟨later, rfl⟩
      rw [List.foldl_cons, ih hsplits.next]
      simp [writeStep, substitute, hget]
  | @mismatched rest start stop hlt hnone hrest ih =>
      rcases (hsplits.le_iff_exists_eq_append stop.splits).mp (Std.le_of_lt hlt) with
        ⟨between, hbefore, rfl⟩
      have hstop := stop.splits
      rw [hbefore] at hstop
      have hcopy : (s.slice! start stop).copy = between := by
        rcases String.Slice.copy_slice_eq_iff_splits.mpr ⟨_, _, hsplits, hstop⟩ with ⟨_, hcopy⟩
        rw [← hcopy, String.Slice.slice_eq_slice!]
      have hfree : c ∉ between.toList := not_mem_of_not_matchesAt hsplits hstop hnone
      rw [List.foldl_cons, ih hstop]
      have hsame : between.toList.flatMap (substitute [(c, replacement)]) = between.toList :=
        flatMap_substitute_of_not_mem (by simpa using hfree)
      simp [writeStep, hcopy, hsame]

theorem toList_replace (c : Char) (replacement text : String) :
    (text.replace c replacement).toList =
      text.toList.flatMap (substitute [(c, replacement)]) := by
  have hvalid : IsValidSearchFrom c text.toSlice.startPos
      (ToForwardSearcher.toSearcher c text.toSlice).toList :=
    LawfulToForwardSearcherModel.isValidSearchFrom_toList text.toSlice
  have hreplace : text.replace c replacement =
      (ToForwardSearcher.toSearcher c text.toSlice).fold (writeStep replacement) "" := by
    unfold String.replace String.Slice.replace
    congr 1
    funext written step
    cases step with
    | matched start stop => simp [writeStep, String.ToSlice.toSlice]
    | rejected start stop => rfl
  rw [hreplace, ← Std.Iter.foldl_toList,
    toList_foldl_writeStep replacement hvalid (String.Slice.splits_startPos _)]
  simp

/-!
## One character after another
-/

def replaceAll (pairs : List (Char × String)) (text : String) : String :=
  pairs.foldl (fun text pair => text.replace pair.1 pair.2) text

/-- No replacement has a character that is replaced later. -/
def IsSettled (pairs : List (Char × String)) : Prop :=
  pairs.Pairwise fun earlier later => later.1 ∉ earlier.2.toList

instance (pairs : List (Char × String)) : Decidable (IsSettled pairs) :=
  inferInstanceAs (Decidable (List.Pairwise _ pairs))

theorem toList_replaceAll (h : IsSettled pairs) (text : String) :
    (replaceAll pairs text).toList = text.toList.flatMap (substitute pairs) := by
  induction pairs generalizing text with
  | nil =>
      rw [flatMap_substitute_of_not_mem (by simp)]
      rfl
  | cons pair pairs ih =>
      rcases pair with ⟨c, replacement⟩
      rcases List.pairwise_cons.mp h with ⟨hfree, hpairs⟩
      have hall : replaceAll ((c, replacement) :: pairs) text =
          replaceAll pairs (text.replace c replacement) := rfl
      rw [hall, ih hpairs, toList_replace, List.flatMap_assoc]
      refine List.flatMap_congr fun d _ => ?_
      simp only [substitute]
      split
      · exact flatMap_substitute_of_not_mem hfree
      · rw [List.flatMap_singleton]

-- If the ampersand is not the first, it is replaced in references too.
example : ¬ IsSettled [('<', "&lt;"), ('&', "&amp;")] := by decide

end StaticSite.Text
