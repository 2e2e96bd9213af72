import StaticSite.Config.Basic
import StaticSite.Proofs.Text.Unquoting
/-!
# What messages say

The message for a problem says which one it is: the number of a page ends at a bracket, what
follows it is different for different kinds of problems, and a quoted url is that of one text
only (`ConfigProblem.message_injective`).
-/

namespace StaticSite

theorem pageFieldName_inj {index other : Nat} {field rest : String} :
    pageFieldName index field = pageFieldName other rest ↔ index = other ∧ field = rest := by
  -- The digits of a number have no bracket, so they end at the first one.
  have hdigits : ∀ n : Nat, ∀ c ∈ Nat.toDigits 10 n, decide (c ≠ ']') = true := by
    intro n c hc
    rcases Text.mem_toDigits (by decide) hc with ⟨d, rfl⟩
    exact decide_eq_true (Nat.digitChar_ne ']' rfl)
  have htoList : ∀ n text, (pageFieldName n text).toList =
      "pages[".toList ++ (Nat.toDigits 10 n ++ ']' :: text.toList) := by
    intro n text
    simp [pageFieldName]
  constructor
  · intro h
    rw [← String.toList_inj, htoList, htoList, List.append_cancel_left_eq] at h
    have hnumber := congrArg (List.takeWhile fun c => decide (c ≠ ']')) h
    rw [List.takeWhile_append_of_pos (hdigits index),
      List.takeWhile_append_of_pos (hdigits other)] at hnumber
    have hsame : Nat.toDigits 10 index = Nat.toDigits 10 other := by simpa using hnumber
    rw [hsame, List.append_cancel_left_eq, List.cons.injEq, String.toList_inj] at h
    have hindex := congrArg (Nat.ofDigitChars 10 · 0) hsame
    rw [Nat.ofDigitChars_ten_toDigits, Nat.ofDigitChars_ten_toDigits] at hindex
    exact ⟨hindex, h.2⟩
  · rintro ⟨rfl, rfl⟩
    rfl

namespace ConfigProblem

variable {problem other : ConfigProblem}

def page? : ConfigProblem → Option Nat
  | emptyStylesheet => none
  | emptyTitle index | emptyUrl index | contentChoice index | repeatedUrl index _ => some index

/-- What a message says but for the name of a page. -/
def complaint : ConfigProblem → String
  | emptyStylesheet => "site.stylesheets[] cannot be empty"
  | emptyTitle _ => ".title cannot be empty"
  | emptyUrl _ => ".url cannot be empty"
  | contentChoice _ => " must set exactly one of source or text"
  | repeatedUrl _ url => ".url " ++ Text.quoted url ++ " is used by another page"

def opening : ConfigProblem → String
  | emptyStylesheet => "site.s"
  | emptyTitle _ => ".title"
  | emptyUrl _ => ".url c"
  | contentChoice _ => " must "
  | repeatedUrl _ _ => ".url \""

theorem take_complaint : problem.complaint.toList.take 6 = problem.opening.toList := by
  cases problem <;> simp [complaint, opening, Text.quoted]

theorem opening_eq (h : problem.complaint = other.complaint) : problem.opening = other.opening := by
  rw [← String.toList_inj, ← take_complaint, ← take_complaint, h]

/-- The first letters tell the kind of problem, and only the kind with a url has something more
to tell. -/
theorem eq_of_complaint_eq (hpage : problem.page? = other.page?)
    (h : problem.complaint = other.complaint) : problem = other := by
  have hopening := opening_eq h
  cases problem <;> cases other <;> simp_all [page?, opening, complaint]
  exact Text.quoted_injective h

theorem message_eq (problem : ConfigProblem) :
    problem.message = match problem.page? with
      | none => problem.complaint
      | some index => pageFieldName index problem.complaint := by
  cases problem with
  | repeatedUrl index url =>
      simp only [message, page?, complaint, pageFieldName, String.append_assoc]
  | _ => rfl

theorem complaint_ne_pageFieldName {index : Nat} {field : String} :
    problem.complaint ≠ pageFieldName index field := by
  intro h
  have hhead := congrArg (List.head? ∘ String.toList) h
  cases problem <;> simp [complaint, pageFieldName] at hhead

theorem message_injective : Function.Injective message := by
  intro problem other h
  rw [message_eq, message_eq] at h
  cases hpage : problem.page? with
  | none =>
      cases hother : other.page? with
      | none =>
          rw [hpage, hother] at h
          exact eq_of_complaint_eq (hpage.trans hother.symm) h
      | some later =>
          rw [hpage, hother] at h
          exact absurd h complaint_ne_pageFieldName
  | some index =>
      cases hother : other.page? with
      | none =>
          rw [hpage, hother] at h
          exact absurd h.symm complaint_ne_pageFieldName
      | some later =>
          rw [hpage, hother] at h
          rcases pageFieldName_inj.mp h with ⟨rfl, hcomplaint⟩
          exact eq_of_complaint_eq (hpage.trans hother.symm) hcomplaint

end ConfigProblem

end StaticSite
