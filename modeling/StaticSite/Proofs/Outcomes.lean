/-!
# Outcomes

What the outcome of several steps, of which the first may fail, says of each of them.
-/

namespace StaticSite

variable {ε α β : Type} {found : Except ε α} {b : β}

theorem bind_eq_ok {next : α → Except ε β} (h : (found >>= next) = .ok b) :
    ∃ a, found = .ok a ∧ next a = .ok b := by
  cases found with
  | error e => cases h
  | ok a => exact ⟨a, rfl, h⟩

theorem map_eq_error_iff {f : α → β} {e : ε} : found.map f = .error e ↔ found = .error e := by
  cases found with
  | error e' => simp [Except.map]
  | ok a => simp [Except.map]

theorem map_eq_ok_iff {f : α → β} : found.map f = .ok b ↔ ∃ a, found = .ok a ∧ f a = b := by
  cases found with
  | error e => simp [Except.map]
  | ok a => simp [Except.map]

theorem eq_ok_of_toOption {a : α} (h : found.toOption = some a) : found = .ok a := by
  cases found with
  | ok b => rw [Option.some.inj h]
  | error e => cases h

theorem exists_ok_of_isOk (h : found.isOk = true) : ∃ a, found = .ok a := by
  cases found with
  | ok a => exact ⟨a, rfl⟩
  | error e => cases h

end StaticSite
