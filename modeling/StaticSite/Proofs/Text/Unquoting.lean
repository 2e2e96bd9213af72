import StaticSite.Text.Digits
import StaticSite.Text.Quoted
import Mathlib.Data.List.Basic
/-!
# Reading quoted text back

A quoted character can be told from what follows it: after a backslash the next letter says how
much is read, and the digits of a code point end at a brace. So different texts are different
when they are quoted (`Text.quoted_injective`).
-/

namespace StaticSite.Text

/-!
## Numerals
-/

theorem hexValue?_digitChar : ∀ n < 16, hexValue? n.digitChar = some n := by decide

theorem mem_toDigits {radix n : Nat} {c : Char} (hradix : 1 < radix)
    (h : c ∈ Nat.toDigits radix n) : ∃ d, c = Nat.digitChar d := by
  induction n using Nat.strongRecOn with
  | ind n ih =>
      rw [Nat.toDigits_eq_if hradix] at h
      split at h
      · exact ⟨n, List.mem_singleton.mp h⟩
      · rename_i hle
        rw [List.mem_append, List.mem_singleton] at h
        rcases h with h | rfl
        · exact ih _ (Nat.div_lt_self (by omega) hradix) h
        · exact ⟨_, rfl⟩

theorem radixValue?_toDigits {radix : Nat} (hradix : 1 < radix) (hle : radix ≤ 16) (n : Nat) :
    radixValue? radix (Nat.toDigits radix n) = some n := by
  induction n using Nat.strongRecOn with
  | ind n ih =>
      rw [Nat.toDigits_eq_if hradix]
      split
      · rename_i hlt
        simp [radixValue?, hexValue?_digitChar n (by omega)]
      · rename_i hge
        have hdigit : n % radix < 16 := by
          have := Nat.mod_lt n (show 0 < radix by omega)
          omega
        have hfront := ih _ (Nat.div_lt_self (show 0 < n by omega) hradix)
        rw [radixValue?] at hfront
        rw [radixValue?, List.foldlM_append, hfront]
        simp [hexValue?_digitChar _ hdigit, Nat.div_add_mod]

/-!
## Characters
-/

def unquoteChar? : List Char → Option (Char × List Char)
  | '\\' :: '0' :: rest => some ('\x00', rest)
  | '\\' :: 't' :: rest => some ('\t', rest)
  | '\\' :: 'n' :: rest => some ('\n', rest)
  | '\\' :: 'r' :: rest => some ('\r', rest)
  | '\\' :: 'u' :: '\x7b' :: rest =>
    (radixValue? 16 (rest.takeWhile (· ≠ '\x7d'))).map fun n =>
      (Char.ofNat n, (rest.dropWhile (· ≠ '\x7d')).tail)
  | '\\' :: c :: rest => some (c, rest)
  | c :: rest => some (c, rest)
  | [] => none

theorem unquoteChar?_of_ne {c : Char} (h : c ≠ '\\') (rest : List Char) :
    unquoteChar? (c :: rest) = some (c, rest) := by
  simp [unquoteChar?, h]

theorem unquoteChar?_codePointEscape (c : Char) (rest : List Char) :
    unquoteChar? (codePointEscape c ++ rest) = some (c, rest) := by
  have hdigits : ∀ d ∈ Nat.toDigits 16 c.toNat, decide (d ≠ '\x7d') = true := by
    intro d hd
    rcases mem_toDigits (by decide) hd with ⟨n, rfl⟩
    exact decide_eq_true (Nat.digitChar_ne '\x7d' rfl)
  have hsplit : codePointEscape c ++ rest =
      '\\' :: 'u' :: '\x7b' :: (Nat.toDigits 16 c.toNat ++ '\x7d' :: rest) := by
    simp [codePointEscape]
  rw [hsplit, unquoteChar?, List.takeWhile_append_of_pos hdigits,
    List.dropWhile_append_of_pos hdigits]
  simp [radixValue?_toDigits]

theorem unquoteChar?_quotedChar (c : Char) (rest : List Char) :
    unquoteChar? (quotedChar c ++ rest) = some (c, rest) := by
  unfold quotedChar
  split
  · rfl
  · rfl
  · rfl
  · rfl
  · rfl
  · rfl
  · rename_i hbackslash
    split
    · exact unquoteChar?_codePointEscape c rest
    · exact unquoteChar?_of_ne hbackslash rest

/-!
## Texts
-/

theorem eq_of_flatMap_quotedChar {chars others : List Char}
    (h : chars.flatMap quotedChar = others.flatMap quotedChar) : chars = others := by
  induction chars generalizing others with
  | nil =>
      cases others with
      | nil => rfl
      | cons d others =>
          have hread := congrArg unquoteChar? h
          rw [List.flatMap_cons, unquoteChar?_quotedChar] at hread
          cases hread
  | cons c chars ih =>
      have hread := congrArg unquoteChar? h
      rw [List.flatMap_cons, unquoteChar?_quotedChar] at hread
      cases others with
      | nil => cases hread
      | cons d others =>
          rw [List.flatMap_cons, unquoteChar?_quotedChar] at hread
          rcases Prod.mk.inj (Option.some.inj hread) with ⟨rfl, hrest⟩
          rw [ih hrest]

theorem quoted_injective : Function.Injective quoted := by
  intro text other h
  rw [quoted, quoted, String.append_left_inj, String.append_right_inj, String.ofList_inj] at h
  exact String.toList_inj.mp (eq_of_flatMap_quotedChar h)

end StaticSite.Text
