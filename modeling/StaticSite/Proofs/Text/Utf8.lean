import StaticSite.Text.Utf8
/-!
# Characters through bytes

The bytes of a character are read back as that character, whatever comes after them, so
a text is read back from its bytes and two texts with the same bytes are the same.
-/

namespace StaticSite.Utf8

theorem toNat_byte {n : Nat} (h : n < 256) : (byte n).toNat = n := by
  rw [byte, UInt8.toNat_ofNat', Nat.mod_eq_of_lt h]

/-!
## The first byte of a character
-/

theorem lead_one {n : Nat} (h : n < 0x80) : lead (byte n) = .complete (Char.ofNat n) := by
  rw [lead, toNat_byte (by omega)]
  simp only [h, if_true]

theorem lead_two {n : Nat} (hlow : 2 ≤ n) (hhigh : n < 0x20) :
    lead (byte (0xC0 + n)) = .pending ⟨[byte (0xC0 + n)], n, 0, 0x80, 0xBF⟩ := by
  rw [lead, toNat_byte (by omega)]
  have hone : ¬ 0xC0 + n < 0x80 := by omega
  have hinvalid : ¬ 0xC0 + n < 0xC2 := by omega
  have htwo : 0xC0 + n < 0xE0 := by omega
  simp only [hone, hinvalid, htwo, if_true, if_false, Nat.add_sub_cancel_left]

theorem lead_three {n : Nat} (h : n < 0x10) :
    lead (byte (0xE0 + n)) = .pending ⟨[byte (0xE0 + n)], n, 1,
      if n = 0 then 0xA0 else 0x80, if n = 0xD then 0x9F else 0xBF⟩ := by
  rw [lead, toNat_byte (by omega)]
  have hone : ¬ 0xE0 + n < 0x80 := by omega
  have hinvalid : ¬ 0xE0 + n < 0xC2 := by omega
  have htwo : ¬ 0xE0 + n < 0xE0 := by omega
  have hthree : 0xE0 + n < 0xF0 := by omega
  have hlow : (0xE0 + n = 0xE0) = (n = 0) := by simp
  have hhigh : (0xE0 + n = 0xED) = (n = 0xD) := propext ⟨by omega, by omega⟩
  simp only [hone, hinvalid, htwo, hthree, hlow, hhigh, if_true, if_false,
    Nat.add_sub_cancel_left]

theorem lead_four {n : Nat} (h : n < 5) :
    lead (byte (0xF0 + n)) = .pending ⟨[byte (0xF0 + n)], n, 2,
      if n = 0 then 0x90 else 0x80, if n = 4 then 0x8F else 0xBF⟩ := by
  rw [lead, toNat_byte (by omega)]
  have hone : ¬ 0xF0 + n < 0x80 := by omega
  have hinvalid : ¬ 0xF0 + n < 0xC2 := by omega
  have htwo : ¬ 0xF0 + n < 0xE0 := by omega
  have hthree : ¬ 0xF0 + n < 0xF0 := by omega
  have hfour : 0xF0 + n < 0xF5 := by omega
  have hlow : (0xF0 + n = 0xF0) = (n = 0) := by simp
  have hhigh : (0xF0 + n = 0xF4) = (n = 4) := propext ⟨by omega, by omega⟩
  simp only [hone, hinvalid, htwo, hthree, hfour, hlow, hhigh, if_true, if_false,
    Nat.add_sub_cancel_left]

/-!
## The bytes after it
-/

section

variable {low high n : Nat} (bytes : List UInt8) (value : Nat) (bs : List UInt8)

theorem parts_of_lead {b : UInt8} {p : Pending} (h : lead b = .pending p) :
    parts none (b :: bs) = parts (some p) bs := by
  rw [parts, h]

theorem parts_last (hlow : low ≤ 0x80 + n) (hhigh : 0x80 + n ≤ high) (hn : n < 0x40) :
    parts (some ⟨bytes, value, 0, low, high⟩) (byte (0x80 + n) :: bs) =
      .char (Char.ofNat (value * 0x40 + n)) :: parts none bs := by
  rw [parts, toNat_byte (by omega), if_pos ⟨hlow, hhigh⟩, Nat.add_sub_cancel_left]

theorem parts_next (owed : Nat) (hlow : low ≤ 0x80 + n) (hhigh : 0x80 + n ≤ high)
    (hn : n < 0x40) :
    parts (some ⟨bytes, value, owed + 1, low, high⟩) (byte (0x80 + n) :: bs) =
      parts (some ⟨bytes ++ [byte (0x80 + n)], value * 0x40 + n, owed, 0x80, 0xBF⟩) bs := by
  rw [parts, toNat_byte (by omega), if_pos ⟨hlow, hhigh⟩, Nat.add_sub_cancel_left]

end

/-!
## Whole characters
-/

theorem parts_two {n : Nat} (bs : List UInt8) (hlow : 0x80 ≤ n) (hhigh : n < 0x800) :
    parts none (byte (0xC0 + n / 0x40) :: byte (0x80 + n % 0x40) :: bs) =
      .char (Char.ofNat n) :: parts none bs := by
  rw [parts_of_lead _ (lead_two (by omega) (by omega)),
    parts_last _ _ _ (by omega) (by omega) (by omega)]
  have hvalue : n / 0x40 * 0x40 + n % 0x40 = n := by omega
  rw [hvalue]

theorem parts_three {n : Nat} (bs : List UInt8) (hlow : 0x800 ≤ n) (hhigh : n < 0x10000)
    (hvalid : n < 0xD800 ∨ 0xDFFF < n) :
    parts none (byte (0xE0 + n / 0x1000) :: byte (0x80 + n / 0x40 % 0x40) ::
      byte (0x80 + n % 0x40) :: bs) = .char (Char.ofNat n) :: parts none bs := by
  rw [parts_of_lead _ (lead_three (by omega)),
    parts_next _ _ _ _ (by split <;> omega) (by split <;> omega) (by omega),
    parts_last _ _ _ (by omega) (by omega) (by omega)]
  have hvalue : (n / 0x1000 * 0x40 + n / 0x40 % 0x40) * 0x40 + n % 0x40 = n := by omega
  rw [hvalue]

theorem parts_four {n : Nat} (bs : List UInt8) (hlow : 0x10000 ≤ n) (hhigh : n < 0x110000) :
    parts none (byte (0xF0 + n / 0x40000) :: byte (0x80 + n / 0x1000 % 0x40) ::
      byte (0x80 + n / 0x40 % 0x40) :: byte (0x80 + n % 0x40) :: bs) =
      .char (Char.ofNat n) :: parts none bs := by
  rw [parts_of_lead _ (lead_four (by omega)),
    parts_next _ _ _ _ (by split <;> omega) (by split <;> omega) (by omega),
    parts_next _ _ _ _ (by omega) (by omega) (by omega),
    parts_last _ _ _ (by omega) (by omega) (by omega)]
  have hvalue : ((n / 0x40000 * 0x40 + n / 0x1000 % 0x40) * 0x40 + n / 0x40 % 0x40) * 0x40 +
      n % 0x40 = n := by omega
  rw [hvalue]

theorem parts_encodeChar (c : Char) (bs : List UInt8) :
    parts none (encodeChar c ++ bs) = .char c :: parts none bs := by
  have hvalid : c.toNat < 0xD800 ∨ (0xDFFF < c.toNat ∧ c.toNat < 0x110000) := c.valid
  have hc : Char.ofNat c.toNat = c := Char.ofNat_toNat c
  unfold encodeChar
  generalize c.toNat = n at hvalid hc
  subst hc
  dsimp only
  split
  · next hone =>
      show parts none (byte n :: bs) = _
      rw [parts, lead_one hone]
  · split
    · exact parts_two bs (by omega) (by omega)
    · split
      · exact parts_three bs (by omega) (by omega) (by omega)
      · exact parts_four bs (by omega) (by omega)

/-!
## Texts
-/

theorem parts_encode (text : String) : parts none (encode text) = text.toList.map .char := by
  rw [encode]
  induction text.toList with
  | nil => rfl
  | cons c cs ih => rw [List.flatMap_cons, parts_encodeChar, ih, List.map_cons]

/-- A text is read back from its bytes. -/
theorem decodeLossy_encode (text : String) : decodeLossy (encode text) = text := by
  rw [decodeLossy, parts_encode]
  simp [Function.comp_def, Part.shown]

theorem encode_injective {text other : String} (h : encode text = encode other) :
    text = other := by
  rw [← decodeLossy_encode text, h, decodeLossy_encode]

end StaticSite.Utf8
