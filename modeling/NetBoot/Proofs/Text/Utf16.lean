/-
  NetBoot.Proofs.Text.Utf16 — text in 16-bit units, and read back.

  A character below U+10000 is one unit that is no surrogate, since no character has the number of one;
  any other is a high surrogate with a low one behind it. Both are read to their end and not further
  (`decodeUtf16_units`), so text is what its units spell (`decodeUtf16_encodeUtf16`).
-/

import NetBoot.Text.Utf16

namespace NetBoot.Text

theorem isHighSurrogate_iff {u : UInt16} : isHighSurrogate u = true ↔ 0xD800 ≤ u.toNat ∧ u.toNat ≤ 0xDBFF := by
  simp [isHighSurrogate, UInt16.le_iff_toNat_le]

theorem isLowSurrogate_iff {u : UInt16} : isLowSurrogate u = true ↔ 0xDC00 ≤ u.toNat ∧ u.toNat ≤ 0xDFFF := by
  simp [isLowSurrogate, UInt16.le_iff_toNat_le]

/-- A unit that is no surrogate is a character by itself. -/
theorem decodeUtf16_cons {u : UInt16} (hu : u.toNat < 0xD800 ∨ 0xDFFF < u.toNat) (rest : List UInt16) :
    decodeUtf16 (u :: rest) = Char.ofNat u.toNat :: decodeUtf16 rest := by
  have hhigh : ¬isHighSurrogate u = true := by rw [isHighSurrogate_iff]; omega
  have hlow : ¬isLowSurrogate u = true := by rw [isLowSurrogate_iff]; omega
  rw [decodeUtf16.eq_def]
  simp [hhigh, hlow]

theorem decodeUtf16_pair {u v : UInt16} (hu : isHighSurrogate u = true) (hv : isLowSurrogate v = true)
    (rest : List UInt16) : decodeUtf16 (u :: v :: rest) = ofPair u v :: decodeUtf16 rest := by
  rw [decodeUtf16.eq_def]
  simp [hu, hv]

/-- The units of a character are read as it, whatever follows. -/
theorem decodeUtf16_units (c : Char) (rest : List UInt16) : decodeUtf16 (units c ++ rest) = c :: decodeUtf16 rest := by
  have hvalid : c.toNat < 0xD800 ∨ 0xDFFF < c.toNat ∧ c.toNat < 0x110000 := c.valid
  unfold units
  by_cases hc : c.toNat < 0x10000
  · have hu : (UInt16.ofNat c.toNat).toNat = c.toNat := UInt16.toNat_ofNat_of_lt' hc
    rw [if_pos hc, List.singleton_append, decodeUtf16_cons (by omega), hu, Char.ofNat_toNat]
  · have hhi : (UInt16.ofNat (0xD800 + (c.toNat - 0x10000) / 0x400)).toNat = 0xD800 + (c.toNat - 0x10000) / 0x400 :=
      UInt16.toNat_ofNat_of_lt' (by rw [UInt16.size]; omega)
    have hlo : (UInt16.ofNat (0xDC00 + (c.toNat - 0x10000) % 0x400)).toNat = 0xDC00 + (c.toNat - 0x10000) % 0x400 :=
      UInt16.toNat_ofNat_of_lt' (by rw [UInt16.size]; omega)
    have hsum : 0x10000 + (0xD800 + (c.toNat - 0x10000) / 0x400 - 0xD800) * 0x400 +
        (0xDC00 + (c.toNat - 0x10000) % 0x400 - 0xDC00) = c.toNat := by omega
    rw [if_neg hc, List.cons_append, List.singleton_append,
      decodeUtf16_pair (isHighSurrogate_iff.mpr (by omega)) (isLowSurrogate_iff.mpr (by omega)), ofPair, hhi, hlo, hsum,
      Char.ofNat_toNat]

theorem decodeUtf16_encodeUtf16 (cs : List Char) : decodeUtf16 (encodeUtf16 cs) = cs := by
  induction cs with
  | nil => rfl
  | cons c cs ih =>
    rw [encodeUtf16, List.flatMap_cons, decodeUtf16_units]
    exact congrArg _ ih

end NetBoot.Text
