/-
  NetBoot.Proofs.Text.Utf8 — text that is written as UTF-8 is read back as it was.

  `scan` follows the table of lead bytes, so what it has to be shown is that the bytes of a
  character carry a lead byte with an entry there, and behind it bytes in the range of that entry
  (`scan_utf8EncodeChar`). A reader that replaces what it cannot read then replaces nothing
  (`decodeLossy_toUTF8`).
-/

import NetBoot.Text.Utf8

namespace NetBoot.Text

theorem toNat_ofNat_of_valid {n : Nat} (h : n < 0xD800 ∨ 0xDFFF < n ∧ n < 0x110000) : (Char.ofNat n).toNat = n := by
  unfold Char.ofNat
  rw [dif_pos h]
  rfl

/-! ## Lead bytes -/

theorem lead?_two : ∀ n < 30, lead? (UInt8.ofNat (n + 2 + 192)) = some (1, 0x80, 0xBF, n + 2) := by
  decide +kernel

theorem lead?_three : ∀ n < 16, lead? (UInt8.ofNat (n + 224)) =
    some (2, if n = 0 then 0xA0 else 0x80, if n = 13 then 0x9F else 0xBF, n) := by
  decide +kernel

theorem lead?_four : ∀ n < 5, lead? (UInt8.ofNat (n + 240)) =
    some (3, if n = 0 then 0x90 else 0x80, if n = 4 then 0x8F else 0xBF, n) := by
  decide +kernel

theorem not_ascii {n : Nat} (h : 128 ≤ n) (h' : n < 256) : ¬ UInt8.ofNat n < 0x80 := by
  rw [UInt8.lt_iff_toNat_lt, UInt8.toNat_ofNat_of_lt' h']
  exact Nat.not_lt.mpr h

/-! ## Continuation bytes -/

theorem toNat_continuation {n : Nat} (hn : n < 64) : (UInt8.ofNat (n + 128)).toNat = n + 128 :=
  UInt8.toNat_ofNat_of_lt' (by rw [UInt8.size]; omega)

/-- A continuation byte adds the six bits that it carries. -/
theorem scanTail_continuation {need acc k n : Nat} (hn : n < 64) (r : List UInt8) :
    scanTail (need + 1) acc k (UInt8.ofNat (n + 128) :: r) = scanTail need (acc * 64 + n) (k + 1) r := by
  have hb := toNat_continuation hn
  have hc : isContinuation (UInt8.ofNat (n + 128)) = true := by
    simp only [isContinuation, UInt8.le_iff_toNat_le, hb, Bool.and_eq_true, decide_eq_true_eq]
    show 128 ≤ n + 128 ∧ n + 128 ≤ 191
    omega
  rw [scanTail, if_pos hc, hb, Nat.add_sub_cancel]

/-- A lead byte takes the byte behind it, if that is in the range it announces. -/
theorem scan_lead {b lo hi : UInt8} {need bits n : Nat} {r : List UInt8} (hb : ¬ b < 0x80)
    (hl : lead? b = some (need + 1, lo, hi, bits)) (hn : n < 64) (hlo : lo.toNat ≤ n + 128)
    (hhi : n + 128 ≤ hi.toNat) :
    scan b (UInt8.ofNat (n + 128) :: r) = scanTail need (bits * 64 + n) 1 r := by
  have hc := toNat_continuation hn
  have hrange : (decide (lo ≤ UInt8.ofNat (n + 128)) && decide (UInt8.ofNat (n + 128) ≤ hi)) = true := by
    simp only [UInt8.le_iff_toNat_le, hc, Bool.and_eq_true, decide_eq_true_eq]
    exact ⟨hlo, hhi⟩
  unfold scan
  rw [if_neg hb, hl]
  dsimp only
  rw [if_pos hrange, hc, Nat.add_sub_cancel, Nat.add_sub_cancel]

/-! ## Characters -/

/-- The bytes of a character spell it, whatever follows. -/
theorem scan_utf8EncodeChar (c : Char) (rest : List UInt8) :
    ∃ b r, String.utf8EncodeChar c = b :: r ∧ scan b (r ++ rest) = (some c, r.length) := by
  have hvalid : c.toNat < 0xD800 ∨ 0xDFFF < c.toNat ∧ c.toNat < 0x110000 := c.valid
  have hv : c.val.toNat = c.toNat := rfl
  have hc (n : Nat) (h : n = c.toNat) : some (Char.ofNat n) = some c := by rw [h, Char.ofNat_toNat]
  unfold String.utf8EncodeChar
  rw [hv]
  dsimp only
  split
  · next h1 =>
    refine ⟨_, _, rfl, ?_⟩
    have hb : (UInt8.ofNat c.toNat).toNat = c.toNat := UInt8.toNat_ofNat_of_lt' (by rw [UInt8.size]; omega)
    have hlt : UInt8.ofNat c.toNat < 0x80 := by
      rw [UInt8.lt_iff_toNat_lt, hb]
      show c.toNat < 128
      omega
    unfold scan
    rw [if_pos hlt, hb, Char.ofNat_toNat]
    rfl
  split
  · next h1 h2 =>
    refine ⟨_, _, rfl, ?_⟩
    have hl := lead?_two (c.toNat / 64 % 32 - 2) (by omega)
    rw [show c.toNat / 64 % 32 - 2 + 2 = c.toNat / 64 % 32 by omega] at hl
    rw [List.cons_append, scan_lead (not_ascii (by omega) (by omega)) hl (by omega) (by simp)
      (by simp; omega), List.nil_append, scanTail, hc _ (by omega)]
    rfl
  split
  · next h1 h2 h3 =>
    -- The range of the byte behind the lead byte leaves out overlong forms and surrogates.
    refine ⟨_, _, rfl, ?_⟩
    have hl := lead?_three (c.toNat / 4096 % 16) (by omega)
    rw [List.cons_append, List.cons_append, List.nil_append,
      scan_lead (not_ascii (by omega) (by omega)) hl (by omega) (by split <;> simp; omega)
        (by split <;> simp <;> omega), scanTail_continuation (by omega), scanTail, hc _ (by omega)]
    rfl
  · next h1 h2 h3 =>
    refine ⟨_, _, rfl, ?_⟩
    have hl := lead?_four (c.toNat / 262144 % 8) (by omega)
    rw [List.cons_append, List.cons_append, List.cons_append, List.nil_append,
      scan_lead (not_ascii (by omega) (by omega)) hl (by omega) (by split <;> simp; omega)
        (by split <;> simp <;> omega), scanTail_continuation (by omega), scanTail_continuation (by omega), scanTail,
      hc _ (by omega)]
    rfl

theorem decodeLossy_utf8EncodeChar (c : Char) (rest : List UInt8) :
    decodeLossy (String.utf8EncodeChar c ++ rest) = c :: decodeLossy rest := by
  obtain ⟨b, r, hbytes, hscan⟩ := scan_utf8EncodeChar c rest
  rw [hbytes, List.cons_append, decodeLossy, hscan]
  simp

theorem decodeLossy_flatMap_utf8EncodeChar (cs : List Char) :
    decodeLossy (cs.flatMap String.utf8EncodeChar) = cs := by
  induction cs with
  | nil => simp [decodeLossy]
  | cons c cs ih => rw [List.flatMap_cons, decodeLossy_utf8EncodeChar, ih]

/-! ## Strings -/

theorem toList_toUTF8 (s : String) : s.toUTF8.data.toList = s.toList.flatMap String.utf8EncodeChar := by
  conv => lhs; rw [← String.ofList_toList (s := s)]
  rw [String.toUTF8_eq_toByteArray]
  show ((s.toList.flatMap String.utf8EncodeChar).toByteArray).data.toList = _
  simp

theorem decodeLossy_toUTF8 (s : String) : String.ofList (decodeLossy s.toUTF8.data.toList) = s := by
  rw [toList_toUTF8, decodeLossy_flatMap_utf8EncodeChar, String.ofList_toList]

/-! ## Sizes -/

theorem utf8Len_append (cs ds : List Char) : utf8Len (cs ++ ds) = utf8Len cs + utf8Len ds := by
  induction cs with
  | nil => simp [utf8Len]
  | cons c cs ih =>
    simp only [List.cons_append, utf8Len, ih]
    omega

theorem length_toUTF8 (s : String) : s.toUTF8.data.toList.length = s.utf8ByteSize := Array.length_toList

theorem utf8Len_eq (cs : List Char) : utf8Len cs = (cs.flatMap String.utf8EncodeChar).length := by
  induction cs with
  | nil => rfl
  | cons c cs ih => rw [List.flatMap_cons, List.length_append, String.length_utf8EncodeChar, utf8Len, ih]

theorem utf8ByteSize_ofList (cs : List Char) : (String.ofList cs).utf8ByteSize = utf8Len cs := by
  rw [← length_toUTF8, toList_toUTF8, String.toList_ofList, utf8Len_eq]

theorem utf8Len_toList (s : String) : utf8Len s.toList = s.utf8ByteSize := by
  rw [← utf8ByteSize_ofList, String.ofList_toList]

/-! ## Cutting -/

/-- What fits in whole is kept, and what is behind it is cut to the rest. -/
theorem cut_append {max : Nat} {cs : List Char} (h : utf8Len cs ≤ max) (ds : List Char) :
    cut max (cs ++ ds) = cs ++ cut (max - utf8Len cs) ds := by
  induction cs generalizing max with
  | nil => rfl
  | cons c cs ih =>
    simp only [utf8Len] at h
    have hrest : max - c.utf8Size - utf8Len cs = max - (c.utf8Size + utf8Len cs) := by omega
    simp only [List.cons_append, cut]
    rw [if_pos (by omega), ih (by omega), hrest, utf8Len]

end NetBoot.Text
