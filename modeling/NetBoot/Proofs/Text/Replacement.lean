/-
  NetBoot.Proofs.Text.Replacement — how long a text gets when bytes that spell no character are replaced.

  A character that is read takes as many bytes as it is read from, for those are the bytes that spell it
  (`scan_eq_some`). What spells none is one, two or three bytes (`scan_eq_none`), and becomes the three
  bytes of U+FFFD. So a text gains what its replacements have over the bytes they stand for (`gained`,
  `utf8Len_decodeLossy`): nothing when all of it is UTF-8, two bytes at most when it is UTF-8 that is cut
  off between two bytes (`utf8Len_decodeLossy_take`), and in no case more than twice its length
  (`gained_le`).
-/

import NetBoot.Proofs.Text.Utf8

namespace NetBoot.Text

/-! ## What is read -/

/-- What a lead byte in the table looks like. -/
theorem lead?_cases {b lo hi : UInt8} {need bits : Nat} (h : lead? b = some (need, lo, hi, bits)) :
    (need = 1 ∧ b.toNat = bits + 192 ∧ 2 ≤ bits ∧ bits < 32 ∧ lo.toNat = 128 ∧ hi.toNat = 191) ∨
    (need = 2 ∧ b.toNat = bits + 224 ∧ bits < 16 ∧ lo.toNat = (if bits = 0 then 160 else 128) ∧
      hi.toNat = if bits = 13 then 159 else 191) ∨
    (need = 3 ∧ b.toNat = bits + 240 ∧ bits < 5 ∧ lo.toNat = (if bits = 0 then 144 else 128) ∧
      hi.toNat = if bits = 4 then 143 else 191) := by
  have hall : ∀ n < 256, ∀ p ∈ lead? (UInt8.ofNat n),
      (p.1 = 1 ∧ n = p.2.2.2 + 192 ∧ 2 ≤ p.2.2.2 ∧ p.2.2.2 < 32 ∧ p.2.1.toNat = 128 ∧ p.2.2.1.toNat = 191) ∨
      (p.1 = 2 ∧ n = p.2.2.2 + 224 ∧ p.2.2.2 < 16 ∧ p.2.1.toNat = (if p.2.2.2 = 0 then 160 else 128) ∧
        p.2.2.1.toNat = if p.2.2.2 = 13 then 159 else 191) ∨
      (p.1 = 3 ∧ n = p.2.2.2 + 240 ∧ p.2.2.2 < 5 ∧ p.2.1.toNat = (if p.2.2.2 = 0 then 144 else 128) ∧
        p.2.2.1.toNat = if p.2.2.2 = 4 then 143 else 191) := by
    decide +kernel
  have hb := hall b.toNat b.toNat_lt (need, lo, hi, bits)
  rw [UInt8.ofNat_toNat] at hb
  exact hb h

/-- The bytes of a tail are continuation bytes, as many as are needed. -/
theorem scanTail_eq_some {need acc k j : Nat} {r : List UInt8} {c : Char}
    (h : scanTail need acc k r = (some c, j)) :
    ∃ vs : List Nat, vs.length = need ∧ (∀ v ∈ vs, v < 64) ∧
      r.take need = vs.map (fun v => UInt8.ofNat (v + 128)) ∧
      c = Char.ofNat (vs.foldl (fun acc v => acc * 64 + v) acc) ∧ j = k + need := by
  induction need generalizing acc k r with
  | zero =>
    cases h
    exact ⟨[], rfl, by simp, rfl, rfl, rfl⟩
  | succ need ih =>
    cases r with
    | nil => cases h
    | cons b r =>
      rw [scanTail] at h
      by_cases hb : isContinuation b = true
      · rw [if_pos hb] at h
        obtain ⟨vs, hlen, hvs, hr, hc, hj⟩ := ih h
        simp only [isContinuation, Bool.and_eq_true, decide_eq_true_eq, UInt8.le_iff_toNat_le] at hb
        have h80 : (0x80 : UInt8).toNat = 128 := rfl
        have hBF : (0xBF : UInt8).toNat = 191 := rfl
        refine ⟨(b.toNat - 0x80) :: vs, by rw [List.length_cons, hlen], ?_, ?_, ?_, by omega⟩
        · intro v hv
          rcases List.mem_cons.mp hv with hv | hv
          · omega
          · exact hvs v hv
        · have hback : b.toNat - 0x80 + 128 = b.toNat := Nat.sub_add_cancel (h80 ▸ hb.1)
          rw [List.take_succ_cons, hr, List.map_cons, hback, UInt8.ofNat_toNat]
        · rw [List.foldl_cons, hc]
      · rw [if_neg hb] at h
        cases h

/-- A tail that is cut off has fewer bytes than are needed. -/
theorem scanTail_eq_none {need acc k j : Nat} {r : List UInt8} (h : scanTail need acc k r = (none, j)) :
    ∃ i < need, i ≤ r.length ∧ j = k + i := by
  induction need generalizing acc k r with
  | zero => cases h
  | succ need ih =>
    cases r with
    | nil =>
      cases h
      exact ⟨0, by omega, by simp, rfl⟩
    | cons b r =>
      rw [scanTail] at h
      by_cases hb : isContinuation b = true
      · rw [if_pos hb] at h
        obtain ⟨i, hi, hle, hj⟩ := ih h
        exact ⟨i + 1, by omega, by simpa using hle, by omega⟩
      · rw [if_neg hb] at h
        cases h
        exact ⟨0, by omega, by simp, rfl⟩

theorem utf8EncodeChar_two {n : Nat} (h : 128 ≤ n) (h' : n < 2048) :
    String.utf8EncodeChar (Char.ofNat n) = [UInt8.ofNat (n / 64 + 192), UInt8.ofNat (n % 64 + 128)] := by
  have hc : (Char.ofNat n).val.toNat = n := toNat_ofNat_of_valid (by omega)
  unfold String.utf8EncodeChar
  rw [hc, if_neg (by omega), if_pos (by omega), Nat.mod_eq_of_lt (by omega)]

theorem utf8EncodeChar_three {n : Nat} (h : 2048 ≤ n) (h' : n < 55296 ∨ 57343 < n ∧ n < 65536) :
    String.utf8EncodeChar (Char.ofNat n) =
      [UInt8.ofNat (n / 4096 + 224), UInt8.ofNat (n / 64 % 64 + 128), UInt8.ofNat (n % 64 + 128)] := by
  have hc : (Char.ofNat n).val.toNat = n := toNat_ofNat_of_valid (by omega)
  unfold String.utf8EncodeChar
  rw [hc, if_neg (by omega), if_neg (by omega), if_pos (by omega), Nat.mod_eq_of_lt (by omega)]

theorem utf8EncodeChar_four {n : Nat} (h : 65536 ≤ n) (h' : n < 1114112) :
    String.utf8EncodeChar (Char.ofNat n) =
      [UInt8.ofNat (n / 262144 + 240), UInt8.ofNat (n / 4096 % 64 + 128), UInt8.ofNat (n / 64 % 64 + 128),
        UInt8.ofNat (n % 64 + 128)] := by
  have hc : (Char.ofNat n).val.toNat = n := toNat_ofNat_of_valid (by omega)
  unfold String.utf8EncodeChar
  rw [hc, if_neg (by omega), if_neg (by omega), if_neg (by omega), Nat.mod_eq_of_lt (by omega)]

theorem scan_of_lead {b d lo hi : UInt8} {need bits : Nat} (r : List UInt8) (hb : ¬ b < 0x80)
    (hl : lead? b = some (need, lo, hi, bits)) (hd : lo ≤ d ∧ d ≤ hi) :
    scan b (d :: r) = scanTail (need - 1) (bits * 64 + (d.toNat - 0x80)) 1 r := by
  unfold scan
  rw [if_neg hb, hl]
  dsimp only
  rw [if_pos (by simpa using hd)]

/-- A scan reads an ASCII character, or goes on behind a lead byte and a byte in its range, or reads nothing. -/
theorem scan_cases (b : UInt8) (r : List UInt8) :
    b < 0x80 ∧ scan b r = (some (Char.ofNat b.toNat), 0) ∨
    (∃ need lo hi bits d r', ¬ b < 0x80 ∧ lead? b = some (need, lo, hi, bits) ∧ r = d :: r' ∧ (lo ≤ d ∧ d ≤ hi) ∧
      scan b r = scanTail (need - 1) (bits * 64 + (d.toNat - 0x80)) 1 r') ∨
    scan b r = (none, 0) := by
  by_cases hb : b < 0x80
  · exact .inl ⟨hb, if_pos hb⟩
  right
  cases hl : lead? b with
  | none =>
    right
    unfold scan
    rw [if_neg hb, hl]
  | some p =>
    obtain ⟨need, lo, hi, bits⟩ := p
    cases r with
    | nil =>
      right
      unfold scan
      rw [if_neg hb, hl]
    | cons d r =>
      by_cases hd : lo ≤ d ∧ d ≤ hi
      · exact .inl ⟨need, lo, hi, bits, d, r, hb, rfl, rfl, hd, scan_of_lead r hb hl hd⟩
      · right
        unfold scan
        rw [if_neg hb, hl]
        dsimp only
        rw [if_neg (by simpa using hd)]

/-- The character that is read is spelled by the bytes that it is read from. -/
theorem scan_eq_some {b : UInt8} {r : List UInt8} {c : Char} {k : Nat} (h : scan b r = (some c, k)) :
    String.utf8EncodeChar c = b :: r.take k := by
  rcases scan_cases b r with ⟨hb, hs⟩ | ⟨need, lo, hi, bits, d, r, -, hl, rfl, hd, hs⟩ | hs
  · rw [hs] at h
    cases h
    have hlt : b.toNat < 128 := UInt8.lt_iff_toNat_lt.mp hb
    have hc : (Char.ofNat b.toNat).val.toNat = b.toNat := toNat_ofNat_of_valid (by omega)
    unfold String.utf8EncodeChar
    rw [hc, if_pos (by omega), UInt8.ofNat_toNat, List.take_zero]
  · rw [hs] at h
    simp only [UInt8.le_iff_toNat_le] at hd
    have hcases := lead?_cases hl
    obtain ⟨v, hv, hlt⟩ : ∃ v, d.toNat = v + 128 ∧ v < 64 := by
      refine ⟨d.toNat - 128, ?_⟩
      rcases hcases with ⟨-, -, -, -, hlo, hhi⟩ | ⟨-, -, -, hlo, hhi⟩ | ⟨-, -, -, hlo, hhi⟩
      · omega
      · split at hlo <;> split at hhi <;> omega
      · split at hlo <;> split at hhi <;> omega
    rw [hv, show v + 128 - 0x80 = v from Nat.add_sub_cancel ..] at h
    obtain ⟨vs, hlen, hvs, hr, rfl, rfl⟩ := scanTail_eq_some h
    have hd' : d = UInt8.ofNat (v + 128) := by rw [← hv, UInt8.ofNat_toNat]
    have hb' : b = UInt8.ofNat b.toNat := UInt8.ofNat_toNat.symm
    rw [Nat.add_comm 1, List.take_succ_cons, hr, hb', hd']
    -- The number that is put together lies in the range of the lead byte, and comes apart again.
    rcases hcases with ⟨rfl, hb, hbits, hbits', hlo, hhi⟩ | ⟨rfl, hb, hbits, hlo, hhi⟩ | ⟨rfl, hb, hbits, hlo, hhi⟩
    · obtain rfl := List.length_eq_zero_iff.mp hlen
      rw [List.foldl_nil, List.map_nil, utf8EncodeChar_two (by omega) (by omega), hb]
      congr <;> omega
    · obtain ⟨x, rfl⟩ := List.length_eq_one_iff.mp hlen
      have hx := hvs x (by simp)
      rw [List.foldl_cons, List.foldl_nil, List.map_singleton,
        utf8EncodeChar_three (by split at hlo <;> omega) (by split at hhi <;> omega), hb]
      congr <;> omega
    · obtain ⟨x, y, rfl⟩ : ∃ x y, vs = [x, y] := by
        match vs, hlen with
        | [x, y], _ => exact ⟨x, y, rfl⟩
      have hx := hvs x (by simp)
      have hy := hvs y (by simp)
      rw [List.foldl_cons, List.foldl_cons, List.foldl_nil, List.map_cons, List.map_singleton,
        utf8EncodeChar_four (by split at hlo <;> omega) (by split at hhi <;> omega), hb]
      congr <;> omega
  · rw [hs] at h
    cases h

/-- What spells no character is a lead byte at most with two bytes behind it. -/
theorem scan_eq_none {b : UInt8} {r : List UInt8} {k : Nat} (h : scan b r = (none, k)) : k ≤ 2 ∧ k ≤ r.length := by
  rcases scan_cases b r with ⟨-, hs⟩ | ⟨need, lo, hi, bits, d, r, -, hl, rfl, -, hs⟩ | hs
  · rw [hs] at h
    cases h
  · rw [hs] at h
    obtain ⟨i, hi, hle, rfl⟩ := scanTail_eq_none h
    have hneed : need ≤ 3 := by
      rcases lead?_cases hl with ⟨rfl, -⟩ | ⟨rfl, -⟩ | ⟨rfl, -⟩ <;> omega
    rw [List.length_cons]
    omega
  · rw [hs] at h
    cases h
    omega

/-! ## The length of what is read -/

/-- The bytes that a text has more than what it is read from: where bytes are replaced, one, two or three of them become
    the three of the replacement. -/
def gained : List UInt8 → Nat
  | [] => 0
  | b :: r => (if (scan b r).1.isNone then 2 - (scan b r).2 else 0) + gained (r.drop (scan b r).2)
termination_by bs => bs.length
decreasing_by simp only [List.length_drop, List.length_cons]; omega

theorem utf8Len_decodeLossy (bs : List UInt8) : utf8Len (decodeLossy bs) = bs.length + gained bs := by
  induction bs using decodeLossy.induct with
  | case1 => simp [decodeLossy, utf8Len, gained]
  | case2 b r ih =>
    rw [List.length_drop] at ih
    rw [decodeLossy, gained, utf8Len, ih, List.length_cons]
    rcases hs : scan b r with ⟨_ | c, k⟩
    · have hk := scan_eq_none hs
      have hthree : replacement.utf8Size = 3 := by decide
      simp only [Option.getD_none, hthree, Option.isNone_none, if_true]
      omega
    · have hc := congrArg List.length (scan_eq_some hs)
      rw [String.length_utf8EncodeChar, List.length_cons, List.length_take] at hc
      simp only [Option.getD_some, hc, Option.isNone_some, Bool.false_eq_true, if_false]
      omega

theorem gained_le (bs : List UInt8) : gained bs ≤ 2 * bs.length := by
  induction bs using gained.induct with
  | case1 => simp [gained]
  | case2 b r ih =>
    rw [List.length_drop] at ih
    rw [gained, List.length_cons]
    split <;> omega

/-- Text is not changed, so it gains nothing. -/
theorem gained_flatMap_utf8EncodeChar (cs : List Char) : gained (cs.flatMap String.utf8EncodeChar) = 0 := by
  have h := utf8Len_decodeLossy (cs.flatMap String.utf8EncodeChar)
  rw [decodeLossy_flatMap_utf8EncodeChar, utf8Len_eq] at h
  omega

/-! ## Text that is cut between bytes -/

theorem scanTail_take {need acc k j : Nat} {r : List UInt8} {c : Char}
    (h : scanTail need acc k r = (some c, k + r.length)) (hj : j < r.length) :
    scanTail need acc k (r.take j) = (none, k + j) := by
  induction need generalizing acc k r j with
  | zero =>
    have hk := congrArg Prod.snd h
    simp only [scanTail] at hk
    omega
  | succ need ih =>
    cases r with
    | nil => simp at hj
    | cons b r =>
      rw [scanTail] at h
      by_cases hb : isContinuation b = true
      · rw [if_pos hb] at h
        cases j with
        | zero => rfl
        | succ j =>
          rw [List.length_cons] at h hj
          rw [List.take_succ_cons, scanTail, if_pos hb, ih (by rw [h, Nat.add_assoc, Nat.add_comm 1]) (by omega)]
          congr 1
          omega
      · rw [if_neg hb] at h
        cases h

/-- The beginning of a character is replaced as one. -/
theorem scan_take {b : UInt8} {r : List UInt8} {c : Char} {j : Nat} (h : scan b r = (some c, r.length))
    (hj : j < r.length) : scan b (r.take j) = (none, j) := by
  rcases scan_cases b r with ⟨-, hs⟩ | ⟨need, lo, hi, bits, d, r, hb, hl, rfl, hd, hs⟩ | hs
  · rw [hs] at h
    have hk := congrArg Prod.snd h
    dsimp only at hk
    omega
  · cases j with
    | zero =>
      unfold scan
      rw [List.take_zero, if_neg hb, hl]
    | succ j =>
      rw [hs, List.length_cons] at h
      rw [List.length_cons] at hj
      rw [List.take_succ_cons, scan_of_lead _ hb hl hd, scanTail_take (by rw [h, Nat.add_comm]) (by omega), Nat.add_comm]
  · rw [hs] at h
    cases h

/-- A cut splits one character at most, and what is left of that gains two bytes at most. -/
theorem utf8Len_decodeLossy_take (cs : List Char) (max : Nat) :
    utf8Len (decodeLossy ((cs.flatMap String.utf8EncodeChar).take max)) ≤ max + 2 := by
  induction cs generalizing max with
  | nil => simp [decodeLossy, utf8Len]
  | cons c cs ih =>
    rw [List.flatMap_cons, List.take_append, String.length_utf8EncodeChar]
    by_cases hc : c.utf8Size ≤ max
    · have hrest := ih (max - c.utf8Size)
      rw [List.take_of_length_le (by rw [String.length_utf8EncodeChar]; exact hc), decodeLossy_utf8EncodeChar, utf8Len]
      omega
    · obtain ⟨b, r, hbytes, hscan⟩ := scan_utf8EncodeChar c []
      have hlen := String.length_utf8EncodeChar c
      rw [List.append_nil] at hscan
      rw [hbytes, List.length_cons] at hlen
      rw [show max - c.utf8Size = 0 by omega, List.take_zero, List.append_nil, hbytes]
      cases max with
      | zero => simp [decodeLossy, utf8Len]
      | succ j =>
        have hthree : replacement.utf8Size = 3 := by decide
        rw [List.take_succ_cons, decodeLossy, scan_take hscan (by omega), List.drop_take, Nat.sub_self, List.take_zero,
          decodeLossy, utf8Len, utf8Len, Option.getD_none, hthree]
        omega

end NetBoot.Text
