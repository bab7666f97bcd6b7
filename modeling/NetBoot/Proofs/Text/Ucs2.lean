/-
  NetBoot.Proofs.Text.Ucs2 — text to firmware strings and back.

  Writing goes character by character, one unit each; reading pairs surrogates. The two meet because no
  unit that is written is a surrogate (`isSurrogate_unit`), and units without surrogates are read one by
  one (`decodeUtf16_plain`). So what comes back of a text is the text up to its first NUL, with a question
  mark for each character that has no unit, and what comes back of such units is the units.

  Units of any kind are read as the one text whose UTF-16 form is those units with U+FFFD in place of each
  surrogate that has no other half (`mended`, `encodeUtf16_decodeUtf16`). There is no other such text, for
  the form of a text is read as the text (`decodeUtf16_encodeUtf16`).
-/

import NetBoot.Proofs.Text.Utf16
import NetBoot.Proofs.Text.Utf8

namespace NetBoot.Text

theorem isSurrogate_iff {u : UInt16} : isSurrogate u = true ↔ 0xD800 ≤ u.toNat ∧ u.toNat ≤ 0xDFFF := by
  simp [isSurrogate, UInt16.le_iff_toNat_le]

theorem isSurrogate_eq_false_iff {u : UInt16} : isSurrogate u = false ↔ u.toNat < 0xD800 ∨ 0xDFFF < u.toNat := by
  rw [Bool.eq_false_iff, ne_eq, isSurrogate_iff]
  omega

theorem isSurrogate_eq (u : UInt16) : isSurrogate u = (isHighSurrogate u || isLowSurrogate u) := by
  rw [Bool.eq_iff_iff, Bool.or_eq_true, isHighSurrogate_iff, isLowSurrogate_iff, isSurrogate_iff]
  omega

theorem not_high_of_low {u : UInt16} (h : isLowSurrogate u = true) : isHighSurrogate u = false := by
  rw [isLowSurrogate_iff] at h
  rw [Bool.eq_false_iff, ne_eq, isHighSurrogate_iff]
  omega

/-! ## Units without surrogates -/

/-- The character of a unit that is no surrogate has the number of the unit. -/
theorem toNat_ofNat_unit {u : UInt16} (hu : isSurrogate u = false) : (Char.ofNat u.toNat).toNat = u.toNat := by
  have hlt : u.toNat < 0x10000 := u.toNat_lt
  rw [isSurrogate_eq_false_iff] at hu
  exact toNat_ofNat_of_valid (by omega)

theorem decodeUtf16_plain {us : List UInt16} (h : ∀ u ∈ us, isSurrogate u = false) :
    decodeUtf16 us = us.map fun u => Char.ofNat u.toNat := by
  induction us with
  | nil => rfl
  | cons u us ih =>
    obtain ⟨hu, hus⟩ := List.forall_mem_cons.mp h
    rw [decodeUtf16_cons (isSurrogate_eq_false_iff.mp hu), ih hus, List.map_cons]

/-! ## Surrogates without their other half -/

/-- Is a unit, between its neighbours, a high surrogate with no low one behind it, or a low one with no
    high one before it? -/
def isLone (before : Option UInt16) (u : UInt16) (behind : Option UInt16) : Bool :=
  isHighSurrogate u && !behind.any isLowSurrogate || isLowSurrogate u && !before.any isHighSurrogate

/-- The units with U+FFFD in place of each lone surrogate; `before` is the unit before them. -/
def mended (before : Option UInt16) : List UInt16 → List UInt16
  | [] => []
  | u :: r => (if isLone before u r.head? then 0xFFFD else u) :: mended (some u) r

theorem mended_cons (before : Option UInt16) (u : UInt16) (r : List UInt16) :
    mended before (u :: r) = (if isLone before u r.head? then 0xFFFD else u) :: mended (some u) r := rfl

theorem units_ofNat {u : UInt16} (hu : isSurrogate u = false) : units (Char.ofNat u.toNat) = [u] := by
  have hlt : u.toNat < 0x10000 := u.toNat_lt
  rw [units, toNat_ofNat_unit hu, if_pos hlt, UInt16.ofNat_toNat]

theorem units_replacement : units replacement = [0xFFFD] := by decide

theorem units_ofPair {hi lo : UInt16} (hhi : isHighSurrogate hi = true) (hlo : isLowSurrogate lo = true) :
    units (ofPair hi lo) = [hi, lo] := by
  rw [isHighSurrogate_iff] at hhi
  rw [isLowSurrogate_iff] at hlo
  have hn : (ofPair hi lo).toNat = 0x10000 + (hi.toNat - 0xD800) * 0x400 + (lo.toNat - 0xDC00) :=
    toNat_ofNat_of_valid (by omega)
  have hhigh : 0xD800 + ((ofPair hi lo).toNat - 0x10000) / 0x400 = hi.toNat := by omega
  have hlow : 0xDC00 + ((ofPair hi lo).toNat - 0x10000) % 0x400 = lo.toNat := by omega
  rw [units, if_neg (by omega), hhigh, hlow, UInt16.ofNat_toNat, UInt16.ofNat_toNat]

/-- The text that units are read as has these units, mended. The reader has left `before` behind it as a
    unit that pairs with nothing to come. -/
theorem encodeUtf16_decodeUtf16_behind (us : List UInt16) (before : Option UInt16)
    (h : before.any isHighSurrogate = true → us.head?.any isLowSurrogate = false) :
    encodeUtf16 (decodeUtf16 us) = mended before us := by
  unfold encodeUtf16
  fun_induction decodeUtf16 us generalizing before with
  | case1 => rfl
  | case2 u hu v rest hv ih =>
    have hu' : isLone before u (some v) = false := by
      have hnot : isLowSurrogate u = false := by
        rw [Bool.eq_false_iff]
        exact fun hlow => Bool.false_ne_true ((not_high_of_low hlow).symm.trans hu)
      simp [isLone, hv, hnot]
    have hv' : isLone (some u) v rest.head? = false := by simp [isLone, hu, not_high_of_low hv]
    have hrest := ih (some v) (by simp [not_high_of_low hv])
    simp [mended_cons, units_ofPair hu hv, hu', hv', hrest]
  | case3 u hu v rest hv ih =>
    have hrest := ih (some u) fun _ => by simpa using hv
    have hlone : isLone before u (v :: rest).head? = true := by simp [isLone, hu, hv]
    rw [List.flatMap_cons, units_replacement, hrest, mended_cons before, hlone]
    rfl
  | case4 u hu =>
    have hlone : isLone before u none = true := by simp [isLone, hu]
    rw [List.flatMap_singleton, units_replacement, mended_cons, List.head?_nil, hlone]
    rfl
  | case5 u rest hu hlow ih =>
    have hbefore : before.any isHighSurrogate = false := by
      rw [Bool.eq_false_iff]
      exact fun hhigh => Bool.false_ne_true ((h hhigh).symm.trans (by simp [hlow]))
    have hrest := ih (some u) (by simp [hu])
    have hlone : isLone before u rest.head? = true := by simp [isLone, hlow, hbefore]
    rw [List.flatMap_cons, units_replacement, hrest, mended_cons, hlone]
    rfl
  | case6 u rest hu hlow ih =>
    have hplain : isSurrogate u = false := by simp [isSurrogate_eq, hu, hlow]
    have hrest := ih (some u) (by simp [hu])
    have hlone : isLone before u rest.head? = false := by simp [isLone, hu, hlow]
    rw [List.flatMap_cons, units_ofNat hplain, hrest, mended_cons, hlone]
    rfl

theorem encodeUtf16_decodeUtf16 (us : List UInt16) : encodeUtf16 (decodeUtf16 us) = mended none us :=
  encodeUtf16_decodeUtf16_behind us none nofun

example : mended none [0xDE00, 0xD83D, 0xDE00, 0xD83D, 0x61] = [0xFFFD, 0xD83D, 0xDE00, 0xFFFD, 0x61] := by decide

namespace Ucs2

/-! ## Writing -/

/-- The character that stands for a character in a firmware string. -/
def shown (c : Char) : Char := if 0xFFFF < c.toNat then '?' else c

/-- A character of the text console: a carriage return goes before a line feed. -/
def withReturn (c : Char) : List Char := if c = '\n' then ['\r', '\n'] else [c]

theorem toNat_unit (c : Char) : (unit c).toNat = (shown c).toNat := by
  unfold unit shown
  by_cases hc : c.toNat < 0x10000
  · rw [if_pos hc, if_neg (by omega)]
    exact UInt16.toNat_ofNat_of_lt' hc
  · rw [if_neg hc, if_pos (by omega)]
    rfl

theorem isSurrogate_unit (c : Char) : isSurrogate (unit c) = false := by
  have hvalid : (shown c).toNat < 0xD800 ∨ 0xDFFF < (shown c).toNat ∧ (shown c).toNat < 0x110000 := (shown c).valid
  rw [isSurrogate_eq_false_iff, toNat_unit]
  omega

theorem ofNat_unit (c : Char) : Char.ofNat (unit c).toNat = shown c := by rw [toNat_unit, Char.ofNat_toNat]

/-- The zero unit stands for NUL alone. -/
theorem unit_ne_zero_iff (c : Char) : (unit c != 0) = (c != '\x00') := by
  have hzero : unit c = 0 ↔ c = '\x00' := by
    rw [← UInt16.toNat_inj, toNat_unit, shown]
    split
    · next hc =>
      refine iff_of_false (by decide) ?_
      rintro rfl
      exact absurd hc (by decide)
    · show c.toNat = '\x00'.toNat ↔ _
      exact Char.toNat_inj
  rw [Bool.eq_iff_iff, bne_iff_ne, bne_iff_ne]
  exact not_congr hzero

theorem encodeConsole_eq (cs : List Char) : encodeConsole cs = encode (cs.flatMap withReturn) := by
  rw [encodeConsole, encode, List.map_flatMap]
  congr 2
  funext c
  unfold withReturn
  split
  · next h =>
    rw [h]
    rfl
  · rfl

theorem isSurrogate_of_mem_encode {cs : List Char} {u : UInt16} (h : u ∈ encode cs) : isSurrogate u = false := by
  rw [encode, List.mem_append, List.mem_map, List.mem_singleton] at h
  rcases h with ⟨c, -, rfl⟩ | rfl
  · exact isSurrogate_unit c
  · rfl

/-! ## Reading what was written -/

theorem takeWhile_encode (cs : List Char) :
    (encode cs).takeWhile (· != 0) = (cs.takeWhile (· != '\x00')).map unit := by
  induction cs with
  | nil => rfl
  | cons c cs ih =>
    rw [encode, List.map_cons, List.cons_append, ← encode, List.takeWhile_cons, List.takeWhile_cons, unit_ne_zero_iff, ih]
    split
    · rfl
    · rfl

theorem decode_encode (cs : List Char) : decode (encode cs) = (cs.takeWhile (· != '\x00')).map shown := by
  rw [decode, takeWhile_encode, decodeUtf16_plain, List.map_map]
  · exact List.map_congr_left fun c _ => ofNat_unit c
  · intro u hu
    obtain ⟨c, -, rfl⟩ := List.mem_map.mp hu
    exact isSurrogate_unit c

/-- A carriage return before each line feed can be put in behind the reading as well. -/
theorem takeWhile_flatMap_withReturn (cs : List Char) :
    ((cs.flatMap withReturn).takeWhile (· != '\x00')).map shown =
      ((cs.takeWhile (· != '\x00')).map shown).flatMap withReturn := by
  induction cs with
  | nil => rfl
  | cons c cs ih =>
    by_cases hlf : c = '\n'
    · subst hlf
      simpa [withReturn, shown] using ih
    · have hkept : withReturn (shown c) = [shown c] := by
        refine if_neg fun h => hlf ?_
        rw [shown] at h
        split at h
        · exact absurd h (by decide)
        · exact h
      rw [List.flatMap_cons, withReturn, if_neg hlf, List.singleton_append, List.takeWhile_cons, List.takeWhile_cons]
      split
      · rw [List.map_cons, List.map_cons, List.flatMap_cons, ih, hkept, List.singleton_append]
      · rfl

theorem decode_encodeConsole (cs : List Char) : decode (encodeConsole cs) = (decode (encode cs)).flatMap withReturn := by
  rw [encodeConsole_eq, decode_encode, decode_encode, takeWhile_flatMap_withReturn]

/-- Units without a surrogate are written again as they were read. -/
theorem encode_decode {us : List UInt16} (h : ∀ u ∈ us.takeWhile (· != 0), isSurrogate u = false) :
    encode (decode us) = us.takeWhile (· != 0) ++ [0] := by
  rw [encode, decode, decodeUtf16_plain h, List.map_map]
  congr 1
  refine (List.map_congr_left fun u hu => ?_).trans (List.map_id _)
  have hlt : u.toNat < 0x10000 := u.toNat_lt
  rw [Function.comp_apply, unit, toNat_ofNat_unit (h u hu), if_pos hlt, UInt16.ofNat_toNat, id]

/-- What is written for firmware comes back as the text up to its first NUL, with a question mark for
    each character above U+FFFF; on the console a carriage return goes before each line feed. Both forms
    end in a zero unit and have no surrogates. Units without surrogates, up to the first zero unit, are
    read and written again as they were; and any units are read up to the first zero one, as the text
    whose UTF-16 form is these units with U+FFFD for each lone surrogate. -/
theorem firmware_strings_round_trip :
    (∀ cs : List Char, decode (encode cs) = (cs.takeWhile (· != '\x00')).map shown) ∧
    (∀ cs : List Char, decode (encodeConsole cs) = (decode (encode cs)).flatMap withReturn) ∧
    (∀ cs : List Char, ∀ us ∈ [encode cs, encodeConsole cs],
      us.getLast? = some 0 ∧ ∀ u ∈ us, isSurrogate u = false) ∧
    (∀ us : List UInt16, (∀ u ∈ us.takeWhile (· != 0), isSurrogate u = false) →
      encode (decode us) = us.takeWhile (· != 0) ++ [0]) ∧
    ∀ us : List UInt16, encodeUtf16 (decode us) = mended none (us.takeWhile (· != 0)) := by
  refine ⟨decode_encode, decode_encodeConsole, fun cs us hus => ?_, fun us => encode_decode,
    fun us => encodeUtf16_decodeUtf16 _⟩
  have hwritten : ∃ cs', us = encode cs' := by
    simp only [List.mem_cons, List.not_mem_nil, or_false] at hus
    rcases hus with rfl | rfl
    · exact ⟨cs, rfl⟩
    · exact ⟨_, encodeConsole_eq cs⟩
  obtain ⟨cs', rfl⟩ := hwritten
  exact ⟨List.getLast?_concat, fun u => isSurrogate_of_mem_encode⟩

/-- Surrogates behind the first zero unit do not count. -/
theorem units_before_nul_round_trip :
    (∀ u ∈ ([0x6F, 0xE4, 0xFFFD, 0, 0xD800] : List UInt16).takeWhile (· != 0), isSurrogate u = false) ∧
      encode (decode [0x6F, 0xE4, 0xFFFD, 0, 0xD800]) = [0x6F, 0xE4, 0xFFFD] ++ [0] := by
  have hplain : ∀ u ∈ ([0x6F, 0xE4, 0xFFFD, 0, 0xD800] : List UInt16).takeWhile (· != 0), isSurrogate u = false :=
    List.forall_mem_cons.mpr ⟨rfl, List.forall_mem_cons.mpr ⟨rfl, List.forall_mem_singleton.mpr rfl⟩⟩
  exact ⟨hplain, firmware_strings_round_trip.2.2.2.1 _ hplain⟩

end Ucs2

end NetBoot.Text
