/-
  NetBoot.Proofs.Text.Cut — text that is cut to a byte length.

  Whole characters are kept as long as they fit. The same cut is found in the bytes, going back from the
  limit to the nearest place where no byte continues a character (`lastBoundary`). What is kept is the
  longest beginning of the text within the limit that splits no character (`LongestWithin`):
  - `cutString_eq_iff`: the characters that fit are this beginning, and no other text is.
  - `toUTF8_cutString`: their bytes are those up to the boundary. In the bytes of text the boundaries are
    the places between the characters (`isBoundary_iff`), and going back stops at the last one of them
    (`isGreatest_lastBoundary`).
  - `cutString_eq_self_iff`, `le_utf8ByteSize_cutString`: text within the limit is kept whole, and of
    longer text no more than three bytes are missing up to the limit.
-/

import Mathlib.Order.Bounds.Basic
import NetBoot.Proofs.Text.Utf8

namespace NetBoot.Text

/-! ## Sizes -/

theorem utf8ByteSize_cutString (max : Nat) (s : String) : (cutString max s).utf8ByteSize = utf8Len (cut max s.toList) :=
  utf8ByteSize_ofList _

theorem utf8ByteSize_cutString_le (max : Nat) (s : String) : (cutString max s).utf8ByteSize ≤ max := by
  rw [utf8ByteSize_cutString]
  exact utf8Len_cut_le max s.toList

theorem cutString_eq_self_iff {max : Nat} {s : String} : cutString max s = s ↔ s.utf8ByteSize ≤ max := by
  constructor
  · intro h
    rw [← h]
    exact utf8ByteSize_cutString_le max s
  · intro h
    rw [← utf8Len_toList] at h
    rw [cutString, cut_eq_self h, String.ofList_toList]

/-- The character that does not fit has four bytes at most, so there is room for three. -/
theorem le_utf8Len_cut (max : Nat) (cs : List Char) : min max (utf8Len cs) ≤ utf8Len (cut max cs) + 3 := by
  induction cs generalizing max with
  | nil => simp [utf8Len]
  | cons c cs ih =>
    have hfour := c.utf8Size_le_four
    rw [cut]
    by_cases hc : c.utf8Size ≤ max
    · have hrest := ih (max - c.utf8Size)
      rw [if_pos hc, utf8Len, utf8Len]
      omega
    · rw [if_neg hc]
      omega

theorem le_utf8ByteSize_cutString (max : Nat) (s : String) :
    min max s.utf8ByteSize ≤ (cutString max s).utf8ByteSize + 3 := by
  rw [utf8ByteSize_cutString, ← utf8Len_toList]
  exact le_utf8Len_cut max s.toList

/-! ## The longest beginning -/

/-- `t` is the longest beginning of `s` that splits no character and has `max` bytes at most. -/
structure LongestWithin (max : Nat) (s t : String) : Prop where
  begins : ∃ rest, s = t ++ rest
  isGreatest : IsGreatest {i | (⟨i⟩ : String.Pos.Raw).IsValid s ∧ i ≤ max} t.utf8ByteSize

/-- A beginning that fits is kept, and what is behind it is cut to the rest. -/
theorem cutString_append {max : Nat} {s : String} (h : s.utf8ByteSize ≤ max) (t : String) :
    cutString max (s ++ t) = s ++ cutString (max - s.utf8ByteSize) t := by
  rw [← utf8Len_toList] at h ⊢
  rw [cutString, cutString, String.toList_append, cut_append h, String.ofList_append, String.ofList_toList]

theorem exists_eq_cutString_append (max : Nat) (s : String) : ∃ rest, s = cutString max s ++ rest := by
  obtain ⟨rest, hrest⟩ := cut_prefix max s.toList
  refine ⟨String.ofList rest, ?_⟩
  rw [cutString, ← String.ofList_append, hrest, String.ofList_toList]

theorem longestWithin_cutString (max : Nat) (s : String) : LongestWithin max s (cutString max s) := by
  obtain ⟨rest, hrest⟩ := exists_eq_cutString_append max s
  have hvalid : (⟨(cutString max s).utf8ByteSize⟩ : String.Pos.Raw).IsValid s :=
    String.Pos.Raw.isValid_iff_exists_append.mpr ⟨_, rest, hrest, rfl⟩
  refine ⟨⟨rest, hrest⟩, ⟨hvalid, utf8ByteSize_cutString_le max s⟩, ?_⟩
  -- A place between two characters parts the text, and what is before it is kept if it fits.
  intro i hi
  obtain ⟨hvalid, hle⟩ := hi
  obtain ⟨front, behind, rfl, hfront⟩ := String.Pos.Raw.isValid_iff_exists_append.mp hvalid
  obtain rfl : i = front.utf8ByteSize := congrArg String.Pos.Raw.byteIdx hfront
  rw [cutString_append hle, String.utf8ByteSize_append]
  exact Nat.le_add_right _ _

theorem cutString_eq_iff {max : Nat} {s t : String} : cutString max s = t ↔ LongestWithin max s t := by
  constructor
  · rintro rfl
    exact longestWithin_cutString max s
  · intro h
    have hsize := (longestWithin_cutString max s).isGreatest.unique h.isGreatest
    have hle := h.isGreatest.1.2
    obtain ⟨rest, rfl⟩ := h.begins
    rw [cutString_append hle, String.utf8ByteSize_append] at hsize
    have hrest : cutString (max - t.utf8ByteSize) rest = "" := String.utf8ByteSize_eq_zero_iff.mp (by omega)
    rw [cutString_append hle, hrest, String.append_empty]

/-! ## Boundaries -/

/-- Does a character begin at byte `i`, or do the bytes end there? -/
def isBoundary (bs : List UInt8) (i : Nat) : Bool := i == 0 || i == bs.length || bs[i]?.any (!isContinuation ·)

/-- No byte of a character is above those that lead one. -/
theorem toNat_lt_of_mem_utf8EncodeChar {c : Char} {b : UInt8} (h : b ∈ String.utf8EncodeChar c) : b.toNat < 0xF8 := by
  have hvalid : c.toNat < 0xD800 ∨ 0xDFFF < c.toNat ∧ c.toNat < 0x110000 := c.valid
  have hv : c.val.toNat = c.toNat := rfl
  unfold String.utf8EncodeChar at h
  rw [hv] at h
  dsimp only at h
  split at h
  · rw [List.mem_singleton] at h
    subst h
    rw [UInt8.toNat_ofNat']
    omega
  split at h
  · simp only [List.mem_cons, List.not_mem_nil, or_false] at h
    rcases h with rfl | rfl <;> simp <;> omega
  split at h
  · simp only [List.mem_cons, List.not_mem_nil, or_false] at h
    rcases h with rfl | rfl | rfl <;> simp <;> omega
  · simp only [List.mem_cons, List.not_mem_nil, or_false] at h
    rcases h with rfl | rfl | rfl | rfl <;> simp <;> omega

theorem isUTF8FirstByte_iff_of_lt :
    ∀ n < 0xF8, (UInt8.ofNat n).IsUTF8FirstByte ↔ isContinuation (UInt8.ofNat n) = false := by
  decide +kernel

/-- In text, a byte begins a character exactly if it continues none. -/
theorem isUTF8FirstByte_iff {s : String} {b : UInt8} (h : b ∈ s.toUTF8.data.toList) :
    b.IsUTF8FirstByte ↔ isContinuation b = false := by
  rw [toList_toUTF8] at h
  obtain ⟨c, -, hc⟩ := List.mem_flatMap.mp h
  have hb := isUTF8FirstByte_iff_of_lt b.toNat (toNat_lt_of_mem_utf8EncodeChar hc)
  rwa [UInt8.ofNat_toNat] at hb

theorem isBoundary_iff {s : String} {i : Nat} :
    isBoundary s.toUTF8.data.toList i = true ↔ (⟨i⟩ : String.Pos.Raw).IsValid s := by
  have hlen := length_toUTF8 s
  unfold isBoundary
  by_cases hzero : i = 0
  · subst hzero
    simp [show (⟨0⟩ : String.Pos.Raw) = 0 from rfl]
  rw [String.Pos.Raw.isValid_iff_isUTF8FirstByte]
  simp only [Bool.or_eq_true, beq_iff_eq, hzero, false_or, hlen, String.Pos.Raw.ext_iff, String.byteIdx_rawEndPos,
    String.Pos.Raw.lt_iff]
  refine or_congr Iff.rfl ?_
  by_cases hi : i < s.utf8ByteSize
  · have hbyte : s.toUTF8.data.toList[i]? = some (s.getUTF8Byte ⟨i⟩ hi) :=
      List.getElem?_eq_getElem (by rw [hlen]; exact hi)
    have hfirst := isUTF8FirstByte_iff (List.mem_of_getElem? hbyte)
    rw [hbyte]
    simp [hi, hfirst]
  · have hnone : s.toUTF8.data.toList[i]? = none := List.getElem?_eq_none (by rw [hlen]; omega)
    rw [hnone]
    simp [hi]

/-! ## From the limit back -/

/-- The last boundary that is not behind byte `i`, sought from there back. -/
def lastBoundary (bs : List UInt8) : Nat → Nat
  | 0 => 0
  | i + 1 => if isBoundary bs (i + 1) then i + 1 else lastBoundary bs i

/-- The bytes up to the last boundary within `max`, or all of them if they fit. -/
def truncated (max : Nat) (bs : List UInt8) : List UInt8 :=
  if max < bs.length then bs.take (lastBoundary bs max) else bs

theorem isGreatest_lastBoundary (bs : List UInt8) (i : Nat) :
    IsGreatest {j | isBoundary bs j = true ∧ j ≤ i} (lastBoundary bs i) := by
  induction i with
  | zero => exact ⟨⟨rfl, Nat.le_refl 0⟩, fun j hj => hj.2⟩
  | succ i ih =>
    rw [lastBoundary]
    by_cases h : isBoundary bs (i + 1) = true
    · rw [if_pos h]
      exact ⟨⟨h, Nat.le_refl _⟩, fun j hj => hj.2⟩
    · rw [if_neg h]
      obtain ⟨⟨hlast, hle⟩, hgreatest⟩ := ih
      refine ⟨⟨hlast, by omega⟩, ?_⟩
      intro j hj
      obtain ⟨hj, hji⟩ := hj
      have hne : j ≠ i + 1 := fun hji => h (hji ▸ hj)
      exact hgreatest ⟨hj, by omega⟩

theorem toUTF8_cutString (max : Nat) (s : String) :
    (cutString max s).toUTF8.data.toList = truncated max s.toUTF8.data.toList := by
  rw [truncated, length_toUTF8]
  by_cases hmax : max < s.utf8ByteSize
  · have hsize : (cutString max s).utf8ByteSize = lastBoundary s.toUTF8.data.toList max := by
      have h := isGreatest_lastBoundary s.toUTF8.data.toList max
      simp only [isBoundary_iff] at h
      exact (longestWithin_cutString max s).isGreatest.unique h
    obtain ⟨rest, hrest⟩ := exists_eq_cutString_append max s
    have hbytes : s.toUTF8.data.toList = (cutString max s).toUTF8.data.toList ++ rest.toUTF8.data.toList := by
      rw [toList_toUTF8, toList_toUTF8, toList_toUTF8, ← List.flatMap_append, ← String.toList_append, ← hrest]
    rw [if_pos hmax, ← hsize, hbytes, ← length_toUTF8, List.take_left]
  · rw [if_neg hmax, cutString_eq_self_iff.mpr (Nat.not_lt.mp hmax)]

/-- The limit falls within the second character, and the search for a boundary steps over its last byte. -/
example : cutString 2 "né日" = "n" ∧ lastBoundary "né日".toUTF8.data.toList 2 = 1 := by decide +kernel

end NetBoot.Text
