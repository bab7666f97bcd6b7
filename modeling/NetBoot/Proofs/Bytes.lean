/-
  NetBoot.Proofs.Bytes — what stands at a place of a byte string.

  `b.Carries pos src` says that the bytes of `src` stand in `b` from `pos` on. What is written piece by
  piece carries every piece behind those before it (`carries_append`), and a word that is carried is read
  there (`Carries.u16At?`, `Carries.u32At?`). So a reader that goes by offsets meets a writer that puts one
  piece behind the other.

  Two writes to one place are the second one (`overwrite_overwrite`), and those to places apart can be done
  in either order (`overwrite_comm`).
-/

import NetBoot.Bytes

namespace NetBoot

theorem leBytes_congr {width a b : Nat} (h : a % 1 <<< (8 * width) = b % 1 <<< (8 * width)) :
    leBytes width a = leBytes width b := by
  have ha := leBytes_leNat (leBytes width a)
  have hb := leBytes_leNat (leBytes width b)
  rw [length_leBytes, leNat_leBytes] at ha hb
  rw [← ha, ← hb, h]

namespace Bytes

@[simp] theorem size_ofU16 (v : UInt16) : (ofU16 v).size = 2 := rfl

@[simp] theorem size_ofU32 (v : UInt32) : (ofU32 v).size = 4 := rfl

/-! ## What stands at a place -/

/-- The bytes of `src` stand in `b` from `pos` on. -/
def Carries (b : Bytes) (pos : Nat) (src : Bytes) : Prop := ∀ i, i < src.size → b[pos + i]? = src[i]?

section Carries

variable {b src src' : Bytes} {pos pos' : Nat}

theorem carries_append : b.Carries pos (src ++ src') ↔ b.Carries pos src ∧ b.Carries (pos + src.size) src' := by
  unfold Carries
  constructor
  · intro h
    constructor
    · intro i hi
      rw [h i (by simp; omega), Array.getElem?_append, if_pos hi]
    · intro i hi
      rw [Nat.add_assoc, h (src.size + i) (by simp; omega), Array.getElem?_append, if_neg (by omega),
        Nat.add_sub_cancel_left]
  · intro h i hi
    rw [Array.size_append] at hi
    rw [Array.getElem?_append]
    by_cases hs : i < src.size
    · rw [if_pos hs, h.1 i hs]
    · rw [if_neg hs, ← h.2 (i - src.size) (by omega)]
      congr 1
      omega

/-- A piece between two others. -/
theorem carries_between (before src behind : Bytes) : (before ++ src ++ behind).Carries before.size src := by
  intro i hi
  rw [Array.getElem?_append, if_pos (by simp; omega), Array.getElem?_append, if_neg (by omega),
    Nat.add_sub_cancel_left]

theorem carries_self (b : Bytes) : b.Carries 0 b := fun i _ => by rw [Nat.zero_add]

namespace Carries

theorem lt (h : b.Carries pos src) {i : Nat} (hi : i < src.size) : pos + i < b.size := by
  have hb := h i hi
  rw [Array.getElem?_eq_getElem hi] at hb
  exact (Array.getElem?_eq_some_iff.mp hb).1

theorem le (h : b.Carries pos src) (hsrc : 0 < src.size) : pos + src.size ≤ b.size := by
  have hlast := h.lt (show src.size - 1 < src.size by omega)
  omega

theorem extract (h : b.Carries pos src) : b.extract pos (pos + src.size) = src := by
  apply Array.ext_getElem?
  intro i
  rw [Array.getElem?_extract]
  by_cases hi : i < src.size
  · have hlt := h.lt hi
    rw [if_pos (by omega), h i hi]
  · rw [if_neg (by omega), Array.getElem?_eq_none (by omega)]

theorem slice? (h : b.Carries pos src) (hsrc : 0 < src.size) : b.slice? pos src.size = some src :=
  slice?_eq_some_iff.mpr ⟨h.le hsrc, h.extract.symm⟩

theorem append (h : b.Carries pos src) (behind : Bytes) : (b ++ behind).Carries pos src := by
  intro i hi
  rw [Array.getElem?_append, if_pos (h.lt hi), h i hi]

/-- Another string that is alike there. -/
theorem congr {b' : Bytes} (h : b.Carries pos src) (hb : ∀ i, pos ≤ i → i < pos + src.size → b'[i]? = b[i]?) :
    b'.Carries pos src := by
  intro i hi
  rw [hb (pos + i) (by omega) (by omega), h i hi]

theorem trans {piece : Bytes} {k : Nat} (h : b.Carries pos src) (hs : src.Carries k piece) :
    b.Carries (pos + k) piece := by
  intro i hi
  rw [Nat.add_assoc, h (k + i) (hs.lt hi), hs i hi]

theorem prepend (h : b.Carries pos src) (front : Bytes) : (front ++ b).Carries (front.size + pos) src := by
  intro i hi
  rw [Array.getElem?_append, if_neg (by omega), ← h i hi]
  congr 1
  omega

/-! Words that are carried are read. -/

theorem fieldAt? {width n : Nat} (h : b.Carries pos (leBytes width n).toArray) (hwidth : 0 < width) :
    b.fieldAt? pos width = some (n % 1 <<< (8 * width)) := by
  have hsize : (leBytes width n).toArray.size = width := length_leBytes width n
  have hslice := h.slice? (by omega)
  rw [hsize] at hslice
  rw [Bytes.fieldAt?, hslice, Option.map_some, ← leNat_leBytes]

theorem u16At? {v : UInt16} (h : b.Carries pos (ofU16 v)) : b.u16At? pos = some v := by
  have hv : v.toNat < 1 <<< (8 * 2) := v.toNat_lt
  rw [Bytes.u16At?, h.fieldAt? (by decide), Nat.mod_eq_of_lt hv, Option.map_some, UInt16.ofNat_toNat]

theorem u32At? {v : UInt32} (h : b.Carries pos (ofU32 v)) : b.u32At? pos = some v := by
  have hv : v.toNat < 1 <<< (8 * 4) := v.toNat_lt
  rw [Bytes.u32At?, h.fieldAt? (by decide), Nat.mod_eq_of_lt hv, Option.map_some, UInt32.ofNat_toNat]

theorem u64At? {v : UInt64} (h : b.Carries pos (ofU64 v)) : b.u64At? pos = some v := by
  have hv : v.toNat < 1 <<< (8 * 8) := v.toNat_lt
  rw [Bytes.u64At?, h.fieldAt? (by decide), Nat.mod_eq_of_lt hv, Option.map_some, UInt64.ofNat_toNat]

end Carries

/-- A write is carried where it goes. -/
theorem carries_overwrite (hle : pos + src.size ≤ b.size) : (b.overwrite pos src).Carries pos src := by
  intro i hi
  rw [getElem?_overwrite, if_pos (by omega), Nat.add_sub_cancel_left]

/-- A string cut where a second one starts behind it. -/
theorem resize_append (b behind : Bytes) : resize (b ++ behind) b.size = b := by
  apply Array.ext_getElem?
  intro i
  rw [getElem?_resize, Array.getElem?_append]
  by_cases hi : i < b.size
  · rw [if_pos hi, if_pos hi, Array.getElem?_eq_getElem hi]
    rfl
  · rw [if_neg hi, Array.getElem?_eq_none (by omega)]

end Carries

/-! ## Pieces of one size -/

section Pieces

variable {α : Type} {f : α → Bytes} {size : Nat}

theorem size_pieces (hsize : ∀ a, (f a).size = size) (l : List α) :
    (l.foldr (fun a r => f a ++ r) #[]).size = size * l.length := by
  induction l with
  | nil => simp
  | cons a l ih => rw [List.foldr_cons, Array.size_append, hsize, ih, List.length_cons, Nat.mul_succ, Nat.add_comm]

/-- Where all pieces have one size, the `i`-th stands behind `i` times as many bytes. -/
theorem carries_pieces (hsize : ∀ a, (f a).size = size) {l : List α} {i : Nat} {a : α} (h : l[i]? = some a) :
    (l.foldr (fun a r => f a ++ r) #[]).Carries (size * i) (f a) := by
  induction l generalizing i with
  | nil => simp at h
  | cons a' l ih =>
    rw [List.foldr_cons]
    cases i with
    | zero =>
      obtain rfl : a' = a := by simpa using h
      exact (carries_self _).append _
    | succ i =>
      have hrest := (ih (by simpa using h)).prepend (f a')
      rw [hsize] at hrest
      rw [Nat.mul_succ, Nat.add_comm]
      exact hrest

end Pieces

/-! ## Writing twice -/

section Writing

variable {b : Bytes} {pos pos' width : Nat}

theorem overwrite_overwrite {src src' : Bytes} (h : src'.size = src.size) :
    (b.overwrite pos src).overwrite pos src' = b.overwrite pos src' := by
  apply Array.ext_getElem?
  intro i
  rw [getElem?_overwrite, getElem?_overwrite, getElem?_overwrite, size_overwrite, h]
  split <;> rfl

theorem overwrite_comm {src src' : Bytes} (h : pos + src.size ≤ pos' ∨ pos' + src'.size ≤ pos) :
    (b.overwrite pos src).overwrite pos' src' = (b.overwrite pos' src').overwrite pos src := by
  apply Array.ext_getElem?
  intro i
  simp only [getElem?_overwrite, size_overwrite]
  by_cases hi : pos ≤ i ∧ i < pos + src.size ∧ i < b.size
  · rw [if_neg (by omega), if_pos hi, if_pos hi]
  · rw [if_neg hi, if_neg hi]

/-- The same bytes written to two strings leave them alike where they were. -/
theorem getElem?_overwrite_congr {other : Bytes} (hs : b.size = other.size) (src : Bytes) {i : Nat}
    (h : b[i]? = other[i]?) : (b.overwrite pos src)[i]? = (other.overwrite pos src)[i]? := by
  rw [getElem?_overwrite, getElem?_overwrite, hs, h]

theorem getElem?_overwrite_outside {src : Bytes} {i : Nat} (h : ¬(pos ≤ i ∧ i < pos + src.size)) :
    (b.overwrite pos src)[i]? = b[i]? := by
  rw [getElem?_overwrite, if_neg (by omega)]

theorem slice?_overwrite {src : Bytes} (hle : pos + src.size ≤ b.size) :
    (b.overwrite pos src).slice? pos src.size = some src := by
  rw [slice?_eq_some_iff, size_overwrite]
  exact ⟨hle, (carries_overwrite hle).extract.symm⟩

theorem fieldAt?_overwrite (n : Nat) (hle : pos + width ≤ b.size) :
    (b.overwrite pos (leBytes width n).toArray).fieldAt? pos width = some (n % 1 <<< (8 * width)) := by
  have hsize : (leBytes width n).toArray.size = width := length_leBytes width n
  have hfits : pos + (leBytes width n).toArray.size ≤ b.size := by rw [hsize]; exact hle
  have hslice := slice?_overwrite hfits
  rw [hsize] at hslice
  rw [fieldAt?, hslice, Option.map_some, ← leNat_leBytes]

theorem fieldAt?_overwrite_apart {src : Bytes} (h : pos + width ≤ pos' ∨ pos' + src.size ≤ pos) :
    (b.overwrite pos' src).fieldAt? pos width = b.fieldAt? pos width :=
  fieldAt?_congr (size_overwrite b pos' src) fun i _ _ => getElem?_overwrite_outside (by omega)

/-- Writing what is there changes nothing. -/
theorem overwrite_fieldAt {v : Nat} (h : b.fieldAt? pos width = some v) :
    b.overwrite pos (leBytes width v).toArray = b := by
  obtain ⟨hle, rfl⟩ := fieldAt?_eq_some_iff.mp h
  have hsize : (b.extract pos (pos + width)).toList.length = width := by
    rw [Array.length_toList, Array.size_extract]
    omega
  have hback := leBytes_leNat (b.extract pos (pos + width)).toList
  rw [hsize] at hback
  rw [hback]
  apply Array.ext_getElem?
  intro i
  rw [getElem?_overwrite]
  split
  · rw [List.size_toArray, hsize] at *
    rw [List.getElem?_toArray, Array.getElem?_toList, Array.getElem?_extract, if_pos (by omega)]
    congr 1
    omega
  · rfl

theorem overwrite_append (src src' : Bytes) :
    b.overwrite pos (src ++ src') = (b.overwrite pos src).overwrite (pos + src.size) src' := by
  apply Array.ext_getElem?
  intro i
  simp only [getElem?_overwrite, size_overwrite, Array.size_append, Array.getElem?_append]
  by_cases h : pos + src.size ≤ i ∧ i < pos + src.size + src'.size ∧ i < b.size
  · rw [if_pos (by omega), if_neg (by omega), if_pos h, Nat.sub_sub]
  · rw [if_neg h]
    by_cases h' : pos ≤ i ∧ i < pos + src.size ∧ i < b.size
    · rw [if_pos (by omega), if_pos (by omega), if_pos h']
    · rw [if_neg (by omega), if_neg h']

theorem u16At?_overwrite (v : UInt16) (hle : pos + 2 ≤ b.size) : (b.overwrite pos (ofU16 v)).u16At? pos = some v :=
  (carries_overwrite hle).u16At?

theorem u32At?_overwrite (v : UInt32) (hle : pos + 4 ≤ b.size) : (b.overwrite pos (ofU32 v)).u32At? pos = some v :=
  (carries_overwrite hle).u32At?

theorem u16At?_overwrite_apart {src : Bytes} (h : pos + 2 ≤ pos' ∨ pos' + src.size ≤ pos) :
    (b.overwrite pos' src).u16At? pos = b.u16At? pos := by
  rw [u16At?, u16At?, fieldAt?_overwrite_apart h]

theorem u32At?_overwrite_apart {src : Bytes} (h : pos + 4 ≤ pos' ∨ pos' + src.size ≤ pos) :
    (b.overwrite pos' src).u32At? pos = b.u32At? pos := by
  rw [u32At?, u32At?, fieldAt?_overwrite_apart h]

theorem fieldAt?_lt {n : Nat} (h : b.fieldAt? pos width = some n) : n < 1 <<< (8 * width) := by
  obtain ⟨hle, rfl⟩ := fieldAt?_eq_some_iff.mp h
  have hlt := leNat_lt (b.extract pos (pos + width)).toList
  rw [Array.length_toList, Array.size_extract, Nat.min_eq_left hle, Nat.add_sub_cancel_left] at hlt
  exact hlt

theorem overwrite_u16At {v : UInt16} (h : b.u16At? pos = some v) : b.overwrite pos (ofU16 v) = b := by
  obtain ⟨n, hn, rfl⟩ := Option.map_eq_some_iff.mp h
  have hlt : n < 2 ^ 16 := fieldAt?_lt hn
  rw [ofU16, UInt16.toNat_ofNat', Nat.mod_eq_of_lt hlt, overwrite_fieldAt hn]

theorem overwrite_u32At {v : UInt32} (h : b.u32At? pos = some v) : b.overwrite pos (ofU32 v) = b := by
  obtain ⟨n, hn, rfl⟩ := Option.map_eq_some_iff.mp h
  have hlt : n < 2 ^ 32 := fieldAt?_lt hn
  rw [ofU32, UInt32.toNat_ofNat', Nat.mod_eq_of_lt hlt, overwrite_fieldAt hn]

end Writing

end Bytes

end NetBoot
