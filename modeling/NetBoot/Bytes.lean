/-
  NetBoot.Bytes — byte strings: little-endian fields, bounded slices, and overwriting a run
  of bytes in place.

  A byte string is an array. A read states its bounds by answering `none` outside them, and a
  write outside the array changes nothing, so no access here can fail at run time:
  - `u16At?`, `u32At?`, `u64At?` are exactly `leNat` of the slice they cover
    (`u32At?_eq_some_iff`), and `leNat` reads back what `leBytes` wrote (`leNat_leBytes`).
  - `overwrite` changes the bytes it covers and no other (`getElem?_overwrite`), and never the
    size (`size_overwrite`).
-/

namespace NetBoot

abbrev Bytes := Array UInt8

/-! ## Little-endian numbers -/

/-- The number whose base-256 digits are `bs`, least significant first. -/
def leNat : List UInt8 → Nat
  | [] => 0
  | b :: r => b.toNat + 256 * leNat r

/-- The `width` low base-256 digits of `n`, least significant first. -/
def leBytes : Nat → Nat → List UInt8
  | 0, _ => []
  | width + 1, n => UInt8.ofNat n :: leBytes width (n / 256)

@[simp] theorem length_leBytes (width n : Nat) : (leBytes width n).length = width := by
  induction width generalizing n with
  | zero => rfl
  | succ w ih => simp [leBytes, ih]

theorem leNat_leBytes (width n : Nat) : leNat (leBytes width n) = n % (1 <<< (8 * width)) := by
  induction width generalizing n with
  | zero => simp [leBytes, leNat, Nat.mod_one]
  | succ w ih =>
    have hb : (UInt8.ofNat n).toNat = n % 256 := UInt8.toNat_ofNat'
    simp only [leBytes, leNat, ih, hb]
    have hw : 1 <<< (8 * (w + 1)) = 256 * 1 <<< (8 * w) := by
      rw [Nat.mul_succ, Nat.shiftLeft_add]
      omega
    rw [hw, Nat.mod_mul]

theorem leNat_lt (bs : List UInt8) : leNat bs < 1 <<< (8 * bs.length) := by
  induction bs with
  | nil => simp [leNat]
  | cons b r ih =>
    have hb := b.toNat_lt
    rw [List.length_cons, Nat.mul_succ, Nat.shiftLeft_add, leNat]
    omega

theorem leBytes_leNat (bs : List UInt8) : leBytes bs.length (leNat bs) = bs := by
  induction bs with
  | nil => rfl
  | cons b r ih =>
    have hb := b.toNat_lt
    have h1 : (b.toNat + 256 * leNat r) / 256 = leNat r := by omega
    have h2 : UInt8.ofNat (b.toNat + 256 * leNat r) = b := by
      apply UInt8.toNat_inj.mp
      rw [UInt8.toNat_ofNat']
      omega
    simp only [leNat, List.length_cons, leBytes, h1, h2, ih]

namespace Bytes

/-- `n` zero bytes. -/
def zeros (n : Nat) : Bytes := Array.replicate n 0

/-- The `len` bytes from `pos` on, if they are all there. -/
def slice? (b : Bytes) (pos len : Nat) : Option Bytes :=
  if pos + len ≤ b.size then some (b.extract pos (pos + len)) else none

/-- The number in the `width` bytes at `pos`. -/
def fieldAt? (b : Bytes) (pos width : Nat) : Option Nat :=
  (b.slice? pos width).map fun s => leNat s.toList

def u16At? (b : Bytes) (pos : Nat) : Option UInt16 := (b.fieldAt? pos 2).map UInt16.ofNat

def u32At? (b : Bytes) (pos : Nat) : Option UInt32 := (b.fieldAt? pos 4).map UInt32.ofNat

def u64At? (b : Bytes) (pos : Nat) : Option UInt64 := (b.fieldAt? pos 8).map UInt64.ofNat

/-- The little-endian bytes of a word. -/
def ofU16 (v : UInt16) : Bytes := (leBytes 2 v.toNat).toArray

def ofU32 (v : UInt32) : Bytes := (leBytes 4 v.toNat).toArray

def ofU64 (v : UInt64) : Bytes := (leBytes 8 v.toNat).toArray

/-- Writes `src` over the bytes of `b` from `pos` on; what would lie outside `b` is dropped. -/
def overwrite (b : Bytes) (pos : Nat) (src : Bytes) : Bytes :=
  (src.foldl (fun (b, i) x => (b.setIfInBounds i x, i + 1)) (b, pos)).1

/-- Pads with zeros to at least `len` bytes. -/
def padTo (b : Bytes) (len : Nat) : Bytes := if b.size < len then b ++ zeros (len - b.size) else b

/-- Pads with zeros, or cuts, to exactly `len` bytes. -/
def resize (b : Bytes) (len : Nat) : Bytes :=
  b.extract 0 len ++ zeros (len - b.size)

/-- The bytes before the first zero byte, or all of them. -/
def untilNul (b : Bytes) : Bytes := b.takeWhile (· != 0)

/-- Do the bytes at `pos` begin with `pattern`? -/
def holdsAt (b : Bytes) (pos : Nat) (pattern : List UInt8) : Bool :=
  (b.slice? pos pattern.length).any fun s => s.toList == pattern

def ofString (s : String) : Bytes := s.toUTF8.data

/-! ## What the reads and writes say -/

theorem slice?_eq_some_iff {b s : Bytes} {pos len : Nat} :
    b.slice? pos len = some s ↔ pos + len ≤ b.size ∧ s = b.extract pos (pos + len) := by
  unfold slice?
  split
  · rename_i h
    simp only [h, true_and, Option.some.injEq, eq_comm]
  · rename_i h
    exact ⟨fun h' => (nomatch h'), fun h' => absurd h'.1 h⟩

theorem fieldAt?_eq_some_iff {b : Bytes} {pos width n : Nat} :
    b.fieldAt? pos width = some n ↔
      pos + width ≤ b.size ∧ n = leNat (b.extract pos (pos + width)).toList := by
  simp only [fieldAt?, Option.map_eq_some_iff, slice?_eq_some_iff]
  grind

theorem u16At?_eq_some_iff {b : Bytes} {pos : Nat} {v : UInt16} :
    b.u16At? pos = some v ↔
      pos + 2 ≤ b.size ∧ v = UInt16.ofNat (leNat (b.extract pos (pos + 2)).toList) := by
  simp only [u16At?, Option.map_eq_some_iff, fieldAt?_eq_some_iff]
  grind

theorem u32At?_eq_some_iff {b : Bytes} {pos : Nat} {v : UInt32} :
    b.u32At? pos = some v ↔
      pos + 4 ≤ b.size ∧ v = UInt32.ofNat (leNat (b.extract pos (pos + 4)).toList) := by
  simp only [u32At?, Option.map_eq_some_iff, fieldAt?_eq_some_iff]
  grind

theorem u64At?_eq_some_iff {b : Bytes} {pos : Nat} {v : UInt64} :
    b.u64At? pos = some v ↔
      pos + 8 ≤ b.size ∧ v = UInt64.ofNat (leNat (b.extract pos (pos + 8)).toList) := by
  simp only [u64At?, Option.map_eq_some_iff, fieldAt?_eq_some_iff]
  grind

theorem exists_fieldAt? {b : Bytes} {pos width : Nat} (h : pos + width ≤ b.size) : ∃ v, b.fieldAt? pos width = some v :=
  ⟨_, fieldAt?_eq_some_iff.mpr ⟨h, rfl⟩⟩

theorem exists_u16At? {b : Bytes} {pos : Nat} (h : pos + 2 ≤ b.size) : ∃ v, b.u16At? pos = some v :=
  ⟨_, u16At?_eq_some_iff.mpr ⟨h, rfl⟩⟩

theorem exists_u32At? {b : Bytes} {pos : Nat} (h : pos + 4 ≤ b.size) : ∃ v, b.u32At? pos = some v :=
  ⟨_, u32At?_eq_some_iff.mpr ⟨h, rfl⟩⟩

/-! Reads within a part of a string are reads of the whole. -/

section Extract

variable {b : Bytes} {start stop pos : Nat}

theorem slice?_extract {len : Nat} (hle : start + pos + len ≤ stop) (hs : stop ≤ b.size) :
    slice? (b.extract start stop) pos len = b.slice? (start + pos) len := by
  unfold slice?
  rw [Array.size_extract, if_pos (by omega), if_pos (by omega), Array.extract_extract]
  congr 2
  omega

theorem fieldAt?_extract {width : Nat} (hle : start + pos + width ≤ stop) (hs : stop ≤ b.size) :
    fieldAt? (b.extract start stop) pos width = b.fieldAt? (start + pos) width := by
  rw [fieldAt?, fieldAt?, slice?_extract hle hs]

theorem u16At?_extract (hle : start + pos + 2 ≤ stop) (hs : stop ≤ b.size) :
    u16At? (b.extract start stop) pos = b.u16At? (start + pos) := by
  rw [u16At?, u16At?, fieldAt?_extract hle hs]

theorem u32At?_extract (hle : start + pos + 4 ≤ stop) (hs : stop ≤ b.size) :
    u32At? (b.extract start stop) pos = b.u32At? (start + pos) := by
  rw [u32At?, u32At?, fieldAt?_extract hle hs]

end Extract

/-- A field depends on the bytes it covers. -/
theorem fieldAt?_congr {b other : Bytes} {pos width : Nat} (hs : b.size = other.size)
    (h : ∀ i, pos ≤ i → i < pos + width → b[i]? = other[i]?) : b.fieldAt? pos width = other.fieldAt? pos width := by
  unfold fieldAt? slice?
  rw [hs]
  by_cases hle : pos + width ≤ other.size
  · rw [if_pos hle, if_pos hle]
    have hx : b.extract pos (pos + width) = other.extract pos (pos + width) := by
      apply Array.ext_getElem?
      intro i
      rw [Array.getElem?_extract, Array.getElem?_extract, hs]
      by_cases hi : i < min (pos + width) other.size - pos
      · rw [if_pos hi, if_pos hi]
        exact h (pos + i) (by omega) (by omega)
      · rw [if_neg hi, if_neg hi]
    rw [hx]
  · rw [if_neg hle, if_neg hle]

/-- Writes a list over the bytes from `pos` on. -/
def overwriteList (b : Bytes) (pos : Nat) : List UInt8 → Bytes
  | [] => b
  | x :: r => overwriteList (b.setIfInBounds pos x) (pos + 1) r

theorem overwrite_eq (b : Bytes) (pos : Nat) (src : Bytes) : b.overwrite pos src = overwriteList b pos src.toList := by
  have h : ∀ (l : List UInt8) (b : Bytes) (pos : Nat),
      (l.foldl (fun (b, i) x => (b.setIfInBounds i x, i + 1)) (b, pos)).1 = overwriteList b pos l := by
    intro l
    induction l with
    | nil => exact fun _ _ => rfl
    | cons x r ih => exact fun b pos => ih (b.setIfInBounds pos x) (pos + 1)
  rw [overwrite, ← Array.foldl_toList]
  exact h src.toList b pos

theorem size_overwriteList (b : Bytes) (pos : Nat) (l : List UInt8) : (overwriteList b pos l).size = b.size := by
  induction l generalizing b pos with
  | nil => rfl
  | cons x r ih => simp [overwriteList, ih]

@[simp] theorem size_overwrite (b : Bytes) (pos : Nat) (src : Bytes) : (b.overwrite pos src).size = b.size := by
  rw [overwrite_eq, size_overwriteList]

theorem getElem?_overwriteList (b : Bytes) (pos : Nat) (l : List UInt8) (i : Nat) :
    (overwriteList b pos l)[i]? =
      if pos ≤ i ∧ i < pos + l.length ∧ i < b.size then l[i - pos]? else b[i]? := by
  induction l generalizing b pos with
  | nil =>
    rw [if_neg (by simp only [List.length_nil]; omega)]
    rfl
  | cons x r ih =>
    simp only [overwriteList, ih, Array.size_setIfInBounds, List.length_cons, Array.getElem?_setIfInBounds]
    by_cases h1 : pos = i
    · subst h1
      have h2 : ¬ (pos + 1 ≤ pos) := by omega
      simp only [h2, false_and, if_false, if_true, Nat.sub_self, List.getElem?_cons_zero]
      by_cases h3 : pos < b.size
      · simp only [h3, if_true]
        rw [if_pos ⟨Nat.le_refl _, by omega, trivial⟩]
      · simp only [h3, if_false, and_false, if_false]
        rw [Array.getElem?_eq_none (by omega)]
    · simp only [h1, if_false]
      by_cases h4 : pos + 1 ≤ i ∧ i < pos + 1 + r.length ∧ i < b.size
      · rw [if_pos h4, if_pos ⟨by omega, by omega, h4.2.2⟩]
        have h5 : i - pos = (i - (pos + 1)) + 1 := by omega
        rw [h5, List.getElem?_cons_succ]
      · rw [if_neg h4, if_neg (by omega)]

/-- A write covers exactly the bytes from `pos` on that lie inside both strings. -/
theorem getElem?_overwrite (b : Bytes) (pos : Nat) (src : Bytes) (i : Nat) :
    (b.overwrite pos src)[i]? =
      if pos ≤ i ∧ i < pos + src.size ∧ i < b.size then src[i - pos]? else b[i]? := by
  simp only [overwrite_eq, getElem?_overwriteList, Array.length_toList, Array.getElem?_toList]

/-! ## Lengths, padding and cutting -/

@[simp] theorem size_zeros (n : Nat) : (zeros n).size = n := Array.size_replicate

theorem getElem?_zeros (n i : Nat) : (zeros n)[i]? = if i < n then some 0 else none := by
  simp [zeros, Array.getElem?_replicate]

@[simp] theorem size_resize (b : Bytes) (len : Nat) : (b.resize len).size = len := by
  simp only [resize, Array.size_append, Array.size_extract, size_zeros]
  omega

theorem getElem?_resize (b : Bytes) (len i : Nat) :
    (b.resize len)[i]? = if i < len then some (b[i]?.getD 0) else none := by
  simp only [resize, Array.getElem?_append, Array.size_extract, Array.getElem?_extract, getElem?_zeros,
    Nat.zero_add, Nat.sub_zero]
  by_cases hb : i < b.size
  · have hs : b[i]? = some b[i] := Array.getElem?_eq_getElem hb
    by_cases hl : i < len
    · rw [if_pos (by omega), if_pos (by omega), if_pos hl, hs]
      rfl
    · rw [if_neg (by omega), if_neg (by omega), if_neg hl]
  · have hn : b[i]? = none := Array.getElem?_eq_none (by omega)
    rw [if_neg (by omega), hn]
    by_cases hl : i < len
    · rw [if_pos (by omega), if_pos hl]
      rfl
    · rw [if_neg (by omega), if_neg hl]

theorem size_padTo (b : Bytes) (len : Nat) : (b.padTo len).size = max b.size len := by
  unfold padTo
  split
  · rw [Array.size_append, size_zeros]
    omega
  · omega

theorem getElem?_padTo (b : Bytes) (len i : Nat) :
    (b.padTo len)[i]? = if b.size ≤ i ∧ i < len then some 0 else b[i]? := by
  unfold padTo
  split
  · rw [Array.getElem?_append, getElem?_zeros]
    by_cases hb : i < b.size
    · rw [if_pos hb, if_neg (by omega)]
    · rw [if_neg hb]
      by_cases hl : i < len
      · rw [if_pos (by omega), if_pos (by omega)]
      · rw [if_neg (by omega), if_neg (by omega), Array.getElem?_eq_none (by omega)]
  · rw [if_neg (by omega)]

/-- A write over all of a string leaves nothing of it. -/
@[simp] theorem resize_self (b : Bytes) : b.resize b.size = b := by
  apply Array.ext_getElem?
  intro i
  rw [getElem?_resize]
  by_cases h : i < b.size
  · rw [if_pos h, Array.getElem?_eq_getElem h]
    rfl
  · rw [if_neg h, Array.getElem?_eq_none (by omega)]

theorem overwrite_all {b src : Bytes} (h : src.size = b.size) : b.overwrite 0 src = src := by
  apply Array.ext_getElem?
  intro i
  rw [getElem?_overwrite, Nat.zero_add, Nat.sub_zero]
  split
  · rfl
  · rw [Array.getElem?_eq_none (by omega), Array.getElem?_eq_none (by omega)]

end Bytes

end NetBoot
