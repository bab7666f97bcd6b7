/-
  NetBoot.Memory — a stretch of memory that pages are handed out from.

  Pages are handed out upwards and never again, each run directly behind the one before, so two
  runs never overlap. Fresh pages are zero, and memory keeps its contents when pages are given
  back. What is written at an address is what is read there afterwards (`bytesAt_write`).
-/

import NetBoot.Address
import NetBoot.Bytes

namespace NetBoot

/-- Where the memory starts that pages come from. -/
def memoryStart : Address := 0x200000000

/-- Where it ends. -/
def memoryEnd : Address := 0x201000000

structure Memory where
  start : Address := memoryStart
  /-- The next page to hand out. -/
  next : Address := memoryStart
  start_le_next : start ≤ next := by exact UInt64.le_refl _
  /-- The bytes from the start on; zeros behind them. -/
  contents : Bytes := #[]
  deriving DecidableEq, Repr

namespace Memory

instance : Inhabited Memory := ⟨{}⟩

/-- Memory of which the first pages are taken. -/
def above (pages : Nat) : Memory :=
  let first := memoryStart + UInt64.ofNat (pageSize * pages)
  { start := first, next := first }

/-- A run of pages that ends in memory ends behind its start. -/
theorem start_le_ofNat (m : Memory) {pages : Nat} (h : ¬ memoryEnd.toNat < m.next.toNat + pages * pageSize) :
    m.start ≤ UInt64.ofNat (m.next.toNat + pages * pageSize) := by
  have hs := UInt64.le_iff_toNat_le.mp m.start_le_next
  have he : memoryEnd.toNat < 2 ^ 64 := memoryEnd.toNat_lt
  rw [UInt64.le_iff_toNat_le, UInt64.toNat_ofNat_of_lt' (by rw [UInt64.size]; omega)]
  omega

/-- Hands out a run of pages, if that many are left. -/
def take? (m : Memory) (pages : Nat) : Option (Address × Memory) :=
  let stop := m.next.toNat + pages * pageSize
  if h : memoryEnd.toNat < stop then none
  else some (m.next, { m with next := UInt64.ofNat stop, start_le_next := m.start_le_ofNat h })

theorem take?_eq_some {m m' : Memory} {pages : Nat} {base : Address} (h : m.take? pages = some (base, m')) :
    base = m.next ∧ m'.start = m.start ∧ base.toNat + pages * pageSize ≤ memoryEnd.toNat := by
  unfold take? at h
  dsimp only at h
  split at h
  · cases h
  · cases h
    exact ⟨rfl, rfl, by omega⟩

/-- The `len` bytes from an address on; what lies below the start reads as zero. -/
def bytesAt (m : Memory) (base : Address) (len : Nat) : Bytes :=
  let below := min len (m.start.toNat - base.toNat)
  let pos := base.toNat - m.start.toNat
  Bytes.zeros below ++ Bytes.resize (m.contents.extract pos (pos + (len - below))) (len - below)

/-- Writes bytes from an address on, which lies at or above the start. -/
def write (m : Memory) (base : Address) (bytes : Bytes) : Memory :=
  let pos := base.toNat - m.start.toNat
  { m with contents := (m.contents.padTo (pos + bytes.size)).overwrite pos bytes }

/-! ## What is read back -/

@[simp] theorem size_bytesAt (m : Memory) (base : Address) (len : Nat) : (m.bytesAt base len).size = len := by
  simp only [bytesAt, Array.size_append, Bytes.size_zeros, Bytes.size_resize]
  omega

/-- What lies at or above the start: the contents, and zeros behind them. -/
theorem getElem?_bytesAt {m : Memory} {base : Address} (h : m.start ≤ base) (len i : Nat) :
    (m.bytesAt base len)[i]? =
      if i < len then some (m.contents[base.toNat - m.start.toNat + i]?.getD 0) else none := by
  have hb : m.start.toNat - base.toNat = 0 := Nat.sub_eq_zero_of_le (UInt64.le_iff_toNat_le.mp h)
  simp only [bytesAt, hb, Nat.min_zero, Nat.sub_zero]
  rw [Array.getElem?_append, if_neg (by simp), Bytes.getElem?_resize, Bytes.size_zeros, Nat.sub_zero]
  by_cases hi : i < len
  · rw [if_pos hi, if_pos hi, Array.getElem?_extract]
    split
    · rfl
    · rw [Array.getElem?_eq_none (by omega)]
  · rw [if_neg hi, if_neg hi]

theorem bytesAt_extract {m : Memory} {base : Address} (h : m.start ≤ base) {k len : Nat} (hk : k ≤ len) :
    (m.bytesAt base len).extract 0 k = m.bytesAt base k := by
  apply Array.ext_getElem?
  intro i
  rw [Array.getElem?_extract, getElem?_bytesAt h, getElem?_bytesAt h, size_bytesAt, Nat.zero_add]
  by_cases hi : i < k
  · rw [if_pos (by omega), if_pos (by omega), if_pos hi]
  · rw [if_neg (by omega), if_neg hi]

/-- A write shows at the front of what is read from the same address. -/
theorem bytesAt_write {m : Memory} {base : Address} (h : m.start ≤ base) (bytes : Bytes) (len : Nat) :
    (m.write base bytes).bytesAt base len = (m.bytesAt base len).overwrite 0 bytes := by
  apply Array.ext_getElem?
  intro i
  rw [getElem?_bytesAt (m := m.write base bytes) h, Bytes.getElem?_overwrite, getElem?_bytesAt h, size_bytesAt]
  simp only [write, Bytes.getElem?_overwrite, Bytes.getElem?_padTo, Bytes.size_padTo, Nat.zero_add,
    Nat.sub_zero, Nat.zero_le, true_and]
  by_cases hi : i < len
  · rw [if_pos hi]
    by_cases hs : i < bytes.size
    · rw [if_pos (by omega), if_pos ⟨hs, hi⟩, Nat.add_sub_cancel_left, Array.getElem?_eq_getElem hs]
      rfl
    · rw [if_neg (by omega), if_neg (by omega), if_pos hi, if_neg (by omega)]
  · rw [if_neg hi, if_neg (by omega), if_neg hi]

end Memory

end NetBoot
