/-
  NetBoot.Address — physical addresses, handles, and the page arithmetic between them.

  Addresses are 64-bit words. `alignUp` rounds up to a power of two; where the sum stays below
  2^64 its value is the least multiple at or above the address (`toNat_alignUp`).
-/

import NetBoot.Text.Hex

namespace NetBoot

/-- Bytes of a page. -/
def pageSize : Nat := 4096

/-- Pages that hold `n` bytes. -/
def pagesFor (n : Nat) : Nat := (n + (pageSize - 1)) / pageSize

theorem dvd_of_isPowerOfTwo {n k : Nat} (hn : n.isPowerOfTwo) (hk : k.isPowerOfTwo) (hle : n ≤ k) : n ∣ k := by
  obtain ⟨a, rfl⟩ := hn
  obtain ⟨b, rfl⟩ := hk
  exact Nat.pow_dvd_pow 2 ((Nat.pow_le_pow_iff_right (by decide)).1 hle)

/-- A physical address. -/
abbrev Address := UInt64

namespace Address

def isAligned (a : Address) (align : UInt64) : Bool := a % align == 0

/-- Rounded up to `align`, a power of two. -/
def alignUp (a : Address) (align : UInt64) : Address := (a + align - 1) &&& ~~~(align - 1)

/-- A mask without the bits below a power of two rounds down to a multiple of it. -/
theorem land_complement (n : Nat) {p : Nat} (hp : p.isPowerOfTwo) (hn : n < UInt64.size) (hle : p ≤ UInt64.size) :
    n &&& (UInt64.size - 1 - (p - 1)) = n / p * p := by
  obtain ⟨k, rfl⟩ := hp
  have hsize : UInt64.size = 2 ^ 64 := rfl
  rw [hsize] at hn hle ⊢
  have hk : k ≤ 64 := (Nat.pow_le_pow_iff_right (by omega)).mp hle
  have hm : 2 ^ 64 - 1 - (2 ^ k - 1) = (2 ^ (64 - k) - 1) <<< k := by
    have h1 : 2 ^ 64 = 2 ^ (64 - k) * 2 ^ k := by rw [← Nat.pow_add]; congr 1; omega
    have h2 := Nat.two_pow_pos k
    rw [Nat.shiftLeft_eq, Nat.sub_mul, ← h1]
    omega
  rw [hm, ← Nat.shiftRight_eq_div_pow, ← Nat.shiftLeft_eq]
  apply Nat.eq_of_testBit_eq
  intro i
  simp only [Nat.testBit_and, Nat.testBit_shiftLeft, Nat.testBit_two_pow_sub_one, Nat.testBit_shiftRight]
  by_cases hi : k ≤ i
  · simp only [hi, decide_true, Bool.true_and]
    rw [show k + (i - k) = i by omega]
    by_cases h64 : i < 64
    · simp [show i - k < 64 - k by omega]
    · have : n.testBit i = false :=
        Nat.testBit_lt_two_pow (Nat.lt_of_lt_of_le hn (Nat.pow_le_pow_right (by omega) (by omega)))
      simp [this]
  · simp [hi]

theorem toNat_land_complement (a m : UInt64) {p : Nat} (hp : p.isPowerOfTwo) (hm : m.toNat = p - 1) :
    (a &&& ~~~m).toNat = a.toNat / p * p := by
  have hlt := m.toNat_lt
  have hpos := Nat.pos_of_isPowerOfTwo hp
  rw [UInt64.toNat_and, UInt64.toNat_not, hm]
  exact land_complement _ hp a.toNat_lt (by rw [UInt64.size]; omega)

/-- Where the sum stays below 2^64 the value is the least multiple at or above the address. -/
theorem toNat_alignUp {a : Address} {align : UInt64} (hp : align.toNat.isPowerOfTwo)
    (h : a.toNat + align.toNat ≤ UInt64.size) :
    (alignUp a align).toNat = (a.toNat + (align.toNat - 1)) / align.toNat * align.toNat := by
  have hpos := Nat.pos_of_isPowerOfTwo hp
  have hsize : UInt64.size = 2 ^ 64 := rfl
  have hone : (1 : UInt64).toNat = 1 := rfl
  have h1 : (1 : UInt64) ≤ align := by
    rw [UInt64.le_iff_toNat_le]
    omega
  have hsub : (align - 1).toNat = align.toNat - 1 := by
    rw [UInt64.toNat_sub_of_le _ _ h1, hone]
  have hadd : (a + align - 1).toNat = a.toNat + (align.toNat - 1) := by
    rw [UInt64.toNat_sub, UInt64.toNat_add, hone]
    omega
  rw [alignUp, toNat_land_complement _ _ hp hsub, hadd]

/-- Distance above `base`. -/
def offsetFrom (a base : Address) : UInt64 := a - base

def text (a : Address) : String := Text.hex0x a.toNat

end Address

/-- An opaque name of an object that the firmware keeps. -/
structure Handle where
  val : UInt64
  deriving DecidableEq, Repr

namespace Handle

def null : Handle := ⟨0⟩

instance : Inhabited Handle := ⟨null⟩

instance : Ord Handle := ⟨fun a b => compare a.val b.val⟩

instance : Std.LawfulEqOrd Handle where
  compare_self {a} := Std.ReflOrd.compare_self (a := a.val)
  eq_of_compare {a b} h := by
    obtain ⟨a⟩ := a
    obtain ⟨b⟩ := b
    exact congrArg Handle.mk (Std.LawfulEqOrd.eq_of_compare (a := a) (b := b) h)

def isNull (h : Handle) : Bool := h.val == 0

def describe (h : Handle) : String := s!"Handle({Text.hex0x h.val.toNat})"

end Handle

end NetBoot
