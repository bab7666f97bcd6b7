/-
  NetBoot.Image.Relocation.Field — bit fields of instruction words, as arithmetic.

  `field w lo len` is the number in `len` bits of `w` from bit `lo` on, and `setField` replaces
  it: it reads back what was written (`field_setField`).
-/

namespace NetBoot.Image.Relocation

/-- The number in `len` bits of `w` from bit `lo` on. -/
def field (w lo len : Nat) : Nat := (w >>> lo) % (1 <<< len)

/-- `w` with the low `len` bits of `v` in the bits from `lo` on. -/
def setField (w lo len v : Nat) : Nat := w - (field w lo len <<< lo) + ((v % (1 <<< len)) <<< lo)

theorem field_lt (w lo len : Nat) : field w lo len < 1 <<< len := by
  rw [field, Nat.one_shiftLeft]
  exact Nat.mod_lt _ (Nat.two_pow_pos _)

/-- A digit of base `q` that stands for `p` can be replaced. -/
theorem digit_replaced {p : Nat} (hp : 0 < p) (q w v : Nat) :
    (w - w / p % q * p + v % q * p) / p % q = v % q := by
  have h1 := Nat.div_add_mod w p
  have h2 := Nat.div_add_mod (w / p) q
  have h3 : w - w / p % q * p + v % q * p = w % p + p * (v % q + q * (w / p / q)) := by
    have h4 : p * (w / p) = p * (q * (w / p / q)) + w / p % q * p := by
      rw [Nat.mul_comm (w / p % q), ← Nat.mul_add, h2]
    rw [Nat.mul_add, Nat.mul_comm p (v % q)]
    omega
  rw [h3, Nat.add_mul_div_left _ _ hp, Nat.div_eq_of_lt (Nat.mod_lt _ hp), Nat.zero_add,
    Nat.add_mul_mod_self_left, Nat.mod_mod]

theorem field_setField (w lo len v : Nat) : field (setField w lo len v) lo len = v % (1 <<< len) := by
  simp only [field, setField, Nat.shiftRight_eq_div_pow, Nat.shiftLeft_eq, Nat.one_mul]
  exact digit_replaced (Nat.two_pow_pos _) _ _ _

end NetBoot.Image.Relocation
