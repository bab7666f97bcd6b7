/-
  NetBoot.Proofs.Image.Relocation.Immediate — addresses that instructions hold in pieces.

  A fixup of such an address takes the pieces together, adds the delta and takes the sum apart
  again. Nothing is lost on the way, carries between the pieces included:
  - `value_relocate`, `value_relocatePair`: the address moves by exactly the delta.
  - `relocate_relocate`, `relocatePair_relocatePair`: two moves are one by the sum, since all bits
    beside the immediates stay as they are.
  - `relocate_zero`, `relocatePair_zero`: a move by nothing changes no bit.

  All of it rests on the bits of a word with a field replaced (`testBit_setField`).
-/

import Mathlib.Algebra.Group.Nat.Defs
import NetBoot.Image.Relocation.Table

namespace NetBoot.Image.Relocation

/-! ## Fields of a word -/

section Field

variable {lo len lo' len' : Nat}

theorem testBit_field (w lo len i : Nat) : (field w lo len).testBit i = (decide (i < len) && w.testBit (lo + i)) := by
  rw [field, Nat.one_shiftLeft, Nat.testBit_mod_two_pow, Nat.testBit_shiftRight]

/-- A word with a field replaced: what is above the field, the field, and what is below. -/
theorem setField_eq (w lo len v : Nat) :
    setField w lo len v = 2 ^ lo * (2 ^ len * (w / 2 ^ lo / 2 ^ len) + v % 2 ^ len) + w % 2 ^ lo := by
  simp only [setField, field, Nat.shiftRight_eq_div_pow, Nat.shiftLeft_eq, Nat.one_mul]
  have hw := Nat.div_add_mod w (2 ^ lo)
  have hq := Nat.div_add_mod (w / 2 ^ lo) (2 ^ len)
  have hsum : 2 ^ lo * (w / 2 ^ lo) =
      2 ^ lo * (2 ^ len * (w / 2 ^ lo / 2 ^ len)) + w / 2 ^ lo % 2 ^ len * 2 ^ lo := by
    rw [Nat.mul_comm (w / 2 ^ lo % 2 ^ len), ← Nat.mul_add, hq]
  rw [Nat.mul_add, Nat.mul_comm _ (v % 2 ^ len)]
  omega

theorem testBit_setField (w lo len v i : Nat) :
    (setField w lo len v).testBit i = if lo ≤ i ∧ i < lo + len then v.testBit (i - lo) else w.testBit i := by
  have hlo : w % 2 ^ lo < 2 ^ lo := Nat.mod_lt _ (Nat.two_pow_pos _)
  have hlen : v % 2 ^ len < 2 ^ len := Nat.mod_lt _ (Nat.two_pow_pos _)
  rw [setField_eq, Nat.testBit_two_pow_mul_add _ hlo]
  by_cases h : i < lo
  · rw [if_pos h, if_neg (by omega), Nat.testBit_mod_two_pow, decide_eq_true h, Bool.true_and]
  · rw [if_neg h, Nat.testBit_two_pow_mul_add _ hlen]
    by_cases h' : i - lo < len
    · rw [if_pos h', if_pos (by omega), Nat.testBit_mod_two_pow, decide_eq_true h', Bool.true_and]
    · rw [if_neg h', if_neg (by omega), Nat.testBit_div_two_pow, Nat.testBit_div_two_pow]
      congr 1
      omega

theorem setField_lt {w n : Nat} (hw : w < 2 ^ n) (hle : lo + len ≤ n) (v : Nat) : setField w lo len v < 2 ^ n := by
  apply Nat.lt_pow_two_of_testBit
  intro i hi
  rw [testBit_setField, if_neg (by omega)]
  exact Nat.testBit_lt_two_pow (Nat.lt_of_lt_of_le hw (Nat.pow_le_pow_right (by omega) hi))

theorem field_setField_apart (h : lo + len ≤ lo' ∨ lo' + len' ≤ lo) (w v : Nat) :
    field (setField w lo' len' v) lo len = field w lo len := by
  apply Nat.eq_of_testBit_eq
  intro i
  rw [testBit_field, testBit_field, testBit_setField]
  by_cases hi : i < len
  · rw [if_neg (by omega)]
  · rw [decide_eq_false hi, Bool.false_and, Bool.false_and]

theorem setField_setField (w lo len v v' : Nat) : setField (setField w lo len v) lo len v' = setField w lo len v' := by
  apply Nat.eq_of_testBit_eq
  intro i
  rw [testBit_setField, testBit_setField, testBit_setField]
  split <;> rfl

/-- The same for a value in two fields. -/
theorem setFields_setFields (w lo len lo' len' a b a' b' : Nat) :
    setField (setField (setField (setField w lo len a) lo' len' b) lo len a') lo' len' b' =
      setField (setField w lo len a') lo' len' b' := by
  apply Nat.eq_of_testBit_eq
  intro i
  simp only [testBit_setField]
  split
  · rfl
  · split <;> rfl

/-- Writing what is there changes nothing. -/
theorem setField_field (w lo len : Nat) {v : Nat} (h : v % 2 ^ len = field w lo len) : setField w lo len v = w := by
  apply Nat.eq_of_testBit_eq
  intro i
  rw [testBit_setField]
  split
  · have hbit := congrArg (·.testBit (i - lo)) h
    simp only [Nat.testBit_mod_two_pow, testBit_field] at hbit
    rw [decide_eq_true (by omega), Bool.true_and, Bool.true_and] at hbit
    rw [hbit, show lo + (i - lo) = i by omega]
  · rfl

end Field

/-! ## The Thumb pair -/

namespace Thumb

namespace Instruction

theorem first_setImmediate (i : Instruction) (v : Nat) :
    (i.setImmediate v).first.toNat = setField (setField i.first.toNat 0 4 (v >>> 12)) 10 1 (v >>> 11) := by
  have hlt := setField_lt (setField_lt i.first.toNat_lt (show 0 + 4 ≤ 16 by decide) (v >>> 12))
    (show 10 + 1 ≤ 16 by decide) (v >>> 11)
  rw [setImmediate, UInt16.toNat_ofNat', Nat.mod_eq_of_lt hlt]

theorem second_setImmediate (i : Instruction) (v : Nat) :
    (i.setImmediate v).second.toNat = setField (setField i.second.toNat 0 8 v) 12 3 (v >>> 8) := by
  have hlt := setField_lt (setField_lt i.second.toNat_lt (show 0 + 8 ≤ 16 by decide) v)
    (show 12 + 3 ≤ 16 by decide) (v >>> 8)
  rw [setImmediate, UInt16.toNat_ofNat', Nat.mod_eq_of_lt hlt]

theorem immediate_lt (i : Instruction) : i.immediate < 65536 := by
  have h8 := field_lt i.second.toNat 0 8
  have h3 := field_lt i.second.toNat 12 3
  have h1 := field_lt i.first.toNat 10 1
  have h4 := field_lt i.first.toNat 0 4
  simp only [Nat.one_shiftLeft] at h8 h3 h1 h4
  simp only [immediate, Nat.shiftLeft_eq]
  omega

theorem immediate_setImmediate (i : Instruction) (v : Nat) : (i.setImmediate v).immediate = v % 65536 := by
  have h0 : field (i.setImmediate v).second.toNat 0 8 = v % 2 ^ 8 := by
    rw [second_setImmediate, field_setField_apart (by decide), field_setField, Nat.one_shiftLeft]
  have h8 : field (i.setImmediate v).second.toNat 12 3 = v / 2 ^ 8 % 2 ^ 3 := by
    rw [second_setImmediate, field_setField, Nat.one_shiftLeft, Nat.shiftRight_eq_div_pow]
  have h11 : field (i.setImmediate v).first.toNat 10 1 = v / 2 ^ 11 % 2 ^ 1 := by
    rw [first_setImmediate, field_setField, Nat.one_shiftLeft, Nat.shiftRight_eq_div_pow]
  have h12 : field (i.setImmediate v).first.toNat 0 4 = v / 2 ^ 12 % 2 ^ 4 := by
    rw [first_setImmediate, field_setField_apart (by decide), field_setField, Nat.one_shiftLeft,
      Nat.shiftRight_eq_div_pow]
  rw [immediate, h0, h8, h11, h12]
  simp only [Nat.shiftLeft_eq]
  omega

theorem setImmediate_setImmediate (i : Instruction) (v v' : Nat) :
    (i.setImmediate v).setImmediate v' = i.setImmediate v' := by
  rw [setImmediate, first_setImmediate, second_setImmediate, setFields_setFields, setFields_setFields]
  rfl

theorem setImmediate_immediate (i : Instruction) {v : Nat} (h : v % 65536 = i.immediate) : i.setImmediate v = i := by
  have h8 := field_lt i.second.toNat 0 8
  have h3 := field_lt i.second.toNat 12 3
  have h1 := field_lt i.first.toNat 10 1
  have h4 := field_lt i.first.toNat 0 4
  simp only [Nat.one_shiftLeft] at h8 h3 h1 h4
  simp only [immediate, Nat.shiftLeft_eq] at h
  have hfirst : setField (setField i.first.toNat 0 4 (v >>> 12)) 10 1 (v >>> 11) = i.first.toNat := by
    rw [Nat.shiftRight_eq_div_pow, Nat.shiftRight_eq_div_pow, setField_field _ 0 4 (by omega),
      setField_field _ 10 1 (by omega)]
  have hsecond : setField (setField i.second.toNat 0 8 v) 12 3 (v >>> 8) = i.second.toNat := by
    rw [Nat.shiftRight_eq_div_pow, setField_field _ 0 8 (by omega), setField_field _ 12 3 (by omega)]
  rw [setImmediate, hfirst, hsecond, UInt16.ofNat_toNat, UInt16.ofNat_toNat]

end Instruction

namespace MovPair

theorem toNat_value (p : MovPair) : p.value.toNat = p.high.immediate * 65536 + p.low.immediate := by
  have hl := p.low.immediate_lt
  have hh := p.high.immediate_lt
  rw [value, UInt32.toNat_ofNat', Nat.shiftLeft_eq]
  omega

theorem value_relocate (p : MovPair) (delta : UInt32) : (p.relocate delta).value = p.value + delta := by
  have hlt := (p.value + delta).toNat_lt
  apply UInt32.toNat_inj.mp
  rw [toNat_value, relocate, Instruction.immediate_setImmediate, Instruction.immediate_setImmediate,
    Nat.shiftRight_eq_div_pow]
  omega

theorem relocate_relocate (p : MovPair) (d d' : UInt32) : (p.relocate d).relocate d' = p.relocate (d + d') := by
  rw [relocate, value_relocate, UInt32.add_assoc, relocate, Instruction.setImmediate_setImmediate,
    Instruction.setImmediate_setImmediate]
  rfl

theorem relocate_zero (p : MovPair) : p.relocate 0 = p := by
  have hl := p.low.immediate_lt
  have hh := p.high.immediate_lt
  have hv := p.toNat_value
  rw [relocate, UInt32.add_zero, Nat.shiftRight_eq_div_pow, Instruction.setImmediate_immediate _ (by omega),
    Instruction.setImmediate_immediate _ (by omega)]

end MovPair

end Thumb

/-! ## The RISC-V pair -/

namespace RiscV

theorem toNat_high (instr : UInt32) : (high instr).toNat = field instr.toNat 12 20 * 4096 := by
  have hlt := field_lt instr.toNat 12 20
  rw [Nat.one_shiftLeft] at hlt
  rw [high, UInt32.toNat_ofNat', Nat.shiftLeft_eq]
  omega

theorem toNat_setHigh (instr v : UInt32) : (setHigh instr v).toNat = setField instr.toNat 12 20 (v.toNat >>> 12) := by
  rw [setHigh, UInt32.toNat_ofNat', Nat.mod_eq_of_lt (setField_lt instr.toNat_lt (by decide) _)]

theorem setHigh_setHigh (instr v v' : UInt32) : setHigh (setHigh instr v) v' = setHigh instr v' := by
  rw [setHigh, toNat_setHigh, setField_setField]
  rfl

namespace LowForm

variable (f : LowForm)

theorem toNat_low_lt (instr : UInt32) : (f.low instr).toNat < 4096 := by
  cases f with
  | iType =>
    have hlt := field_lt instr.toNat 20 12
    rw [Nat.one_shiftLeft] at hlt
    rw [low, UInt32.toNat_ofNat']
    omega
  | sType =>
    have h7 := field_lt instr.toNat 25 7
    have h5 := field_lt instr.toNat 7 5
    rw [Nat.one_shiftLeft] at h7 h5
    rw [low, UInt32.toNat_ofNat', Nat.shiftLeft_eq]
    omega

theorem low_setLow (instr v : UInt32) : (f.low (f.setLow instr v)).toNat = v.toNat % 4096 := by
  have hi := instr.toNat_lt
  cases f with
  | iType =>
    rw [low, setLow, UInt32.toNat_ofNat', UInt32.toNat_ofNat', Nat.mod_eq_of_lt (setField_lt hi (by decide) _),
      field_setField, Nat.one_shiftLeft]
    omega
  | sType =>
    rw [low, setLow, UInt32.toNat_ofNat', UInt32.toNat_ofNat',
      Nat.mod_eq_of_lt (setField_lt (setField_lt hi (by decide) _) (by decide) _),
      field_setField_apart (by decide), field_setField, field_setField, Nat.one_shiftLeft, Nat.one_shiftLeft,
      Nat.shiftLeft_eq, Nat.shiftRight_eq_div_pow]
    omega

theorem setLow_setLow (instr v v' : UInt32) : f.setLow (f.setLow instr v) v' = f.setLow instr v' := by
  have hi := instr.toNat_lt
  cases f with
  | iType =>
    rw [setLow, setLow, UInt32.toNat_ofNat', Nat.mod_eq_of_lt (setField_lt hi (by decide) _), setField_setField]
    rfl
  | sType =>
    rw [setLow, setLow, UInt32.toNat_ofNat',
      Nat.mod_eq_of_lt (setField_lt (setField_lt hi (by decide) _) (by decide) _), setFields_setFields]
    rfl

theorem setLow_low (instr : UInt32) {v : UInt32} (h : v.toNat % 4096 = (f.low instr).toNat) :
    f.setLow instr v = instr := by
  cases f with
  | iType =>
    have hlt := field_lt instr.toNat 20 12
    rw [Nat.one_shiftLeft] at hlt
    rw [low, UInt32.toNat_ofNat'] at h
    rw [setLow, setField_field _ 20 12 (by omega), UInt32.ofNat_toNat]
  | sType =>
    have h7 := field_lt instr.toNat 25 7
    have h5 := field_lt instr.toNat 7 5
    rw [Nat.one_shiftLeft] at h7 h5
    rw [low, UInt32.toNat_ofNat', Nat.shiftLeft_eq] at h
    rw [setLow, Nat.shiftRight_eq_div_pow, setField_field _ 25 7 (by omega), setField_field _ 7 5 (by omega),
      UInt32.ofNat_toNat]

end LowForm

theorem toNat_signExtend (v : UInt32) :
    (signExtend v).toNat = if v.toNat % 4096 < 2048 then v.toNat % 4096 else 4294963200 + v.toNat % 4096 := by
  unfold signExtend
  split
  · rw [if_pos ‹_›, UInt32.toNat_ofNat']
    omega
  · rw [if_neg ‹_›, UInt32.toNat_ofNat']
    omega

variable (f : LowForm) (hi lo : UInt32)

/-- Rounding the upper part by half the range of the low one makes up for the sign of that. -/
theorem value_setPair (v : UInt32) : value f (setHigh hi (v + 0x800)) (f.setLow lo v) = v := by
  have hv := v.toNat_lt
  have hcarry : (v + 0x800).toNat = (v.toNat + 2048) % 4294967296 := UInt32.toNat_add v 0x800
  apply UInt32.toNat_inj.mp
  rw [value, UInt32.toNat_add, toNat_high, toNat_setHigh, field_setField, Nat.one_shiftLeft, toNat_signExtend,
    f.low_setLow, hcarry, Nat.shiftRight_eq_div_pow]
  split <;> omega

theorem value_relocatePair (delta : UInt32) :
    value f (relocatePair f hi lo delta).1 (relocatePair f hi lo delta).2 = value f hi lo + delta :=
  value_setPair f hi lo (value f hi lo + delta)

theorem relocatePair_eq (d : UInt32) :
    relocatePair f hi lo d = (setHigh hi (value f hi lo + d + 0x800), f.setLow lo (value f hi lo + d)) := rfl

theorem relocatePair_relocatePair (d d' : UInt32) :
    relocatePair f (relocatePair f hi lo d).1 (relocatePair f hi lo d).2 d' = relocatePair f hi lo (d + d') := by
  rw [relocatePair_eq f (relocatePair f hi lo d).1, value_relocatePair, relocatePair_eq f hi lo d, setHigh_setHigh,
    f.setLow_setLow, UInt32.add_assoc (value f hi lo) d d', ← relocatePair_eq]

theorem relocatePair_zero : relocatePair f hi lo 0 = (hi, lo) := by
  have hlow := f.toNat_low_lt lo
  have hhigh := field_lt hi.toNat 12 20
  rw [Nat.one_shiftLeft] at hhigh
  have hv : (value f hi lo).toNat = (field hi.toNat 12 20 * 4096 + (signExtend (f.low lo)).toNat) % 4294967296 := by
    rw [value, UInt32.toNat_add, toNat_high]
  rw [toNat_signExtend] at hv
  have hcarry : (value f hi lo + 0x800).toNat = ((value f hi lo).toNat + 2048) % 4294967296 := UInt32.toNat_add _ 0x800
  have hlo : f.setLow lo (value f hi lo) = lo := by
    apply f.setLow_low
    split at hv <;> omega
  have hhi : setHigh hi (value f hi lo + 0x800) = hi := by
    rw [setHigh, hcarry, Nat.shiftRight_eq_div_pow, setField_field _ 12 20 (by split at hv <;> omega),
      UInt32.ofNat_toNat]
  rw [relocatePair_eq, UInt32.add_zero, hhi, hlo]

end RiscV

end NetBoot.Image.Relocation
