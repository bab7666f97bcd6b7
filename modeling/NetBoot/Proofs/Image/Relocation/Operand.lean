/-
  NetBoot.Proofs.Image.Relocation.Operand — the operands of relocated instructions, bit by bit.

  The operands are put together here from the bits of the instruction words as the instruction sets
  place them: `imm4:i:imm3:imm8` in both instructions of the Thumb pair (`MovPair.operand`), `imm[31:12]`
  and a signed `imm[11:0]` in the RISC-V pair (`RiscV.address`). They are what the fixups read
  (`toBitVec_value`), so a relocated pair loads an address that lies further on by exactly the delta. All
  other bits of the instructions, opcodes and registers, stay as they are: a mask that leaves a field out
  sees nothing of what is written there (`setField_and`).
-/

import NetBoot.Proofs.Image.Relocation.Immediate
import NetBoot.Proofs.Image.Relocation.Job

namespace NetBoot.Image.Relocation

/-! ## Fields -/

theorem toNat_extractLsb' {n : Nat} (w : BitVec n) (lo len : Nat) :
    (w.extractLsb' lo len).toNat = field w.toNat lo len := by
  rw [field, Nat.one_shiftLeft, BitVec.extractLsb'_toNat]

theorem toNat_append {m n : Nat} (x : BitVec m) (y : BitVec n) : (x ++ y).toNat = x.toNat * 2 ^ n + y.toNat := by
  rw [BitVec.toNat_append, ← Nat.shiftLeft_add_eq_or_of_lt y.isLt, Nat.shiftLeft_eq]

/-- What is written to a field is not seen through a mask without it. -/
theorem setField_and {w lo len v mask : Nat} (h : field mask lo len = 0) :
    setField w lo len v &&& mask = w &&& mask := by
  apply Nat.eq_of_testBit_eq
  intro i
  rw [Nat.testBit_and, Nat.testBit_and, testBit_setField]
  by_cases hi : lo ≤ i ∧ i < lo + len
  · have hbit := testBit_field mask lo len (i - lo)
    rw [h, Nat.zero_testBit, decide_eq_true (by omega), Bool.true_and, show lo + (i - lo) = i by omega] at hbit
    rw [← hbit, Bool.and_false, Bool.and_false]
  · rw [if_neg hi]

/-! ## The Thumb pair -/

namespace Thumb

namespace Instruction

/-- The operand of an instruction, `imm4:i:imm3:imm8`. -/
def operand (i : Instruction) : BitVec 16 :=
  i.first.toBitVec.extractLsb' 0 4 ++ i.first.toBitVec.extractLsb' 10 1 ++ i.second.toBitVec.extractLsb' 12 3 ++
    i.second.toBitVec.extractLsb' 0 8

/-- Two instructions with the same bits, but for those of the operand. -/
structure SameBeside (i j : Instruction) : Prop where
  first : j.first &&& 0xfbf0 = i.first &&& 0xfbf0
  second : j.second &&& 0x8f00 = i.second &&& 0x8f00

theorem toNat_operand (i : Instruction) : i.operand.toNat = i.immediate := by
  simp only [operand, toNat_append, toNat_extractLsb', UInt16.toNat_toBitVec, immediate, Nat.shiftLeft_eq]
  omega

theorem sameBeside_setImmediate (i : Instruction) (v : Nat) : i.SameBeside (i.setImmediate v) := by
  constructor
  · apply UInt16.toNat_inj.mp
    rw [UInt16.toNat_and, UInt16.toNat_and, first_setImmediate, setField_and (by decide), setField_and (by decide)]
  · apply UInt16.toNat_inj.mp
    rw [UInt16.toNat_and, UInt16.toNat_and, second_setImmediate, setField_and (by decide), setField_and (by decide)]

end Instruction

namespace MovPair

/-- The address that the pair loads: the operand of MOVT above that of MOVW. -/
def operand (p : MovPair) : BitVec 32 := p.high.operand ++ p.low.operand

theorem toBitVec_value (p : MovPair) : p.value.toBitVec = p.operand := by
  apply BitVec.eq_of_toNat_eq
  simp only [UInt32.toNat_toBitVec, toNat_value, operand, toNat_append, Instruction.toNat_operand, Nat.reducePow]

/-- Eight bytes are a pair, and its bytes are those. -/
theorem exists_encode (bytes : Vector UInt8 8) : ∃ p, at? bytes.toArray 0 = some p ∧ p.encode = bytes.toArray := by
  have hsize : bytes.toArray.size = 8 := bytes.size_toArray
  have hword (k : Nat) (hk : k + 2 ≤ 8) : ∃ v, Bytes.u16At? bytes.toArray k = some v := Bytes.exists_u16At? (by omega)
  obtain ⟨a, ha⟩ := hword 0 (by omega)
  obtain ⟨b, hb⟩ := hword 2 (by omega)
  obtain ⟨c, hc⟩ := hword 4 (by omega)
  obtain ⟨d, hd⟩ := hword 6 (by omega)
  have hp : at? bytes.toArray 0 = some ⟨⟨a, b⟩, ⟨c, d⟩⟩ := movPair_eq_some_iff.mpr ⟨ha, hb, hc, hd⟩
  refine ⟨_, hp, ?_⟩
  rw [← Bytes.overwrite_all ((size_encode _).trans hsize.symm), overwrite_movPair hp]

theorem at?_encode (p : MovPair) : at? p.encode 0 = some p := by
  have h : at? (Bytes.overwrite p.encode 0 p.encode) 0 = some p := movPair_overwrite p (Nat.le_refl _)
  rwa [Bytes.overwrite_all rfl] at h

end MovPair

end Thumb

/-! ## The RISC-V pair -/

namespace RiscV

namespace LowForm

/-- The low immediate: `imm[11:0]` in one piece, or `imm[11:5]` and `imm[4:0]`. -/
def immediate (f : LowForm) (instr : UInt32) : BitVec 12 :=
  match f with
  | iType => instr.toBitVec.extractLsb' 20 12
  | sType => instr.toBitVec.extractLsb' 25 7 ++ instr.toBitVec.extractLsb' 7 5

/-- The bits beside the low immediate. -/
def beside : LowForm → UInt32
  | iType => 0x000fffff
  | sType => 0x01fff07f

variable (f : LowForm)

theorem toNat_immediate (instr : UInt32) : (f.immediate instr).toNat = (f.low instr).toNat := by
  have hlt := (f.immediate instr).isLt
  cases f with
  | iType =>
    simp only [immediate, toNat_extractLsb', UInt32.toNat_toBitVec] at hlt ⊢
    rw [low, UInt32.toNat_ofNat']
    omega
  | sType =>
    simp only [immediate, toNat_append, toNat_extractLsb', UInt32.toNat_toBitVec] at hlt ⊢
    rw [low, UInt32.toNat_ofNat', Nat.shiftLeft_eq]
    omega

theorem setLow_and_beside (instr v : UInt32) : f.setLow instr v &&& f.beside = instr &&& f.beside := by
  have hi := instr.toNat_lt
  apply UInt32.toNat_inj.mp
  cases f with
  | iType =>
    rw [setLow, UInt32.toNat_and, UInt32.toNat_and, UInt32.toNat_ofNat',
      Nat.mod_eq_of_lt (setField_lt hi (by decide) _), setField_and (by decide)]
  | sType =>
    rw [setLow, UInt32.toNat_and, UInt32.toNat_and, UInt32.toNat_ofNat',
      Nat.mod_eq_of_lt (setField_lt (setField_lt hi (by decide) _) (by decide) _), setField_and (by decide),
      setField_and (by decide)]

end LowForm

variable (f : LowForm) (hi lo : UInt32)

/-- The address of a pair: `imm[31:12]` in place, and the low immediate with its sign. -/
def address : BitVec 32 := (hi.toBitVec.extractLsb' 12 20 ++ 0#12) + (f.immediate lo).signExtend 32

theorem setHigh_and (v : UInt32) : setHigh hi v &&& 0x00000fff = hi &&& 0x00000fff := by
  apply UInt32.toNat_inj.mp
  rw [UInt32.toNat_and, UInt32.toNat_and, toNat_setHigh, setField_and (by decide)]

theorem toBitVec_value : (value f hi lo).toBitVec = address f hi lo := by
  have hhigh : (high hi).toBitVec = hi.toBitVec.extractLsb' 12 20 ++ 0#12 := by
    apply BitVec.eq_of_toNat_eq
    simp only [UInt32.toNat_toBitVec, toNat_high, toNat_append, toNat_extractLsb', BitVec.toNat_ofNat]
    omega
  have hlow : (signExtend (f.low lo)).toBitVec = (f.immediate lo).signExtend 32 := by
    have hlt := (f.immediate lo).isLt
    apply BitVec.eq_of_toNat_eq
    rw [UInt32.toNat_toBitVec, toNat_signExtend, ← f.toNat_immediate, BitVec.toNat_signExtend, BitVec.toNat_setWidth,
      BitVec.msb_eq_decide]
    simp only [decide_eq_true_eq]
    split <;> split <;> omega
  rw [value, UInt32.toBitVec_add, hhigh, hlow, address]

end RiscV

/-! ## Moved by a delta -/

/-- Whatever stands in the place of the instructions, a relocated pair loads what it loaded before and the delta, and
    keeps every bit beside its operands. -/
theorem relocated_operands (delta : UInt32) :
    (∀ bytes : Vector UInt8 8, ∃ p p', Thumb.MovPair.at? bytes.toArray 0 = some p ∧ p.encode = bytes.toArray ∧
      (p.relocate delta).encode.size = 8 ∧ Thumb.MovPair.at? (p.relocate delta).encode 0 = some p' ∧
      p'.value = p.value + delta ∧ p'.operand = p.operand + delta.toBitVec ∧
      p.low.SameBeside p'.low ∧ p.high.SameBeside p'.high) ∧
    ∀ (f : RiscV.LowForm) (hi lo : UInt32), let r := RiscV.relocatePair f hi lo delta
      RiscV.high r.1 + RiscV.signExtend (f.low r.2) = RiscV.high hi + RiscV.signExtend (f.low lo) + delta ∧
      RiscV.address f r.1 r.2 = RiscV.address f hi lo + delta.toBitVec ∧
      r.1 &&& 0x00000fff = hi &&& 0x00000fff ∧ r.2 &&& f.beside = lo &&& f.beside := by
  constructor
  · intro bytes
    obtain ⟨p, hp, hbytes⟩ := Thumb.MovPair.exists_encode bytes
    have hvalue := p.value_relocate delta
    refine ⟨p, _, hp, hbytes, size_encode _, Thumb.MovPair.at?_encode _, hvalue, ?_,
      p.low.sameBeside_setImmediate _, p.high.sameBeside_setImmediate _⟩
    rw [← Thumb.MovPair.toBitVec_value, ← Thumb.MovPair.toBitVec_value, hvalue, UInt32.toBitVec_add]
  · intro f hi lo r
    have hvalue : RiscV.value f r.1 r.2 = RiscV.value f hi lo + delta := RiscV.value_relocatePair f hi lo delta
    refine ⟨hvalue, ?_, RiscV.setHigh_and hi _, f.setLow_and_beside lo _⟩
    rw [← RiscV.toBitVec_value, ← RiscV.toBitVec_value, hvalue, UInt32.toBitVec_add]

/-- A low immediate of 0x800 is negative, so the upper one carries. -/
example : RiscV.relocatePair .iType 0x00000517 0x00050513 0x800 = (0x00001517, 0x80050513) := by decide

end NetBoot.Image.Relocation
