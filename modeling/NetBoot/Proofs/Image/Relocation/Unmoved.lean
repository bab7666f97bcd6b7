/-
  NetBoot.Proofs.Image.Relocation.Unmoved — an image that lies where it was built for.

  Relocated by zero, an image stays as it is, whatever its table holds. Nothing is asked of the table:
  its fields may overlap each other, the two words of a pair may overlap, fixups may lie on the table
  itself, and the walk may end in a fault. Each entry that can be applied writes back the bytes it has
  read (`Entry.patches_zero`), so the walk reads at every step the table as it was at first
  (`walkBlock_zero`, `walkTable_zero`).
-/

import NetBoot.Proofs.Image.Relocation.Job

namespace NetBoot.Image.Relocation

variable {image : Bytes} {family : FixupFamily} {page : UInt32} {pos : Nat} {pending : Option Nat}

/-- What a fixup writes is what its job does. -/
theorem Fixup.applyAll_patches {fixup : Fixup} {delta : UInt64} {entryAt : UInt32} {site : Nat} {ps : List Patch}
    {left : Option Nat} (h : fixup.patches image delta entryAt site pending = .ok (ps, left)) :
    Patch.applyAll image ps = Job.run ⟨fixup, site, entryAt, pending⟩ delta image := by
  rw [Job.run, h]

theorem Entry.patches_zero {entry : Entry} {ps : List Patch} {left : Option Nat}
    (h : entry.patches image family 0 page pos pending = .ok (ps, left)) : Patch.applyAll image ps = image := by
  unfold Entry.patches at h
  cases hs : siteOf? page entry.offset with
  | none =>
    rw [hs] at h
    cases h
  | some site =>
    rw [hs] at h
    dsimp only at h
    split at h
    · cases h
    · cases hk : Fixup.ofKind? family entry.kind with
      | none =>
        rw [hk] at h
        cases h
      | some fixup =>
        rw [hk] at h
        rw [Fixup.applyAll_patches h, Job.run_zero]

theorem step_zero {ps : List Patch} {left : Option Nat} (h : step image family 0 page pos pending = .ok (ps, left)) :
    Patch.applyAll image ps = image := by
  unfold step at h
  cases hw : image.u16At? pos with
  | none =>
    rw [hw] at h
    cases h
  | some word =>
    rw [hw] at h
    exact Entry.patches_zero h

/-- The block is walked to its end, or to its first fault, over one and the same image. -/
theorem walkBlock_zero (image : Bytes) (family : FixupFamily) (page : UInt32) (pos stop : Nat)
    (pending : Option Nat) : (walkBlock family 0 page image pos stop pending).1 = image := by
  induction hn : stop - pos using Nat.strongRecOn generalizing pos pending with
  | _ n ih =>
  rw [walkBlock]
  by_cases hpos : pos + 2 ≤ stop
  · rw [if_pos hpos]
    cases hs : step image family 0 page pos pending with
    | error f => rfl
    | ok r =>
      obtain ⟨ps, left⟩ := r
      dsimp only
      rw [step_zero hs]
      exact ih (stop - (pos + 2)) (by omega) (pos + 2) left rfl
  · rw [if_neg hpos]

theorem walkTable_zero (image : Bytes) (family : FixupFamily) (pos stop : Nat) :
    (walkTable family 0 image pos stop).1 = image := by
  induction hn : stop - pos using Nat.strongRecOn generalizing pos with
  | _ n ih =>
  rw [walkTable]
  by_cases hpos : pos < stop
  · rw [if_pos hpos]
    by_cases hroom : stop - pos < blockHeaderSize
    · rw [if_pos hroom]
    · rw [if_neg hroom]
      cases hpage : image.u32At? pos with
      | none => rfl
      | some page =>
        cases hsize : image.u32At? (pos + 4) with
        | none => rfl
        | some size =>
          dsimp only
          by_cases hsmall : size.toNat < blockHeaderSize
          · rw [if_pos hsmall]
          · by_cases hlong : stop < pos + size.toNat
            · rw [if_neg hsmall, if_pos hlong]
            · rw [if_neg hsmall, if_neg hlong]
              rw [blockHeaderSize] at hsmall
              have hblock := walkBlock_zero image family page (pos + blockHeaderSize) (pos + size.toNat) none
              rcases hw : walkBlock family 0 page image (pos + blockHeaderSize) (pos + size.toNat) none with
                ⟨image', f | left⟩
              · rw [hw] at hblock
                exact hblock
              · rw [hw] at hblock
                dsimp only at hblock ⊢
                rw [hblock]
                cases left with
                | none => exact ih (stop - (pos + size.toNat)) (by omega) (pos + size.toNat) rfl
                | some site => rfl
  · rw [if_neg hpos]

/-- Relocating by zero changes no byte of an image, whatever its table is and however the walk ends. -/
theorem apply_zero (image : Bytes) (table : DataDirectory) (family : FixupFamily) :
    (apply image table 0 family).1 = image := by
  unfold apply
  dsimp only
  split
  · rfl
  · split
    · rfl
    · exact walkTable_zero image family _ _

/-- A pair whose words overlap each other and the table, and behind it an entry that means nothing: by zero the
    image stays, by another delta it does not. -/
example :
    let image : Bytes :=
      #[0xb7, 0xf5, 0xff, 0x93, 0x85, 0xf5, 0, 0, 0, 0, 14, 0, 0, 0, 0x00, 0x50, 0x03, 0x70, 0x00, 0x60]
    (apply image ⟨6, 14⟩ 0 .riscv).1 = image ∧ (apply image ⟨6, 14⟩ 0 .riscv).2.isOk = false ∧
      (apply image ⟨6, 14⟩ 0x12345678 .riscv).1 ≠ image := by
  decide +kernel

end NetBoot.Image.Relocation
