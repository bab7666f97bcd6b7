/-
  NetBoot.Proofs.Image.Strict.Relocation — walking a relocation table within bounds.

  A table is read from the image that its own fixups change, so what a later entry or block says is not
  what was checked when the walk began. The walk stays within the image all the same: the table as a
  whole has been found to lie in it, each block header and each site is checked when it is reached, and
  a fixup changes bytes of the image but never its size (`walkBlock_eq`, `walkTable_eq`). This holds
  whatever the table writes over itself.
-/

import NetBoot.Proofs.Image.Relocation.Entry
import NetBoot.Proofs.Image.Strict.Basic

namespace NetBoot.Image

open Relocation

/-! ## What an entry writes -/

/-- An entry that can be applied writes within the image, and leaves a site in it. -/
theorem Relocation.Entry.patches_inside {entry : Entry} {image : Bytes} {family : FixupFamily} {delta : UInt64}
    {page : UInt32} {pos : Nat} {pending left : Option Nat} {ps : List Patch}
    (hpend : ∀ s, pending = some s → s + 4 ≤ image.size)
    (h : entry.patches image family delta page pos pending = .ok (ps, left)) :
    (∀ p ∈ ps, p.site + p.bytes.size ≤ image.size) ∧ ∀ s, left = some s → s + 4 ≤ image.size := by
  cases hf : entry.fault? image.size family page pos pending.isSome with
  | some f =>
    rw [patches_of_fault hpend hf] at h
    cases h
  | none =>
    obtain ⟨site, fixup, ps', -, -, -, hfits, hps, hwithin⟩ := patches_of_sound delta hpend hf
    rw [h] at hps
    cases hps
    constructor
    · intro p hp
      rcases hwithin p hp with ⟨hn, h1, h2⟩ | ⟨h1, h2⟩
      · rw [h1, h2]
        exact hfits.resolve_left hn
      · rw [h2]
        exact hpend p.site h1
    · intro s hl
      cases fixup with
      | riscvHigh =>
        cases hl
        exact hfits.resolve_left fun h => nomatch h
      | _ => cases hl

namespace Strict

/-! ## The walk -/

def applyAll (image : Bytes) : List Patch → Strict Bytes
  | [] => return image
  | p :: ps => do
    fits (p.site + p.bytes.size)
    applyAll (← store image p.site (p.site + p.bytes.size) p.bytes) ps

/-- Applies the entries from `pos` up to `stop`. -/
def walkBlock (family : FixupFamily) (delta : UInt64) (page : UInt32) (image : Bytes) (pos stop : Nat)
    (pending : Option Nat) : Strict (Bytes × Except Fault (Option Nat)) := do
  fits (pos + 2)
  if pos + 2 ≤ stop then
    let word ← u16 image pos
    match (Entry.ofWord word).patches image family delta page pos pending with
    | .error f => return (image, .error f)
    | .ok (patches, pending') =>
      let image' ← applyAll image patches
      walkBlock family delta page image' (pos + 2) stop pending'
  else return (image, .ok pending)
termination_by stop - pos

/-- Applies the blocks from `pos` up to `stop`. -/
def walkTable (family : FixupFamily) (delta : UInt64) (image : Bytes) (pos stop : Nat) :
    Strict (Bytes × Except Fault Unit) := do
  if pos < stop then
    above stop pos
    if stop - pos < blockHeaderSize then return (image, .error (.outOfBounds (UInt32.ofNat pos)))
    else
      let page ← u32 image pos
      fits (pos + 4)
      let size ← u32 image (pos + 4)
      if size.toNat < blockHeaderSize then return (image, .error (.blockTooSmall pos size.toNat))
      else
        fits (pos + size.toNat)
        if stop < pos + size.toNat then return (image, .error (.outOfBounds (UInt32.ofNat pos)))
        else
          fits (pos + blockHeaderSize)
          match ← walkBlock family delta page image (pos + blockHeaderSize) (pos + size.toNat) none with
          | (image', .error f) => return (image', .error f)
          | (image', .ok (some _)) => return (image', .error (.highUnpaired pos))
          | (image', .ok none) => walkTable family delta image' (pos + size.toNat) stop
  else return (image, .ok ())
termination_by stop - pos
decreasing_by
  simp only [blockHeaderSize] at *
  omega

/-- Applies the whole table. -/
def relocateBy (image : Bytes) (table : DataDirectory) (delta : UInt64) (family : FixupFamily) :
    Strict (Bytes × Except Fault Unit) := do
  let start := table.rva.toNat
  if table.size = 0 then return (image, .ok ())
  else
    fits (start + table.size.toNat)
    if image.size < start + table.size.toNat then return (image, .error (.outOfBounds table.rva))
    else walkTable family delta image start (start + table.size.toNat)

/-! ## Within the image -/

section Walk

variable {family : FixupFamily} {delta : UInt64} {page : UInt32} {image : Bytes} {stop : Nat}

theorem applyAll_eq {ps : List Patch} (hword : image.size < UInt32.size)
    (h : ∀ p ∈ ps, p.site + p.bytes.size ≤ image.size) : applyAll image ps = .ok (Patch.applyAll image ps) := by
  induction ps generalizing image with
  | nil => rfl
  | cons p ps ih =>
    rw [List.forall_mem_cons] at h
    have hfits : p.site + p.bytes.size < UInt64.size := by
      have hle := h.1
      rw [UInt32.size] at hword
      rw [UInt64.size]
      omega
    rw [applyAll, fits_of_lt hfits]
    show (store image _ _ _ >>= fun _ => _) = _
    rw [store_of_le (Nat.le_add_right _ _) h.1 (Nat.add_sub_cancel_left _ _).symm]
    refine ih ?_ fun q hq => ?_
    · rw [Bytes.size_overwrite]
      exact hword
    · rw [Bytes.size_overwrite]
      exact h.2 q hq

/-- A block is walked within the image, and the image keeps its size. -/
theorem walkBlock_eq (family : FixupFamily) (delta : UInt64) (page : UInt32) {pos : Nat} (pending : Option Nat)
    (hword : image.size < UInt32.size) (hs : stop ≤ image.size) (hpos : pos ≤ stop)
    (hpend : ∀ s, pending = some s → s + 4 ≤ image.size) :
    walkBlock family delta page image pos stop pending =
        .ok (Relocation.walkBlock family delta page image pos stop pending) ∧
      (Relocation.walkBlock family delta page image pos stop pending).1.size = image.size := by
  induction hn : stop - pos using Nat.strongRecOn generalizing image pos pending with
  | _ n ih =>
  have hsize : UInt64.size = 2 ^ 64 := rfl
  have himage : UInt32.size = 2 ^ 32 := rfl
  rw [walkBlock, Relocation.walkBlock, fits_of_lt (show pos + 2 < UInt64.size by omega), ok_bind]
  by_cases hnext : pos + 2 ≤ stop
  · obtain ⟨word, hw⟩ := Bytes.exists_u16At? (show pos + 2 ≤ image.size by omega)
    rw [if_pos hnext, if_pos hnext, u16_of_some (by omega) hw, ok_bind, step, hw]
    dsimp only
    cases hp : (Entry.ofWord word).patches image family delta page pos pending with
    | error f => exact ⟨rfl, rfl⟩
    | ok r =>
      obtain ⟨ps, left⟩ := r
      obtain ⟨hinside, hleft⟩ := Entry.patches_inside hpend hp
      have happlied := size_applyAll image ps
      have hrest := ih (stop - (pos + 2)) (by omega) left (happlied ▸ hword) (happlied ▸ hs) hnext
        (happlied ▸ hleft) rfl
      dsimp only
      rw [applyAll_eq hword hinside, ok_bind]
      exact ⟨hrest.1, hrest.2.trans happlied⟩
  · rw [if_neg hnext, if_neg hnext]
    exact ⟨rfl, rfl⟩

/-- A table is walked within the image, whatever its fixups make of the part that lies ahead. -/
theorem walkTable_eq {pos : Nat} (hword : image.size < UInt32.size) (hs : stop ≤ image.size) (hpos : pos ≤ stop) :
    walkTable family delta image pos stop = .ok (Relocation.walkTable family delta image pos stop) ∧
      (Relocation.walkTable family delta image pos stop).1.size = image.size := by
  induction hn : stop - pos using Nat.strongRecOn generalizing image pos with
  | _ n ih =>
  have hlimit : UInt64.size = 2 ^ 64 := rfl
  have himage : UInt32.size = 2 ^ 32 := rfl
  rw [walkTable, Relocation.walkTable]
  by_cases hmore : pos < stop
  · rw [if_pos hmore, if_pos hmore, above_of_le hpos, ok_bind]
    by_cases hroom : stop - pos < blockHeaderSize
    · rw [if_pos hroom, if_pos hroom]
      exact ⟨rfl, rfl⟩
    · rw [if_neg hroom, if_neg hroom]
      rw [blockHeaderSize] at hroom
      obtain ⟨page, hpage⟩ := Bytes.exists_u32At? (show pos + 4 ≤ image.size by omega)
      obtain ⟨size, hsize⟩ := Bytes.exists_u32At? (show pos + 4 + 4 ≤ image.size by omega)
      have hsmall := size.toNat_lt
      rw [u32_of_some (by omega) hpage, ok_bind, fits_of_lt (show pos + 4 < UInt64.size by omega), ok_bind,
        u32_of_some (by omega) hsize, ok_bind, hpage, hsize]
      dsimp only
      by_cases hmin : size.toNat < blockHeaderSize
      · rw [if_pos hmin, if_pos hmin]
        exact ⟨rfl, rfl⟩
      · rw [if_neg hmin, if_neg hmin, fits_of_lt (show pos + size.toNat < UInt64.size by omega), ok_bind]
        by_cases hend : stop < pos + size.toNat
        · rw [if_pos hend, if_pos hend]
          exact ⟨rfl, rfl⟩
        · rw [if_neg hend, if_neg hend]
          rw [blockHeaderSize] at hmin ⊢
          obtain ⟨hblock, hkept⟩ := walkBlock_eq family delta page none hword
            (show pos + size.toNat ≤ image.size by omega) (show pos + 8 ≤ pos + size.toNat by omega)
            (fun _ h => (nomatch h))
          rw [fits_of_lt (show pos + 8 < UInt64.size by omega), ok_bind, hblock, ok_bind]
          rcases hw : Relocation.walkBlock family delta page image (pos + 8) (pos + size.toNat) none with
            ⟨image', f | left⟩
          all_goals
            rw [hw] at hkept
            dsimp only at hkept
          · exact ⟨rfl, hkept⟩
          · cases left with
            | some s => exact ⟨rfl, hkept⟩
            | none =>
              rw [← hkept] at hword hs
              obtain ⟨hrest, hsize'⟩ := ih (stop - (pos + size.toNat)) (by omega) hword hs (by omega) rfl
              exact ⟨hrest, hsize'.trans hkept⟩
  · rw [if_neg hmore, if_neg hmore]
    exact ⟨rfl, rfl⟩

/-- A table is applied within the image, whatever it says, and the image keeps its size. -/
theorem relocateBy_eq (table : DataDirectory) (delta : UInt64) (family : FixupFamily) (hword : image.size < UInt32.size) :
    relocateBy image table delta family = .ok (Relocation.apply image table delta family) ∧
      (Relocation.apply image table delta family).1.size = image.size := by
  unfold relocateBy Relocation.apply
  dsimp only
  by_cases hsize : table.size = 0
  · rw [if_pos hsize, if_pos hsize]
    exact ⟨rfl, rfl⟩
  · have hrva := table.rva.toNat_lt
    have hlen := table.size.toNat_lt
    have hfits : table.rva.toNat + table.size.toNat < UInt64.size := by
      rw [UInt64.size]
      omega
    rw [if_neg hsize, if_neg hsize, fits_of_lt hfits, ok_bind]
    by_cases hin : image.size < table.rva.toNat + table.size.toNat
    · rw [if_pos hin, if_pos hin]
      exact ⟨rfl, rfl⟩
    · rw [if_neg hin, if_neg hin]
      exact walkTable_eq hword (Nat.le_of_not_lt hin) (Nat.le_add_right _ _)

end Walk

end Strict

end NetBoot.Image
