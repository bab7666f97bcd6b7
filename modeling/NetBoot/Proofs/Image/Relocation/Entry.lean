/-
  NetBoot.Proofs.Image.Relocation.Entry — what one entry of a relocation table does.

  Whether an entry can be applied depends on the size of the image, not on its contents
  (`Entry.fault?`); if it can, it writes at its own site and at that of the upper immediate before
  it, and nowhere else (`Entry.patches_of_sound`). Only an upper immediate leaves something waiting.
-/

import NetBoot.Image.Relocation.Table

namespace NetBoot.Image.Relocation

variable {image : Bytes} {family : FixupFamily} {delta : UInt64} {page : UInt32} {pos : Nat} {pending : Option Nat}

/-! ## Fields -/

theorem fieldAt_of_le {site width : Nat} (h : site + width ≤ image.size) : ∃ v, fieldAt image site width = .ok v := by
  obtain ⟨v, hv⟩ := Bytes.exists_fieldAt? h
  exact ⟨v, by rw [fieldAt, hv]⟩

theorem fieldAt_of_lt {site width : Nat} (h : image.size < site + width) :
    fieldAt image site width = .error (.outOfBounds (UInt32.ofNat site)) := by
  unfold fieldAt Bytes.fieldAt? Bytes.slice?
  rw [if_neg (by omega)]
  rfl

theorem movPair_of_le {site : Nat} (h : site + 8 ≤ image.size) : ∃ p, Thumb.MovPair.at? image site = some p := by
  obtain ⟨a, ha⟩ := Bytes.exists_u16At? (show site + 2 ≤ image.size by omega)
  obtain ⟨b, hb⟩ := Bytes.exists_u16At? (show site + 2 + 2 ≤ image.size by omega)
  obtain ⟨c, hc⟩ := Bytes.exists_u16At? (show site + 4 + 2 ≤ image.size by omega)
  obtain ⟨d, hd⟩ := Bytes.exists_u16At? (show site + 6 + 2 ≤ image.size by omega)
  refine ⟨⟨⟨a, b⟩, ⟨c, d⟩⟩, ?_⟩
  rw [Thumb.MovPair.at?, ha, hb, hc, hd]
  rfl

theorem movPair_of_lt {site : Nat} (h : image.size < site + 8) : Thumb.MovPair.at? image site = none := by
  cases hp : Thumb.MovPair.at? image site with
  | none => rfl
  | some p =>
    simp only [Thumb.MovPair.at?, Option.bind_eq_bind, Option.bind_eq_some_iff] at hp
    obtain ⟨_, -, _, -, _, -, d, hd, -⟩ := hp
    have hle := (Bytes.u16At?_eq_some_iff.mp hd).1
    omega

/-! ## Patches -/

@[simp] theorem size_applyAll (image : Bytes) (ps : List Patch) : (Patch.applyAll image ps).size = image.size := by
  unfold Patch.applyAll
  induction ps generalizing image with
  | nil => rfl
  | cons p ps ih => rw [List.foldl_cons, ih, Bytes.size_overwrite]

/-! ## Entries -/

namespace Fixup

/-- Bytes of the field that a fixup changes. -/
def width : Fixup → Nat
  | nothing => 0
  | add width _ => width
  | thumbMov => 8
  | riscvHigh => 4
  | riscvLow _ => 4

/-- The site that waits for its low immediate behind a fixup. -/
def leaves (fixup : Fixup) (site : Nat) : Option Nat :=
  match fixup with
  | riscvHigh => some site
  | _ => none

/-- Does its field lie in an image of `size` bytes? A fixup that does nothing has none. -/
def Fits (fixup : Fixup) (size site : Nat) : Prop := fixup = nothing ∨ site + fixup.width ≤ size

instance (fixup : Fixup) (size site : Nat) : Decidable (fixup.Fits size site) :=
  inferInstanceAs (Decidable (_ ∨ _))

end Fixup

/-- Bytes to write lie in the field of an entry, or are those of the upper immediate before it. -/
def Patch.Within (p : Patch) (pending : Option Nat) (site : Nat) (fixup : Fixup) : Prop :=
  (fixup ≠ .nothing ∧ p.site = site ∧ p.bytes.size = fixup.width) ∨ (pending = some p.site ∧ p.bytes.size = 4)

/-- A fixup whose field lies in the image, behind what belongs before it. -/
theorem Fixup.patches_of_fits {fixup : Fixup} {entryAt : UInt32} {site : Nat}
    (hp : pending.isSome = fixup.isRiscvLow) (hhigh : ∀ s, pending = some s → s + 4 ≤ image.size)
    (h : fixup.Fits image.size site) :
    ∃ ps, fixup.patches image delta entryAt site pending = .ok (ps, fixup.leaves site) ∧
      ∀ p ∈ ps, p.Within pending site fixup := by
  cases fixup with
  | nothing =>
    cases pending with
    | none => exact ⟨[], rfl, fun _ h => (nomatch h)⟩
    | some s => cases hp
  | add width shift =>
    cases pending with
    | none =>
      obtain ⟨v, hv⟩ := fieldAt_of_le (h.resolve_left fun h => nomatch h)
      refine ⟨[⟨site, (leBytes width (v + (delta.toNat >>> shift))).toArray⟩], ?_, fun p hp => ?_⟩
      · rw [patches, show fieldAt image site width = .ok v from hv]
        rfl
      · rw [List.mem_singleton.mp hp]
        exact Or.inl ⟨fun h => (nomatch h), rfl, length_leBytes _ _⟩
    | some s => cases hp
  | thumbMov =>
    cases pending with
    | none =>
      obtain ⟨v, hv⟩ := movPair_of_le (h.resolve_left fun h => nomatch h)
      refine ⟨[⟨site, (v.relocate delta.toUInt32).encode⟩], ?_, fun p hp => ?_⟩
      · rw [patches, hv]
        rfl
      · rw [List.mem_singleton.mp hp]
        exact Or.inl ⟨fun h => (nomatch h), rfl, rfl⟩
    | some s => cases hp
  | riscvHigh =>
    cases pending with
    | none =>
      obtain ⟨v, hv⟩ := fieldAt_of_le (h.resolve_left fun h => nomatch h)
      refine ⟨[], ?_, fun _ h => (nomatch h)⟩
      rw [patches, show fieldAt image site 4 = .ok v from hv]
      rfl
    | some s => cases hp
  | riscvLow form =>
    cases pending with
    | none => cases hp
    | some s =>
      obtain ⟨hi, hhi⟩ := fieldAt_of_le (hhigh s rfl)
      obtain ⟨lo, hlo⟩ := fieldAt_of_le (h.resolve_left fun h => nomatch h)
      let pair := RiscV.relocatePair form (UInt32.ofNat hi) (UInt32.ofNat lo) delta.toUInt32
      refine ⟨[⟨s, Bytes.ofU32 pair.1⟩, ⟨site, Bytes.ofU32 pair.2⟩], ?_, ?_⟩
      · rw [patches]
        dsimp only
        rw [hhi, show fieldAt image site 4 = .ok lo from hlo]
        rfl
      · intro p hp
        simp only [List.mem_cons, List.not_mem_nil, or_false] at hp
        rcases hp with rfl | rfl
        · exact Or.inr ⟨rfl, rfl⟩
        · exact Or.inl ⟨fun h => (nomatch h), rfl, rfl⟩

/-- A fixup whose field does not lie in the image writes nothing. -/
theorem Fixup.patches_of_not_fits {fixup : Fixup} {entryAt : UInt32} {site : Nat}
    (hp : pending.isSome = fixup.isRiscvLow) (hhigh : ∀ s, pending = some s → s + 4 ≤ image.size)
    (h : ¬fixup.Fits image.size site) :
    fixup.patches image delta entryAt site pending = .error (.outOfBounds (UInt32.ofNat site)) := by
  have hlt : image.size < site + fixup.width := Nat.lt_of_not_le fun hle => h (Or.inr hle)
  cases fixup with
  | nothing => exact absurd (Or.inl rfl) h
  | add width shift =>
    have hlt : image.size < site + width := hlt
    rw [patches, fieldAt_of_lt hlt]
    rfl
  | thumbMov => rw [patches, movPair_of_lt hlt]
  | riscvHigh =>
    have hlt : image.size < site + 4 := hlt
    rw [patches, fieldAt_of_lt hlt]
    rfl
  | riscvLow form =>
    cases pending with
    | none => cases hp
    | some s =>
      obtain ⟨hi, hhi⟩ := fieldAt_of_le (hhigh s rfl)
      have hlt : image.size < site + 4 := hlt
      rw [patches]
      dsimp only
      rw [hhi, fieldAt_of_lt hlt]
      rfl

namespace Entry

/-- Why an entry at `pos` cannot be applied to an image of `size` bytes, if it cannot; an upper
    immediate may wait for it. -/
def fault? (entry : Entry) (size : Nat) (family : FixupFamily) (page : UInt32) (pos : Nat) (waits : Bool) :
    Option Fault :=
  let entryAt := UInt32.ofNat pos
  match siteOf? page entry.offset, Fixup.ofKind? family entry.kind with
  | none, _ => some (.outOfBounds entryAt)
  | some _, none => some (if waits then .highUnfollowed entryAt else .unsupported entry.kind entryAt)
  | some site, some fixup =>
    if waits = fixup.isRiscvLow then
      if fixup.Fits size site then none else some (.outOfBounds (UInt32.ofNat site))
    else some (if waits then .highUnfollowed entryAt else .lowWithoutHigh entryAt)

variable {entry : Entry}

/-- An entry can be applied if it has a site and a meaning there, and stands behind what it needs. -/
theorem fault?_eq_none_iff {size : Nat} {waits : Bool} :
    entry.fault? size family page pos waits = none ↔
      ∃ site fixup, siteOf? page entry.offset = some site ∧ Fixup.ofKind? family entry.kind = some fixup ∧
        waits = fixup.isRiscvLow ∧ fixup.Fits size site := by
  unfold fault?
  cases siteOf? page entry.offset with
  | none => exact ⟨fun h => (nomatch h), fun ⟨_, _, h, _⟩ => (nomatch h)⟩
  | some site =>
    cases Fixup.ofKind? family entry.kind with
    | none => exact ⟨fun h => (nomatch h), fun ⟨_, _, _, h, _⟩ => (nomatch h)⟩
    | some fixup =>
      dsimp only
      constructor
      · intro h
        split at h
        · split at h
          · exact ⟨site, fixup, rfl, rfl, ‹_›, ‹_›⟩
          · cases h
        · cases h
      · rintro ⟨site', fixup', hs, hk, hw, hf⟩
        cases hs
        cases hk
        rw [if_pos hw, if_pos hf]

theorem patches_of_fault {f : Fault} (hhigh : ∀ s, pending = some s → s + 4 ≤ image.size)
    (h : entry.fault? image.size family page pos pending.isSome = some f) :
    entry.patches image family delta page pos pending = .error f := by
  unfold fault? at h
  unfold patches
  cases hs : siteOf? page entry.offset with
  | none =>
    rw [hs] at h
    cases h
    rfl
  | some site =>
    rw [hs] at h
    cases hk : Fixup.ofKind? family entry.kind with
    | none =>
      rw [hk] at h
      cases pending with
      | none =>
        cases h
        rfl
      | some s =>
        cases h
        rfl
    | some fixup =>
      rw [hk] at h
      dsimp only at h ⊢
      by_cases hw : pending.isSome = fixup.isRiscvLow
      · rw [if_pos hw] at h
        split at h
        · cases h
        · cases h
          rw [Option.any_some, hw, Bool.and_not_self, if_neg Bool.false_ne_true]
          exact Fixup.patches_of_not_fits hw hhigh ‹_›
      · rw [if_neg hw] at h
        cases pending with
        | none =>
          cases h
          cases fixup with
          | riscvLow form => rfl
          | _ => exact absurd rfl hw
        | some s =>
          cases h
          cases fixup with
          | riscvLow form => exact absurd rfl hw
          | _ => rfl

theorem patches_of_sound (delta : UInt64) (hhigh : ∀ s, pending = some s → s + 4 ≤ image.size)
    (h : entry.fault? image.size family page pos pending.isSome = none) :
    ∃ site fixup ps, siteOf? page entry.offset = some site ∧ Fixup.ofKind? family entry.kind = some fixup ∧
      pending.isSome = fixup.isRiscvLow ∧ fixup.Fits image.size site ∧
      entry.patches image family delta page pos pending = .ok (ps, fixup.leaves site) ∧
      ∀ p ∈ ps, p.Within pending site fixup := by
  obtain ⟨site, fixup, hs, hk, hw, hf⟩ := fault?_eq_none_iff.mp h
  obtain ⟨ps, hp, hwithin⟩ := Fixup.patches_of_fits hw hhigh hf
  refine ⟨site, fixup, ps, hs, hk, hw, hf, ?_, hwithin⟩
  unfold patches
  rw [hs, hk]
  dsimp only
  rw [Option.any_some, hw, Bool.and_not_self, if_neg Bool.false_ne_true, hp]

end Entry

end NetBoot.Image.Relocation
