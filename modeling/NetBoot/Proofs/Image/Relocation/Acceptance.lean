/-
  NetBoot.Proofs.Image.Relocation.Acceptance — which relocation tables are accepted.

  A table is accepted when it lies in the image, is a chain of blocks to its very end, and its entries
  are sound one by one and paired with their neighbours (`Accepted`). None of that looks at what the
  fixups write, so a table that leaves itself alone is accepted or refused as it was before the walk.
-/

import Mathlib.Data.List.Chain
import NetBoot.Proofs.Image.Relocation.Decode

namespace NetBoot.Image.Relocation

/-! ## Accepted tables -/

/-- Blocks from `pos` up to `stop`, one behind the other, and their entries. -/
inductive Blocks (image : Bytes) (stop : Nat) : Nat → List Placed → Prop
  | done : Blocks image stop stop []
  | block {pos : Nat} {page size : UInt32} {rest : List Placed} (hpage : image.u32At? pos = some page)
      (hsize : image.u32At? (pos + 4) = some size) (hmin : blockHeaderSize ≤ size.toNat)
      (hend : pos + size.toNat ≤ stop) (hrest : Blocks image stop (pos + size.toNat) rest) :
      Blocks image stop pos (decodeBlock image pos page (pos + blockHeaderSize) (pos + size.toNat) ++ rest)

namespace Placed

/-- Its site fits 32 bits, the family knows its kind, and its field lies in an image of `size` bytes. -/
def Sound (e : Placed) (family : FixupFamily) (size : Nat) : Prop :=
  ∃ site fixup, siteOf? e.page e.entry.offset = some site ∧ Fixup.ofKind? family e.entry.kind = some fixup ∧
    fixup.Fits size site

def IsHigh (e : Placed) (family : FixupFamily) : Prop := Fixup.ofKind? family e.entry.kind = some .riscvHigh

def IsLow (e : Placed) (family : FixupFamily) : Prop :=
  ∃ form, Fixup.ofKind? family e.entry.kind = some (.riscvLow form)

instance (e : Placed) (family : FixupFamily) : Decidable (e.IsHigh family) :=
  inferInstanceAs (Decidable (_ = _))

/-- Of two neighbours, the first is an upper immediate exactly when the second is a low one, and then
    they stand in the same block. -/
structure Linked (family : FixupFamily) (e e' : Placed) : Prop where
  iff : e.IsHigh family ↔ e'.IsLow family
  block : e.IsHigh family → e'.block = e.block

end Placed

/-- Every upper immediate is followed by a low one and every low one follows an upper one, at once and
    in the same block. -/
structure Paired (family : FixupFamily) (es : List Placed) : Prop where
  first : ∀ e, es.head? = some e → ¬e.IsLow family
  linked : es.IsChain (Placed.Linked family)
  last : ∀ e, es.getLast? = some e → ¬e.IsHigh family

/-- The table lies in the image and holds these entries, which can all be applied. A table of no bytes
    lies anywhere. -/
structure Accepted (image : Bytes) (table : DataDirectory) (family : FixupFamily) (es : List Placed) : Prop where
  fits : ∀ i, table.rva.toNat ≤ i → i < table.rva.toNat + table.size.toNat → i < image.size
  blocks : Blocks image (table.rva.toNat + table.size.toNat) table.rva.toNat es
  sound : ∀ e ∈ es, e.Sound family image.size
  paired : Paired family es

/-! ## The chain -/

section Chain

variable {image : Bytes} {stop : Nat}

theorem decode_of_blocks {pos : Nat} {es : List Placed} (h : Blocks image stop pos es) :
    decode image pos stop = (es, none) := by
  induction h with
  | done => rw [decode, if_neg (Nat.lt_irrefl stop)]
  | @block pos page size rest hpage hsize hmin hend hrest ih =>
    rw [blockHeaderSize] at hmin
    rw [decode, if_pos (by omega), if_neg (by rw [blockHeaderSize]; omega), hpage, hsize]
    dsimp only
    rw [if_neg (by rw [blockHeaderSize]; omega), if_neg (by omega), ih]

theorem blocks_of_decode {pos : Nat} {es : List Placed} (hle : pos ≤ stop) (h : decode image pos stop = (es, none)) :
    Blocks image stop pos es := by
  induction hn : stop - pos using Nat.strongRecOn generalizing pos es with
  | _ n ih =>
  rw [decode] at h
  by_cases hpos : pos < stop
  · rw [if_pos hpos] at h
    split at h
    · cases h
    · split at h
      · rename_i page size hpage hsize
        split at h
        · cases h
        · rename_i hmin
          split at h
          · cases h
          · rename_i hend
            have hmin := Nat.le_of_not_lt hmin
            rw [Prod.mk.injEq] at h
            rw [← h.1]
            rw [blockHeaderSize] at hmin
            refine .block hpage hsize hmin (by omega) (ih (stop - (pos + size.toNat)) (by omega) (by omega) ?_ rfl)
            exact Prod.ext rfl h.2
      · cases h
  · rw [if_neg hpos] at h
    cases h
    have heq : pos = stop := by omega
    rw [heq]
    exact .done

end Chain

/-! ## Neighbours -/

section Neighbours

variable {family : FixupFamily} {size : Nat}

namespace Placed

/-- The entry is a low immediate exactly if one is waited for, from its own block. -/
structure Follows (e : Placed) (family : FixupFamily) (waiting : Option Nat) : Prop where
  iff : e.IsLow family ↔ waiting.isSome
  block : ∀ b, waiting = some b → e.block = b

/-- The block of the low immediate that the entry calls for. -/
def awaits (e : Placed) (family : FixupFamily) : Option Nat := if e.IsHigh family then some e.block else none

theorem awaits_eq_none_iff {e : Placed} : e.awaits family = none ↔ ¬e.IsHigh family := by
  unfold awaits
  by_cases h : e.IsHigh family
  · rw [if_pos h]
    exact ⟨fun h => (nomatch h), fun hn => absurd h hn⟩
  · rw [if_neg h]
    exact ⟨fun _ => h, fun _ => rfl⟩

theorem isHigh_iff {e : Placed} {fixup : Fixup} (h : Fixup.ofKind? family e.entry.kind = some fixup) :
    e.IsHigh family ↔ fixup = .riscvHigh := by
  rw [IsHigh, h, Option.some.injEq]

theorem isLow_iff {e : Placed} {fixup : Fixup} (h : Fixup.ofKind? family e.entry.kind = some fixup) :
    e.IsLow family ↔ fixup.isRiscvLow = true := by
  rw [IsLow, h]
  cases fixup with
  | riscvLow form => exact ⟨fun _ => rfl, fun _ => ⟨form, rfl⟩⟩
  | _ => exact ⟨fun ⟨_, h⟩ => (nomatch h), fun h => (nomatch h)⟩

theorem linked_iff_follows {e e' : Placed} : Linked family e e' ↔ e'.Follows family (e.awaits family) := by
  unfold awaits
  by_cases h : e.IsHigh family
  · rw [if_pos h]
    constructor
    · intro hl
      refine ⟨⟨fun _ => rfl, fun _ => hl.iff.mp h⟩, fun b hb => ?_⟩
      cases hb
      exact hl.block h
    · intro hf
      exact ⟨⟨fun _ => hf.iff.mpr rfl, fun _ => h⟩, fun _ => hf.block e.block rfl⟩
  · rw [if_neg h]
    constructor
    · intro hl
      exact ⟨⟨fun hlow => absurd (hl.iff.mpr hlow) h, fun hn => (nomatch hn)⟩, fun b hb => (nomatch hb)⟩
    · intro hf
      exact ⟨⟨fun hh => absurd hh h, fun hlow => (nomatch hf.iff.mp hlow)⟩, fun hh => absurd hh h⟩

/-- An entry can be applied if it is sound and the right one at its place. -/
theorem fault?_eq_none_iff_sound {e : Placed} {waits : Bool} :
    e.entry.fault? size family e.page e.pos waits = none ↔ e.Sound family size ∧ (e.IsLow family ↔ waits = true) := by
  rw [Entry.fault?_eq_none_iff]
  constructor
  · rintro ⟨site, fixup, hs, hk, hw, hf⟩
    exact ⟨⟨site, fixup, hs, hk, hf⟩, by rw [hw, isLow_iff hk]⟩
  · rintro ⟨⟨site, fixup, hs, hk, hf⟩, hw⟩
    rw [isLow_iff hk] at hw
    exact ⟨site, fixup, hs, hk, Bool.eq_iff_iff.mpr hw.symm, hf⟩

end Placed

/-- `Paired`, behind an upper immediate that waits in its block. -/
structure PairedFrom (family : FixupFamily) (waiting : Option Nat) (es : List Placed) : Prop where
  first : ∀ e, es.head? = some e → e.Follows family waiting
  linked : es.IsChain (Placed.Linked family)
  last : ∀ e, es.getLast? = some e → ¬e.IsHigh family
  nonempty : es = [] → waiting = none

theorem paired_iff {es : List Placed} : Paired family es ↔ PairedFrom family none es := by
  constructor
  · intro h
    refine ⟨fun e he => ⟨⟨fun hl => absurd hl (h.first e he), fun hn => (nomatch hn)⟩, fun b hb => (nomatch hb)⟩,
      h.linked, h.last, fun _ => rfl⟩
  · intro h
    exact ⟨fun e he hl => (nomatch (h.first e he).iff.mp hl), h.linked, h.last⟩

theorem pairedFrom_cons {waiting : Option Nat} {e : Placed} {es : List Placed} :
    PairedFrom family waiting (e :: es) ↔ e.Follows family waiting ∧ PairedFrom family (e.awaits family) es := by
  cases es with
  | nil =>
    constructor
    · intro h
      refine ⟨h.first e rfl, fun _ h => (nomatch h), .nil, fun _ h => (nomatch h), fun _ => ?_⟩
      exact Placed.awaits_eq_none_iff.mpr (h.last e rfl)
    · rintro ⟨hf, h⟩
      refine ⟨fun e' he => ?_, .singleton e, fun e' he => ?_, fun h => (nomatch h)⟩
      · cases he
        exact hf
      · cases he
        exact Placed.awaits_eq_none_iff.mp (h.nonempty rfl)
  | cons e' es =>
    constructor
    · intro h
      obtain ⟨hlink, hchain⟩ := List.isChain_cons_cons.mp h.linked
      refine ⟨h.first e rfl, fun x hx => ?_, hchain, fun x hx => ?_, fun h => (nomatch h)⟩
      · cases hx
        exact Placed.linked_iff_follows.mp hlink
      · exact h.last x (by rw [List.getLast?_cons_cons, hx])
    · rintro ⟨hf, h⟩
      refine ⟨fun x hx => ?_, ?_, fun x hx => ?_, fun h => (nomatch h)⟩
      · cases hx
        exact hf
      · exact List.isChain_cons_cons.mpr ⟨Placed.linked_iff_follows.mpr (h.first e' rfl), h.linked⟩
      · rw [List.getLast?_cons_cons] at hx
        exact h.last x hx

end Neighbours

/-! ## Applying to the end -/

section Outcome

variable {family : FixupFamily} {delta : UInt64} {image image' : Bytes} {waiting waiting' : Option (Nat × Nat)}

/-- What waits has its field in the image. -/
def InImage (image : Bytes) (waiting : Option (Nat × Nat)) : Prop := ∀ w, waiting = some w → w.2 + 4 ≤ image.size

theorem inImage_none (image : Bytes) : InImage image none := fun _ h => (nomatch h)

namespace Placed

variable {e : Placed}

theorem exists_pending (h : ∀ b, waiting.map (·.1) = some b → e.block = b) :
    ∃ pending : Option Nat, waiting = pending.map (e.block, ·) := by
  cases waiting with
  | none => exact ⟨none, rfl⟩
  | some w =>
    refine ⟨some w.2, ?_⟩
    rw [h w.1 rfl]
    rfl

theorem follows_sameBlock_iff {pending : Option Nat} :
    e.Follows family ((pending.map (e.block, ·)).map (·.1)) ↔ (e.IsLow family ↔ pending.isSome = true) := by
  cases pending with
  | none => exact ⟨fun h => h.iff, fun h => ⟨h, fun _ hb => (nomatch hb)⟩⟩
  | some s =>
    refine ⟨fun h => h.iff, fun h => ⟨h, fun b hb => ?_⟩⟩
    cases hb
    rfl

/-- A sound entry at its place is applied, and leaves waiting what it calls for. -/
theorem apply_of_sound (delta : UInt64) (hin : InImage image waiting) (hs : e.Sound family image.size)
    (hf : e.Follows family (waiting.map (·.1))) :
    ∃ image' waiting', e.apply family delta image waiting = .ok (image', waiting') ∧ image'.size = image.size ∧
      InImage image' waiting' ∧ waiting'.map (·.1) = e.awaits family := by
  obtain ⟨pending, rfl⟩ := exists_pending hf.block
  have hhigh : ∀ s, pending = some s → s + 4 ≤ image.size := fun s hs => hin (e.block, s) (by rw [hs]; rfl)
  obtain ⟨site, fixup, ps, -, hk, -, hfits, hps, -⟩ := Entry.patches_of_sound delta hhigh
    (fault?_eq_none_iff_sound.mpr ⟨hs, follows_sameBlock_iff.mp hf⟩)
  refine ⟨Patch.applyAll image ps, (fixup.leaves site).map (e.block, ·), ?_, size_applyAll image ps, ?_, ?_⟩
  · rw [apply_sameBlock, hps]
    rfl
  · intro w hw
    rw [size_applyAll]
    cases fixup with
    | riscvHigh =>
      cases hw
      exact hfits.resolve_left fun h => nomatch h
    | _ => cases hw
  · unfold awaits
    cases fixup with
    | riscvHigh => rw [if_pos ((isHigh_iff hk).mpr rfl)]; rfl
    | _ => rw [if_neg fun h => (nomatch (isHigh_iff hk).mp h)]; rfl

/-- An entry that is applied is sound and at its place. -/
theorem sound_of_apply (hin : InImage image waiting) {r : Bytes × Option (Nat × Nat)}
    (h : e.apply family delta image waiting = .ok r) :
    e.Sound family image.size ∧ e.Follows family (waiting.map (·.1)) := by
  have hblock : ∀ b, waiting.map (·.1) = some b → e.block = b := by
    intro b hb
    cases waiting with
    | none => cases hb
    | some w =>
      cases hb
      refine Decidable.byContradiction fun hne => ?_
      have hne : (w.1 != e.block) = true := bne_iff_ne.mpr (Ne.symm hne)
      rw [apply, Option.filter_some, if_pos hne] at h
      cases h
  obtain ⟨pending, rfl⟩ := exists_pending hblock
  have hhigh : ∀ s, pending = some s → s + 4 ≤ image.size := fun s hs => hin (e.block, s) (by rw [hs]; rfl)
  rw [apply_sameBlock] at h
  cases hfault : e.entry.fault? image.size family e.page e.pos pending.isSome with
  | some f =>
    rw [Entry.patches_of_fault hhigh hfault] at h
    cases h
  | none =>
    obtain ⟨hs, hlow⟩ := fault?_eq_none_iff_sound.mp hfault
    exact ⟨hs, follows_sameBlock_iff.mpr hlow⟩

end Placed

/-- Entries are applied to the end exactly if they are sound and paired, and their chain has one. -/
theorem finish_eq_ok_iff {ending : Option Fault} {es : List Placed} (hin : InImage image waiting) :
    (finish ending (applyEntries family delta image waiting es)).2 = .ok () ↔
      ending = none ∧ (∀ e ∈ es, e.Sound family image.size) ∧ PairedFrom family (waiting.map (·.1)) es := by
  induction es generalizing image waiting with
  | nil =>
    constructor
    · intro h
      cases waiting with
      | some w => cases h
      | none =>
        cases ending with
        | some f => cases h
        | none =>
          refine ⟨rfl, fun _ h => (nomatch h), fun _ h => (nomatch h), .nil, fun _ h => (nomatch h), fun _ => rfl⟩
    · rintro ⟨rfl, -, hp⟩
      rw [Option.map_eq_none_iff.mp (hp.nonempty rfl)]
      rfl
  | cons e es ih =>
    rw [List.forall_mem_cons, pairedFrom_cons]
    constructor
    · intro h
      rw [applyEntries] at h
      cases ha : e.apply family delta image waiting with
      | error f =>
        rw [ha] at h
        cases h
      | ok r =>
        obtain ⟨hs, hf⟩ := Placed.sound_of_apply hin ha
        obtain ⟨image', waiting', ha', hsize, hin', haw⟩ := Placed.apply_of_sound delta hin hs hf
        rw [ha'] at h
        obtain ⟨hend, hall, hp⟩ := (ih hin').mp h
        rw [hsize] at hall
        rw [haw] at hp
        exact ⟨hend, ⟨hs, hall⟩, hf, hp⟩
    · rintro ⟨hend, ⟨hs, hall⟩, hf, hp⟩
      obtain ⟨image', waiting', ha', hsize, hin', haw⟩ := Placed.apply_of_sound delta hin hs hf
      rw [applyEntries, ha']
      refine (ih hin').mpr ⟨hend, ?_, ?_⟩
      · rw [hsize]
        exact hall
      · rw [haw]
        exact hp

/-- Where a table stops whose first entries have been applied: at the next entry, or behind the last. -/
def StopsWith (f : Fault) (family : FixupFamily) (delta : UInt64) (image : Bytes) (waiting : Option (Nat × Nat))
    (ending : Option Fault) : List Placed → Prop
  | [] => conclude ending waiting = .error f
  | e :: _ => e.apply family delta image waiting = .error f

/-- Entries that are not applied to the end are applied up to one of them, or to a chain without one. -/
theorem stopsWith_of_finish {ending : Option Fault} {es : List Placed} {f : Fault}
    (h : finish ending (applyEntries family delta image waiting es) = (image', .error f)) :
    ∃ done rest waiting', es = done ++ rest ∧ applyEntries family delta image waiting done = (image', .ok waiting') ∧
      StopsWith f family delta image' waiting' ending rest := by
  induction es generalizing image waiting with
  | nil =>
    rw [finish, applyEntries, Prod.mk.injEq] at h
    obtain ⟨rfl, hstop⟩ := h
    exact ⟨[], [], waiting, rfl, rfl, hstop⟩
  | cons e es ih =>
    rw [applyEntries] at h
    cases ha : e.apply family delta image waiting with
    | error g =>
      rw [ha] at h
      cases h
      exact ⟨[], e :: es, waiting, rfl, rfl, ha⟩
    | ok r =>
      rw [ha] at h
      obtain ⟨done, rest, waiting', hes, hdone, hstop⟩ := ih h
      refine ⟨e :: done, rest, waiting', by rw [hes, List.cons_append], ?_, hstop⟩
      rw [applyEntries, ha]
      exact hdone

end Outcome

/-! ## The table -/

/-- What a table leaves behind that is not applied to its end: nothing changed if it does not lie in the
    image, else its first entries applied, and no other. -/
def Stopped (image : Bytes) (table : DataDirectory) (delta : UInt64) (family : FixupFamily) (image' : Bytes)
    (f : Fault) : Prop :=
  let start := table.rva.toNat
  let stop := start + table.size.toNat
  if image.size < stop then image' = image ∧ f = .outOfBounds table.rva
  else ∃ done rest waiting, (decode image start stop).1 = done ++ rest ∧
    applyEntries family delta image none done = (image', .ok waiting) ∧
    StopsWith f family delta image' waiting (decode image start stop).2 rest

section Table

variable {image : Bytes} {table : DataDirectory} {family : FixupFamily} {delta : UInt64}

theorem accepted_iff (hfits : table.rva.toNat + table.size.toNat ≤ image.size) {es : List Placed}
    {ending : Option Fault} (hd : decode image table.rva.toNat (table.rva.toNat + table.size.toNat) = (es, ending)) :
    (∃ es, Accepted image table family es) ↔
      ending = none ∧ (∀ e ∈ es, e.Sound family image.size) ∧ PairedFrom family none es := by
  constructor
  · rintro ⟨es', h⟩
    rw [decode_of_blocks h.blocks] at hd
    cases hd
    exact ⟨rfl, h.sound, paired_iff.mp h.paired⟩
  · rintro ⟨rfl, hsound, hpaired⟩
    exact ⟨es, fun i _ hi => Nat.lt_of_lt_of_le hi hfits, blocks_of_decode (Nat.le_add_right _ _) hd, hsound,
      paired_iff.mpr hpaired⟩

theorem accepted_of_empty (h : table.size = 0) : Accepted image table family [] := by
  have hstop : table.rva.toNat + table.size.toNat = table.rva.toNat := by rw [h]; rfl
  refine ⟨fun i h1 h2 => by omega, ?_, fun _ h => (nomatch h), paired_iff.mpr ?_⟩
  · rw [hstop]
    exact .done
  · exact ⟨fun _ h => (nomatch h), .nil, fun _ h => (nomatch h), fun _ => rfl⟩

theorem Accepted.le_size {es : List Placed} (hsize : table.size ≠ 0) (h : Accepted image table family es) :
    table.rva.toNat + table.size.toNat ≤ image.size := by
  have hpos : 0 < table.size.toNat := Nat.pos_of_ne_zero fun h0 => hsize (UInt32.toNat_inj.mp h0)
  have hlast := h.fits (table.rva.toNat + table.size.toNat - 1) (by omega) (by omega)
  omega

end Table

/-- A table none of whose fixups lies on it is walked as if it were decoded first: to the same image with
    the same fault. It is walked to the end exactly if it is accepted, and where it stops the entries before
    have been applied. -/
theorem apply_eq_decodeThenApply (image : Bytes) (table : DataDirectory) (delta : UInt64) (family : FixupFamily)
    (h : ∀ e ∈ (decode image table.rva.toNat (table.rva.toNat + table.size.toNat)).1,
      e.Outside family table.rva.toNat (table.rva.toNat + table.size.toNat)) :
    apply image table delta family = decodeThenApply image table delta family ∧
      ((apply image table delta family).2 = .ok () ↔ ∃ es, Accepted image table family es) ∧
      ∀ image' f, apply image table delta family = (image', .error f) → Stopped image table delta family image' f := by
  unfold apply decodeThenApply
  by_cases hsize : table.size = 0
  · rw [if_pos hsize, if_pos hsize]
    exact ⟨rfl, ⟨fun _ => ⟨[], accepted_of_empty hsize⟩, fun _ => rfl⟩, fun _ _ h => (nomatch h)⟩
  · rw [if_neg hsize, if_neg hsize]
    unfold Stopped
    by_cases hfits : image.size < table.rva.toNat + table.size.toNat
    · rw [if_pos hfits, if_pos hfits]
      refine ⟨rfl, ⟨fun h => (nomatch h), fun ⟨es, ha⟩ => ?_⟩, fun image' f h => ?_⟩
      · exact absurd (ha.le_size hsize) (Nat.not_le_of_lt hfits)
      · cases h
        rw [if_pos hfits]
        exact ⟨rfl, rfl⟩
    · rw [if_neg hfits, if_neg hfits]
      have hle := Nat.le_of_not_lt hfits
      have hwalk := walkTable_eq delta (Agree.refl image _ _) (Nat.le_refl _) hle h
      rw [hwalk]
      refine ⟨rfl, ?_, fun image' f hf => ?_⟩
      · exact (finish_eq_ok_iff (inImage_none image)).trans (accepted_iff hle rfl).symm
      · rw [if_neg hfits]
        exact stopsWith_of_finish hf

/-- One block at the start, with an upper immediate for `0x20` and its low one for `0x24`. -/
def pairedImage : Bytes :=
  #[0x20, 0, 0, 0, 12, 0, 0, 0, 0x00, 0x50, 0x04, 0x70] ++ Bytes.zeros 20 ++ #[0x37, 0x05, 0, 0, 0x13, 0x05, 0x05, 0]

def pairedTable : DataDirectory := ⟨0, 12⟩

def pairedEntries : List Placed := [⟨0, 0x20, 8, ⟨5, 0⟩⟩, ⟨0, 0x20, 10, ⟨7, 4⟩⟩]

theorem decode_pairedImage : decode pairedImage 0 12 = (pairedEntries, none) := by
  decide +kernel

/-- The two entries lie outside the table and belong together, so the table is walked to its end. -/
theorem pairedImage_applied :
    (∀ e ∈ (decode pairedImage 0 12).1, e.Outside .riscv 0 12) ∧
      (apply pairedImage pairedTable 0x12345 .riscv).2 = .ok () := by
  have hout : ∀ e ∈ (decode pairedImage 0 12).1, e.Outside .riscv 0 12 := by
    rw [decode_pairedImage]
    intro e he site fixup hs hk _
    simp only [pairedEntries, List.mem_cons, List.not_mem_nil, or_false] at he
    rcases he with rfl | rfl
    · cases hs
      exact Or.inr (by decide)
    · cases hs
      exact Or.inr (by decide)
  refine ⟨hout, (apply_eq_decodeThenApply pairedImage pairedTable 0x12345 .riscv hout).2.1.mpr
    ⟨pairedEntries, ?_, blocks_of_decode (by decide) decode_pairedImage, ?_, ?_⟩⟩
  · intro i _ hi
    exact Nat.lt_of_lt_of_le hi (by decide)
  · intro e he
    simp only [pairedEntries, List.mem_cons, List.not_mem_nil, or_false] at he
    rcases he with rfl | rfl
    · exact ⟨0x20, .riscvHigh, rfl, rfl, Or.inr (by decide)⟩
    · exact ⟨0x24, .riscvLow .iType, rfl, rfl, Or.inr (by decide)⟩
  · refine ⟨fun e he => ?_, List.isChain_pair.mpr ⟨⟨fun _ => ⟨.iType, rfl⟩, fun _ => rfl⟩, fun _ => rfl⟩,
      fun e he => ?_⟩
    · cases he
      exact fun ⟨_, h⟩ => (nomatch h)
    · cases he
      exact fun h => (nomatch h)

end NetBoot.Image.Relocation
