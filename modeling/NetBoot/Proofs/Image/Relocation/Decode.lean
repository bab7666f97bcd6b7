/-
  NetBoot.Proofs.Image.Relocation.Decode — a relocation table decoded first and applied then.

  The table lies in the image that it patches and is read while it is walked. If none of its fixups
  lies on the table, that makes no difference: `decodeThenApply` reads the whole chain of blocks from
  the image as it was, as one list of entries, and applies these in their order, and the walk does the
  same (`walkTable_eq`). The walk keeps the table as it was (`Agree`), and what waits for
  the next entry of a block is what the entry before it left.
-/

import NetBoot.Proofs.Image.Relocation.Entry

namespace NetBoot.Image.Relocation

/-! ## Decoding -/

/-- An entry and where it stands: its block with the page of that, and its own place. -/
structure Placed where
  block : Nat
  page : UInt32
  pos : Nat
  entry : Entry
  deriving DecidableEq, Repr

/-- The entries from `pos` up to `stop`, in the block at `block`. -/
def decodeBlock (image : Bytes) (block : Nat) (page : UInt32) (pos stop : Nat) : List Placed :=
  if pos + 2 ≤ stop then
    match image.u16At? pos with
    | some word => ⟨block, page, pos, .ofWord word⟩ :: decodeBlock image block page (pos + 2) stop
    | none => []
  else []
termination_by stop - pos

/-- The entries of the blocks from `pos` up to `stop`, and why their chain breaks off, if it does. -/
def decode (image : Bytes) (pos stop : Nat) : List Placed × Option Fault :=
  if pos < stop then
    if stop - pos < blockHeaderSize then ([], some (.outOfBounds (UInt32.ofNat pos)))
    else match image.u32At? pos, image.u32At? (pos + 4) with
      | some page, some size =>
        if size.toNat < blockHeaderSize then ([], some (.blockTooSmall pos size.toNat))
        else if stop < pos + size.toNat then ([], some (.outOfBounds (UInt32.ofNat pos)))
        else
          let rest := decode image (pos + size.toNat) stop
          (decodeBlock image pos page (pos + blockHeaderSize) (pos + size.toNat) ++ rest.1, rest.2)
      | _, _ => ([], some (.lost pos))
  else ([], none)
termination_by stop - pos
decreasing_by
  simp only [blockHeaderSize] at *
  omega

/-! ## Applying -/

namespace Placed

/-- Applies one entry. `waiting` is the block and the site of an upper immediate right before it. -/
def apply (e : Placed) (family : FixupFamily) (delta : UInt64) (image : Bytes) (waiting : Option (Nat × Nat)) :
    Except Fault (Bytes × Option (Nat × Nat)) :=
  match waiting.filter (·.1 != e.block) with
  | some (block, _) => .error (.highUnpaired block)
  | none => do
    let (patches, left) ← e.entry.patches image family delta e.page e.pos (waiting.map (·.2))
    return (Patch.applyAll image patches, left.map (e.block, ·))

end Placed

/-- Applies entries in their order, up to the first that cannot be. -/
def applyEntries (family : FixupFamily) (delta : UInt64) (image : Bytes) (waiting : Option (Nat × Nat)) :
    List Placed → Bytes × Except Fault (Option (Nat × Nat))
  | [] => (image, .ok waiting)
  | e :: r =>
    match e.apply family delta image waiting with
    | .error f => (image, .error f)
    | .ok (image', waiting') => applyEntries family delta image' waiting' r

/-- What stands behind the last entry: an upper immediate that still waits, or the end of the chain. -/
def conclude (ending : Option Fault) : Option (Nat × Nat) → Except Fault Unit
  | some (block, _) => .error (.highUnpaired block)
  | none =>
    match ending with
    | some f => .error f
    | none => .ok ()

/-- The end of a table whose entries have been applied. -/
def finish (ending : Option Fault) (applied : Bytes × Except Fault (Option (Nat × Nat))) : Bytes × Except Fault Unit :=
  (applied.1, applied.2.bind (conclude ending))

/-- Decodes the whole table, and applies its entries then. -/
def decodeThenApply (image : Bytes) (table : DataDirectory) (delta : UInt64) (family : FixupFamily) :
    Bytes × Except Fault Unit :=
  let start := table.rva.toNat
  if table.size = 0 then (image, .ok ())
  else if image.size < start + table.size.toNat then (image, .error (.outOfBounds table.rva))
  else
    let (entries, ending) := decode image start (start + table.size.toNat)
    finish ending (applyEntries family delta image none entries)

/-! ## A table that stays as it is -/

/-- Does the field of an entry lie outside the bytes from `start` up to `stop`? -/
def Placed.Outside (e : Placed) (family : FixupFamily) (start stop : Nat) : Prop :=
  ∀ site fixup, siteOf? e.page e.entry.offset = some site → Fixup.ofKind? family e.entry.kind = some fixup →
    fixup ≠ .nothing → site + fixup.width ≤ start ∨ stop ≤ site

/-- The image has its size and its table as they were. -/
structure Agree (original image : Bytes) (start stop : Nat) : Prop where
  size : image.size = original.size
  bytes : ∀ i, start ≤ i → i < stop → image[i]? = original[i]?

namespace Agree

variable {original image : Bytes} {start stop : Nat}

theorem refl (image : Bytes) (start stop : Nat) : Agree image image start stop := ⟨rfl, fun _ _ _ => rfl⟩

theorem fieldAt? (h : Agree original image start stop) {pos width : Nat} (hs : start ≤ pos) (hle : pos + width ≤ stop) :
    image.fieldAt? pos width = original.fieldAt? pos width :=
  Bytes.fieldAt?_congr h.size fun i h1 h2 => h.bytes i (by omega) (by omega)

theorem u16At? (h : Agree original image start stop) {pos : Nat} (hs : start ≤ pos) (hle : pos + 2 ≤ stop) :
    image.u16At? pos = original.u16At? pos := by
  rw [Bytes.u16At?, Bytes.u16At?, h.fieldAt? hs hle]

theorem u32At? (h : Agree original image start stop) {pos : Nat} (hs : start ≤ pos) (hle : pos + 4 ≤ stop) :
    image.u32At? pos = original.u32At? pos := by
  rw [Bytes.u32At?, Bytes.u32At?, h.fieldAt? hs hle]

theorem overwrite (h : Agree original image start stop) {site : Nat} {bytes : Bytes}
    (hout : site + bytes.size ≤ start ∨ stop ≤ site) :
    Agree original (image.overwrite site bytes) start stop := by
  refine ⟨by rw [Bytes.size_overwrite, h.size], fun i h1 h2 => ?_⟩
  rw [Bytes.getElem?_overwrite, if_neg (by omega), h.bytes i h1 h2]

theorem applyAll (h : Agree original image start stop) {ps : List Patch}
    (hout : ∀ p ∈ ps, p.site + p.bytes.size ≤ start ∨ stop ≤ p.site) :
    Agree original (Patch.applyAll image ps) start stop := by
  unfold Patch.applyAll
  induction ps generalizing image with
  | nil => exact h
  | cons p ps ih =>
    rw [List.foldl_cons]
    rw [List.forall_mem_cons] at hout
    exact ih (h.overwrite hout.1) hout.2

end Agree

/-! ## One block -/

section Walk

variable {family : FixupFamily} {delta : UInt64} {page : UInt32} {original image : Bytes} {start stop : Nat}

theorem Placed.apply_sameBlock (e : Placed) (family : FixupFamily) (delta : UInt64) (image : Bytes)
    (pending : Option Nat) :
    e.apply family delta image (pending.map (e.block, ·)) =
      (e.entry.patches image family delta e.page e.pos pending).map fun r =>
        (Patch.applyAll image r.1, r.2.map (e.block, ·)) := by
  have hfilter : (pending.map (e.block, ·)).filter (·.1 != e.block) = none := by
    cases pending with
    | none => rfl
    | some s => simp
  have hmap : (pending.map (e.block, ·)).map (·.2) = pending := by
    cases pending with
    | none => rfl
    | some s => rfl
  rw [apply, hfilter, hmap]
  cases e.entry.patches image family delta e.page e.pos pending with
  | error f => rfl
  | ok r => rfl

/-- What an entry outside the table writes leaves the table alone, and so does what it leaves waiting. -/
theorem Placed.apply_agree {e : Placed} {pending : Option Nat} (ha : Agree original image start stop)
    (hpend : ∀ s, pending = some s → s + 4 ≤ image.size ∧ (s + 4 ≤ start ∨ stop ≤ s))
    (hout : e.Outside family start stop) {ps : List Patch} {left : Option Nat}
    (h : e.entry.patches image family delta e.page e.pos pending = .ok (ps, left)) :
    Agree original (Patch.applyAll image ps) start stop ∧
      ∀ s, left = some s → s + 4 ≤ (Patch.applyAll image ps).size ∧ (s + 4 ≤ start ∨ stop ≤ s) := by
  have hhigh : ∀ s, pending = some s → s + 4 ≤ image.size := fun s hs => (hpend s hs).1
  cases hf : e.entry.fault? image.size family e.page e.pos pending.isSome with
  | some f =>
    rw [Entry.patches_of_fault hhigh hf] at h
    cases h
  | none =>
    obtain ⟨site, fixup, ps', hs, hk, -, hfits, hps, hwithin⟩ := Entry.patches_of_sound delta hhigh hf
    rw [h] at hps
    cases hps
    constructor
    · refine ha.applyAll fun p hp => ?_
      rcases hwithin p hp with ⟨hn, h1, h2⟩ | ⟨h1, h2⟩
      · rw [h1, h2]
        exact hout site fixup hs hk hn
      · rw [h2]
        exact (hpend p.site h1).2
    · intro s hl
      rw [size_applyAll]
      cases fixup with
      | riscvHigh =>
        cases hl
        exact ⟨hfits.resolve_left (fun h => nomatch h), hout site .riscvHigh hs hk (fun h => nomatch h)⟩
      | _ => cases hl

/-- Walking a block applies its entries as they were before the walk. -/
theorem walkBlock_eq (family : FixupFamily) (delta : UInt64) {block pos last : Nat} {pending : Option Nat}
    (ha : Agree original image start stop) (hs : start ≤ pos) (hle : last ≤ stop) (hfits : stop ≤ original.size)
    (hpend : ∀ s, pending = some s → s + 4 ≤ image.size ∧ (s + 4 ≤ start ∨ stop ≤ s))
    (hout : ∀ e ∈ decodeBlock original block page pos last, e.Outside family start stop) (rest : List Placed) :
    (applyEntries family delta image (pending.map (block, ·)) (decodeBlock original block page pos last ++ rest) =
      match walkBlock family delta page image pos last pending with
      | (image', .error f) => (image', .error f)
      | (image', .ok pending') => applyEntries family delta image' (pending'.map (block, ·)) rest) ∧
    Agree original (walkBlock family delta page image pos last pending).1 start stop := by
  induction hn : last - pos using Nat.strongRecOn generalizing image pos pending with
  | _ n ih =>
  rw [walkBlock]
  rw [decodeBlock] at hout ⊢
  by_cases hpos : pos + 2 ≤ last
  · rw [if_pos hpos] at hout ⊢
    rw [if_pos hpos]
    obtain ⟨word, hw⟩ := Bytes.exists_u16At? (show pos + 2 ≤ original.size by omega)
    rw [hw] at hout ⊢
    rw [step, ha.u16At? hs (by omega), hw]
    dsimp only at hout ⊢
    rw [List.forall_mem_cons] at hout
    rw [List.cons_append, applyEntries]
    have happly := Placed.apply_sameBlock ⟨block, page, pos, .ofWord word⟩ family delta image pending
    dsimp only at happly
    rw [happly]
    cases hp : (Entry.ofWord word).patches image family delta page pos pending with
    | error f => exact ⟨rfl, ha⟩
    | ok r =>
      obtain ⟨ps, left⟩ := r
      obtain ⟨ha', hpend'⟩ := Placed.apply_agree (e := ⟨block, page, pos, .ofWord word⟩) ha hpend hout.1 hp
      exact ih (last - (pos + 2)) (by omega) ha' (by omega) hpend' hout.2 rfl
  · rw [if_neg hpos, if_neg hpos]
    exact ⟨rfl, ha⟩

/-! ## The chain of blocks -/

theorem decodeBlock_block {block pos last : Nat} : ∀ e ∈ decodeBlock image block page pos last, e.block = block := by
  induction hn : last - pos using Nat.strongRecOn generalizing pos with
  | _ n ih =>
  intro e he
  rw [decodeBlock] at he
  split at he
  · split at he
    · rcases List.mem_cons.mp he with rfl | he
      · rfl
      · exact ih (last - (pos + 2)) (by omega) rfl e he
    · exact absurd he List.not_mem_nil
  · exact absurd he List.not_mem_nil

theorem le_decode_block {pos : Nat} : ∀ e ∈ (decode image pos stop).1, pos ≤ e.block := by
  induction hn : stop - pos using Nat.strongRecOn generalizing pos with
  | _ n ih =>
  intro e he
  rw [decode] at he
  split at he
  · split at he
    · exact absurd he List.not_mem_nil
    · split at he
      · split at he
        · exact absurd he List.not_mem_nil
        · rename_i size _ _ hsize
          rw [blockHeaderSize] at hsize
          split at he
          · exact absurd he List.not_mem_nil
          · rcases List.mem_append.mp he with he | he
            · exact Nat.le_of_eq (decodeBlock_block e he).symm
            · have hle := ih (stop - (pos + size.toNat)) (by omega) rfl e he
              omega
      · exact absurd he List.not_mem_nil
  · exact absurd he List.not_mem_nil

/-- An upper immediate that waits at the end of its block is never paired. -/
theorem applyEntries_unpaired {block site : Nat} {ending : Option Fault} {es : List Placed}
    (h : ∀ e ∈ es, block < e.block) :
    finish ending (applyEntries family delta image (some (block, site)) es) = (image, .error (.highUnpaired block)) := by
  cases es with
  | nil => rfl
  | cons e es =>
    have hne : (block != e.block) = true := bne_iff_ne.mpr (Nat.ne_of_lt (h e List.mem_cons_self))
    rw [applyEntries, Placed.apply, Option.filter_some, if_pos hne]
    rfl

/-- Walking the table applies the entries of the whole chain as they were before the walk. -/
theorem walkTable_eq (delta : UInt64) {pos : Nat} (ha : Agree original image start stop) (hs : start ≤ pos)
    (hfits : stop ≤ original.size) (hout : ∀ e ∈ (decode original pos stop).1, e.Outside family start stop) :
    walkTable family delta image pos stop =
      finish (decode original pos stop).2 (applyEntries family delta image none (decode original pos stop).1) := by
  induction hn : stop - pos using Nat.strongRecOn generalizing image pos with
  | _ n ih =>
  rw [walkTable]
  rw [decode] at hout ⊢
  by_cases hpos : pos < stop
  · rw [if_pos hpos] at hout ⊢
    by_cases hroom : stop - pos < blockHeaderSize
    · rw [if_pos hroom, if_pos hpos, if_pos hroom]
      rfl
    · rw [if_neg hroom] at hout ⊢
      rw [if_pos hpos, if_neg hroom]
      rw [blockHeaderSize] at hroom
      obtain ⟨page, hpage⟩ := Bytes.exists_u32At? (show pos + 4 ≤ original.size by omega)
      obtain ⟨size, hsize⟩ := Bytes.exists_u32At? (show pos + 4 + 4 ≤ original.size by omega)
      rw [hpage, hsize] at hout ⊢
      rw [ha.u32At? hs (by omega), ha.u32At? (by omega) (by omega), hpage, hsize]
      dsimp only at hout ⊢
      by_cases hsmall : size.toNat < blockHeaderSize
      · rw [if_pos hsmall, if_pos hsmall]
        rfl
      · by_cases hlong : stop < pos + size.toNat
        · rw [if_neg hsmall, if_neg hsmall, if_pos hlong, if_pos hlong]
          rfl
        · rw [if_neg hsmall, if_neg hlong] at hout ⊢
          rw [if_neg hsmall, if_neg hlong]
          rw [blockHeaderSize] at hsmall
          dsimp only at hout ⊢
          rw [List.forall_mem_append] at hout
          have hnone : ∀ s, (none : Option Nat) = some s → s + 4 ≤ image.size ∧ (s + 4 ≤ start ∨ stop ≤ s) :=
            fun _ h => (nomatch h)
          obtain ⟨hblock, ha'⟩ := walkBlock_eq family delta ha (show start ≤ pos + blockHeaderSize by omega)
            (by omega) hfits hnone hout.1 (decode original (pos + size.toNat) stop).1
          rw [Option.map_none] at hblock
          rw [hblock]
          rcases hw : walkBlock family delta page image (pos + blockHeaderSize) (pos + size.toNat) none with
            ⟨image', f | left⟩
          · rfl
          · rw [hw] at ha'
            dsimp only
            cases left with
            | none => exact ih (stop - (pos + size.toNat)) (by omega) ha' (by omega) hout.2 rfl
            | some s =>
              refine (applyEntries_unpaired fun e he => ?_).symm
              have hle := le_decode_block e he
              omega
  · rw [if_neg hpos, if_neg hpos]
    rfl

end Walk

end NetBoot.Image.Relocation
