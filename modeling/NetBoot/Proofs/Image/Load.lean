/-
  NetBoot.Proofs.Image.Load — what a loader does on a simulated machine until the image stands ready.

  Selecting, parsing and entering a stage write notes and nothing else. Mapping takes pages and
  writes the image into them; relocating rewrites the image where it lies. `load_eq_ok` puts the
  stages together: an image that `load` gives was selected, parsed, mapped and relocated to its end,
  and its memory holds exactly what that makes of the file (`Layout.relocated?`). Until then nothing
  outside the memory, the allocations and the log has changed.
-/

import NetBoot.Proofs.Image.Layout
import NetBoot.Proofs.Sim.Services

namespace NetBoot.Image

open Sim

/-- The memory of an image that is mapped and then relocated by `delta`; none unless every fixup of
    its table could be applied. -/
def Layout.relocated? (raw : Bytes) (header : Header) (size : Nat) (delta : UInt64) : Option Bytes :=
  let mapped := Layout.contents raw header size
  match header.reloc with
  | none => some mapped
  | some table =>
    match Relocation.apply (mapped.extract 0 header.imageSize.toNat) table delta header.machine.family with
    | (front, .ok ()) => some (mapped.overwrite 0 front)
    | (_, .error _) => none

variable {n : Nat} {w w' : World}

/-! ## Stages that only take notes -/

namespace Loader

theorem silent_select (l : Loader) (raw : Bytes) :
    Silent (l.select (machine n).toFirmware raw) ((Fat.select raw l.config.machine).map (·.apply raw)) := by
  rw [select, machine_toJournal]
  exact .bind (.notes _) (.pure _)

theorem silent_parse (l : Loader) (raw : Bytes) :
    Silent (l.parse (machine n).toFirmware raw) (Header.parse raw l.config) := by
  rw [parse, machine_toJournal]
  exact .bind (.notes _) (.pure _)

theorem silent_enter (l : Loader) (s : Stage) : Silent (l.enter (machine n).toFirmware s) (l.withStage s) := by
  rw [enter, machine_toJournal]
  exact .bind (.note _) (.pure _)

theorem silent_fail (l : Loader) (e : LoadError) :
    Silent (l.fail (machine n).toFirmware e) (l.withStage .unloaded) := by
  rw [fail, machine_toJournal]
  exact .bind (.note _) (l.silent_enter _)

end Loader

/-! ## Mapping and relocating -/

/-- Nothing has changed but memory, its allocations, the log and the events. -/
def SameButMemory (w w' : World) : Prop :=
  ∃ memory allocations allocationCount log events,
    w' = { w with memory, allocations, allocationCount, log, events }

theorem SameButMemory.ordered : Ordered SameButMemory where
  refl w := ⟨_, _, _, _, _, rfl⟩
  trans := by
    rintro w _ _ ⟨_, _, _, _, _, rfl⟩ ⟨_, _, _, _, _, rfl⟩
    exact ⟨_, _, _, _, _, rfl⟩

namespace MappedImage

/-- A mapped image lies in fresh pages, which hold its contents. -/
theorem map_eq_ok {raw : Bytes} {header : Header} {config : LoaderConfig} {image : MappedImage}
    (hp : config.pageSize = pageSize) (h : map (machine n).toFirmware raw header config w = .ok (.ok image) w') :
    ∃ layout, Layout.of raw.size header config = .ok layout ∧
      w.memory.next.toNat + layout.pages * pageSize ≤ memoryEnd.toNat ∧
      image = ofAllocation w.memory.next layout header ∧
      w'.memory.start ≤ image.base ∧
      w'.memory.bytesAt image.base image.size = Layout.contents raw header image.size ∧
      SameButMemory w w' := by
  unfold map at h
  cases hl : Layout.of raw.size header config with
  | error e =>
    rw [hl] at h
    dsimp only at h
    rw [machine_toJournal] at h
    obtain ⟨log, h⟩ := (Silent.notes _).bind_eq_ok h
    cases h
  | ok layout =>
    rw [hl] at h
    dsimp only at h
    rw [machine_allocatePages] at h
    rcases allocatePages_run layout.pages w with ⟨e, -, hr⟩ | ⟨base, memory, ht, log, hr⟩
    · rw [bind_of_ok hr] at h
      cases h
    · obtain ⟨rfl, hstart, hend⟩ := takePages_eq_ok ht
      rw [bind_of_ok hr] at h
      dsimp only at h
      rw [bind_of_ok (writeMemory_run _ _ _ _), machine_toJournal] at h
      obtain ⟨log', h⟩ := (Silent.notes _).bind_eq_ok h
      cases h
      have hs := Layout.sound_of_eq_ok hp hl
      have hlt := hs.alignment_lt
      have hm : memoryEnd.toNat + UInt32.size < UInt64.size := by decide
      have hle := (le_base hs (show w.memory.next.toNat + layout.alignment ≤ UInt64.size by omega)).1
      have hb : memory.start ≤ (ofAllocation w.memory.next layout header).base := by
        rw [hstart]
        exact UInt64.le_trans w.memory.start_le_next (UInt64.le_iff_toNat_le.mpr hle)
      refine ⟨layout, rfl, hend, rfl, hb, ?_, ⟨_, _, _, _, _, rfl⟩⟩
      refine (Memory.bytesAt_write hb _ _).trans (Bytes.overwrite_all ?_)
      rw [Layout.size_contents, Memory.size_bytesAt]
      rfl

/-- A relocation that succeeds makes of a mapped image the relocated one. -/
theorem relocate_eq_ok {image : MappedImage} {raw : Bytes} {header : Header} {delta : UInt64}
    (hb : w.memory.start ≤ image.base)
    (hm : w.memory.bytesAt image.base image.size = Layout.contents raw header image.size)
    (h : image.relocate (machine n).toFirmware header delta w = .ok (.ok ()) w') :
    Layout.relocated? raw header image.size delta = some (w'.memory.bytesAt image.base image.size) ∧
      SameButMemory w w' := by
  unfold relocate at h
  cases ht : header.reloc with
  | none =>
    rw [ht] at h
    dsimp only [Journal.debug] at h
    rw [machine_toJournal] at h
    obtain ⟨log, h⟩ := (Silent.note _).bind_eq_ok h
    cases h
    refine ⟨?_, ⟨_, _, _, _, _, rfl⟩⟩
    rw [Layout.relocated?, ht]
    exact congrArg some hm.symm
  | some table =>
    rw [ht] at h
    dsimp only at h
    by_cases hsize : image.size < header.imageSize.toNat
    · rw [if_pos hsize] at h
      cases h
    · rw [if_neg hsize, bind_of_ok (readMemory_run _ _ _ _)] at h
      have hfront := Memory.bytesAt_extract hb (show header.imageSize.toNat ≤ image.size by omega)
      rw [hm] at hfront
      rw [Layout.relocated?, ht, hfront]
      dsimp only
      rcases hr : Relocation.apply (w.memory.bytesAt image.base header.imageSize.toNat) table delta
        header.machine.family with ⟨front, fault | ⟨⟨⟩⟩⟩
      · rw [hr] at h
        dsimp only at h
        rw [bind_of_ok (writeMemory_run _ _ _ _), machine_toJournal] at h
        obtain ⟨log, h⟩ := (Silent.notes _).bind_eq_ok h
        cases h
      · rw [hr] at h
        dsimp only [Journal.debug] at h
        rw [bind_of_ok (writeMemory_run _ _ _ _), machine_toJournal] at h
        obtain ⟨log, h⟩ := (Silent.note _).bind_eq_ok h
        cases h
        refine ⟨?_, ⟨_, _, _, _, _, rfl⟩⟩
        rw [← hm]
        exact congrArg some (Memory.bytesAt_write hb _ _).symm

end MappedImage

namespace Loader

/-- An image that is loaded went through every stage, and nothing but memory has changed. -/
theorem load_eq_ok {l l' : Loader} {raw : Bytes} {header : Header} {image : MappedImage}
    (hp : l.config.pageSize = pageSize)
    (h : l.load (machine n).toFirmware raw w = .ok (l', .ok (header, image)) w') :
    ∃ selection layout, Fat.select raw l.config.machine = .ok selection ∧
      Header.parse (selection.apply raw) l.config = .ok header ∧
      Layout.of (selection.apply raw).size header l.config = .ok layout ∧
      w.memory.next.toNat + layout.pages * pageSize ≤ memoryEnd.toNat ∧
      image = MappedImage.ofAllocation w.memory.next layout header ∧
      Layout.relocated? (selection.apply raw) header image.size (image.loadDelta header) =
        some (w'.memory.bytesAt image.base image.size) ∧
      SameButMemory w w' := by
  unfold load at h
  obtain ⟨log₁, h⟩ := (l.silent_select raw).bind_eq_ok h
  cases hs : Fat.select raw l.config.machine with
  | error e =>
    rw [hs] at h
    obtain ⟨log₂, h⟩ := (l.silent_fail e).bind_eq_ok h
    cases h
  | ok selection =>
    rw [hs] at h
    dsimp only [Except.map] at h
    obtain ⟨log₂, h⟩ := (l.silent_parse _).bind_eq_ok h
    cases hh : Header.parse (selection.apply raw) l.config with
    | error e =>
      rw [hh] at h
      obtain ⟨log₃, h⟩ := (l.silent_fail e).bind_eq_ok h
      cases h
    | ok header' =>
      rw [hh] at h
      obtain ⟨log₃, h⟩ := (l.silent_enter .headerParsed).bind_eq_ok h
      obtain ⟨⟨l₂, mapped⟩, w₂, h₂, h⟩ := bind_eq_ok_iff.mp h
      unfold mapAndRelocate at h₂
      obtain ⟨mapped', w₃, h₃, h₂⟩ := bind_eq_ok_iff.mp h₂
      cases mapped' with
      | error e =>
        obtain ⟨log₄, h₂⟩ := (silent_fail _ e).bind_eq_ok h₂
        cases h₂
        cases h
      | ok image' =>
        obtain ⟨log₄, h₂⟩ := (silent_enter _ .mapped).bind_eq_ok h₂
        obtain ⟨relocated, w₄, h₄, h₂⟩ := bind_eq_ok_iff.mp h₂
        cases relocated with
        | error e =>
          obtain ⟨_, w₅, -, h₂⟩ := bind_eq_ok_iff.mp h₂
          obtain ⟨log₅, h₂⟩ := (silent_fail _ e).bind_eq_ok h₂
          cases h₂
          cases h
        | ok u =>
          obtain ⟨log₅, h₂⟩ := (silent_enter _ .relocated).bind_eq_ok h₂
          cases h₂
          cases h
          obtain ⟨layout, hl, hend, rfl, hb, hc, hm⟩ := MappedImage.map_eq_ok hp h₃
          obtain ⟨hrel, hm'⟩ := MappedImage.relocate_eq_ok (w := { w₃ with log := log₄ }) hb hc h₄
          refine ⟨selection, layout, rfl, hh, hl, hend, rfl, hrel, ?_⟩
          obtain ⟨_, _, _, _, _, rfl⟩ := hm
          obtain ⟨_, _, _, _, _, rfl⟩ := hm'
          exact ⟨_, _, _, _, _, rfl⟩

end Loader

/-! ## What loading keeps -/

/-- What every step of loading keeps, a whole load keeps. -/
structure LoadSteps (R : World → World → Prop) : Prop extends Ordered R where
  log (w : World) (log : Array String) : R w { w with log }
  memory (w : World) (memory : Memory) : R w { w with memory }
  allocate (pages : Nat) : Keeps R (allocatePages pages)
  free (base : Address) (pages : Nat) : Keeps R (freePages base pages)

/-- Loading notes requests for pages, and returns of them. -/
theorem LoadSteps.emits {P : Event → Prop} (ha : ∀ pages r, P (.allocatePages pages r))
    (hf : ∀ base pages, P (.freePages base pages)) : LoadSteps (Emits P) where
  toOrdered := Emits.ordered P
  log _ _ := .of_eq rfl
  memory _ _ := .of_eq rfl
  allocate _ := emits_allocatePages fun _ => ha _ _
  free _ _ := emits_freePages (hf _ _)

namespace LoadSteps

variable {R : World → World → Prop} (hR : LoadSteps R)

include hR

theorem write (base : Address) (bytes : Bytes) : Keeps R ((machine n).writeMemory base bytes) :=
  .of_run fun w => ⟨(), _, writeMemory_run n base bytes w, hR.memory w _⟩

theorem read (base : Address) (len : Nat) : Keeps R ((machine n).readMemory base len) :=
  .of_run fun w => ⟨_, w, readMemory_run n base len w, hR.refl w⟩

theorem release (image : MappedImage) : Keeps R (image.release (machine n).toFirmware) := by
  unfold MappedImage.release Journal.trace
  rw [machine_toJournal, machine_freePages]
  exact .bind hR.toOrdered (.silent hR.log (.note _)) fun _ => hR.free _ _

theorem map (raw : Bytes) (header : Header) (config : LoaderConfig) :
    Keeps R (MappedImage.map (machine n).toFirmware raw header config) := by
  unfold MappedImage.map
  rw [machine_toJournal, machine_allocatePages]
  cases Layout.of raw.size header config with
  | error e => exact .silent hR.log (.bind (.notes _) (.pure _))
  | ok layout =>
    refine .bind hR.toOrdered (hR.allocate _) fun r => ?_
    cases r with
    | error e => exact .pure hR.toOrdered _
    | ok base =>
      exact .bind hR.toOrdered (hR.write _ _) fun _ => .silent hR.log (.bind (.notes _) (.pure _))

theorem relocate (image : MappedImage) (header : Header) (delta : UInt64) :
    Keeps R (image.relocate (machine n).toFirmware header delta) := by
  unfold MappedImage.relocate Journal.debug
  rw [machine_toJournal]
  cases header.reloc with
  | none => exact .silent hR.log (.bind (.note _) (.pure _))
  | some table =>
    dsimp only
    split
    · exact .pure hR.toOrdered _
    · refine .bind hR.toOrdered (hR.read _ _) fun memory => ?_
      rcases Relocation.apply memory table delta header.machine.family with ⟨front, fault | ⟨⟨⟩⟩⟩
      · exact .bind hR.toOrdered (hR.write _ _) fun _ => .silent hR.log (.bind (.notes _) (.pure _))
      · exact .bind hR.toOrdered (hR.write _ _) fun _ => .silent hR.log (.bind (.note _) (.pure _))

theorem mapAndRelocate (l : Loader) (raw : Bytes) (header : Header) :
    Keeps R (l.mapAndRelocate (machine n).toFirmware raw header) := by
  unfold Loader.mapAndRelocate
  refine .bind hR.toOrdered (hR.map _ _ _) fun r => ?_
  cases r with
  | error e => exact .silent hR.log (.bind (l.silent_fail e) (.pure _))
  | ok image =>
    refine .bind hR.toOrdered (.silent hR.log (l.silent_enter _)) fun l => ?_
    refine .bind hR.toOrdered (hR.relocate _ _ _) fun r => ?_
    cases r with
    | error e =>
      exact .bind hR.toOrdered (hR.release _) fun _ => .silent hR.log (.bind (l.silent_fail e) (.pure _))
    | ok u => exact .silent hR.log (.bind (l.silent_enter _) (.pure _))

theorem load (l : Loader) (raw : Bytes) : Keeps R (l.load (machine n).toFirmware raw) := by
  unfold Loader.load
  refine .bind hR.toOrdered (.silent hR.log (l.silent_select raw)) fun r => ?_
  cases r with
  | error e => exact .silent hR.log (.bind (l.silent_fail e) (.pure _))
  | ok part =>
    refine .bind hR.toOrdered (.silent hR.log (l.silent_parse part)) fun r => ?_
    cases r with
    | error e => exact .silent hR.log (.bind (l.silent_fail e) (.pure _))
    | ok header =>
      refine .bind hR.toOrdered (.silent hR.log (l.silent_enter _)) fun l => ?_
      exact .bind hR.toOrdered (hR.mapAndRelocate l part header) fun _ => .pure hR.toOrdered _

end LoadSteps

end NetBoot.Image
