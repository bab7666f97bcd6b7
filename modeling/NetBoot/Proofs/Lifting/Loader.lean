/-
  NetBoot.Proofs.Lifting.Loader — what holds of every service, holds of a whole launch.

  Suppose that a property of computations goes through sequences (`Composed`), and that every
  service of a firmware has it, and so have looking at the traps and setting them (`Served`).
  Loading an image, running it and giving it up is put together from nothing else, so it has the
  property too (`Served.loadAndLaunch`). There is one lemma for each function of the loader, and
  none of them knows what the property is or what the firmware does.
-/

import NetBoot.Image.Loader

namespace NetBoot

variable {m : Type → Type} [Monad m]

/-- A property that sequences have when their parts have it. -/
structure Composed (P : {α : Type} → m α → Prop) : Prop where
  pure {α : Type} (a : α) : P (Pure.pure a : m α)
  bind {α β : Type} {x : m α} {f : α → m β} : P x → (∀ a, P (f a)) → P (x >>= f)

/-- A property that every service of the firmware has, and the place of the traps. -/
structure Served (P : {α : Type} → m α → Prop) (fw : Firmware m) (traps : Cell m Image.Traps) : Prop
    extends Composed @P where
  log (r : Log.Record) : P (fw.log r)
  allocatePages (pages : Nat) : P (fw.allocatePages pages)
  freePages (base : Address) (pages : Nat) : P (fw.freePages base pages)
  readMemory (base : Address) (len : Nat) : P (fw.readMemory base len)
  writeMemory (base : Address) (bytes : Bytes) : P (fw.writeMemory base bytes)
  imageHandle : P fw.imageHandle
  loadedImage (handle : Handle) : P (fw.loadedImage handle)
  setLoadedImage (handle : Handle) (record : LoadedImage) : P (fw.setLoadedImage handle record)
  readVariable (name : String) (vendor : Guid) : P (fw.readVariable name vendor)
  verify (image : Bytes) : P (fw.verify image)
  devicePath (handle : Handle) : P (fw.devicePath handle)
  loadImage (parent : Handle) (path : Option DevicePath) (source : Bytes) : P (fw.loadImage parent path source)
  startImage (handle : Handle) : P (fw.startImage handle)
  unloadImage (handle : Handle) : P (fw.unloadImage handle)
  syncCaches (base : Address) (len : Nat) : P (fw.syncCaches base len)
  callEntry (entry : Address) (handle : Handle) : P (fw.callEntry entry handle)
  trapsGet : P traps.get
  trapsSet (t : Image.Traps) : P (traps.set t)

namespace Served

open Image

variable {P : {α : Type} → m α → Prop} {fw : Firmware m} {traps : Cell m Traps} (h : Served @P fw traps)

include h

theorem logAll (rs : List Log.Record) : P (fw.logAll rs) := by
  induction rs with
  | nil => exact h.pure ()
  | cons r rs ih => exact h.bind (h.log r) fun _ => ih

/-! ## Loading -/

theorem select (l : Loader) (raw : Bytes) : P (l.select fw raw) := h.bind (h.logAll _) fun _ => h.pure _

theorem parse (l : Loader) (raw : Bytes) : P (l.parse fw raw) := h.bind (h.logAll _) fun _ => h.pure _

theorem enter (l : Loader) (s : Stage) : P (l.enter fw s) := h.bind (h.log _) fun _ => h.pure _

theorem fail (l : Loader) (e : LoadError) : P (l.fail fw e) := h.bind (h.log _) fun _ => h.enter l _

theorem release (image : MappedImage) : P (image.release fw) := h.bind (h.log _) fun _ => h.freePages _ _

theorem map (raw : Bytes) (header : Header) (config : LoaderConfig) : P (MappedImage.map fw raw header config) := by
  unfold MappedImage.map
  cases Layout.of raw.size header config with
  | error e => exact h.bind (h.logAll _) fun _ => h.pure _
  | ok layout =>
    refine h.bind (h.allocatePages _) fun r => ?_
    cases r with
    | error e => exact h.pure _
    | ok base => exact h.bind (h.writeMemory _ _) fun _ => h.bind (h.logAll _) fun _ => h.pure _

theorem relocate (image : MappedImage) (header : Header) (delta : UInt64) : P (image.relocate fw header delta) := by
  unfold MappedImage.relocate
  cases header.reloc with
  | none => exact h.bind (h.log _) fun _ => h.pure _
  | some table =>
    dsimp only
    split
    · exact h.pure _
    · refine h.bind (h.readMemory _ _) fun memory => ?_
      rcases Relocation.apply memory table delta header.machine.family with ⟨front, fault | ⟨⟨⟩⟩⟩
      · exact h.bind (h.writeMemory _ _) fun _ => h.bind (h.logAll _) fun _ => h.pure _
      · exact h.bind (h.writeMemory _ _) fun _ => h.bind (h.log _) fun _ => h.pure _

theorem mapAndRelocate (l : Loader) (raw : Bytes) (header : Header) : P (l.mapAndRelocate fw raw header) := by
  refine h.bind (h.map _ _ _) fun r => ?_
  cases r with
  | error e => exact h.bind (h.fail l e) fun _ => h.pure _
  | ok image =>
    refine h.bind (h.enter l _) fun l => h.bind (h.relocate _ _ _) fun r => ?_
    cases r with
    | error e => exact h.bind (h.release _) fun _ => h.bind (h.fail l e) fun _ => h.pure _
    | ok u => exact h.bind (h.enter l _) fun _ => h.pure _

theorem load (l : Loader) (raw : Bytes) : P (l.load fw raw) := by
  refine h.bind (h.select l raw) fun r => ?_
  cases r with
  | error e => exact h.bind (h.fail l e) fun _ => h.pure _
  | ok part =>
    refine h.bind (h.parse l part) fun r => ?_
    cases r with
    | error e => exact h.bind (h.fail l e) fun _ => h.pure _
    | ok header => exact h.bind (h.enter l _) fun l => h.bind (h.mapAndRelocate l part header) fun _ => h.pure _

/-! ## Running -/

theorem installIn (handle : Handle) : P (Traps.installIn fw.toJournal traps handle) :=
  h.bind h.trapsGet fun _ => h.bind (h.logAll _) fun _ => h.bind (h.trapsSet _) fun _ => h.pure _

theorem takeIn (token : TrapToken) : P (Traps.takeIn traps token) :=
  h.bind h.trapsGet fun _ => h.bind (h.trapsSet _) fun _ => h.pure _

theorem run (image : MappedImage) (handle : Handle) (saved : LoadedImage) : P (image.run fw traps handle saved) := by
  refine h.bind (h.installIn handle) fun token => h.bind (h.syncCaches _ _) fun _ => h.bind (h.log _) fun _ => ?_
  refine h.bind (h.callEntry _ _) fun returned => h.bind (h.takeIn token) fun _ => h.bind (h.log _) fun _ => ?_
  refine h.bind (h.setLoadedImage _ _) fun r => ?_
  cases r with
  | error e => exact h.bind (h.log _) fun _ => h.pure _
  | ok u => exact h.pure _

theorem launch (image : MappedImage) (context : LaunchContext) : P (launch fw traps image context) := by
  refine h.bind (h.loadedImage _) fun r => ?_
  cases r with
  | error e => exact h.bind (h.log _) fun _ => h.bind (h.release _) fun _ => h.pure _
  | ok saved =>
    refine h.bind (h.setLoadedImage _ _) fun r => ?_
    cases r with
    | error e => exact h.bind (h.log _) fun _ => h.bind (h.release _) fun _ => h.pure _
    | ok u => exact h.bind (h.run image _ saved) fun _ => h.bind (h.release _) fun _ => h.pure _

/-! ## By the firmware -/

theorem mustValidate (l : Loader) : P (l.mustValidate fw) := by
  unfold Loader.mustValidate
  split
  · exact h.pure _
  · exact h.bind (h.readVariable _ _) fun _ => h.bind (h.readVariable _ _) fun _ => h.bind (h.log _) fun _ => h.pure _

theorem validate (image : Bytes) : P (Secure.validate fw image) :=
  h.bind (h.verify _) fun _ => h.bind (h.log _) fun _ => h.pure _

theorem prepare (handle : Handle) (context : LaunchContext) : P (Loader.prepare fw handle context) := by
  refine h.bind (h.loadedImage _) fun r => ?_
  cases r with
  | error e => exact h.pure _
  | ok record =>
    refine h.bind (h.setLoadedImage _ _) fun r => ?_
    cases r with
    | error e => exact h.log _
    | ok u => exact h.pure _

theorem runByFirmware (image : Bytes) (context : LaunchContext) : P (Loader.runByFirmware fw image context) := by
  refine h.bind (h.loadImage _ _ _) fun r => ?_
  cases r with
  | error status => exact h.bind (h.log _) fun _ => h.pure _
  | ok handle =>
    exact h.bind (h.prepare handle context) fun _ => h.bind (h.startImage _) fun _ => h.bind (h.log _) fun _ => h.pure _

theorem finish (l : Loader) (result : Except LoadError Exit) : P (l.finish fw result) := by
  cases result with
  | error e => exact h.bind (h.fail l e) fun _ => h.pure _
  | ok exit => exact h.bind (h.enter l _) fun _ => h.pure _

theorem launchValidated (l : Loader) (raw : Bytes) (context : LaunchContext) :
    P (l.launchValidated fw raw context) := by
  refine h.bind (h.select l raw) fun r => ?_
  cases r with
  | error e => exact h.finish l _
  | ok image =>
    refine h.bind (h.validate image) fun r => ?_
    cases r with
    | error e => exact h.finish l _
    | ok u => exact h.bind (h.enter l _) fun l => h.bind (h.runByFirmware image context) fun _ => h.finish l _

/-! ## Whole launches -/

theorem loadAndLaunch (l : Loader) (raw : Bytes) (context : LaunchContext) :
    P (l.loadAndLaunch fw traps raw context) := by
  refine h.bind (h.mustValidate l) fun checked => ?_
  cases checked with
  | true => exact h.launchValidated l raw context
  | false =>
    refine h.bind (h.load l raw) fun loaded => ?_
    obtain ⟨l, e | ⟨header, image⟩⟩ := loaded
    · exact h.pure _
    · exact h.bind (h.enter l _) fun l => h.bind (h.launch image context) fun _ => h.finish l _

end Served

end NetBoot
