/-
  NetBoot.Proofs.Lifting.Machine — what holds of every service of a simulated machine, holds of
  whatever its images do.

  An entry call is seen, takes the next script and plays it; an act of a script may launch another
  image, on a machine with one launch less to go. So a property that goes through sequences and
  holds of each service and of each of these small steps (`Hosted`) holds of entry calls, by
  induction on how deep launches may nest (`Hosted.callEntry`).
-/

import NetBoot.Proofs.Image.Errands
import NetBoot.Proofs.Lifting.Loader

namespace NetBoot.Sim

open Image (runScript_eq takeScript)

/-! ## The steps of an entry call -/

/-- An entry call is seen. -/
def announce (entry : Address) (handle : Handle) : Sim Unit := do
  let w ← get
  emit (.callEntry entry handle (w.records.find? handle) (w.imageMemory? handle) (w.traps.isInstalled handle))

/-- An entry call comes back. -/
def comeBack (entry : Address) (handle : Handle) : Sim Status := do
  modify fun w => { w with
    entryCalls := w.entryCalls ++ [(entry, handle)]
    recordsAtEntry := w.recordsAtEntry ++ [(w.records.find? ownHandle).getD {}] }
  return (← get).entryStatus

theorem callEntry_eq (launch : Handle → Bytes → Sim (Except Image.LoadError Exit)) (entry : Address)
    (handle : Handle) :
    Sim.callEntry launch entry handle = (do announce entry handle; runScript launch; comeBack entry handle) := rfl

/-- A property of each service of the machine, and of each step of an entry call. -/
structure Hosted (P : {α : Type} → Sim α → Prop) : Prop extends Composed @P where
  log (r : Log.Record) : P (keepLog r)
  allocatePages (pages : Nat) : P (allocatePages pages)
  freePages (base : Address) (pages : Nat) : P (freePages base pages)
  readMemory (base : Address) (len : Nat) : P ((machine 0).readMemory base len)
  writeMemory (base : Address) (bytes : Bytes) : P ((machine 0).writeMemory base bytes)
  loadedImage (handle : Handle) : P (loadedImage handle)
  setLoadedImage (handle : Handle) (record : LoadedImage) : P (setLoadedImage handle record)
  readVariable (name : String) (vendor : Guid) : P ((machine 0).readVariable name vendor)
  verify (image : Bytes) : P (verify image)
  devicePath (handle : Handle) : P ((machine 0).devicePath handle)
  loadImage (parent : Handle) (path : Option DevicePath) (source : Bytes) : P (loadImage parent path source)
  startImage (handle : Handle) : P (startImage handle)
  unloadImage (handle : Handle) : P (unloadImage handle)
  syncCaches (base : Address) (len : Nat) : P ((machine 0).syncCaches base len)
  trapsGet : P trapsCell.get
  trapsSet (t : Image.Traps) : P (trapsCell.set t)
  announce (entry : Address) (handle : Handle) : P (announce entry handle)
  takeScript : P takeScript
  act (reply : Reply) : P (emit (.act reply))
  setStatus (status : Status) : P (modify fun w => { w with entryStatus := status } : Sim Unit)
  comeBack (entry : Address) (handle : Handle) : P (comeBack entry handle)

namespace Hosted

variable {P : {α : Type} → Sim α → Prop} (h : Hosted @P) {n : Nat}

include h

theorem served (hc : ∀ entry handle, P ((machine n).callEntry entry handle)) :
    Served @P (machine n).toFirmware trapsCell := by
  rw [machine_toFirmware]
  exact { h with imageHandle := h.pure ownHandle, callEntry := hc }

section Scripts

variable {launch : Handle → Bytes → Sim (Except Image.LoadError Exit)}
  (hl : ∀ handle image, P (launch handle image))

include hl

theorem performAct (act : Act) : P (perform launch act) := by
  cases act with
  | exit handle exit =>
    refine h.bind (h.bind h.trapsGet fun t => ?_) fun _ => h.act _
    have hnotes : P (Journal.logAll ⟨keepLog⟩ (t.exitNotes handle exit)) := by
      generalize t.exitNotes handle exit = rs
      induction rs with
      | nil => exact h.pure ()
      | cons r rs ih => exact h.bind (h.log r) fun _ => ih
    exact h.bind hnotes fun _ => h.bind (h.trapsSet _) fun _ => h.pure _
  | unload handle => exact h.bind h.trapsGet fun _ => h.act _
  | launch handle image => exact h.bind (hl handle image) fun _ => h.act _

theorem performAll (acts : List Act) : P (Sim.performAll launch acts) := by
  induction acts with
  | nil => exact h.pure ()
  | cons act acts ih => exact h.bind (h.performAct hl act) fun _ => ih

theorem callEntryWith (entry : Address) (handle : Handle) : P (Sim.callEntry launch entry handle) := by
  rw [callEntry_eq, runScript_eq]
  refine h.bind (h.announce entry handle) fun _ => h.bind (h.bind h.takeScript fun script => ?_) fun _ => h.comeBack _ _
  cases script with
  | none => exact h.pure ()
  | some script => exact h.bind (h.performAll hl script.acts) fun _ => h.setStatus _

end Scripts

/-- Whatever the images do, to any depth. -/
theorem callEntry (n : Nat) (entry : Address) (handle : Handle) : P ((machine n).callEntry entry handle) := by
  induction n generalizing entry handle with
  | zero => exact h.callEntryWith (fun _ _ => h.pure _) entry handle
  | succ n ih =>
    refine h.callEntryWith (fun handle image => ?_) entry handle
    exact h.bind ((h.served ih).loadAndLaunch {} image (.onHandle handle)) fun _ => h.pure _

theorem machine (n : Nat) : Served @P (machine n).toFirmware trapsCell := h.served (h.callEntry n)

end Hosted

end NetBoot.Sim
