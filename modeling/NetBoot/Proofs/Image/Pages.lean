/-
  NetBoot.Proofs.Image.Pages — the pages of an image, from stage to stage.

  A mapped image holds the run of pages that it lies in. Mapping takes one, and whatever fails behind
  it gives it back, so a load ends holding the pages of its image or none; a launch begins with those
  of its image, keeps them until its image has come back, and gives them back on every way out. A
  validated launch takes no pages of its own.
-/

import NetBoot.Proofs.Sim.Ledger
import NetBoot.Proofs.Image.Launching
import NetBoot.Proofs.Image.Validation

namespace NetBoot.Image

open Sim

/-- The pages that an image lies in. -/
def MappedImage.pageRun (image : MappedImage) : PageRun := (image.allocation, image.pages)

/-- The pages of an image, if there is one. -/
def pagesOf {ε : Type} : Except ε MappedImage → List PageRun
  | .ok image => [image.pageRun]
  | .error _ => []

variable {α β : Type} {w : World} {held : List PageRun}

/-! ## Services that leave pages alone -/

namespace SamePages

theorem silent {x : Sim α} {a : α} (hx : Silent x a) : Total SamePages x :=
  .silent (fun _ _ => ⟨rfl, rfl, .of_eq rfl⟩) hx

theorem bind {x : Sim α} {f : α → Sim β} (hx : Total SamePages x) (hf : ∀ a, Total SamePages (f a)) :
    Total SamePages (x >>= f) := .bind SamePages.ordered hx hf

theorem pure (a : α) : Total SamePages (Pure.pure a : Sim α) := .pure SamePages.ordered a

theorem write (base : Address) (bytes : Bytes) : Total SamePages ((machine 0).writeMemory base bytes) :=
  fun w => ⟨(), _, writeMemory_run 0 base bytes w, rfl, rfl, .of_eq rfl⟩

theorem read (base : Address) (len : Nat) : Total SamePages ((machine 0).readMemory base len) :=
  fun w => ⟨_, w, readMemory_run 0 base len w, SamePages.ordered.refl w⟩

theorem syncCaches (base : Address) (len : Nat) : Total SamePages ((machine 0).syncCaches base len) :=
  fun w => ⟨(), _, syncCaches_run 0 base len w, rfl, rfl, .of_push rfl ⟨rfl, rfl⟩⟩

theorem query (handle : Handle) : Total SamePages (loadedImage handle) :=
  fun w => ⟨_, w, loadedImage_run handle w, SamePages.ordered.refl w⟩

theorem update (handle : Handle) (record : LoadedImage) : Total SamePages (setLoadedImage handle record) := by
  intro w
  rcases setLoadedImage_run handle record w with ⟨e, h⟩ | h
  · exact ⟨_, _, h, rfl, rfl, .of_push rfl ⟨rfl, rfl⟩⟩
  · exact ⟨_, _, h, rfl, rfl, .of_push rfl ⟨rfl, rfl⟩⟩

theorem install (handle : Handle) : Total SamePages (Traps.installIn ⟨keepLog⟩ trapsCell handle) := by
  intro w
  obtain ⟨log, h⟩ := installIn_run handle w
  exact ⟨_, _, h, rfl, rfl, .of_eq rfl⟩

theorem take (token : TrapToken) : Total SamePages (Traps.takeIn trapsCell token) :=
  fun w => ⟨_, _, takeIn_run token w, rfl, rfl, .of_eq rfl⟩

theorem verify (image : Bytes) : Total SamePages (Sim.verify image) := by
  intro w
  unfold Sim.verify judge
  rw [bind_assoc, get_bind]
  split
  · exact ⟨_, _, rfl, rfl, rfl, .of_push rfl ⟨rfl, rfl⟩⟩
  · exact ⟨_, _, rfl, rfl, rfl, .of_push rfl ⟨rfl, rfl⟩⟩
  · exact ⟨_, _, rfl, rfl, rfl, .of_push rfl ⟨rfl, rfl⟩⟩

theorem loadImage (parent : Handle) (path : Option DevicePath) (source : Bytes) :
    Total SamePages (Sim.loadImage parent path source) := by
  intro w
  rw [Sim.loadImage, get_bind]
  cases w.loadImageError with
  | some status => exact ⟨_, _, rfl, rfl, rfl, .of_push rfl ⟨rfl, rfl⟩⟩
  | none => exact ⟨_, _, rfl, rfl, rfl, .of_push rfl ⟨rfl, rfl⟩⟩

theorem startImage (handle : Handle) : Total SamePages (Sim.startImage handle) :=
  fun _ => ⟨_, _, rfl, rfl, rfl, .of_push rfl ⟨rfl, rfl⟩⟩

end SamePages

/-! ## Loading -/

namespace MappedImage

theorem same_pages_relocate (image : MappedImage) (header : Header) (delta : UInt64) :
    Total SamePages (image.relocate (machine 0).toFirmware header delta) := by
  unfold relocate Journal.debug
  rw [machine_toJournal]
  cases header.reloc with
  | none => exact SamePages.silent (.bind (.note _) (.pure _))
  | some table =>
    dsimp only
    split
    · exact SamePages.pure _
    · refine SamePages.bind (SamePages.read _ _) fun memory => ?_
      rcases Relocation.apply memory table delta header.machine.family with ⟨front, fault | ⟨⟨⟩⟩⟩
      · exact SamePages.bind (SamePages.write _ _) fun _ => SamePages.silent (.bind (.notes _) (.pure _))
      · exact SamePages.bind (SamePages.write _ _) fun _ => SamePages.silent (.bind (.note _) (.pure _))

theorem books_map (raw : Bytes) (header : Header) (config : LoaderConfig) :
    Books w held (map (machine 0).toFirmware raw header config) fun r => pagesOf r ++ held := by
  unfold map
  rw [machine_toJournal, machine_allocatePages]
  cases Layout.of raw.size header config with
  | error e => exact .bind (.quiet (SamePages.silent (.notes _))) fun _ => .pure _ rfl
  | ok layout =>
    refine .bind (.allocate _) fun r => ?_
    cases r with
    | error e => exact .pure _ rfl
    | ok base =>
      refine .bind (.quiet (SamePages.write _ _)) fun _ => ?_
      exact .bind (.quiet (SamePages.silent (.notes _))) fun _ => .pure _ rfl

theorem books_release (image : MappedImage) :
    Books w (image.pageRun :: held) (image.release (machine 0).toFirmware) fun _ => held := by
  unfold release Journal.trace
  rw [machine_toJournal, machine_freePages]
  exact .bind (.quiet (SamePages.silent (.note _))) fun _ => .free image.pageRun

end MappedImage

namespace Loader

theorem books_mapAndRelocate (l : Loader) (raw : Bytes) (header : Header) :
    Books w held (l.mapAndRelocate (machine 0).toFirmware raw header) fun r => pagesOf r.2 ++ held := by
  unfold mapAndRelocate
  refine .bind (MappedImage.books_map _ _ _) fun r => ?_
  cases r with
  | error e => exact .bind (.quiet (SamePages.silent (l.silent_fail e))) fun _ => .pure _ rfl
  | ok image =>
    refine .bind (.quiet (SamePages.silent (l.silent_enter _))) fun l => ?_
    refine .bind (.quiet (image.same_pages_relocate _ _)) fun r => ?_
    cases r with
    | error e =>
      refine .bind image.books_release fun _ => ?_
      exact .bind (.quiet (SamePages.silent (l.silent_fail e))) fun _ => .pure _ rfl
    | ok u => exact .bind (.quiet (SamePages.silent (l.silent_enter _))) fun _ => .pure _ rfl

/-- A load ends with the pages of its image, or with none. -/
theorem books_load (l : Loader) (raw : Bytes) :
    Books w held (l.load (machine 0).toFirmware raw) fun r => pagesOf (r.2.map (·.2)) ++ held := by
  unfold load
  refine .bind (.quiet (SamePages.silent (l.silent_select raw))) fun r => ?_
  cases r with
  | error e => exact .bind (.quiet (SamePages.silent (l.silent_fail e))) fun _ => .pure _ rfl
  | ok part =>
    refine .bind (.quiet (SamePages.silent (l.silent_parse part))) fun r => ?_
    cases r with
    | error e => exact .bind (.quiet (SamePages.silent (l.silent_fail e))) fun _ => .pure _ rfl
    | ok header =>
      refine .bind (.quiet (SamePages.silent (l.silent_enter _))) fun l => ?_
      refine .bind (l.books_mapAndRelocate _ _) fun r => ?_
      obtain ⟨l, e | image⟩ := r
      · exact .pure _ rfl
      · exact .pure _ rfl

/-! ## Launching -/

theorem same_pages_mustValidate (l : Loader) : Total SamePages (l.mustValidate (machine 0).toFirmware) := by
  intro w
  obtain ⟨log, h⟩ := l.mustValidate_run (n := 0) w
  exact ⟨_, _, h, rfl, rfl, .of_eq rfl⟩

theorem same_pages_finish (l : Loader) (result : Except LoadError Exit) :
    Total SamePages (l.finish (machine 0).toFirmware result) := by
  obtain ⟨l', h⟩ := l.silent_finish (n := 0) result
  exact SamePages.silent h

theorem same_pages_prepare (handle : Handle) (context : LaunchContext) :
    Total SamePages (prepare (machine 0).toFirmware handle context) := by
  unfold prepare Journal.warn
  rw [machine_toJournal, machine_loadedImage, machine_setLoadedImage]
  refine SamePages.bind (SamePages.query _) fun r => ?_
  cases r with
  | error e => exact SamePages.pure _
  | ok record =>
    refine SamePages.bind (SamePages.update _ _) fun r => ?_
    cases r with
    | error e => exact SamePages.silent (.note _)
    | ok u => exact SamePages.pure _

theorem same_pages_runByFirmware (image : Bytes) (context : LaunchContext) :
    Total SamePages (runByFirmware (machine 0).toFirmware image context) := by
  unfold runByFirmware Journal.error Journal.info
  rw [machine_toJournal, machine_loadImage, machine_startImage]
  refine SamePages.bind (SamePages.loadImage _ _ _) fun r => ?_
  cases r with
  | error status => exact SamePages.silent (.bind (.note _) (.pure _))
  | ok handle =>
    refine SamePages.bind (same_pages_prepare _ _) fun _ => ?_
    exact SamePages.bind (SamePages.startImage _) fun _ => SamePages.silent (.bind (.note _) (.pure _))

theorem same_pages_validate (image : Bytes) : Total SamePages (Secure.validate (machine 0).toFirmware image) := by
  unfold Secure.validate
  rw [machine_toJournal, machine_verify]
  exact SamePages.bind (SamePages.verify _) fun _ => SamePages.silent (.bind (.note _) (.pure _))

/-- A validated launch takes no pages. -/
theorem same_pages_launchValidated (l : Loader) (raw : Bytes) (context : LaunchContext) :
    Total SamePages (l.launchValidated (machine 0).toFirmware raw context) := by
  unfold launchValidated
  refine SamePages.bind (SamePages.silent (l.silent_select raw)) fun r => ?_
  cases r with
  | error e => exact l.same_pages_finish _
  | ok image =>
    refine SamePages.bind (same_pages_validate image) fun r => ?_
    cases r with
    | error e => exact l.same_pages_finish _
    | ok u =>
      refine SamePages.bind (SamePages.silent (l.silent_enter _)) fun l => ?_
      exact SamePages.bind (same_pages_runByFirmware _ _) fun _ => l.same_pages_finish _

end Loader

namespace Launching

theorem books_start (image : MappedImage) (context : LaunchContext) :
    Books w (image.pageRun :: held) (start (machine 0).toFirmware trapsCell image context) fun r =>
      pagesOf (r.map (·.image)) ++ held := by
  unfold start Journal.error Journal.info
  rw [machine_toJournal, machine_loadedImage, machine_setLoadedImage]
  refine .bind (.quiet (SamePages.query _)) fun r => ?_
  cases r with
  | error e =>
    refine .bind (.quiet (SamePages.silent (.note _))) fun _ => ?_
    exact .bind image.books_release fun _ => .pure _ rfl
  | ok saved =>
    refine .bind (.quiet (SamePages.update _ _)) fun r => ?_
    cases r with
    | error e =>
      refine .bind (.quiet (SamePages.silent (.note _))) fun _ => ?_
      exact .bind image.books_release fun _ => .pure _ rfl
    | ok u =>
      refine .bind (.quiet (SamePages.install _)) fun token => ?_
      refine .bind (.quiet (SamePages.syncCaches _ _)) fun _ => ?_
      exact .bind (.quiet (SamePages.silent (.note _))) fun _ => .pure _ rfl

theorem same_pages_comeBack (l : Launching) (status : Status) :
    Total SamePages (l.comeBack (machine 0).toFirmware trapsCell status) := by
  unfold comeBack Journal.info Journal.error
  rw [machine_toJournal, machine_setLoadedImage]
  refine SamePages.bind (SamePages.take _) fun kept => ?_
  refine SamePages.bind (SamePages.silent (.note _)) fun _ => ?_
  refine SamePages.bind (SamePages.update _ _) fun r => ?_
  cases r with
  | error e => exact SamePages.silent (.bind (.note _) (.pure _))
  | ok u => exact SamePages.pure _

theorem books_finish (l : Launching) (status : Status) :
    Books w (l.image.pageRun :: held) (l.finish (machine 0).toFirmware trapsCell status) fun _ => held :=
  .bind (.quiet (l.same_pages_comeBack status)) fun _ => .bind l.image.books_release fun _ => .pure _ rfl

end Launching

end NetBoot.Image
