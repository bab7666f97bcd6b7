/-
  NetBoot.Proofs.Image.Launching — a launch in its two parts, and what a running image can do.

  A launch prepares its handle, calls the entry point, and clears up behind it; `launch_eq` says that
  these are all of it. What it holds in between is a `Launching`: the record that it found, and the
  token of its trap. `deeds` is the family of the calls by which images reach this program while they
  run: exits, and launches of other images. Of a launch the lemmas here say what each part does to the
  records and to the traps (`start_eq_ok`, `finish_eq_ok`).
-/

import NetBoot.Proofs.Image.Load
import NetBoot.Proofs.Sim.Calls

namespace NetBoot.Image

open Sim

/-- What a launch holds while its image runs. -/
structure Launching where
  image : MappedImage
  context : LaunchContext
  /-- The record that was on the handle. -/
  saved : LoadedImage
  token : TrapToken

namespace Launching

/-- The record that the image finds. -/
def installed (l : Launching) : LoadedImage := l.context.record l.saved l.image.base l.image.imageSize

section Parts

variable {m : Type → Type} [Monad m] (fw : Firmware m) (traps : Cell m Traps)

/-- A launch up to the call of the entry point; a failure gives the pages back. -/
def start (image : MappedImage) (context : LaunchContext) : m (Except LoadError Launching) := do
  match ← fw.loadedImage context.handle with
  | .error e => do
    fw.error "netchain_peimage::launch" s!"no loaded-image record on {context.handle.describe}: {e.message}"
    image.release fw
    return .error (.launchFailed e.status)
  | .ok saved =>
    match ← fw.setLoadedImage context.handle (context.record saved image.base image.imageSize) with
    | .error e => do
      fw.error "netchain_peimage::launch"
        s!"cannot update loaded-image record on {context.handle.describe}: {e.message}"
      image.release fw
      return .error (.launchFailed e.status)
    | .ok () => do
      let token ← Traps.installIn fw.toJournal traps context.handle
      fw.syncCaches image.base image.size
      fw.info "netchain_peimage::launch"
        ("starting image at " ++ Address.text image.base ++ ", entry " ++ Address.text image.entry)
      return .ok ⟨image, context, saved, token⟩

/-- The image has returned: its trap is taken away, and the record put back. -/
def comeBack (l : Launching) (returned : Status) : m Exit := do
  let exit := (← Traps.takeIn traps l.token).getD ⟨returned, none⟩
  fw.info "netchain_peimage::launch" s!"image returned {exit.status.text}"
  match ← fw.setLoadedImage l.context.handle l.saved with
  | .ok () => pure ()
  | .error e =>
    fw.error "netchain_peimage::launch"
      s!"cannot restore loaded-image record on {l.context.handle.describe}: {e.message}"
  return exit

/-- A launch from there on, with the status that the entry point returned. -/
def finish (l : Launching) (returned : Status) : m Exit := do
  let exit ← l.comeBack fw traps returned
  l.image.release fw
  return exit

theorem launch_eq [LawfulMonad m] (image : MappedImage) (context : LaunchContext) :
    launch fw traps image context = (do
      match ← start fw traps image context with
      | .error e => return .error e
      | .ok l => do
        let returned ← fw.callEntry l.image.entry l.context.handle
        let exit ← l.finish fw traps returned
        return .ok exit) := by
  unfold launch start
  dsimp only
  rw [bind_assoc]
  congr 1
  funext found
  cases found with
  | error e =>
    simp only [bind_assoc, pure_bind]
    rfl
  | ok saved =>
    dsimp only
    rw [bind_assoc]
    congr 1
    funext updated
    cases updated with
    | error e =>
      simp only [bind_assoc, pure_bind]
      rfl
    | ok u =>
      unfold MappedImage.run finish comeBack
      simp only [bind_assoc, pure_bind]
      rfl

end Parts

/-! ## On a simulated machine -/

variable {image : MappedImage} {context : LaunchContext} {l : Launching} {w w' : World}

/-- Records and traps are as they were. -/
def Kept (w w' : World) : Prop := w'.records = w.records ∧ w'.traps = w.traps

theorem Kept.ordered : Ordered Kept where
  refl _ := ⟨rfl, rfl⟩
  trans h h' := ⟨h'.1.trans h.1, h'.2.trans h.2⟩

theorem Kept.silent {α : Type} {x : Sim α} {a : α} (hx : Silent x a) : Keeps Kept x :=
  .silent (fun _ _ => ⟨rfl, rfl⟩) hx

theorem Kept.release (image : MappedImage) : Keeps Kept (image.release (machine 0).toFirmware) := by
  unfold MappedImage.release Journal.trace
  rw [machine_toJournal, machine_freePages]
  refine .bind ordered (silent (.note _)) fun _ w => ?_
  obtain ⟨allocations, ha⟩ := freePages_after image.allocation image.pages w
  rw [ha]
  exact ⟨rfl, rfl⟩

/-- An update replaces the record, or fails and changes none; it counts either way. -/
theorem update_cases (handle : Handle) (record : LoadedImage) (w : World) :
    ∃ r w', setLoadedImage handle record w = .ok r w' ∧ w'.traps = w.traps ∧
      (w'.updates = w.updates + 1 ∧ w'.updateFaults = w.updateFaults ∧ w'.entries = w.entries) ∧
      match r with
      | .ok () => w'.records = w.records.insert handle record
      | .error _ => w'.records = w.records := by
  rcases setLoadedImage_run handle record w with ⟨e, h⟩ | h
  · exact ⟨_, _, h, rfl, ⟨rfl, rfl, rfl⟩, rfl⟩
  · exact ⟨_, _, h, rfl, ⟨rfl, rfl, rfl⟩, rfl⟩

/-- A launch that fails to start has changed no record and no trap. One that starts found a record,
    has put its own in the place with one update, and has set a trap. -/
theorem start_eq_ok {r : Except LoadError Launching}
    (h : start (machine 0).toFirmware trapsCell image context w = .ok r w') :
    match r with
    | .error _ => Kept w w'
    | .ok l => l.image = image ∧ l.context = context ∧ w.records.find? context.handle = some l.saved ∧
      w'.records = w.records.insert context.handle l.installed ∧
      l.token = (w.traps.install context.handle).1 ∧ w'.traps = (w.traps.install context.handle).2 ∧
      w'.updates = w.updates + 1 ∧ w'.updateFaults = w.updateFaults ∧ w'.entries = w.entries := by
  unfold start Journal.error at h
  rw [machine_toJournal, machine_loadedImage, machine_setLoadedImage, bind_of_ok (loadedImage_run _ _)] at h
  -- the two ways to fail end alike: a note, and the pages given back
  have hfail {v : World} {e : LoadError} {note : Log.Record} (hv : Kept w v)
      (h : (do
        keepLog note
        image.release (machine 0).toFirmware
        return Except.error e : Sim (Except LoadError Launching)) v = .ok r w') :
      ∃ e, r = .error e ∧ Kept w w' := by
    obtain ⟨log, h⟩ := (Silent.note _).bind_eq_ok h
    obtain ⟨u, v', hr, h⟩ := bind_eq_ok_iff.mp h
    cases h
    have hk : Kept v w' := (Kept.release image).of_ok (w := { v with log }) hr
    exact ⟨e, rfl, Kept.ordered.trans hv hk⟩
  cases hs : w.recordOf context.handle with
  | error fault =>
    rw [hs] at h
    obtain ⟨e, rfl, hk⟩ := hfail (Kept.ordered.refl w) h
    exact hk
  | ok saved =>
    rw [hs] at h
    dsimp only at h
    obtain ⟨updated, w₁, hu, htraps, hupdates, hrecords⟩ :=
      update_cases context.handle (context.record saved image.base image.imageSize) w
    rw [bind_of_ok hu] at h
    cases updated with
    | error fault =>
      obtain ⟨e, rfl, hk⟩ := hfail ⟨hrecords, htraps⟩ h
      exact hk
    | ok u =>
      dsimp only at h hrecords
      obtain ⟨log, ht⟩ := installIn_run context.handle w₁
      rw [bind_of_ok ht, bind_of_ok (syncCaches_run _ _ _ _)] at h
      obtain ⟨log', h⟩ := (Silent.note _).bind_eq_ok h
      cases h
      refine ⟨rfl, rfl, recordOf_eq_ok hs, hrecords, ?_, ?_, hupdates⟩
      · exact congrArg (fun t => (Traps.install t context.handle).1) htraps
      · exact congrArg (fun t => (Traps.install t context.handle).2) htraps

/-- In the world in which its image comes back, the update that restores the record succeeds. What
    a launch does between the two, taking its trap away and a note, has no part in that. -/
def Restored (l : Launching) (later : World) : Prop :=
  ∃ w, setLoadedImage l.context.handle l.saved later = .ok (.ok ()) w

/-- An update reads its script and the records, and nothing else. -/
theorem update_eq_ok_iff {handle : Handle} {record : LoadedImage} :
    (∃ w', setLoadedImage handle record w = .ok (.ok ()) w') ↔
      w.updateFaults.find? (w.updates + 1) = none ∧ w.records.contains handle = true := by
  rw [setLoadedImage, emit_bind, get_bind]
  dsimp only
  cases w.updateFaults.find? (w.updates + 1) with
  | some e =>
    constructor
    · rintro ⟨w', h⟩
      cases h
    · rintro ⟨h, -⟩
      cases h
  | none =>
    by_cases hc : w.records.contains handle = true
    · rw [if_pos hc]
      exact iff_of_true ⟨_, rfl⟩ ⟨rfl, hc⟩
    · rw [if_neg hc]
      constructor
      · rintro ⟨w', h⟩
        cases h
      · rintro ⟨-, h⟩
        exact absurd h hc

/-- The image has come back: its trap is taken away, and the launch answers with the exit that it kept
    or with the status that the entry point returned. -/
theorem comeBack_run (l : Launching) (status : Status) (w : World) :
    ∃ w', l.comeBack (machine 0).toFirmware trapsCell status w =
        .ok ((w.traps.take l.token).1.getD ⟨status, none⟩) w' ∧
      w'.traps = (w.traps.take l.token).2 ∧ w'.allocations = w.allocations ∧
      (l.Restored w → w'.records = w.records.insert l.context.handle l.saved) := by
  unfold comeBack Journal.info Journal.error
  rw [machine_toJournal, machine_setLoadedImage, bind_of_ok (takeIn_run _ _)]
  obtain ⟨log, hr⟩ := Silent.bind_run (Silent.note _) _ _
  rw [hr]
  rcases setLoadedImage_run l.context.handle l.saved { w with traps := (w.traps.take l.token).2, log } with ⟨e, hu⟩ | hu
  · rw [bind_of_ok hu]
    obtain ⟨log', hr⟩ := Silent.bind_run (Silent.note _) _ _
    refine ⟨_, hr, rfl, rfl, fun hl => ?_⟩
    have hw := update_eq_ok_iff.mp hl
    obtain ⟨v, hv⟩ := update_eq_ok_iff (w := { w with traps := (w.traps.take l.token).2, log }).mpr hw
    rw [hu] at hv
    cases hv
  · rw [bind_of_ok hu]
    exact ⟨_, rfl, rfl, rfl, fun _ => rfl⟩

theorem finish_eq_ok {status : Status} {exit : Exit}
    (h : l.finish (machine 0).toFirmware trapsCell status w = .ok exit w') :
    w'.traps = (w.traps.take l.token).2 ∧
      (l.Restored w → w'.records = w.records.insert l.context.handle l.saved) := by
  unfold finish at h
  obtain ⟨w₁, hr, htraps, -, hrecords⟩ := l.comeBack_run status w
  rw [bind_of_ok hr] at h
  obtain ⟨u, w₂, hrelease, h⟩ := bind_eq_ok_iff.mp h
  cases h
  obtain ⟨hr, ht⟩ := (Kept.release l.image).of_ok hrelease
  exact ⟨ht.trans htraps, fun hl => hr.trans (hrecords hl)⟩

/-- While its image has its pages, a launch can be settled. -/
theorem finish_run (status : Status) (h : w.allocations.find? l.image.allocation = some l.image.pages) :
    ∃ w', l.finish (machine 0).toFirmware trapsCell status w = .ok ((w.traps.take l.token).1.getD ⟨status, none⟩) w' := by
  unfold finish MappedImage.release Journal.trace
  rw [machine_toJournal, machine_freePages]
  obtain ⟨w₁, hr, -, hlive, -⟩ := l.comeBack_run status w
  rw [bind_of_ok hr, bind_assoc]
  obtain ⟨log, hn⟩ := Silent.bind_run (Silent.note _) _ w₁
  rw [hn, bind_of_ok (freePages_of_live (hlive ▸ h))]
  exact ⟨_, rfl⟩

section Events

variable {P : Event → Prop} (hset : ∀ handle record, P (.setLoadedImage handle record))
  (hfree : ∀ base pages, P (.freePages base pages))

include hset hfree

omit hset in
theorem emits_release (image : MappedImage) : Keeps (Emits P) (image.release (machine 0).toFirmware) := by
  unfold MappedImage.release Journal.trace
  rw [machine_toJournal, machine_freePages]
  exact .bind (Emits.ordered P) (emits_silent (.note _)) fun _ => emits_freePages (hfree _ _)

/-- Before its image gets control, a launch notes updates of a record, pages given back, and the caches. -/
theorem emits_start (hsync : ∀ base len, P (.syncCaches base len)) (image : MappedImage) (context : LaunchContext) :
    Keeps (Emits P) (start (machine 0).toFirmware trapsCell image context) := by
  have ho : Ordered (Emits P) := Emits.ordered P
  unfold start Journal.error Journal.info
  rw [machine_toJournal, machine_loadedImage, machine_setLoadedImage]
  refine .bind ho (.of_run fun w => ⟨_, w, loadedImage_run _ w, ho.refl w⟩) fun r => ?_
  cases r with
  | error e =>
    refine .bind ho (emits_silent (.note _)) fun _ => ?_
    exact .bind ho (emits_release hfree image) fun _ => .pure ho _
  | ok saved =>
    refine .bind ho (emits_setLoadedImage (hset _ _)) fun r => ?_
    cases r with
    | error e =>
      refine .bind ho (emits_silent (.note _)) fun _ => ?_
      exact .bind ho (emits_release hfree image) fun _ => .pure ho _
    | ok u =>
      refine .bind ho (.of_run fun w => ?_) fun token => ?_
      · obtain ⟨log, h⟩ := installIn_run context.handle w
        exact ⟨_, _, h, .of_eq rfl⟩
      · refine .bind ho (.of_run fun w => ⟨_, _, syncCaches_run 0 _ _ w, .of_push rfl (hsync _ _)⟩) fun _ => ?_
        exact emits_silent (.bind (.note _) (.pure _))

theorem emits_finish (l : Launching) (status : Status) :
    Keeps (Emits P) (l.finish (machine 0).toFirmware trapsCell status) := by
  have ho : Ordered (Emits P) := Emits.ordered P
  unfold finish comeBack Journal.info Journal.error
  rw [machine_toJournal, machine_setLoadedImage]
  refine .bind ho ?_ fun _ => .bind ho (emits_release hfree _) fun _ => .pure ho _
  refine .bind ho (.of_run fun w => ⟨_, _, takeIn_run _ w, .of_eq rfl⟩) fun kept => ?_
  refine .bind ho (emits_silent (.note _)) fun _ => ?_
  refine .bind ho (emits_setLoadedImage (hset _ _)) fun r => ?_
  cases r with
  | error e => exact emits_silent (.bind (.note _) (.pure _))
  | ok u => exact .pure ho _

end Events

end Launching

/-! ## What a running image can do -/

/-- A call by which a running image reaches this program. -/
inductive Deed where
  | exit (handle : Handle) (exit : Exit)
  | launch (image : MappedImage) (context : LaunchContext)

namespace Deed

def Result : Deed → Type
  | .exit .. => Disposition
  | .launch .. => Except LoadError Exit

/-- Only a launch runs an image. -/
def Claim : Deed → Type
  | .exit .. => Empty
  | .launch .. => Launching

def launching : (d : Deed) → d.Claim → Launching
  | .launch .., l => l

def perform (image : Address → Handle → Sim Status) : (d : Deed) → Sim d.Result
  | .exit handle e => Traps.onExitIn ⟨keepLog⟩ trapsCell handle e
  | .launch mapped context => Image.launch (entering image) trapsCell mapped context

def start : (d : Deed) → Sim (Except d.Result d.Claim)
  | .exit handle e => do
    let disposition ← Traps.onExitIn ⟨keepLog⟩ trapsCell handle e
    return .error disposition
  | .launch image context => do
    let started ← Launching.start (machine 0).toFirmware trapsCell image context
    return started.mapError .error

def finish : (d : Deed) → d.Claim → Status → Sim d.Result
  | .launch .., l, status => do
    let exit ← l.finish (machine 0).toFirmware trapsCell status
    return .ok exit

theorem perform_eq (d : Deed) (image : Address → Handle → Sim Status) :
    perform image d = orClaim d.start fun l =>
      image (launching d l).image.entry (launching d l).context.handle >>= finish d l := by
  cases d with
  | exit handle e => exact (orClaim_of_result _ _).symm
  | launch mapped context =>
    refine (Launching.launch_eq _ _ _ _).trans (Eq.trans ?_ (bind_assoc _ _ _).symm)
    refine congrArg (Bind.bind _) (funext fun started => ?_)
    cases started with
    | error e => rfl
    | ok l => rfl

end Deed

/-- What images do while they run. -/
def deeds : Calls Deed where
  Result := Deed.Result
  Claim := Deed.Claim
  perform d image := Deed.perform image d
  start := Deed.start
  entry l := (Deed.launching _ l).image.entry
  handle l := (Deed.launching _ l).context.handle
  finish := Deed.finish _
  perform_eq := Deed.perform_eq

/-- The launch of an image that runs. -/
def launchOf (f : Frame deeds) : Launching := Deed.launching f.call f.claim

/-! ### Steps -/

theorem onExitIn_run (handle : Handle) (exit : Exit) (w : World) :
    ∃ log, Traps.onExitIn ⟨keepLog⟩ trapsCell handle exit w =
      .ok (w.traps.onExit handle exit).1 { w with traps := (w.traps.onExit handle exit).2, log } := by
  rw [Traps.onExitIn, trapsCell_get_bind]
  exact (Silent.notes _).bind_run _ _

theorem exit_made {w w' : World} {handle : Handle} {exit : Exit} {r : Disposition}
    (h : deeds.start (.exit handle exit) w = .ok (.error r) w') :
    r = (w.traps.onExit handle exit).1 ∧ w'.traps = (w.traps.onExit handle exit).2 ∧ w'.records = w.records := by
  obtain ⟨r', w₁, he, h⟩ := bind_eq_ok_iff.mp h
  obtain ⟨log, hr⟩ := onExitIn_run handle exit w
  rw [hr] at he
  cases he
  cases h
  exact ⟨rfl, rfl, rfl⟩

theorem launch_made {w w' : World} {image : MappedImage} {context : LaunchContext} {r : Except LoadError Exit}
    (h : deeds.start (.launch image context) w = .ok (.error r) w') : Launching.Kept w w' := by
  obtain ⟨started, w₁, hs, h⟩ := bind_eq_ok_iff.mp h
  cases started with
  | error e =>
    cases h
    exact Launching.start_eq_ok hs
  | ok l => cases h

theorem launch_entered {w w' : World} {f : Frame deeds} (h : deeds.start f.call w = .ok (.ok f.claim) w') :
    w.records.find? f.handle = some (launchOf f).saved ∧
      w'.records = w.records.insert f.handle (launchOf f).installed ∧
      (launchOf f).token = (w.traps.install f.handle).1 ∧ w'.traps = (w.traps.install f.handle).2 := by
  obtain ⟨d, l⟩ := f
  cases d with
  | exit handle exit => exact nomatch l
  | launch image context =>
    obtain ⟨started, w₁, hs, h⟩ := bind_eq_ok_iff.mp h
    cases started with
    | error e => cases h
    | ok l' =>
      cases h
      obtain ⟨-, hcontext, hsaved, hrecords, htoken, htraps, -⟩ := Launching.start_eq_ok hs
      rw [← hcontext] at hsaved hrecords htoken htraps
      exact ⟨hsaved, hrecords, htoken, htraps⟩

theorem launch_left {w w' : World} {f : Frame deeds} {status : Status} {r : deeds.Result f.call}
    (h : deeds.finish f.claim status w = .ok r w') :
    w'.traps = (w.traps.take (launchOf f).token).2 ∧
      ((launchOf f).Restored w → w'.records = w.records.insert f.handle (launchOf f).saved) := by
  obtain ⟨d, l⟩ := f
  cases d with
  | exit handle exit => exact nomatch l
  | launch image context =>
    obtain ⟨exit, w₁, hf, h⟩ := bind_eq_ok_iff.mp h
    cases h
    exact Launching.finish_eq_ok hf

/-! ## Two launches on one handle -/

/-- An image in one page of memory. -/
def onePage (base : Address) : MappedImage := ⟨base, 1, base, pageSize, 0x1000, base⟩

/-- An image that launches another on the handle it runs on, and returns. -/
def relaunch (mapped : MappedImage) (_ : Address) (handle : Handle) : Sim Status := do
  let _ ← launch (entering fun _ _ => return .success) trapsCell mapped (.onHandle handle)
  return .success

def twoPages : World := { allocations := .ofList [(0x1000, 1), (0x2000, 1)] }

def outerLaunch : Frame deeds :=
  ⟨.launch (onePage 0x1000) (.onHandle ownHandle),
    (⟨onePage 0x1000, .onHandle ownHandle, ownRecord, ⟨ownHandle, 1⟩⟩ : Launching)⟩

/-- It finds the record that the outer launch has put there. -/
def innerLaunch : Frame deeds :=
  ⟨.launch (onePage 0x2000) (.onHandle ownHandle),
    (⟨onePage 0x2000, .onHandle ownHandle, (launchOf outerLaunch).installed, ⟨ownHandle, 2⟩⟩ : Launching)⟩

end NetBoot.Image
