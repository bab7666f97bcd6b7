/-
  NetBoot.Proofs.Boot.Disposal — what becomes of the images that the firmware loads.

  An image that the firmware has loaded stays loaded until it is started or unloaded. The loader
  starts every image that it has the firmware load, whatever becomes of its record, and so do the
  loaders of the images that run inside: that is kept from step to step (`Disposed`). A boot program
  that the firmware starts without a check of its signature is unloaded behind its start, but is left
  loaded when its record cannot be read or updated (`FirmwareEvents`). What a run does around the
  start of its program has no part in that (`run_around`).
-/

import NetBoot.Proofs.Boot.Enforcement
import NetBoot.Proofs.Image.Errands

namespace NetBoot

namespace Sim

namespace Event

/-- The image that the firmware has made of a source. -/
def loaded? : Event → Option Handle
  | .loadImage _ _ _ (.ok handle) => some handle
  | _ => none

def started? : Event → Option Handle
  | .startImage handle => some handle
  | _ => none

def unloaded? : Event → Option Handle
  | .unloadImage handle => some handle
  | _ => none

/-- Does it leave the images of the firmware alone? -/
def SparesImages (e : Event) : Prop := e.loaded? = none ∧ e.started? = none ∧ e.unloaded? = none

theorem sparesImages_of_aside {e : Event} (h : e.isAside = true) : e.SparesImages := by
  cases e
  case loadImage => cases h
  case startImage => cases h
  case unloadImage => cases h
  all_goals exact ⟨rfl, rfl, rfl⟩

end Event

/-- The images that were loaded, started or unloaded, in their order. -/
def loadedIn (es : List Event) : List Handle := es.filterMap Event.loaded?

def startedIn (es : List Event) : List Handle := es.filterMap Event.started?

def unloadedIn (es : List Event) : List Handle := es.filterMap Event.unloaded?

theorem spared {es : List Event} (h : ∀ e ∈ es, e.SparesImages) :
    loadedIn es = [] ∧ startedIn es = [] ∧ unloadedIn es = [] :=
  ⟨List.filterMap_eq_nil_iff.mpr fun e he => (h e he).1, List.filterMap_eq_nil_iff.mpr fun e he => (h e he).2.1,
    List.filterMap_eq_nil_iff.mpr fun e he => (h e he).2.2⟩

/-- Events that spare images do not count, before others or behind them. -/
theorem spared_around (es : List Event) {before behind : List Event} (h : ∀ e ∈ before, e.SparesImages)
    (h' : ∀ e ∈ behind, e.SparesImages) :
    loadedIn (before ++ (es ++ behind)) = loadedIn es ∧ startedIn (before ++ (es ++ behind)) = startedIn es ∧
      unloadedIn (before ++ (es ++ behind)) = unloadedIn es := by
  obtain ⟨hl, hs, hu⟩ := spared h
  obtain ⟨hl', hs', hu'⟩ := spared h'
  simp only [loadedIn, startedIn, unloadedIn, List.filterMap_append] at *
  simp [hl, hs, hu, hl', hs', hu']

/-- Every image that was loaded has been started or unloaded. -/
def Disposed (w w' : World) : Prop :=
  ∃ es, Noted es w w' ∧ ∀ handle ∈ loadedIn es, handle ∈ startedIn es ∨ handle ∈ unloadedIn es

/-- No image is loaded. -/
abbrev NoLoad : World → World → Prop := Emits fun e => e.loaded? = none

namespace Disposed

theorem ordered : Ordered Disposed where
  refl _ := ⟨[], .nil rfl, fun _ h => nomatch h⟩
  trans := by
    rintro w w' w'' ⟨es, hn, h⟩ ⟨es', hn', h'⟩
    refine ⟨es ++ es', hn.trans hn', fun handle hl => ?_⟩
    simp only [loadedIn, startedIn, unloadedIn, List.filterMap_append, List.mem_append] at hl ⊢
    rcases hl with hl | hl
    · exact (h handle hl).imp .inl .inl
    · exact (h' handle hl).imp .inr .inr

theorem of_noLoad {w w' : World} (h : NoLoad w w') : Disposed w w' := by
  obtain ⟨es, hn, h⟩ := h
  have hnone : loadedIn es = [] := List.filterMap_eq_nil_iff.mpr h
  exact ⟨es, hn, by rw [hnone]; exact fun _ h => nomatch h⟩

theorem of_aside {w w' : World} (h : Emits (·.isAside = true) w w') : Disposed w w' := by
  obtain ⟨es, hn, h⟩ := h
  exact of_noLoad ⟨es, hn, fun e he => (Event.sparesImages_of_aside (h e he)).1⟩

theorem quiet {α : Type} {x : Sim α} (hx : Keeps NoLoad x) : Keeps Disposed x := fun w => of_noLoad (hx w)

theorem silent {α : Type} {x : Sim α} {a : α} (hx : Silent x a) : Keeps Disposed x := quiet (emits_silent hx)

end Disposed

end Sim

namespace Image

open Sim

variable {n : Nat} {w w' : World}

/-! ## The loader -/

theorem NoLoad.steps : LoadSteps NoLoad := .emits (fun _ _ => rfl) fun _ _ => rfl

/-- A launch loads no image of the firmware. -/
theorem Launching.noLoad_start (image : MappedImage) (context : LaunchContext) :
    Keeps NoLoad (start (machine 0).toFirmware trapsCell image context) :=
  emits_start (fun _ _ => rfl) (fun _ _ => rfl) (fun _ _ => rfl) image context

theorem Launching.noLoad_finish (l : Launching) (status : Status) :
    Keeps NoLoad (l.finish (machine 0).toFirmware trapsCell status) :=
  l.emits_finish (fun _ _ => rfl) (fun _ _ => rfl) status

namespace Loader

/-- The image of a validated launch is started if it is loaded. -/
theorem disposed_of_validated {part : Bytes} {answer : Option Status} {es : List Event}
    {result : Except LoadError Exit} (h : ValidatedEvents part answer es result) (hn : Noted es w w') :
    Disposed w w' := by
  refine ⟨es, hn, fun handle hl => .inl ?_⟩
  cases h with
  | refused _ => exact nomatch hl
  | notLoaded _ => exact nomatch hl
  | @started parent handle' path updates exit _ hu =>
    have hnone : loadedIn updates = [] := by
      refine List.filterMap_eq_nil_iff.mpr fun e he => ?_
      obtain ⟨record, rfl⟩ := hu e he
      rfl
    have hl : handle ∈ handle' :: loadedIn (updates ++ [.startImage handle']) := hl
    rw [loadedIn, List.filterMap_append, ← loadedIn, hnone] at hl
    rw [List.mem_singleton.mp hl]
    simp [startedIn, Event.started?]

theorem disposed_launchValidated (l : Loader) (raw : Bytes) (context : LaunchContext) :
    Keeps Disposed (l.launchValidated (machine n).toFirmware raw context) := by
  refine .of_run fun w => ?_
  obtain ⟨l', result, es, w', hr, hn, hes⟩ := l.launchValidated_run raw context w
  refine ⟨_, w', hr, ?_⟩
  cases hs : Fat.select raw l.config.machine with
  | error e =>
    rw [hs] at hes
    rw [hes.1] at hn
    exact ⟨[], hn, fun _ h => nomatch h⟩
  | ok selection =>
    rw [hs] at hes
    exact disposed_of_validated hes hn

theorem disposed_mustValidate (l : Loader) : Keeps Disposed (l.mustValidate (machine n).toFirmware) := by
  refine .of_run fun w => ?_
  obtain ⟨log, h⟩ := l.mustValidate_run (n := n) w
  exact ⟨_, _, h, .of_noLoad (.of_eq rfl)⟩

theorem disposed_finish (l : Loader) (result : Except LoadError Exit) :
    Keeps Disposed (l.finish (machine n).toFirmware result) := by
  obtain ⟨l', h⟩ := l.silent_finish (n := n) result
  exact Disposed.silent h

theorem disposed_start (l : Loader) (raw : Bytes) (context : LaunchContext) : Keeps Disposed (l.start raw context) := by
  unfold start
  refine .bind Disposed.ordered (l.disposed_mustValidate) fun checked => ?_
  cases checked with
  | true => exact .bind Disposed.ordered (l.disposed_launchValidated raw context) fun _ => .pure Disposed.ordered _
  | false =>
    refine .bind Disposed.ordered (Disposed.quiet (NoLoad.steps.load l raw)) fun loaded => ?_
    obtain ⟨l, e | ⟨header, image⟩⟩ := loaded
    · exact .pure Disposed.ordered _
    · refine .bind Disposed.ordered (Disposed.silent (l.silent_enter _)) fun l => ?_
      refine .bind Disposed.ordered (Disposed.quiet (Launching.noLoad_start image context)) fun started => ?_
      cases started with
      | error e => exact .bind Disposed.ordered (l.disposed_finish _) fun _ => .pure Disposed.ordered _
      | ok launching => exact .pure Disposed.ordered _

/-- A launch disposes of the images that it loads, if those that run inside do. -/
theorem disposed_loadAndLaunch (h : ∀ entry handle, Keeps Disposed ((machine n).callEntry entry handle)) (l : Loader)
    (raw : Bytes) (context : LaunchContext) :
    Keeps Disposed (l.loadAndLaunch (machine n).toFirmware trapsCell raw context) := by
  rw [machine_toFirmware, loadAndLaunch_eq]
  refine .bind Disposed.ordered (l.disposed_start raw context) fun r => ?_
  cases r with
  | error r => exact .pure Disposed.ordered _
  | ok claim =>
    refine .bind Disposed.ordered (h _ _) fun status => ?_
    exact .bind Disposed.ordered (Disposed.quiet (claim.2.noLoad_finish status)) fun _ => claim.1.disposed_finish _

end Loader

/-! ## Images that run -/

section Scripts

variable {launch : Handle → Bytes → Sim (Except LoadError Exit)}

theorem disposed_performAll (hl : ∀ handle image, Keeps Disposed (launch handle image)) (acts : List Act) :
    Keeps Disposed (performAll launch acts) := by
  have hemit (r : Reply) : Keeps Disposed (emit (.act r)) :=
    Disposed.quiet (.of_run fun _ => ⟨(), _, rfl, .of_push rfl rfl⟩)
  induction acts with
  | nil => exact .pure Disposed.ordered _
  | cons act acts ih =>
    refine .bind Disposed.ordered ?_ fun _ => ih
    cases act with
    | exit handle exit =>
      refine .bind Disposed.ordered (.of_run fun w => ?_) fun _ => hemit _
      obtain ⟨log, h⟩ := onExitIn_run handle exit w
      exact ⟨_, _, h, .of_noLoad (.of_eq rfl)⟩
    | unload handle =>
      exact .bind Disposed.ordered (.of_run fun w => ⟨_, w, rfl, Disposed.ordered.refl w⟩) fun _ => hemit _
    | launch handle image => exact .bind Disposed.ordered (hl handle image) fun _ => hemit _

theorem disposed_callEntry (hl : ∀ handle image, Keeps Disposed (launch handle image)) (entry : Address)
    (handle : Handle) : Keeps Disposed (callEntry launch entry handle) := by
  have hsame {α : Type} {x : Sim α} (hx : ∀ w, ∃ a w', x w = .ok a w' ∧ w'.events = w.events) : Keeps Disposed x :=
    .of_run fun w => have ⟨a, w', h, he⟩ := hx w; ⟨a, w', h, .of_noLoad (.of_eq he)⟩
  unfold callEntry
  rw [runScript_eq]
  refine .bind Disposed.ordered (hsame fun w => ⟨w, w, rfl, rfl⟩) fun w => ?_
  refine .bind Disposed.ordered (Disposed.quiet (.of_run fun _ => ⟨(), _, rfl, .of_push rfl rfl⟩)) fun _ => ?_
  refine .bind Disposed.ordered (.bind Disposed.ordered (hsame fun w => ?_) fun script => ?_) fun _ => ?_
  · unfold takeScript
    rw [get_bind]
    cases w.entries with
    | nil => exact ⟨_, w, rfl, rfl⟩
    | cons script entries => exact ⟨_, _, rfl, rfl⟩
  · cases script with
    | none => exact .pure Disposed.ordered _
    | some script =>
      exact .bind Disposed.ordered (disposed_performAll hl _) fun _ => hsame fun w => ⟨(), _, rfl, rfl⟩
  · exact hsame fun w => ⟨_, _, rfl, rfl⟩

end Scripts

/-- Whatever the images of a simulated machine do, to any depth. -/
theorem disposed_machine (n : Nat) (entry : Address) (handle : Handle) :
    Keeps Disposed ((machine n).callEntry entry handle) := by
  induction n generalizing entry handle with
  | zero => exact disposed_callEntry (fun _ _ => .pure Disposed.ordered _) entry handle
  | succ n ih =>
    refine disposed_callEntry (fun h image => ?_) entry handle
    exact .bind Disposed.ordered (Loader.disposed_loadAndLaunch ih {} image (.onHandle h)) fun _ =>
      .pure Disposed.ordered _

end Image

namespace Boot

open Sim

variable {n : Nat} {d : Bool} {w w' : World}

/-! ## By the firmware -/

/-- The record of a freshly loaded image can be read, and updated. -/
def Preparable (w : World) (handle : Handle) : Prop :=
  w.recordFaults.find? handle = none ∧ w.updateFaults.find? (w.updates + 1) = none

/-- What a start by the firmware is seen to do, and its result, for the handles that can be prepared. -/
inductive FirmwareEvents (preparable : Handle → Prop) : List Event → Except BootError Exit → Prop
  | notLoaded {es : List Event} {e : BootError} (h : ∀ e ∈ es, e.SparesImages) :
      FirmwareEvents preparable es (.error e)
  | stranded {parent handle : Handle} {path : Option DevicePath} {part : Bytes} {between : List Event}
      {status : Status} (h : ¬ preparable handle) (hb : ∀ e ∈ between, e.SparesImages) :
      FirmwareEvents preparable (.loadImage parent path part (.ok handle) :: between) (.error (.loadImage status))
  | started {parent handle : Handle} {path : Option DevicePath} {part : Bytes} {between : List Event} {exit : Exit}
      (h : preparable handle) (hb : ∀ e ∈ between, e.SparesImages) :
      FirmwareEvents preparable
        (.loadImage parent path part (.ok handle) :: (between ++ [.startImage handle, .unloadImage handle])) (.ok exit)

/-- What becomes of an image that was loaded depends on its record. -/
theorem FirmwareEvents.disposal {preparable : Handle → Prop} {es : List Event} {result : Except BootError Exit}
    (h : FirmwareEvents preparable es result) :
    ∀ handle ∈ loadedIn es,
      (preparable handle → handle ∈ startedIn es ∧ (unloadedIn es).count handle = 1) ∧
      (¬ preparable handle → handle ∉ startedIn es ∧ handle ∉ unloadedIn es ∧
        ∃ status, result = .error (.loadImage status)) := by
  intro handle hl
  cases h with
  | notLoaded h =>
    rw [(spared h).1] at hl
    cases hl
  | @stranded parent handle' path part between status hp hb =>
    obtain ⟨hloaded, hstarted, hunloaded⟩ := spared hb
    have hl : handle ∈ handle' :: loadedIn between := hl
    rw [hloaded] at hl
    obtain rfl := List.mem_singleton.mp hl
    refine ⟨fun h => absurd h hp, fun _ => ⟨?_, ?_, status, rfl⟩⟩
    · show handle ∉ startedIn between
      rw [hstarted]
      exact List.not_mem_nil
    · show handle ∉ unloadedIn between
      rw [hunloaded]
      exact List.not_mem_nil
  | @started parent handle' path part between exit hp hb =>
    obtain ⟨hloaded, hstarted, hunloaded⟩ := spared hb
    have hl : handle ∈ handle' :: loadedIn (between ++ [.startImage handle', .unloadImage handle']) := hl
    rw [loadedIn, List.filterMap_append, ← loadedIn, hloaded] at hl
    obtain rfl := List.mem_singleton.mp hl
    refine ⟨fun _ => ⟨?_, ?_⟩, fun h => absurd hp h⟩
    · show handle ∈ startedIn (between ++ [.startImage handle, .unloadImage handle])
      rw [startedIn, List.filterMap_append, ← startedIn, hstarted]
      exact List.mem_singleton_self _
    · show (unloadedIn (between ++ [.startImage handle, .unloadImage handle])).count handle = 1
      rw [unloadedIn, List.filterMap_append, ← unloadedIn, hunloaded]
      exact List.count_singleton_self

namespace Chainloader

/-- An image whose record can be prepared is started and then unloaded; another one is left as it is. -/
theorem startLoaded_run {handle : Handle} {record : LoadedImage} (context : Image.LaunchContext)
    (hr : w.records.find? handle = some record) :
    ∃ result es w', startLoaded ⟨machine n, d⟩ handle context w = .ok result w' ∧ Noted es w w' ∧
      ∃ between, (∀ e ∈ between, e.SparesImages) ∧
        ((¬ Preparable w handle ∧ es = between ∧ ∃ status, result = .error (.loadImage status)) ∨
          (Preparable w handle ∧ es = between ++ [.startImage handle, .unloadImage handle] ∧ ∃ exit, result = .ok exit)) := by
  unfold startLoaded Journal.debug
  rw [machine_toJournal, machine_loadedImage, machine_setLoadedImage, machine_startImage, machine_unloadImage,
    bind_of_ok (loadedImage_run _ _)]
  cases hf : w.recordFaults.find? handle with
  | some e =>
    have hrecord : w.recordOf handle = .error e := by rw [World.recordOf, hf]
    have hp : ¬ Preparable w handle := fun hp => nomatch hf.symm.trans hp.1
    rw [hrecord]
    exact ⟨_, [], w, rfl, .nil rfl, [], fun _ h => (nomatch h), .inl ⟨hp, rfl, _, rfl⟩⟩
  | none =>
    have hrecord : w.recordOf handle = .ok record := by
      rw [World.recordOf, hf, hr]
      rfl
    rw [hrecord]
    dsimp only
    obtain ⟨u, w₁, hs, htalk⟩ := Session.talk_sayDebug (n := n) (d := d)
      ["image begin: ", Address.text (Image.Loader.firmwareRecord context record).base, "\nimage size: ",
        Text.hex0x (Image.Loader.firmwareRecord context record).size.toNat, "\n"] w
    have hsame : w₁.updateOf handle = w.updateOf handle := by
      obtain ⟨⟨_, _, _, _, _, _, rfl⟩, -⟩ := htalk
      rfl
    obtain ⟨said, hn₁, haside⟩ := htalk.2
    obtain ⟨w₂, hu, hn₂⟩ := setLoadedImage_noted handle (Image.Loader.firmwareRecord context record) w₁
    rw [bind_of_ok hs, bind_of_ok hu, hsame]
    have hspares : ∀ e ∈ said ++ [.setLoadedImage handle (Image.Loader.firmwareRecord context record)],
        e.SparesImages := by
      intro e he
      rcases List.mem_append.mp he with he | he
      · exact Event.sparesImages_of_aside (haside e he)
      · rw [List.mem_singleton.mp he]
        exact ⟨rfl, rfl, rfl⟩
    cases hu' : w.updateFaults.find? (w.updates + 1) with
    | some e =>
      have hp : ¬ Preparable w handle := fun hp => nomatch hu'.symm.trans hp.2
      have hupdate : w.updateOf handle = .error e := by rw [World.updateOf, hu']
      rw [hupdate]
      exact ⟨_, _, w₂, rfl, hn₁.trans hn₂, _, hspares, .inl ⟨hp, rfl, _, rfl⟩⟩
    | none =>
      have hc : w.records.contains handle = true := Table.contains_iff.mpr ⟨record, hr⟩
      have hupdate : w.updateOf handle = .ok () := by rw [World.updateOf, hu', need, if_pos hc]
      rw [hupdate]
      obtain ⟨exit, w₃, hstart, hn₃⟩ := startImage_noted handle w₂
      obtain ⟨status, w₄, hunload, hn₄⟩ := unloadImage_noted handle w₃
      dsimp only
      rw [bind_of_ok hstart, bind_of_ok hunload]
      have hn : Noted ((said ++ [.setLoadedImage handle (Image.Loader.firmwareRecord context record)]) ++
          [.startImage handle, .unloadImage handle]) w w₄ := (hn₁.trans hn₂).trans (hn₃.trans hn₄)
      by_cases herror : status.isError = true
      · rw [if_pos herror]
        obtain ⟨log, hr'⟩ := Silent.bind_run (Silent.note _) _ w₄
        exact ⟨_, _, _, hr', hn, _, hspares, .inr ⟨⟨hf, hu'⟩, rfl, _, rfl⟩⟩
      · rw [if_neg herror]
        exact ⟨_, _, w₄, rfl, hn, _, hspares, .inr ⟨⟨hf, hu'⟩, rfl, _, rfl⟩⟩

/-- Loading a part and starting what the firmware makes of it always ends, with a result. -/
theorem startByFirmware_run (raw : Bytes) (context : Image.LaunchContext) (w : World) :
    ∃ result es w', startByFirmware ⟨machine n, d⟩ raw context w = .ok result w' ∧ Noted es w w' ∧
      FirmwareEvents (Preparable w) es result := by
  unfold startByFirmware Journal.error
  rw [machine_loadImage, machine_toJournal]
  obtain ⟨log, hs⟩ := (Image.Loader.silent_select (n := n) {} raw).bind_run _ w
  rw [hs]
  cases Image.Fat.select raw .native with
  | error e => exact ⟨_, [], _, rfl, .nil rfl, .notLoaded fun _ h => nomatch h⟩
  | ok selection =>
    dsimp only [Except.map]
    rcases loadImage_run context.handle context.path (selection.apply raw) { w with log } with
      ⟨status, -, hr⟩ | ⟨-, hr⟩
    · rw [bind_of_ok hr]
      obtain ⟨log', hr'⟩ := Silent.bind_run (Silent.note _) _ _
      refine ⟨_, _, _, hr', .push rfl, .notLoaded fun e he => ?_⟩
      rw [List.mem_singleton.mp he]
      exact ⟨rfl, rfl, rfl⟩
    · obtain ⟨v, hv, hr⟩ : ∃ v, v = _ ∧ loadImage _ _ _ _ = .ok _ v := ⟨_, rfl, hr⟩
      have hrecord : ∃ record, v.records.find? ⟨w.nextHandle + 1⟩ = some record := by
        rw [hv]
        exact ⟨_, Table.find?_insert_self _ _ _⟩
      have hprepared : Preparable v = Preparable w := by
        rw [hv]
        rfl
      have hload : Noted [.loadImage context.handle context.path (selection.apply raw) (.ok ⟨w.nextHandle + 1⟩)] w v := by
        rw [hv]
        exact .push rfl
      obtain ⟨record, hrecord⟩ := hrecord
      obtain ⟨result, es, w', hrun, hn, between, hspares, hes⟩ := startLoaded_run (n := n) (d := d) context hrecord
      rw [bind_of_ok hr]
      refine ⟨result, _, w', hrun, hload.trans hn, ?_⟩
      rw [hprepared] at hes
      rcases hes with ⟨hp, rfl, status, rfl⟩ | ⟨hp, rfl, exit, rfl⟩
      · exact .stranded hp hspares
      · exact .started hp hspares

/-- Where signatures are not checked, the firmware starts a program like that. -/
theorem start_unchecked {c : Chainloader} (hs : c.strategy = .firmware) (hv : c.loader.validates w = false)
    (raw : Bytes) (context : Image.LaunchContext) :
    ∃ result es w', c.start ⟨machine n, d⟩ trapsCell raw context w = .ok result w' ∧ Noted es w w' ∧
      FirmwareEvents (Preparable w) es result := by
  obtain ⟨log, hm⟩ := c.loader.mustValidate_run (n := n) w
  obtain ⟨result, es, w', hr, hn, hes⟩ := startByFirmware_run (n := n) (d := d) raw context { w with log }
  refine ⟨result, es, w', ?_, hn, hes⟩
  unfold start
  rw [hs]
  dsimp only
  rw [bind_of_ok hm, hv, if_neg Bool.false_ne_true]
  exact hr

/-! ## Around the start -/

/-- Nothing has changed that the start of a program depends on. -/
def Approach (w w' : World) : Prop :=
  (∃ events log sleeps clock redirects pxeMode sizeFailures reads,
    w' = { w with events, log, sleeps, clock, redirects, pxeMode, sizeFailures, reads }) ∧
  Emits (·.isAside = true) w w'

theorem Approach.trans {w w' w'' : World} (h : Approach w w') (h' : Approach w' w'') : Approach w w'' := by
  obtain ⟨⟨_, _, _, _, _, _, _, _, rfl⟩, h⟩ := h
  obtain ⟨⟨_, _, _, _, _, _, _, _, rfl⟩, h'⟩ := h'
  exact ⟨⟨_, _, _, _, _, _, _, _, rfl⟩, h.trans h'⟩

theorem Approach.of_talk {w w' : World} (h : Talk w w') : Approach w w' := by
  obtain ⟨⟨_, _, _, _, _, _, rfl⟩, h⟩ := h
  exact ⟨⟨_, _, _, _, _, _, _, _, rfl⟩, h⟩

theorem Approach.preparable_eq {w w' : World} (h : Approach w w') : Preparable w' = Preparable w := by
  obtain ⟨⟨_, _, _, _, _, _, _, _, rfl⟩, -⟩ := h
  rfl

theorem Approach.validates_eq {w w' : World} (h : Approach w w') (l : Image.Loader) : l.validates w' = l.validates w := by
  obtain ⟨⟨_, _, _, _, _, _, _, _, rfl⟩, -⟩ := h
  rfl

/-- A run that starts no program, or starts one once, on this program's handle: there is only talk behind
    that, its result is an error if that of the start is, and else the end of a program that ended well. -/
def RunsAround (start : Bytes → Image.LaunchContext → Sim (Except BootError Exit))
    (whole : Sim (Except BootError Exit)) (w : World) : Prop :=
  (∃ e w', whole w = .ok (.error e) w' ∧ Approach w w') ∨
  ∃ raw context v, context.handle = ownHandle ∧ Approach w v ∧
    (∀ result v', start raw context v = .ok result v' → ∃ final w', whole w = .ok final w' ∧ Talk v' w' ∧
      (∀ e, result = .error e → final = .error e) ∧ ∀ exit, final = .ok exit → exit.isSuccess = true) ∧
    ∀ e v', start raw context v = .error e v' → whole w = .error e v'

theorem fetchAndStart_around (c : Chainloader) (path : String) (server : Net.Ipv4) (w : World) :
    RunsAround (c.start ⟨machine n, d⟩ trapsCell) (c.fetchAndStart ⟨machine n, d⟩ trapsCell path server) w := by
  unfold RunsAround fetchAndStart
  obtain ⟨w₁, hf, ⟨events, log, sizeFailures, reads, rfl⟩, haside⟩ := Transfer.fetch_run (n := n) server path w
  have happroach : Approach w { w with events, log, sizeFailures, reads } :=
    ⟨⟨_, _, _, _, _, _, _, _, rfl⟩, haside⟩
  dsimp only
  rw [bind_of_ok hf]
  cases w.fetched server path with
  | error e => exact .inl ⟨e, _, rfl, happroach⟩
  | ok raw =>
    obtain ⟨found, hc, -, hown⟩ := context_run (n := n) path { w with events, log, sizeFailures, reads }
    dsimp only
    rw [bind_of_ok hc]
    cases found with
    | error e => exact .inl ⟨e, _, rfl, happroach⟩
    | ok context =>
      refine .inr ⟨raw, context, _, hown context rfl, happroach, ?_, ?_⟩
      · intro result v' hr
        dsimp only
        rw [bind_of_ok hr]
        cases result with
        | error e => exact ⟨_, v', rfl, Talk.ordered.refl v', fun _ h => h, fun _ h => nomatch h⟩
        | ok exit =>
          obtain ⟨final, log', h, hsuccess⟩ := conclude_run (n := n) (d := d) path exit v'
          exact ⟨final, _, h, ⟨⟨_, _, _, _, _, _, rfl⟩, .of_eq rfl⟩, fun _ h => (nomatch h), hsuccess⟩
      · intro e v' hr
        exact bind_of_error hr _

/-- A run stops before it fetches anything, or says what it does and goes on from there. -/
theorem run_eq (c : Chainloader) (name : String) (server : Net.Ipv4) (w : World) :
    (∃ e w', c.run ⟨machine n, d⟩ trapsCell name server w = .ok (.error e) w' ∧ Approach w w') ∨
    ∃ v, Talk w v ∧ c.run ⟨machine n, d⟩ trapsCell name server w =
      (c.fetchAndStart ⟨machine n, d⟩ trapsCell (bootFilePath name) server >>= fun
        | .ok exit => (pure (.ok exit) : Sim (Except BootError Exit))
        | .error e => do
          Session.say ⟨machine n, d⟩ ["\nWindows PE network boot [", bootFilePath name, "] failed: ", e.message, "\n"]
          Session.debugDelay ⟨machine n, d⟩ 5
          return .error e) v := by
  unfold run Journal.error
  rw [machine_toJournal, machine_redirectBoot, bind_of_ok (pxeMode_run n w)]
  cases w.pxeMode.isNetboot with
  | false =>
    rw [if_pos Bool.not_false]
    obtain ⟨log, h⟩ := Silent.bind_run (Silent.note _) _ w
    exact .inl ⟨_, _, h, ⟨_, _, _, _, _, _, _, _, rfl⟩, .of_eq rfl⟩
  | true =>
    rw [if_neg (by decide)]
    cases server.isUnspecified with
    | true =>
      rw [if_pos rfl]
      exact .inl ⟨_, w, rfl, ⟨_, _, _, _, _, _, _, _, rfl⟩, .of_eq rfl⟩
    | false =>
      rw [if_neg Bool.false_ne_true]
      obtain ⟨r, events, redirects, pxeMode, hr, -, hn⟩ := redirectBoot_run name server w
      have htalk : Talk w { w with events, redirects, pxeMode } :=
        ⟨⟨_, _, _, _, _, _, rfl⟩, _, hn, fun e he => List.mem_singleton.mp he ▸ rfl⟩
      rw [bind_of_ok hr]
      cases r with
      | error e => exact .inl ⟨_, _, rfl, .of_talk htalk⟩
      | ok u =>
        obtain ⟨_, w₁, hs, ht⟩ := Session.talk_sayDebug (n := n) (d := d) ["BootFileName changed to: ", name,
          "\nBootServer-IP changed to: ", server.text, "\n"] { w with events, redirects, pxeMode }
        obtain ⟨_, w₂, hd, ht'⟩ := Session.talk_debugDelay (n := n) (d := d) 5 w₁
        refine .inr ⟨w₂, Talk.ordered.trans htalk (Talk.ordered.trans ht ht'), ?_⟩
        exact (bind_of_ok hs _).trans (bind_of_ok hd _)

theorem run_around (c : Chainloader) (name : String) (server : Net.Ipv4) (w : World) :
    RunsAround (c.start ⟨machine n, d⟩ trapsCell) (c.run ⟨machine n, d⟩ trapsCell name server) w := by
  rcases run_eq (n := n) (d := d) c name server w with hstop | ⟨v, htalk, hrun⟩
  · exact .inl hstop
  · unfold RunsAround
    rw [hrun]
    have happroach := Approach.of_talk htalk
    rcases fetchAndStart_around (n := n) (d := d) c (bootFilePath name) server v with
      ⟨e, w₁, hr, hstop⟩ | ⟨raw, context, v₁, hown, hstart, hok, herror⟩
    · obtain ⟨w₂, hreport, ht⟩ := report_run (n := n) (d := d) (bootFilePath name) (.error e) w₁
      exact .inl ⟨e, w₂, (bind_of_ok hr _).trans hreport, happroach.trans (hstop.trans (.of_talk ht))⟩
    · refine .inr ⟨raw, context, v₁, hown, happroach.trans hstart, ?_, ?_⟩
      · intro result v' hs
        obtain ⟨final, w₁, hr, htalk', hfinal⟩ := hok result v' hs
        obtain ⟨w₂, hreport, ht⟩ := report_run (n := n) (d := d) (bootFilePath name) final w₁
        exact ⟨final, w₂, (bind_of_ok hr _).trans hreport, Talk.ordered.trans htalk' ht, hfinal⟩
      · intro e v' hs
        exact bind_of_error (herror e v' hs) _

/-! ## Whole runs -/

/-- Unless the firmware is to start a program unchecked, the start of a program disposes of every image
    that it loads. -/
theorem disposed_start {c : Chainloader} (h : c.strategy = .core ∨ c.loader.validates w = true) (raw : Bytes)
    (context : Image.LaunchContext) :
    Disposed w (after (c.start ⟨machine n, d⟩ trapsCell raw context) w) := by
  unfold start
  cases hs : c.strategy with
  | core =>
    have hl := Image.Loader.disposed_loadAndLaunch (Image.disposed_machine n) c.loader raw context
    exact Keeps.bind Disposed.ordered hl (fun _ => .pure Disposed.ordered _) w
  | firmware =>
    have hv : c.loader.validates w = true := h.resolve_left fun hc => nomatch hs.symm.trans hc
    obtain ⟨log, hm⟩ := c.loader.mustValidate_run (n := n) w
    rw [hv] at hm
    have hl := (Image.Loader.disposed_launchValidated (n := n) c.loader raw context).bind Disposed.ordered
      (f := fun r => pure (r.2.mapError BootError.image)) (fun _ => .pure Disposed.ordered _)
    have hl : Disposed w (after _ { w with log }) := hl { w with log }
    dsimp only
    rw [after, bind_of_ok hm, if_pos rfl]
    exact hl

/-- What becomes of the images that a run has the firmware load. Where the program is run by this
    client, or its signature is checked, each of them is started, those included that images load
    while they run; that is so whether or not the run comes to its end. Where the firmware starts the
    program unchecked, the run ends, and an image whose record can be prepared is started, and unloaded
    once; one whose record cannot be read or updated is neither started nor unloaded, and the run
    answers with the status of that. -/
theorem run_disposes (c : Chainloader) (n : Nat) (d : Bool) (name : String) (server : Net.Ipv4) (w : World) :
    (c.strategy = .core ∨ c.loader.validates w = true →
      Disposed w (after (c.run ⟨machine n, d⟩ trapsCell name server) w)) ∧
    (c.strategy = .firmware → c.loader.validates w = false →
      ∃ final es w', c.run ⟨machine n, d⟩ trapsCell name server w = .ok final w' ∧ Noted es w w' ∧
        ∀ handle ∈ loadedIn es,
          (Preparable w handle → handle ∈ startedIn es ∧ (unloadedIn es).count handle = 1) ∧
          (¬ Preparable w handle → handle ∉ startedIn es ∧ handle ∉ unloadedIn es ∧
            ∃ status, final = .error (.loadImage status))) := by
  have hruns := run_around (n := n) (d := d) c name server w
  constructor
  · intro h
    rcases hruns with ⟨e, w', hr, hstop⟩ | ⟨raw, context, v, -, happroach, hok, herror⟩
    · rw [after_of_ok hr]
      exact .of_aside hstop.2
    · rw [← happroach.validates_eq] at h
      have hstart := disposed_start (n := n) (d := d) h raw context
      have hto := Disposed.ordered.trans (.of_aside happroach.2) hstart
      unfold after at hto ⊢
      cases hs : c.start ⟨machine n, d⟩ trapsCell raw context v with
      | ok result v' =>
        obtain ⟨final, w', hr, htalk, -⟩ := hok result v' hs
        rw [hs] at hto
        rw [hr]
        exact Disposed.ordered.trans hto (.of_aside htalk.2)
      | error e v' =>
        rw [hs] at hto
        rw [herror e v' hs]
        exact hto
  · intro hstrategy hvalidates
    rcases hruns with ⟨e, w', hr, -, es, hn, haside⟩ | ⟨raw, context, v, -, happroach, hok, -⟩
    · refine ⟨.error e, es, w', hr, hn, fun handle hl => ?_⟩
      rw [(spared fun e he => Event.sparesImages_of_aside (haside e he)).1] at hl
      cases hl
    · obtain ⟨before, hn, hbefore⟩ := happroach.2
      rw [← happroach.validates_eq] at hvalidates
      obtain ⟨result, es, v', hstart, hn', hes⟩ := start_unchecked (n := n) (d := d) hstrategy hvalidates raw context
      rw [happroach.preparable_eq] at hes
      obtain ⟨final, w', hr, ⟨-, behind, hn'', hbehind⟩, hfinal, -⟩ := hok result v' hstart
      obtain ⟨hloaded, hstarted, hunloaded⟩ := spared_around es
        (fun e he => Event.sparesImages_of_aside (hbefore e he)) (fun e he => Event.sparesImages_of_aside (hbehind e he))
      refine ⟨final, before ++ (es ++ behind), w', hr, hn.trans (hn'.trans hn''), fun handle hl => ?_⟩
      rw [hloaded] at hl
      rw [hstarted, hunloaded]
      obtain ⟨hprepared, hstranded⟩ := hes.disposal handle hl
      refine ⟨hprepared, fun hp => ?_⟩
      obtain ⟨hs, hu, status, hresult⟩ := hstranded hp
      exact ⟨hs, hu, status, hfinal _ hresult⟩

/-- A boot file on its server, and a verifier that accepts everything. -/
def servedFile : World := { files := [((⟨10, 0, 0, 1⟩, "/x"), #[0x4d])], verifier := .answering .success }

/-- With a check of the signature the image is started; without one it is also unloaded, once. -/
theorem servedFile_disposed :
    (∃ es, Noted es servedFile
        (after (run { alwaysValidate := true } ⟨machine 0, false⟩ trapsCell "x" ⟨10, 0, 0, 1⟩) servedFile) ∧
      loadedIn es = [⟨0x1001⟩] ∧ (⟨0x1001⟩ ∈ startedIn es ∨ ⟨0x1001⟩ ∈ unloadedIn es)) ∧
    ∃ final es w', run { strategy := .firmware } ⟨machine 0, false⟩ trapsCell "x" ⟨10, 0, 0, 1⟩ servedFile =
        .ok final w' ∧ Noted es servedFile w' ∧ loadedIn es = [⟨0x1001⟩] ∧ ⟨0x1001⟩ ∈ startedIn es ∧
      (unloadedIn es).count ⟨0x1001⟩ = 1 := by
  have hevents {c : Chainloader} {w' : World} {es : List Event} (hn : Noted es servedFile w')
      (hr : after (run c ⟨machine 0, false⟩ trapsCell "x" ⟨10, 0, 0, 1⟩) servedFile = w') :
      es = (after (run c ⟨machine 0, false⟩ trapsCell "x" ⟨10, 0, 0, 1⟩) servedFile).events.toList := by
    rw [hr]
    exact hn.symm
  constructor
  · obtain ⟨es, hn, h⟩ := (run_disposes { alwaysValidate := true } 0 false "x" ⟨10, 0, 0, 1⟩ servedFile).1 (.inl rfl)
    have hl : loadedIn es = [⟨0x1001⟩] := by
      rw [hevents hn rfl]
      decide +kernel
    exact ⟨es, hn, hl, h _ (by rw [hl]; exact List.mem_singleton_self _)⟩
  · obtain ⟨final, es, w', hr, hn, h⟩ :=
      (run_disposes { strategy := .firmware } 0 false "x" ⟨10, 0, 0, 1⟩ servedFile).2 rfl rfl
    have hl : loadedIn es = [⟨0x1001⟩] := by
      rw [hevents hn (after_of_ok hr)]
      decide +kernel
    obtain ⟨hs, hu⟩ := (h ⟨0x1001⟩ (by rw [hl]; exact List.mem_singleton_self _)).1 ⟨rfl, rfl⟩
    exact ⟨final, es, w', hr, hn, hl, hs, hu⟩

/-- The same file, with a record that cannot be read. -/
def unreadableRecord : World := { servedFile with recordFaults := .ofList [(⟨0x1001⟩, .notFound)] }

/-- The image is loaded, and neither started nor unloaded. -/
theorem unreadableRecord_stranded :
    ∃ e w', run { strategy := .firmware } ⟨machine 0, false⟩ trapsCell "x" ⟨10, 0, 0, 1⟩ unreadableRecord =
        .ok (.error e) w' ∧
      loadedIn w'.events.toList = [⟨0x1001⟩] ∧ startedIn w'.events.toList = [] ∧ unloadedIn w'.events.toList = [] := by
  have h : endsWith (run { strategy := .firmware } ⟨machine 0, false⟩ trapsCell "x" ⟨10, 0, 0, 1⟩) unreadableRecord
      (fun r w' => !r.isOk && (decide (loadedIn w'.events.toList = [⟨0x1001⟩]) &&
        (decide (startedIn w'.events.toList = []) && decide (unloadedIn w'.events.toList = [])))) = true := by
    decide +kernel
  obtain ⟨result, w', hr, h⟩ := exists_of_endsWith h
  simp only [Bool.and_eq_true, decide_eq_true_eq] at h
  obtain ⟨hfailed, h⟩ := h
  cases result with
  | ok exit => cases hfailed
  | error e => exact ⟨e, w', hr, h⟩

end Chainloader

end Boot

end NetBoot
