/-
  NetBoot.Proofs.Boot.Program — what running a program leaves behind.

  Whoever starts a boot program, one image is started at most, and behind it the pages, the traps and
  the record of this program are what they were (`Leaves`). Where the firmware runs it, this program's
  own record is never touched, since the firmware gives the image another handle (`Spares`). Where this
  program runs it itself, the image lies under this program's handle: its record and its trap stand
  there while it has control (`InControl`), and are taken away behind it (`InControl.settled`). Before
  and behind a program a run only talks (`leaves_run`).
-/

import NetBoot.Proofs.Boot.Contact
import NetBoot.Proofs.Boot.Disposal
import NetBoot.Proofs.Image.Trapping

namespace NetBoot

namespace Sim

/-- Is an image started? -/
def Event.isStart : Event → Bool
  | .startImage _ | .callEntry .. => true
  | _ => false

theorem Event.isStart_of_aside {e : Event} (h : e.isAside = true) : e.isStart = false := by
  cases e <;> first | rfl | cases h

/-- So many images were started at most. -/
def Starts (k : Nat) (w w' : World) : Prop := ∃ es, Noted es w w' ∧ es.countP Event.isStart ≤ k

theorem Starts.of_emits {k : Nat} {w w' : World} (h : Emits (·.isStart = false) w w') : Starts k w w' := by
  obtain ⟨es, hn, he⟩ := h
  have hnone : es.countP Event.isStart = 0 := List.countP_eq_zero.mpr fun e hm => by simp [he e hm]
  exact ⟨es, hn, by omega⟩

theorem Starts.trans {i j : Nat} {w w' w'' : World} (h : Starts i w w') (h' : Starts j w' w'') :
    Starts (i + j) w w'' := by
  obtain ⟨es, hn, hc⟩ := h
  obtain ⟨es', hn', hc'⟩ := h'
  refine ⟨es ++ es', hn.trans hn', ?_⟩
  rw [List.countP_append]
  exact Nat.add_le_add hc hc'

/-- Pages, traps and the record of this program are as they were, and so many images were started at
    most. -/
structure Spares (k : Nat) (w w' : World) : Prop where
  allocations : w'.allocations = w.allocations
  traps : w'.traps = w.traps
  record : w'.records.find? ownHandle = w.records.find? ownHandle
  starts : Starts k w w'

namespace Spares

variable {α β : Type} {k : Nat} {w w' w'' : World}

theorem of_emits (ha : w'.allocations = w.allocations) (ht : w'.traps = w.traps)
    (hr : w'.records.find? ownHandle = w.records.find? ownHandle) (he : Emits (·.isStart = false) w w') :
    Spares k w w' := ⟨ha, ht, hr, .of_emits he⟩

theorem trans {i j : Nat} (h : Spares i w w') (h' : Spares j w' w'') : Spares (i + j) w w'' :=
  ⟨h'.allocations.trans h.allocations, h'.traps.trans h.traps, h'.record.trans h.record, h.starts.trans h'.starts⟩

theorem ordered : Ordered (Spares 0) := ⟨fun _ => .of_emits rfl rfl rfl (.of_eq rfl), trans⟩

theorem log (w : World) (log : Array String) : Spares 0 w { w with log } := .of_emits rfl rfl rfl (.of_eq rfl)

theorem silent {x : Sim α} {a : α} (hx : Silent x a) : Total (Spares k) x :=
  .silent (fun _ _ => .of_emits rfl rfl rfl (.of_eq rfl)) hx

/-- A run goes on from where nothing was started. -/
theorem goes_on {x : Sim α} (h : Spares 0 w w') (hx : Total (Spares k) x) :
    ∃ a v, x w' = .ok a v ∧ Spares k w v := by
  obtain ⟨a, v, hr, h'⟩ := hx w'
  exact ⟨a, v, hr, by simpa using h.trans h'⟩

/-- In front of the start of an image, what starts none. -/
theorem bind_before {x : Sim α} {f : α → Sim β} (hx : Total (Spares 0) x) (hf : ∀ a, Total (Spares k) (f a)) :
    Total (Spares k) (x >>= f) := by
  intro v
  obtain ⟨a, v', hr, h⟩ := hx v
  rw [bind_of_ok hr]
  exact h.goes_on (hf a)

/-- Behind it, what starts none. -/
theorem bind_after {x : Sim α} {f : α → Sim β} (hx : Total (Spares k) x) (hf : ∀ a, Total (Spares 0) (f a)) :
    Total (Spares k) (x >>= f) := by
  intro v
  obtain ⟨a, v', hr, h⟩ := hx v
  obtain ⟨b, v'', hr', h'⟩ := hf a v'
  exact ⟨b, v'', by rw [bind_of_ok hr, hr'], h.trans h'⟩

theorem query (handle : Handle) : Total (Spares 0) (loadedImage handle) :=
  fun w => ⟨_, w, loadedImage_run handle w, ordered.refl w⟩

theorem update {handle : Handle} (hne : handle ≠ ownHandle) (record : LoadedImage) :
    Total (Spares 0) (setLoadedImage handle record) := by
  intro w
  rcases setLoadedImage_run handle record w with ⟨e, h⟩ | h
  · exact ⟨_, _, h, .of_emits rfl rfl rfl (.of_push rfl rfl)⟩
  · exact ⟨_, _, h, .of_emits rfl rfl (Table.find?_insert_of_ne _ _ hne.symm) (.of_push rfl rfl)⟩

/-- The firmware gives an image a fresh handle. -/
theorem loadImage_run (hw : (⟨w.nextHandle + 1⟩ : Handle) ≠ ownHandle) (parent : Handle) (path : Option DevicePath)
    (source : Bytes) :
    ∃ r w', loadImage parent path source w = .ok r w' ∧ Spares 0 w w' ∧
      ∀ handle, r = .ok handle → handle ≠ ownHandle := by
  rcases Sim.loadImage_run parent path source w with ⟨status, -, h⟩ | ⟨-, h⟩
  · exact ⟨_, _, h, .of_emits rfl rfl rfl (.of_push rfl rfl), fun _ hr => (nomatch hr)⟩
  · refine ⟨_, _, h, .of_emits rfl rfl (Table.find?_insert_of_ne _ _ hw.symm) (.of_push rfl rfl), ?_⟩
    intro handle hr
    cases hr
    exact hw

theorem startImage (handle : Handle) : Total (Spares 1) (startImage handle) :=
  fun _ => ⟨_, _, rfl, rfl, rfl, rfl, [.startImage handle], .push rfl, Nat.le_refl 1⟩

theorem unloadImage {handle : Handle} (hne : handle ≠ ownHandle) : Total (Spares 0) (unloadImage handle) := by
  intro w
  rw [Sim.unloadImage, emit_bind, get_bind]
  dsimp only
  cases w.unloadStatus with
  | some status => exact ⟨_, _, rfl, .of_emits rfl rfl rfl (.of_push rfl rfl)⟩
  | none => exact ⟨_, _, rfl, .of_emits rfl rfl (Table.find?_erase_of_ne _ hne.symm) (.of_push rfl rfl)⟩

end Spares

end Sim

open Sim

variable {n : Nat} {d : Bool} {w w' : World}

/-! ## By the firmware -/

namespace Image.Loader

theorem spares_prepare {handle : Handle} (hne : handle ≠ ownHandle) (context : LaunchContext) :
    Total (Spares 0) (prepare (machine n).toFirmware handle context) := by
  unfold prepare Journal.warn
  rw [machine_toJournal, machine_loadedImage, machine_setLoadedImage]
  refine .bind Spares.ordered (Spares.query handle) fun r => ?_
  cases r with
  | error e => exact .pure Spares.ordered _
  | ok record =>
    refine .bind Spares.ordered (Spares.update hne _) fun r => ?_
    cases r with
    | error e => exact Spares.silent (.note _)
    | ok u => exact .pure Spares.ordered _

theorem spares_finish {k : Nat} (l : Loader) (result : Except LoadError Exit) :
    Total (Spares k) (l.finish (machine n).toFirmware result) := by
  obtain ⟨l', h⟩ := l.silent_finish (n := n) result
  exact Spares.silent h

theorem spares_runByFirmware (hw : (⟨w.nextHandle + 1⟩ : Handle) ≠ ownHandle) (image : Bytes)
    (context : LaunchContext) :
    ∃ r w', runByFirmware (machine n).toFirmware image context w = .ok r w' ∧ Spares 1 w w' := by
  unfold runByFirmware Journal.error Journal.info
  rw [machine_toJournal, machine_loadImage, machine_startImage]
  obtain ⟨r, v, hr, hspares, hne⟩ := Spares.loadImage_run hw context.handle context.path image
  rw [bind_of_ok hr]
  refine hspares.goes_on ?_
  cases r with
  | error status => exact Spares.silent (.bind (.note _) (.pure _))
  | ok handle =>
    refine Spares.bind_before (spares_prepare (hne handle rfl) context) fun _ => ?_
    exact Spares.bind_after (Spares.startImage handle) fun _ => Spares.silent (.bind (.note _) (.pure _))

theorem spares_validate (part : Bytes) (w : World) :
    ∃ verdict v, Secure.validate (machine n).toFirmware part w = .ok verdict v ∧ Spares 0 w v ∧
      v.nextHandle = w.nextHandle := by
  unfold Secure.validate
  rw [machine_toJournal, machine_verify]
  obtain ⟨verifier, hv⟩ := verify_run part w
  rw [bind_of_ok hv]
  obtain ⟨log, h⟩ := Silent.bind_run (Silent.note _) _ _
  exact ⟨_, _, h, .of_emits rfl rfl rfl (.of_push rfl rfl), rfl⟩

/-- A validated launch starts one image at most, under a handle of its own. -/
theorem spares_launchValidated (hw : (⟨w.nextHandle + 1⟩ : Handle) ≠ ownHandle) (l : Loader) (raw : Bytes)
    (context : LaunchContext) :
    ∃ r w', l.launchValidated (machine n).toFirmware raw context w = .ok r w' ∧ Spares 1 w w' := by
  unfold launchValidated
  obtain ⟨log, hs⟩ := (l.silent_select (n := n) raw).bind_run _ w
  rw [hs]
  have hselected := Spares.log w log
  cases Fat.select raw l.config.machine with
  | error e => exact hselected.goes_on (l.spares_finish _)
  | ok selection =>
    obtain ⟨verdict, v, hv, hspares, hnext⟩ := spares_validate (n := n) (selection.apply raw) { w with log }
    have hvalidated : Spares 0 w v := hselected.trans hspares
    dsimp only [Except.map]
    rw [bind_of_ok hv]
    cases verdict with
    | error e => exact hvalidated.goes_on (l.spares_finish _)
    | ok u =>
      obtain ⟨log', he⟩ := (l.silent_enter (n := n) .validatedPassthrough).bind_run _ v
      have hentered : Spares 0 w { v with log := log' } := hvalidated.trans (.log v log')
      have hfresh : (⟨v.nextHandle + 1⟩ : Handle) ≠ ownHandle := by
        rw [hnext]
        exact hw
      obtain ⟨result, v', hr, hran⟩ :=
        spares_runByFirmware (n := n) (w := { v with log := log' }) hfresh (selection.apply raw) context
      obtain ⟨r, w', hf, hfinished⟩ := (l.withStage .validatedPassthrough).spares_finish (n := n) (k := 0) result v'
      dsimp only
      rw [he, bind_of_ok hr]
      exact ⟨r, w', hf, hentered.trans (hran.trans hfinished)⟩

end Image.Loader

/-! ## By this program -/

namespace Image

/-- Nothing but memory, pages and the log has changed, and no image was started. -/
structure Idle (w w' : World) : Prop where
  records : w'.records = w.records
  traps : w'.traps = w.traps
  updates : w'.updates = w.updates
  updateFaults : w'.updateFaults = w.updateFaults
  entries : w'.entries = w.entries
  starts : Emits (·.isStart = false) w w'

theorem Idle.ordered : Ordered Idle where
  refl _ := ⟨rfl, rfl, rfl, rfl, rfl, .of_eq rfl⟩
  trans h h' := ⟨h'.records.trans h.records, h'.traps.trans h.traps, h'.updates.trans h.updates,
    h'.updateFaults.trans h.updateFaults, h'.entries.trans h.entries, h.starts.trans h'.starts⟩

theorem Idle.steps : LoadSteps Idle where
  toOrdered := Idle.ordered
  log _ _ := ⟨rfl, rfl, rfl, rfl, rfl, .of_eq rfl⟩
  memory _ _ := ⟨rfl, rfl, rfl, rfl, rfl, .of_eq rfl⟩
  allocate pages := .of_run fun w => by
    rcases allocatePages_run pages w with ⟨e, -, h⟩ | ⟨base, memory, -, log, h⟩
    · exact ⟨_, _, h, rfl, rfl, rfl, rfl, rfl, .of_push rfl rfl⟩
    · exact ⟨_, _, h, rfl, rfl, rfl, rfl, rfl, .of_push rfl rfl⟩
  free base pages w := by
    obtain ⟨allocations, h⟩ := freePages_after base pages w
    rw [h]
    exact ⟨rfl, rfl, rfl, rfl, rfl, .of_push rfl rfl⟩

/-- The image of a launch has got control: its handle has its record, put there by one update, and a trap. -/
structure InControl (context : LaunchContext) (w : World) (launching : Launching) (now : World) : Prop where
  context_eq : launching.context = context
  saved : w.records.find? context.handle = some launching.saved
  records : now.records = w.records.insert context.handle launching.installed
  token : launching.token = (w.traps.install context.handle).1
  traps : now.traps = (w.traps.install context.handle).2
  updates : now.updates = w.updates + 1
  updateFaults : now.updateFaults = w.updateFaults
  entries : now.entries = w.entries

/-- What a launch comes to up to that moment. -/
def Prepared (context : LaunchContext) (w now : World) :
    Except (Loader × Except LoadError Exit) (Loader × Launching) → Prop
  | .error _ => now.records = w.records ∧ now.traps = w.traps
  | .ok claim => InControl context w claim.2 now

/-- Where signatures are not checked, nothing is started before the image itself gets control. -/
theorem Loader.start_prepared {l : Loader} {raw : Bytes} {context : LaunchContext} (hv : l.validates w = false)
    {r : Except (Loader × Except LoadError Exit) (Loader × Launching)} (h : l.start raw context w = .ok r w') :
    Prepared context w w' r ∧ Emits (·.isStart = false) w w' := by
  obtain ⟨log, hm⟩ := l.mustValidate_run (n := 0) w
  unfold start at h
  rw [bind_of_ok hm, hv, if_neg Bool.false_ne_true] at h
  obtain ⟨⟨l₁, loaded⟩, w₁, hload, h⟩ := bind_eq_ok_iff.mp h
  have hidle : Idle w w₁ := Idle.ordered.trans (Idle.steps.log w log) ((Idle.steps.load l raw).of_ok hload)
  cases loaded with
  | error e =>
    cases h
    exact ⟨⟨hidle.records, hidle.traps⟩, hidle.starts⟩
  | ok loaded =>
    obtain ⟨header, image⟩ := loaded
    obtain ⟨log₁, h⟩ := (l₁.silent_enter (n := 0) .launched).bind_eq_ok h
    obtain ⟨started, w₂, hstart, h⟩ := bind_eq_ok_iff.mp h
    have hidle : Idle w { w₁ with log := log₁ } := Idle.ordered.trans hidle (Idle.steps.log w₁ log₁)
    have hemits : Emits (·.isStart = false) w w₂ := hidle.starts.trans
      ((Launching.emits_start (fun _ _ => rfl) (fun _ _ => rfl) (fun _ _ => rfl) image context).of_ok hstart)
    have hstarted := Launching.start_eq_ok hstart
    cases started with
    | error e =>
      obtain ⟨l₂, hf⟩ := (l₁.withStage .launched).silent_finish (n := 0) (.error e)
      obtain ⟨log₂, h⟩ := hf.bind_eq_ok h
      cases h
      exact ⟨⟨hstarted.1.trans hidle.records, hstarted.2.trans hidle.traps⟩, hemits⟩
    | ok launching =>
      cases h
      obtain ⟨-, hcontext, hsaved, hrecords, htoken, htraps, hupdates, hfaults, hentries⟩ := hstarted
      refine ⟨?_, hemits⟩
      exact {
        context_eq := hcontext
        saved := by rw [← hidle.records]; exact hsaved
        records := by rw [hrecords, ← hidle.records]
        token := by rw [htoken, ← hidle.traps]
        traps := by rw [htraps, ← hidle.traps]
        updates := by rw [hupdates, ← hidle.updates]
        updateFaults := hfaults.trans hidle.updateFaults
        entries := hentries.trans hidle.entries }

/-- An image has run: pages and records are as they were, every trap is the one it was, whatever it has
    caught, and so many images were started at most. -/
structure Ran (k : Nat) (w w' : World) : Prop where
  pages : SamePages w w'
  records : w'.records = w.records
  updates : w'.updates = w.updates
  updateFaults : w'.updateFaults = w.updateFaults
  traps (handle : Handle) :
    (w'.traps.slots.find? handle).map (·.generation) = (w.traps.slots.find? handle).map (·.generation)
  starts : Starts k w w'

theorem Ran.trans {i j : Nat} {w'' : World} (h : Ran i w w') (h' : Ran j w' w'') : Ran (i + j) w w'' where
  pages := SamePages.ordered.trans h.pages h'.pages
  records := h'.records.trans h.records
  updates := h'.updates.trans h.updates
  updateFaults := h'.updateFaults.trans h.updateFaults
  traps handle := (h'.traps handle).trans (h.traps handle)
  starts := h.starts.trans h'.starts

theorem Ran.of_eq (w : World) (entries : List EntryScript) (entryStatus : Status) (entryCalls : List (Address × Handle))
    (recordsAtEntry : List LoadedImage) : Ran 0 w { w with entries, entryStatus, entryCalls, recordsAtEntry } :=
  ⟨⟨rfl, rfl, .of_eq rfl⟩, rfl, rfl, rfl, fun _ => rfl, .of_emits (.of_eq rfl)⟩

theorem Ran.ordered : Ordered (Ran 0) := ⟨fun _ => Ran.of_eq .., Ran.trans⟩

theorem generation_onExit (t : Traps) (h handle : Handle) (exit : Exit) :
    ((t.onExit h exit).2.slots.find? handle).map (·.generation) = (t.slots.find? handle).map (·.generation) := by
  by_cases hh : handle = h
  · subst hh
    rw [Traps.find?_onExit_self, Option.map_map]
    rfl
  · rw [Traps.find?_onExit_of_ne hh]

section Scripts

variable {launch : Handle → Bytes → Sim (Except LoadError Exit)}

theorem ran_performAll {acts : List Act} (h : ∀ act ∈ acts, ∀ handle image, act ≠ .launch handle image) :
    Total (Ran 0) (performAll launch acts) := by
  have hemit (r : Reply) : Total (Ran 0) (emit (.act r)) := fun w =>
    ⟨(), _, rfl, ⟨rfl, rfl, .of_push rfl ⟨rfl, rfl⟩⟩, rfl, rfl, rfl, fun _ => rfl, .of_emits (.of_push rfl rfl)⟩
  induction acts with
  | nil => exact .pure Ran.ordered _
  | cons act acts ih =>
    refine .bind Ran.ordered ?_ fun _ => ih fun act hact => h act (List.mem_cons_of_mem _ hact)
    cases act with
    | exit handle exit =>
      refine .bind Ran.ordered (fun w => ?_) fun _ => hemit _
      obtain ⟨log, hr⟩ := onExitIn_run handle exit w
      exact ⟨_, _, hr, ⟨rfl, rfl, .of_eq rfl⟩, rfl, rfl, rfl, fun _ => generation_onExit .., .of_emits (.of_eq rfl)⟩
    | unload handle => exact .bind Ran.ordered (fun w => ⟨_, w, rfl, Ran.ordered.refl w⟩) fun _ => hemit _
    | launch handle image => exact absurd rfl (h _ (List.mem_cons_self ..) handle image)

theorem ran_runScript
    (hw : ∀ script ∈ w.entries, ∀ act ∈ script.acts, ∀ handle image, act ≠ .launch handle image) :
    ∃ u w', runScript launch w = .ok u w' ∧ Ran 0 w w' := by
  unfold runScript
  rw [get_bind]
  cases hentries : w.entries with
  | nil => exact ⟨(), w, rfl, Ran.ordered.refl w⟩
  | cons script entries =>
    have hacts := hw script (by simp [hentries])
    obtain ⟨u, v, hr, hran⟩ : ∃ u v, performAll launch script.acts { w with entries } = .ok u v ∧
        Ran 0 { w with entries } v := ran_performAll hacts _
    dsimp only
    rw [set_bind, bind_of_ok hr]
    have htaken : Ran 0 w { w with entries } := Ran.of_eq w entries _ _ _
    exact ⟨(), _, rfl, htaken.trans (hran.trans (Ran.of_eq v v.entries script.status _ _))⟩

/-- An image that launches no other runs to its end. -/
theorem ran_callEntry (hw : ∀ script ∈ w.entries, ∀ act ∈ script.acts, ∀ handle image, act ≠ .launch handle image)
    (entry : Address) (handle : Handle) :
    ∃ status w', callEntry launch entry handle w = .ok status w' ∧ Ran 1 w w' := by
  unfold callEntry
  rw [get_bind, emit_bind]
  have hscript (e : Event) : ∃ u v, runScript launch { w with events := w.events.push e } = .ok u v ∧
      Ran 0 { w with events := w.events.push e } v := ran_runScript hw
  obtain ⟨u, v, hr, hran⟩ := hscript (.callEntry entry handle (w.records.find? handle) (w.imageMemory? handle)
    (w.traps.isInstalled handle))
  rw [bind_of_ok hr]
  refine ⟨_, _, rfl, Ran.trans (i := 1) (j := 0) ?_ (hran.trans (Ran.of_eq v v.entries v.entryStatus _ _))⟩
  exact ⟨⟨rfl, rfl, .of_push rfl ⟨rfl, rfl⟩⟩, rfl, rfl, rfl, fun _ => rfl, _, .push rfl, List.countP_le_length⟩

end Scripts

end Image

/-! ## Behind it -/

/-- A machine on which no program has run yet: it gives out pages above those that are live, and another
    handle than that of this program, and no image that it is to run launches others. -/
structure Sim.Plain (w : World) : Prop where
  pages : PagesBelow w
  handle : (⟨w.nextHandle + 1⟩ : Handle) ≠ ownHandle
  alone : ∀ script ∈ w.entries, ∀ act ∈ script.acts, ∀ handle image, act ≠ .launch handle image

/-- What the run of a program leaves behind: the pages that were live; the record of this program, unless
    the update that puts it back is made to fail, which is the second from the first world on; no trap on
    this program's handle, if there was none; and one image at most has been started. -/
structure Sim.Leaves (w w' : World) : Prop where
  pages (base : Address) : w'.allocations.find? base = w.allocations.find? base
  record : w.updateFaults.find? (w.updates + 2) = none → w'.records.find? ownHandle = w.records.find? ownHandle
  untrapped : w.traps.isInstalled ownHandle = false → w'.traps.isInstalled ownHandle = false
  starts : Starts 1 w w'

theorem Sim.Spares.leaves (h : Spares 1 w w') : Leaves w w' where
  pages base := by rw [h.allocations]
  record _ := h.record
  untrapped ht := by rw [h.traps, ht]
  starts := h.starts

section Aside

variable {v v' : World}

theorem Sim.Plain.of_inner_eq (hw : Plain w) (h : v.inner = w.inner) : Plain v where
  pages := by
    have hmemory : v.memory = w.memory := eq_of_inner_eq (fun _ => rfl) h
    have hallocations : v.allocations = w.allocations := eq_of_inner_eq (fun _ => rfl) h
    unfold PagesBelow
    rw [hmemory, hallocations]
    exact hw.pages
  handle := by
    have hhandle : v.nextHandle = w.nextHandle := eq_of_inner_eq (fun _ => rfl) h
    rw [hhandle]
    exact hw.handle
  alone := by
    have hentries : v.entries = w.entries := eq_of_inner_eq (fun _ => rfl) h
    rw [hentries]
    exact hw.alone

/-- Before and behind a program, nothing counts that is aside from the machine. -/
theorem Sim.Leaves.around (h : Leaves v v') (hbefore : Beside (·.isAside = true) w v)
    (hbehind : Beside (·.isAside = true) v' w') : Leaves w w' where
  pages base := by
    have hv : v.allocations = w.allocations := eq_of_inner_eq (fun _ => rfl) hbefore.inner_eq
    have hw' : w'.allocations = v'.allocations := eq_of_inner_eq (fun _ => rfl) hbehind.inner_eq
    rw [hw', h.pages, hv]
  record := by
    have hv : v.records = w.records := eq_of_inner_eq (fun _ => rfl) hbefore.inner_eq
    have hupdates : v.updates = w.updates := eq_of_inner_eq (fun _ => rfl) hbefore.inner_eq
    have hfaults : v.updateFaults = w.updateFaults := eq_of_inner_eq (fun _ => rfl) hbefore.inner_eq
    have hw' : w'.records = v'.records := eq_of_inner_eq (fun _ => rfl) hbehind.inner_eq
    have hrecord := h.record
    rw [hv, hupdates, hfaults] at hrecord
    rw [hw']
    exact hrecord
  untrapped := by
    have hv : v.traps = w.traps := eq_of_inner_eq (fun _ => rfl) hbefore.inner_eq
    have hw' : w'.traps = v'.traps := eq_of_inner_eq (fun _ => rfl) hbehind.inner_eq
    rw [hw', ← hv]
    exact h.untrapped
  starts := by
    have hnone {w w' : World} (h : Beside (·.isAside = true) w w') : Starts 0 w w' := by
      obtain ⟨-, es, hn, he⟩ := h
      exact .of_emits ⟨es, hn, fun e hm => Event.isStart_of_aside (he e hm)⟩
    exact (hnone hbefore).trans (h.starts.trans (hnone hbehind))

/-- Where no program is run at all. -/
theorem Sim.Leaves.of_beside (h : Beside (·.isAside = true) w w') : Leaves w w' :=
  Leaves.around ⟨fun _ => rfl, fun _ => rfl, id, [], .nil rfl, Nat.zero_le 1⟩ h ((Beside.ordered _).refl w')

end Aside

namespace Image

/-- An image that got control has run, and its launch is settled: its trap is taken away, and the record
    put back if that can be done. -/
theorem InControl.settled {context : LaunchContext} {launching : Launching} {now later : World} {status : Status}
    {exit : Exit} {k : Nat} (h : InControl context w launching now) (hran : Ran k now later)
    (hf : launching.finish (machine 0).toFirmware trapsCell status later = .ok exit w') :
    (w.updateFaults.find? (w.updates + 2) = none →
      w'.records.find? context.handle = w.records.find? context.handle) ∧
    w'.traps.slots.find? context.handle = none := by
  obtain ⟨htraps, hrecords⟩ := Launching.finish_eq_ok hf
  rw [h.context_eq] at hrecords
  constructor
  · intro hfault
    -- the update that put the image's record there was the first, so the one that can fail is the second
    have hrestored : launching.Restored later := by
      refine Launching.update_eq_ok_iff.mpr ⟨?_, Table.contains_iff.mpr ⟨launching.installed, ?_⟩⟩
      · rw [hran.updateFaults, hran.updates, h.updateFaults, h.updates]
        exact hfault
      · rw [hran.records, h.records, h.context_eq, Table.find?_insert_self]
    rw [hrecords hrestored, Table.find?_insert_self, h.saved]
  · have hgeneration := hran.traps context.handle
    rw [h.traps, Traps.find?_install_self, Option.map_some, ← h.token] at hgeneration
    obtain ⟨⟨generation, kept⟩, hslot, rfl⟩ := Option.map_eq_some_iff.mp hgeneration
    have hhandle : launching.token.handle = context.handle := by
      rw [h.token]
      rfl
    rw [htraps, ← hhandle]
    rw [← hhandle] at hslot
    exact Traps.find?_take_self hslot

/-- Where signatures are not checked, a launch on this program's own handle. -/
theorem Loader.leaves_unchecked (hw : Plain w) {l : Loader} {raw : Bytes} {context : LaunchContext}
    (hv : l.validates w = false) (hc : context.handle = ownHandle) :
    ∃ r w', l.loadAndLaunch (machine n).toFirmware trapsCell raw context w = .ok r w' ∧ Leaves w w' := by
  obtain ⟨launch, hlaunch⟩ : ∃ launch, (machine n).callEntry = callEntry launch := by cases n <;> exact ⟨_, rfl⟩
  -- the launch in its two parts, before the call of the entry point and behind it
  rw [machine_toFirmware, loadAndLaunch_eq, orClaim]
  have hstart : Ledger w [] w := .start hw.pages
  obtain ⟨r, v, hr, hledger⟩ := l.books_start raw context w hstart
  obtain ⟨hprepared, hemits⟩ := l.start_prepared hv hr
  rw [bind_of_ok hr]
  cases r with
  | error r =>
    refine ⟨r, v, rfl, hledger.settled.1, fun _ => ?_, fun ht => ?_, .of_emits hemits⟩
    · rw [hprepared.1]
    · rw [hprepared.2, ht]
  | ok claim =>
    have halone := hw.alone
    rw [← hprepared.entries] at halone
    obtain ⟨status, later, hcall, hran⟩ : ∃ status later, (machine n).callEntry claim.2.image.entry
        claim.2.context.handle v = .ok status later ∧ Ran 1 v later := by
      rw [hlaunch]
      exact ran_callEntry halone _ _
    dsimp only
    rw [bind_of_ok hcall]
    obtain ⟨r', w', hsettle, hledger'⟩ := claim.1.books_settle claim.2 status later (hledger.quiet hran.pages)
    refine ⟨r', w', hsettle, ?_⟩
    obtain ⟨exit, w₁, hfinish, hend⟩ := bind_eq_ok_iff.mp hsettle
    obtain ⟨l', hsilent⟩ := claim.1.silent_finish (n := 0) (.ok exit)
    obtain ⟨-, log, rfl⟩ := hsilent.eq_ok hend
    obtain ⟨hrecord, htrap⟩ := hprepared.settled hran hfinish
    rw [hc] at hrecord htrap
    have hfinished : Emits (·.isStart = false) later w₁ :=
      (claim.2.emits_finish (fun _ _ => rfl) (fun _ _ => rfl) status).of_ok hfinish
    refine ⟨hledger'.settled.1, hrecord, fun _ => ?_, ?_⟩
    · rw [Traps.isInstalled, Table.contains, htrap]
      rfl
    · have hbefore : Starts 0 w v := .of_emits hemits
      have hbehind : Starts 0 later w₁ := .of_emits hfinished
      exact hbefore.trans (hran.starts.trans hbehind)

theorem Loader.leaves_loadAndLaunch (hw : Plain w) (l : Loader) (raw : Bytes) {context : LaunchContext}
    (hc : context.handle = ownHandle) :
    ∃ r w', l.loadAndLaunch (machine n).toFirmware trapsCell raw context w = .ok r w' ∧ Leaves w w' := by
  cases hv : l.validates w with
  | false => exact leaves_unchecked hw hv hc
  | true =>
    obtain ⟨log, hm⟩ := l.mustValidate_run (n := n) w
    obtain ⟨r, w', hr, hspares⟩ := l.spares_launchValidated (n := n) (w := { w with log }) hw.handle raw context
    have hlog := Spares.log w log
    refine ⟨r, w', ?_, (hlog.trans hspares).leaves⟩
    unfold loadAndLaunch
    rw [bind_of_ok hm, hv, if_pos rfl]
    exact hr

end Image

namespace Boot.Chainloader

theorem spares_of_talk (h : Talk w w') : Spares 0 w w' := by
  obtain ⟨⟨_, _, _, _, _, _, rfl⟩, es, hn, he⟩ := h
  exact .of_emits rfl rfl rfl ⟨es, hn, fun e hm => Event.isStart_of_aside (he e hm)⟩

/-- The firmware starts an image that it has loaded, and unloads it. -/
theorem spares_startLoaded {image : Handle} (hne : image ≠ ownHandle) (context : Image.LaunchContext) :
    Total (Spares 1) (startLoaded ⟨machine n, d⟩ image context) := by
  unfold startLoaded Journal.debug
  rw [machine_toJournal, machine_loadedImage, machine_setLoadedImage, machine_startImage, machine_unloadImage]
  refine Spares.bind_before (Spares.query image) fun r => ?_
  cases r with
  | error e => exact Spares.silent (.pure _)
  | ok record =>
    refine Spares.bind_before (fun w => ?_) fun _ => Spares.bind_before (Spares.update hne _) fun r => ?_
    · obtain ⟨u, v, hr, htalk⟩ := Session.talk_sayDebug (n := n) (d := d) _ w
      exact ⟨u, v, hr, spares_of_talk htalk⟩
    · cases r with
      | error e => exact Spares.silent (.pure _)
      | ok u =>
        refine Spares.bind_after (Spares.startImage image) fun exit => ?_
        refine Spares.bind_before (Spares.unloadImage hne) fun status => ?_
        dsimp only
        split
        · exact Spares.silent (.bind (.note _) (.pure _))
        · exact Spares.silent (.pure _)

theorem spares_startByFirmware (hw : (⟨w.nextHandle + 1⟩ : Handle) ≠ ownHandle) (raw : Bytes)
    (context : Image.LaunchContext) :
    ∃ r w', startByFirmware ⟨machine n, d⟩ raw context w = .ok r w' ∧ Spares 1 w w' := by
  unfold startByFirmware Journal.error
  rw [machine_toJournal, machine_loadImage]
  obtain ⟨log, hs⟩ := (Image.Loader.silent_select (n := n) {} raw).bind_run _ w
  rw [hs]
  have hlog := Spares.log w log
  cases Image.Fat.select raw (Image.LoaderConfig.machine {}) with
  | error e => exact hlog.goes_on (Spares.silent (.pure _))
  | ok selection =>
    dsimp only [Except.map]
    obtain ⟨r, v, hr, hspares, hne⟩ :=
      Spares.loadImage_run (w := { w with log }) hw context.handle context.path (selection.apply raw)
    rw [bind_of_ok hr]
    have hloaded : Spares 0 w v := hlog.trans hspares
    refine hloaded.goes_on ?_
    cases r with
    | error status => exact Spares.silent (.bind (.note _) (.pure _))
    | ok image => exact spares_startLoaded (hne image rfl) context

/-- Whoever starts it, and whether or not its signature is checked. -/
theorem leaves_start (hw : Plain w) (c : Chainloader) (raw : Bytes) {context : Image.LaunchContext}
    (hc : context.handle = ownHandle) :
    ∃ r w', c.start ⟨machine n, d⟩ trapsCell raw context w = .ok r w' ∧ Leaves w w' := by
  unfold start
  cases c.strategy with
  | core =>
    obtain ⟨r, w', hr, hleaves⟩ := c.loader.leaves_loadAndLaunch (n := n) hw raw hc
    exact ⟨_, w', bind_of_ok hr _, hleaves⟩
  | firmware =>
    obtain ⟨log, hm⟩ := c.loader.mustValidate_run (n := n) w
    have hlog := Spares.log w log
    dsimp only
    rw [bind_of_ok hm]
    cases c.loader.validates w with
    | true =>
      obtain ⟨r, w', hr, hspares⟩ :=
        c.loader.spares_launchValidated (n := n) (w := { w with log }) hw.handle raw context
      exact ⟨_, w', bind_of_ok hr _, (hlog.trans hspares).leaves⟩
    | false =>
      obtain ⟨r, w', hr, hspares⟩ :=
        spares_startByFirmware (n := n) (d := d) (w := { w with log }) hw.handle raw context
      exact ⟨r, w', hr, (hlog.trans hspares).leaves⟩

theorem Approach.beside (h : Approach w w') : Beside (·.isAside = true) w w' := by
  obtain ⟨⟨_, _, _, _, _, _, _, _, rfl⟩, h⟩ := h
  exact ⟨rfl, h⟩

/-- The run of a program ends, and only a program that ended well is its result. -/
theorem leaves_run (hw : Plain w) (c : Chainloader) (name : String) (server : Net.Ipv4) :
    ∃ final w', c.run ⟨machine n, d⟩ trapsCell name server w = .ok final w' ∧ Leaves w w' ∧
      ∀ exit, final = .ok exit → exit.isSuccess = true := by
  rcases c.run_around (n := n) (d := d) name server w with
    ⟨e, w', hr, hstop⟩ | ⟨raw, context, v, hown, happroach, hok, -⟩
  · exact ⟨_, w', hr, .of_beside hstop.beside, fun _ h => (nomatch h)⟩
  · obtain ⟨result, v', hstart, hleaves⟩ :=
      c.leaves_start (n := n) (d := d) (hw.of_inner_eq happroach.beside.inner_eq) raw hown
    obtain ⟨final, w', hr, htalk, -, hsuccess⟩ := hok result v' hstart
    exact ⟨final, w', hr, hleaves.around happroach.beside (Approach.of_talk htalk).beside, hsuccess⟩

end Boot.Chainloader

end NetBoot
