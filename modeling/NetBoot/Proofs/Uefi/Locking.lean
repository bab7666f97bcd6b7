/-
  NetBoot.Proofs.Uefi.Locking — when the lock of the hooks is free.

  The hooks are turned to by the program that puts them in and by the images that run (`Turn`). Whoever
  finds their lock held waits for ever, so it is to be free whenever code runs that may turn to them.
  Two things are done with it held all the same: the checksum of the table, and an exit that is
  forwarded. What the firmware does inside such an exit may lead back to the hooks, and if it ends an
  image that it has started, it never comes back to let go of the lock.

  Nothing else goes wrong. As long as every exit that the firmware sees with the lock held comes
  straight back (`Act.Returns`), no other code of the firmware or of an image runs with the lock held,
  the lock is free behind every turn, whichever way control leaves it, and no turn waits
  (`lock_free_while_exits_return`).

  Whether an exit is forwarded depends on the traps and points that it finds, so the condition is on
  the exits that the run shows to have been forwarded (`World.sawExit`). Up to the first exit that is
  none of these, the world is at rest behind every act (`AtRest`); from there on the world recalls that
  exit (`Recalls`), and the run is not one that the condition speaks of.
-/

import NetBoot.Proofs.Uefi.Resume

namespace NetBoot.Uefi

variable {α : Type} {w w' : World} {handle : Handle} {forwarded : Handle → Prop} {running : List Handle}
  {calls : Array Event}

/-! ## Turns -/

/-- A turn to the hooks, by the program that puts them in or by an image. -/
inductive Turn where
  | install (table : Address)
  | remove
  | register (handle : Handle) (point : ResumePoint)
  | unregister (handle : Handle)
  /-- The loader sets its traps. -/
  | trap (traps : Image.Traps)
  | act (act : Act)

def Turn.run : Turn → Uefi Unit
  | .install table => do let _ ← Hooks.install table
  | .remove => Hooks.remove
  | .register handle point => Hooks.register handle point
  | .unregister handle => Hooks.unregister handle
  | .trap traps => trapsIn.set traps
  | .act a => perform a

/-- The world in which control comes out of a turn, whichever way. -/
def Turn.after (turn : Turn) (w : World) : World :=
  match turn.run w with
  | .ok _ w' | .error _ w' => w'

/-- The world behind some turns. -/
def afterTurns (turns : List Turn) (w : World) : World := turns.foldl (fun w turn => turn.after w) w

/-- The turns, each with the world that it finds. -/
def found : List Turn → World → List (Turn × World)
  | [], _ => []
  | turn :: turns, w => (turn, w) :: found turns (turn.after w)

/-! ## Exits that come straight back -/

/-- Is this an exit on the handle? -/
def Event.isExitOn (handle : Handle) : Event → Bool
  | .exit h .. => h == handle
  | _ => false

/-- Is this the checksum of a table or an exit? -/
def Event.isChecksumOrExit : Event → Bool
  | .calculateCrc _ | .exit .. => true
  | _ => false

/-- Has an exit on this handle come to the firmware with the lock held? -/
def World.sawExit (w : World) (handle : Handle) : Prop := ∃ e ∈ w.lockedCalls, e.isExitOn handle = true

mutual

/-- The exits on handles that count as forwarded come straight back: they are not on an image that the
    firmware has started and that runs, and the firmware does nothing inside. -/
def Act.Returns (forwarded : Handle → Prop) (running : List Handle) : Act → Prop
  | .exit call inside =>
    (forwarded call.handle → call.handle ∉ running ∧ inside = []) ∧ AllReturn forwarded running inside
  | .unload _ => True
  | .launch _ acts _ => AllReturn forwarded running acts
  | .start handle acts => AllReturn forwarded (handle :: running) acts

def AllReturn (forwarded : Handle → Prop) (running : List Handle) : List Act → Prop
  | [] => True
  | act :: acts => act.Returns forwarded running ∧ AllReturn forwarded running acts

end

def Turn.Returns (forwarded : Handle → Prop) (running : List Handle) : Turn → Prop
  | .act a => a.Returns forwarded running
  | _ => True

/-! ## Exits that are recalled -/

/-- An exit that does not count as forwarded has come to the firmware with the lock held. -/
def Escaped (forwarded : Handle → Prop) (w : World) : Prop := ∃ handle, w.sawExit handle ∧ ¬ forwarded handle

theorem Escaped.mono (h : Escaped forwarded w) (hk : ∀ e ∈ w.lockedCalls, e ∈ w'.lockedCalls) :
    Escaped forwarded w' := by
  obtain ⟨handle, ⟨e, he, hexit⟩, hf⟩ := h
  exact ⟨handle, ⟨e, hk e he, hexit⟩, hf⟩

theorem Escaped.lasting : Lasting (Escaped forwarded) where
  same hs h := h.mono hs.calls.kept
  locked _ h := h.mono fun _ => id
  points _ h := h.mono fun _ => id
  pending _ h := h.mono fun _ => id

/-- Whichever way the computation ends, the world recalls such an exit. -/
abbrev Recalls (forwarded : Handle → Prop) (x : Uefi α) : Prop :=
  Keeps (Escaped forwarded) (fun _ => Escaped forwarded) x

theorem Ordinary.recalls {x : Uefi α} (hx : Ordinary x) : Recalls forwarded x := hx _ Escaped.lasting

/-! ## The world at rest -/

/-- What stands in the two slots of a table. -/
def World.slots? (w : World) (table : Address) : Option (Service × Service) :=
  (w.services.find? table).map fun t => (t.exit, t.unload)

/-- The hooks have saved the firmware's own services, and those stand in all tables but the one that
    they were saved from. -/
structure FirmwareSaved (w : World) : Prop where
  saved : ∀ saved, w.hooks.saved = some saved → saved.exit = .firmware ∧ saved.unload = .firmware
  elsewhere : ∀ table, w.hooks.saved.map SavedServices.table ≠ some table →
    ∀ slots, w.slots? table = some slots → slots = (.firmware, .firmware)

namespace FirmwareSaved

/-- A table is hooked while nothing is saved: every slot holds a service of the firmware then. -/
theorem hooked {table : Address} {slots : Service × Service} (h : FirmwareSaved w) (hnone : w.hooks.saved = none)
    (hslot : w.slots? table = some slots) (hsaved : w'.hooks.saved = some ⟨table, slots.1, slots.2⟩)
    (hslots : ∀ t, t ≠ table → w'.slots? t = w.slots? t) : FirmwareSaved w' := by
  have hfirmware : ∀ t s, w.slots? t = some s → s = (.firmware, .firmware) := fun t => h.elsewhere t (by rw [hnone]; nofun)
  refine ⟨?_, fun t ht s hs => ?_⟩
  · rw [hsaved]
    rintro _ ⟨⟩
    exact Prod.mk.inj (hfirmware table slots hslot)
  · rw [hsaved] at ht
    rw [hslots t fun h => ht (congrArg some h.symm)] at hs
    exact hfirmware t s hs

/-- What was saved is put back. -/
theorem unhooked {saved : SavedServices} (h : FirmwareSaved w) (hsaved : w.hooks.saved = some saved)
    (hnone : w'.hooks.saved = none) (hslot : ∀ s, w'.slots? saved.table = some s → s = (saved.exit, saved.unload))
    (hslots : ∀ t, t ≠ saved.table → w'.slots? t = w.slots? t) : FirmwareSaved w' := by
  obtain ⟨hexit, hunload⟩ := h.saved saved hsaved
  refine ⟨by rw [hnone]; nofun, fun t _ s hs => ?_⟩
  by_cases ht : t = saved.table
  · rw [hslot s (ht ▸ hs), hexit, hunload]
  · rw [hslots t ht] at hs
    refine h.elsewhere t (fun hsame => ht ?_) s hs
    rw [hsaved] at hsame
    exact (Option.some.inj hsame).symm

end FirmwareSaved

/-- The lock is free, these are the images that the firmware has started and that run, and with the
    lock held there were only these calls, checksums and exits. -/
structure AtRest (running : List Handle) (calls : Array Event) (w : World) : Prop where
  unlocked : w.hooks.locked = false
  saved : FirmwareSaved w
  running : w.pending.starts = running
  calls : ∀ e ∈ w.lockedCalls, e ∈ calls ∨ e.isChecksumOrExit = true

theorem AtRest.of_eq {running' : List Handle} (h : AtRest running' calls w) (hlocked : w'.hooks.locked = w.hooks.locked)
    (hsaved : w'.hooks.saved = w.hooks.saved) (hservices : w'.services = w.services)
    (hcalls : w'.lockedCalls = w.lockedCalls) (hrunning : w'.pending.starts = running) : AtRest running calls w' where
  unlocked := hlocked.trans h.unlocked
  saved := by
    refine ⟨?_, ?_⟩
    · rw [hsaved]
      exact h.saved.saved
    · unfold World.slots?
      rw [hsaved, hservices]
      exact h.saved.elsewhere
  running := hrunning
  calls := by
    rw [hcalls]
    exact h.calls

theorem AtRest.same (h : AtRest running calls w) (hs : SameHooks w w') : AtRest running calls w' :=
  h.of_eq (by rw [hs.hooks]) (by rw [hs.hooks]) hs.services (hs.calls.unlocked h.unlocked) (by rw [hs.pending, h.running])

/-! ## The hooked table -/

theorem World.mem_noting {e e' : Event} (h : e' ∈ (w.noting e).lockedCalls) : e' ∈ w.lockedCalls ∨ e' = e := by
  rw [World.noting] at h
  split at h
  · exact Array.mem_push.mp h
  · exact .inl h

/-- The calls that run are as they were, and no call but checksums and exits has come with the lock
    held. -/
structure Quiet (w w' : World) : Prop where
  pending : w'.pending = w.pending
  kept : ∀ e ∈ w.lockedCalls, e ∈ w'.lockedCalls
  added : ∀ e ∈ w'.lockedCalls, e ∈ w.lockedCalls ∨ e.isChecksumOrExit = true

namespace Quiet

theorem of_eq (hpending : w'.pending = w.pending) (hcalls : w'.lockedCalls = w.lockedCalls) : Quiet w w' where
  pending := hpending
  kept _ he := hcalls ▸ he
  added _ he := .inl (hcalls ▸ he)

theorem trans {w'' : World} (h : Quiet w w') (h' : Quiet w' w'') : Quiet w w'' where
  pending := h'.pending.trans h.pending
  kept e he := h'.kept e (h.kept e he)
  added e he := (h'.added e he).elim (h.added e) .inr

/-- The world stays at rest if the lock is free and what was saved fits. -/
theorem atRest (h : Quiet w w') (hl : w'.hooks.locked = false) (hs : FirmwareSaved w')
    (hw : AtRest running calls w) : AtRest running calls w' where
  unlocked := hl
  saved := hs
  running := (congrArg Pending.starts h.pending).trans hw.running
  calls e he := (h.added e he).elim (hw.calls e) .inr

end Quiet

/-- Nothing has happened to the hooks and to the slots of the tables. -/
structure SlotsKept (w w' : World) : Prop extends Quiet w w' where
  hooks : w'.hooks = w.hooks
  slots : ∀ table, w'.slots? table = w.slots? table

theorem editTable_run (table : Address) {f : BootServices → BootServices} {g : Service × Service → Service × Service}
    (hf : ∀ t, ((f t).exit, (f t).unload) = g (t.exit, t.unload)) (w : World) :
    ∃ w', Hooks.editTable table f w = .ok () w' ∧ w'.hooks = w.hooks ∧ w'.pending = w.pending ∧
      w'.lockedCalls = w.lockedCalls ∧ ∀ t, w'.slots? t = if t = table then (w.slots? t).map g else w.slots? t := by
  refine ⟨_, rfl, ?_⟩
  dsimp only
  cases hfind : w.services.find? table with
  | none =>
    refine ⟨rfl, rfl, rfl, fun t => ?_⟩
    by_cases h : t = table
    · subst h
      rw [if_pos rfl, World.slots?, hfind]
      rfl
    · rw [if_neg h]
  | some services =>
    refine ⟨rfl, rfl, rfl, fun t => ?_⟩
    by_cases h : t = table
    · subst h
      rw [if_pos rfl, World.slots?, World.slots?, Table.find?_insert_self, hfind]
      exact congrArg some (hf services)
    · rw [if_neg h, World.slots?, World.slots?, Table.find?_insert_of_ne _ _ h]

namespace SlotsKept

theorem trans {w'' : World} (h : SlotsKept w w') (h' : SlotsKept w' w'') : SlotsKept w w'' where
  toQuiet := h.toQuiet.trans h'.toQuiet
  hooks := h'.hooks.trans h.hooks
  slots table := (h'.slots table).trans (h.slots table)

theorem setCrc (table : Address) (crc : UInt32) (w : World) :
    ∃ w', Hooks.setCrc table crc w = .ok () w' ∧ SlotsKept w w' := by
  obtain ⟨w', hr, hhooks, hpending, hcalls, hslots⟩ :=
    editTable_run table (f := fun t => { t with header := { t.header with crc } }) (g := id) (fun _ => rfl) w
  refine ⟨w', hr, .of_eq hpending hcalls, hhooks, fun t => ?_⟩
  rw [hslots, Option.map_id_apply, ite_self]

theorem calculateCrc (w : World) :
    ∃ r w', Services.calculateCrc Hooks.tableSize w = .ok r w' ∧ SlotsKept w w' := by
  refine ⟨_, _, rfl, ⟨rfl, (CallsAdded.noting _ w).kept, fun e he => ?_⟩, rfl, fun _ => rfl⟩
  rcases World.mem_noting he with he | rfl
  · exact .inl he
  · exact .inr rfl

theorem updateCrc (table : Address) (w : World) :
    ∃ w', Hooks.updateCrc table w = .ok () w' ∧ SlotsKept w w' := by
  obtain ⟨w₁, hr₁, h₁⟩ := setCrc table 0 w
  obtain ⟨⟨status, crc⟩, w₂, hr₂, h₂⟩ := calculateCrc w₁
  rw [Hooks.updateCrc, bind_of_ok hr₁, bind_of_ok hr₂]
  dsimp only
  split
  · obtain ⟨w₃, hr₃, h₃⟩ := setCrc table crc w₂
    exact ⟨w₃, hr₃, h₁.trans (h₂.trans h₃)⟩
  · exact ⟨w₂, rfl, h₁.trans h₂⟩

theorem logIn (r : Log.Record) (w : World) : ∃ w', logIn r w = .ok () w' ∧ SlotsKept w w' := by
  refine ⟨_, rfl, ?_⟩
  by_cases h : r.shownAt w.logLimit
  · simp only [h, if_true]
    exact ⟨.of_eq rfl rfl, rfl, fun _ => rfl⟩
  · simp only [h, Bool.false_eq_true, if_false]
    exact ⟨.of_eq rfl rfl, rfl, fun _ => rfl⟩

end SlotsKept

/-! ## Putting the hooks in and taking them out -/

theorem refusal?_eq_none_iff {table : Address} : Hooks.refusal? w table = none ↔
    w.hooks.saved = none ∧
      ∃ services, w.services.find? table = some services ∧ services.header.isValid TableHeader.bootServices = true := by
  cases hsaved : w.hooks.saved with
  | some saved => simp [Hooks.refusal?, hsaved]
  | none => cases hfind : w.services.find? table <;> simp [Hooks.refusal?, hsaved, hfind]

/-- The hooks are in a table, and its services are saved. -/
structure Installed (table : Address) (services : BootServices) (w w' : World) : Prop extends Quiet w w' where
  hooks : w'.hooks = { w.hooks with saved := some ⟨table, services.exit, services.unload⟩, routed := true }
  slots : ∀ t, w'.slots? t = if t = table then some (.hook, .hook) else w.slots? t

/-- The services are back in the table that they were saved from, and the hooks know nothing more. -/
structure Removed (w w' : World) : Prop extends Quiet w w' where
  hooks : w'.hooks = {}
  slots : ∀ t, w'.slots? t =
    match w.hooks.saved with
    | some saved => if t = saved.table then (w.slots? t).map fun _ => (saved.exit, saved.unload) else w.slots? t
    | none => w.slots? t

namespace Removed

theorem slots_of_none (h : Removed w w') (hsaved : w.hooks.saved = none) (t : Address) : w'.slots? t = w.slots? t := by
  rw [h.slots, hsaved]

theorem slots_of_saved {saved : SavedServices} (h : Removed w w') (hsaved : w.hooks.saved = some saved) (t : Address) :
    w'.slots? t = if t = saved.table then (w.slots? t).map fun _ => (saved.exit, saved.unload) else w.slots? t := by
  rw [h.slots, hsaved]

end Removed

theorem install_refused {table : Address} {e : HookError} (hl : w.hooks.locked = false)
    (h : Hooks.refusal? w table = some e) : Hooks.install table w = .ok (.error e) w := by
  refine withLock_read hl ?_
  rw [get_bind, show Hooks.refusal? (w.withLocked true) table = some e from h]
  rfl

theorem install_accepted {table : Address} (hl : w.hooks.locked = false) (h : Hooks.refusal? w table = none) :
    ∃ services w', w.services.find? table = some services ∧ Hooks.install table w = .ok (.ok ()) w' ∧
      Installed table services w w' := by
  obtain ⟨-, services, hfind, -⟩ := refusal?_eq_none_iff.mp h
  let saved : SavedServices := ⟨table, services.exit, services.unload⟩
  let w₁ : World := { w.withLocked true with hooks := { w.hooks with locked := true, saved := some saved, routed := true } }
  obtain ⟨w₂, hr₂, hhooks, hpending, hcalls, hslots⟩ := editTable_run table
    (f := fun t => { t with exit := .hook, unload := .hook }) (g := fun _ => (.hook, .hook)) (fun _ => rfl) w₁
  obtain ⟨w₃, hr₃, h₃⟩ := SlotsKept.updateCrc table w₂
  obtain ⟨w₄, hr₄, h₄⟩ := SlotsKept.logIn ⟨.debug, "netchain_uefi::hooks", "Exit and UnloadImage hooked"⟩ w₃
  have hkept := h₃.trans h₄
  refine ⟨services, w₄.withLocked false, hfind, withLock_of_ok hl ?_, ?_⟩
  · rw [get_bind, show Hooks.refusal? (w.withLocked true) table = none from h]
    dsimp only
    rw [show (w.withLocked true).services.find? table = some services from hfind]
    have hr₁ : (set w₁ : Uefi Unit) (w.withLocked true) = .ok () w₁ := rfl
    exact (bind_of_ok hr₁ _).trans ((bind_of_ok hr₂ _).trans ((bind_of_ok hr₃ _).trans (bind_of_ok hr₄ _)))
  · have hquiet : Quiet w w₄ := .trans (.of_eq hpending hcalls) hkept.toQuiet
    refine ⟨⟨hquiet.pending, hquiet.kept, hquiet.added⟩, ?_, fun t => ?_⟩
    · rw [World.withLocked, hkept.hooks, hhooks, ← hl]
    · refine (hkept.slots t).trans ((hslots t).trans ?_)
      by_cases ht : t = table
      · rw [if_pos ht, if_pos ht, ht]
        exact congrArg (Option.map fun _ => _) (congrArg (Option.map _) hfind)
      · rw [if_neg ht, if_neg ht]
        rfl

theorem remove_run (hl : w.hooks.locked = false) : ∃ w', Hooks.remove w = .ok () w' ∧ Removed w w' := by
  -- What is done once the services are back.
  have hrest (v : World) : ∃ v', (do
      modify fun w => { w with hooks := { w.hooks with routed := false, points := .empty } }
      logIn ⟨.debug, "netchain_uefi::hooks", "Exit and UnloadImage restored"⟩ : Uefi Unit) v = .ok () v' ∧
        SlotsKept { v with hooks := { v.hooks with routed := false, points := .empty } } v' := by
    obtain ⟨v', hr, h⟩ := SlotsKept.logIn ⟨.debug, "netchain_uefi::hooks", "Exit and UnloadImage restored"⟩
      { v with hooks := { v.hooks with routed := false, points := .empty } }
    exact ⟨v', hr, h⟩
  cases hsaved : w.hooks.saved with
  | none =>
    obtain ⟨w', hr, h⟩ := hrest (w.withLocked true)
    refine ⟨w'.withLocked false, withLock_of_ok hl ?_, ⟨h.pending, h.kept, h.added⟩, ?_, ?_⟩
    · rw [get_bind, show (w.withLocked true).hooks.saved = none from hsaved]
      exact hr
    · rw [World.withLocked, h.hooks]
      exact congrArg (fun saved => ({ saved } : Hooks)) hsaved
    · rw [hsaved]
      exact h.slots
  | some saved =>
    let w₁ : World := { w.withLocked true with hooks := { w.hooks with locked := true, saved := none } }
    obtain ⟨w₂, hr₂, hhooks, hpending, hcalls, hslots⟩ := editTable_run saved.table
      (f := fun t => { t with exit := saved.exit, unload := saved.unload }) (g := fun _ => (saved.exit, saved.unload))
      (fun _ => rfl) w₁
    obtain ⟨w₃, hr₃, h₃⟩ := SlotsKept.updateCrc saved.table w₂
    obtain ⟨w₄, hr₄, h₄⟩ := hrest w₃
    refine ⟨w₄.withLocked false, withLock_of_ok hl ?_, ?_⟩
    · rw [get_bind, show (w.withLocked true).hooks.saved = some saved from hsaved]
      have hr₁ : (modify fun w => { w with hooks := { w.hooks with saved := none } } : Uefi Unit) (w.withLocked true) =
        .ok () w₁ := rfl
      exact (bind_of_ok hr₁ _).trans ((bind_of_ok hr₂ _).trans ((bind_of_ok hr₃ _).trans hr₄))
    · have hquiet : Quiet w w₄ :=
        .trans (.of_eq hpending hcalls) (.trans h₃.toQuiet ⟨h₄.pending, h₄.kept, h₄.added⟩)
      refine ⟨⟨hquiet.pending, hquiet.kept, hquiet.added⟩, ?_, ?_⟩
      · rw [World.withLocked, h₄.hooks, h₃.hooks, hhooks]
      · rw [hsaved]
        exact fun t => (h₄.slots t).trans ((h₃.slots t).trans (hslots t))

/-- Installing comes to its end, and the world stays at rest. -/
theorem install_atRest (hl : w.hooks.locked = false) (table : Address) :
    ∃ result w', Hooks.install table w = .ok result w' ∧ (∀ e ∈ w.lockedCalls, e ∈ w'.lockedCalls) ∧
      ∀ running calls, AtRest running calls w → AtRest running calls w' := by
  cases hrefused : Hooks.refusal? w table with
  | some error => exact ⟨.error error, w, install_refused hl hrefused, fun _ he => he, fun _ _ h => h⟩
  | none =>
    obtain ⟨services, w', hfind, hr, h⟩ := install_accepted hl hrefused
    refine ⟨.ok (), w', hr, h.kept, fun running calls hw => h.atRest (by rw [h.hooks, hl]) ?_ hw⟩
    have hslot : w.slots? table = some (services.exit, services.unload) := congrArg (Option.map _) hfind
    refine hw.saved.hooked (refusal?_eq_none_iff.mp hrefused).1 hslot (by rw [h.hooks]) fun t ht => ?_
    rw [h.slots, if_neg ht]

/-- So does removing. -/
theorem remove_atRest (hl : w.hooks.locked = false) :
    ∃ w', Hooks.remove w = .ok () w' ∧ (∀ e ∈ w.lockedCalls, e ∈ w'.lockedCalls) ∧
      ∀ running calls, AtRest running calls w → AtRest running calls w' := by
  obtain ⟨w', hr, h⟩ := remove_run hl
  refine ⟨w', hr, h.kept, fun running calls hw => h.atRest (by rw [h.hooks]) ?_ hw⟩
  have hnone : w'.hooks.saved = none := by rw [h.hooks]
  cases hsaved : w.hooks.saved with
  | none =>
    refine ⟨by rw [hnone]; nofun, fun t _ s hs => hw.saved.elsewhere t (by rw [hsaved]; nofun) s ?_⟩
    rw [← h.slots_of_none hsaved]
    exact hs
  | some saved =>
    refine hw.saved.unhooked hsaved hnone (fun s hs => ?_) fun t ht => (h.slots_of_saved hsaved t).trans (if_neg ht)
    rw [h.slots_of_saved hsaved, if_pos rfl] at hs
    obtain ⟨_, -, rfl⟩ := Option.map_eq_some_iff.mp hs
    rfl

/-! ## Forwarded exits -/

/-- What the firmware sees of an exit. -/
def Hooks.Exiting.event (e : Hooks.Exiting) : Event :=
  .exit e.call.handle e.call.status e.call.size e.buffer.isSome

section Forwarded

variable {inside : Uefi Unit} {e : Hooks.Exiting}

theorem forwardExit_none (hl : w.hooks.locked = false) (hsaved : w.hooks.saved = none) :
    Hooks.forwardExit inside e w = .ok .unsupported w := by
  refine withLock_read hl ?_
  rw [get_bind, show (w.withLocked true).hooks.saved = none from hsaved]
  rfl

/-- An exit goes on to the service that was saved, with the lock held. -/
theorem forwardExit_some {saved : SavedServices} (hl : w.hooks.locked = false) (hsaved : w.hooks.saved = some saved) :
    Hooks.forwardExit inside e w =
      match saved.exit with
      | .firmware => Hooks.withLock (Hooks.firmwareExit inside e) w
      | .hook => .error .lockHeld (w.withLocked true) := by
  rw [Hooks.forwardExit, withLock_of_free hl, bind_assoc, get_bind,
    show (w.withLocked true).hooks.saved = some saved from hsaved]
  dsimp only
  cases saved.exit with
  | firmware => rw [withLock_of_free hl]
  | hook => rfl

end Forwarded

/-- A forwarded exit that comes straight back lets go of the lock. -/
theorem forwardExit_run {saved : SavedServices} {e : Hooks.Exiting} (hl : w.hooks.locked = false)
    (hsaved : w.hooks.saved = some saved) (hexit : saved.exit = .firmware)
    (hrunning : e.call.handle ∉ w.pending.starts) :
    Hooks.forwardExit (performAll []) e w =
      .ok (w.forced.exit.getD .success) (((w.withLocked true).noting e.event).withLocked false) := by
  have hcontains : w.pending.starts.contains e.call.handle = false := by simpa using hrunning
  rw [forwardExit_some hl hsaved, hexit]
  refine withLock_of_ok hl ?_
  rw [performAll]
  show (if w.pending.starts.contains e.call.handle then throw (.ended e.call.handle e.call.status)
    else return w.forced.exit.getD .success : Uefi Status) ((w.withLocked true).noting e.event) = _
  rw [hcontains]
  rfl

/-- Whatever becomes of an exit that is forwarded, the firmware has seen it with the lock held. -/
theorem forwardExit_escaped {saved : SavedServices} {e : Hooks.Exiting} (hl : w.hooks.locked = false)
    (hsaved : w.hooks.saved = some saved) (hexit : saved.exit = .firmware) (inside : List Act)
    (h : ¬ forwarded e.call.handle) :
    Ends (Escaped forwarded) (fun _ => Escaped forwarded) (Hooks.forwardExit (performAll inside) e w) := by
  have hescaped : Escaped forwarded ((w.withLocked true).noting e.event) :=
    ⟨e.call.handle, ⟨e.event, Array.mem_push_self, beq_self_eq_true _⟩, h⟩
  have hseen : see e.event (w.withLocked true) = .ok () ((w.withLocked true).noting e.event) := rfl
  rw [forwardExit_some hl hsaved, hexit]
  dsimp only
  rw [withLock_of_free hl, Hooks.firmwareExit, bind_assoc, ← Hooks.Exiting.event, bind_of_ok hseen]
  exact Keeps.bind (.insideExit (performAll_ordinary inside).recalls e.call fun _ h => h)
    (fun status => (Ordinary.unlock.bind fun _ => .pure status).recalls) _ hescaped

/-- An unload is refused, or goes on to the service that was saved, with the lock free. -/
theorem unloadHook_run (hl : w.hooks.locked = false) (handle : Handle) :
    Hooks.unloadHook handle w =
      (match if w.hooks.routed then w.traps.onUnload handle else none with
        | some status => do
          logIn ⟨.debug, "netchain_uefi::hooks", s!"unload of {handle.describe} refused: {status.text}"⟩
          return status
        | none =>
          match w.hooks.saved with
          | none => return .unsupported
          | some saved =>
            match saved.unload with
            | .firmware => Services.unloadImage handle
            | .hook => throw .endlessCall : Uefi Status) w := by
  have hread : Hooks.withLock (do
      let w ← get
      return (w.hooks.saved, w.hooks.routed)) w = .ok (w.hooks.saved, w.hooks.routed) w := withLock_read hl rfl
  rw [Hooks.unloadHook, bind_of_ok hread]
  rfl

/-! ## Acts -/

/-- The world is at rest, or recalls an exit that does not count as forwarded. -/
def Calm (forwarded : Handle → Prop) (running : List Handle) (calls : Array Event) (w : World) : Prop :=
  AtRest running calls w ∨ Escaped forwarded w

/-- Does control go on somewhere: in an entry call, or where the firmware was told to start an image? -/
def Halt.goesOn : Halt → Bool
  | .resumed .. | .ended .. => true
  | _ => false

/-- Control goes on somewhere and leaves the world at rest, or the world recalls such an exit. -/
def GoesOn (forwarded : Handle → Prop) (calls : Array Event) (e : Halt) (w : World) : Prop :=
  (e.goesOn = true ∧ ∃ running, AtRest running calls w) ∨ Escaped forwarded w

/-- The computation leaves a world calm that it finds calm, whichever way it ends. -/
abbrev Calms (forwarded : Handle → Prop) (running : List Handle) (calls : Array Event) (x : Uefi α) : Prop :=
  Keeps (Calm forwarded running calls) (GoesOn forwarded calls) x

theorem Calm.same (h : Calm forwarded running calls w) (hs : SameHooks w w') : Calm forwarded running calls w' :=
  h.imp (·.same hs) (·.mono hs.calls.kept)

namespace Calms

theorem aside {x : Uefi α} (hx : Aside x) : Calms forwarded running calls x := Keeps.aside hx fun hs h => h.same hs

theorem pure (a : α) : Calms forwarded running calls (Pure.pure a) := aside (.pure a)

theorem of_escaped {x : Uefi α} (hx : Ordinary x) (h : Escaped forwarded w) :
    Ends (Calm forwarded running calls) (GoesOn forwarded calls) (x w) :=
  (hx.recalls w h).mono (fun _ => .inr) fun _ _ => .inr

/-- It is enough to look at worlds at rest. -/
theorem of_atRest {x : Uefi α} (hx : Ordinary x)
    (h : ∀ w, AtRest running calls w → Ends (Calm forwarded running calls) (GoesOn forwarded calls) (x w)) :
    Calms forwarded running calls x := by
  rintro w (hw | hw)
  · exact h w hw
  · exact of_escaped hx hw

theorem firmwareExit {inside : Uefi Unit} (hi : Calms forwarded running calls inside) (e : Hooks.Exiting) :
    Calms forwarded running calls (Hooks.firmwareExit inside e) :=
  Keeps.firmwareExit (fun hs h => h.same hs) hi e fun _ hw => hw.imp (fun h => ⟨rfl, running, h⟩) id

theorem freeBuffer (buffer : Nat) : Calms forwarded running calls (Hooks.freeBuffer buffer) := by
  refine of_atRest (.freeBuffer buffer) fun w hw => ?_
  have hr : Hooks.withLock (do return (← get).hooks.saved.isSome) w = .ok w.hooks.saved.isSome w :=
    withLock_read hw.unlocked rfl
  rw [Hooks.freeBuffer, bind_of_ok hr]
  split
  · exact (aside (.freePool _)).bind (fun _ => pure _) w (.inl hw)
  · exact .inl hw

theorem resumeExit (e : Hooks.Exiting) (point : ResumePoint) : Calms forwarded running calls (Hooks.resumeExit e point) :=
  Keeps.resumeExit (fun hs h => h.same hs) freeBuffer e fun _ hw => hw.imp (fun h => ⟨rfl, running, h⟩) id

theorem forwardExit {inside : List Act} (e : Hooks.Exiting)
    (hf : forwarded e.call.handle → e.call.handle ∉ running ∧ inside = []) :
    Calms forwarded running calls (Hooks.forwardExit (performAll inside) e) := by
  refine of_atRest (.forwardExit (performAll_ordinary inside) e) fun w hw => ?_
  cases hsaved : w.hooks.saved with
  | none =>
    rw [forwardExit_none hw.unlocked hsaved]
    exact .inl hw
  | some saved =>
    have hexit : saved.exit = .firmware := (hw.saved.saved saved hsaved).1
    by_cases h : forwarded e.call.handle
    · obtain ⟨hrunning, rfl⟩ := hf h
      rw [forwardExit_run hw.unlocked hsaved hexit (by rw [hw.running]; exact hrunning)]
      refine .inl ⟨rfl, ⟨hw.saved.saved, hw.saved.elsewhere⟩, hw.running, fun e' he => ?_⟩
      replace he : e' ∈ ((w.withLocked true).noting e.event).lockedCalls := he
      rcases World.mem_noting he with he | rfl
      · exact hw.calls e' he
      · exact .inr rfl
    · exact (forwardExit_escaped hw.unlocked hsaved hexit inside h).mono (fun _ => .inr) fun _ _ => .inr

theorem exit {inside : List Act} (hi : Calms forwarded running calls (performAll inside)) {call : ExitCall}
    (hf : forwarded call.handle → call.handle ∉ running ∧ inside = []) :
    Calms forwarded running calls (Hooks.exit (performAll inside) call) := by
  refine of_atRest (.exit (performAll_ordinary inside) call) fun w hw => ?_
  obtain ⟨buffer, w', hs, hr⟩ := exit_slot (performAll inside) call w
  have hw' := hw.same hs
  rw [hr]
  cases ((w.services.find? w.bootServices).getD {}).exit with
  | firmware => exact firmwareExit hi _ w' (.inl hw')
  | hook =>
    have hr : Hooks.exitHook (performAll inside) ⟨call, buffer⟩ w' = _ :=
      bind_of_ok (route?_run hw'.unlocked call.handle) _
    dsimp only
    rw [hr]
    cases w'.route? call.handle with
    | none => exact forwardExit _ hf w' (.inl hw')
    | some point => exact resumeExit _ point w' (.inl hw')

theorem unload (handle : Handle) : Calms forwarded running calls (Hooks.unload handle) := by
  refine of_atRest (.unload handle) fun w hw => ?_
  rcases unload_run handle w with hr | hr
  · rw [hr]
    exact aside (.unloadImage handle) w (.inl hw)
  · rw [hr, unloadHook_run hw.unlocked]
    cases (if w.hooks.routed then w.traps.onUnload handle else none) with
    | some status => exact (aside (.logIn _)).bind (fun _ => pure _) w (.inl hw)
    | none =>
      cases hsaved : w.hooks.saved with
      | none => exact .inl hw
      | some saved =>
        dsimp only
        rw [(hw.saved.saved saved hsaved).2]
        exact aside (.unloadImage handle) w (.inl hw)

/-- Coming back, an entry call takes its point out, with the lock free. -/
theorem leave {before : Pending} (hb : before.starts = running) (status : Status)
    (h : (∃ running', AtRest running' calls w) ∨ Escaped forwarded w) :
    Ends (Calm forwarded running calls) (GoesOn forwarded calls) ((do
      setPending fun _ => before
      Hooks.unregister handle
      return status : Uefi Status) w) := by
  rcases h with ⟨running', hw⟩ | hescaped
  · have hl : (w.withPending before).hooks.locked = false := hw.unlocked
    show Ends _ _ ((do
      Hooks.unregister handle
      return status : Uefi Status) (w.withPending before))
    rw [bind_of_ok (unregister_run hl handle)]
    exact .inl (hw.of_eq rfl rfl rfl rfl hb)
  · exact of_escaped ((Ordinary.setPending _).bind fun _ => (Ordinary.unregister handle).bind fun _ => .pure status) hescaped

theorem enter {body : Uefi Status} (hr : Ordinary body) (hb : Calms forwarded running calls body)
    (handle : Handle) : Calms forwarded running calls (enter handle body) := by
  refine of_atRest (hr.enter handle) fun w hw => ?_
  obtain ⟨point, w₁, hpoint, hs⟩ := Aside.newPoint w
  have hw₁ := hw.same hs
  rw [NetBoot.Uefi.enter, bind_of_ok hpoint]
  show Ends _ _ ((Hooks.register handle point >>= fun _ => _) w₁)
  rw [bind_of_ok (register_run hw₁.unlocked handle point)]
  let entering : World := (w₁.withPoints (w₁.hooks.points.insert handle point)).withPending
    { w₁.pending with entries := point :: w₁.pending.entries }
  have hentering : AtRest running calls entering := hw₁.of_eq rfl rfl rfl rfl hw₁.running
  have hbody := ((aside (.see (.enter handle))).bind fun _ => hb) entering (.inl hentering)
  show Ends _ _ ((untilResumed point (see (.enter handle) >>= fun _ => body) >>= fun status => (do
    setPending fun _ => w₁.pending
    Hooks.unregister handle
    return status)) entering)
  rcases untilResumed_run point (see (.enter handle) >>= fun _ => body) entering with
    ⟨status, w', hr | hr, hu⟩ | ⟨e, w', hr, -, hu⟩
  · rw [hr] at hbody
    rw [bind_of_ok hu]
    exact leave hw₁.running status (hbody.imp_left fun h => ⟨running, h⟩)
  · rw [hr] at hbody
    rw [bind_of_ok hu]
    exact leave hw₁.running status (hbody.imp_left And.right)
  · rw [hr] at hbody
    rw [bind_of_error hu]
    exact hbody

theorem started {body : Uefi Unit} (hr : Ordinary body) (hb : Calms forwarded (handle :: running) calls body) :
    Calms forwarded running calls (started handle body) := by
  refine of_atRest (hr.started handle) fun w hw => ?_
  have hstarting : AtRest (handle :: running) calls (w.starting handle) :=
    hw.of_eq rfl rfl rfl ((CallsAdded.noting (.startImage handle) w).unlocked hw.unlocked)
      (congrArg (handle :: ·) hw.running)
  refine started_ends (hb (w.starting handle) (.inl hstarting)) ?_ ?_ fun _ _ h => h
  · exact fun w' h => h.imp_left fun h => h.of_eq rfl rfl rfl rfl hw.running
  · exact fun _ _ w' h => h.imp_left fun ⟨_, _, h⟩ => h.of_eq rfl rfl rfl rfl hw.running

end Calms

mutual

theorem perform_calms : ∀ (act : Act) (running : List Handle),
    act.Returns forwarded running → Calms forwarded running calls (perform act)
  | .exit call inside, running, h => by
    rw [perform]
    rw [Act.Returns] at h
    exact (Calms.exit (performAll_calms inside running h.2) h.1).bind fun _ => Calms.aside (.see _)
  | .unload handle, _, _ => by
    rw [perform]
    exact (Calms.unload handle).bind fun _ => Calms.aside (.see _)
  | .launch handle acts status, running, h => by
    rw [perform]
    rw [Act.Returns] at h
    refine (Calms.aside (.installIn handle)).bind fun token => (Calms.enter ?_ ?_ handle).bind fun _ =>
      (Calms.aside (.takeIn token)).bind fun _ => Calms.pure _
    · exact (performAll_ordinary acts).bind fun _ => .pure status
    · exact (performAll_calms acts running h).bind fun _ => Calms.pure status
  | .start handle acts, running, h => by
    rw [perform]
    rw [Act.Returns] at h
    exact (Calms.started (performAll_ordinary acts) (performAll_calms acts (handle :: running) h)).bind fun _ =>
      Calms.pure _

theorem performAll_calms : ∀ (acts : List Act) (running : List Handle),
    AllReturn forwarded running acts → Calms forwarded running calls (performAll acts)
  | [], _, _ => by
    rw [performAll]
    exact Calms.pure _
  | act :: acts, running, h => by
    rw [performAll]
    rw [AllReturn] at h
    exact (perform_calms act running h.1).bind fun _ => performAll_calms acts running h.2

end

/-! ## Runs of turns -/

namespace Turn

theorem recalls (turn : Turn) : Recalls forwarded turn.run := by
  intro w h
  cases turn with
  | register handle point => exact (Ordinary.register handle point).recalls w h
  | unregister handle => exact (Ordinary.unregister handle).recalls w h
  | trap traps => exact (Ordinary.aside (.setTraps traps)).recalls w h
  | act a => exact (perform_ordinary a).recalls w h
  | install table =>
    refine Keeps.bind (fun w h => ?_) (fun _ => (Ordinary.pure _).recalls) w h
    cases hl : w.hooks.locked with
    | true =>
      have hr : Hooks.install table w = .error .lockHeld w := withLock_of_locked hl _
      rw [hr]
      exact h
    | false =>
      obtain ⟨result, w', hr, hkept, -⟩ := install_atRest hl table
      rw [hr]
      exact h.mono hkept
  | remove =>
    show Ends _ _ (Hooks.remove w)
    cases hl : w.hooks.locked with
    | true =>
      have hr : Hooks.remove w = .error .lockHeld w := withLock_of_locked hl _
      rw [hr]
      exact h
    | false =>
      obtain ⟨w', hr, hkept, -⟩ := remove_atRest hl
      rw [hr]
      exact h.mono hkept

/-- A turn that finds the world at rest leaves it at rest, unless it has an exit that is recalled. -/
theorem calms (turn : Turn) (hreturns : turn.Returns forwarded running) (hw : AtRest running calls w) :
    Ends (Calm forwarded running calls) (GoesOn forwarded calls) (turn.run w) := by
  cases turn with
  | trap traps => exact Calms.aside (.setTraps traps) w (.inl hw)
  | act a => exact perform_calms a running hreturns w (.inl hw)
  | register handle point =>
    show Ends _ _ (Hooks.register handle point w)
    rw [register_run hw.unlocked]
    exact .inl (hw.of_eq rfl rfl rfl rfl hw.running)
  | unregister handle =>
    show Ends _ _ (Hooks.unregister handle w)
    rw [unregister_run hw.unlocked]
    exact .inl (hw.of_eq rfl rfl rfl rfl hw.running)
  | install table =>
    obtain ⟨result, w', hr, -, hrest⟩ := install_atRest hw.unlocked table
    have hr : Turn.run (.install table) w = .ok () w' := bind_of_ok hr _
    rw [hr]
    exact .inl (hrest running calls hw)
  | remove =>
    obtain ⟨w', hr, -, hrest⟩ := remove_atRest hw.unlocked
    show Ends _ _ (Hooks.remove w)
    rw [hr]
    exact .inl (hrest running calls hw)

end Turn

theorem Escaped.after (h : Escaped forwarded w) (turn : Turn) : Escaped forwarded (turn.after w) := by
  have hends := turn.recalls w h
  unfold Turn.after
  cases hr : turn.run w with
  | ok _ w' =>
    rw [hr] at hends
    exact hends
  | error e w' =>
    rw [hr] at hends
    exact hends

theorem Escaped.afterTurns (turns : List Turn) (h : Escaped forwarded w) : Escaped forwarded (afterTurns turns w) := by
  induction turns generalizing w with
  | nil => exact h
  | cons turn turns ih => exact ih (h.after turn)

theorem AtRest.after {turn : Turn} (hw : AtRest running calls w) (hreturns : turn.Returns forwarded running) :
    (∃ running', AtRest running' calls (turn.after w)) ∨ Escaped forwarded (turn.after w) := by
  have hends := turn.calms hreturns hw
  unfold Turn.after
  cases hr : turn.run w with
  | ok _ w' =>
    rw [hr] at hends
    exact hends.imp_left fun h => ⟨running, h⟩
  | error e w' =>
    rw [hr] at hends
    exact hends.imp_left And.right

/-- From a world at rest, as long as no exit has to be recalled: the world is at rest behind every
    turn, and a turn that does not come to its end goes on elsewhere. -/
theorem AtRest.turns (turns : List Turn) (hw : AtRest running calls w)
    (hreturns : ∀ t ∈ found turns w, t.1.Returns forwarded t.2.pending.starts)
    (hforwarded : ¬ Escaped forwarded (afterTurns turns w)) :
    (∃ running', AtRest running' calls (afterTurns turns w)) ∧
      ∀ t ∈ found turns w, t.2.hooks.locked = false ∧ ∀ e w', t.1.run t.2 = .error e w' → e.goesOn = true := by
  induction turns generalizing w running with
  | nil => exact ⟨⟨running, hw⟩, List.forall_mem_nil _⟩
  | cons turn turns ih =>
    obtain ⟨hturn, hturns⟩ := List.forall_mem_cons.mp hreturns
    rw [show (turn, w).2.pending.starts = running from hw.running] at hturn
    have hescaped : ¬ Escaped forwarded (turn.after w) := fun h => hforwarded (h.afterTurns turns)
    obtain ⟨running', hw'⟩ := (hw.after hturn).resolve_right hescaped
    obtain ⟨hrest, hfound⟩ := ih hw' hturns hforwarded
    have hgoes (e : Halt) (w' : World) (hr : turn.run w = .error e w') : e.goesOn = true := by
      have hends := turn.calms hturn hw
      rw [hr] at hends
      rw [Turn.after, hr] at hescaped
      exact (hends.resolve_right hescaped).1
    exact ⟨hrest, List.forall_mem_cons.mpr ⟨⟨hw.unlocked, hgoes⟩, hfound⟩⟩

theorem FirmwareSaved.fresh : FirmwareSaved {} where
  saved := nofun
  elsewhere := by
    intro table _ slots hslots
    obtain ⟨services, hfind, rfl⟩ := Option.map_eq_some_iff.mp hslots
    replace hfind : (Table.empty.insert bootServicesAddress ({} : BootServices)).find? table = some services := hfind
    by_cases h : table = bootServicesAddress
    · rw [h, Table.find?_insert_self] at hfind
      cases hfind
      rfl
    · rw [Table.find?_insert_of_ne _ _ h] at hfind
      cases hfind

/-- Does the turn find the lock held? -/
def Turn.waits (turn : Turn) (w : World) : Bool :=
  match turn.run w with
  | .error .lockHeld _ => true
  | _ => false

/-- The firmware with the hooks in. -/
def installed : World := afterTurns [.install bootServicesAddress] {}

/-- The firmware is told to start an image, which exits. -/
def startedExit : Act := .start ⟨2⟩ [exitOn ⟨2⟩]

end NetBoot.Uefi
