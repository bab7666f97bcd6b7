/-
  NetBoot.Proofs.Uefi.Installation — what the hooks replace is put back, and is reached meanwhile.

  Whoever has the hooks put in holds a guard, and drops it to have them taken out. In any order of
  installations, refused ones too, drops, and calls that come through the slots (`Visited`), no two
  guards are out, and what is known of the hooks is what the guard says: the services that stood in
  its table when it was given are saved, and all other tables are as they were then (`Matched`). One
  lemma for each of the steps keeps this up.

  While the lock of the hooks is free, a call that they have no business with goes to the services
  which they replaced, and dropping the guard leaves every slot as it was and nothing of the hooks
  behind (`Honoured`). The lock is free as long as every exit has come straight back. An exit that the
  firmware sees under the lock and does not come back from leaves it held, and then there is nothing
  to rely on: whoever turns to the hooks waits for ever, the holder of the guard not excepted
  (`Stranded`).
-/

import NetBoot.Proofs.Uefi.Locking

namespace NetBoot.Uefi

variable {α : Type} {w w' : World} {handle : Handle}

/-! ## Calls that leave the hooks as they are -/

/-- The hooks and the slots of all tables are as they were. -/
structure Unmoved (w w' : World) : Prop where
  hooks : w'.hooks = w.hooks
  slots : ∀ table, w'.slots? table = w.slots? table

namespace Unmoved

theorem refl (w : World) : Unmoved w w := ⟨rfl, fun _ => rfl⟩

theorem same {w'' : World} (h : Unmoved w w') (hs : SameHooks w' w'') : Unmoved w w'' where
  hooks := hs.hooks.trans h.hooks
  slots table := by
    rw [← h.slots, World.slots?, World.slots?, hs.services]

end Unmoved

def Halt.isResumed : Halt → Bool
  | .resumed .. => true
  | _ => false

/-- If control comes back from the computation, to its caller or to an entry call, the hooks and the
    slots are still as they are in `w`. -/
abbrev Unmoving (w : World) (x : Uefi α) : Prop :=
  Keeps (Unmoved w) (fun e w' => e.isResumed = true → Unmoved w w') x

namespace Unmoving

variable {inside : Uefi Unit}

theorem aside {x : Uefi α} (hx : Aside x) : Unmoving w x := Keeps.aside hx fun hs h => h.same hs

/-- The firmware's own exit comes back to its caller or not at all. -/
theorem firmwareExit (hi : Aside inside) (e : Hooks.Exiting) :
    Keeps (Unmoved w) (fun e _ => e.isResumed = false) (Hooks.firmwareExit inside e) :=
  Keeps.firmwareExit (fun hs h => h.same hs) (Keeps.aside hi fun hs h => h.same hs) e fun _ _ => rfl

theorem freeBuffer (hl : w.hooks.locked = false) (buffer : Nat) : Unmoving w (Hooks.freeBuffer buffer) := by
  intro w' hw
  have hr : Hooks.withLock (do return (← get).hooks.saved.isSome) w' = .ok w'.hooks.saved.isSome w' :=
    withLock_read (by rw [hw.hooks, hl]) rfl
  rw [Hooks.freeBuffer, bind_of_ok hr]
  split
  · exact (aside (.freePool _)).bind (fun _ => aside (.pure _)) w' hw
  · exact hw

/-- An exit that the firmware answers with the lock held lets go of the lock when it is answered. -/
theorem lockedExit (hl : w.hooks.locked = false) (hi : Aside inside) (e : Hooks.Exiting) :
    Unmoving w (Hooks.withLock (Hooks.firmwareExit inside e)) := by
  intro w' hw
  have hl' : w'.hooks.locked = false := by rw [hw.hooks, hl]
  have hrun := firmwareExit hi e (w'.withLocked true) (.refl _)
  rw [withLock_of_free hl']
  cases hr : Hooks.firmwareExit inside e (w'.withLocked true) with
  | ok status w'' =>
    rw [hr] at hrun
    rw [bind_of_ok hr]
    refine ⟨?_, fun table => (hrun.slots table).trans (hw.slots table)⟩
    have hhooks : (w''.withLocked false).hooks = { w'.hooks with locked := false } := by
      rw [World.withLocked, hrun.hooks]
      rfl
    refine hhooks.trans (Eq.trans ?_ hw.hooks)
    rw [← hl']
  | error halt w'' =>
    rw [hr] at hrun
    rw [bind_of_error hr]
    exact fun hresumed => absurd (hrun.symm.trans hresumed) Bool.false_ne_true

theorem exit (hl : w.hooks.locked = false) (hi : Aside inside) (call : ExitCall) :
    Unmoving w (Hooks.exit inside call) := by
  intro w' hw
  obtain ⟨buffer, w₁, hs, hr⟩ := exit_slot inside call w'
  have hw₁ := hw.same hs
  have hl₁ : w₁.hooks.locked = false := by rw [hw₁.hooks, hl]
  rw [hr]
  cases ((w'.services.find? w'.bootServices).getD {}).exit with
  | firmware =>
    exact (firmwareExit hi _ w₁ hw₁).mono (fun _ => id) fun _ _ h hresumed =>
      absurd (h.symm.trans hresumed) Bool.false_ne_true
  | hook =>
    have hrun : Hooks.exitHook inside ⟨call, buffer⟩ w₁ = _ := bind_of_ok (route?_run hl₁ call.handle) _
    dsimp only
    rw [hrun]
    cases w₁.route? call.handle with
    | some point =>
      exact Keeps.resumeExit (fun hs h => h.same hs) (freeBuffer hl) _ (fun _ h _ => h) w₁ hw₁
    | none =>
      dsimp only
      cases hsaved : w₁.hooks.saved with
      | none =>
        rw [forwardExit_none hl₁ hsaved]
        exact hw₁
      | some saved =>
        rw [forwardExit_some hl₁ hsaved]
        cases saved.exit with
        | firmware => exact lockedExit hl hi _ w₁ hw₁
        | hook => exact nofun

theorem unload (hl : w.hooks.locked = false) (handle : Handle) : Unmoving w (Hooks.unload handle) := by
  intro w' hw
  have hfirmware : Unmoving w (Services.unloadImage handle) := aside (.unloadImage handle)
  rcases unload_run handle w' with hr | hr
  · rw [hr]
    exact hfirmware w' hw
  · rw [hr, unloadHook_run (by rw [hw.hooks, hl])]
    cases (if w'.hooks.routed then w'.traps.onUnload handle else none) with
    | some status => exact (aside (.logIn _)).bind (fun _ => aside (.pure _)) w' hw
    | none =>
      cases w'.hooks.saved with
      | none => exact hw
      | some saved =>
        dsimp only
        cases saved.unload with
        | firmware => exact hfirmware w' hw
        | hook => exact nofun

end Unmoving

/-! ## Guards -/

/-- What the holder of a guard has: the table that the hooks were put into, and the world as it was
    when the guard was asked for. -/
structure Guard where
  table : Address
  before : World

/-- The worlds that come about while these guards are out, and whether every exit so far has come straight back or
    has been resumed. One that strays has something inside that turns to the hooks in its turn, or is kept by the
    firmware, or waits for ever. While a guard is out nobody but the hooks puts anything into the slots. -/
inductive Visited : Bool → List Guard → World → Prop
  | start {w : World} : w.hooks = {} → Visited true [] w
  | installed {straight : Bool} {guards : List Guard} {w w' : World} {table : Address} : Visited straight guards w →
    Hooks.install table w = .ok (.ok ()) w' → Visited straight (⟨table, w⟩ :: guards) w'
  | refused {straight : Bool} {guards : List Guard} {w w' : World} {table : Address} {e : HookError} :
    Visited straight guards w → Hooks.install table w = .ok (.error e) w' → Visited straight guards w'
  | dropped {straight : Bool} {guards : List Guard} {guard : Guard} {behind : List Guard} {w w' : World} :
    Visited straight (guards ++ guard :: behind) w → Hooks.remove w = .ok () w' → Visited straight (guards ++ behind) w'
  | exited {straight : Bool} {guards : List Guard} {w w' : World} {inside : Uefi Unit} {call : ExitCall}
    {status : Status} : Aside inside → Visited straight guards w → Hooks.exit inside call w = .ok status w' →
    Visited straight guards w'
  | resumed {straight : Bool} {guards : List Guard} {w w' : World} {inside : Uefi Unit} {call : ExitCall}
    {point : ResumePoint} {status : Status} : Aside inside → Visited straight guards w →
    Hooks.exit inside call w = .error (.resumed point status) w' → Visited straight guards w'
  | strayed {straight : Bool} {guards : List Guard} {w : World} {inside : Uefi Unit} {call : ExitCall} :
    Ordinary inside → Visited straight guards w → Visited false guards (outcome (Hooks.exit inside call) w)
  | unloaded {straight : Bool} {guards : List Guard} {w w' : World} {handle : Handle} {status : Status} :
    Visited straight guards w → Hooks.unload handle w = .ok status w' → Visited straight guards w'
  | registered {straight : Bool} {guards : List Guard} {w w' : World} {handle : Handle} {point : ResumePoint} :
    Visited straight guards w → Hooks.register handle point w = .ok () w' → Visited straight guards w'
  | unregistered {straight : Bool} {guards : List Guard} {w w' : World} {handle : Handle} :
    Visited straight guards w → Hooks.unregister handle w = .ok () w' → Visited straight guards w'
  | elsewhere {straight : Bool} {guards : List Guard} {w w' : World} : Visited straight guards w → w'.hooks = w.hooks →
    (guards ≠ [] → ∀ table, w'.slots? table = w.slots? table) → Visited straight guards w'

/-- What the hooks know of the guards: nothing while none is out, and else what stood in the slots of the one
    table that leads to them. -/
inductive Matched (w : World) : List Guard → Prop
  | bare : w.hooks.saved = none → w.hooks.routed = false → Matched w []
  | hooked {guard : Guard} {exit unload : Service} : w.hooks.saved = some ⟨guard.table, exit, unload⟩ →
    w.hooks.routed = true → guard.before.slots? guard.table = some (exit, unload) →
    w.slots? guard.table = some (.hook, .hook) →
    (∀ table, table ≠ guard.table → w.slots? table = guard.before.slots? table) → Matched w [guard]

namespace Matched

variable {guards : List Guard} {guard : Guard} {table : Address}

/-- The points at which exits are resumed are not the guards' business. -/
theorem of_eq (h : Matched w guards) (hsaved : w'.hooks.saved = w.hooks.saved)
    (hrouted : w'.hooks.routed = w.hooks.routed)
    (hslots : guards ≠ [] → ∀ table, w'.slots? table = w.slots? table) : Matched w' guards := by
  cases h with
  | bare hnone hnot => exact .bare (hsaved.trans hnone) (hrouted.trans hnot)
  | hooked hsome hyes hbefore hhook helse =>
    replace hslots := hslots (List.cons_ne_nil _ _)
    refine .hooked (hsaved.trans hsome) (hrouted.trans hyes) hbefore ((hslots _).trans hhook) fun t ht => ?_
    rw [hslots, helse t ht]

theorem lasting (guards : List Guard) : Lasting (Matched · guards) where
  same hs h := h.of_eq (by rw [hs.hooks]) (by rw [hs.hooks]) fun _ table => by
    rw [World.slots?, World.slots?, hs.services]
  locked _ h := h.of_eq rfl rfl fun _ _ => rfl
  points _ h := h.of_eq rfl rfl fun _ _ => rfl
  pending _ h := h.of_eq rfl rfl fun _ _ => rfl

theorem nil_of_saved (h : Matched w guards) (hnone : w.hooks.saved = none) : guards = [] := by
  cases h with
  | bare => rfl
  | hooked hsome => exact nomatch hnone.symm.trans hsome

/-- An installation is accepted only while no guard is out. -/
theorem installed (h : Matched w guards) (hr : Hooks.install table w = .ok (.ok ()) w') :
    Matched w' (⟨table, w⟩ :: guards) ∧ w'.hooks.locked = false := by
  have hl := unlocked_of_withLock hr
  cases hrefused : Hooks.refusal? w table with
  | some e =>
    rw [install_refused hl hrefused] at hr
    cases hr
  | none =>
    obtain ⟨services, w₁, hfind, hr₁, hinstalled⟩ := install_accepted hl hrefused
    rw [hr] at hr₁
    cases hr₁
    cases h.nil_of_saved (refusal?_eq_none_iff.mp hrefused).1
    refine ⟨.hooked (by rw [hinstalled.hooks]) (by rw [hinstalled.hooks]) (congrArg (Option.map _) hfind) ?_
      fun t ht => ?_, by rw [hinstalled.hooks, hl]⟩
    · exact (hinstalled.slots table).trans (if_pos rfl)
    · exact (hinstalled.slots t).trans (if_neg ht)

/-- The guard is dropped, and the slots are as it found them. -/
theorem removed (h : Matched w [guard]) (hr : Removed w w') (t : Address) :
    w'.slots? t = guard.before.slots? t := by
  cases h with
  | hooked hsome _ hbefore hhook helse =>
    rw [hr.slots_of_saved hsome]
    by_cases ht : t = guard.table
    · rw [if_pos ht, ht, hhook, hbefore]
      rfl
    · rw [if_neg ht, helse t ht]

theorem length_le (h : Matched w guards) : guards.length ≤ 1 := by
  cases h with
  | bare => exact Nat.zero_le 1
  | hooked => exact Nat.le_refl 1

theorem slots_eq (h : Matched w guards) : ∀ guard ∈ guards, w.slots? guard.table = some (.hook, .hook) := by
  cases h with
  | bare => exact List.forall_mem_nil _
  | hooked _ _ _ hslots => exact List.forall_mem_singleton.mpr hslots

theorem alone {behind : List Guard} (h : Matched w (guards ++ guard :: behind)) : guards = [] ∧ behind = [] := by
  have hlength := h.length_le
  rw [List.length_append, List.length_cons] at hlength
  exact ⟨List.length_eq_zero_iff.mp (by omega), List.length_eq_zero_iff.mp (by omega)⟩

end Matched

/-- A failed installation changes nothing. -/
theorem install_error {table : Address} {e : HookError} (hr : Hooks.install table w = .ok (.error e) w') : w' = w := by
  have hl := unlocked_of_withLock hr
  cases hrefused : Hooks.refusal? w table with
  | some e' =>
    rw [install_refused hl hrefused] at hr
    cases hr
    rfl
  | none =>
    obtain ⟨_, _, -, hr', -⟩ := install_accepted hl hrefused
    rw [hr'] at hr
    cases hr

theorem removed_of_ok (hr : Hooks.remove w = .ok () w') : Removed w w' := by
  obtain ⟨w₁, hr₁, hremoved⟩ := remove_run (unlocked_of_withLock hr)
  rw [hr] at hr₁
  cases hr₁
  exact hremoved

namespace Visited

variable {straight : Bool} {guards : List Guard}

/-- Only an installation that is accepted and a drop change what is saved. -/
theorem matched (h : Visited straight guards w) : Matched w guards := by
  induction h with
  | start hw => exact .bare (by rw [hw]) (by rw [hw])
  | installed _ hr ih => exact (ih.installed hr).1
  | refused _ hr ih =>
    cases install_error hr
    exact ih
  | dropped _ hr ih =>
    have hremoved := removed_of_ok hr
    obtain ⟨rfl, rfl⟩ := ih.alone
    exact .bare (by rw [hremoved.hooks]) (by rw [hremoved.hooks])
  | exited hi _ hr ih => exact (Ordinary.exit (.aside hi) _).of_ok hr (Matched.lasting _) ih
  | resumed hi _ hr ih => exact (Ordinary.exit (.aside hi) _).of_error hr (Matched.lasting _) ih
  | strayed hi _ ih => exact (Ordinary.exit hi _).lasts (Matched.lasting _) ih
  | unloaded _ hr ih => exact (Ordinary.unload _).of_ok hr (Matched.lasting _) ih
  | registered _ hr ih => exact (Ordinary.register _ _).of_ok hr (Matched.lasting _) ih
  | unregistered _ hr ih => exact (Ordinary.unregister _).of_ok hr (Matched.lasting _) ih
  | elsewhere _ hhooks hslots ih => exact ih.of_eq (by rw [hhooks]) (by rw [hhooks]) hslots

/-- An exit that comes straight back lets go of the lock, and so does whatever else comes back. -/
theorem unlocked (h : Visited straight guards w) (hstraight : straight = true) : w.hooks.locked = false := by
  induction h with
  | start hw => rw [hw]
  | installed h hr _ => exact (h.matched.installed hr).2
  | refused _ hr ih =>
    cases install_error hr
    exact ih hstraight
  | dropped _ hr _ => rw [(removed_of_ok hr).hooks]
  | @exited _ _ w _ _ call _ hi _ hr ih =>
    have hu := Unmoving.exit (ih hstraight) hi call w (.refl w)
    rw [hr] at hu
    rw [hu.hooks, ih hstraight]
  | @resumed _ _ w _ _ call _ _ hi _ hr ih =>
    have hu := Unmoving.exit (ih hstraight) hi call w (.refl w)
    rw [hr] at hu
    rw [(hu rfl).hooks, ih hstraight]
  | strayed => cases hstraight
  | @unloaded _ _ w _ handle _ _ hr ih =>
    have hu := Unmoving.unload (ih hstraight) handle w (.refl w)
    rw [hr] at hu
    rw [hu.hooks, ih hstraight]
  | registered _ hr ih =>
    rw [register_run (ih hstraight)] at hr
    cases hr
    exact ih hstraight
  | unregistered _ hr ih =>
    rw [unregister_run (ih hstraight)] at hr
    cases hr
    exact ih hstraight
  | elsewhere _ hhooks _ ih => rw [hhooks, ih hstraight]

end Visited

/-! ## What the holder of a guard may rely on -/

/-- While guards are out, and when they are dropped. -/
structure Honoured (guards : List Guard) (w : World) : Prop where
  /-- An installation that fails changes nothing. -/
  refused : ∀ table e w', Hooks.install table w = .ok (.error e) w' → w' = w
  /-- While no guard is out, there may be one for every sound table. -/
  accepted : guards = [] → ∀ table services, w.services.find? table = some services →
    services.header.isValid TableHeader.bootServices = true → ∃ w', Hooks.install table w = .ok (.ok ()) w'
  /-- While one is out, there is no other. -/
  rejected : guards ≠ [] → ∀ table, Hooks.install table w = .ok (.error .alreadyInstalled) w
  hooked : ∀ guard ∈ guards, w.slots? guard.table = some (.hook, .hook)
  /-- An exit that no trap or no point waits for goes with its arguments to the service that was there
      before, and its answer comes back. -/
  exits : ∀ guard ∈ guards, w.bootServices = guard.table →
    (guard.before.slots? guard.table).map Prod.fst = some .firmware →
    ∀ inside call, w.traps.isInstalled call.handle = false ∨ w.hooks.points.find? call.handle = none →
      Hooks.exit inside call w = (handOver call >>= fun e => Hooks.withLock (Hooks.firmwareExit inside e)) w
  /-- So does an unload that no trap waits for. -/
  unloads : ∀ guard ∈ guards, w.bootServices = guard.table →
    (guard.before.slots? guard.table).map Prod.snd = some .firmware →
    ∀ handle, w.traps.isInstalled handle = false → Hooks.unload handle w = Services.unloadImage handle w
  /-- An unload of a trapped image is refused, and the firmware does not hear of it. -/
  refuses : ∀ guard ∈ guards, w.bootServices = guard.table → ∀ handle, w.traps.isInstalled handle = true →
    ∃ w', Hooks.unload handle w = .ok .unsupported w' ∧ w'.events = w.events
  /-- When the guard is dropped, every slot is as it was before, and nothing of the hooks is left. -/
  restored : ∀ guard ∈ guards, ∃ w', Hooks.remove w = .ok () w' ∧ w'.hooks = {} ∧
    ∀ table, w'.slots? table = guard.before.slots? table

/-- Nobody who turns to the hooks comes back, and nothing is changed. -/
structure Stranded (guards : List Guard) (w : World) : Prop where
  installs : ∀ table, Hooks.install table w = .error .lockHeld w
  drops : Hooks.remove w = .error .lockHeld w
  registers : ∀ handle point, Hooks.register handle point w = .error .lockHeld w
  unregisters : ∀ handle, Hooks.unregister handle w = .error .lockHeld w
  exits : ∀ guard ∈ guards, w.bootServices = guard.table → ∀ inside call,
    ∃ w', Hooks.exit inside call w = .error .lockHeld w' ∧ SameHooks w w'
  unloads : ∀ guard ∈ guards, w.bootServices = guard.table → ∀ handle, Hooks.unload handle w = .error .lockHeld w

section Hooked

variable {guards : List Guard} {guard : Guard} {handle : Handle} {saved : SavedServices}

theorem slots_hooked (h : w.slots? w.bootServices = some (.hook, .hook)) :
    ((w.services.find? w.bootServices).getD {}).exit = .hook ∧
      ((w.services.find? w.bootServices).getD {}).unload = .hook := by
  obtain ⟨services, hfind, hslots⟩ := Option.map_eq_some_iff.mp h
  rw [hfind]
  exact Prod.mk.inj hslots

theorem route?_eq_none (h : w.traps.isInstalled handle = false ∨ w.hooks.points.find? handle = none) :
    w.route? handle = none := by
  rw [World.route?]
  obtain h | h := h
  · rw [h, Bool.and_false]
    rfl
  · rw [h, ite_self]

theorem exit_forwarded (hl : w.hooks.locked = false) (hslots : w.slots? w.bootServices = some (.hook, .hook))
    (hsaved : w.hooks.saved = some saved) (hexit : saved.exit = .firmware) (inside : Uefi Unit) (call : ExitCall)
    (h : w.traps.isInstalled call.handle = false ∨ w.hooks.points.find? call.handle = none) :
    Hooks.exit inside call w = (handOver call >>= fun e => Hooks.withLock (Hooks.firmwareExit inside e)) w := by
  obtain ⟨e, w₁, hr, rfl, hs, htraps, hrun⟩ := handOver_run call w
  have hl₁ : w₁.hooks.locked = false := by rw [hs.hooks, hl]
  have hroute : w₁.route? e.call.handle = none := route?_eq_none (by rwa [htraps, hs.hooks])
  have hhook : Hooks.exitHook inside e w₁ = Hooks.forwardExit inside e w₁ := by
    rw [Hooks.exitHook, bind_of_ok (route?_run hl₁ e.call.handle), hroute]
  rw [hrun, (slots_hooked hslots).1, bind_of_ok hr]
  dsimp only
  rw [hhook, forwardExit_some hl₁ (by rw [hs.hooks, hsaved]), hexit]

theorem unload_hooked (hslots : w.slots? w.bootServices = some (.hook, .hook)) (handle : Handle) :
    Hooks.unload handle w = Hooks.unloadHook handle w := by
  rw [Hooks.unload, get_bind, (slots_hooked hslots).2]

theorem unload_forwarded (hl : w.hooks.locked = false) (hslots : w.slots? w.bootServices = some (.hook, .hook))
    (hsaved : w.hooks.saved = some saved) (hunload : saved.unload = .firmware)
    (htrap : w.traps.isInstalled handle = false) : Hooks.unload handle w = Services.unloadImage handle w := by
  have hanswer : (if w.hooks.routed then w.traps.onUnload handle else none) = none := by
    rw [Image.Traps.onUnload, htrap, if_neg Bool.false_ne_true, ite_self]
  rw [unload_hooked hslots, unloadHook_run hl, hanswer, hsaved]
  dsimp only
  rw [hunload]

theorem unload_refused (hl : w.hooks.locked = false) (hslots : w.slots? w.bootServices = some (.hook, .hook))
    (hrouted : w.hooks.routed = true) (htrap : w.traps.isInstalled handle = true) :
    ∃ w', Hooks.unload handle w = .ok .unsupported w' ∧ w'.events = w.events := by
  have hanswer : (if w.hooks.routed then w.traps.onUnload handle else none) = some .unsupported := by
    rw [Image.Traps.onUnload, hrouted, htrap, if_pos rfl, if_pos rfl]
  rw [unload_hooked hslots, unloadHook_run hl, hanswer]
  refine ⟨_, rfl, ?_⟩
  dsimp only
  split <;> rfl

theorem Matched.honoured (h : Matched w guards) (hl : w.hooks.locked = false) : Honoured guards w := by
  obtain ⟨w', hremove, hremoved⟩ := remove_run hl
  have hrestored {guard : Guard} (hm : Matched w [guard]) : ∃ w', Hooks.remove w = .ok () w' ∧ w'.hooks = {} ∧
      ∀ table, w'.slots? table = guard.before.slots? table :=
    ⟨w', hremove, hremoved.hooks, hm.removed hremoved⟩
  cases h with
  | bare hnone hnot =>
    exact
      { refused := fun _ _ _ hr => install_error hr
        accepted := fun _ table services hfind hvalid => by
          obtain ⟨_, w₁, -, hr, -⟩ := install_accepted hl (refusal?_eq_none_iff.mpr ⟨hnone, services, hfind, hvalid⟩)
          exact ⟨w₁, hr⟩
        rejected := fun hne => absurd rfl hne
        hooked := List.forall_mem_nil _
        exits := List.forall_mem_nil _
        unloads := List.forall_mem_nil _
        refuses := List.forall_mem_nil _
        restored := List.forall_mem_nil _ }
  | @hooked guard exit unload hsaved hrouted hbefore hslots helse =>
    have hhooked (hboot : w.bootServices = guard.table) : w.slots? w.bootServices = some (.hook, .hook) := by
      rw [hboot, hslots]
    exact
      { refused := fun _ _ _ hr => install_error hr
        accepted := fun hnil => absurd hnil (List.cons_ne_nil _ _)
        rejected := fun _ table => install_refused hl (by rw [Hooks.refusal?, hsaved]; rfl)
        hooked := List.forall_mem_singleton.mpr hslots
        exits := List.forall_mem_singleton.mpr fun hboot hexit inside call hfree => by
          rw [hbefore] at hexit
          exact exit_forwarded hl (hhooked hboot) hsaved (Option.some.inj hexit) inside call hfree
        unloads := List.forall_mem_singleton.mpr fun hboot hunload handle htrap => by
          rw [hbefore] at hunload
          exact unload_forwarded hl (hhooked hboot) hsaved (Option.some.inj hunload) htrap
        refuses := List.forall_mem_singleton.mpr fun hboot _ htrap => unload_refused hl (hhooked hboot) hrouted htrap
        restored := List.forall_mem_singleton.mpr
          (hrestored (.hooked hsaved hrouted hbefore hslots helse)) }

theorem Matched.stranded (h : Matched w guards) (hl : w.hooks.locked = true) : Stranded guards w where
  installs table := withLock_of_locked hl _
  drops := withLock_of_locked hl _
  registers handle point := withLock_of_locked hl _
  unregisters handle := withLock_of_locked hl _
  exits guard hmem hboot inside call := by
    have hslots := hboot ▸ h.slots_eq guard hmem
    obtain ⟨buffer, w', hs, hr⟩ := exit_run (slots_hooked hslots).1 inside call
    have hl' : w'.hooks.locked = true := by rw [hs.hooks, hl]
    refine ⟨w', hr.trans ?_, hs⟩
    exact bind_of_error (withLock_of_locked hl' _) _
  unloads guard hmem hboot handle := by
    have hslots := hboot ▸ h.slots_eq guard hmem
    rw [unload_hooked hslots]
    exact bind_of_error (withLock_of_locked hl _) _

/-- Whatever has happened since the hooks were as new, there is one guard at the most, and it is honoured as long as
    the lock is free, which it is unless an exit has strayed. With the lock held nobody is served. -/
theorem guards_are_honoured {straight : Bool} (h : Visited straight guards w) :
    guards.length ≤ 1 ∧ (straight = true → w.hooks.locked = false) ∧
      (w.hooks.locked = false → Honoured guards w) ∧ (w.hooks.locked = true → Stranded guards w) :=
  ⟨h.matched.length_le, h.unlocked, h.matched.honoured, h.matched.stranded⟩

/-- A null table is refused, and then the hooks go into the boot services. -/
theorem guards_are_honoured_installed : ∃ w, Visited true [⟨bootServicesAddress, {}⟩] w ∧
    w.bootServices = bootServicesAddress ∧
    World.slots? {} bootServicesAddress = some (.firmware, .firmware) ∧
    Honoured [⟨bootServicesAddress, {}⟩] w := by
  have hnone : Hooks.install 0 {} = .ok (.error .invalidTable) {} := install_refused rfl rfl
  have hnull : Visited true [] {} := .refused (.start rfl) hnone
  obtain ⟨w, hr, hboot⟩ : ∃ w, Hooks.install bootServicesAddress {} = .ok (.ok ()) w ∧
    w.bootServices = bootServicesAddress := ⟨_, rfl, rfl⟩
  have hvisited := hnull.installed hr
  obtain ⟨-, hstraight, hfree, -⟩ := guards_are_honoured hvisited
  exact ⟨w, hvisited, hboot, rfl, hfree (hstraight rfl)⟩

/-- The firmware starts an image, which exits and is ended there. The guard is out still, but an unload that is none of
    the hooks' business does not come to the firmware, and the guard cannot be dropped. -/
theorem ended_exit_strands_guard : ∃ w, Visited false [⟨bootServicesAddress, {}⟩] w ∧
    w = Turn.after (.act startedExit) installed ∧ w.bootServices = bootServicesAddress ∧
    w.traps.isInstalled ⟨1⟩ = false ∧ Hooks.unload ⟨1⟩ w = .error .lockHeld w ∧ Hooks.remove w = .error .lockHeld w := by
  have hinstalled : Visited true [⟨bootServicesAddress, {}⟩] installed :=
    .installed (.start rfl) (rfl : Hooks.install bootServicesAddress {} = .ok (.ok ()) installed)
  have hstarting : Visited true [⟨bootServicesAddress, {}⟩] (installed.starting ⟨2⟩) :=
    hinstalled.elsewhere rfl fun _ _ => rfl
  have hended : Visited false [⟨bootServicesAddress, {}⟩]
      (outcome (Hooks.exit (performAll []) ⟨⟨2⟩, .aborted, none, 0⟩) (installed.starting ⟨2⟩)) :=
    .strayed (performAll_ordinary []) hstarting
  have hback : Visited false [⟨bootServicesAddress, {}⟩] (Turn.after (.act startedExit) installed) :=
    hended.elsewhere rfl fun _ _ => rfl
  have hlocked : (Turn.after (.act startedExit) installed).hooks.locked = true := by decide +kernel
  have hstranded := hback.matched.stranded hlocked
  exact ⟨_, hback, rfl, rfl, rfl, hstranded.unloads _ (List.mem_singleton.mpr rfl) rfl _, hstranded.drops⟩

end Hooked

end NetBoot.Uefi
