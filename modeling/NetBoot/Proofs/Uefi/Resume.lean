/-
  NetBoot.Proofs.Uefi.Resume — when a trapped exit resumes a call that still runs.

  An entry call leaves its resume point in the hooks, and takes it out when it comes back. An exit
  that is resumed further out skips the entry calls in between, and their points stay behind: the
  next exit on one of their handles is resumed in a call that is gone. As long as exits
  on the handles of running entry calls come from the innermost one (`OrderlyAll`), nothing is
  skipped. Then the points are at every moment those of running calls (`Standing`), and an exit is
  resumed at the innermost of them, which catches it (`perform_settles`).

  An exit that is forwarded runs with the lock of the hooks held. If the firmware ends an image there,
  the lock stays held, and every later visit to the hooks waits for ever; so nothing is asked of the
  points in a world whose lock is held.
-/

import NetBoot.Proofs.Uefi.Run

namespace NetBoot.Uefi

variable {α : Type} {w w' : World} {handle : Handle} {point : ResumePoint} {stack : List (Handle × ResumePoint)}

/-! ## With the lock held -/

/-- Control stays where it is: nothing is resumed, and no image has been ended. -/
def Stuck : Halt → World → Prop
  | .resumed .., _ | .ended .., _ => False
  | _, _ => True

/-- The hooks are as in this hooked world, in which their lock is held. -/
structure Waiting (w₀ w : World) : Prop where
  hooked : Hooked w₀
  locked : w₀.hooks.locked = true
  same : SameHooks w₀ w

namespace Waiting

variable {w₀ : World}

theorem after (h : SameHooks w w') (hw : Waiting w₀ w) : Waiting w₀ w' := ⟨hw.hooked, hw.locked, hw.same.trans h⟩

theorem aside {x : Uefi α} (hx : Aside x) : Keeps (Waiting w₀) Stuck x := .aside hx after

theorem withLock (x : Uefi α) (w : World) (hw : Waiting w₀ w) : Hooks.withLock x w = .error .lockHeld w :=
  withLock_of_locked (by rw [hw.same.hooks]; exact hw.locked) x

theorem exit (inside : Uefi Unit) (call : ExitCall) : Keeps (Waiting w₀) Stuck (Hooks.exit inside call) := by
  intro w hw
  obtain ⟨buffer, w', h, hr⟩ := exit_run (hw.same.hooked hw.hooked) inside call
  rw [hr, Hooks.exitHook, Hooks.route?, bind_of_error (withLock _ w' (after h hw))]
  trivial

theorem unload (handle : Handle) : Keeps (Waiting w₀) Stuck (Hooks.unload handle) := by
  intro w hw
  rcases unload_run handle w with hr | hr
  · rw [hr]
    exact aside (.unloadImage handle) w hw
  · rw [hr, Hooks.unloadHook, bind_of_error (withLock _ w hw)]
    trivial

theorem enter (handle : Handle) (body : Uefi Status) : Keeps (Waiting w₀) Stuck (enter handle body) := by
  refine (aside .newPoint).bind fun point => ?_
  intro w hw
  have hr : Hooks.register handle point w = .error .lockHeld w := withLock _ w hw
  show Ends _ _ ((Hooks.register handle point >>= _) w)
  rw [bind_of_error hr]
  trivial

theorem started {body : Uefi Unit} (hb : ∀ w₀, Keeps (Waiting w₀) Stuck body) (handle : Handle) :
    Keeps (Waiting w₀) Stuck (started handle body) := by
  intro w hw
  have hw' : Waiting (w.starting handle) (w.starting handle) :=
    ⟨hw.same.hooked hw.hooked, (congrArg Hooks.locked hw.same.hooks).trans hw.locked, rfl, rfl, rfl, rfl, .of_eq rfl⟩
  refine started_ends (hb _ _ hw') ?_ (fun _ _ _ h => h.elim) fun _ _ h => h
  intro w' h
  exact ⟨hw.hooked, hw.locked, hw.same.trans
    ⟨h.same.services, h.same.bootServices, h.same.hooks, rfl, h.same.calls.of_starting _⟩⟩

end Waiting

mutual

/-- Whatever an image does while the lock is held, the hooks stay as they are. -/
theorem perform_waits : ∀ (act : Act) (w₀ : World), Keeps (Waiting w₀) Stuck (perform act)
  | .exit call inside, w₀ => by
    rw [perform]
    exact (Waiting.exit _ call).bind fun _ => Waiting.aside (.see _)
  | .unload handle, w₀ => by
    rw [perform]
    exact (Waiting.unload handle).bind fun _ => Waiting.aside (.see _)
  | .launch handle acts status, w₀ => by
    rw [perform]
    exact (Waiting.aside (.installIn handle)).bind fun token => (Waiting.enter handle _).bind fun _ =>
      (Waiting.aside (.takeIn token)).bind fun _ => Waiting.aside (.pure _)
  | .start handle acts, w₀ => by
    rw [perform]
    exact (Waiting.started (performAll_waits acts) handle).bind fun _ => Waiting.aside (.pure _)

theorem performAll_waits : ∀ (acts : List Act) (w₀ : World), Keeps (Waiting w₀) Stuck (performAll acts)
  | [], w₀ => by
    rw [performAll]
    exact Waiting.aside (.pure _)
  | act :: acts, w₀ => by
    rw [performAll]
    exact (perform_waits act w₀).bind fun _ => performAll_waits acts w₀

end

/-! ## Running entry calls -/

/-- The entry calls that run are these, innermost first, and every resume point is the one of the
    innermost call on its handle. -/
structure Standing (stack : List (Handle × ResumePoint)) (w : World) : Prop where
  hooked : Hooked w
  entries : w.pending.entries = stack.map Prod.snd
  points : w.hooks.locked = false → ∀ h p, w.hooks.points.find? h = some p → stack.lookup h = some p

/-- How control leaves the innermost of these entry calls: it is resumed there, or the firmware ends
    an image and keeps the lock. -/
def Leaves (stack : List (Handle × ResumePoint)) : Halt → World → Prop
  | .resumed point _, w => Standing stack w ∧ w.hooks.locked = false ∧ stack.head?.map Prod.snd = some point
  | .ended .., w => Hooked w ∧ w.hooks.locked = true
  | _, _ => True

theorem Stuck.leaves {e : Halt} (h : Stuck e w) : Leaves stack e w := by
  cases e with
  | resumed | ended => exact h.elim
  | _ => trivial

theorem Leaves.of_nil {e : Halt} (h : Leaves [] e w) : Leaves stack e w := by
  cases e with
  | resumed => exact nomatch h.2.2
  | ended => exact h
  | _ => trivial

/-- The computation keeps track of the entry calls that run. -/
abbrev Settles (stack : List (Handle × ResumePoint)) (x : Uefi α) : Prop := Keeps (Standing stack) (Leaves stack) x

theorem Standing.same (h : Standing stack w) (hs : SameHooks w w') : Standing stack w' where
  hooked := hs.hooked h.hooked
  entries := by rw [hs.pending, h.entries]
  points := by
    rw [hs.hooks]
    exact h.points

/-! ## Exits -/

/-- These are the entry calls that run, and the lock is free. -/
structure Free (stack : List (Handle × ResumePoint)) (w : World) : Prop where
  standing : Standing stack w
  unlocked : w.hooks.locked = false

namespace Free

theorem aside {x : Uefi α} (hx : Aside x) : Keeps (Free stack) (Leaves stack) x :=
  .aside hx fun hs h => ⟨h.standing.same hs, by rw [hs.hooks]; exact h.unlocked⟩

theorem freeBuffer (buffer : Nat) : Keeps (Free stack) (Leaves stack) (Hooks.freeBuffer buffer) := by
  intro w hw
  have hr : Hooks.withLock (do return (← get).hooks.saved.isSome) w = .ok w.hooks.saved.isSome w :=
    withLock_read hw.unlocked rfl
  rw [Hooks.freeBuffer, bind_of_ok hr]
  split
  · exact (aside (.freePool _)).bind (fun _ => aside (.pure _)) w hw
  · exact hw

/-- An exit comes to the innermost entry call, or is answered. -/
theorem resumeExit (e : Hooks.Exiting) (hp : stack.head?.map Prod.snd = some point) :
    Keeps (Free stack) (Leaves stack) (Hooks.resumeExit e point) :=
  .resumeExit (fun hs h => ⟨h.standing.same hs, by rw [hs.hooks]; exact h.unlocked⟩) freeBuffer e
    fun _ hw => ⟨hw.standing, hw.unlocked, hp⟩

end Free

/-- What the firmware's own exit does, it does with the lock held. -/
theorem Waiting.firmwareExit (w₀ : World) (inside : List Act) (e : Hooks.Exiting) :
    Keeps (Waiting w₀) (Leaves []) (Hooks.firmwareExit (performAll inside) e) := by
  have hinside : Keeps (Waiting w₀) (Leaves []) (performAll inside) :=
    fun w hw => (performAll_waits inside w₀ w hw).mono (fun _ h => h) fun _ _ => Stuck.leaves
  exact .firmwareExit after hinside e fun w hw =>
    ⟨hw.same.hooked hw.hooked, by rw [hw.same.hooks]; exact hw.locked⟩

namespace Settles

theorem aside {x : Uefi α} (hx : Aside x) : Settles stack x := Keeps.aside hx fun h hw => hw.same h

/-- Behind what is done with the lock held, the points are those that there were. -/
theorem withLock {x : Uefi α} (hx : ∀ w₀, Keeps (Waiting w₀) (Leaves []) x) : Settles stack (Hooks.withLock x) := by
  intro w hw
  cases hl : w.hooks.locked with
  | true =>
    rw [withLock_of_locked hl]
    trivial
  | false =>
    have hx := hx (w.withLocked true) (w.withLocked true) ⟨hw.hooked, rfl, rfl, rfl, rfl, rfl, .of_eq rfl⟩
    rw [withLock_of_free hl]
    cases hr : x (w.withLocked true) with
    | ok a w' =>
      rw [hr] at hx
      rw [bind_of_ok hr]
      exact {
        hooked := hx.same.hooked hx.hooked
        entries := (congrArg Pending.entries hx.same.pending).trans hw.entries
        points := fun _ h p hp => hw.points hl h p
          ((congrArg (fun hooks : Hooks => hooks.points.find? h) hx.same.hooks).symm.trans hp) }
    | error e w' =>
      rw [hr] at hx
      rw [bind_of_error hr]
      exact Leaves.of_nil hx

theorem forwardExit (inside : List Act) (e : Hooks.Exiting) :
    Settles stack (Hooks.forwardExit (performAll inside) e) := by
  refine withLock fun w₀ w hw => ?_
  rw [get_bind]
  cases w.hooks.saved with
  | none => exact hw
  | some saved =>
    dsimp only
    cases saved.exit with
    | firmware => exact Waiting.firmwareExit w₀ inside e w hw
    | hook => trivial

/-- An exit on the handle of a running entry call comes from the innermost one. -/
theorem exit {call : ExitCall} (inside : List Act)
    (ho : call.handle ∈ stack.map Prod.fst → (stack.map Prod.fst).head? = some call.handle) :
    Settles stack (Hooks.exit (performAll inside) call) := by
  intro w hw
  obtain ⟨buffer, w', h, hr⟩ := exit_run hw.hooked (performAll inside) call
  have hw' := hw.same h
  rw [hr]
  cases hl : w'.hooks.locked with
  | true =>
    have hr : Hooks.exitHook (performAll inside) ⟨call, buffer⟩ w' = .error .lockHeld w' :=
      bind_of_error (withLock_of_locked hl _) _
    rw [hr]
    trivial
  | false =>
    have hr : Hooks.exitHook (performAll inside) ⟨call, buffer⟩ w' = _ := bind_of_ok (route?_run hl call.handle) _
    rw [hr]
    cases hp : w'.route? call.handle with
    | none => exact forwardExit inside _ w' hw'
    | some point =>
      refine (Free.resumeExit _ ?_ w' ⟨hw', hl⟩).mono (fun _ h => h.standing) fun _ _ h => h
      have hlook := hw'.points hl _ _ (find?_of_route? hp)
      cases stack with
      | nil => exact nomatch hlook
      | cons first rest =>
        obtain ⟨l₁, l₂, hl, -⟩ := List.lookup_eq_some_iff.mp hlook
        have hmem : call.handle ∈ (first :: rest).map Prod.fst := by
          rw [hl, List.map_append]
          exact List.mem_append_right _ (List.mem_cons_self ..)
        have hfirst : first.1 = call.handle := Option.some.inj (ho hmem)
        rw [← hfirst, List.lookup_cons_self] at hlook
        exact hlook

theorem unload (handle : Handle) : Settles stack (Hooks.unload handle) := by
  intro w hw
  rcases unload_run handle w with hr | hr
  · rw [hr]
    exact aside (.unloadImage handle) w hw
  · rw [hr]
    cases hl : w.hooks.locked with
    | true =>
      have hr : Hooks.unloadHook handle w = .error .lockHeld w := bind_of_error (withLock_of_locked hl _) _
      rw [hr]
      trivial
    | false =>
      have hr : Hooks.withLock (do
          let w ← get
          return (w.hooks.saved, w.hooks.routed)) w = .ok (w.hooks.saved, w.hooks.routed) w := withLock_read hl rfl
      rw [Hooks.unloadHook, bind_of_ok hr]
      dsimp only
      rw [get_bind]
      cases (if w.hooks.routed then w.traps.onUnload handle else none) with
      | some status => exact (aside (.logIn _)).bind (fun _ => aside (.pure _)) w hw
      | none =>
        cases w.hooks.saved with
        | none => exact hw
        | some saved =>
          dsimp only
          cases saved.unload with
          | firmware => exact aside (.unloadImage handle) w hw
          | hook => trivial

/-- The world in which an entry call has just begun. -/
def entering (handle : Handle) (point : ResumePoint) (w : World) : World :=
  (w.withPoints (w.hooks.points.insert handle point)).withPending
    { w.pending with entries := point :: w.pending.entries }

theorem standing_entering (h : Standing stack w) (hl : w.hooks.locked = false) (handle : Handle) (point : ResumePoint) :
    Standing ((handle, point) :: stack) (entering handle point w) where
  hooked := h.hooked
  entries := congrArg (point :: ·) h.entries
  points _ k p hp := by
    replace hp : (w.hooks.points.insert handle point).find? k = some p := hp
    by_cases hk : k = handle
    · subst hk
      rw [Table.find?_insert_self] at hp
      rw [List.lookup_cons_self, hp]
    · rw [Table.find?_insert_of_ne _ _ hk] at hp
      rw [List.lookup_cons, beq_false_of_ne hk]
      exact h.points hl k p hp

/-- Coming back, an entry call takes its point out. -/
theorem leave {before : Pending} (hb : before.entries = stack.map Prod.snd) (status : Status)
    (hw : Standing ((handle, point) :: stack) w) :
    Ends (Standing stack) (Leaves stack) ((do
      setPending fun _ => before
      Hooks.unregister handle
      return status : Uefi Status) w) := by
  show Ends _ _ ((do
    Hooks.unregister handle
    return status : Uefi Status) (w.withPending before))
  cases hl : (w.withPending before).hooks.locked with
  | true =>
    have hr : Hooks.unregister handle (w.withPending before) = .error .lockHeld _ := withLock_of_locked hl _
    rw [bind_of_error hr]
    trivial
  | false =>
    rw [bind_of_ok (unregister_run hl handle)]
    refine ⟨hw.hooked, hb, fun _ k p hp => ?_⟩
    replace hp : (w.hooks.points.erase handle).find? k = some p := hp
    have hk : k ≠ handle := by
      rintro rfl
      rw [Table.find?_erase_self] at hp
      cases hp
    rw [Table.find?_erase_of_ne _ hk] at hp
    have := hw.points hl k p hp
    rw [List.lookup_cons, beq_false_of_ne hk] at this
    exact this

theorem enter {body : Uefi Status} (hb : ∀ point, Settles ((handle, point) :: stack) body) :
    Settles stack (enter handle body) := by
  refine (aside .newPoint).bind fun point => ?_
  intro w hw
  show Ends _ _ ((Hooks.register handle point >>= fun _ => _) w)
  cases hl : w.hooks.locked with
  | true =>
    have hr : Hooks.register handle point w = .error .lockHeld w := withLock_of_locked hl _
    rw [bind_of_error hr]
    trivial
  | false =>
    rw [bind_of_ok (register_run hl handle point)]
    have hbody := ((aside (.see (.enter handle))).bind fun _ => hb point) _ (standing_entering hw hl handle point)
    show Ends _ _ ((untilResumed point (see (.enter handle) >>= fun _ => body) >>= fun status => (do
      setPending fun _ => w.pending
      Hooks.unregister handle
      return status)) (entering handle point w))
    rcases untilResumed_run point (see (.enter handle) >>= fun _ => body) (entering handle point w) with
      ⟨status, w', hr | hr, hu⟩ | ⟨e, w', hr, hne, hu⟩
    · rw [hr] at hbody
      rw [bind_of_ok hu]
      exact leave hw.entries status hbody
    · rw [hr] at hbody
      rw [bind_of_ok hu]
      exact leave hw.entries status hbody.1
    · rw [hr] at hbody
      rw [bind_of_error hu]
      cases e with
      | resumed p status =>
        obtain rfl : point = p := Option.some.inj hbody.2.2
        exact absurd rfl (hne status)
      | ended => exact hbody
      | _ => trivial

theorem started {body : Uefi Unit} (hb : Settles stack body) : Settles stack (started handle body) := by
  intro w hw
  refine started_ends (hb (w.starting handle) ⟨hw.hooked, hw.entries, hw.points⟩) ?_ ?_ fun _ _ h => h
  · exact fun w' h => ⟨h.hooked, hw.entries, h.points⟩
  · exact fun _ _ w' h => ⟨h.1, hw.entries, fun hl => nomatch h.2.symm.trans hl⟩

end Settles

/-! ## Acts -/

mutual

/-- In these running entry calls, innermost first, the image makes exits on the handle of one of them
    only if it is the innermost one. -/
def Act.Orderly (running : List Handle) : Act → Prop
  | .exit call _ => call.handle ∈ running → running.head? = some call.handle
  | .unload _ => True
  | .launch handle acts _ => OrderlyAll (handle :: running) acts
  | .start _ acts => OrderlyAll running acts

def OrderlyAll (running : List Handle) : List Act → Prop
  | [] => True
  | act :: acts => act.Orderly running ∧ OrderlyAll running acts

end

mutual

theorem perform_settles : ∀ (act : Act) (stack : List (Handle × ResumePoint)),
    act.Orderly (stack.map Prod.fst) → Settles stack (perform act)
  | .exit call inside, stack, h => by
    rw [perform]
    rw [Act.Orderly] at h
    exact (Settles.exit inside h).bind fun _ => Settles.aside (.see _)
  | .unload handle, stack, _ => by
    rw [perform]
    exact (Settles.unload handle).bind fun _ => Settles.aside (.see _)
  | .launch handle acts status, stack, h => by
    rw [perform]
    rw [Act.Orderly] at h
    refine (Settles.aside (.installIn handle)).bind fun token => (Settles.enter fun point => ?_).bind fun _ =>
      (Settles.aside (.takeIn token)).bind fun _ => Settles.aside (.pure _)
    exact (performAll_settles acts ((handle, point) :: stack) h).bind fun _ => Settles.aside (.pure _)
  | .start handle acts, stack, h => by
    rw [perform]
    rw [Act.Orderly] at h
    exact (Settles.started (performAll_settles acts stack h)).bind fun _ => Settles.aside (.pure _)

theorem performAll_settles : ∀ (acts : List Act) (stack : List (Handle × ResumePoint)),
    OrderlyAll (stack.map Prod.fst) acts → Settles stack (performAll acts)
  | [], stack, _ => by
    rw [performAll]
    exact Settles.aside (.pure _)
  | act :: acts, stack, h => by
    rw [performAll]
    rw [OrderlyAll] at h
    exact (perform_settles act stack h.1).bind fun _ => performAll_settles acts stack h.2

end

/-- While exits on the handles of running entry calls come from the innermost one, no exit is resumed
    in a call that has returned or been skipped, and no resume point outlives its call. -/
theorem resumed_only_while_running {acts : List Act} (hw : Hooked w) (hpoints : w.hooks.points = .empty)
    (hentries : w.pending.entries = []) (ho : OrderlyAll [] acts) :
    (∀ point status w', performAll acts w ≠ .error (.resumed point status) w') ∧
      ∀ w', performAll acts w = .ok () w' → w'.hooks.locked = false → ∀ h, w'.hooks.points.find? h = none := by
  have hstanding : Standing [] w := ⟨hw, hentries, fun _ h p hp => by
    rw [hpoints] at hp
    exact nomatch hp⟩
  have hend := performAll_settles acts [] ho w hstanding
  refine ⟨fun point status w' hr => ?_, fun w' hr hl h => ?_⟩
  · rw [hr] at hend
    exact nomatch hend.2.2
  · rw [hr] at hend
    cases hf : w'.hooks.points.find? h with
    | none => rfl
    | some p => exact nomatch hend.points hl h p hf

/-- A firmware with the hooks in. -/
def hookedWorld : World where
  services := .ofList [(bootServicesAddress, { exit := .hook, unload := .hook })]
  hooks := { saved := some ⟨bootServicesAddress, .firmware, .firmware⟩, routed := true }

/-- An exit on a handle, without data. -/
def exitOn (handle : Handle) : Act := .exit ⟨handle, .aborted, none, 0⟩ []

/-- Two launches one inside the other, each ended by an exit of its own. -/
def innermostExits : List Act := [.launch ⟨1⟩ [.launch ⟨2⟩ [exitOn ⟨2⟩] .success, exitOn ⟨1⟩] .success]

theorem innermostExits_resumed :
    (match performAll innermostExits hookedWorld with
      | .ok _ w' => w'.events.size == 2
      | .error _ _ => false) = true ∧
    (∀ point status w', performAll innermostExits hookedWorld ≠ .error (.resumed point status) w') ∧
      ∀ w', performAll innermostExits hookedWorld = .ok () w' → w'.hooks.locked = false →
        ∀ h, w'.hooks.points.find? h = none :=
  ⟨by decide +kernel, resumed_only_while_running rfl rfl rfl
    (by simp [innermostExits, exitOn, OrderlyAll, Act.Orderly])⟩

/-- Where a run that nothing has caught was resumed. -/
def resumedAt? : EStateM.Result Halt World α → Option (ResumePoint × World)
  | .error (.resumed point _) w => some (point, w)
  | _ => none

theorem resumedAt?_eq_some {r : EStateM.Result Halt World α} (h : resumedAt? r = some (point, w)) :
    ∃ status, r = .error (.resumed point status) w := by
  unfold resumedAt? at h
  split at h
  · cases h
    exact ⟨_, rfl⟩
  · cases h

/-- The image inside exits on the handle of the one outside, and then there is an exit on its own. -/
def skippingExits : List Act := [.launch ⟨1⟩ [.launch ⟨2⟩ [exitOn ⟨1⟩] .success] .success, exitOn ⟨2⟩]

/-- The exit on the outer handle skips the inner call, whose point stays behind, and the next exit on
    its handle is resumed there. -/
theorem skipped_call_resumed : ∃ point status w',
    performAll skippingExits hookedWorld = .error (.resumed point status) w' ∧
      point ∉ w'.pending.entries ∧ w'.hooks.points.find? ⟨2⟩ = some point := by
  have hrun : (resumedAt? (performAll skippingExits hookedWorld)).any (fun r =>
      decide (r.1 ∉ r.2.pending.entries) && r.2.hooks.points.find? ⟨2⟩ == some r.1) = true := by decide +kernel
  obtain ⟨⟨point, w'⟩, hr, h⟩ := (Option.any_eq_true _ _).mp hrun
  rw [Bool.and_eq_true, decide_eq_true_eq, beq_iff_eq] at h
  obtain ⟨status, hr⟩ := resumedAt?_eq_some hr
  exact ⟨point, status, w', hr, h⟩

end NetBoot.Uefi
