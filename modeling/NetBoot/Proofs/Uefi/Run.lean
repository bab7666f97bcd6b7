/-
  NetBoot.Proofs.Uefi.Run — runs on a firmware, and its hooks, taken apart.

  A run ends in a value or halts. `Keeps I E x` is the rule for both ends: from a world with `I` the
  computation ends in one with `I`, or halts with `E`; it is closed under sequences (`Keeps.bind`).
  Most of what runs on the firmware does nothing to the hooks and to the calls that run (`Aside`); the
  calls that it makes itself count as made under the lock while the lock is held (`CallsAdded`). What
  does something to them is given by its run: the lock, the resume points, the two services that lead
  to the hooks, and the two ways in which a halt is caught. What an image does goes no further than
  these (`perform_ordinary`): the hooks stay in, or out, and the services that they saved stay saved.
-/

import NetBoot.Uefi.Hooks

namespace NetBoot.Uefi

variable {α β : Type} {w w' : World} {handle : Handle} {point : ResumePoint}

/-- Exits lead to the hooks. -/
def Hooked (w : World) : Prop := ((w.services.find? w.bootServices).getD {}).exit = .hook

/-! ## Calls under the lock -/

/-- Of the calls that came with the lock held none is lost, and without it none is added. -/
structure CallsAdded (w w' : World) : Prop where
  unlocked : w.hooks.locked = false → w'.lockedCalls = w.lockedCalls
  kept : ∀ e ∈ w.lockedCalls, e ∈ w'.lockedCalls

namespace CallsAdded

theorem of_eq (h : w'.lockedCalls = w.lockedCalls) : CallsAdded w w' := ⟨fun _ => h, fun _ he => h ▸ he⟩

theorem noting (e : Event) (w : World) : CallsAdded w (w.noting e) := by
  cases h : w.hooks.locked with
  | true =>
    refine ⟨fun h' => (nomatch h.symm.trans h'), fun e' he => ?_⟩
    rw [World.noting, h]
    exact Array.mem_push_of_mem _ he
  | false => exact of_eq (by rw [World.noting, h]; rfl)

theorem trans {w'' : World} (h : CallsAdded w w') (hl : w'.hooks.locked = w.hooks.locked) (h' : CallsAdded w' w'') :
    CallsAdded w w'' :=
  ⟨fun hf => (h'.unlocked (hl.trans hf)).trans (h.unlocked hf), fun e he => h'.kept e (h.kept e he)⟩

end CallsAdded

/-! ## What leaves the hooks alone -/

/-- Nothing has happened to the hooks and the calls that run. -/
structure SameHooks (w w' : World) : Prop where
  services : w'.services = w.services
  bootServices : w'.bootServices = w.bootServices
  hooks : w'.hooks = w.hooks
  pending : w'.pending = w.pending
  calls : CallsAdded w w'

theorem SameHooks.trans {w'' : World} (h : SameHooks w w') (h' : SameHooks w' w'') : SameHooks w w'' where
  services := h'.services.trans h.services
  bootServices := h'.bootServices.trans h.bootServices
  hooks := h'.hooks.trans h.hooks
  pending := h'.pending.trans h.pending
  calls := h.calls.trans (by rw [h.hooks]) h'.calls

theorem SameHooks.hooked (h : SameHooks w w') (hw : Hooked w) : Hooked w' := by
  rw [Hooked, h.services, h.bootServices]
  exact hw

/-- The computation has a value and leaves the hooks alone. -/
def Aside (x : Uefi α) : Prop := ∀ w, ∃ a w', x w = .ok a w' ∧ SameHooks w w'

theorem bind_of_ok {x : Uefi α} {a : α} (h : x w = .ok a w') (f : α → Uefi β) : (x >>= f) w = f a w' := by
  show EStateM.bind x f w = f a w'
  simp only [EStateM.bind, h]

theorem bind_of_error {x : Uefi α} {e : Halt} (h : x w = .error e w') (f : α → Uefi β) :
    (x >>= f) w = .error e w' := by
  show EStateM.bind x f w = .error e w'
  simp only [EStateM.bind, h]

theorem get_bind (f : World → Uefi β) : (get >>= f) w = f w w := rfl

namespace Aside

theorem bind {x : Uefi α} {f : α → Uefi β} (hx : Aside x) (hf : ∀ a, Aside (f a)) : Aside (x >>= f) := by
  intro w
  obtain ⟨a, w₁, hr, h₁⟩ := hx w
  obtain ⟨b, w₂, hr', h₂⟩ := hf a w₁
  exact ⟨b, w₂, by rw [bind_of_ok hr, hr'], h₁.trans h₂⟩

theorem pure (a : α) : Aside (Pure.pure a) := fun w => ⟨a, w, rfl, rfl, rfl, rfl, rfl, .of_eq rfl⟩

theorem see (e : Event) : Aside (see e) := fun w => ⟨_, _, rfl, rfl, rfl, rfl, rfl, .noting e w⟩

theorem newBuffer : Aside newBuffer := fun _ => ⟨_, _, rfl, rfl, rfl, rfl, rfl, .of_eq rfl⟩

theorem newPoint : Aside newPoint := fun _ => ⟨_, _, rfl, rfl, rfl, rfl, rfl, .of_eq rfl⟩

theorem unloadImage (handle : Handle) : Aside (Services.unloadImage handle) :=
  fun w => ⟨_, _, rfl, rfl, rfl, rfl, rfl, .noting _ w⟩

theorem freePool (buffer : Buffer) : Aside (Services.freePool buffer) :=
  fun w => ⟨_, _, rfl, rfl, rfl, rfl, rfl, .noting _ w⟩

theorem logIn (r : Log.Record) : Aside (logIn r) := by
  intro w
  refine ⟨_, _, rfl, ?_⟩
  by_cases h : r.shownAt w.logLimit
  · simp only [h, if_true]
    exact ⟨rfl, rfl, rfl, rfl, .of_eq rfl⟩
  · simp only [h, Bool.false_eq_true, if_false]
    exact ⟨rfl, rfl, rfl, rfl, .of_eq rfl⟩

end Aside

/-! ## What computations keep -/

/-- A run ends in a value and a world with `I`, or halts with `E`. -/
def Ends (I : World → Prop) (E : Halt → World → Prop) : EStateM.Result Halt World α → Prop
  | .ok _ w => I w
  | .error e w => E e w

theorem Ends.mono {I J : World → Prop} {E F : Halt → World → Prop} {r : EStateM.Result Halt World α}
    (h : Ends I E r) (hI : ∀ w, I w → J w) (hE : ∀ e w, E e w → F e w) : Ends J F r := by
  cases r with
  | ok a w => exact hI w h
  | error e w => exact hE e w h

/-- From a world with `I`, the computation ends in one with `I`, or halts with `E`. -/
def Keeps (I : World → Prop) (E : Halt → World → Prop) (x : Uefi α) : Prop := ∀ w, I w → Ends I E (x w)

namespace Keeps

variable {I : World → Prop} {E : Halt → World → Prop}

theorem bind {x : Uefi α} {f : α → Uefi β} (hx : Keeps I E x) (hf : ∀ a, Keeps I E (f a)) : Keeps I E (x >>= f) := by
  intro w hw
  have hx := hx w hw
  cases hr : x w with
  | ok a w' =>
    rw [hr] at hx
    rw [bind_of_ok hr]
    exact hf a w' hx
  | error e w' =>
    rw [hr] at hx
    rw [bind_of_error hr]
    exact hx

theorem aside {x : Uefi α} (hx : Aside x) (hI : ∀ {w w'}, SameHooks w w' → I w → I w') : Keeps I E x := by
  intro w hw
  obtain ⟨a, w', hr, h⟩ := hx w
  rw [hr]
  exact hI h hw

end Keeps

/-- The world in which control comes out of a computation, whichever way. -/
def outcome (x : Uefi α) (w : World) : World :=
  match x w with
  | .ok _ w' | .error _ w' => w'

/-- The rule when both ends are alike. -/
theorem keeps_iff_outcome {P : World → Prop} {x : Uefi α} :
    Keeps P (fun _ => P) x ↔ ∀ w, P w → P (outcome x w) := by
  refine forall₂_congr fun w _ => ?_
  rw [outcome]
  cases x w <;> rfl

/-! ## Traps -/

namespace Aside

theorem logAll (rs : List Log.Record) : Aside (journal.logAll rs) := by
  induction rs with
  | nil => exact pure ()
  | cons r rs ih => exact (logIn r).bind fun _ => ih

theorem getTraps : Aside trapsIn.get := fun w => ⟨w.traps, w, rfl, rfl, rfl, rfl, rfl, .of_eq rfl⟩

theorem setTraps (t : Image.Traps) : Aside (trapsIn.set t) := fun _ => ⟨_, _, rfl, rfl, rfl, rfl, rfl, .of_eq rfl⟩

theorem installIn (handle : Handle) : Aside (Image.Traps.installIn journal trapsIn handle) :=
  getTraps.bind fun _ => (logAll _).bind fun _ => (setTraps _).bind fun _ => pure _

theorem onExitIn (handle : Handle) (exit : Exit) : Aside (Image.Traps.onExitIn journal trapsIn handle exit) :=
  getTraps.bind fun _ => (logAll _).bind fun _ => (setTraps _).bind fun _ => pure _

theorem takeIn (token : Image.TrapToken) : Aside (Image.Traps.takeIn trapsIn token) :=
  getTraps.bind fun _ => (setTraps _).bind fun _ => pure _

end Aside

/-! ## Exits -/

namespace Keeps

variable {I : World → Prop} {E : Halt → World → Prop}

/-- An exit that is answered by the hooks frees its data, and is resumed if the trap keeps it. -/
theorem resumeExit (hI : ∀ {w w'}, SameHooks w w' → I w → I w') (hfree : ∀ buffer, Keeps I E (Hooks.freeBuffer buffer))
    (e : Hooks.Exiting) (hresumed : ∀ w, I w → E (.resumed point e.call.status) w) :
    Keeps I E (Hooks.resumeExit e point) := by
  obtain ⟨call, buffer⟩ := e
  have hanswer {f : Image.Disposition → Uefi Status} (ht : Keeps I E (f .trapped)) (hd : Keeps I E (f .delegate))
      (exit : Exit) : Keeps I E (Image.Traps.onExitIn journal trapsIn call.handle exit >>= f) := by
    refine (aside (Aside.onExitIn _ _) hI).bind fun disposition => ?_
    cases disposition with
    | trapped => exact ht
    | delegate => exact hd
  have ht : Keeps I E (throw (.resumed point call.status) : Uefi Status) := hresumed
  have hd : Keeps I E (return Status.invalidParameter) := aside (Aside.pure _) hI
  cases buffer with
  | some buffer => exact (hfree buffer).bind fun _ => hanswer ht hd _
  | none => exact hanswer ht hd _

/-- Once it has seen an exit, the firmware does what is inside, and may end the image. -/
theorem insideExit {inside : Uefi Unit} (hi : Keeps I E inside) (call : ExitCall)
    (hended : ∀ w, I w → E (.ended call.handle call.status) w) :
    Keeps I E (do
      inside
      let w ← get
      if w.pending.starts.contains call.handle then throw (.ended call.handle call.status)
      else return w.forced.exit.getD .success : Uefi Status) := by
  refine hi.bind fun _ => ?_
  intro w hw
  rw [get_bind]
  split
  · exact hended w hw
  · exact hw

theorem firmwareExit (hI : ∀ {w w'}, SameHooks w w' → I w → I w') {inside : Uefi Unit} (hi : Keeps I E inside)
    (e : Hooks.Exiting) (hended : ∀ w, I w → E (.ended e.call.handle e.call.status) w) :
    Keeps I E (Hooks.firmwareExit inside e) :=
  (aside (Aside.see _) hI).bind fun _ => insideExit hi e.call hended

end Keeps

/-! ## The lock and what it guards -/

/-- The world with the lock of the hooks held or free. -/
def World.withLocked (b : Bool) (w : World) : World := { w with hooks := { w.hooks with locked := b } }

/-- The world with these resume points. -/
def World.withPoints (points : Table Handle ResumePoint) (w : World) : World :=
  { w with hooks := { w.hooks with points } }

theorem World.withLocked_self {b : Bool} (h : w.hooks.locked = b) : w.withLocked b = w := by
  subst h
  rfl

theorem lock_run (w : World) :
    Hooks.lock w = if w.hooks.locked then .error .lockHeld w else .ok () (w.withLocked true) := by
  show (if w.hooks.locked then throw .lockHeld else set (w.withLocked true) : Uefi Unit) w = _
  split <;> rfl

theorem withLock_of_locked (h : w.hooks.locked = true) (x : Uefi α) : Hooks.withLock x w = .error .lockHeld w :=
  bind_of_error (by rw [lock_run, if_pos h]) _

/-- Nobody who waits comes back. -/
theorem unlocked_of_withLock {x : Uefi α} {a : α} (h : Hooks.withLock x w = .ok a w') : w.hooks.locked = false := by
  cases hl : w.hooks.locked with
  | false => rfl
  | true =>
    rw [withLock_of_locked hl] at h
    cases h

theorem withLock_of_free (h : w.hooks.locked = false) (x : Uefi α) :
    Hooks.withLock x w = (x >>= fun a => do Hooks.unlock; return a) (w.withLocked true) :=
  bind_of_ok (by rw [lock_run, h]; rfl) _

theorem withLock_of_ok {x : Uefi α} {a : α} (h : w.hooks.locked = false) (hx : x (w.withLocked true) = .ok a w') :
    Hooks.withLock x w = .ok a (w'.withLocked false) := by
  rw [withLock_of_free h, bind_of_ok hx]
  rfl

theorem withLock_read {x : Uefi α} {a : α} (h : w.hooks.locked = false)
    (hx : x (w.withLocked true) = .ok a (w.withLocked true)) : Hooks.withLock x w = .ok a w := by
  rw [withLock_of_ok h hx]
  exact congrArg _ (World.withLocked_self h)

/-- Where an exit on a handle is to be resumed. -/
def World.route? (w : World) (handle : Handle) : Option ResumePoint :=
  if w.hooks.routed && w.traps.isInstalled handle then w.hooks.points.find? handle else none

theorem route?_run (h : w.hooks.locked = false) (handle : Handle) : Hooks.route? handle w = .ok (w.route? handle) w := by
  refine withLock_read h ?_
  show (if w.hooks.routed && w.traps.isInstalled handle then pure (w.hooks.points.find? handle) else pure none :
    Uefi (Option ResumePoint)) (w.withLocked true) = _
  rw [World.route?]
  split <;> rfl

theorem find?_of_route? (h : w.route? handle = some point) : w.hooks.points.find? handle = some point := by
  rw [World.route?] at h
  split at h
  · exact h
  · cases h

theorem register_run (h : w.hooks.locked = false) (handle : Handle) (point : ResumePoint) :
    Hooks.register handle point w = .ok () (w.withPoints (w.hooks.points.insert handle point)) := by
  have hr : Hooks.register handle point w =
      .ok () ((w.withLocked false).withPoints (w.hooks.points.insert handle point)) := withLock_of_free h _
  rw [hr, World.withLocked_self h]

theorem unregister_run (h : w.hooks.locked = false) (handle : Handle) :
    Hooks.unregister handle w = .ok () (w.withPoints (w.hooks.points.erase handle)) := by
  have hr : Hooks.unregister handle w = .ok () ((w.withLocked false).withPoints (w.hooks.points.erase handle)) :=
    withLock_of_free h _
  rw [hr, World.withLocked_self h]

/-! ## The services that lead to the hooks -/

/-- A call of the exit service, whose data is put into a buffer. -/
def handOver (call : ExitCall) : Uefi Hooks.Exiting := do
  let buffer ← if call.data.isSome then do pure (some (← newBuffer)) else pure none
  return ⟨call, buffer⟩

theorem handOver_run (call : ExitCall) (w : World) :
    ∃ e w', handOver call w = .ok e w' ∧ e.call = call ∧ SameHooks w w' ∧ w'.traps = w.traps ∧
      ∀ inside, Hooks.exit inside call w =
        (match ((w.services.find? w.bootServices).getD {}).exit with
          | .firmware => Hooks.firmwareExit inside e
          | .hook => Hooks.exitHook inside e) w' := by
  unfold handOver Hooks.exit
  split
  · exact ⟨_, _, rfl, rfl, ⟨rfl, rfl, rfl, rfl, .of_eq rfl⟩, rfl, fun _ => rfl⟩
  · exact ⟨_, _, rfl, rfl, ⟨rfl, rfl, rfl, rfl, .of_eq rfl⟩, rfl, fun _ => rfl⟩

/-- A call of the exit service comes to what stands in the table. -/
theorem exit_slot (inside : Uefi Unit) (call : ExitCall) (w : World) :
    ∃ buffer w', SameHooks w w' ∧ Hooks.exit inside call w =
      (match ((w.services.find? w.bootServices).getD {}).exit with
        | .firmware => Hooks.firmwareExit inside ⟨call, buffer⟩
        | .hook => Hooks.exitHook inside ⟨call, buffer⟩) w' := by
  obtain ⟨⟨_, buffer⟩, w', -, rfl, hs, -, hr⟩ := handOver_run call w
  exact ⟨buffer, w', hs, hr inside⟩

/-- In a hooked table, it comes to the hook. -/
theorem exit_run (hk : Hooked w) (inside : Uefi Unit) (call : ExitCall) :
    ∃ buffer w', SameHooks w w' ∧ Hooks.exit inside call w = Hooks.exitHook inside ⟨call, buffer⟩ w' := by
  obtain ⟨buffer, w', h, hr⟩ := exit_slot inside call w
  rw [Hooked] at hk
  rw [hk] at hr
  exact ⟨buffer, w', h, hr⟩

theorem unload_run (handle : Handle) (w : World) :
    Hooks.unload handle w = Services.unloadImage handle w ∨ Hooks.unload handle w = Hooks.unloadHook handle w := by
  rw [Hooks.unload, get_bind]
  cases ((w.services.find? w.bootServices).getD {}).unload with
  | firmware => exact .inl rfl
  | hook => exact .inr rfl

/-! ## Halts that are caught -/

/-- A resume point catches what is resumed there, and nothing else. -/
theorem untilResumed_run (point : ResumePoint) (x : Uefi Status) (w : World) :
    (∃ status w', (x w = .ok status w' ∨ x w = .error (.resumed point status) w') ∧
      untilResumed point x w = .ok status w') ∨
    ∃ e w', x w = .error e w' ∧ (∀ status, e ≠ .resumed point status) ∧ untilResumed point x w = .error e w' := by
  rw [untilResumed]
  cases hr : x w with
  | ok status w' => exact .inl ⟨status, w', .inl rfl, rfl⟩
  | error e w' =>
    cases e with
    | resumed p status =>
      by_cases hp : p = point
      · subst hp
        exact .inl ⟨status, w', .inr rfl, if_pos rfl⟩
      · exact .inr ⟨_, w', rfl, fun _ h => hp (Halt.resumed.inj h).1, if_neg hp⟩
    | _ => exact .inr ⟨_, w', rfl, nofun, rfl⟩

theorem outcome_untilResumed (point : ResumePoint) (x : Uefi Status) (w : World) :
    outcome (untilResumed point x) w = outcome x w := by
  rw [outcome, outcome]
  obtain ⟨status, w', hr | hr, hu⟩ | ⟨e, w', hr, -, hu⟩ := untilResumed_run point x w
  · rw [hr, hu]
  · rw [hr, hu]
  · rw [hr, hu]

/-- The world with these calls running. -/
def World.withPending (pending : Pending) (w : World) : World := { w with pending }

/-- The world when the firmware has started an image. -/
def World.starting (handle : Handle) (w : World) : World :=
  (w.noting (.startImage handle)).withPending { w.pending with starts := handle :: w.pending.starts }

theorem CallsAdded.of_starting (h : CallsAdded (w.starting handle) w') (pending : Pending) :
    CallsAdded w (w'.withPending pending) :=
  (CallsAdded.noting (.startImage handle) w).trans rfl ⟨h.unlocked, h.kept⟩

/-- What `body` comes to, an image that does it comes to as well, but for its own end. -/
theorem started_ends {I J : World → Prop} {E F : Halt → World → Prop} {body : Uefi Unit}
    (hb : Ends J F (body (w.starting handle))) (hok : ∀ w', J w' → I (w'.withPending w.pending))
    (hended : ∀ h status w', F (.ended h status) w' → I (w'.withPending w.pending))
    (hhalt : ∀ e w', F e w' → E e w') : Ends I E (started handle body w) := by
  have hrest {ended : Option Status} {w' : World}
      (h : untilEnded handle (body >>= fun _ => return none) (w.starting handle) = .ok ended w') :
      started handle body w = .ok ended (w'.withPending w.pending) := bind_of_ok h _
  have hstop {e : Halt} {w' : World}
      (h : untilEnded handle (body >>= fun _ => return none) (w.starting handle) = .error e w') :
      started handle body w = .error e w' := bind_of_error h _
  cases hr : body (w.starting handle) with
  | ok _ w' =>
    rw [hr] at hb
    rw [hrest (by rw [untilEnded, bind_of_ok hr]; rfl)]
    exact hok w' hb
  | error e w' =>
    rw [hr] at hb
    by_cases he : ∃ status, e = .ended handle status
    · obtain ⟨status, rfl⟩ := he
      rw [hrest (by rw [untilEnded, bind_of_error hr]; exact if_pos rfl)]
      exact hended _ _ w' hb
    · have hu : untilEnded handle (body >>= fun _ => return none) (w.starting handle) = .error e w' := by
        rw [untilEnded, bind_of_error hr]
        cases e with
        | ended h status => exact if_neg fun hh : h = handle => he ⟨status, by rw [hh]⟩
        | _ => rfl
      rw [hstop hu]
      exact hhalt e w' hb

/-! ## Ordinary runs -/

/-- This has nothing to do with the lock and the points of the hooks, and with the calls that run. -/
structure Lasting (P : World → Prop) : Prop where
  same : ∀ {w w'}, SameHooks w w' → P w → P w'
  locked : ∀ {w} b, P w → P (World.withLocked b w)
  points : ∀ {w} points, P w → P (World.withPoints points w)
  pending : ∀ {w} pending, P w → P (World.withPending pending w)

/-- The computation neither puts the hooks in nor takes them out, and turns to them only as images do that run:
    whatever lasts holds behind it if it did before, whichever way the computation ends. -/
def Ordinary (x : Uefi α) : Prop := ∀ P, Lasting P → Keeps P (fun _ => P) x

namespace Ordinary

theorem lasts {x : Uefi α} {P : World → Prop} (hx : Ordinary x) (hP : Lasting P) (h : P w) : P (outcome x w) :=
  keeps_iff_outcome.mp (hx P hP) w h

theorem of_ok {x : Uefi α} {a : α} {P : World → Prop} (hx : Ordinary x) (hr : x w = .ok a w') (hP : Lasting P)
    (h : P w) : P w' := by
  have hlasts := hx.lasts hP h
  rwa [outcome, hr] at hlasts

theorem of_error {x : Uefi α} {e : Halt} {P : World → Prop} (hx : Ordinary x) (hr : x w = .error e w') (hP : Lasting P)
    (h : P w) : P w' := by
  have hlasts := hx.lasts hP h
  rwa [outcome, hr] at hlasts

theorem aside {x : Uefi α} (hx : Aside x) : Ordinary x := fun _ hP => Keeps.aside hx hP.same

theorem pure (a : α) : Ordinary (Pure.pure a) := aside (.pure a)

theorem get : Ordinary (MonadState.get : Uefi World) := fun _ _ _ h => h

theorem throw (e : Halt) : Ordinary (MonadExcept.throw e : Uefi α) := fun _ _ _ h => h

theorem bind {x : Uefi α} {f : α → Uefi β} (hx : Ordinary x) (hf : ∀ a, Ordinary (f a)) : Ordinary (x >>= f) :=
  fun P hP => Keeps.bind (hx P hP) fun a => hf a P hP

theorem setPending (f : Pending → Pending) : Ordinary (setPending f) := fun _ hP w h => hP.pending (f w.pending) h

theorem unlock : Ordinary Hooks.unlock := fun _ hP _ h => hP.locked false h

theorem withLock {x : Uefi α} (hx : Ordinary x) : Ordinary (Hooks.withLock x) := by
  have hlock : Ordinary Hooks.lock := by
    intro P hP w h
    rw [lock_run]
    split
    · exact h
    · exact hP.locked true h
  exact hlock.bind fun _ => hx.bind fun a => unlock.bind fun _ => pure a

theorem register (handle : Handle) (point : ResumePoint) : Ordinary (Hooks.register handle point) :=
  withLock fun _ hP w h => hP.points (w.hooks.points.insert handle point) h

theorem unregister (handle : Handle) : Ordinary (Hooks.unregister handle) :=
  withLock fun _ hP w h => hP.points (w.hooks.points.erase handle) h

theorem route? (handle : Handle) : Ordinary (Hooks.route? handle) := by
  refine withLock (get.bind fun w => ?_)
  split
  · exact pure _
  · exact pure _

theorem firmwareExit {inside : Uefi Unit} (hi : Ordinary inside) (e : Hooks.Exiting) :
    Ordinary (Hooks.firmwareExit inside e) :=
  fun P hP => Keeps.firmwareExit hP.same (hi P hP) e fun _ h => h

theorem forwardExit {inside : Uefi Unit} (hi : Ordinary inside) (e : Hooks.Exiting) :
    Ordinary (Hooks.forwardExit inside e) := by
  refine withLock (get.bind fun w => ?_)
  split
  · exact pure _
  · split
    · exact firmwareExit hi e
    · exact throw _

theorem freeBuffer (buffer : Nat) : Ordinary (Hooks.freeBuffer buffer) := by
  refine (withLock (get.bind fun w => pure _)).bind fun saved => ?_
  split
  · exact (aside (.freePool _)).bind fun _ => pure _
  · exact pure _

theorem resumeExit (e : Hooks.Exiting) (point : ResumePoint) : Ordinary (Hooks.resumeExit e point) :=
  fun P hP => Keeps.resumeExit hP.same (fun buffer => freeBuffer buffer P hP) e fun _ h => h

theorem exit {inside : Uefi Unit} (hi : Ordinary inside) (call : ExitCall) : Ordinary (Hooks.exit inside call) := by
  intro P hP w h
  obtain ⟨buffer, w', hs, hr⟩ := exit_slot inside call w
  replace h := hP.same hs h
  rw [hr]
  cases ((w.services.find? w.bootServices).getD {}).exit with
  | firmware => exact firmwareExit hi _ P hP w' h
  | hook =>
    refine (route? call.handle).bind (fun point => ?_) P hP w' h
    cases point with
    | some point => exact resumeExit _ _
    | none => exact forwardExit hi _

theorem unload (handle : Handle) : Ordinary (Hooks.unload handle) := by
  intro P hP w h
  rcases unload_run handle w with hr | hr
  · rw [hr]
    exact aside (.unloadImage handle) P hP w h
  · rw [hr]
    refine (withLock (get.bind fun w => pure _)).bind (fun state => get.bind fun w => ?_) P hP w h
    dsimp only
    split
    · exact (aside (.logIn _)).bind fun _ => pure _
    · split
      · exact pure _
      · split
        · exact aside (.unloadImage handle)
        · exact throw _

theorem enter {body : Uefi Status} (hb : Ordinary body) (handle : Handle) : Ordinary (enter handle body) := by
  have hcaught (point : ResumePoint) : Ordinary (untilResumed point (do
      see (.enter handle)
      body)) := by
    intro P hP
    refine keeps_iff_outcome.mpr fun w h => ?_
    rw [outcome_untilResumed]
    exact ((aside (.see (.enter handle))).bind fun _ => hb).lasts hP h
  exact (aside .newPoint).bind fun point => get.bind fun w => (register handle point).bind fun _ =>
    (setPending _).bind fun _ => (hcaught point).bind fun status => (setPending _).bind fun _ =>
      (unregister handle).bind fun _ => pure status

theorem started {body : Uefi Unit} (hb : Ordinary body) (handle : Handle) : Ordinary (started handle body) := by
  intro P hP w h
  have hseen : SameHooks w (w.noting (.startImage handle)) := ⟨rfl, rfl, rfl, rfl, .noting _ w⟩
  exact started_ends (hb P hP _ (hP.pending _ (hP.same hseen h))) (fun _ h => hP.pending _ h)
    (fun _ _ _ h => hP.pending _ h) fun _ _ h => h

end Ordinary

mutual

/-- All that an image does is ordinary, and so is whatever it does inside an exit. -/
theorem perform_ordinary : ∀ act : Act, Ordinary (perform act)
  | .exit call inside => by
    rw [perform]
    exact (Ordinary.exit (performAll_ordinary inside) call).bind fun _ => .aside (.see _)
  | .unload handle => by
    rw [perform]
    exact (Ordinary.unload handle).bind fun _ => .aside (.see _)
  | .launch handle acts status => by
    rw [perform]
    refine (Ordinary.aside (.installIn handle)).bind fun token => (Ordinary.enter ?_ handle).bind fun _ =>
      (Ordinary.aside (.takeIn token)).bind fun _ => .pure _
    exact (performAll_ordinary acts).bind fun _ => .pure status
  | .start handle acts => by
    rw [perform]
    exact (Ordinary.started (performAll_ordinary acts) handle).bind fun _ => .pure _

theorem performAll_ordinary : ∀ acts : List Act, Ordinary (performAll acts)
  | [] => by
    rw [performAll]
    exact .pure _
  | act :: acts => by
    rw [performAll]
    exact (perform_ordinary act).bind fun _ => performAll_ordinary acts

end

end NetBoot.Uefi
