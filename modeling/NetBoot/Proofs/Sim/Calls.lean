/-
  NetBoot.Proofs.Sim.Calls — calls that hand control to an image and get it back.

  Some calls into this program run in two parts with an entry point called between them: the first
  part either ends the call or makes a claim, and the second settles the claim. The image that runs
  in the middle may make such calls itself, and so may the images that they run.

  `Calls` is a family of such calls, each proved to be its two parts. A machine goes through moments
  (`Reach`): a call ends before it hands over, hands over, or is settled, always the one that handed
  over last; in between anything may happen that keeps a relation `R`. Nothing bounds the depth. `Run`
  is one whole computation with the marks that it leaves, and `Client` says that a computation is
  built from calls and from what keeps `R`. A run passes through reachable moments only
  (`Run.reach`), and if no part of a call can be cut off at one, a client runs to its end
  (`Client.exists_run`).
-/

import NetBoot.Proofs.Sim.Run

namespace NetBoot.Sim

/-- The simulated machine on which an entry point does what `image` says. -/
def entering (image : Address → Handle → Sim Status) : Firmware Sim :=
  { (machine 0).toFirmware with callEntry := image }

theorem machine_toFirmware (n : Nat) : (machine n).toFirmware = entering (machine n).callEntry := by
  cases n <;> rfl

/-- Goes on with the claim of a first part, unless that has ended the call. -/
def orClaim {ρ γ : Type} (first : Sim (Except ρ γ)) (next : γ → Sim ρ) : Sim ρ := do
  match ← first with
  | .error r => return r
  | .ok claim => next claim

/-- A call that never makes a claim is its first part. -/
theorem orClaim_of_result {ρ γ : Type} (x : Sim ρ) (next : γ → Sim ρ) :
    orClaim (do let r ← x; return .error r) next = x := by
  unfold orClaim
  rw [bind_assoc]
  exact bind_pure x

/-- A family of calls, each of which runs an image at most once. -/
structure Calls (κ : Type) where
  Result : κ → Type
  /-- What a call holds while its image runs. -/
  Claim : κ → Type
  perform : (c : κ) → (Address → Handle → Sim Status) → Sim (Result c)
  start : (c : κ) → Sim (Except (Result c) (Claim c))
  entry : {c : κ} → Claim c → Address
  handle : {c : κ} → Claim c → Handle
  finish : {c : κ} → Claim c → Status → Sim (Result c)
  perform_eq (c : κ) (image : Address → Handle → Sim Status) :
    perform c image = orClaim (start c) fun claim => image (entry claim) (handle claim) >>= finish claim

variable {κ : Type}

/-- A call whose image runs. -/
structure Frame (C : Calls κ) where
  call : κ
  claim : C.Claim call

namespace Frame

variable {C : Calls κ}

def entry (f : Frame C) : Address := C.entry f.claim

def handle (f : Frame C) : Handle := C.handle f.claim

end Frame

/-- What a call leaves behind. -/
inductive Mark (C : Calls κ) where
  /-- It ended before its image got control. -/
  | made (c : κ) (r : C.Result c)
  | entered (f : Frame C)
  /-- Its image gave control back in the world `later`. -/
  | left (f : Frame C) (later : World)

/-- The calls whose images run, the innermost first, after marks of which the latest stands first. -/
def running {C : Calls κ} : List (Mark C) → List (Frame C)
  | [] => []
  | .made .. :: ms => running ms
  | .entered f :: ms => f :: running ms
  | .left .. :: ms => (running ms).tail

/-- The moments of a machine that begins in `w₀`, each with the marks of the calls so far. -/
inductive Reach (C : Calls κ) (R : World → World → Prop) (w₀ : World) : List (Mark C) → World → Prop
  | start : Reach C R w₀ [] w₀
  | other {ms : List (Mark C)} {w w' : World} : Reach C R w₀ ms w → R w w' → Reach C R w₀ ms w'
  | made {ms : List (Mark C)} {w w' : World} {c : κ} {r : C.Result c} :
      Reach C R w₀ ms w → C.start c w = .ok (.error r) w' → Reach C R w₀ (.made c r :: ms) w'
  | entered {ms : List (Mark C)} {w w' : World} {f : Frame C} :
      Reach C R w₀ ms w → C.start f.call w = .ok (.ok f.claim) w' → Reach C R w₀ (.entered f :: ms) w'
  | left {ms : List (Mark C)} {w w' : World} {f : Frame C} {s : List (Frame C)} {status : Status}
      {r : C.Result f.call} :
      Reach C R w₀ ms w → running ms = f :: s → C.finish f.claim status w = .ok r w' →
      Reach C R w₀ (.left f w :: ms) w'

/-- A whole computation and the marks of its calls. -/
inductive Run (C : Calls κ) (R : World → World → Prop) :
    {α : Type} → Sim α → World → List (Mark C) → α → World → Prop
  | other {α : Type} {x : Sim α} {w w' : World} {a : α} : x w = .ok a w' → R w w' → Run C R x w [] a w'
  | bind {α β : Type} {x : Sim α} {f : α → Sim β} {w w' w'' : World} {ms ms' : List (Mark C)} {a : α} {b : β} :
      Run C R x w ms a w' → Run C R (f a) w' ms' b w'' → Run C R (x >>= f) w (ms' ++ ms) b w''
  | made {image : Address → Handle → Sim Status} {w w' : World} {c : κ} {r : C.Result c} :
      C.start c w = .ok (.error r) w' → Run C R (C.perform c image) w [.made c r] r w'
  | called {image : Address → Handle → Sim Status} {w now later w' : World} {f : Frame C} {ms : List (Mark C)}
      {status : Status} {r : C.Result f.call} :
      C.start f.call w = .ok (.ok f.claim) now → Run C R (image f.entry f.handle) now ms status later →
      C.finish f.claim status later = .ok r w' →
      Run C R (C.perform f.call image) w (.left f later :: (ms ++ [.entered f])) r w'

/-- A computation that makes these calls, with clients as images, and does nothing else but what
    keeps `R`. -/
inductive Client (C : Calls κ) (R : World → World → Prop) : {α : Type} → Sim α → Prop
  | other {α : Type} {x : Sim α} : Total R x → Client C R x
  | bind {α β : Type} {x : Sim α} {f : α → Sim β} :
      Client C R x → (∀ a, Client C R (f a)) → Client C R (x >>= f)
  | call (c : κ) {image : Address → Handle → Sim Status} :
      (∀ entry handle, Client C R (image entry handle)) → Client C R (C.perform c image)

variable {C : Calls κ} {R : World → World → Prop} {α : Type} {x : Sim α} {a : α} {w₀ w w' : World}
  {ms before : List (Mark C)}

/-! ## Calls and their parts -/

namespace Calls

variable {image : Address → Handle → Sim Status}

theorem perform_made {c : κ} {r : C.Result c} (h : C.start c w = .ok (.error r) w') : C.perform c image w = .ok r w' := by
  rw [C.perform_eq, orClaim, bind_of_ok h]
  rfl

theorem perform_called {f : Frame C} {r : C.Result f.call} {now later : World} {status : Status}
    (hs : C.start f.call w = .ok (.ok f.claim) now) (hi : image f.entry f.handle now = .ok status later)
    (hf : C.finish f.claim status later = .ok r w') : C.perform f.call image w = .ok r w' := by
  rw [C.perform_eq, orClaim, bind_of_ok hs]
  exact (bind_of_ok hi _).trans hf

end Calls

/-! ## Runs -/

namespace Run

theorem eq_ok (h : Run C R x w ms a w') : x w = .ok a w' := by
  induction h with
  | other hx _ => exact hx
  | bind _ _ ihx ihf => rw [bind_of_ok ihx, ihf]
  | made hs => exact Calls.perform_made hs
  | called hs _ hf ih => exact Calls.perform_called hs ih hf

/-- The calls of a run have all come back at its end. -/
theorem running_eq (h : Run C R x w ms a w') (before : List (Mark C)) : running (ms ++ before) = running before := by
  induction h generalizing before with
  | other _ _ => rfl
  | bind _ _ ihx ihf => rw [List.append_assoc, ihf, ihx]
  | made _ => rfl
  | called _ _ _ ih =>
    rw [List.cons_append, List.append_assoc, running, ih]
    rfl

/-- A run that begins at a reachable moment ends at one. -/
theorem reach (h : Run C R x w ms a w') (hw : Reach C R w₀ before w) : Reach C R w₀ (ms ++ before) w' := by
  induction h generalizing before with
  | other _ hR => exact hw.other hR
  | bind _ _ ihx ihf =>
    rw [List.append_assoc]
    exact ihf (ihx hw)
  | made hs => exact hw.made hs
  | called hs hi hf ih =>
    rw [List.cons_append, List.append_assoc]
    exact (ih (hw.entered hs)).left (hi.running_eq _) hf

end Run

/-! ## Clients -/

/-- At every moment that can be reached from `w₀`, a call can be made, and the innermost running one
    can be settled. -/
structure Progress (C : Calls κ) (R : World → World → Prop) (w₀ : World) : Prop where
  start {ms : List (Mark C)} {w : World} (h : Reach C R w₀ ms w) (c : κ) : ∃ r w', C.start c w = .ok r w'
  finish {ms : List (Mark C)} {w : World} (h : Reach C R w₀ ms w) {f : Frame C} {s : List (Frame C)}
    (hf : running ms = f :: s) (status : Status) : ∃ r w', C.finish f.claim status w = .ok r w'

theorem Client.exists_run (hp : Progress C R w₀) (hx : Client C R x) (hw : Reach C R w₀ before w) :
    ∃ ms a w', Run C R x w ms a w' := by
  induction hx generalizing before w with
  | other hx =>
    obtain ⟨a, w', hr, hR⟩ := hx w
    exact ⟨[], a, w', .other hr hR⟩
  | bind _ _ ihx ihf =>
    obtain ⟨ms, a, w', hr⟩ := ihx hw
    obtain ⟨ms', b, w'', hr'⟩ := ihf a (hr.reach hw)
    exact ⟨_, b, w'', .bind hr hr'⟩
  | call c _ ih =>
    obtain ⟨r | claim, now, hs⟩ := hp.start hw c
    · exact ⟨_, r, now, .made hs⟩
    · obtain ⟨ms, status, later, hr⟩ := ih _ _ (hw.entered (f := ⟨c, claim⟩) hs)
      obtain ⟨r, w', hf⟩ := hp.finish (f := ⟨c, claim⟩) (hr.reach (hw.entered (f := ⟨c, claim⟩) hs)) (hr.running_eq _) status
      exact ⟨_, r, w', .called (f := ⟨c, claim⟩) hs hr hf⟩

end NetBoot.Sim
