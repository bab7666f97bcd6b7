/-
  NetBoot.Proofs.Image.Errands — the pages of all images while calls of the loader nest.

  An image that is loaded and launched may call the loader again from its entry point, and so may the
  images that it launches. `errands` is the family of these calls. At every moment the runs of pages
  that are held are exactly those of the running images (`ledger_of_reach`), whatever fails on the
  way; so no call is ever cut off (`errands_progress`), and when all have come back each run of pages
  that was taken has been given back, once. The scripts of a simulated machine are clients of that
  kind (`client_loadAndLaunch`).
-/

import NetBoot.Image.Sample
import NetBoot.Proofs.Image.Pages

namespace NetBoot.Image

open Sim

namespace Loader

/-- Loads an image and gives it up at once. -/
def loadAndDrop {m : Type → Type} [Monad m] (l : Loader) (fw : Firmware m) (raw : Bytes) :
    m (Loader × Except LoadError Header) := do
  match ← l.load fw raw with
  | (l, .error e) => return (l, .error e)
  | (l, .ok (header, image)) => do
    image.release fw
    return (l, .ok header)

/-- A loaded image up to the call of its entry point. -/
def startLoaded (context : LaunchContext) :
    Loader × Except LoadError (Header × MappedImage) →
      Sim (Except (Loader × Except LoadError Exit) (Loader × Launching))
  | (l, .error e) => return .error (l, .error e)
  | (l, .ok (_, image)) => do
    let l ← l.enter (machine 0).toFirmware .launched
    match ← Launching.start (machine 0).toFirmware trapsCell image context with
    | .error e => do
      let r ← l.finish (machine 0).toFirmware (.error e)
      return .error r
    | .ok launching => return .ok (l, launching)

/-- A load and launch up to the call of the entry point, if it comes to that. -/
def start (l : Loader) (raw : Bytes) (context : LaunchContext) :
    Sim (Except (Loader × Except LoadError Exit) (Loader × Launching)) := do
  if ← l.mustValidate (machine 0).toFirmware then do
    let r ← l.launchValidated (machine 0).toFirmware raw context
    return .error r
  else do
    let loaded ← l.load (machine 0).toFirmware raw
    startLoaded context loaded

/-- A load and launch from there on. -/
def settle (l : Loader) (launching : Launching) (status : Status) : Sim (Loader × Except LoadError Exit) := do
  let exit ← launching.finish (machine 0).toFirmware trapsCell status
  l.finish (machine 0).toFirmware (.ok exit)

theorem loadAndLaunch_eq (l : Loader) (raw : Bytes) (context : LaunchContext)
    (image : Address → Handle → Sim Status) :
    l.loadAndLaunch (entering image) trapsCell raw context = orClaim (l.start raw context) fun claim =>
      image claim.2.image.entry claim.2.context.handle >>= claim.1.settle claim.2 := by
  unfold loadAndLaunch orClaim start
  rw [bind_assoc]
  refine congrArg (Bind.bind _) (funext fun checked => ?_)
  cases checked with
  | true => exact (orClaim_of_result (l.launchValidated (machine 0).toFirmware raw context) _).symm
  | false =>
    rw [if_neg Bool.false_ne_true, if_neg Bool.false_ne_true, bind_assoc]
    refine congrArg (Bind.bind _) (funext fun loaded => ?_)
    obtain ⟨l, e | ⟨header, mapped⟩⟩ := loaded
    · rfl
    · dsimp only [startLoaded]
      rw [bind_assoc]
      refine congrArg (Bind.bind _) (funext fun l => ?_)
      rw [Launching.launch_eq, bind_assoc, bind_assoc]
      refine congrArg (Bind.bind _) (funext fun started => ?_)
      cases started with
      | error e =>
        refine (pure_bind _ _).trans ?_
        exact (orClaim_of_result (l.finish (machine 0).toFirmware (.error e)) _).symm
      | ok launching =>
        simp only [bind_assoc, pure_bind]
        rfl

end Loader

/-- A call of the loader. -/
inductive Errand where
  | loadAndLaunch (loader : Loader) (raw : Bytes) (context : LaunchContext)
  | launchValidated (loader : Loader) (raw : Bytes) (context : LaunchContext)
  | loadAndDrop (loader : Loader) (raw : Bytes)

namespace Errand

def Result : Errand → Type
  | .loadAndLaunch .. => Loader × Except LoadError Exit
  | .launchValidated .. => Loader × Except LoadError Exit
  | .loadAndDrop .. => Loader × Except LoadError Header

/-- Only one kind runs an image. -/
def Claim : Errand → Type
  | .loadAndLaunch .. => Loader × Launching
  | .launchValidated .. => Empty
  | .loadAndDrop .. => Empty

def launching : (e : Errand) → e.Claim → Launching
  | .loadAndLaunch .., claim => claim.2

def perform (image : Address → Handle → Sim Status) : (e : Errand) → Sim e.Result
  | .loadAndLaunch l raw context => l.loadAndLaunch (entering image) trapsCell raw context
  | .launchValidated l raw context => l.launchValidated (entering image) raw context
  | .loadAndDrop l raw => l.loadAndDrop (entering image) raw

def start : (e : Errand) → Sim (Except e.Result e.Claim)
  | .loadAndLaunch l raw context => l.start raw context
  | .launchValidated l raw context => do
    let r ← l.launchValidated (machine 0).toFirmware raw context
    return .error r
  | .loadAndDrop l raw => do
    let r ← l.loadAndDrop (machine 0).toFirmware raw
    return .error r

def finish : (e : Errand) → e.Claim → Status → Sim e.Result
  | .loadAndLaunch .., claim, status => claim.1.settle claim.2 status

theorem perform_eq (e : Errand) (image : Address → Handle → Sim Status) :
    perform image e = orClaim e.start fun claim =>
      image (launching e claim).image.entry (launching e claim).context.handle >>= finish e claim := by
  cases e with
  | loadAndLaunch l raw context => exact l.loadAndLaunch_eq raw context image
  | launchValidated l raw context => exact (orClaim_of_result _ _).symm
  | loadAndDrop l raw => exact (orClaim_of_result _ _).symm

end Errand

/-- What clients do with the loader. -/
def errands : Calls Errand where
  Result := Errand.Result
  Claim := Errand.Claim
  perform e image := Errand.perform image e
  start := Errand.start
  entry claim := (Errand.launching _ claim).image.entry
  handle claim := (Errand.launching _ claim).context.handle
  finish := Errand.finish _
  perform_eq := Errand.perform_eq

/-- The image of a call that runs. -/
def imageOf (f : Frame errands) : MappedImage := (Errand.launching f.call f.claim).image

/-! ## Books -/

variable {w v : World} {held : List PageRun}

namespace Loader

theorem books_loadAndDrop (l : Loader) (raw : Bytes) :
    Books w held (l.loadAndDrop (machine 0).toFirmware raw) fun _ => held := by
  refine .bind (l.books_load raw) fun r => ?_
  obtain ⟨l, e | ⟨header, image⟩⟩ := r
  · exact .pure _ rfl
  · exact .bind image.books_release fun _ => .pure _ rfl

theorem books_startLoaded (context : LaunchContext) (r : Loader × Except LoadError (Header × MappedImage)) :
    Books w (pagesOf (r.2.map (·.2)) ++ held) (startLoaded context r) fun s => pagesOf (s.map (·.2.image)) ++ held := by
  obtain ⟨l, e | ⟨header, image⟩⟩ := r
  · exact .pure _ rfl
  · refine .bind (.quiet (SamePages.silent (l.silent_enter _))) fun l => ?_
    refine .bind (Launching.books_start image context) fun started => ?_
    cases started with
    | error e => exact .bind (.quiet (l.same_pages_finish _)) fun _ => .pure _ rfl
    | ok launching => exact .pure _ rfl

theorem books_start (l : Loader) (raw : Bytes) (context : LaunchContext) :
    Books w held (l.start raw context) fun r => pagesOf (r.map (·.2.image)) ++ held := by
  refine .bind (.quiet l.same_pages_mustValidate) fun checked => ?_
  cases checked with
  | true => exact .bind (.quiet (l.same_pages_launchValidated raw context)) fun _ => .pure _ rfl
  | false => exact .bind (l.books_load raw) fun r => books_startLoaded context r

theorem books_settle (l : Loader) (launching : Launching) (status : Status) :
    Books w (launching.image.pageRun :: held) (l.settle launching status) fun _ => held :=
  .bind (launching.books_finish status) fun _ => .quiet (l.same_pages_finish _)

end Loader

/-- A call that hands over holds the pages of its image; one that ends holds none. -/
theorem errands_books_start (e : Errand) :
    Books w held (errands.start e) fun r => pagesOf (r.map fun claim => (e.launching claim).image) ++ held := by
  cases e with
  | loadAndLaunch l raw context => exact l.books_start raw context
  | launchValidated l raw context =>
    exact .bind (.quiet (l.same_pages_launchValidated raw context)) fun _ => .pure _ rfl
  | loadAndDrop l raw => exact .bind (l.books_loadAndDrop raw) fun _ => .pure _ rfl

theorem errands_books_finish (f : Frame errands) (status : Status) :
    Books w ((imageOf f).pageRun :: held) (errands.finish f.claim status) fun _ => held := by
  obtain ⟨e, claim⟩ := f
  cases e with
  | loadAndLaunch l raw context => exact claim.1.books_settle claim.2 status
  | launchValidated l raw context => exact nomatch claim
  | loadAndDrop l raw => exact nomatch claim

/-- What is held at a moment are the pages of the images that run. -/
theorem ledger_of_reach {ms : List (Mark errands)} (hw : PagesBelow w) (h : Reach errands SamePages w ms v) :
    Ledger w ((running ms).map fun f => (imageOf f).pageRun) v := by
  induction h with
  | start => exact .start hw
  | other _ hs ih => exact ih.quiet hs
  | made _ hs ih =>
    obtain ⟨r, later, hr, hl⟩ := errands_books_start _ _ ih
    rw [hs] at hr
    cases hr
    exact hl
  | entered _ hs ih =>
    obtain ⟨r, later, hr, hl⟩ := errands_books_start _ _ ih
    rw [hs] at hr
    cases hr
    exact hl
  | @left ms w₁ w₂ f s status r _ hrun hf ih =>
    rw [hrun] at ih
    obtain ⟨r', later, hr, hl⟩ := errands_books_finish f status _ ih
    rw [hf] at hr
    cases hr
    rw [running, hrun]
    exact hl

/-- No call is ever cut off. -/
theorem errands_progress (hw : PagesBelow w) : Progress errands SamePages w where
  start := by
    intro ms v h e
    obtain ⟨r, later, hr, -⟩ := errands_books_start e _ (ledger_of_reach hw h)
    exact ⟨r, later, hr⟩
  finish := by
    intro ms v h f s hrun status
    have hl := ledger_of_reach hw h
    rw [hrun] at hl
    obtain ⟨r, later, hr, -⟩ := errands_books_finish f status _ hl
    exact ⟨r, later, hr⟩

/-! ## Scripts are clients -/

section Scripts

variable {launch : Handle → Bytes → Sim (Except LoadError Exit)}

theorem same_pages_emit {e : Event} (h : e.IsQuiet) : Total SamePages (emit e) :=
  fun _ => ⟨(), _, rfl, rfl, rfl, .of_push rfl h⟩

theorem same_pages_get : Total SamePages (get : Sim World) := fun w => ⟨w, w, rfl, SamePages.ordered.refl w⟩

theorem client_perform (hl : ∀ handle image, Client errands SamePages (launch handle image)) (act : Act) :
    Client errands SamePages (perform launch act) := by
  cases act with
  | exit handle exit =>
    refine .other (SamePages.bind (fun w => ?_) fun _ => same_pages_emit ⟨rfl, rfl⟩)
    obtain ⟨log, h⟩ := onExitIn_run handle exit w
    exact ⟨_, _, h, rfl, rfl, .of_eq rfl⟩
  | unload handle =>
    exact .other (SamePages.bind (fun w => ⟨_, w, rfl, SamePages.ordered.refl w⟩) fun _ => same_pages_emit ⟨rfl, rfl⟩)
  | launch handle image => exact .bind (hl handle image) fun _ => .other (same_pages_emit ⟨rfl, rfl⟩)

theorem client_performAll (hl : ∀ handle image, Client errands SamePages (launch handle image)) (acts : List Act) :
    Client errands SamePages (performAll launch acts) := by
  induction acts with
  | nil => exact .other (SamePages.pure _)
  | cons act acts ih => exact .bind (client_perform hl act) fun _ => ih

/-- Takes the next script away. -/
def takeScript : Sim (Option EntryScript) := do
  let w ← get
  match w.entries with
  | [] => return none
  | script :: entries => do
    set { w with entries }
    return some script

theorem same_pages_takeScript : Total SamePages takeScript := by
  intro w
  unfold takeScript
  rw [get_bind]
  cases w.entries with
  | nil => exact ⟨_, _, rfl, SamePages.ordered.refl w⟩
  | cons script entries => exact ⟨_, _, rfl, rfl, rfl, .of_eq rfl⟩

theorem runScript_eq : runScript launch = (do
    match ← takeScript with
    | none => pure ()
    | some script => do
      performAll launch script.acts
      modify fun w => { w with entryStatus := script.status }) := by
  funext w
  unfold runScript takeScript
  rw [bind_assoc, get_bind, get_bind]
  cases w.entries with
  | nil => rfl
  | cons script entries => rfl

theorem client_callEntry (hl : ∀ handle image, Client errands SamePages (launch handle image)) (entry : Address)
    (handle : Handle) : Client errands SamePages (callEntry launch entry handle) := by
  unfold callEntry
  rw [runScript_eq]
  refine .bind (.other same_pages_get) fun w => .bind (.other (same_pages_emit ⟨rfl, rfl⟩)) fun _ => ?_
  refine .bind (.bind (.other same_pages_takeScript) fun script => ?_) fun _ => ?_
  · cases script with
    | none => exact .other (SamePages.pure _)
    | some script =>
      refine .bind (client_performAll hl _) fun _ => .other fun w => ⟨(), _, rfl, rfl, rfl, .of_eq rfl⟩
  · refine .bind (.other fun w => ⟨(), _, rfl, rfl, rfl, .of_eq rfl⟩) fun _ => ?_
    exact .bind (.other same_pages_get) fun w => .other (SamePages.pure _)

end Scripts

theorem client_loadAndLaunch_of_callEntry {n : Nat}
    (h : ∀ entry handle, Client errands SamePages ((machine n).callEntry entry handle)) (l : Loader) (raw : Bytes)
    (context : LaunchContext) : Client errands SamePages (l.loadAndLaunch (machine n).toFirmware trapsCell raw context) := by
  rw [machine_toFirmware]
  exact .call (.loadAndLaunch l raw context) h

/-- The images that a simulated machine plays are clients, at any depth. -/
theorem client_machine (n : Nat) (entry : Address) (handle : Handle) :
    Client errands SamePages ((machine n).callEntry entry handle) := by
  induction n generalizing entry handle with
  | zero => exact client_callEntry (fun _ _ => .other (SamePages.pure _)) entry handle
  | succ n ih =>
    refine client_callEntry (fun h image => ?_) entry handle
    exact .bind (client_loadAndLaunch_of_callEntry ih {} image (.onHandle h)) fun _ => .other (SamePages.pure _)

theorem client_loadAndLaunch (n : Nat) (l : Loader) (raw : Bytes) (context : LaunchContext) :
    Client errands SamePages (l.loadAndLaunch (machine n).toFirmware trapsCell raw context) :=
  client_loadAndLaunch_of_callEntry (client_machine n) l raw context

/-! ## Pages are given back -/

/-- Whatever a client does with the loader, from whatever state with its live pages below the fresh
    ones, it comes to its end. Live then are the pages that were live before, and each run that was
    taken has been given back, once. At every moment the pages of every image that runs are live, and
    have not been given back. -/
theorem client_conserves_pages {w : World} (hw : PagesBelow w) :
    (∀ (α : Type) (x : Sim α), Client errands SamePages x → ∃ a w' es, x w = .ok a w' ∧ Noted es w w' ∧
      (∀ base, w'.allocations.find? base = w.allocations.find? base) ∧ PagesBelow w' ∧
      (given es).Perm (taken es) ∧ ((taken es).map Prod.fst).Nodup) ∧
    ∀ ms v, Reach errands SamePages w ms v → ∃ es, Noted es w v ∧ ∀ f ∈ running ms,
      v.allocations.find? (imageOf f).allocation = some (imageOf f).pages ∧ (imageOf f).pageRun ∉ given es := by
  constructor
  · intro α x hx
    obtain ⟨ms, a, w', hrun⟩ := hx.exists_run (errands_progress hw) .start
    have hl := ledger_of_reach hw (hrun.reach .start)
    rw [hrun.running_eq] at hl
    obtain ⟨hlive, hbelow, es, hn, hperm, hnodup⟩ := hl.settled
    exact ⟨a, w', es, hrun.eq_ok, hn, hlive, hbelow, hperm, hnodup⟩
  · intro ms v h
    have hl := ledger_of_reach hw h
    obtain ⟨-, -, es, hn, hgiven⟩ := hl.held_fresh
    refine ⟨es, hn, fun f hf => ?_⟩
    have hrun := List.mem_map_of_mem (f := fun f => (imageOf f).pageRun) hf
    exact ⟨hl.find?_held hrun, hgiven _ hrun⟩

/-- An image launches another on its own handle, which does nothing. -/
def nestedSample : World := { entries := [⟨[.launch ownHandle (Sample.build {})], .success⟩, ⟨[], .success⟩] }

def launchSample : Errand := .loadAndLaunch {} (Sample.build {}) (.onHandle ownHandle)

/-- Two runs of pages are taken and given back; those of the outer image are live while it runs. -/
theorem nestedSample_conserves_pages :
    PagesBelow nestedSample ∧
    (∃ r w' es, Loader.loadAndLaunch {} (machine 1).toFirmware trapsCell (Sample.build {}) (.onHandle ownHandle)
        nestedSample = .ok r w' ∧ Noted es nestedSample w' ∧ (taken es).length = 2 ∧ (given es).Perm (taken es) ∧
      ∀ base, w'.allocations.find? base = nestedSample.allocations.find? base) ∧
    ∃ f v, Reach errands SamePages nestedSample [.entered f] v ∧
      v.allocations.find? (imageOf f).allocation = some (imageOf f).pages := by
  have hw : PagesBelow nestedSample := fun _ _ h => nomatch h
  obtain ⟨hrun, hmoment⟩ := client_conserves_pages hw
  refine ⟨hw, ?_, ?_⟩
  · obtain ⟨r, w', es, hr, hn, hlive, -, hperm, -⟩ :=
      hrun _ _ (client_loadAndLaunch 1 {} (Sample.build {}) (.onHandle ownHandle))
    have htaken : (taken (after (Loader.loadAndLaunch {} (machine 1).toFirmware trapsCell (Sample.build {})
        (.onHandle ownHandle)) nestedSample).events.toList).length = 2 := by decide +kernel
    have hes : w'.events.toList = es := hn
    rw [after_of_ok hr, hes] at htaken
    exact ⟨r, w', es, hr, hn, htaken, hperm, hlive⟩
  · have hstarts : endsWith (errands.start launchSample) nestedSample (fun r _ => r.isOk) = true := by decide +kernel
    obtain ⟨r, v, hs, hr⟩ := exists_of_endsWith hstarts
    cases r with
    | error r => cases hr
    | ok claim =>
      have hreach := Reach.entered (C := errands) (R := SamePages) (f := ⟨launchSample, claim⟩) .start hs
      obtain ⟨es, -, h⟩ := hmoment _ _ hreach
      exact ⟨_, v, hreach, (h _ (List.mem_cons_self ..)).1⟩

end NetBoot.Image
