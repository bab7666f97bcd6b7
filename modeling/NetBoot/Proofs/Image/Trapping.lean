/-
  NetBoot.Proofs.Image.Trapping — the trap of a launch while its image runs.

  A launch sets a trap on its handle, and an exit there is answered `trapped` and kept, the first
  one of all, until the entry point returns. Launches of other images on other handles, to any depth
  and however they end, leave the trap and what it keeps alone (`slot_eq`). One on the same handle
  replaces the trap as soon as it sets its own and takes that away when it is settled, so behind it
  the handle has none: exits are delegated, and the outer launch answers with the status of its entry
  point (`slot_replaced`).
-/

import NetBoot.Image.Sample
import NetBoot.Proofs.Image.Launching

namespace NetBoot.Image

open Sim

/-- The traps are as they were. -/
def SameTraps (w w' : World) : Prop := w'.traps = w.traps

/-- The exit on a handle that a mark tells of. -/
def exitOn? (handle : Handle) : Mark deeds → Option Exit
  | .made (.exit h e) _ => if h = handle then some e else none
  | .made (.launch ..) _ => none
  | .entered _ => none
  | .left .. => none

/-- The first exit on a handle. -/
def firstExit? (handle : Handle) : List (Mark deeds) → Option Exit
  | [] => none
  | m :: ms => (firstExit? handle ms).or (exitOn? handle m)

/-- A launch on the handle has set its trap. -/
def LaunchedOn (handle : Handle) (ms : List (Mark deeds)) : Prop := ∃ f, Mark.entered f ∈ ms ∧ f.handle = handle

/-! ## Operations on traps -/

namespace Traps

variable {t : Traps} {h handle : Handle} {token : TrapToken} {exit : Exit}

theorem find?_install_self (t : Traps) (h : Handle) :
    (t.install h).2.slots.find? h = some ⟨(t.install h).1.generation, none⟩ :=
  Table.find?_insert_self _ _ _

theorem find?_install_of_ne (hne : h ≠ handle) : (t.install handle).2.slots.find? h = t.slots.find? h :=
  Table.find?_insert_of_ne _ _ hne

/-- The trap of a handle keeps an exit, unless it keeps one already. -/
theorem find?_onExit_self (t : Traps) (h : Handle) (exit : Exit) :
    (t.onExit h exit).2.slots.find? h =
      (t.slots.find? h).map fun trap => { trap with exit := trap.exit.or (some exit) } := by
  cases ht : t.slots.find? h with
  | none => simp only [onExit, ht, Option.map_none]
  | some trap =>
    obtain ⟨generation, _ | kept⟩ := trap
    · simp only [onExit, ht, Table.find?_insert_self, Option.map_some, Option.none_or]
    · simp only [onExit, ht, Option.map_some, Option.some_or]

theorem find?_onExit_of_ne (hne : h ≠ handle) : (t.onExit handle exit).2.slots.find? h = t.slots.find? h := by
  cases ht : t.slots.find? handle with
  | none => simp only [onExit, ht]
  | some trap =>
    obtain ⟨generation, _ | kept⟩ := trap
    · simp only [onExit, ht, Table.find?_insert_of_ne _ _ hne]
    · simp only [onExit, ht]

theorem onExit_of_some {trap : Trap} (ht : t.slots.find? h = some trap) : (t.onExit h exit).1 = .trapped := by
  obtain ⟨generation, _ | kept⟩ := trap
  · simp only [onExit, ht]
  · simp only [onExit, ht]

theorem onExit_of_none (ht : t.slots.find? h = none) : (t.onExit h exit).1 = .delegate := by
  simp only [onExit, ht]

theorem take_of_some {kept : Option Exit} (ht : t.slots.find? token.handle = some ⟨token.generation, kept⟩) :
    (t.take token).1 = kept := by
  simp only [take, ht, if_true]

theorem take_of_none (ht : t.slots.find? token.handle = none) : (t.take token).1 = none := by
  simp only [take, ht]

/-- The trap that a token is for is taken away. -/
theorem find?_take_self {kept : Option Exit} (ht : t.slots.find? token.handle = some ⟨token.generation, kept⟩) :
    (t.take token).2.slots.find? token.handle = none := by
  simp only [take, ht, if_true, Table.find?_erase_self]

theorem find?_take_of_none (ht : t.slots.find? token.handle = none) :
    (t.take token).2.slots.find? token.handle = none := by
  simp only [take, ht]

theorem find?_take_of_ne (hne : h ≠ token.handle) : (t.take token).2.slots.find? h = t.slots.find? h := by
  unfold take
  split
  · rfl
  · split
    · exact Table.find?_erase_of_ne _ hne
    · rfl

end Traps

/-! ## The trap of a launch, from one moment to the next -/

section LaunchedOn

variable {handle : Handle} {ms : List (Mark deeds)}

theorem launchedOn_made {d : Deed} {r : deeds.Result d} : LaunchedOn handle (.made d r :: ms) ↔ LaunchedOn handle ms := by
  simp only [LaunchedOn, List.mem_cons, reduceCtorEq, false_or]

theorem launchedOn_left {f : Frame deeds} {later : World} :
    LaunchedOn handle (.left f later :: ms) ↔ LaunchedOn handle ms := by
  simp only [LaunchedOn, List.mem_cons, reduceCtorEq, false_or]

theorem launchedOn_entered {f : Frame deeds} :
    LaunchedOn handle (.entered f :: ms) ↔ f.handle = handle ∨ LaunchedOn handle ms := by
  simp only [LaunchedOn, List.mem_cons, Mark.entered.injEq, or_and_right, exists_or, exists_eq_left]

end LaunchedOn

variable {now v : World} {ms : List (Mark deeds)} {handle : Handle} {generation : Nat}

/-- Running images have been entered, and each token is for the handle of its launch. -/
theorem running_entered (h : Reach deeds SameTraps now ms v) :
    ∀ f ∈ running ms, Mark.entered f ∈ ms ∧ (launchOf f).token.handle = f.handle := by
  induction h with
  | start => exact fun _ hf => nomatch hf
  | other _ _ ih => exact ih
  | made _ _ ih => exact fun f hf => (ih f hf).imp_left (List.mem_cons_of_mem _)
  | @entered ms w₁ w₂ f _ hs ih =>
    intro g hg
    rcases List.mem_cons.mp hg with rfl | hg
    · exact ⟨List.mem_cons_self .., by rw [(launch_entered hs).2.2.1]; rfl⟩
    · exact (ih g hg).imp_left (List.mem_cons_of_mem _)
  | left _ _ _ ih => exact fun f hf => (ih f (List.mem_of_mem_tail hf)).imp_left (List.mem_cons_of_mem _)

/-- Until a launch on the handle sets its own trap, the trap there stands and keeps the first exit. -/
theorem slot_eq (h0 : now.traps.slots.find? handle = some ⟨generation, none⟩) (h : Reach deeds SameTraps now ms v)
    (hn : ¬ LaunchedOn handle ms) : v.traps.slots.find? handle = some ⟨generation, firstExit? handle ms⟩ := by
  induction h with
  | start => exact h0
  | other _ hR ih => rw [hR, ih hn]
  | @made ms w₁ w₂ d r _ hs ih =>
    have ih := ih fun hl => hn (launchedOn_made.mpr hl)
    cases d with
    | launch image context => rw [(launch_made hs).2, ih, firstExit?, exitOn?, Option.or_none]
    | exit h e =>
      rw [(exit_made hs).2.1, firstExit?, exitOn?]
      by_cases hh : h = handle
      · rw [hh, Traps.find?_onExit_self, ih, if_pos rfl]
        rfl
      · rw [Traps.find?_onExit_of_ne (Ne.symm hh), ih, if_neg hh, Option.or_none]
  | @entered ms w₁ w₂ f _ hs ih =>
    have ih := ih fun hl => hn (launchedOn_entered.mpr (.inr hl))
    have hh : f.handle ≠ handle := fun hh => hn (launchedOn_entered.mpr (.inl hh))
    rw [(launch_entered hs).2.2.2, Traps.find?_install_of_ne (Ne.symm hh), ih, firstExit?, exitOn?, Option.or_none]
  | @left ms w₁ w₂ f s status r hr hrun hf ih =>
    have hn : ¬ LaunchedOn handle ms := fun hl => hn (launchedOn_left.mpr hl)
    obtain ⟨hmem, htoken⟩ := running_entered hr f (by rw [hrun]; exact List.mem_cons_self ..)
    have hh : handle ≠ (launchOf f).token.handle := by
      rw [htoken]
      exact fun hh => hn ⟨f, hmem, hh.symm⟩
    rw [(launch_left hf).1, Traps.find?_take_of_ne hh, ih hn, firstExit?, exitOn?, Option.or_none]

/-- The handle has no trap, or that of the innermost launch that runs on it. -/
def SlotReplaced (handle : Handle) (s : List (Frame deeds)) (v : World) : Prop :=
  v.traps.slots.find? handle = none ∨
    ∃ f kept, s.find? (fun f => f.handle = handle) = some f ∧
      v.traps.slots.find? handle = some ⟨(launchOf f).token.generation, kept⟩

theorem SlotReplaced.of_find?_eq {s : List (Frame deeds)} {v v' : World} (h : SlotReplaced handle s v)
    (hv : v'.traps.slots.find? handle = v.traps.slots.find? handle) : SlotReplaced handle s v' := by
  unfold SlotReplaced
  rw [hv]
  exact h

/-- Once a launch on the handle has set its trap, the one that stood there before does not come back. -/
theorem slot_replaced (h : Reach deeds SameTraps now ms v) (hl : LaunchedOn handle ms) :
    SlotReplaced handle (running ms) v := by
  induction h with
  | start => exact nomatch hl
  | other _ hR ih => exact (ih hl).of_find?_eq (by rw [hR])
  | @made ms w₁ w₂ d r _ hs ih =>
    have ih := ih (launchedOn_made.mp hl)
    cases d with
    | launch image context => exact ih.of_find?_eq (by rw [(launch_made hs).2])
    | exit h e =>
      by_cases hh : h = handle
      · subst hh
        have hslot := Traps.find?_onExit_self w₁.traps h e
        rw [← (exit_made hs).2.1] at hslot
        rcases ih with hnone | ⟨f, kept, hf, hsome⟩
        · exact .inl (by rw [hslot, hnone]; rfl)
        · exact .inr ⟨f, _, hf, by rw [hslot, hsome]; rfl⟩
      · exact ih.of_find?_eq (by rw [(exit_made hs).2.1, Traps.find?_onExit_of_ne (Ne.symm hh)])
  | @entered ms w₁ w₂ f _ hs ih =>
    obtain ⟨-, -, htoken, htraps⟩ := launch_entered hs
    by_cases hh : f.handle = handle
    · refine .inr ⟨f, none, List.find?_cons_of_pos (by simpa using hh), ?_⟩
      rw [htraps, ← hh, Traps.find?_install_self, htoken]
    · have ih := ih ((launchedOn_entered.mp hl).resolve_left hh)
      unfold SlotReplaced at ih ⊢
      rw [htraps, Traps.find?_install_of_ne (Ne.symm hh), running, List.find?_cons_of_neg (by simpa using hh)]
      exact ih
  | @left ms w₁ w₂ f s status r hr hrun hf ih =>
    have ih := ih (launchedOn_left.mp hl)
    have htoken := (running_entered hr f (by rw [hrun]; exact List.mem_cons_self ..)).2
    have htraps := (launch_left hf).1
    rw [hrun] at ih
    rw [running, hrun, List.tail_cons]
    by_cases hh : f.handle = handle
    · -- the trap that is left is the one of this launch, and its token takes it away
      rw [hh] at htoken
      rw [← htoken] at ih ⊢
      left
      rw [htraps]
      rcases ih with hnone | ⟨g, kept, hg, hsome⟩
      · exact Traps.find?_take_of_none hnone
      · rw [List.find?_cons_of_pos (by simpa [htoken] using hh)] at hg
        cases hg
        exact Traps.find?_take_self hsome
    · have hne : handle ≠ (launchOf f).token.handle := by
        rw [htoken]
        exact Ne.symm hh
      unfold SlotReplaced at ih ⊢
      rw [List.find?_cons_of_neg (by simpa using hh)] at ih
      rw [htraps, Traps.find?_take_of_ne hne]
      exact ih

/-! ## The exit of a launch -/

/-- The exit of a launched image, `l` being the launch and `now` the moment at which it hands over.
    While its image runs, and no launch on the handle has set a trap of its own, exits there are
    trapped; the launch answers with the first of them, or with the status that its entry point
    returned. Launches on other handles have no part in that. After a launch on the handle has set its
    trap, and with none running there, exits are delegated, and the answer is that status. -/
theorem launch_until_replaced {mapped : MappedImage} {context : LaunchContext} {w now : World} {l : Launching}
    (hs : Launching.start (machine 0).toFirmware trapsCell mapped context w = .ok (.ok l) now) :
    (∀ ms v, Reach deeds SameTraps now ms v → ¬ LaunchedOn context.handle ms →
      ∀ exit, (v.traps.onExit context.handle exit).1 = .trapped) ∧
    (∀ ms v, Reach deeds SameTraps now ms v → LaunchedOn context.handle ms →
      (∀ f ∈ running ms, f.handle ≠ context.handle) → ∀ exit, (v.traps.onExit context.handle exit).1 = .delegate) ∧
    ∀ image ms status v, Run deeds SameTraps (image mapped.entry context.handle) now ms status v →
      v.allocations.find? mapped.allocation = some mapped.pages →
      ∃ exit w', launch (entering image) trapsCell mapped context w = .ok (.ok exit) w' ∧
        (¬ LaunchedOn context.handle ms → exit = (firstExit? context.handle ms).getD ⟨status, none⟩) ∧
        (LaunchedOn context.handle ms → exit = ⟨status, none⟩) := by
  obtain ⟨himage, hcontext, -, -, htoken, htraps, -⟩ := Launching.start_eq_ok hs
  have h0 : now.traps.slots.find? context.handle = some ⟨l.token.generation, none⟩ := by
    rw [htraps, htoken, Traps.find?_install_self]
  have hhandle : l.token.handle = context.handle := by rw [htoken]; rfl
  -- with none running on the handle, a trap that is replaced is none
  have hgone : ∀ {ms v}, Reach deeds SameTraps now ms v → LaunchedOn context.handle ms →
      (∀ f ∈ running ms, f.handle ≠ context.handle) → v.traps.slots.find? context.handle = none := by
    intro ms v hr hl hn
    refine (slot_replaced hr hl).resolve_right fun ⟨f, _, hf, _⟩ => ?_
    exact hn f (List.mem_of_find?_eq_some hf) (by simpa using List.find?_some hf)
  refine ⟨fun ms v hr hn exit => Traps.onExit_of_some (slot_eq h0 hr hn), fun ms v hr hl hn exit =>
    Traps.onExit_of_none (hgone hr hl hn), ?_⟩
  intro image ms status v hrun hlive
  have hreach : Reach deeds SameTraps now (ms ++ []) v := hrun.reach .start
  have hrunning := hrun.running_eq []
  rw [List.append_nil] at hreach hrunning
  obtain ⟨w', hf⟩ := Launching.finish_run (l := l) (w := v) status (by rw [himage]; exact hlive)
  refine ⟨(v.traps.take l.token).1.getD ⟨status, none⟩, w', ?_, fun hn => ?_, fun hl => ?_⟩
  · have himage : image l.image.entry l.context.handle now = .ok status v := by
      rw [himage, hcontext]
      exact hrun.eq_ok
    rw [Launching.launch_eq]
    refine (bind_of_ok hs _).trans ?_
    refine (bind_of_ok himage _).trans ?_
    exact (bind_of_ok hf _).trans rfl
  · have hslot := slot_eq h0 hreach hn
    rw [← hhandle] at hslot
    rw [Traps.take_of_some hslot, hhandle]
  · have hslot := hgone hreach hl (by rw [hrunning]; exact fun _ hf => nomatch hf)
    rw [← hhandle] at hslot
    rw [Traps.take_of_none hslot]
    rfl

/-- An image that exits and then returns. -/
def exitWith (exit : Exit) (_ : Address) (handle : Handle) : Sim Status := do
  let _ ← Traps.onExitIn ⟨keepLog⟩ trapsCell handle exit
  return .success

/-- The moment at which the outer launch hands over. -/
def handedOver : World :=
  after (Launching.start (machine 0).toFirmware trapsCell (onePage 0x1000) (.onHandle ownHandle)) twoPages

/-- The trap of the outer launch serves its own image, and is gone behind the inner launch. -/
theorem outerLaunch_until_replaced :
    Launching.start (machine 0).toFirmware trapsCell (onePage 0x1000) (.onHandle ownHandle) twoPages =
        .ok (.ok (launchOf outerLaunch)) handedOver ∧
      (∀ exit, (handedOver.traps.onExit ownHandle exit).1 = .trapped) ∧
      (∃ later v, Reach deeds SameTraps handedOver [.left innerLaunch later, .entered innerLaunch] v ∧
        ∀ exit, (v.traps.onExit ownHandle exit).1 = .delegate) ∧
      (∃ w', launch (entering (exitWith ⟨.aborted, none⟩)) trapsCell (onePage 0x1000) (.onHandle ownHandle) twoPages =
        .ok (.ok ⟨.aborted, none⟩) w') ∧
      ∃ w', launch (entering (relaunch (onePage 0x2000))) trapsCell (onePage 0x1000) (.onHandle ownHandle) twoPages =
        .ok (.ok ⟨.success, none⟩) w' := by
  have hs : Launching.start (machine 0).toFirmware trapsCell (onePage 0x1000) (.onHandle ownHandle) twoPages =
      .ok (.ok (launchOf outerLaunch)) handedOver := rfl
  obtain ⟨htrapped, hdelegated, hexit⟩ := launch_until_replaced hs
  have hnone : ∀ d r, ¬ LaunchedOn ownHandle [.made d r] := fun d r hl => nomatch launchedOn_made.mp hl
  have hinner : ∀ later, LaunchedOn ownHandle [.left innerLaunch later, .entered innerLaunch] :=
    fun _ => launchedOn_left.mpr (launchedOn_entered.mpr (.inl rfl))
  refine ⟨hs, htrapped [] _ .start (fun ⟨_, hf, _⟩ => nomatch hf), ?_, ?_, ?_⟩
  · have hentered : Reach deeds SameTraps handedOver [.entered innerLaunch] _ := .entered .start rfl
    have hleft {now later : World} {r : deeds.Result innerLaunch.call}
        (h : Reach deeds SameTraps handedOver [.entered innerLaunch] now)
        (hf : deeds.finish innerLaunch.claim .success now = .ok r later) :
        Reach deeds SameTraps handedOver [.left innerLaunch now, .entered innerLaunch] later := .left h rfl hf
    have hreach := hleft hentered rfl
    exact ⟨_, _, hreach, hdelegated _ _ hreach (hinner _) (fun _ hf => nomatch hf)⟩
  · have hmade : Run deeds SameTraps (deeds.perform (.exit ownHandle ⟨.aborted, none⟩) fun _ _ => return .success)
        handedOver _ _ _ := .made rfl
    have hrun : Run deeds SameTraps (exitWith ⟨.aborted, none⟩ 0x1000 ownHandle) handedOver _ .success _ :=
      .bind hmade (.other rfl rfl)
    obtain ⟨exit, w', h, hkept, -⟩ := hexit _ _ _ _ hrun rfl
    rw [hkept (hnone _ _)] at h
    exact ⟨w', h⟩
  · have hcalled : Run deeds SameTraps (deeds.perform innerLaunch.call fun _ _ => return .success) handedOver _ _ _ :=
      .called rfl (.other rfl rfl) rfl
    have hrun : Run deeds SameTraps (relaunch (onePage 0x2000) 0x1000 ownHandle) handedOver _ .success _ :=
      .bind hcalled (.other rfl rfl)
    obtain ⟨exit, w', h, -, hreplaced⟩ := hexit _ _ _ _ hrun rfl
    rw [hreplaced (hinner _)] at h
    exact ⟨w', h⟩

/-- An image that launches another on its own handle and then exits there. -/
def relaunching : World :=
  { entries := [⟨[.launch ownHandle (Sample.build {}), .exit ownHandle ⟨.aborted, none⟩], .success⟩, ⟨[], .success⟩] }

/-- Its exit is not trapped, and its launch does not answer with it. -/
theorem relaunching_exit_delegated :
    ∃ l w', Loader.loadAndLaunch {} (machine 1).toFirmware trapsCell (Sample.build {}) (.onHandle ownHandle) relaunching =
        .ok (l, .ok ⟨.success, none⟩) w' ∧
      w'.events.any (fun e => e matches .act (.exited .delegate)) = true ∧
      w'.events.any (fun e => e matches .act (.exited .trapped)) = false := by
  have h : endsWith (Loader.loadAndLaunch {} (machine 1).toFirmware trapsCell (Sample.build {}) (.onHandle ownHandle))
      relaunching (fun r w' => decide (r.2.toOption = some ⟨.success, none⟩) &&
        (w'.events.any (fun e => e matches .act (.exited .delegate)) &&
          !w'.events.any (fun e => e matches .act (.exited .trapped)))) = true := by decide +kernel
  obtain ⟨⟨l, result⟩, w', hr, h⟩ := exists_of_endsWith h
  simp only [Bool.and_eq_true, decide_eq_true_eq, Bool.not_eq_true'] at h
  obtain ⟨hexit, hdelegate, htrapped⟩ := h
  cases result with
  | error e => cases hexit
  | ok exit =>
    obtain rfl := Option.some.inj hexit
    exact ⟨l, w', hr, hdelegate, htrapped⟩

end NetBoot.Image
