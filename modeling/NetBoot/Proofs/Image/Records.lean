/-
  NetBoot.Proofs.Image.Records — the records of handles while launches nest.

  A launch puts a record of its own on its handle and puts back what it found. While launches run
  inside one another, on one handle or on several, the record on a handle is that of the innermost
  running launch there, and behind all of them what was there in the beginning (`records_eq`). The
  one thing that can spoil it is an update that fails when a record is put back (`AllRestored`);
  launches that fail on the way in change nothing.
-/

import NetBoot.Proofs.Image.Launching

namespace NetBoot.Image

open Sim

/-- The records are as they were. -/
def SameRecords (w w' : World) : Prop := w'.records = w.records

/-- Each launch whose image came back could put its record back. -/
def AllRestored : List (Mark deeds) → Prop
  | [] => True
  | .made .. :: ms => AllRestored ms
  | .entered _ :: ms => AllRestored ms
  | .left f later :: ms => (launchOf f).Restored later ∧ AllRestored ms

/-- The record on a handle while these launches run on a machine that began in `w`. -/
def recordOn (w : World) : List (Frame deeds) → Handle → Option LoadedImage
  | [], handle => w.records.find? handle
  | f :: s, handle => if f.handle = handle then some (launchOf f).installed else recordOn w s handle

/-- Each running launch holds the record that those around it had left on its handle. -/
def HoldsSaved (w : World) : List (Frame deeds) → Prop
  | [] => True
  | f :: s => recordOn w s f.handle = some (launchOf f).saved ∧ HoldsSaved w s

variable {w v : World} {ms : List (Mark deeds)}

theorem records_eq (h : Reach deeds SameRecords w ms v) (hr : AllRestored ms) :
    (∀ handle, v.records.find? handle = recordOn w (running ms) handle) ∧ HoldsSaved w (running ms) := by
  induction h with
  | start => exact ⟨fun _ => rfl, trivial⟩
  | other _ hR ih =>
    obtain ⟨hrec, hsaved⟩ := ih hr
    exact ⟨fun handle => by rw [hR, hrec handle], hsaved⟩
  | @made ms w₁ w₂ d r _ hs ih =>
    obtain ⟨hrec, hsaved⟩ := ih hr
    have hsame : w₂.records = w₁.records := by
      cases d with
      | exit handle exit => exact (exit_made hs).2.2
      | launch image context => exact (launch_made hs).1
    exact ⟨fun handle => by rw [hsame, hrec handle]; rfl, hsaved⟩
  | @entered ms w₁ w₂ f _ hs ih =>
    obtain ⟨hrec, hsaved⟩ := ih hr
    obtain ⟨hfound, hrecords, -, -⟩ := launch_entered hs
    refine ⟨fun handle => ?_, (hrec _).symm.trans hfound, hsaved⟩
    rw [hrecords, running, recordOn]
    by_cases hh : f.handle = handle
    · rw [if_pos hh, ← hh, Table.find?_insert_self]
    · rw [if_neg hh, Table.find?_insert_of_ne _ _ (Ne.symm hh), hrec]
  | @left ms w₁ w₂ f s status r _ hrun hf ih =>
    obtain ⟨hrec, hsaved⟩ := ih hr.2
    have hrecords := (launch_left hf).2 hr.1
    rw [hrun] at hrec hsaved
    rw [running, hrun, List.tail_cons]
    refine ⟨fun handle => ?_, hsaved.2⟩
    rw [hrecords]
    by_cases hh : f.handle = handle
    · rw [← hh, Table.find?_insert_self, hsaved.1]
    · rw [Table.find?_insert_of_ne _ _ (Ne.symm hh), hrec, recordOn, if_neg hh]

/-- While the image of a launch runs, and none that it has launched, its handle has the record that the
    launch has put there. Behind a launch, with whatever launches its image has made, every handle has
    the record that it had. -/
theorem launch_restores_records (w : World) :
    (∀ ms v, Reach deeds SameRecords w ms v → AllRestored ms → ∀ f s, running ms = f :: s →
      v.records.find? f.handle = some (launchOf f).installed) ∧
    ∀ image mapped context ms r v,
      Run deeds SameRecords (launch (entering image) trapsCell mapped context) w ms r v → AllRestored ms →
      ∀ handle, v.records.find? handle = w.records.find? handle := by
  constructor
  · intro ms v h hr f s hf
    rw [(records_eq h hr).1, hf, recordOn, if_pos rfl]
  · intro image mapped context ms r v h hr handle
    have hreach : Reach deeds SameRecords w (ms ++ []) v := h.reach .start
    have hrun := h.running_eq []
    rw [List.append_nil] at hreach hrun
    rw [(records_eq hreach hr).1, hrun]
    rfl

/-- The inner launch is under its own record while its image runs, and in the end the handle has the
    record of the beginning. -/
theorem relaunch_restores_records :
    (∃ ms v, Reach deeds SameRecords twoPages ms v ∧ AllRestored ms ∧ running ms = [innerLaunch, outerLaunch] ∧
      v.records.find? ownHandle = some (launchOf innerLaunch).installed) ∧
    ∃ ms r v,
      Run deeds SameRecords
        (launch (entering (relaunch (onePage 0x2000))) trapsCell (onePage 0x1000) (.onHandle ownHandle)) twoPages ms r v ∧
      AllRestored ms ∧ ms.length = 4 ∧ ∀ handle, v.records.find? handle = twoPages.records.find? handle := by
  constructor
  · have houter : Reach deeds SameRecords twoPages [.entered outerLaunch] _ := .entered .start rfl
    have hreach : Reach deeds SameRecords twoPages [.entered innerLaunch, .entered outerLaunch] _ :=
      .entered houter rfl
    exact ⟨_, _, hreach, trivial, rfl, (launch_restores_records twoPages).1 _ _ hreach trivial _ _ rfl⟩
  · have hinner {w now later : World} {r : deeds.Result innerLaunch.call}
        (hs : deeds.start innerLaunch.call w = .ok (.ok innerLaunch.claim) now)
        (hf : deeds.finish innerLaunch.claim .success now = .ok r later) :
        Run deeds SameRecords (deeds.perform innerLaunch.call fun _ _ => return .success) w
          (.left innerLaunch now :: ([] ++ [.entered innerLaunch])) r later :=
      .called hs (.other rfl rfl) hf
    have hrun : Run deeds SameRecords (deeds.perform outerLaunch.call (relaunch (onePage 0x2000))) twoPages _ _ _ :=
      .called rfl (.bind (hinner rfl rfl) (.other rfl rfl)) rfl
    exact ⟨_, _, _, hrun, And.intro ⟨_, rfl⟩ (And.intro ⟨_, rfl⟩ trivial), rfl,
      (launch_restores_records twoPages).2 _ _ _ _ _ _ hrun (And.intro ⟨_, rfl⟩ (And.intro ⟨_, rfl⟩ trivial))⟩

end NetBoot.Image
