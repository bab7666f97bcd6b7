/-
  NetBoot.Proofs.Image.Validation — when signatures are checked, and what a validated launch does.

  Whether they are checked depends on the loader and on two variables alone (`mustValidate_run`). A
  validated launch always has a result, and what it is seen to do is one of three things
  (`ValidatedEvents`): the verifier is asked about the selected part and refuses it, or the firmware
  gets exactly that part and refuses it, or the firmware gets it and starts what it made of it.
-/

import NetBoot.Proofs.Image.Load

namespace NetBoot.Image

open Sim

variable {n : Nat} {w w' : World}

/-! ## Whether to check -/

theorem Secure.enforced_iff {secureBoot setupMode : Option Bytes} :
    enforced secureBoot setupMode = true ↔ secureBoot = some #[1] ∧ setupMode ≠ some #[1] := by
  rw [enforced, Bool.and_eq_true, isOne, isOne, beq_iff_eq, Bool.not_eq_true', beq_eq_false_iff_ne]

/-- Does a loader on this machine check signatures? -/
def Loader.validates (l : Loader) (w : World) : Bool :=
  l.config.forceValidation || Secure.enforced (w.nvram.find? "SecureBoot") (w.nvram.find? "SetupMode")

theorem Loader.mustValidate_run (l : Loader) (w : World) :
    ∃ log, l.mustValidate (machine n).toFirmware w = .ok (l.validates w) { w with log } := by
  unfold mustValidate validates
  cases l.config.forceValidation with
  | true => exact ⟨w.log, rfl⟩
  | false =>
    unfold Secure.secureMode Journal.debug
    rw [machine_toJournal, if_neg Bool.false_ne_true, bind_of_ok (readVariable_run _ _ _ _),
      bind_of_ok (readVariable_run _ _ _ _)]
    exact (Silent.note _).bind_run _ _

/-! ## A validated launch -/

theorem Secure.verdict_eq_ok_iff {answer : Option Status} : verdict answer = .ok () ↔ answer = some .success := by
  cases answer with
  | none => exact iff_of_false (fun h => nomatch h) (fun h => nomatch h)
  | some status =>
    rw [verdict, Option.some.injEq, ← Status.isSuccess_iff]
    by_cases h : status.isSuccess = true
    · rw [if_pos h]
      exact iff_of_true rfl h
    · rw [if_neg h]
      exact iff_of_false (fun h => nomatch h) h

theorem Secure.verdict_of_ne {status : Status} (h : status ≠ .success) :
    verdict (some status) = .error .signatureInvalid :=
  if_neg fun hs => h (Status.isSuccess_iff.mp hs)

theorem Secure.validate_run (image : Bytes) (w : World) :
    ∃ w', validate (machine n).toFirmware image w = .ok (verdict w.answer) w' ∧ Noted [.verify image w.answer] w w' := by
  unfold validate
  rw [machine_toJournal, machine_verify]
  obtain ⟨w₁, hv, hn⟩ := verify_noted image w
  rw [bind_of_ok hv]
  obtain ⟨log, h⟩ := Silent.bind_run (Silent.note _) _ w₁
  exact ⟨_, h, hn⟩

/-- What a validated launch of a part of a file is seen to do, and its result, for what the verifier
    answers. -/
inductive ValidatedEvents (part : Bytes) (answer : Option Status) : List Event → Except LoadError Exit → Prop
  | refused {e : LoadError} (h : Secure.verdict answer = .error e) :
      ValidatedEvents part answer [.verify part answer] (.error e)
  | notLoaded {parent : Handle} {path : Option DevicePath} {status : Status} (h : Secure.verdict answer = .ok ()) :
      ValidatedEvents part answer [.verify part answer, .loadImage parent path part (.error status)]
        (.error (.launchFailed status))
  | started {parent handle : Handle} {path : Option DevicePath} {updates : List Event} {exit : Exit}
      (h : Secure.verdict answer = .ok ()) (hu : ∀ e ∈ updates, ∃ record, e = .setLoadedImage handle record) :
      ValidatedEvents part answer
        (.verify part answer :: .loadImage parent path part (.ok handle) :: (updates ++ [.startImage handle])) (.ok exit)

theorem ValidatedEvents.eq_of_ne {part : Bytes} {answer : Option Status} {es : List Event}
    {result : Except LoadError Exit} (h : ValidatedEvents part answer es result) (ha : answer ≠ some .success) :
    ∃ e, Secure.verdict answer = .error e ∧ es = [.verify part answer] ∧ result = .error e := by
  cases h with
  | refused h => exact ⟨_, h, rfl, rfl⟩
  | notLoaded h => exact absurd (Secure.verdict_eq_ok_iff.mp h) ha
  | started h _ => exact absurd (Secure.verdict_eq_ok_iff.mp h) ha

namespace Loader

theorem silent_finish (l : Loader) (result : Except LoadError Exit) :
    ∃ l', Silent (l.finish (machine n).toFirmware result) (l', result) := by
  cases result with
  | error e => exact ⟨_, .bind (l.silent_fail e) (.pure _)⟩
  | ok exit => exact ⟨_, .bind (l.silent_enter _) (.pure _)⟩

/-- Preparing an image updates the record of its handle, at most. -/
theorem prepare_run (handle : Handle) (context : LaunchContext) (w : World) :
    ∃ w' updates, prepare (machine n).toFirmware handle context w = .ok () w' ∧ Noted updates w w' ∧
      ∀ e ∈ updates, ∃ record, e = .setLoadedImage handle record := by
  unfold prepare Journal.warn
  rw [machine_toJournal, machine_loadedImage, machine_setLoadedImage, bind_of_ok (loadedImage_run _ _)]
  cases w.recordOf handle with
  | error e => exact ⟨w, [], rfl, .nil rfl, fun _ h => (nomatch h)⟩
  | ok record =>
    have hmem : ∀ e ∈ [Event.setLoadedImage handle (firmwareRecord context record)],
        ∃ record, e = .setLoadedImage handle record := fun e he => ⟨_, List.mem_singleton.mp he⟩
    dsimp only
    rcases setLoadedImage_run handle (firmwareRecord context record) w with ⟨fault, hr⟩ | hr
    · rw [bind_of_ok hr]
      obtain ⟨log, h⟩ := Silent.note _ _
      exact ⟨_, _, h, .push rfl, hmem⟩
    · rw [bind_of_ok hr]
      exact ⟨_, _, rfl, .push rfl, hmem⟩

/-- What is asked of the firmware once the verifier has accepted a part. -/
theorem runByFirmware_run {part : Bytes} {answer : Option Status} (h : Secure.verdict answer = .ok ())
    (context : LaunchContext) (w : World) :
    ∃ result es w', runByFirmware (machine n).toFirmware part context w = .ok result w' ∧ Noted es w w' ∧
      ValidatedEvents part answer (.verify part answer :: es) result := by
  unfold runByFirmware Journal.error Journal.info
  rw [machine_toJournal, machine_loadImage, machine_startImage]
  obtain ⟨loaded, w₁, hr, hload⟩ := loadImage_noted context.handle context.path part w
  rw [bind_of_ok hr]
  cases loaded with
  | error status =>
    obtain ⟨log, hn⟩ := Silent.bind_run (Silent.note _) _ _
    exact ⟨_, _, _, hn, hload, .notLoaded h⟩
  | ok handle =>
    obtain ⟨w₂, updates, hp, hu, hmem⟩ := prepare_run (n := n) handle context w₁
    dsimp only
    obtain ⟨exit, w₃, hs, hstart⟩ := startImage_noted handle w₂
    rw [bind_of_ok hp, bind_of_ok hs]
    obtain ⟨log, hn⟩ := Silent.bind_run (Silent.note _) _ _
    exact ⟨_, _, _, hn, hload.trans (hu.trans hstart), .started h hmem⟩

/-- A validated launch has a result, and is seen to do what `ValidatedEvents` says with the part it
    selected; without one it does nothing. -/
theorem launchValidated_run (l : Loader) (raw : Bytes) (context : LaunchContext) (w : World) :
    ∃ l' result es w', l.launchValidated (machine n).toFirmware raw context w = .ok (l', result) w' ∧ Noted es w w' ∧
      match Fat.select raw l.config.machine with
      | .error e => es = [] ∧ result = .error e
      | .ok selection => ValidatedEvents (selection.apply raw) w.answer es result := by
  unfold launchValidated
  obtain ⟨log, hs⟩ := (l.silent_select (n := n) raw).bind_run _ w
  rw [hs]
  cases Fat.select raw l.config.machine with
  | error e =>
    obtain ⟨l', hf⟩ := l.silent_finish (n := n) (.error e)
    obtain ⟨log', hr⟩ := hf { w with log }
    exact ⟨l', _, [], _, hr, .nil rfl, rfl, rfl⟩
  | ok selection =>
    dsimp only [Except.map]
    have hv : ∃ w₁, Secure.validate (machine n).toFirmware (selection.apply raw) { w with log } =
        .ok (Secure.verdict w.answer) w₁ ∧ Noted [.verify (selection.apply raw) w.answer] w w₁ :=
      Secure.validate_run _ _
    obtain ⟨w₁, hv, hverify⟩ := hv
    rw [bind_of_ok hv]
    cases h : Secure.verdict w.answer with
    | error e =>
      obtain ⟨l', hf⟩ := l.silent_finish (n := n) (.error e)
      obtain ⟨log', hr⟩ := hf w₁
      exact ⟨l', _, _, _, hr, hverify, .refused h⟩
    | ok u =>
      obtain ⟨log', he⟩ := (l.silent_enter (n := n) .validatedPassthrough).bind_run _ w₁
      dsimp only
      rw [he]
      obtain ⟨result, es, w₂, hr, hn, hevents⟩ := runByFirmware_run (n := n) h context { w₁ with log := log' }
      rw [bind_of_ok hr]
      obtain ⟨l', hf⟩ := (l.withStage .validatedPassthrough).silent_finish (n := n) result
      obtain ⟨log'', hr⟩ := hf w₂
      exact ⟨l', _, _, _, hr, hverify.trans hn, hevents⟩

end Loader

end NetBoot.Image
