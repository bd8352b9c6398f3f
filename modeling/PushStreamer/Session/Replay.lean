import PushStreamer.Session.Spares

/-!
# Replays of the recorded payload

After a SignIn (`RecoveryGame`) and after a ChangeResolution the recorded
payload goes through the whole StartGame handler again.

* `exec_handle` — the payload that the handler of the message replays.
* `replay_spares_iff` — when the running game is spared by it.
-/

namespace PushStreamer

open Value

-- ---------------------------------------------------------------------------
-- The messages that replay a payload
-- ---------------------------------------------------------------------------

inductive Trigger where
  | signIn
  | changeResolution (paramData : String)

namespace Trigger

/-- The handler of the message, and the StartGame handler that it starts. -/
def handle (setup : Setup) : Trigger → SProg (Except JsonFailure (Option (String × StartGameModel)))
  | .signIn => do
    let replay ← recoveryGame
    pure (.ok replay)
  | .changeResolution paramData => changeResolutionCallback setup paramData

def run (setup : Setup) (trigger : Trigger) : SProg (Except JsonFailure Unit) := do
  match ← trigger.handle setup with
  | .error failure => pure (.error failure)
  | .ok none => pure (.ok ())
  | .ok (some (data, model)) => startGameCallback setup data model

/-- The recorded payload with the parameters of a ChangeResolution. -/
def newStartParams (setup : Setup) (s : Session) (framerate bitrate deadline : String) :
    Except JsonFailure String :=
  if framerate ≠ "" ∧ bitrate ≠ "" ∧ deadline ≠ "" ∧ s.getGameInfo ≠ "" then
    match setup.parse s.getGameInfo with
    | none => .ok ""
    | some root => (withResolution setup framerate bitrate deadline root).map setup.write
  else .ok ""

/-- The payload that is replayed in the state `s`, if one is. -/
def replayed (setup : Setup) (s : Session) : Trigger → Option (String × StartGameModel)
  | .signIn =>
    if s.getGameStatus ≠ 0 then some (s.getGameInfo, .normalModel) else none
  | .changeResolution paramData => do
    let root ← setup.parse paramData
    let (framerate, bitrate, deadline) ← (readResolution root).toOption
    let params ← (newStartParams setup s framerate bitrate deadline).toOption
    if params ≠ "" ∧ s.getGameStatus ≠ 0 then some (params, .onlyPushStreamer) else none

end Trigger

section

variable {setup : Setup} {A : Env → Prop} {s s' : Session} {t : List (Event sessionSig)}

theorem exec_get {r : Session}
    (h : Prog.Exec (sessionHandler setup.codePage) A (act .get) s t r s') :
    r.record = s.record ∧ s'.record = s.record := by
  obtain ⟨e, -, -, hExec⟩ := Prog.exec_perform.mp h
  obtain ⟨rfl, rfl⟩ := Prod.mk.inj hExec
  exact ⟨rfl, rfl⟩

/-- What is recorded after `ModifiyStartParams`, by its result. -/
def Trigger.recordAfter (setup : Setup) (s : Session) :
    Except JsonFailure String → Option GameRecord
  | .ok text =>
    if text ≠ "" then
      s.record.map fun r => r.set (setup.codePage.recode text) .startGameParame
    else s.record
  | .error _ => s.record

theorem exec_modifiyStartParams {framerate bitrate deadline : String}
    {r : Except JsonFailure String}
    (h : Prog.Exec (sessionHandler setup.codePage) A
      (modifiyStartParams setup framerate bitrate deadline) s t r s') :
    r = Trigger.newStartParams setup s framerate bitrate deadline ∧
      s'.record = Trigger.recordAfter setup s r := by
  unfold modifiyStartParams at h
  unfold Trigger.newStartParams
  split at h
  case isFalse hEmpty =>
    obtain ⟨-, rfl, rfl⟩ := Prog.exec_pure.mp h
    exact ⟨(if_neg fun hAll => hEmpty ⟨hAll.1, hAll.2.1, hAll.2.2.1⟩).symm, rfl⟩
  case isTrue hTexts =>
    obtain ⟨t₁, t₂, x, s₁, rfl, hGet, hRest⟩ := Prog.exec_bind.mp h
    obtain ⟨hRead, hKept⟩ := exec_get hGet
    rw [getGameInfo_congr hRead] at hRest
    split at hRest
    case isFalse hInfo =>
      obtain ⟨-, rfl, rfl⟩ := Prog.exec_pure.mp hRest
      exact ⟨(if_neg fun hAll => hInfo hAll.2.2.2).symm, hKept⟩
    case isTrue hInfo =>
      rw [if_pos ⟨hTexts.1, hTexts.2.1, hTexts.2.2, hInfo⟩]
      cases hParse : setup.parse s.getGameInfo with
      | none =>
        rw [hParse] at hRest
        obtain ⟨-, rfl, rfl⟩ := Prog.exec_pure.mp hRest
        exact ⟨rfl, hKept⟩
      | some root =>
        rw [hParse] at hRest
        dsimp only at hRest
        show r = (withResolution setup framerate bitrate deadline root).map setup.write ∧ _
        cases hRoot : withResolution setup framerate bitrate deadline root with
        | error failure =>
          rw [hRoot] at hRest
          obtain ⟨-, rfl, rfl⟩ := Prog.exec_pure.mp hRest
          exact ⟨rfl, hKept⟩
        | ok root' =>
          rw [hRoot] at hRest
          obtain ⟨t₃, t₄, _, s₂, rfl, hSet, hPure⟩ := Prog.exec_bind.mp hRest
          obtain ⟨-, rfl, rfl⟩ := Prog.exec_pure.mp hPure
          obtain ⟨e, -, -, hExec⟩ := Prog.exec_perform.mp hSet
          refine ⟨rfl, ?_⟩
          rw [record_of_setValue hExec, hKept]
          exact (if_pos (setup.write_ne root')).symm

/-- A new payload in the record leaves the status as it is. -/
theorem status_of_recordAfter {r : Except JsonFailure String}
    (h : s'.record = Trigger.recordAfter setup s r) : s'.getGameStatus = s.getGameStatus := by
  rw [Session.getGameStatus, h, Session.getGameStatus]
  unfold Trigger.recordAfter
  split
  · split
    · cases s.record <;> rfl
    · rfl
  · rfl

theorem exec_recoveryGame {r : Option (String × StartGameModel)}
    (h : Prog.Exec (sessionHandler setup.codePage) A recoveryGame s t r s') :
    r = Trigger.signIn.replayed setup s := by
  obtain ⟨t₁, t₂, x, s₁, rfl, hGet₁, hRest⟩ := Prog.exec_bind.mp h
  obtain ⟨t₃, t₄, y, s₂, rfl, hGet₂, hRest⟩ := Prog.exec_bind.mp hRest
  have hFirst : x.record = s.record := (exec_get hGet₁).1
  have hSecond : y.record = s.record := (exec_get hGet₂).1.trans (exec_get hGet₁).2
  rw [getGameStatus_congr hFirst, getGameInfo_congr hSecond] at hRest
  rw [Trigger.replayed]
  split at hRest
  case isTrue hStatus =>
    obtain ⟨-, rfl, -⟩ := Prog.exec_pure.mp hRest
    rw [if_pos hStatus]
  case isFalse hStatus =>
    obtain ⟨-, rfl, -⟩ := Prog.exec_pure.mp hRest
    rw [if_neg hStatus]

/-- The end of `ChangeResolutionCallback`: with a new payload and a game that is
recorded as running it starts a replay. -/
theorem exec_replayIfRunning {text : String}
    {r : Except JsonFailure (Option (String × StartGameModel))}
    (h : Prog.Exec (sessionHandler setup.codePage) A
      (if text ≠ "" then do
        let x : Session ← act .get
        if x.getGameStatus ≠ 0 then pure (.ok (some (text, .onlyPushStreamer))) else pure (.ok none)
      else pure (.ok none) : SProg _) s t r s') :
    r = .ok (if text ≠ "" ∧ s.getGameStatus ≠ 0 then some (text, .onlyPushStreamer) else none) := by
  split at h
  case isFalse hNone =>
    obtain ⟨-, rfl, -⟩ := Prog.exec_pure.mp h
    rw [if_neg fun hBoth => hNone hBoth.1]
  case isTrue hText =>
    obtain ⟨t₁, t₂, x, s₁, rfl, hGet, hRest⟩ := Prog.exec_bind.mp h
    rw [getGameStatus_congr (exec_get hGet).1] at hRest
    split at hRest
    case isTrue hRunning =>
      obtain ⟨-, rfl, -⟩ := Prog.exec_pure.mp hRest
      rw [if_pos ⟨hText, hRunning⟩]
    case isFalse hStopped =>
      obtain ⟨-, rfl, -⟩ := Prog.exec_pure.mp hRest
      rw [if_neg fun hBoth => hStopped hBoth.2]

theorem exec_changeResolutionCallback {paramData : String}
    {r : Except JsonFailure (Option (String × StartGameModel))}
    (h : Prog.Exec (sessionHandler setup.codePage) A (changeResolutionCallback setup paramData)
      s t r s') (replay : String × StartGameModel) :
    r = .ok (some replay) ↔
      (Trigger.changeResolution paramData).replayed setup s = some replay := by
  unfold changeResolutionCallback at h
  rw [Trigger.replayed]
  -- follow the callback; every branch but the last replays nothing
  split at h
  case isTrue hEmpty =>
    obtain ⟨-, rfl, -⟩ := Prog.exec_pure.mp h
    rw [hEmpty, setup.parse_empty]
    exact iff_of_false (by simp) (by simp)
  cases hParse : setup.parse paramData with
  | none =>
    rw [hParse] at h
    obtain ⟨-, rfl, -⟩ := Prog.exec_pure.mp h
    exact iff_of_false (by simp) (by simp)
  | some root =>
    rw [hParse] at h
    dsimp only at h
    cases hRead : readResolution root with
    | error failure =>
      rw [hRead] at h
      obtain ⟨-, rfl, -⟩ := Prog.exec_pure.mp h
      exact iff_of_false (by simp) (by simp [hRead, Except.toOption])
    | ok texts =>
      obtain ⟨framerate, bitrate, deadline⟩ := texts
      rw [hRead] at h
      obtain ⟨t₁, t₂, params, s₁, rfl, hModify, hRest⟩ := Prog.exec_bind.mp h
      obtain ⟨rfl, hRecord⟩ := exec_modifiyStartParams hModify
      have hStatus := status_of_recordAfter hRecord
      cases hParams : Trigger.newStartParams setup s framerate bitrate deadline with
      | error failure =>
        rw [hParams] at hRest
        obtain ⟨-, rfl, -⟩ := Prog.exec_pure.mp hRest
        exact iff_of_false (by simp) (by simp [hRead, hParams, Except.toOption])
      | ok text =>
        rw [hParams] at hRest
        have hReplay := exec_replayIfRunning hRest
        rw [hStatus] at hReplay
        rw [hReplay, Except.ok.injEq]
        simp [hRead, hParams, Except.toOption]

/-- The handler starts a replay of the payload that `replayed` names, and no
other. -/
theorem exec_handle {trigger : Trigger} {r : Except JsonFailure (Option (String × StartGameModel))}
    (h : Prog.Exec (sessionHandler setup.codePage) A (trigger.handle setup) s t r s')
    (replay : String × StartGameModel) :
    r = .ok (some replay) ↔ trigger.replayed setup s = some replay := by
  cases trigger with
  | signIn =>
    obtain ⟨t₁, t₂, found, s₁, rfl, hRecovery, hPure⟩ := Prog.exec_bind.mp h
    obtain ⟨-, rfl, -⟩ := Prog.exec_pure.mp hPure
    rw [exec_recoveryGame hRecovery, Except.ok.injEq]
  | changeResolution paramData => exact exec_changeResolutionCallback h replay

section

variable {P : (o : sessionSig.Op) → (sessionSig.Res o → Bool) → Prop}
  (hGet : P SessionOp.get fun _ => false)
  (hSet : ∀ text, P (SessionOp.setValue .startGameParame text) fun _ => false)

include hGet hSet

theorem all_modifiyStartParams (framerate bitrate deadline : String) :
    Prog.All P (modifiyStartParams setup framerate bitrate deadline) := by
  unfold modifiyStartParams
  split
  · refine Prog.all_bind (Prog.all_perform.mpr hGet) fun s => ?_
    split
    · split
      · exact Prog.all_pure _
      · split
        · exact Prog.all_pure _
        · exact Prog.all_bind (Prog.all_perform.mpr (hSet _)) fun _ => Prog.all_pure _
    · exact Prog.all_pure _
  · exact Prog.all_pure _

/-- The handler reads the session and writes the recorded payload, without
loops. -/
theorem all_handle (trigger : Trigger) : Prog.All P (trigger.handle setup) := by
  have hRead : Prog.All P (act .get) := Prog.all_perform.mpr hGet
  cases trigger with
  | signIn =>
    refine Prog.all_bind (Prog.all_bind hRead fun _ => Prog.all_bind hRead fun _ => ?_) fun _ =>
      Prog.all_pure _
    split
    · exact Prog.all_pure _
    · exact Prog.all_pure _
  | changeResolution paramData =>
    show Prog.All P (changeResolutionCallback setup paramData)
    unfold changeResolutionCallback
    split
    · exact Prog.all_pure _
    · split
      · exact Prog.all_pure _
      · split
        · exact Prog.all_pure _
        · refine Prog.all_bind (all_modifiyStartParams hGet hSet _ _ _) fun _ => ?_
          split
          · exact Prog.all_pure _
          · split
            · refine Prog.all_bind hRead fun _ => ?_
              split
              · exact Prog.all_pure _
              · exact Prog.all_pure _
            · exact Prog.all_pure _

end

theorem spares_handle {codePage : CodePage} {exe : String} (trigger : Trigger) :
    SparesGame codePage exe (trigger.handle setup) :=
  Prog.AllOn.of_avoids (all_handle (fun h => h id) (fun _ h => h id) trigger)

theorem canTouch_run {trigger : Trigger} {exe data : String} {model : StartGameModel}
    (hReplay : trigger.replayed setup s = some (data, model)) (hExe : exe ≠ "")
    (hRunning : processesOf exe s.processes ≠ [])
    (hGame : ∀ ms, setup.parse data = some (.obj ms) →
      gameExe setup (memberText ms "gameId") = exe)
    (h : ¬ Spares setup exe data) : CanTouch setup exe (trigger.run setup) s := by
  obtain ⟨t, r, s₁, hHandle⟩ := Prog.ends_of_all (H := sessionHandler setup.codePage)
    (leavesAlone_aloneEnv : LeavesAlone exe (aloneEnv exe))
    (all_handle (fun _ => rfl) (fun _ _ => rfl) trigger) s
  obtain rfl := (exec_handle hHandle (data, model)).mpr hReplay
  have hKept := (spared_of_begins hHandle.begins (spares_handle trigger) hRunning rfl).2
  exact CanTouch.bind_right hHandle
    (canTouch_startGameCallback hGame hExe (hKept ▸ hRunning) h)

end

/-! ## A recorded game that is running -/

-- the first game is recorded, with or without force, and runs
def recordedSession (force : Bool) : Session :=
  { sampleSession with
    gameId := "g1"
    record := some ⟨sampleData "s" force, "1", "g1"⟩
    processes := [oneProcess] }

theorem replayed_recordedSession (force : Bool) :
    Trigger.signIn.replayed sampleSetup (recordedSession force) =
      some (sampleData "s" force, .normalModel) :=
  if_pos (show toInt "1".toList ≠ 0 by decide)

end PushStreamer
