import PushStreamer.Lib.Machine
import PushStreamer.Session.Replay
import PushStreamer.Session.Watchdog

/-!
# How many watchdogs are alive

The handlers of the messages run one after another. Every `StartKeyboardAction`
starts a new loop of `ProtectGstLaunch`, and the loops that run take their steps
at any time between those of the handlers. A loop that sleeps does not notice
that the flag was lowered and raised again in the meantime.

`Checks` keeps beside a run what the steps so far did to the flag and to the
recorded status, and which loops came to a check of their second loop while one
of them told them to end.

* `protectPass_endsOn` — a loop ends right after the check that finds the flag
  lowered or the status 0, and only then.
* `checks_exec` — what the steps so far say of the flag and the status is so.
* `one_watchdog_iff` — at most one loop is alive all along a run just when every
  loop has come to such a check before the next one is started.
-/

namespace PushStreamer

-- ---------------------------------------------------------------------------
-- The loops that are alive
-- ---------------------------------------------------------------------------

/-- The check that ends the second loop: the flag is lowered, or the recorded
status is 0. -/
def stopCheck : ProtectStage → Event sessionSig → Bool
  | .checking, ⟨.readProtectFlag, (flag : Bool)⟩ => !flag
  | .checking, ⟨.getGameStatus, (gameStatus : Int)⟩ => decide (gameStatus = 0)
  | _, _ => false

/-- A thread that runs `ProtectGstLaunch`, with what is left of the pass under
way. -/
structure Watcher where
  stage : ProtectStage
  pass : SProg ProtectStage

namespace Watcher

/-- A thread that `StartProtectGstLaunch` has just started. -/
def started : Watcher where
  stage := .waiting
  pass := do
    act .raiseProtectFlag
    pure .waiting

def alive (w : Watcher) : Bool := w.pass.ended.isNone

variable (setup : Setup)

/-- A pass that has returned is followed by the next one. -/
def goOn (w : Watcher) : Watcher :=
  match w.pass with
  | .ret stage => ⟨stage, protectPass setup stage⟩
  | .step .. => w

/-- One step of the thread. -/
def step (e : Env) (s : Session) (w : Watcher) : Option (Watcher × Session) :=
  match w.pass with
  | .ret _ => none
  | .step o again k =>
    let x := (sessionHandler setup.codePage).exec e s o
    some (goOn setup ⟨w.stage, Prog.next o again k x.1⟩, x.2)

end Watcher

/-- The messages whose handlers run one after another. -/
inductive Message where
  | startGame (data : String)
  | stopGame (data : String)
  | replay (trigger : Trigger)

def Message.handler (setup : Setup) : Message → SProg (Except JsonFailure Unit)
  | .startGame data => startGameCallback setup data .normalModel
  | .stopGame data => stopGameCallback setup data
  | .replay trigger => trigger.run setup

/-- The session, what is left of the handler and all loops ever started. -/
structure Watched where
  session : Session
  handler : SProg (Except JsonFailure Unit)
  watchers : List Watcher

/-- Before the first message. -/
def Watched.start (s : Session) : Watched := ⟨s, pure (.ok ()), []⟩

inductive WatchedEvent where
  | receive (message : Message)
  | handler (e : Env)
  | watcher (i : ℕ) (e : Env)

/-- The operation that a program performs next. -/
def nextOp {α : Type} : SProg α → Option SessionOp
  | .ret _ => none
  | .step o _ _ => some o

/-- A message is taken when the handler before it has ended. -/
def watchedStep (setup : Setup) (w : Watched) : WatchedEvent → Option Watched
  | .receive message =>
    if w.handler.ended.isSome = true then some { w with handler := message.handler setup } else none
  | .handler e =>
    match w.handler with
    | .ret _ => none
    | .step o again k =>
      let x := (sessionHandler setup.codePage).exec e w.session o
      some { session := x.2
             handler := Prog.next o again k x.1
             watchers := if o = SessionOp.startProtectGstLaunch then w.watchers ++ [.started]
               else w.watchers }
  | .watcher i e => do
    let old ← w.watchers[i]?
    let (new, session) ← old.step setup e w.session
    some { w with session, watchers := w.watchers.set i new }

/-- At most one loop has been started and not yet ended. -/
def AtMostOne (w : Watched) : Prop := w.watchers.countP Watcher.alive ≤ 1

/-! ## What the loops were told -/

/-- What the steps so far did: whether a thread object was created, whether
`StopProtectGstLaunch` has lowered the flag and no loop has raised it since, the
last status that was recorded (in the file, if it is there), and the loops that
came to a check of their second loop while they were told to end. -/
structure Checks where
  created : Bool
  lowered : Bool
  file : Bool
  status : Int
  left : List ℕ

/-- Before the first step. -/
def Checks.start (s : Session) : Checks :=
  ⟨s.protectThread, !s.protectThreadFlag, s.record.isSome, s.getGameStatus, []⟩

/-- A step of a handler or of a loop. -/
def Checks.perform (codePage : CodePage) (c : Checks) : SessionOp → Checks
  | .startProtectGstLaunch => { c with created := true }
  | .stopProtectGstLaunch => { c with lowered := c.lowered || c.created }
  | .raiseProtectFlag => { c with lowered := false }
  | .setValue .startGameStatus value =>
    { c with status := if c.file then toInt (codePage.recode value).toList else c.status }
  | _ => c

/-- A loop of the stage comes to a check, and is told to end. -/
def Checks.ends (c : Checks) : ProtectStage → SessionOp → Bool
  | .checking, .readProtectFlag => c.lowered
  | .checking, .getGameStatus => decide (c.status = 0)
  | _, _ => false

/-- What an event adds. -/
def Checks.note (codePage : CodePage) (c : Checks) (w : Watched) : WatchedEvent → Checks
  | .receive _ => c
  | .handler _ => (nextOp w.handler).elim c (c.perform codePage)
  | .watcher i _ =>
    match w.watchers[i]? with
    | none => c
    | some watcher =>
      match nextOp watcher.pass with
      | none => c
      | some o =>
        { c.perform codePage o with
          left := if c.ends watcher.stage o then i :: c.left else c.left }

/-- A run together with its checks. -/
abbrev watchedRun (setup : Setup) : Watched × Checks → WatchedEvent → Option (Watched × Checks) :=
  Machine.beside (watchedStep setup) (Checks.note setup.codePage)

/-- A loop is started only when all others have come to a check that told them
to end. -/
def StartsAlone (x : Watched × Checks) : WatchedEvent → Prop
  | .handler _ => nextOp x.1.handler = some .startProtectGstLaunch →
      ∀ i < x.1.watchers.length, i ∈ x.2.left
  | _ => True

-- ---------------------------------------------------------------------------
-- When a loop ends
-- ---------------------------------------------------------------------------

section

variable {setup : Setup}

/-- Only the reads of status and flag can end a loop. -/
theorem stopCheck_eq_false {stage : ProtectStage} {o : SessionOp} (r : o.Res)
    (hStatus : o ≠ .getGameStatus) (hFlag : o ≠ .readProtectFlag) :
    stopCheck stage ⟨o, r⟩ = false := by
  cases stage with
  | checking =>
    cases o with
    | getGameStatus => exact absurd rfl hStatus
    | readProtectFlag => exact absurd rfl hFlag
    | _ => rfl
  | _ => rfl

/-- A step that makes no check. -/
theorem endsOn_act {stage : ProtectStage} {o : SessionOp} {f : o.Res → SProg ProtectStage}
    (hStatus : o ≠ .getGameStatus) (hFlag : o ≠ .readProtectFlag)
    (hf : ∀ r, Prog.EndsOn (stopCheck stage) .ended (f r)) :
    Prog.EndsOn (stopCheck stage) .ended (act o >>= f) := by
  refine Prog.endsOn_perform (fun r hStop => ?_) fun r _ => hf r
  have hNo : stopCheck stage ⟨o, r⟩ = false := stopCheck_eq_false r hStatus hFlag
  rw [hNo] at hStop
  cases hStop

/-- **A loop ends** right after the check that finds the flag lowered or the
status 0, and only then. -/
theorem protectPass_endsOn {stage : ProtectStage} (hStage : stage ≠ .ended) :
    Prog.EndsOn (stopCheck stage) .ended (protectPass setup stage) := by
  cases stage with
  | ended => exact absurd rfl hStage
  | waiting =>
    -- the first loop never ends the function, it goes on to the second one
    have hGoOn : ∀ stage : ProtectStage, stage ≠ .ended →
        Prog.EndsOn (stopCheck .waiting) .ended (pure stage) := fun _ h => Prog.endsOn_pure h
    refine endsOn_act (by simp) (by simp) fun (pid : Nat) => ?_
    split
    · refine Prog.endsOn_perform (fun _ hStop => by cases hStop) fun (flag : Bool) _ => ?_
      split
      · exact endsOn_act (by simp) (by simp) fun _ => hGoOn _ (by decide)
      · exact hGoOn _ (by decide)
    · exact hGoOn _ (by decide)
  | checking =>
    refine Prog.endsOn_perform (fun (flag : Bool) hStop => ?_) fun (flag : Bool) hStop => ?_
    · -- a lowered flag ends the loop, a raised one lets it go on
      cases flag with
      | false => rfl
      | true => cases hStop
    cases flag with
    | false => cases hStop
    | true =>
    refine Prog.endsOn_perform (fun (gameStatus : Int) hZero => ?_) fun (gameStatus : Int) hNe => ?_
    · -- the status 0 ends the loop as well
      exact if_pos (of_decide_eq_true hZero)
    · rw [if_neg (of_decide_eq_false hNe)]
      refine Prog.endsOn_bind (all_reviveStream.mono fun o again ho r => ?_) fun _ =>
        endsOn_act (by simp) (by simp) fun _ => Prog.endsOn_pure (by decide)
      exact ⟨ho.1 r, stopCheck_eq_false r ho.2.1 ho.2.2⟩

/-- A loop that was told to end at a check is over, and every other one goes on. -/
def Watcher.Inv (w : Watcher) (left : Bool) : Prop :=
  if left = true then w.pass = .ret .ended
  else w.alive = true ∧ Prog.EndsOn (stopCheck w.stage) .ended w.pass

/-- A loop is alive as long as it has not left. -/
theorem Watcher.Inv.alive_iff {w : Watcher} {left : Bool} (h : w.Inv left) :
    w.alive = true ↔ ¬ left = true := by
  unfold Watcher.Inv at h
  split at h
  · rename_i hLeft
    rw [Watcher.alive, h]
    exact iff_of_false (by decide) (not_not.mpr hLeft)
  · rename_i hNot
    exact iff_of_true h.1 hNot

/-- A new loop has not left. -/
theorem inv_started : Watcher.started.Inv false :=
  ⟨rfl, endsOn_act (by simp) (by simp) fun _ => Prog.endsOn_pure (by decide)⟩

/-- A loop that goes on has not left. -/
theorem inv_goOn {w : Watcher} (h : Prog.EndsOn (stopCheck w.stage) .ended w.pass) :
    (w.goOn setup).Inv false := by
  obtain ⟨stage, pass⟩ := w
  cases pass with
  | step o again k => exact ⟨rfl, h⟩
  | ret next =>
    refine ⟨?_, protectPass_endsOn h⟩
    cases next with
    | waiting => rfl
    | checking => rfl
    | ended => exact absurd rfl h

-- ---------------------------------------------------------------------------
-- What the loops were told is so
-- ---------------------------------------------------------------------------

/-- What was noted of the steps so far is what they left. -/
structure Checks.Told (c : Checks) (s : Session) : Prop where
  created : c.created = s.protectThread
  lowered : c.lowered = !s.protectThreadFlag
  file : c.file = s.record.isSome
  status : c.status = s.getGameStatus

variable {c : Checks} {s : Session}

/-- **The flag and the status.** Each step does to them what is noted of it. -/
theorem checks_exec (codePage : CodePage) (h : c.Told s) (e : Env) (o : SessionOp) :
    (c.perform codePage o).Told ((sessionHandler codePage).exec e s o).2 := by
  cases o with
  | startProtectGstLaunch => exact ⟨rfl, h.lowered, h.file, h.status⟩
  | stopProtectGstLaunch =>
    refine ⟨h.created, ?_, h.file, h.status⟩
    show (c.lowered || c.created) = !(if s.protectThread then false else s.protectThreadFlag)
    rw [h.lowered, h.created]
    cases s.protectThread <;> simp
  | raiseProtectFlag => exact ⟨h.created, rfl, h.file, h.status⟩
  | setValue key value =>
    have hFile : c.file = (s.record.map fun r => r.set (codePage.recode value) key).isSome := by
      rw [h.file, Option.isSome_map]
    cases key with
    | startGameStatus =>
      refine ⟨h.created, h.lowered, hFile, ?_⟩
      show (if c.file then toInt (codePage.recode value).toList else c.status) =
        toInt ((s.record.map fun r => r.set (codePage.recode value) .startGameStatus).elim ""
          GameRecord.startGameStatus).toList
      rw [h.file, h.status, Session.getGameStatus]
      cases s.record <;> rfl
    | startGameParame | gameId =>
      refine ⟨h.created, h.lowered, hFile, h.status.trans ?_⟩
      show s.getGameStatus = toInt ((s.record.map _).elim "" GameRecord.startGameStatus).toList
      rw [Session.getGameStatus]
      cases s.record <;> rfl
  | _ => exact ⟨h.created, h.lowered, h.file, h.status⟩

/-- A loop finds at a check what it was told. -/
theorem stopCheck_exec (codePage : CodePage) (h : c.Told s) (e : Env) (stage : ProtectStage)
    (o : SessionOp) :
    stopCheck stage ⟨o, ((sessionHandler codePage).exec e s o).1⟩ = c.ends stage o := by
  cases stage with
  | checking =>
    cases o with
    | readProtectFlag => exact h.lowered.symm
    | getGameStatus => exact congrArg (fun n => decide (n = 0)) h.status.symm
    | _ => rfl
  | _ => rfl

/-- Only a loop that is alive takes steps. -/
theorem inv_step {e : Env} {s' : Session} {w w' : Watcher} {left : Bool} (hTold : c.Told s)
    (hInv : w.Inv left) (h : w.step setup e s = some (w', s')) :
    left = false ∧ ∃ o, nextOp w.pass = some o ∧ (c.perform setup.codePage o).Told s' ∧
      w'.Inv (c.ends w.stage o) := by
  obtain ⟨stage, pass⟩ := w
  cases pass with
  | ret next => cases h
  | step o again k =>
    cases left with
    | true => cases (hInv : Prog.step o again k = .ret .ended)
    | false =>
      obtain ⟨-, hEnds⟩ : (_ : Prop) ∧ _ := hInv
      obtain ⟨rfl, rfl⟩ := Prod.mk.inj (Option.some.inj h)
      refine ⟨rfl, o, rfl, checks_exec _ hTold e o, ?_⟩
      have hTells := stopCheck_exec setup.codePage hTold e stage o
      rcases hEnds.next ((sessionHandler setup.codePage).exec e s o).1 with
        ⟨hStop, hNext⟩ | ⟨hStop, hNext⟩
      · rw [← hTells, hStop, hNext]
        exact (rfl : protectPass setup .ended = .ret .ended)
      · rw [← hTells, hStop]
        exact inv_goOn hNext

-- ---------------------------------------------------------------------------
-- Runs
-- ---------------------------------------------------------------------------

@[simp] theorem left_perform (codePage : CodePage) (c : Checks) (o : SessionOp) :
    (c.perform codePage o).left = c.left := by
  cases o with
  | setValue key value => cases key <;> rfl
  | _ => rfl

section

variable {w w' : Watched} {ev : WatchedEvent}

/-- A message that comes in touches no loop. -/
theorem watchedStep_receive {message : Message}
    (h : watchedStep setup w (.receive message) = some w') :
    w'.session = w.session ∧ w'.watchers = w.watchers := by
  obtain ⟨-, rfl⟩ := Machine.of_guard h
  exact ⟨rfl, rfl⟩

/-- A step of the handler may start a loop. -/
theorem watchedStep_handler {e : Env} (h : watchedStep setup w (.handler e) = some w') :
    ∃ o, nextOp w.handler = some o ∧
      w'.session = ((sessionHandler setup.codePage).exec e w.session o).2 ∧
      w'.watchers = if o = .startProtectGstLaunch then w.watchers ++ [.started]
        else w.watchers := by
  obtain ⟨session, handler, watchers⟩ := w
  cases handler with
  | ret r => cases h
  | step o again k =>
    obtain rfl := Option.some.inj h
    exact ⟨o, rfl, rfl, rfl⟩

/-- A step of a loop is its own. -/
theorem watchedStep_watcher {i : ℕ} {e : Env}
    (h : watchedStep setup w (.watcher i e) = some w') :
    ∃ old new, w.watchers[i]? = some old ∧ old.step setup e w.session = some (new, w'.session) ∧
      w'.watchers = w.watchers.set i new := by
  obtain ⟨old, hOld, hStep⟩ := Option.bind_eq_some_iff.mp h
  obtain ⟨⟨new, session⟩, hNew, hLast⟩ := Option.bind_eq_some_iff.mp hStep
  obtain rfl := Option.some.inj hLast
  exact ⟨old, new, hOld, hNew, rfl⟩

end

/-- What was noted is so, of the flag, of the status and of each loop. -/
structure Watched.Inv (x : Watched × Checks) : Prop where
  told : x.2.Told x.1.session
  loops : ∀ (i : ℕ) (watcher : Watcher), x.1.watchers[i]? = some watcher →
    watcher.Inv (decide (i ∈ x.2.left))
  known : ∀ i ∈ x.2.left, i < x.1.watchers.length

variable {x x' : Watched × Checks} {ev : WatchedEvent}

/-- A step of the handler keeps what is known of the loops. -/
theorem watchedInv_handler {e : Env} (hInv : Watched.Inv x)
    (h : watchedRun setup x (.handler e) = some x') : Watched.Inv x' := by
  obtain ⟨hStep, hNote⟩ := Machine.beside_eq_some.mp h
  obtain ⟨o, hOp, hSession, hWatchers⟩ := watchedStep_handler hStep
  have hChecks : x'.2 = x.2.perform setup.codePage o := by
    rw [hNote, Checks.note, hOp]
    rfl
  have hLeft : x'.2.left = x.2.left := by rw [hChecks, left_perform]
  -- a handler leaves no loop; it may start one
  refine ⟨?_, fun i watcher hAt => ?_, fun i hi => ?_⟩
  · rw [hChecks, hSession]
    exact checks_exec _ hInv.told e o
  · rw [hLeft]
    rw [hWatchers] at hAt
    split at hAt
    · rw [List.getElem?_append] at hAt
      split at hAt
      · exact hInv.loops i watcher hAt
      · -- the loop that is started now
        rename_i hPast
        obtain rfl := List.mem_singleton.mp (List.mem_of_getElem? hAt)
        rw [decide_eq_false fun hi => hPast (hInv.known i hi)]
        exact inv_started
    · exact hInv.loops i watcher hAt
  · rw [hLeft] at hi
    have hLt := hInv.known i hi
    rw [hWatchers]
    split
    · rw [List.length_append]
      omega
    · exact hLt

/-- A step of a loop keeps what is known of them. -/
theorem watchedInv_watcher {i : ℕ} {e : Env} (hInv : Watched.Inv x)
    (h : watchedRun setup x (.watcher i e) = some x') : Watched.Inv x' := by
  obtain ⟨hStep, hNote⟩ := Machine.beside_eq_some.mp h
  obtain ⟨old, new, hOld, hNew, hWatchers⟩ := watchedStep_watcher hStep
  obtain ⟨hNotLeft, o, hOp, hTold, hLoop⟩ := inv_step hInv.told (hInv.loops i old hOld) hNew
  have hIndex := (List.getElem?_eq_some_iff.mp hOld).1
  have hChecks : x'.2 = { x.2.perform setup.codePage o with
      left := if x.2.ends old.stage o then i :: x.2.left else x.2.left } := by
    rw [hNote, Checks.note, hOld]
    dsimp only
    rw [hOp]
  have hLeft : x'.2.left = if x.2.ends old.stage o then i :: x.2.left else x.2.left := by
    rw [hChecks]
  refine ⟨?_, fun j watcher hAt => ?_, fun j hj => ?_⟩
  · -- what is told of the flag and of the record does not depend on who has left
    rw [hChecks]
    exact ⟨hTold.created, hTold.lowered, hTold.file, hTold.status⟩
  · rw [hWatchers, List.getElem?_set] at hAt
    rw [hLeft]
    split at hAt
    · -- the loop that took the step
      rename_i hSame
      subst hSame
      obtain rfl := Option.some.inj hAt
      rw [decide_eq_false_iff_not] at hNotLeft
      cases hEnds : x.2.ends old.stage o with
      | true => simpa [hEnds] using hLoop
      | false => simpa [hEnds, hNotLeft] using hLoop
    · rename_i hOther
      have hMem : j ∈ (if x.2.ends old.stage o then i :: x.2.left else x.2.left) ↔
          j ∈ x.2.left := by
        split
        · exact List.mem_cons.trans (or_iff_right (Ne.symm hOther))
        · exact Iff.rfl
      rw [decide_eq_decide.mpr hMem]
      exact hInv.loops j watcher hAt
  · rw [hWatchers, List.length_set]
    rw [hLeft] at hj
    split at hj
    · rcases List.mem_cons.mp hj with rfl | hBefore
      · exact hIndex
      · exact hInv.known j hBefore
    · exact hInv.known j hj

/-- Every step keeps what is known of them. -/
theorem watchedInv_step (hInv : Watched.Inv x) (h : watchedRun setup x ev = some x') :
    Watched.Inv x' := by
  cases ev with
  | receive message =>
    obtain ⟨hStep, hNote⟩ := Machine.beside_eq_some.mp h
    obtain ⟨hSession, hWatchers⟩ := watchedStep_receive hStep
    have hSame : x'.2 = x.2 := hNote
    refine ⟨?_, fun i watcher hAt => ?_, fun i hi => ?_⟩
    · rw [hSame, hSession]
      exact hInv.told
    · rw [hSame]
      rw [hWatchers] at hAt
      exact hInv.loops i watcher hAt
    · rw [hSame] at hi
      rw [hWatchers]
      exact hInv.known i hi
  | handler e => exact watchedInv_handler hInv h
  | watcher i e => exact watchedInv_watcher hInv h

/-- A loop is alive as long as it was not told to end at a check. -/
theorem countP_alive_eq_zero_iff (hInv : Watched.Inv x) :
    x.1.watchers.countP Watcher.alive = 0 ↔ ∀ i < x.1.watchers.length, i ∈ x.2.left := by
  rw [List.countP_eq_zero, List.forall_mem_iff_forall_getElem]
  refine forall₂_congr fun i hi => ?_
  rw [(hInv.loops i _ (List.getElem?_eq_getElem hi)).alive_iff, not_not, decide_eq_true_iff]

/-- What a step does to the number of loops that are alive. -/
theorem atMostOne_step (hInv : Watched.Inv x) (hOne : AtMostOne x.1)
    (h : watchedRun setup x ev = some x') : AtMostOne x'.1 ↔ StartsAlone x ev := by
  obtain ⟨hStep, -⟩ := Machine.beside_eq_some.mp h
  unfold AtMostOne at *
  cases ev with
  | receive message => exact iff_of_true (by rwa [(watchedStep_receive hStep).2]) trivial
  | handler e =>
    obtain ⟨o, hOp, -, hWatchers⟩ := watchedStep_handler hStep
    rw [hWatchers, StartsAlone, hOp, Option.some.injEq]
    by_cases hStart : o = .startProtectGstLaunch
    · -- one more loop: none may be alive before
      have hNew : [Watcher.started].countP Watcher.alive = 1 := rfl
      rw [if_pos hStart, List.countP_append, hNew, ← countP_alive_eq_zero_iff hInv]
      exact ⟨fun hLe _ => by omega, fun hZero => by rw [hZero hStart]⟩
    · rw [if_neg hStart]
      exact iff_of_true hOne fun hYes => absurd hYes hStart
  | watcher i e =>
    obtain ⟨old, new, hOld, hNew, hWatchers⟩ := watchedStep_watcher hStep
    refine iff_of_true ?_ trivial
    -- the loop that took the step was alive
    have hLoop := hInv.loops i old hOld
    have hAlive : old.alive = true := hLoop.alive_iff.mpr (by
      rw [(inv_step hInv.told hLoop hNew).1]
      exact Bool.false_ne_true)
    obtain ⟨hIndex, rfl⟩ := List.getElem?_eq_some_iff.mp hOld
    have hPos : 0 < x.1.watchers.countP Watcher.alive :=
      List.countP_pos_iff.mpr ⟨_, List.getElem_mem hIndex, hAlive⟩
    rw [hWatchers, List.countP_set hIndex, if_pos hAlive]
    split
    · omega
    · omega

/-- **One watchdog.** At most one loop is alive all along a run just when every
`StartProtectGstLaunch` comes after each loop before it has come, in its second
loop, to its check of the flag while `StopProtectGstLaunch` had lowered it and no
loop had raised it again, or to its check of the status while the status on
record was 0. -/
theorem one_watchdog_iff (setup : Setup) (s : Session) (es : List WatchedEvent) :
    Machine.Keeps (watchedStep setup) AtMostOne (.start s) es ↔
      Machine.MeetsTaken (watchedRun setup) StartsAlone (.start s, .start s) es := by
  rw [← Machine.keeps_beside]
  refine Machine.keeps_iff_meets (fun _ _ _ hInv h => watchedInv_step hInv h)
    (fun _ _ _ hInv hOne h => atMostOne_step hInv hOne h) ?_ ?_
  · exact ⟨⟨rfl, rfl, rfl, rfl⟩, fun _ _ hAt => (nomatch hAt), fun _ hi => (nomatch hi)⟩
  · exact Nat.zero_le 1

end

/-! ## A loop that sleeps through a StopGame -/

def handlerSteps (n : ℕ) : List WatchedEvent := List.replicate n (.handler envWith)

/-- The loop of the first StartGame sleeps after its push while StopGame and the
second StartGame run. -/
def sleepsThroughStop : List WatchedEvent :=
  .receive (.startGame (sampleData "s" false)) :: handlerSteps 20 ++
    List.replicate 12 (.watcher 0 envWith) ++
    .receive (.stopGame sampleStopData) :: handlerSteps 14 ++
    .receive (.startGame (sampleData "s" false)) :: handlerSteps 20

/-- Two loops are alive in the end. -/
theorem two_watchdogs_alive :
    ¬ Machine.Keeps (watchedStep sampleSetup) AtMostOne (.start sampleSession)
      sleepsThroughStop := by
  intro hKeeps
  have hTwo : (Machine.run (watchedStep sampleSetup) (.start sampleSession) sleepsThroughStop).map
      (fun w => w.watchers.countP Watcher.alive) = some 2 := by decide +kernel
  obtain ⟨w, hRun, hCount⟩ := Option.map_eq_some_iff.mp hTwo
  have hOne : w.watchers.countP Watcher.alive ≤ 1 := hKeeps.good (Nat.zero_le 1) hRun
  omega

end PushStreamer
