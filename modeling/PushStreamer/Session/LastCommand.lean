import PushStreamer.Lib.LastWriter
import PushStreamer.Session.StartGame

/-!
# StartGame followed by StopGame

The handlers of a StartGame and of the StopGame after it run on two detached
threads, and their steps interleave in any order. Three switches of the session
are turned on by StartGame and off by StopGame: the recorded status, the stream
and the keyboard thread.

* `start_writes`, `stop_writes` — what each handler writes to the switches.
* `last_command_wins_iff` — all three are off in the end just when StartGame
  turns none of them on after StopGame has turned it off.
-/

namespace PushStreamer

inductive Side where
  | start
  | stop
deriving DecidableEq

-- ---------------------------------------------------------------------------
-- The three switches
-- ---------------------------------------------------------------------------

/-- A write of the recorded status. -/
def statusWrite (codePage : CodePage) : Event sessionSig → Option Bool
  | ⟨.setValue .startGameStatus value, _⟩ =>
    some (decide (toInt (codePage.recode value).toList ≠ 0))
  | _ => none

/-- A call on the stream: `push` or `closepush`. -/
def streamCall : Event sessionSig → Option Bool
  | ⟨.push _, _⟩ => some true
  | ⟨.closepush _ _, _⟩ => some false
  | _ => none

/-- The keyboard thread is started or stopped. -/
def keyboardWrite : Event sessionSig → Option Bool
  | ⟨.startKeyBoardThread _, ret⟩ => some ret
  | ⟨.stopKeyBoardThread, _⟩ => some false
  | _ => none

def statusOf (s : Session) : Option Bool :=
  s.record.map fun r => decide (toInt r.startGameStatus.toList ≠ 0)

def keyboardRunning (s : Session) : Bool := s.keyBoardThread.elim false KeyBoardSession.running

section

variable {codePage : CodePage} (e : Env) (s : Session) (o : SessionOp)

/-- The status is a register of the session. -/
theorem exec_statusOf :
    statusOf ((sessionHandler codePage).exec e s o).2 =
      (statusOf s).map
        (statusWrite codePage ⟨o, ((sessionHandler codePage).exec e s o).1⟩).getD := by
  cases o with
  | setValue key value =>
    show (s.record.map _).map _ = (s.record.map _).map _
    rw [Option.map_map, Option.map_map]
    cases key with
    | _ => rfl
  | _ => exact Option.map_id'.symm

/-- Whether the keyboard thread runs is one, too. -/
theorem exec_keyboardRunning :
    keyboardRunning ((sessionHandler codePage).exec e s o).2 =
      (keyboardWrite ⟨o, ((sessionHandler codePage).exec e s o).1⟩).getD (keyboardRunning s) := by
  cases o with
  | setKeyBoardGamePid =>
    -- the pid changes, and whether the thread runs does not
    show (s.keyBoardThread.map _).elim false KeyBoardSession.running = s.keyBoardThread.elim _ _
    cases s.keyBoardThread with
    | none => rfl
    | some k => rfl
  | _ => rfl

/-- The mode is the same in every state that a handler reads. -/
def ReadsDefaultMode : Event sessionSig → Prop
  | ⟨.get, (s : Session)⟩ => s.mode = .defaultMode
  | _ => True

/-- The mode is read as it is. -/
theorem exec_readsDefaultMode (h : s.mode = .defaultMode) :
    ReadsDefaultMode ⟨o, ((sessionHandler codePage).exec e s o).1⟩ ∧
      ((sessionHandler codePage).exec e s o).2.mode = .defaultMode := by
  refine ⟨?_, (exec_mode e s o).trans h⟩
  cases o with
  | get => exact h
  | _ => trivial

end

/-- A status is 0 unless 1 is recorded. -/
theorem getGameStatus_eq_zero_iff {s : Session} : s.getGameStatus = 0 ↔ statusOf s ≠ some true := by
  unfold Session.getGameStatus statusOf
  cases s.record with
  | none => exact iff_of_true (show toInt "".toList = 0 by decide) (by simp)
  | some r => simp

-- ---------------------------------------------------------------------------
-- What each handler writes
-- ---------------------------------------------------------------------------

/-- The writes of a trace to the three switches. -/
def switchWrites (codePage : CodePage) (t : List (Event sessionSig)) :
    List Bool × List Bool × List Bool :=
  (t.filterMap (statusWrite codePage), t.filterMap streamCall, t.filterMap keyboardWrite)

/-- What two traces write is what each writes. -/
theorem switchWrites_append (codePage : CodePage) (t₁ t₂ : List (Event sessionSig)) :
    switchWrites codePage (t₁ ++ t₂) =
      ((switchWrites codePage t₁).1 ++ (switchWrites codePage t₂).1,
        (switchWrites codePage t₁).2.1 ++ (switchWrites codePage t₂).2.1,
        (switchWrites codePage t₁).2.2 ++ (switchWrites codePage t₂).2.2) := by
  simp only [switchWrites, List.filterMap_append]

instance (o : SessionOp) : Nonempty (sessionSig.Res o) := by
  cases o with
  | get => exact ⟨sampleSession⟩
  | queryGamePid exe => exact ⟨(0 : Nat)⟩
  | isProcessRunning exe => exact ⟨(0 : Nat)⟩
  | closepush port url => exact ⟨false⟩
  | push args => exact ⟨false⟩
  | startKeyBoardThread args => exact ⟨false⟩
  | readProtectFlag => exact ⟨false⟩
  | getGameStatus => exact ⟨(0 : Int)⟩
  | _ => exact ⟨()⟩

/-- Steps of the other kinds write to none of them. -/
theorem switchWrites_of_kinds {codePage : CodePage} {t : List (Event sessionSig)} {ks : List Kind}
    (hKinds : ∀ ev ∈ t, SessionOp.kind ev.op ∈ ks) (hRecord : Kind.record ∉ ks)
    (hStream : Kind.stream ∉ ks) (hKeyboard : Kind.keyboard ∉ ks) :
    switchWrites codePage t = ([], [], []) := by
  have hNone : ∀ ev ∈ t, statusWrite codePage ev = none ∧ streamCall ev = none ∧
      keyboardWrite ev = none := by
    rintro ⟨o, r⟩ hev
    have hKind := hKinds _ hev
    cases o with
    | setValue key value => exact absurd hKind hRecord
    | push args => exact absurd hKind hStream
    | closepush port url => exact absurd hKind hStream
    | startKeyBoardThread args => exact absurd hKind hKeyboard
    | stopKeyBoardThread => exact absurd hKind hKeyboard
    | _ => exact ⟨rfl, rfl, rfl⟩
  have hStatus := List.filterMap_eq_nil_iff.mpr fun ev hev => (hNone ev hev).1
  have hCalls := List.filterMap_eq_nil_iff.mpr fun ev hev => (hNone ev hev).2.1
  have hThreads := List.filterMap_eq_nil_iff.mpr fun ev hev => (hNone ev hev).2.2
  rw [switchWrites, hStatus, hCalls, hThreads]

/-- A program without steps of the kind that writes. -/
theorem Uses.writes_nil {α τ : Type} {ks : List Kind} {k : Kind}
    {w : Event sessionSig → Option τ} {p : SProg α} (h : Uses ks p) (hk : k ∉ ks)
    (hw : ∀ ev, SessionOp.kind ev.op ≠ k → w ev = none) : Prog.Writes w p [] := by
  have hAvoids : Prog.Avoids (S := sessionSig) (fun o => SessionOp.kind o = k) p :=
    h.avoids fun o ho hKind => hk (hKind ▸ ho)
  exact Prog.Writes.of_avoids hAvoids hw

theorem streamCall_of_kind (ev : Event sessionSig) (h : SessionOp.kind ev.op ≠ .stream) :
    streamCall ev = none := by
  obtain ⟨o, r⟩ := ev
  cases o with
  | push args => exact absurd rfl h
  | closepush port url => exact absurd rfl h
  | _ => rfl

section

variable {setup : Setup} {t : List (Event sessionSig)}

/-- The steps of StopGame before it reads its payload. The last reading of the
session decides about the stream and the keyboard thread. -/
theorem stopSession_trace {u : Unit} (h : Prog.Path stopSession t u) :
    ∃ (s₁ s₂ s₃ : Session) (t₁ t₂ : List (Event sessionSig)),
      t = ⟨.lastGaspGoalPushStreamer, ()⟩ :: ⟨.get, s₁⟩ :: ⟨.setValue .gameId s₁.gameId, ()⟩ ::
        ⟨.setValue .startGameStatus "0", ()⟩ :: ⟨.get, s₂⟩ :: ⟨.stopProtectGstLaunch, ()⟩ ::
        ⟨.send (deviceStateReport s₂), ()⟩ :: ⟨.get, s₃⟩ :: (t₁ ++ t₂) ∧
      (if s₃.mode = .defaultMode ∨ s₃.mode = .onlyPushStreamer then
        ∃ ret : Bool, t₁ = [⟨.closepush s₃.pushStreamerParams.roomId
          s₃.pushStreamerParams.serverUrl, ret⟩] else t₁ = []) ∧
      t₂ = if s₃.mode = .defaultMode ∨ s₃.mode = .onlyKeyBoard then
        [⟨.stopKeyBoardThread, ()⟩] else [] := by
  -- the parts of `stopSession` that are always done
  obtain ⟨_, tRest, rfl, h₁⟩ := Prog.path_then.mp h
  obtain ⟨s₁, tRest, rfl, h₂⟩ := Prog.path_then.mp h₁
  obtain ⟨tRecord, tRest, _, rfl, hRecord, h₃⟩ := Prog.path_bind.mp h₂
  obtain ⟨s₂, tRest, rfl, h₄⟩ := Prog.path_then.mp h₃
  obtain ⟨_, tRest, rfl, h₅⟩ := Prog.path_then.mp h₄
  obtain ⟨_, tRest, rfl, h₆⟩ := Prog.path_then.mp h₅
  obtain ⟨s₃, tRest, rfl, h₇⟩ := Prog.path_then.mp h₆
  obtain ⟨t₁, t₂, _, rfl, hStream, hStop⟩ := Prog.path_bind.mp h₇
  obtain ⟨_, tStatus, rfl, hStatus⟩ := Prog.path_then.mp hRecord
  obtain rfl := Prog.path_perform.mp hStatus
  refine ⟨s₁, s₂, s₃, t₁, t₂, rfl, ?_, ?_⟩
  · -- the stream is closed in two of the modes
    split
    · rename_i hMode
      obtain ⟨ret, tPure, rfl, hPure⟩ := Prog.path_then.mp ((Prog.path_onlyIf hMode).mp hStream)
      obtain ⟨rfl, -⟩ := Prog.path_pure.mp hPure
      exact ⟨ret, rfl⟩
    · rename_i hMode
      rw [Prog.onlyIf_neg hMode] at hStream
      exact (Prog.path_pure.mp hStream).1
  · -- the keyboard is stopped in two of them
    split
    · rename_i hMode
      exact Prog.path_perform.mp ((Prog.path_onlyIf hMode).mp hStop)
    · rename_i hMode
      have hNone : Prog.onlyIf (s₃.mode = .defaultMode ∨ s₃.mode = .onlyKeyBoard)
          (act .stopKeyBoardThread) = pure () := Prog.onlyIf_neg hMode _
      rw [hNone] at hStop
      exact (Prog.path_pure.mp hStop).1

/-- StopGame turns all three switches off, once each, before it reads its
payload. -/
theorem path_stopSession {u : Unit} (h : Prog.Path (stopSession) t u)
    (hMode : ∀ ev ∈ t, ReadsDefaultMode ev) :
    switchWrites setup.codePage t = ([false], [false], [false]) := by
  obtain ⟨s₁, s₂, s₃, t₁, t₂, rfl, hStream, rfl⟩ := stopSession_trace h
  have hMode₃ : s₃.mode = .defaultMode := hMode ⟨.get, s₃⟩ (by simp)
  rw [if_pos (Or.inl hMode₃)] at hStream
  obtain ⟨ret, rfl⟩ := hStream
  rw [if_pos (Or.inl hMode₃)]
  have hZero : decide (toInt (setup.codePage.recode "0").toList ≠ 0) = false := by
    rw [setup.codePage.recode_eq (by decide)]
    decide
  show ([decide (toInt (setup.codePage.recode "0").toList ≠ 0)], [false], [false]) =
    (([false], [false], [false]) : List Bool × List Bool × List Bool)
  rw [hZero]

/-- What StopGame does at its end concerns none of the three. -/
theorem uses_rest_of_stopGame (data : String) :
    Uses [.query, .kill, .report] (if data = "" then pure (.ok ())
      else match setup.parse data with
        | none => pure (.ok ())
        | some root => stopGame setup root : SProg (Except JsonFailure Unit)) := by
  refine uses_ite (uses_pure _) ?_
  cases setup.parse data with
  | none => exact uses_pure _
  | some root => exact uses_stopGame setup root

/-- StopGame switches everything off, in the default mode. -/
theorem stop_writes {data : String} {r : Except JsonFailure Unit}
    (h : Prog.Path (stopGameCallback setup data) t r) (hMode : ∀ ev ∈ t, ReadsDefaultMode ev) :
    switchWrites setup.codePage t = ([false], [false], [false]) := by
  obtain ⟨t₁, t₂, _, rfl, hStop, hRest⟩ := Prog.path_bind.mp h
  have hKinds := (uses_rest_of_stopGame data).kinds hRest
  rw [switchWrites_append,
    path_stopSession hStop fun ev hev => hMode ev (List.mem_append_left _ hev),
    switchWrites_of_kinds hKinds (by decide) (by decide) (by decide)]
  rfl

/-- The launch records the status 1. -/
theorem writes_startGameAction {gameId startGameParams data : String} {force : Int} {u : Unit}
    (h : Prog.Path (startGameAction setup gameId startGameParams data force) t u) :
    switchWrites setup.codePage t = ([true], [], []) := by
  obtain ⟨t₁, tRest, _, rfl, hLaunch, h₁⟩ := Prog.path_bind.mp h
  obtain ⟨t₂, t₃, _, rfl, hWait, hRecord⟩ := Prog.path_bind.mp h₁
  have hLaunchKinds := (uses_launchGame setup gameId startGameParams data force).kinds hLaunch
  have hWaitKinds := (uses_waitForGame setup gameId).kinds hWait
  have hRecordWrites : switchWrites setup.codePage t₃ = ([true], [], []) := by
    obtain ⟨_, tRest, rfl, hRest⟩ := Prog.path_then.mp hRecord
    obtain ⟨_, tId, rfl, hId⟩ := Prog.path_then.mp hRest
    obtain rfl := Prog.path_perform.mp hId
    have hOne : decide (toInt (setup.codePage.recode (statusText 1)).toList ≠ 0) = true := by
      rw [toInt_recode_one]
      decide
    show ([decide (toInt (setup.codePage.recode (statusText 1)).toList ≠ 0)], [], []) =
      (([true], [], []) : List Bool × List Bool × List Bool)
    rw [hOne]
  rw [switchWrites_append, switchWrites_append, hRecordWrites,
    switchWrites_of_kinds hLaunchKinds (by decide) (by decide) (by decide),
    switchWrites_of_kinds hWaitKinds (by decide) (by decide) (by decide)]
  rfl

/-- The stream is closed, and pushed if that succeeds. -/
theorem writes_pushStreamerAction {params : PushStreamerParams} {u : Unit}
    (h : Prog.Path (pushStreamerAction setup params) t u) :
    switchWrites setup.codePage t = ([], [false], []) ∨
      switchWrites setup.codePage t = ([], [false, true], []) := by
  rcases pushStreamerAction_trace h with rfl | ⟨ret, rfl⟩
  · exact Or.inl rfl
  · exact Or.inr rfl

/-- The old keyboard thread is stopped, and a new one is started or fails. -/
theorem writes_startKeyboardAction {gameId controlUrl login : String} {u : Unit}
    (h : Prog.Path (startKeyboardAction setup gameId controlUrl login) t u) :
    ∃ b, switchWrites setup.codePage t = ([], [], [false, b]) := by
  obtain ⟨_, tRest, rfl, h₁⟩ := Prog.path_then.mp h
  obtain ⟨x, tRest, rfl, h₂⟩ := Prog.path_then.mp h₁
  obtain ⟨ret, tProtect, rfl, hProtect⟩ := Prog.path_then.mp h₂
  obtain rfl := Prog.path_perform.mp hProtect
  exact ⟨ret, rfl⟩

/-- An accepted StartGame turns the switches on with its last writes. -/
theorem start_writes {ms : List (String × Value)} {data : String} {r : Except JsonFailure Unit}
    (hParse : setup.parse data = some (.obj ms)) (hReadable : StartReadable ms)
    (hPresent : ¬ ParamEmpty ms)
    (h : Prog.Path (startGameCallback setup data .normalModel) t r) :
    ∃ b, switchWrites setup.codePage t = ([true], [false], [false, b]) ∨
      switchWrites setup.codePage t = ([true], [false, true], [false, b]) := by
  rcases startGameCallback_inversion hParse h.exec_free with ⟨hNot, -, -⟩ |
    ⟨-, rfl, f, deviceNo, sRead, s₁, t₁, t₂, rfl, hRead, hBefore, hAccept⟩
  · exact absurd hReadable hNot
  rw [acceptOrAnswer, if_neg fun hMissing => hPresent ((paramMissing_iff hRead).mp hMissing)]
    at hAccept
  have hEarly := (uses_beforeCheck setup (memberText ms "gameId")).kinds hBefore.path
  obtain ⟨t₃, tRest, _, rfl, hStart, h₃⟩ := Prog.path_bind.mp hAccept.path
  obtain ⟨t₄, t₅, _, rfl, hPush, hKey⟩ := Prog.path_bind.mp h₃
  obtain ⟨b, hKeyWrites⟩ := writes_startKeyboardAction ((Prog.path_onlyIf rfl).mp hKey)
  rw [switchWrites_append, switchWrites_append, switchWrites_append, hKeyWrites,
    writes_startGameAction hStart,
    switchWrites_of_kinds hEarly (by decide) (by decide) (by decide)]
  rcases writes_pushStreamerAction hPush with hClosed | hPushed
  · exact ⟨b, Or.inl (by rw [hClosed]; rfl)⟩
  · exact ⟨b, Or.inr (by rw [hPushed]; rfl)⟩

end

-- ---------------------------------------------------------------------------
-- Both handlers together
-- ---------------------------------------------------------------------------

/-- The two handler threads. -/
def handlers (setup : Setup) (startData stopData : String) :
    Side → SProg (Except JsonFailure Unit)
  | .start => startGameCallback setup startData .normalModel
  | .stop => stopGameCallback setup stopData

/-- The last command has won: the recorded status is 0, the last call on the
stream is a `closepush`, and no keyboard thread is running. -/
def LastCommandWins (s' : Session) (log : List (Side × Event sessionSig)) : Prop :=
  s'.getGameStatus = 0 ∧ (Prog.writes streamCall log).getLast? = some false ∧
    keyboardRunning s' = false

/-- There are two handlers. -/
theorem side_ne_stop_iff (i : Side) : i ≠ .stop ↔ i = .start := by
  cases i with
  | start => exact iff_of_true (by decide) rfl
  | stop => exact iff_of_false (by decide) (by decide)

section

variable {setup : Setup} {startData stopData : String} {ms : List (String × Value)}
  {s s' : Session} {log : List (Side × Event sessionSig)}
  {threads : Side → SProg (Except JsonFailure Unit)}

/-- What a finished run of both handlers has written to the switches. -/
theorem run_writes (hParse : setup.parse startData = some (.obj ms)) (hReadable : StartReadable ms)
    (hPresent : ¬ ParamEmpty ms) (hMode : s.mode = .defaultMode)
    (hRun : Prog.Run (sessionHandler setup.codePage) s (handlers setup startData stopData)
      log s' threads)
    (hStart : (threads .start).ended.isSome = true) (hStop : (threads .stop).ended.isSome = true) :
    switchWrites setup.codePage (Prog.threadTrace .stop log) = ([false], [false], [false]) ∧
    ∃ b, switchWrites setup.codePage (Prog.threadTrace .start log) =
        ([true], [false], [false, b]) ∨
      switchWrites setup.codePage (Prog.threadTrace .start log) =
        ([true], [false, true], [false, b]) := by
  obtain ⟨rStart, hStart⟩ := Option.isSome_iff_exists.mp hStart
  obtain ⟨rStop, hStop⟩ := Option.isSome_iff_exists.mp hStop
  have hStartPath := hRun.path (Prog.ended_eq_some.mp hStart)
  have hStopPath := hRun.path (Prog.ended_eq_some.mp hStop)
  have hReads : ∀ x ∈ log, ReadsDefaultMode x.2 :=
    hRun.events (fun e x o hx => exec_readsDefaultMode e x o hx) hMode
  refine ⟨stop_writes hStopPath fun ev hev => ?_,
    start_writes hParse hReadable hPresent hStartPath⟩
  exact hReads _ (Prog.mem_of_mem_threadTrace hev)

/-- One switch: StopGame turns it off once, and StartGame turns it on with its
last write or not at all. -/
theorem switch_off_iff {w : Event sessionSig → Option Bool} {xs : List Bool}
    (hOff : (Prog.threadTrace .stop log).filterMap w = [false])
    (hOn : (Prog.threadTrace .start log).filterMap w = xs)
    (hLast : true ∈ xs → xs.getLast? = some true) :
    (Prog.writes w log).getLast? = some false ↔ Prog.StaysOff w .stop log := by
  have hOthers : Prog.writesOfOthers w .stop log = xs :=
    (Prog.writesOfOthers_eq side_ne_stop_iff log).trans hOn
  exact Prog.last_write_off_iff hOff (by rw [hOthers]; exact hLast)

/-- The recorded status after a run, by the last write of it. -/
theorem status_after_run
    (hRun : Prog.Run (sessionHandler setup.codePage) s (handlers setup startData stopData)
      log s' threads)
    (hWritten : Prog.writes (statusWrite setup.codePage) log ≠ []) :
    s'.getGameStatus = 0 ↔ (s.record.isSome = true →
      (Prog.writes (statusWrite setup.codePage) log).getLast? = some false) := by
  have hFold : statusOf s' = (statusOf s).map
      ((Prog.writes (statusWrite setup.codePage) log).getLast?).getD := by
    have hRaw : statusOf s' = (log.map Prod.snd).foldl
        (fun b ev => b.map (statusWrite setup.codePage ev).getD) (statusOf s) :=
      hRun.fold fun e x o => exec_statusOf e x o
    rw [hRaw, Prog.foldl_write_map, Prog.writes_eq]
  rw [getGameStatus_eq_zero_iff, hFold, statusOf]
  obtain ⟨v, hLast⟩ : ∃ v, (Prog.writes (statusWrite setup.codePage) log).getLast? = some v :=
    ⟨_, List.getLast?_eq_some_getLast hWritten⟩
  rw [hLast]
  cases s.record with
  | none => simp
  | some r => cases v with
    | false => simp
    | true => simp

/-- The keyboard thread is as it was left by the last write. -/
theorem keyboard_after_run
    (hRun : Prog.Run (sessionHandler setup.codePage) s (handlers setup startData stopData)
      log s' threads)
    (hWritten : Prog.writes keyboardWrite log ≠ []) :
    keyboardRunning s' = false ↔ (Prog.writes keyboardWrite log).getLast? = some false := by
  have hFold : keyboardRunning s' =
      ((Prog.writes keyboardWrite log).getLast?).getD (keyboardRunning s) := by
    have hRaw : keyboardRunning s' = (log.map Prod.snd).foldl
        (fun b ev => (keyboardWrite ev).getD b) (keyboardRunning s) :=
      hRun.fold fun e x o => exec_keyboardRunning e x o
    rw [hRaw, Prog.foldl_write, Prog.writes_eq]
  obtain ⟨v, hLast⟩ : ∃ v, (Prog.writes keyboardWrite log).getLast? = some v :=
    ⟨_, List.getLast?_eq_some_getLast hWritten⟩
  rw [hFold, hLast, Option.getD_some, Option.some.injEq]

/-- **The last command wins** in a finished run just when StartGame turns no
switch on after StopGame has turned it off: the write of the status, if the
record file is open, the push, and the start of the keyboard thread. -/
theorem last_command_wins_iff (hParse : setup.parse startData = some (.obj ms))
    (hReadable : StartReadable ms) (hPresent : ¬ ParamEmpty ms) (hMode : s.mode = .defaultMode)
    (hRun : Prog.Run (sessionHandler setup.codePage) s (handlers setup startData stopData)
      log s' threads)
    (hStart : (threads .start).ended.isSome = true) (hStop : (threads .stop).ended.isSome = true) :
    LastCommandWins s' log ↔
      (s.record.isSome = true → Prog.StaysOff (statusWrite setup.codePage) .stop log) ∧
      Prog.StaysOff streamCall .stop log ∧ Prog.StaysOff keyboardWrite .stop log := by
  obtain ⟨hOff, b, hOn⟩ := run_writes hParse hReadable hPresent hMode hRun hStart hStop
  obtain ⟨hOffStatus, hOffRest⟩ := Prod.mk.inj hOff
  obtain ⟨hOffStream, hOffKeyboard⟩ := Prod.mk.inj hOffRest
  -- the stream of StartGame ends with its push, if there is one
  obtain ⟨xs, hStream, hPushes⟩ : ∃ xs, switchWrites setup.codePage
      (Prog.threadTrace .start log) = ([true], xs, [false, b]) ∧
        (true ∈ xs → xs.getLast? = some true) := by
    rcases hOn with hClosed | hPushed
    · exact ⟨[false], hClosed, by simp⟩
    · exact ⟨[false, true], hPushed, by simp⟩
  obtain ⟨hOnStatus, hOnRest⟩ := Prod.mk.inj hStream
  obtain ⟨hOnStream, hOnKeyboard⟩ := Prod.mk.inj hOnRest
  rw [LastCommandWins, status_after_run hRun (Prog.writes_ne_nil hOffStatus),
    keyboard_after_run hRun (Prog.writes_ne_nil hOffKeyboard),
    switch_off_iff hOffStatus hOnStatus (by simp), switch_off_iff hOffStream hOnStream hPushes,
    switch_off_iff hOffKeyboard hOnKeyboard (by simp)]

end

/-! ## Two schedules -/

-- the first game is not in the list of processes, or is
def envWithout : Env := { evolve := fun _ => [], closepush := true, push := true }

def envWith : Env := { evolve := fun _ => [oneProcess], closepush := true, push := true }

def sampleHandlers : Side → SProg (Except JsonFailure Unit) :=
  handlers sampleSetup (sampleData "s" false) sampleStopData

/-- StartGame finishes before StopGame begins. -/
def oneAfterTheOther : List (Side × Env) :=
  List.replicate 20 (.start, envWith) ++ List.replicate 14 (.stop, envWith)

/-- StopGame runs while StartGame waits for its game. -/
def stopDuringWait : List (Side × Env) :=
  List.replicate 12 (.start, envWithout) ++ List.replicate 14 (.stop, envWithout) ++
    List.replicate 12 (.start, envWith)

def sampleRun (schedule : List (Side × Env)) :
    List (Side × Event sessionSig) × Session × (Side → SProg (Except JsonFailure Unit)) :=
  Prog.runSchedule (sessionHandler sampleSetup.codePage) schedule sampleSession sampleHandlers

theorem run_sampleRun (schedule : List (Side × Env)) :
    Prog.Run (sessionHandler sampleSetup.codePage) sampleSession sampleHandlers
      (sampleRun schedule).1 (sampleRun schedule).2.1 (sampleRun schedule).2.2 :=
  Prog.run_runSchedule schedule sampleSession sampleHandlers

/-- The last command wins when the handlers run one after the other. -/
theorem last_command_wins_in_order :
    LastCommandWins (sampleRun oneAfterTheOther).2.1 (sampleRun oneAfterTheOther).1 := by
  have hPresent : ¬ ParamEmpty (sampleMembers "s" false) := by decide +kernel
  have hEnded : ((sampleRun oneAfterTheOther).2.2 .start).ended.isSome = true ∧
      ((sampleRun oneAfterTheOther).2.2 .stop).ended.isSome = true := by decide +kernel
  have hStaysOff : Prog.StaysOff (statusWrite sampleSetup.codePage) .stop
        (sampleRun oneAfterTheOther).1 ∧
      Prog.StaysOff streamCall .stop (sampleRun oneAfterTheOther).1 ∧
      Prog.StaysOff keyboardWrite .stop (sampleRun oneAfterTheOther).1 := by decide +kernel
  exact (last_command_wins_iff parse_sampleData (startReadable_sampleMembers _ _) hPresent rfl
    (run_sampleRun oneAfterTheOther) hEnded.1 hEnded.2).mpr
    ⟨fun _ => hStaysOff.1, hStaysOff.2.1, hStaysOff.2.2⟩

/-- It does not when StopGame runs while StartGame waits. -/
theorem start_wins_after_wait :
    Prog.Run (sessionHandler sampleSetup.codePage) sampleSession sampleHandlers
      (sampleRun stopDuringWait).1 (sampleRun stopDuringWait).2.1 (sampleRun stopDuringWait).2.2 ∧
    ((sampleRun stopDuringWait).2.2 .start).ended.isSome = true ∧
    ((sampleRun stopDuringWait).2.2 .stop).ended.isSome = true ∧
    ¬ LastCommandWins (sampleRun stopDuringWait).2.1 (sampleRun stopDuringWait).1 := by
  have hRun : ((sampleRun stopDuringWait).2.2 .start).ended.isSome = true ∧
      ((sampleRun stopDuringWait).2.2 .stop).ended.isSome = true ∧
      (sampleRun stopDuringWait).2.1.getGameStatus = 1 := by decide +kernel
  obtain ⟨hStart, hStop, hStatus⟩ := hRun
  refine ⟨run_sampleRun stopDuringWait, hStart, hStop, fun hWins => ?_⟩
  rw [hWins.1] at hStatus
  cases hStatus

end PushStreamer
