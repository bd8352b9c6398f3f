import PushStreamer.Session.LastCommand
import PushStreamer.Session.Overlap

/-!
# StopGame undoes StartGame

A StartGame that is carried out fully, and then a StopGame, without overlap.
StartGame pushes the stream and starts the keyboard thread whatever `m_mode` is,
with the texts in the code page; StopGame closes the stream and stops the
keyboard thread only in the modes that use them, with the texts in UTF-8.

* `calls_of_start` — the calls of StartGame on the stream.
* `exec_stopGameCallback` — what StopGame does with stream, status and keyboard.
* `game_gone` — StopGame kills the game of the session.
* `undone_iff` — when everything is undone.
-/

namespace PushStreamer

open Value

-- ---------------------------------------------------------------------------
-- What is to be undone
-- ---------------------------------------------------------------------------

/-- The members that `StopGameCallback` reads with `asCString`. -/
def stopTexts : List String := ["gameId", "roomId", "serverUrl", "playerUrl", "controlUrl", "port"]

/-- A well-formed StopGame payload: every member can be read, and a server, a
control server and a port are named. -/
structure StopMessage (setup : Setup) where
  data : String
  members : List (String × Value)
  parses : setup.parse data = some (.obj members)
  texts : ∀ name ∈ stopTexts, ∃ text, member members name = .str text
  isForce : FitsInt (member members "isForce")
  named : ∀ name ∈ ["serverUrl", "controlUrl", "port"], memberText members name ≠ ""

/-- The calls on the stream, with the room and the server. -/
inductive StreamCall where
  | close (port url : String)
  | push (args : PushArgs)
deriving DecidableEq

def streamCallOf : Event sessionSig → Option StreamCall
  | ⟨.closepush port url, _⟩ => some (.close port url)
  | ⟨.push args, _⟩ => some (.push args)
  | _ => none

/-- Every push is followed by a `closepush` with its room and server. -/
def PushesClosed (calls : List StreamCall) : Prop :=
  ∀ before args after, calls = before ++ .push args :: after →
    .close args.port args.url ∈ after

/-- The recorded status is 0, every push is closed, and neither the keyboard
thread nor a process of `exe` is left. -/
def Undone (exe : String) (s' : Session) (t : List (Event sessionSig)) : Prop :=
  s'.getGameStatus = 0 ∧ PushesClosed (t.filterMap streamCallOf) ∧ s'.keyBoardThread = none ∧
    ¬ Running exe s'.processes

/-- A process of `exe` that is gone does not come back. -/
def StaysGone (exe : String) (e : Env) : Prop :=
  ∀ processes, ¬ Running exe processes → ¬ Running exe (e.evolve processes)

-- ---------------------------------------------------------------------------
-- What StartGame leaves
-- ---------------------------------------------------------------------------

section

variable {setup : Setup} {A : Env → Prop} {s s' : Session} {t : List (Event sessionSig)}

theorem streamCallOf_of_kind (ev : Event sessionSig) (h : SessionOp.kind ev.op ≠ .stream) :
    streamCallOf ev = none := by
  obtain ⟨o, r⟩ := ev
  cases o with
  | push args => exact absurd rfl h
  | closepush port url => exact absurd rfl h
  | _ => rfl

/-- The part of StartGame that carries a payload out. -/
theorem carryOut_of_carriedOut {m : StartMessage setup} {r : Except JsonFailure Unit}
    (h : Prog.Exec (sessionHandler setup.codePage) A
      (startGameCallback setup m.data .normalModel) s t r s') (hCarried : CarriedOut s' t) :
    m.Accepted ∧ ∃ f sRead s₁ t₁ t₂, t = t₁ ++ t₂ ∧ pushParams f = sessionParams m.members ∧
      Prog.Exec (sessionHandler setup.codePage) A (beforeCheck setup m.gameId) s t₁ sRead s₁ ∧
      Prog.Exec (sessionHandler setup.codePage) A (carryOut setup m.gameId m.data f .normalModel)
        s₁ t₂ () s' := by
  have hText : memberText m.members "gameId" = m.gameId := by rw [memberText, m.names]
  have hPushed := hCarried.2.1
  rcases startGameCallback_inversion m.parses h with ⟨-, -, hKinds⟩ |
    ⟨hReadable, -, f, deviceNo, sRead, s₁, t₁, t₂, rfl, hFields, hBefore, hAccept⟩
  · rw [any_eq_false_of_kinds hKinds kind_of_isPushed (by decide)] at hPushed
    cases hPushed
  rw [hText] at hBefore hAccept
  rw [acceptOrAnswer] at hAccept
  split at hAccept
  case isTrue hMissing =>
    -- an answered payload pushes nothing
    have hKinds₁ := (uses_beforeCheck setup m.gameId).kinds hBefore.path
    have hKinds₂ := (uses_messageFeedBack "StartGame" "-2"
      "StartGameCallback json param format failure!").kinds hAccept.path
    rw [List.any_append, any_eq_false_of_kinds hKinds₁ kind_of_isPushed (by decide),
      any_eq_false_of_kinds hKinds₂ kind_of_isPushed (by decide)] at hPushed
    cases hPushed
  case isFalse hPresent =>
    refine ⟨⟨hReadable, fun hEmpty => hPresent ?_⟩, f, sRead, s₁, t₁, t₂, rfl,
      pushParams_of_readStartGame setup m.members deviceNo hFields, hBefore, hAccept⟩
    rw [← hText]
    exact (paramMissing_iff hFields).mpr hEmpty

/-- A stream that was pushed was closed first, and not again. -/
theorem calls_pushStreamerAction {params : PushStreamerParams} {u : Unit}
    (h : Prog.Path (pushStreamerAction setup params) t u) (hPushed : t.any isPushed = true) :
    t.filterMap streamCallOf =
      [.close (setup.codePage.recode params.roomId) (setup.codePage.recode params.serverUrl),
        .push (pushArgs setup params)] := by
  rcases pushStreamerAction_trace h with rfl | ⟨ret, rfl⟩
  · cases hPushed
  · rfl

/-- The calls of StartGame on the stream. -/
theorem calls_of_start {m : StartMessage setup} {r : Except JsonFailure Unit}
    (h : Prog.Exec (sessionHandler setup.codePage) A
      (startGameCallback setup m.data .normalModel) s t r s') (hCarried : CarriedOut s' t) :
    t.filterMap streamCallOf =
      [.close (setup.codePage.recode (sessionParams m.members).roomId)
          (setup.codePage.recode (sessionParams m.members).serverUrl),
        .push (pushArgs setup (sessionParams m.members))] := by
  obtain ⟨-, f, sRead, s₁, t₁, t₂, rfl, hParams, hBefore, hCarry⟩ :=
    carryOut_of_carriedOut h hCarried
  -- the push is the only part of the start that calls the stream
  obtain ⟨tStart, tRest, _, rfl, hStart, h₁⟩ := Prog.path_bind.mp hCarry.path
  obtain ⟨tPush, tKey, _, rfl, hPush, hKey⟩ := Prog.path_bind.mp h₁
  have hUsesStart := uses_startGameAction setup m.gameId f.startGameParams m.data f.force
  have hUsesKey := uses_startKeyboardAction setup m.gameId f.controlUrl f.keyboardLoginParams
  have hUsesBefore := uses_beforeCheck setup m.gameId
  have hKey' := (Prog.path_onlyIf rfl).mp hKey
  have hPushed := hCarried.2.1
  rw [List.any_append, List.any_append, List.any_append,
    any_eq_false_of_kinds (hUsesBefore.kinds hBefore.path) kind_of_isPushed (by decide),
    any_eq_false_of_kinds (hUsesStart.kinds hStart) kind_of_isPushed (by decide),
    any_eq_false_of_kinds (hUsesKey.kinds hKey') kind_of_isPushed (by decide), Bool.false_or,
    Bool.false_or, Bool.or_false] at hPushed
  rw [List.filterMap_append, List.filterMap_append, List.filterMap_append,
    hUsesBefore.writes_nil (by decide) streamCallOf_of_kind _ _ hBefore.path,
    hUsesStart.writes_nil (by decide) streamCallOf_of_kind _ _ hStart,
    hUsesKey.writes_nil (by decide) streamCallOf_of_kind _ _ hKey',
    calls_pushStreamerAction hPush hPushed, hParams]
  rfl

/-- StartGame leaves its game and its parameters in the session. -/
theorem gameId_of_start {m : StartMessage setup} {r : Except JsonFailure Unit}
    (h : Prog.Exec (sessionHandler setup.codePage) A
      (startGameCallback setup m.data .normalModel) s t r s') (hAccepted : m.Accepted) :
    s'.gameId = m.gameId ∧ s'.pushStreamerParams = sessionParams m.members := by
  have hWrites := writes_accepted m hAccepted t r h.path
  have hRegister : ∀ {τ : Type} (register : SessionWrite → Option τ),
      t.filterMap (registerWrite setup.codePage register) =
        (t.filterMap (sessionWrite setup.codePage)).filterMap register := fun register => by
    rw [List.filterMap_filterMap]
    rfl
  rw [h.register exec_gameId, h.register exec_pushStreamerParams, hRegister, hRegister, hWrites]
  exact ⟨rfl, rfl⟩

/-- StartGame leaves a keyboard thread. -/
theorem keyboard_of_start {m : StartMessage setup} {r : Except JsonFailure Unit}
    (h : Prog.Exec (sessionHandler setup.codePage) A
      (startGameCallback setup m.data .normalModel) s t r s') (hAccepted : m.Accepted)
    (hCarried : CarriedOut s' t) : s'.keyBoardThread ≠ none := by
  have hStarted : true ∈ t.filterMap keyboardWrite := by
    obtain ⟨ev, hMem, hStart⟩ := List.any_eq_true.mp hCarried.2.2
    refine List.mem_filterMap.mpr ⟨ev, hMem, ?_⟩
    obtain ⟨o, r⟩ := ev
    cases o with
    | startKeyBoardThread args => exact congrArg some hStart
    | _ => cases hStart
  obtain ⟨b, hKeyboard⟩ : ∃ b, t.filterMap keyboardWrite = [false, b] := by
    obtain ⟨b, hWrites | hWrites⟩ := start_writes m.parses hAccepted.1 hAccepted.2 h.path
    · exact ⟨b, (Prod.mk.inj (Prod.mk.inj hWrites).2).2⟩
    · exact ⟨b, (Prod.mk.inj (Prod.mk.inj hWrites).2).2⟩
  have hRunning : keyboardRunning s' = b := by
    rw [h.register exec_keyboardRunning, hKeyboard]
    rfl
  intro hNone
  rw [hKeyboard] at hStarted
  rw [keyboardRunning, hNone] at hRunning
  subst hRunning
  simp at hStarted

/-- A game that was waited for has an executable. -/
theorem gameExe_of_start {m : StartMessage setup} {r : Except JsonFailure Unit}
    (h : Prog.Exec (sessionHandler setup.codePage) A
      (startGameCallback setup m.data .normalModel) s t r s') (hCarried : CarriedOut s' t) :
    gameExe setup m.gameId ≠ "" := by
  obtain ⟨-, f, sRead, s₁, t₁, t₂, -, -, -, hCarry⟩ := carryOut_of_carriedOut h hCarried
  obtain ⟨tStart, tRest, _, -, hStart, -⟩ := Prog.path_bind.mp hCarry.path
  obtain ⟨tLaunch, tRest, _, -, -, hRest⟩ := Prog.path_bind.mp hStart
  obtain ⟨tWait, tRecord, _, -, hWait, -⟩ := Prog.path_bind.mp hRest
  intro hNone
  have hForever : waitForGame setup m.gameId = poll .sleep fun _ => true :=
    if_neg (not_not.mpr hNone)
  rw [hForever] at hWait
  exact Prog.not_path_forever hWait

end

-- ---------------------------------------------------------------------------
-- What StopGame does
-- ---------------------------------------------------------------------------

/-- The keyboard thread is created or deleted. -/
def keyboardCreated : Event sessionSig → Option Bool
  | ⟨.startKeyBoardThread _, _⟩ => some true
  | ⟨.stopKeyBoardThread, _⟩ => some false
  | _ => none

def hasKeyBoardThread (s : Session) : Bool := s.keyBoardThread.isSome

/-- Whether there is a keyboard thread is a register of the session. -/
theorem exec_keyboardCreated {codePage : CodePage} (e : Env) (s : Session) (o : SessionOp) :
    hasKeyBoardThread ((sessionHandler codePage).exec e s o).2 =
      (keyboardCreated ⟨o, ((sessionHandler codePage).exec e s o).1⟩).getD
        (hasKeyBoardThread s) := by
  cases o with
  | setKeyBoardGamePid => exact Option.isSome_map
  | _ => rfl

theorem keyboardCreated_of_kind (ev : Event sessionSig) (h : SessionOp.kind ev.op ≠ .keyboard) :
    keyboardCreated ev = none := by
  obtain ⟨o, r⟩ := ev
  cases o with
  | startKeyBoardThread args => exact absurd rfl h
  | stopKeyBoardThread => exact absurd rfl h
  | _ => rfl

theorem statusWrite_of_kind {codePage : CodePage} (ev : Event sessionSig)
    (h : SessionOp.kind ev.op ≠ .record) : statusWrite codePage ev = none := by
  obtain ⟨o, r⟩ := ev
  cases o with
  | setValue key value => exact absurd rfl h
  | _ => rfl

/-- What a handler reads of the session agrees with `s` as far as StopGame
depends on it. -/
def ReadsAs (s : Session) : Event sessionSig → Prop
  | ⟨.get, (x : Session)⟩ => x.mode = s.mode ∧ x.pushStreamerParams = s.pushStreamerParams
  | _ => True

section

variable {setup : Setup} {A : Env → Prop} {s s' : Session} {t : List (Event sessionSig)}

/-- StopGame changes no parameters of the session. -/
theorem uses_stopSession :
    Uses [.query, .kill, .record, .protect, .report, .stream, .keyboard] stopSession := by
  have hRecord : ∀ gameId, Uses [.query, .kill, .record, .protect, .report, .stream, .keyboard]
      (recordStatus gameId 0) := fun gameId =>
    uses_bind (uses_act.mpr (by simp)) fun _ => uses_act.mpr (by simp)
  refine uses_bind (uses_act.mpr (by simp)) fun _ => uses_bind (uses_act.mpr (by simp)) fun s =>
    uses_bind (hRecord _) fun _ => uses_bind (uses_act.mpr (by simp)) fun s =>
    uses_bind (uses_act.mpr (by simp)) fun _ => uses_bind ?_ fun _ =>
    uses_bind (uses_act.mpr (by simp)) fun s => uses_bind (uses_onlyIf ?_) fun _ =>
    uses_onlyIf (uses_act.mpr (by simp))
  · exact uses_act.mpr (by simp [deviceStateReport])
  · exact uses_bind (uses_act.mpr (by simp)) fun _ => uses_pure _

/-- What StopGame reads of the session is what it began with. -/
theorem reads_stopSession {u : Unit}
    (h : Prog.Exec (sessionHandler setup.codePage) A stopSession s t u s') :
    ∀ ev ∈ t, ReadsAs s ev := by
  have hStep : ∀ (e : Env) (x : Session) (o : SessionOp), A e → ¬ SessionOp.kind o = .params →
      (x.mode = s.mode ∧ x.pushStreamerParams = s.pushStreamerParams) →
      ReadsAs s ⟨o, ((sessionHandler setup.codePage).exec e x o).1⟩ ∧
        ((sessionHandler setup.codePage).exec e x o).2.mode = s.mode ∧
        ((sessionHandler setup.codePage).exec e x o).2.pushStreamerParams =
          s.pushStreamerParams := by
    intro e x o _ hKind hx
    cases o with
    | get => exact ⟨hx, hx⟩
    | clearFunctionParams => exact absurd rfl hKind
    | setPushStreamerParams params => exact absurd rfl hKind
    | _ => exact ⟨trivial, hx⟩
  have hAvoids : Prog.Avoids (S := sessionSig) (fun o => SessionOp.kind o = .params) stopSession :=
    uses_stopSession.avoids fun o ho hKind => absurd (hKind ▸ ho) (by decide)
  exact (h.events hStep hAvoids ⟨rfl, rfl⟩).1

/-- The calls of StopGame on the stream, and what it does to the status and to
the keyboard thread. -/
theorem exec_stopSession {u : Unit}
    (h : Prog.Exec (sessionHandler setup.codePage) A stopSession s t u s') :
    t.filterMap streamCallOf =
      (if s.mode = .defaultMode ∨ s.mode = .onlyPushStreamer then
        [.close s.pushStreamerParams.roomId s.pushStreamerParams.serverUrl] else []) ∧
    t.filterMap keyboardCreated =
      (if s.mode = .defaultMode ∨ s.mode = .onlyKeyBoard then [false] else []) ∧
    t.filterMap (statusWrite setup.codePage) = [false] := by
  have hReads := reads_stopSession h
  obtain ⟨s₁, s₂, s₃, t₁, t₂, rfl, hStream, rfl⟩ := stopSession_trace h.path
  obtain ⟨hMode, hParams⟩ : s₃.mode = s.mode ∧ s₃.pushStreamerParams = s.pushStreamerParams :=
    hReads ⟨.get, s₃⟩ (by simp)
  rw [hMode, hParams] at hStream
  rw [hMode]
  -- the part that depends on the mode
  have hClose : t₁.filterMap streamCallOf =
        (if s.mode = .defaultMode ∨ s.mode = .onlyPushStreamer then
          [.close s.pushStreamerParams.roomId s.pushStreamerParams.serverUrl] else []) ∧
      t₁.filterMap keyboardCreated = [] ∧ t₁.filterMap (statusWrite setup.codePage) = [] := by
    split at hStream
    case isTrue hOpen =>
      obtain ⟨ret, rfl⟩ := hStream
      rw [if_pos hOpen]
      exact ⟨rfl, rfl, rfl⟩
    case isFalse hShut =>
      subst hStream
      rw [if_neg hShut]
      exact ⟨rfl, rfl, rfl⟩
  obtain ⟨hCalls, hCreated, hStatus⟩ := hClose
  have hZero : decide (toInt (setup.codePage.recode "0").toList ≠ 0) = false := by
    rw [setup.codePage.recode_eq (by decide)]
    decide
  refine ⟨?_, ?_, ?_⟩
  · show (t₁ ++ _).filterMap streamCallOf = _
    rw [List.filterMap_append, hCalls]
    split_ifs <;> rfl
  · show (t₁ ++ _).filterMap keyboardCreated = _
    rw [List.filterMap_append, hCreated]
    split_ifs <;> rfl
  · show decide (toInt (setup.codePage.recode "0").toList ≠ 0) ::
      (t₁ ++ _).filterMap (statusWrite setup.codePage) = [false]
    rw [List.filterMap_append, hStatus, hZero]
    split_ifs <;> rfl

/-- Once the process is gone, it stays so. -/
theorem exec_staysGone {exe : String} {codePage : CodePage} (e : Env) (x : Session)
    (o : SessionOp) (he : StaysGone exe e) (hGone : ¬ Running exe x.processes) :
    ¬ Running exe ((sessionHandler codePage).exec e x o).2.processes := by
  have hEvolve : ¬ Running exe (e.evolve x.processes) := he _ hGone
  have hWithout : ∀ name, ¬ Running exe (withoutProcess name (e.evolve x.processes)) :=
    fun _ hRunning => hEvolve (running_withoutProcess.mp hRunning).1
  cases o with
  | lastGaspGoalPushStreamer => exact hWithout _
  | killGameByName name => exact hWithout name
  | _ => exact hEvolve

/-- So no execution brings it back. -/
theorem gone_of_exec {α : Type} {exe : String} {codePage : CodePage} {p : SProg α} {a : α}
    (hA : ∀ e, A e → StaysGone exe e) (hGone : ¬ Running exe s.processes)
    (h : Prog.Exec (sessionHandler codePage) A p s t a s') : ¬ Running exe s'.processes := by
  induction h with
  | ret a s => exact hGone
  | step e he _ ih => exact ih (exec_staysGone e _ _ (hA e he) hGone)

/-- A program without steps of the kind `params` keeps the game. -/
theorem Uses.keeps_gameId {α : Type} {ks : List Kind} {p : SProg α} (hUses : Uses ks p)
    (hNot : Kind.params ∉ ks) {codePage : CodePage} {a : α}
    (h : Prog.Exec (sessionHandler codePage) A p s t a s') : s'.gameId = s.gameId := by
  refine h.keeps (K := fun o => SessionOp.kind o = .params) (fun e x o ho => ?_)
    (hUses.avoids fun _ ho hKind => hNot (hKind ▸ ho))
  cases o with
  | setGameId gameId => exact absurd rfl ho
  | _ => rfl

/-- The game of the session is killed, and stays gone. -/
theorem gone_of_killCurrentGame {exe : String} {u : Unit} (hA : ∀ e, A e → StaysGone exe e)
    (hExe : gameExe setup s.gameId = exe) (hNe : exe ≠ "")
    (h : Prog.Exec (sessionHandler setup.codePage) A (killCurrentGame setup) s t u s') :
    ¬ Running exe s'.processes := by
  obtain ⟨e, tRest, -, -, h₁⟩ := Prog.exec_then.mp h
  have hGame : gameExe setup
      (Session.gameId ((sessionHandler setup.codePage).exec e s .get).1) = exe := hExe
  rw [hGame, Prog.onlyIf_pos hNe] at h₁
  obtain ⟨e₂, tReport, -, -, hReport⟩ := Prog.exec_then.mp h₁
  exact gone_of_exec hA (fun hRunning => (running_withoutProcess.mp hRunning).2 rfl) hReport

/-- The force of a well-formed payload is read. -/
theorem readIsForce_ok (m : StopMessage setup) : ∃ b, readIsForce (.obj m.members) = .ok b := by
  unfold readIsForce
  rw [isMember_of_members rfl, index_of_members rfl]
  simp only [bind, Except.bind, asInt_eq m.isForce]
  split
  · exact ⟨_, rfl⟩
  · exact ⟨_, rfl⟩

/-- The texts of a well-formed payload are read. -/
theorem readStopGame_ok (m : StopMessage setup) : readStopGame (.obj m.members) =
    .ok (memberText m.members "serverUrl", memberText m.members "controlUrl",
      memberText m.members "port") := by
  have hText : ∀ name ∈ stopTexts, readText (.obj m.members) name =
      .ok (memberText m.members name) := fun name hName => readText_eq (m.texts name hName)
  simp only [readStopGame, bind, Except.bind, hText "gameId" (by decide),
    hText "roomId" (by decide), hText "serverUrl" (by decide), hText "playerUrl" (by decide),
    hText "controlUrl" (by decide), hText "port" (by decide)]
  rfl

/-- **The game is gone** after a well-formed StopGame. -/
theorem game_gone (m : StopMessage setup) {exe : String} {r : Except JsonFailure Unit}
    (hA : ∀ e, A e → StaysGone exe e) (hExe : gameExe setup s.gameId = exe) (hNe : exe ≠ "")
    (h : Prog.Exec (sessionHandler setup.codePage) A (stopGameCallback setup m.data) s t r s') :
    ¬ Running exe s'.processes := by
  have hData : m.data ≠ "" := Setup.ne_of_parse m.parses
  obtain ⟨isForce, hForce⟩ := readIsForce_ok m
  obtain ⟨t₁, t₂, _, s₁, rfl, hStop, hRest⟩ := Prog.exec_bind.mp h
  rw [if_neg hData, m.parses] at hRest
  have hGame : Prog.Exec (sessionHandler setup.codePage) A (stopGame setup (.obj m.members))
      s₁ t₂ r s' := hRest
  rw [stopGame, hForce] at hGame
  dsimp only at hGame
  rw [readStopGame_ok] at hGame
  obtain ⟨t₃, t₄, _, s₂, rfl, hFirst, hSecond⟩ := Prog.exec_bind.mp hGame
  obtain ⟨t₅, t₆, _, s₃, rfl, hKill, hPure⟩ := Prog.exec_bind.mp hSecond
  obtain ⟨-, -, rfl⟩ := Prog.exec_pure.mp hPure
  have hNamed : memberText m.members "serverUrl" ≠ "" ∧ memberText m.members "controlUrl" ≠ "" ∧
      memberText m.members "port" ≠ "" :=
    ⟨m.named _ (by decide), m.named _ (by decide), m.named _ (by decide)⟩
  rw [Prog.onlyIf_pos hNamed] at hKill
  have hKept₁ := uses_stopSession.keeps_gameId (by decide) hStop
  have hKept₂ := (uses_onlyIf (uses_killCurrentGame setup)).keeps_gameId (by decide) hFirst
  exact gone_of_killCurrentGame hA (by rw [hKept₂, hKept₁, hExe]) hNe hKill

/-- What StopGame leaves of status, stream and keyboard thread. -/
theorem exec_stopGameCallback (m : StopMessage setup) {r : Except JsonFailure Unit}
    (h : Prog.Exec (sessionHandler setup.codePage) A (stopGameCallback setup m.data) s t r s') :
    s'.getGameStatus = 0 ∧
    t.filterMap streamCallOf =
      (if s.mode = .defaultMode ∨ s.mode = .onlyPushStreamer then
        [.close s.pushStreamerParams.roomId s.pushStreamerParams.serverUrl] else []) ∧
    (s'.keyBoardThread = none ↔
      (s.mode = .defaultMode ∨ s.mode = .onlyKeyBoard) ∨ s.keyBoardThread = none) := by
  have hFold := h.register_map exec_statusOf
  have hCreated := h.register exec_keyboardCreated
  obtain ⟨t₁, t₂, _, s₁, rfl, hStop, hRest⟩ := Prog.exec_bind.mp h
  obtain ⟨hCalls₁, hCreated₁, hStatus₁⟩ := exec_stopSession hStop
  have hNothing : ∀ {τ : Type} {k : Kind} {w : Event sessionSig → Option τ},
      k ∉ [.query, .kill, .report] → (∀ ev, SessionOp.kind ev.op ≠ k → w ev = none) →
        t₂.filterMap w = [] := fun hk hw =>
    (uses_rest_of_stopGame m.data).writes_nil hk hw _ _ hRest.path
  -- what StopGame does after its session part concerns neither
  rw [List.filterMap_append, hStatus₁,
    hNothing (by decide) statusWrite_of_kind] at hFold
  rw [List.filterMap_append, hCreated₁,
    hNothing (by decide) keyboardCreated_of_kind] at hCreated
  refine ⟨?_, ?_, ?_⟩
  · rw [getGameStatus_eq_zero_iff, hFold]
    cases statusOf s <;> simp
  · rw [List.filterMap_append, hCalls₁,
      hNothing (by decide) streamCallOf_of_kind, List.append_nil]
  · have hNone : ∀ x : Session, x.keyBoardThread = none ↔ hasKeyBoardThread x = false := fun x => by
      rw [hasKeyBoardThread, Option.isSome_eq_false_iff, Option.isNone_iff_eq_none]
    rw [hNone, hNone, hCreated]
    by_cases hMode : s.mode = .defaultMode ∨ s.mode = .onlyKeyBoard
    · simp [hMode]
    · simp [hMode]

end

-- ---------------------------------------------------------------------------
-- Both handlers
-- ---------------------------------------------------------------------------

/-- With one push it is enough to look at what comes behind it. -/
theorem pushesClosed_iff {port url : String} {args : PushArgs} {after : List StreamCall}
    (hAfter : ∀ args, .push args ∉ after) :
    PushesClosed (.close port url :: .push args :: after) ↔ .close args.port args.url ∈ after := by
  constructor
  · intro h
    exact h [.close port url] args after rfl
  · rintro hMem before args' after' hSplit
    rcases before with _ | ⟨call, _ | ⟨call', before⟩⟩
    · cases hSplit
    · obtain ⟨-, hRest⟩ := List.cons.inj hSplit
      obtain ⟨hPush, rfl⟩ := List.cons.inj hRest
      obtain rfl := StreamCall.push.inj hPush
      exact hMem
    · -- there is no second push
      obtain ⟨-, hRest⟩ := List.cons.inj hSplit
      obtain ⟨-, rfl⟩ := List.cons.inj hRest
      exact absurd (List.mem_append_right before List.mem_cons_self) (hAfter args')

/-- **StopGame undoes StartGame** just when `m_mode` is the default one and the
code page keeps the room and the server address. -/
theorem undone_iff {setup : Setup} {m : StartMessage setup} {stop : StopMessage setup}
    {s s₁ s₂ : Session} {t₁ t₂ : List (Event sessionSig)} {r₁ r₂ : Except JsonFailure Unit}
    (hStart : Prog.Exec (sessionHandler setup.codePage) (fun _ => True)
      (startGameCallback setup m.data .normalModel) s t₁ r₁ s₁) (hCarried : CarriedOut s₁ t₁)
    (hStop : Prog.Exec (sessionHandler setup.codePage) (StaysGone (gameExe setup m.gameId))
      (stopGameCallback setup stop.data) s₁ t₂ r₂ s₂) :
    Undone (gameExe setup m.gameId) s₂ (t₁ ++ t₂) ↔
      s.mode = .defaultMode ∧
      setup.codePage.recode (sessionParams m.members).roomId = (sessionParams m.members).roomId ∧
      setup.codePage.recode (sessionParams m.members).serverUrl =
        (sessionParams m.members).serverUrl := by
  obtain ⟨hAccepted, -⟩ := carryOut_of_carriedOut hStart hCarried
  obtain ⟨hGame, hParams⟩ := gameId_of_start hStart hAccepted
  have hKeyboard := keyboard_of_start hStart hAccepted hCarried
  have hGone := game_gone stop (fun _ he => he) (congrArg (gameExe setup) hGame)
    (gameExe_of_start hStart hCarried) hStop
  obtain ⟨hStatus, hCalls, hLeft⟩ := exec_stopGameCallback stop hStop
  rw [mode_of_exec hStart, hParams] at hCalls
  rw [mode_of_exec hStart] at hLeft
  -- StopGame pushes nothing, so that the last call decides
  have hNoPush : ∀ args, .push args ∉ t₂.filterMap streamCallOf := by
    intro args
    rw [hCalls]
    split <;> simp
  rw [Undone, List.filterMap_append, calls_of_start hStart hCarried, List.cons_append,
    List.singleton_append, pushesClosed_iff hNoPush, hLeft, hCalls]
  constructor
  · rintro ⟨-, hClosed, hThread, -⟩
    split at hClosed
    case isFalse => cases hClosed
    case isTrue hStream =>
      obtain ⟨hRoom, hUrl⟩ := StreamCall.close.inj (List.mem_singleton.mp hClosed)
      refine ⟨?_, hRoom, hUrl⟩
      rcases hThread with hKeys | hNone
      · -- the only mode in which StopGame does both
        rcases hStream with hDefault | hOnlyPush
        · exact hDefault
        · rcases hKeys with hDefault | hOnlyKeys
          · exact hDefault
          · rw [hOnlyPush] at hOnlyKeys
            cases hOnlyKeys
      · exact absurd hNone hKeyboard
  · rintro ⟨hMode, hRoom, hUrl⟩
    rw [if_pos (Or.inl hMode)]
    refine ⟨hStatus, List.mem_singleton.mpr ?_, Or.inl (Or.inl hMode), hGone⟩
    exact congrArg₂ StreamCall.close hRoom hUrl

/-! ## The same two messages in two modes -/

theorem gameId_sampleMembers : member (sampleMembers "s" false) "gameId" = .str "g1" := rfl

def sampleStartMessage : StartMessage sampleSetup where
  data := sampleData "s" false
  members := sampleMembers "s" false
  gameId := "g1"
  parses := parse_sampleData
  names := gameId_sampleMembers

theorem parse_sampleStopData :
    sampleSetup.parse sampleStopData = some (.obj sampleStopMembers) := by
  have hFind : (samplePayloads.find? fun p => p.1 = sampleStopData) =
      some (sampleStopData, .obj sampleStopMembers) :=
    (List.find?_cons_of_neg (by decide +kernel)).trans
      ((List.find?_cons_of_neg (by decide +kernel)).trans
        ((List.find?_cons_of_neg (by decide +kernel)).trans
          (List.find?_cons_of_pos (decide_eq_true rfl))))
  rw [sampleSetup_parse, hFind, Option.map_some]

def sampleStopMessage : StopMessage sampleSetup where
  data := sampleStopData
  members := sampleStopMembers
  parses := parse_sampleStopData
  texts := by
    rw [stopTexts]
    simp only [List.forall_mem_cons, List.not_mem_nil, false_imp_iff, implies_true, and_true]
    exact ⟨⟨_, rfl⟩, ⟨_, rfl⟩, ⟨_, rfl⟩, ⟨_, rfl⟩, ⟨_, rfl⟩, ⟨_, rfl⟩⟩
  isForce := trivial
  named := by decide

/-- Processes start and end only when they are told to. -/
def processesKept : Env := { evolve := id, closepush := true, push := true }

def undoStart (mode : UiMode) :
    Option (List (Event sessionSig) × Except JsonFailure Unit × Session) :=
  Prog.eval (sessionHandler sampleSetup.codePage) (List.replicate 20 envWith)
    (startGameCallback sampleSetup sampleStartMessage.data .normalModel) { sampleSession with mode }

def undoStop (s : Session) :
    Option (List (Event sessionSig) × Except JsonFailure Unit × Session) :=
  Prog.eval (sessionHandler sampleSetup.codePage) (List.replicate 14 processesKept)
    (stopGameCallback sampleSetup sampleStopMessage.data) s

/-- The trace of StartGame, the state between, the trace of StopGame and the last
state. -/
def undoRun (mode : UiMode) :
    Option (List (Event sessionSig) × Session × List (Event sessionSig) × Session) :=
  (undoStart mode).bind fun x => (undoStop x.2.2).map fun y => (x.1, x.2.2, y.1, y.2.2)

/-- What is evaluated are executions of the two handlers. -/
theorem exec_undoRun {mode : UiMode} {t₁ t₂ : List (Event sessionSig)} {s₁ s₂ : Session}
    (h : undoRun mode = some (t₁, s₁, t₂, s₂)) :
    (∃ r, Prog.Exec (sessionHandler sampleSetup.codePage) (fun _ => True)
      (startGameCallback sampleSetup sampleStartMessage.data .normalModel)
      { sampleSession with mode } t₁ r s₁) ∧
    ∃ r, Prog.Exec (sessionHandler sampleSetup.codePage)
      (StaysGone (gameExe sampleSetup sampleStartMessage.gameId))
      (stopGameCallback sampleSetup sampleStopMessage.data) s₁ t₂ r s₂ := by
  rw [undoRun, Option.bind_eq_some_iff] at h
  obtain ⟨⟨t, r₁, s⟩, hStart, hRest⟩ := h
  obtain ⟨⟨t', r₂, s'⟩, hStop, hLast⟩ := Option.map_eq_some_iff.mp hRest
  simp only [Prod.mk.injEq] at hLast
  obtain ⟨rfl, rfl, rfl, rfl⟩ := hLast
  refine ⟨⟨r₁, Prog.exec_of_eval (fun _ _ => trivial) hStart⟩, r₂,
    Prog.exec_of_eval (fun e he => ?_) hStop⟩
  obtain rfl := List.eq_of_mem_replicate he
  exact fun _ hGone => hGone

instance (s' : Session) (t : List (Event sessionSig)) : Decidable (CarriedOut s' t) := by
  unfold CarriedOut
  infer_instance

/-- In the default mode everything is undone. -/
theorem undone_in_default_mode :
    ∃ t₁ s₁ t₂ s₂, undoRun .defaultMode = some (t₁, s₁, t₂, s₂) ∧ CarriedOut s₁ t₁ ∧
      Undone (gameExe sampleSetup "g1") s₂ (t₁ ++ t₂) := by
  have hRun : (undoRun .defaultMode).map (fun x => decide (CarriedOut x.2.1 x.1)) = some true := by
    decide +kernel
  obtain ⟨⟨t₁, s₁, t₂, s₂⟩, hSome, hCarried⟩ := Option.map_eq_some_iff.mp hRun
  obtain ⟨⟨r₁, hStart⟩, r₂, hStop⟩ := exec_undoRun hSome
  exact ⟨t₁, s₁, t₂, s₂, hSome, of_decide_eq_true hCarried,
    (undone_iff hStart (of_decide_eq_true hCarried) hStop).mpr ⟨rfl, rfl, rfl⟩⟩

/-- In the keyboard mode StartGame pushes the stream, and StopGame does not close
it. -/
theorem push_left_in_keyboard_mode :
    ∃ t₁ s₁ t₂ s₂, ∃ r₁ r₂, Prog.Exec (sessionHandler sampleSetup.codePage) (fun _ => True)
        (startGameCallback sampleSetup sampleStartMessage.data .normalModel)
        { sampleSession with mode := .onlyKeyBoard } t₁ r₁ s₁ ∧
      CarriedOut s₁ t₁ ∧
      Prog.Exec (sessionHandler sampleSetup.codePage)
        (StaysGone (gameExe sampleSetup sampleStartMessage.gameId))
        (stopGameCallback sampleSetup sampleStopMessage.data) s₁ t₂ r₂ s₂ ∧
      ¬ Undone (gameExe sampleSetup "g1") s₂ (t₁ ++ t₂) := by
  have hRun : (undoRun .onlyKeyBoard).map (fun x => decide (CarriedOut x.2.1 x.1 ∧
      (x.1 ++ x.2.2.1).filterMap streamCallOf = [.close "r1" "https://s:4443/",
        .push (pushArgs sampleSetup (sessionParams sampleStartMessage.members))])) =
      some true := by
    decide +kernel
  obtain ⟨⟨t₁, s₁, t₂, s₂⟩, hSome, hBoth⟩ := Option.map_eq_some_iff.mp hRun
  obtain ⟨hCarried, hCalls⟩ := of_decide_eq_true hBoth
  obtain ⟨⟨r₁, hStart⟩, r₂, hStop⟩ := exec_undoRun hSome
  refine ⟨t₁, s₁, t₂, s₂, r₁, r₂, hStart, hCarried, hStop, fun hUndone => ?_⟩
  have hClosed := hUndone.2.1
  rw [hCalls, pushesClosed_iff (by simp)] at hClosed
  cases hClosed

end PushStreamer
