import PushStreamer.Lib.Register
import PushStreamer.Session.StartGame

/-!
# Two StartGame handlers at once

Each StartGame message gets a detached thread of its own, and `StopWorkThread`
joins none of them, so the handlers of two messages for different games can run
at the same time. Four registers of the session say whose game it is: the
recorded payload, the recorded game, `m_gameId` and `m_pushStreamerParams`. Each
handler writes them in several places, with unbounded waits in between.

* `writes_accepted`, `writes_rejected` — what one handler writes to them.
* `one_session_iff` — when they all hold the values of one message in the end.
-/

namespace PushStreamer

open Value

/-- The two messages. -/
inductive Sender where
  | first
  | second
deriving DecidableEq

theorem sender_cases {i j : Sender} (h : j ≠ i) (k : Sender) : k = i ∨ k = j := by
  cases i <;> cases j <;> cases k <;> simp at h ⊢

/-- A StartGame payload that names its game. -/
structure StartMessage (setup : Setup) where
  data : String
  members : List (String × Value)
  gameId : String
  parses : setup.parse data = some (.obj members)
  names : member members "gameId" = .str gameId

/-- Every member can be read, and none that the parameter check wants is empty. -/
def StartMessage.Accepted {setup : Setup} (m : StartMessage setup) : Prop :=
  StartReadable m.members ∧ ¬ ParamEmpty m.members

-- ---------------------------------------------------------------------------
-- The registers of a session
-- ---------------------------------------------------------------------------

/-- A write to one of the four registers. -/
inductive SessionWrite where
  | gameId (gameId : String)
  | params (params : PushStreamerParams)
  | recordedPayload (text : String)
  | recordedGame (gameId : String)

/-- What a step writes. -/
def sessionWrite (codePage : CodePage) : Event sessionSig → Option SessionWrite
  | ⟨.setGameId gameId, _⟩ => some (.gameId gameId)
  | ⟨.clearFunctionParams, _⟩ => some (.params .cleared)
  | ⟨.setPushStreamerParams params, _⟩ => some (.params params)
  | ⟨.setValue .startGameParame value, _⟩ => some (.recordedPayload (codePage.recode value))
  | ⟨.setValue .gameId value, _⟩ => some (.recordedGame (codePage.recode value))
  | _ => none

namespace SessionWrite

def gameId? : SessionWrite → Option String
  | .gameId id => some id
  | _ => none

def params? : SessionWrite → Option PushStreamerParams
  | .params p => some p
  | _ => none

def recordedPayload? : SessionWrite → Option String
  | .recordedPayload text => some text
  | _ => none

def recordedGame? : SessionWrite → Option String
  | .recordedGame id => some id
  | _ => none

end SessionWrite

/-- The writes to one register. -/
def registerWrite {τ : Type} (codePage : CodePage) (register : SessionWrite → Option τ)
    (ev : Event sessionSig) : Option τ :=
  (sessionWrite codePage ev).bind register

section

variable {codePage : CodePage} (e : Env) (s : Session) (o : SessionOp)

/-- The game of the session is a register of it, and so are the three texts below. -/
theorem exec_gameId :
    ((sessionHandler codePage).exec e s o).2.gameId =
      (registerWrite codePage SessionWrite.gameId?
        ⟨o, ((sessionHandler codePage).exec e s o).1⟩).getD s.gameId := by
  cases o with
  | setValue key value =>
    cases key with
    | _ => rfl
  | _ => rfl

theorem exec_pushStreamerParams :
    ((sessionHandler codePage).exec e s o).2.pushStreamerParams =
      (registerWrite codePage SessionWrite.params?
        ⟨o, ((sessionHandler codePage).exec e s o).1⟩).getD s.pushStreamerParams := by
  cases o with
  | setValue key value =>
    cases key with
    | _ => rfl
  | _ => rfl

/-- The recorded payload, and with it the game that it names. -/
def recordedPayload (s : Session) : Option String := s.record.map GameRecord.startGameParame

def recordedGame (s : Session) : Option String := s.record.map GameRecord.gameId

theorem exec_recordedPayload :
    recordedPayload ((sessionHandler codePage).exec e s o).2 =
      (recordedPayload s).map (registerWrite codePage SessionWrite.recordedPayload?
        ⟨o, ((sessionHandler codePage).exec e s o).1⟩).getD := by
  cases o with
  | setValue key value =>
    show (s.record.map _).map _ = (s.record.map _).map _
    rw [Option.map_map, Option.map_map]
    cases key with
    | _ => rfl
  | _ => exact Option.map_id'.symm

theorem exec_recordedGame :
    recordedGame ((sessionHandler codePage).exec e s o).2 =
      (recordedGame s).map (registerWrite codePage SessionWrite.recordedGame?
        ⟨o, ((sessionHandler codePage).exec e s o).1⟩).getD := by
  cases o with
  | setValue key value =>
    show (s.record.map _).map _ = (s.record.map _).map _
    rw [Option.map_map, Option.map_map]
    cases key with
    | _ => rfl
  | _ => exact Option.map_id'.symm

end

-- ---------------------------------------------------------------------------
-- What one handler writes
-- ---------------------------------------------------------------------------

section

variable {setup : Setup}

/-- Steps of other kinds write to none of the registers. -/
theorem writes_of_kinds {α : Type} {ks : List Kind} {p : SProg α} (h : Uses ks p)
    (hParams : Kind.params ∉ ks) (hRecord : Kind.record ∉ ks) :
    Prog.Writes (sessionWrite setup.codePage) p [] := by
  have hAvoids : Prog.Avoids (S := sessionSig)
      (fun o => SessionOp.kind o = .params ∨ SessionOp.kind o = .record) p := by
    refine h.avoids fun o ho hKind => ?_
    rcases hKind with hKind | hKind
    · exact hParams (hKind ▸ ho)
    · exact hRecord (hKind ▸ ho)
  refine Prog.Writes.of_avoids hAvoids ?_
  rintro ⟨o, r⟩ hNot
  cases o with
  | clearFunctionParams => exact absurd (Or.inl rfl) hNot
  | setGameId gameId => exact absurd (Or.inl rfl) hNot
  | setPushStreamerParams params => exact absurd (Or.inl rfl) hNot
  | setValue key value => exact absurd (Or.inr rfl) hNot
  | _ => rfl

/-- A step that writes the same whatever it returns. -/
theorem writes_act {o : SessionOp} {x : Option SessionWrite}
    (h : ∀ r, sessionWrite setup.codePage ⟨o, r⟩ = x) :
    Prog.Writes (sessionWrite setup.codePage) (act o) x.toList :=
  Prog.writes_perform h

/-- The launch writes none of the registers. -/
theorem writes_launchGame (gameId startGameParams data : String) (force : Int) :
    Prog.Writes (sessionWrite setup.codePage)
      (launchGame setup gameId startGameParams data force) [] := by
  have hStart : Uses [.query, .kill, .script, .report] (startGameByGameId setup gameId) :=
    (uses_startGameByGameId setup gameId).mono (by simp)
  refine (writes_act (x := none) fun _ => rfl).bind_nil fun _ => ?_
  -- after `m_startGameParams` no member is set
  have hKill : Uses [.query, .kill, .script, .report] (killAreadlyRunningGame setup gameId) :=
    (uses_killAreadlyRunningGame setup gameId).mono (by simp)
  have hUses : Uses [.query, .kill, .script, .report] (do
      Prog.onlyIf (gameId ≠ "" ∧ startGameParams = "null") activeReportGameStatus
      let gameIsRunning ← gameIsAreadlyRunning setup gameId
      if gameIsRunning then
        if force > 0 then do
          killAreadlyRunningGame setup gameId
          startGameByGameId setup gameId
        else pure ()
      else startGameByGameId setup gameId) :=
    uses_bind (uses_onlyIf (uses_activeReportGameStatus.mono (by simp))) fun _ =>
      uses_bind ((uses_gameIsAreadlyRunning setup gameId).mono (by simp)) fun _ =>
        uses_ite (uses_ite (uses_bind hKill fun _ => hStart) (uses_pure _)) hStart
  exact writes_of_kinds hUses (by decide) (by decide)

/-- What is recorded has gone through the code page. -/
theorem writes_recordInfo (data gameId : String) (status : Int) :
    Prog.Writes (sessionWrite setup.codePage) (recordInfo data gameId status)
      [.recordedPayload (setup.codePage.recode data),
        .recordedGame (setup.codePage.recode gameId)] :=
  (writes_act (x := some _) fun _ => rfl).bind fun _ =>
    (writes_act (x := none) fun _ => rfl).bind_nil fun _ =>
      writes_act (x := some _) fun _ => rfl

theorem writes_carryOut (gameId data : String) (f : StartGameFields) :
    Prog.Writes (sessionWrite setup.codePage) (carryOut setup gameId data f .normalModel)
      [.recordedPayload (setup.codePage.recode data),
        .recordedGame (setup.codePage.recode gameId), .params (pushParams f)] := by
  have hStart : Prog.Writes (sessionWrite setup.codePage)
      (startGameAction setup gameId f.startGameParams data f.force)
      [.recordedPayload (setup.codePage.recode data),
        .recordedGame (setup.codePage.recode gameId)] :=
    (writes_launchGame gameId f.startGameParams data f.force).bind_nil fun _ =>
      (writes_of_kinds (uses_waitForGame setup gameId) (by decide) (by decide)).bind_nil fun _ =>
        writes_recordInfo data gameId 1
  have hPush : Prog.Writes (sessionWrite setup.codePage)
      (pushStreamerAction setup (pushParams f)) [.params (pushParams f)] := by
    -- closing and pushing the stream writes no register, setting its parameters does
    have hUses : Uses [.stream] (do
        let ret : Bool ← act (.closepush (setup.codePage.recode (pushParams f).roomId)
          (setup.codePage.recode (pushParams f).serverUrl))
        Prog.onlyIf ret do
          let _ : Bool ← act (.push (pushArgs setup (pushParams f)))) :=
      uses_bind (uses_act.mpr (by simp)) fun _ =>
        uses_onlyIf (uses_bind (uses_act.mpr (by simp)) fun _ => uses_pure _)
    exact (writes_act (x := some _) fun _ => rfl).bind fun _ =>
      writes_of_kinds hUses (by decide) (by decide)
  have hKey : Prog.Writes (sessionWrite setup.codePage)
      (Prog.onlyIf (StartGameModel.normalModel = .normalModel)
        (startKeyboardAction setup gameId f.controlUrl f.keyboardLoginParams)) [] := by
    rw [Prog.onlyIf_pos rfl]
    exact writes_of_kinds (uses_startKeyboardAction setup gameId f.controlUrl
      f.keyboardLoginParams) (by decide) (by decide)
  exact hStart.bind fun _ => hPush.bind fun _ => hKey

/-- Up to the check, the parameters are cleared and the game is set. -/
theorem writes_callback (m : StartMessage setup) {xs : List SessionWrite}
    (hRest : ∀ s : Session, Prog.Writes (sessionWrite setup.codePage)
      (match readStartGame setup s.deviceNo (.obj m.members) with
        | .error e => pure (.error e)
        | .ok f => do
          acceptOrAnswer setup m.gameId m.data f .normalModel
          pure (.ok ()) : SProg (Except JsonFailure Unit)) xs) :
    Prog.Writes (sessionWrite setup.codePage) (startGameCallback setup m.data .normalModel)
      (.params .cleared :: .gameId m.gameId :: xs) := by
  have hData : m.data ≠ "" := Setup.ne_of_parse m.parses
  have hRead : readText (.obj m.members) "gameId" = .ok m.gameId := by
    have hText : memberText m.members "gameId" = m.gameId := by rw [memberText, m.names]
    rw [readText_eq ⟨_, m.names⟩, hText]
  have hGame : Prog.Writes (sessionWrite setup.codePage)
      (startGame setup m.data (.obj m.members) .normalModel) (.gameId m.gameId :: xs) := by
    unfold startGame
    rw [hRead]
    have hKill : Prog.Writes (sessionWrite setup.codePage) (foreachKillExe setup m.gameId) [] :=
      writes_of_kinds (uses_killOthers setup m.gameId _) (by decide) (by decide)
    exact hKill.bind_nil fun _ => (writes_act (x := some _) fun _ => rfl).bind fun _ =>
      (writes_act (x := none) fun _ => rfl).bind_nil hRest
  unfold startGameCallback
  rw [if_neg hData, m.parses]
  exact (writes_act (x := some _) fun _ => rfl).bind fun _ =>
    (writes_act (x := none) fun _ => rfl).bind_nil fun _ => hGame

/-- What an accepted payload writes, in this order. -/
theorem writes_accepted (m : StartMessage setup) (hAccepted : m.Accepted) :
    Prog.Writes (sessionWrite setup.codePage) (startGameCallback setup m.data .normalModel)
      [.params .cleared, .gameId m.gameId, .recordedPayload (setup.codePage.recode m.data),
        .recordedGame (setup.codePage.recode m.gameId), .params (sessionParams m.members)] := by
  refine writes_callback m fun s => ?_
  obtain ⟨hReadable, hPresent⟩ := hAccepted
  have hTexts : ∀ name ∈ startTexts.tail, ∃ text, member m.members name = .str text :=
    fun name hName => hReadable.1 name (List.mem_of_mem_tail hName)
  obtain ⟨f, hFields⟩ := (returns_readStartGame setup m.members s.deviceNo).mpr
    ⟨hTexts, hReadable.2⟩
  have hText : memberText m.members "gameId" = m.gameId := by rw [memberText, m.names]
  have hCheck : ¬ paramMissing m.gameId f := by
    intro hMissing
    rw [← hText] at hMissing
    exact hPresent ((paramMissing_iff hFields).mp hMissing)
  rw [hFields, ← pushParams_of_readStartGame setup m.members s.deviceNo hFields]
  dsimp only
  rw [acceptOrAnswer, if_neg hCheck]
  exact (writes_carryOut m.gameId m.data f).bind fun _ => Prog.writesNil_pure _

/-- A rejected payload clears the parameters and sets the game all the same. -/
theorem writes_rejected (m : StartMessage setup) (hRejected : ¬ m.Accepted) :
    Prog.Writes (sessionWrite setup.codePage) (startGameCallback setup m.data .normalModel)
      [.params .cleared, .gameId m.gameId] := by
  refine writes_callback m fun s => ?_
  cases hFields : readStartGame setup s.deviceNo (.obj m.members) with
  | error failure => exact Prog.writesNil_pure _
  | ok f =>
    have hText : memberText m.members "gameId" = m.gameId := by rw [memberText, m.names]
    have hRead := (returns_readStartGame setup m.members s.deviceNo).mp ⟨f, hFields⟩
    have hReadable : StartReadable m.members :=
      ⟨List.forall_mem_cons.mpr ⟨⟨_, m.names⟩, hRead.1⟩, hRead.2⟩
    -- everything was read, so the check has failed
    have hEmpty : ParamEmpty m.members := by
      by_contra hPresent
      exact hRejected ⟨hReadable, hPresent⟩
    have hCheck : paramMissing m.gameId f := by
      rw [← hText]
      exact (paramMissing_iff hFields).mpr hEmpty
    dsimp only
    rw [acceptOrAnswer, if_pos hCheck]
    have hAnswer : Prog.Writes (sessionWrite setup.codePage) (messageFeedBack "StartGame" "-2"
        "StartGameCallback json param format failure!") [] :=
      writes_of_kinds (uses_messageFeedBack _ _ _) (by decide) (by decide)
    exact hAnswer.bind_nil fun _ => Prog.writesNil_pure _

end

-- ---------------------------------------------------------------------------
-- Both handlers together
-- ---------------------------------------------------------------------------

section

variable {setup : Setup}

/-- The two handler threads. -/
def startHandlers (messages : Sender → StartMessage setup) :
    Sender → SProg (Except JsonFailure Unit) :=
  fun i => startGameCallback setup (messages i).data .normalModel

/-- All four registers hold the values of the message. -/
def Held (m : StartMessage setup) (s' : Session) : Prop :=
  recordedPayload s' = some (setup.codePage.recode m.data) ∧
    recordedGame s' = some (setup.codePage.recode m.gameId) ∧
    s'.gameId = m.gameId ∧ s'.pushStreamerParams = sessionParams m.members

/-- The session is that of one message, which was accepted. -/
def OneSession (messages : Sender → StartMessage setup) (s' : Session) : Prop :=
  ∃ i, (messages i).Accepted ∧ Held (messages i) s'

/-- The last write to the register is made by the handler `i`. -/
def LastWriteBy {τ : Type} (register : SessionWrite → Option τ)
    (log : List (Sender × Event sessionSig)) (i : Sender) (setup : Setup) : Prop :=
  ∃ v, Prog.lastWrite (registerWrite setup.codePage register) log = some (i, v)

/-- Both messages are accepted and write the same value. -/
def WriteTheSame {τ : Type} (messages : Sender → StartMessage setup)
    (val : StartMessage setup → τ) : Prop :=
  (∀ i, (messages i).Accepted) ∧ ∀ i j, val (messages i) = val (messages j)

/-- The handler that sets `m_gameId` last has an accepted message and writes last
to the other registers as well, as far as the messages differ there. -/
def OneWritesLast (messages : Sender → StartMessage setup)
    (log : List (Sender × Event sessionSig)) : Prop :=
  ∃ i, (messages i).Accepted ∧ LastWriteBy SessionWrite.gameId? log i setup ∧
    (LastWriteBy SessionWrite.recordedPayload? log i setup ∨
      WriteTheSame messages fun m => setup.codePage.recode m.data) ∧
    (LastWriteBy SessionWrite.recordedGame? log i setup ∨
      WriteTheSame messages fun m => setup.codePage.recode m.gameId) ∧
    (LastWriteBy SessionWrite.params? log i setup ∨
      WriteTheSame messages fun m => sessionParams m.members)

variable {messages : Sender → StartMessage setup} {s s' : Session}
  {log : List (Sender × Event sessionSig)} {threads : Sender → SProg (Except JsonFailure Unit)}

/-- The parameters of a session are not the cleared ones. -/
theorem sessionParams_ne_cleared (ms : List (String × Value)) :
    sessionParams ms ≠ PushStreamerParams.cleared := by
  intro hEq
  have hUrl : "https://" ++ memberText ms "serverUrl" ++ ":" ++ "4443" ++ "/" = "" :=
    congrArg PushStreamerParams.serverUrl hEq
  have hLength := congrArg String.length hUrl
  simp [String.length_append] at hLength

/-- What a finished handler has written to one register. -/
theorem registerWrites_of_run {τ : Type} (register : SessionWrite → Option τ)
    (hRun : Prog.Run (sessionHandler setup.codePage) s (startHandlers messages) log s' threads)
    (hEnded : ∀ i, (threads i).ended.isSome = true) (i : Sender) {xs : List SessionWrite}
    (hWrites : Prog.Writes (sessionWrite setup.codePage)
      (startGameCallback setup (messages i).data .normalModel) xs) :
    (Prog.threadTrace i log).filterMap (registerWrite setup.codePage register) =
      xs.filterMap register := by
  obtain ⟨r, hEnd⟩ := Option.isSome_iff_exists.mp (hEnded i)
  have hPath := hRun.path (Prog.ended_eq_some.mp hEnd)
  rw [← hWrites _ _ hPath, List.filterMap_filterMap]
  rfl

/-- The value that a register holds in the end is the one of the message `i` just
when its handler wrote last, or the other handler wrote the same value. -/
theorem lastWrite_value_iff {τ : Type} {register : SessionWrite → Option τ}
    (val : StartMessage setup → τ) {i : Sender} (hAccepted : (messages i).Accepted) {j : Sender}
    {v : τ} (hLast : Prog.lastWrite (registerWrite setup.codePage register) log = some (j, v))
    (hValue : (messages j).Accepted → v = val (messages j))
    (hRejected : ¬ (messages j).Accepted → v ≠ val (messages i)) :
    v = val (messages i) ↔ LastWriteBy register log i setup ∨ WriteTheSame messages val := by
  constructor
  · intro hEq
    by_cases hij : j = i
    · exact Or.inl ⟨v, by rw [hLast, hij]⟩
    · have hOther : (messages j).Accepted := by
        by_contra hNot
        exact hRejected hNot hEq
      have hSame : val (messages j) = val (messages i) := (hValue hOther).symm.trans hEq
      -- the two are all there are
      have hEither : ∀ {P : Sender → Prop}, P i → P j → ∀ k, P k := by
        intro P hi hj k
        rcases sender_cases hij k with rfl | rfl
        · exact hi
        · exact hj
      exact Or.inr ⟨hEither hAccepted hOther,
        hEither (hEither rfl hSame.symm) (hEither hSame rfl)⟩
  · rintro (⟨u, hBy⟩ | ⟨hAll, hSame⟩)
    · rw [hLast, Option.some.injEq, Prod.mk.injEq] at hBy
      obtain ⟨rfl, -⟩ := hBy
      exact hValue hAccepted
    · rw [hValue (hAll j)]
      exact hSame j i

/-- A register that the handler of `i` writes to has in the end a value that some
handler wrote. -/
theorem exists_lastWrite {τ : Type} (register : SessionWrite → Option τ)
    (hRun : Prog.Run (sessionHandler setup.codePage) s (startHandlers messages) log s' threads)
    (hEnded : ∀ i, (threads i).ended.isSome = true) {i : Sender} {xs : List SessionWrite}
    (hWrites : Prog.Writes (sessionWrite setup.codePage)
      (startGameCallback setup (messages i).data .normalModel) xs)
    (hSome : xs.filterMap register ≠ []) :
    ∃ j v, Prog.lastWrite (registerWrite setup.codePage register) log = some (j, v) := by
  obtain ⟨v, hv⟩ := List.exists_mem_of_ne_nil _ hSome
  rw [← registerWrites_of_run register hRun hEnded i hWrites] at hv
  exact Prog.lastWrite_of_write hv

/-- The last write of a handler is the last of what it writes. -/
theorem lastWrite_eq {τ : Type} {register : SessionWrite → Option τ}
    (hRun : Prog.Run (sessionHandler setup.codePage) s (startHandlers messages) log s' threads)
    (hEnded : ∀ i, (threads i).ended.isSome = true) {j : Sender} {v : τ} {xs : List SessionWrite}
    (hLast : Prog.lastWrite (registerWrite setup.codePage register) log = some (j, v))
    (hWrites : Prog.Writes (sessionWrite setup.codePage)
      (startGameCallback setup (messages j).data .normalModel) xs) :
    (xs.filterMap register).getLast? = some v := by
  rw [← registerWrites_of_run register hRun hEnded j hWrites]
  exact Prog.lastWrite_thread hLast

/-- `m_gameId` in the end. -/
theorem gameId_after_run
    (hRun : Prog.Run (sessionHandler setup.codePage) s (startHandlers messages) log s' threads)
    (hEnded : ∀ i, (threads i).ended.isSome = true)
    (hGames : (messages .first).gameId ≠ (messages .second).gameId) (i : Sender) :
    s'.gameId = (messages i).gameId ↔ LastWriteBy SessionWrite.gameId? log i setup := by
  -- accepted or not, a handler sets its own game
  have hSets : ∀ k, ∃ xs, Prog.Writes (sessionWrite setup.codePage)
      (startGameCallback setup (messages k).data .normalModel) xs ∧
        xs.filterMap SessionWrite.gameId? = [(messages k).gameId] := by
    intro k
    by_cases hAccepted : (messages k).Accepted
    · exact ⟨_, writes_accepted _ hAccepted, rfl⟩
    · exact ⟨_, writes_rejected _ hAccepted, rfl⟩
  obtain ⟨xs, hWrites, hOne⟩ := hSets i
  obtain ⟨j, v, hLast⟩ := exists_lastWrite SessionWrite.gameId? hRun hEnded hWrites
    (by rw [hOne]; exact List.cons_ne_nil _ _)
  obtain ⟨ys, hWrites', hOne'⟩ := hSets j
  have hValue : (messages j).gameId = v := by
    have hEq := lastWrite_eq hRun hEnded hLast hWrites'
    rw [hOne'] at hEq
    exact Option.some.inj hEq
  have hFinal : s'.gameId = (messages j).gameId := by
    rw [hRun.register exec_gameId, hLast, hValue]
    rfl
  have hInjective : ∀ k l, (messages k).gameId = (messages l).gameId → k = l := by
    intro k l hEq
    cases k with
    | first => cases l with
      | first => rfl
      | second => exact absurd hEq hGames
    | second => cases l with
      | first => exact absurd hEq.symm hGames
      | second => rfl
  rw [hFinal]
  constructor
  · intro hEq
    rw [← hInjective j i hEq]
    exact ⟨v, hLast⟩
  · rintro ⟨u, hBy⟩
    rw [hLast, Option.some.injEq, Prod.mk.injEq] at hBy
    rw [hBy.1]

/-- A value of the record in the end, for a register that only accepted messages
write. -/
theorem record_after_run {register : SessionWrite → Option String}
    (component : Session → Option String) (val : StartMessage setup → String)
    (hExec : ∀ e s o, component ((sessionHandler setup.codePage).exec e s o).2 =
      (component s).map (registerWrite setup.codePage register
        ⟨o, ((sessionHandler setup.codePage).exec e s o).1⟩).getD)
    (hVal : ∀ m : StartMessage setup, [SessionWrite.params .cleared, .gameId m.gameId,
      .recordedPayload (setup.codePage.recode m.data),
      .recordedGame (setup.codePage.recode m.gameId),
      .params (sessionParams m.members)].filterMap register = [val m])
    (hNone : ∀ m : StartMessage setup,
      [SessionWrite.params .cleared, .gameId m.gameId].filterMap register = [])
    (hOpen : ∃ v, component s = some v)
    (hRun : Prog.Run (sessionHandler setup.codePage) s (startHandlers messages) log s' threads)
    (hEnded : ∀ i, (threads i).ended.isSome = true) {i : Sender}
    (hAccepted : (messages i).Accepted) :
    component s' = some (val (messages i)) ↔
      LastWriteBy register log i setup ∨ WriteTheSame messages val := by
  obtain ⟨j, v, hLast⟩ := exists_lastWrite register hRun hEnded (writes_accepted _ hAccepted)
    (by rw [hVal]; exact List.cons_ne_nil _ _)
  obtain ⟨v₀, hOpen⟩ := hOpen
  have hFinal : component s' = some v := by
    rw [hRun.register_map hExec, hOpen, hLast]
    rfl
  -- a rejected message writes nothing
  have hOther : (messages j).Accepted := by
    by_contra hNot
    have hEq := lastWrite_eq hRun hEnded hLast (writes_rejected _ hNot)
    rw [hNone] at hEq
    cases hEq
  have hValue : v = val (messages j) := by
    have hEq := lastWrite_eq hRun hEnded hLast (writes_accepted _ hOther)
    rw [hVal] at hEq
    exact (Option.some.inj hEq).symm
  rw [hFinal, Option.some.injEq]
  exact lastWrite_value_iff val hAccepted hLast (fun _ => hValue) fun hNot => absurd hOther hNot

/-- `m_pushStreamerParams` in the end. -/
theorem params_after_run
    (hRun : Prog.Run (sessionHandler setup.codePage) s (startHandlers messages) log s' threads)
    (hEnded : ∀ i, (threads i).ended.isSome = true) {i : Sender}
    (hAccepted : (messages i).Accepted) :
    s'.pushStreamerParams = sessionParams (messages i).members ↔
      LastWriteBy SessionWrite.params? log i setup ∨
        WriteTheSame messages fun m => sessionParams m.members := by
  obtain ⟨j, v, hLast⟩ := exists_lastWrite SessionWrite.params? hRun hEnded
    (writes_accepted _ hAccepted) (List.cons_ne_nil _ _)
  have hFinal : s'.pushStreamerParams = v := by
    rw [hRun.register exec_pushStreamerParams, hLast]
    rfl
  rw [hFinal]
  refine lastWrite_value_iff (fun m => sessionParams m.members) hAccepted hLast
    (fun hOther => ?_) fun hNot => ?_
  · exact (Option.some.inj (lastWrite_eq hRun hEnded hLast (writes_accepted _ hOther))).symm
  · -- a rejected message leaves the parameters cleared
    obtain rfl := Option.some.inj (lastWrite_eq hRun hEnded hLast (writes_rejected _ hNot))
    exact fun hEq => sessionParams_ne_cleared _ hEq.symm

/-- **One session.** After the handlers of two messages for different games the
session is that of one of them just when the record file is open and the handler
that sets `m_gameId` last, of an accepted message, writes last to the other
registers too, as far as the messages differ there. -/
theorem one_session_iff (hGames : (messages .first).gameId ≠ (messages .second).gameId)
    (hRun : Prog.Run (sessionHandler setup.codePage) s (startHandlers messages) log s' threads)
    (hEnded : ∀ i, (threads i).ended.isSome = true) :
    OneSession messages s' ↔ s.record.isSome = true ∧ OneWritesLast messages log := by
  -- the four registers, for an accepted message and an open record
  have hHeld : s.record.isSome = true → ∀ i, (messages i).Accepted → (Held (messages i) s' ↔
      LastWriteBy SessionWrite.gameId? log i setup ∧
        (LastWriteBy SessionWrite.recordedPayload? log i setup ∨
          WriteTheSame messages fun m => setup.codePage.recode m.data) ∧
        (LastWriteBy SessionWrite.recordedGame? log i setup ∨
          WriteTheSame messages fun m => setup.codePage.recode m.gameId) ∧
        (LastWriteBy SessionWrite.params? log i setup ∨
          WriteTheSame messages fun m => sessionParams m.members)) := by
    intro hOpen i hAccepted
    obtain ⟨r, hRecord⟩ := Option.isSome_iff_exists.mp hOpen
    have hPayload := record_after_run recordedPayload
      (fun m => setup.codePage.recode m.data) exec_recordedPayload (fun _ => rfl)
      (fun _ => rfl) ⟨_, congrArg (Option.map _) hRecord⟩ hRun hEnded hAccepted
    have hGame := record_after_run recordedGame
      (fun m => setup.codePage.recode m.gameId) exec_recordedGame (fun _ => rfl)
      (fun _ => rfl) ⟨_, congrArg (Option.map _) hRecord⟩ hRun hEnded hAccepted
    rw [Held, hPayload, hGame, gameId_after_run hRun hEnded hGames i,
      params_after_run hRun hEnded hAccepted]
    constructor
    · rintro ⟨h₁, h₂, h₃, h₄⟩
      exact ⟨h₃, h₁, h₂, h₄⟩
    · rintro ⟨h₃, h₁, h₂, h₄⟩
      exact ⟨h₁, h₂, h₃, h₄⟩
  constructor
  · rintro ⟨i, hAccepted, hAll⟩
    have hOpen : s.record.isSome = true := by
      have hKept : recordedPayload s' = _ := hRun.register_map exec_recordedPayload
      cases hRecord : s.record with
      | some r => rfl
      | none =>
        -- a record that is not open stays so
        rw [hAll.1, recordedPayload, hRecord] at hKept
        cases hKept
    exact ⟨hOpen, i, hAccepted, (hHeld hOpen i hAccepted).mp hAll⟩
  · rintro ⟨hOpen, i, hAccepted, hAll⟩
    exact ⟨i, hAccepted, (hHeld hOpen i hAccepted).mpr hAll⟩

end

/-! ## Two schedules -/

-- a payload for the second game
def secondMembers : List (String × Value) :=
  ("gameId", .str "g2") :: (sampleMembers "s" false).tail

def secondData : String :=
  "\x7b\"gameId\":\"g2\",\"roomId\":\"r1\",\"playerUrl\":\"p\",\"serverUrl\":\"s\"," ++
    "\"controlUrl\":\"c\",\"port\":\"80\",\"framerate\":\"30\",\"bitrate\":\"4000\"," ++
    "\"deadline\":\"1\",\"cpuused\":\"5\",\"x\":\"0\",\"y\":\"0\",\"mode\":\"0\",\"capmode\":\"0\"," ++
    "\"vol\":\"1\",\"control\":\"\",\"fileMiniTime\":\"\",\"isQueuing\":\"0\"," ++
    "\"startGameParams\":\"null\",\"force\":0,\"keyboardLoginParams\":\x7b\x7d\x7d"

def twoGamesSetup : Setup :=
  { sampleSetup with
    parse := fun data => if data = secondData then some (.obj secondMembers)
      else sampleSetup.parse data
    parse_empty := by
      rw [if_neg (by decide +kernel)]
      exact sampleSetup.parse_empty }

theorem twoGamesSetup_parse (data : String) : twoGamesSetup.parse data =
    if data = secondData then some (.obj secondMembers) else sampleSetup.parse data := rfl

def sampleMessages : Sender → StartMessage twoGamesSetup
  | .first =>
    { data := sampleData "s" false
      members := sampleMembers "s" false
      gameId := "g1"
      parses := by
        rw [twoGamesSetup_parse, if_neg (by decide +kernel)]
        exact parse_sampleData
      names := rfl }
  | .second =>
    { data := secondData
      members := secondMembers
      gameId := "g2"
      parses := by rw [twoGamesSetup_parse, if_pos rfl]
      names := rfl }

/-- The first handler finishes before the second begins. -/
def firstThenSecond : List (Sender × Env) :=
  List.replicate 20 (.first, onlyRuns [oneProcess]) ++
    List.replicate 20 (.second, onlyRuns [twoProcess])

/-- The second handler runs while the first waits for its game. -/
def secondDuringWait : List (Sender × Env) :=
  List.replicate 12 (.first, onlyRuns []) ++
    List.replicate 20 (.second, onlyRuns [twoProcess]) ++
    List.replicate 12 (.first, onlyRuns [oneProcess])

def overlapRun (schedule : List (Sender × Env)) :
    List (Sender × Event sessionSig) × Session × (Sender → SProg (Except JsonFailure Unit)) :=
  Prog.runSchedule (sessionHandler twoGamesSetup.codePage) schedule sampleSession
    (startHandlers sampleMessages)

theorem run_overlapRun (schedule : List (Sender × Env)) :
    Prog.Run (sessionHandler twoGamesSetup.codePage) sampleSession (startHandlers sampleMessages)
      (overlapRun schedule).1 (overlapRun schedule).2.1 (overlapRun schedule).2.2 :=
  Prog.run_runSchedule schedule sampleSession (startHandlers sampleMessages)

/-- The payload of the second game is accepted. -/
theorem accepted_second : (sampleMessages .second).Accepted := by
  refine ⟨⟨?_, show FitsInt (.int _) from trivial⟩, by decide +kernel⟩
  obtain ⟨hTexts, -⟩ := startReadable_sampleMembers "s" false
  rw [startTexts] at hTexts ⊢
  have hOthers := (List.forall_mem_cons.mp hTexts).2
  refine List.forall_mem_cons.mpr ⟨⟨_, rfl⟩, fun name hName => ?_⟩
  -- only the game differs
  have hNe : name ≠ "gameId" := by
    rintro rfl
    revert hName
    decide
  have hSame : member secondMembers name = member (sampleMembers "s" false) name := by
    show ((("gameId", Value.str "g2") :: (sampleMembers "s" false).tail).lookup name).getD .null =
      ((("gameId", Value.str "g1") :: (sampleMembers "s" false).tail).lookup name).getD .null
    rw [List.lookup_cons, List.lookup_cons, beq_eq_false_iff_ne.mpr hNe]
  exact hSame ▸ hOthers name hName

/-- Whose write is the last one. -/
theorem lastWriteBy_of_fst {τ : Type} {setup : Setup} {register : SessionWrite → Option τ}
    {log : List (Sender × Event sessionSig)} {i : Sender}
    (h : (Prog.lastWrite (registerWrite setup.codePage register) log).map Prod.fst = some i) :
    LastWriteBy register log i setup := by
  obtain ⟨⟨j, v⟩, hLast, rfl⟩ := Option.map_eq_some_iff.mp h
  exact ⟨v, hLast⟩

/-- One after the other, the session is that of the second message. -/
theorem one_session_in_order : OneSession sampleMessages (overlapRun firstThenSecond).2.1 := by
  have hEnded : ((overlapRun firstThenSecond).2.2 .first).ended.isSome = true ∧
      ((overlapRun firstThenSecond).2.2 .second).ended.isSome = true := by decide +kernel
  have hLast : ((Prog.lastWrite (registerWrite twoGamesSetup.codePage SessionWrite.gameId?)
        (overlapRun firstThenSecond).1).map Prod.fst = some .second ∧
      (Prog.lastWrite (registerWrite twoGamesSetup.codePage SessionWrite.recordedPayload?)
        (overlapRun firstThenSecond).1).map Prod.fst = some .second) ∧
      (Prog.lastWrite (registerWrite twoGamesSetup.codePage SessionWrite.recordedGame?)
        (overlapRun firstThenSecond).1).map Prod.fst = some .second ∧
      (Prog.lastWrite (registerWrite twoGamesSetup.codePage SessionWrite.params?)
        (overlapRun firstThenSecond).1).map Prod.fst = some .second := by decide +kernel
  refine (one_session_iff (by decide) (run_overlapRun firstThenSecond) fun i => ?_).mpr
    ⟨rfl, .second, accepted_second, lastWriteBy_of_fst hLast.1.1,
      Or.inl (lastWriteBy_of_fst hLast.1.2), Or.inl (lastWriteBy_of_fst hLast.2.1),
      Or.inl (lastWriteBy_of_fst hLast.2.2)⟩
  cases i with
  | first => exact hEnded.1
  | second => exact hEnded.2

/-- When the second handler runs while the first waits, the second game is set
and the first is recorded. -/
theorem sessions_mixed_during_wait :
    Prog.Run (sessionHandler twoGamesSetup.codePage) sampleSession (startHandlers sampleMessages)
      (overlapRun secondDuringWait).1 (overlapRun secondDuringWait).2.1
      (overlapRun secondDuringWait).2.2 ∧
    (∀ i, ((overlapRun secondDuringWait).2.2 i).ended.isSome = true) ∧
    ¬ OneSession sampleMessages (overlapRun secondDuringWait).2.1 := by
  have hResult : (((overlapRun secondDuringWait).2.2 .first).ended.isSome = true ∧
      ((overlapRun secondDuringWait).2.2 .second).ended.isSome = true) ∧
      (overlapRun secondDuringWait).2.1.gameId = "g2" ∧
      recordedGame (overlapRun secondDuringWait).2.1 = some "g1" := by decide +kernel
  obtain ⟨⟨hFirst, hSecond⟩, hSet, hRecorded⟩ := hResult
  refine ⟨run_overlapRun secondDuringWait, fun i => ?_, ?_⟩
  · cases i with
    | first => exact hFirst
    | second => exact hSecond
  · rintro ⟨i, -, -, hGame, hId, -⟩
    rw [hRecorded] at hGame
    rw [hSet] at hId
    cases i with
    | first => exact absurd hId (by decide)
    | second => exact absurd hGame (by decide)

end PushStreamer
