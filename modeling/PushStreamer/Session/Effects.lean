import PushStreamer.Lib.Polling
import PushStreamer.Session.Handlers

/-!
# What each part of a handler can do

Every atomic step has a kind, and each kind changes its own part of the session
(`exec_record` and the lemmas around it). `Uses ks p` says that the program
`p` takes steps of the kinds `ks` only, and repeats none but the queries of the
process list; there is one such lemma for each part of a handler. What a part
keeps, and which events its traces lack, follows from its kinds.
-/

namespace PushStreamer

/-- The kinds of steps. -/
inductive Kind where
  | query
  | params
  | kill
  | script
  | record
  | stream
  | keyboard
  | report
  | answer
  | protect
deriving DecidableEq

@[simp] def SessionOp.kind : SessionOp → Kind
  | .get | .queryGamePid _ | .isProcessRunning _ | .sleep | .readProtectFlag | .getGameStatus =>
    .query
  | .clearFunctionParams | .setGameId _ | .setPushStreamerParams _ | .setStartGameParams _ =>
    .params
  | .lastGaspGoalPushStreamer | .killGameByName _ => .kill
  | .executeOutterScript _ => .script
  | .setValue _ _ => .record
  | .closepush _ _ | .push _ => .stream
  | .stopKeyBoardThread | .startKeyBoardThread _ | .setKeyBoardGamePid => .keyboard
  | .send (.deviceState ..) => .report
  | .send (.receiveCallback ..) => .answer
  | .startProtectGstLaunch | .stopProtectGstLaunch | .raiseProtectFlag => .protect

/-- The query that a handler repeats while it waits for a game. -/
def SessionOp.IsWait : SessionOp → Prop
  | .queryGamePid _ | .sleep => True
  | _ => False

/-- The query that a handler repeats until a killed game is gone. -/
def SessionOp.IsKillPoll : SessionOp → Prop
  | .isProcessRunning _ => True
  | _ => False

/-- `p` takes steps of the kinds `ks` only, and repeats queries of the process
list only. -/
def Uses {α : Type} (ks : List Kind) (p : SProg α) : Prop :=
  Prog.All (fun (o : sessionSig.Op) (again : sessionSig.Res o → Bool) =>
    SessionOp.kind o ∈ ks ∧ ((∃ r, again r = true) → SessionOp.IsWait o ∨ SessionOp.IsKillPoll o)) p

section

variable {α β : Type} {ks : List Kind}

@[simp] theorem uses_pure (a : α) : Uses ks (pure a : SProg α) := trivial

@[simp] theorem uses_act {o : SessionOp} : Uses ks (act o) ↔ o.kind ∈ ks :=
  Prog.all_perform.trans
    ⟨fun h => h.1, fun h => ⟨h, fun ⟨_, hr⟩ => absurd hr Bool.false_ne_true⟩⟩

/-- A loop repeats a step of its kind, and must be one of the two that the handlers have. -/
theorem uses_poll {o : SessionOp} {again : o.Res → Bool} (hKind : o.kind ∈ ks)
    (hPoll : o.IsWait ∨ o.IsKillPoll) : Uses ks (poll o again) :=
  Prog.all_repeatWhile.mpr ⟨hKind, fun _ => hPoll⟩

/-- A composition uses what its parts use. -/
theorem uses_bind {p : SProg α} {f : α → SProg β} (hp : Uses ks p) (hf : ∀ a, Uses ks (f a)) :
    Uses ks (p >>= f) :=
  Prog.all_bind hp hf

/-- So does a choice, whatever is chosen. -/
theorem uses_ite {c : Prop} [Decidable c] {p q : SProg α} (hp : Uses ks p) (hq : Uses ks q) :
    Uses ks (if c then p else q) := by
  split
  · exact hp
  · exact hq

/-- A part under a condition uses no more than the part. -/
theorem uses_onlyIf {c : Prop} [Decidable c] {p : SProg Unit} (hp : Uses ks p) :
    Uses ks (Prog.onlyIf c p) :=
  Prog.all_onlyIf hp

/-- More kinds may be named than are used. -/
theorem Uses.mono {ls : List Kind} {p : SProg α} (h : Uses ks p) (hSub : ks ⊆ ls) : Uses ls p :=
  Prog.All.mono h fun _ _ ho => ⟨hSub ho.1, ho.2⟩

/-- Steps of other kinds are avoided. -/
theorem Uses.avoids {p : SProg α} (h : Uses ks p) {K : SessionOp → Prop}
    (hK : ∀ o, SessionOp.kind o ∈ ks → ¬ K o) : Prog.Avoids (S := sessionSig) K p :=
  Prog.All.mono h fun o _ ho => hK o ho.1

/-- The steps of an execution have the kinds of its program. -/
theorem Uses.kinds {p : SProg α} (h : Uses ks p) {t : List (Event sessionSig)} {a : α}
    (hPath : Prog.Path p t a) : ∀ ev ∈ t, SessionOp.kind ev.op ∈ ks := by
  intro ev hev
  by_contra hNot
  have hAvoids : Prog.Avoids (S := sessionSig) (fun o => SessionOp.kind o ∉ ks) p :=
    h.avoids fun o ho hNo => hNo ho
  exact hPath.avoids hAvoids ev hev hNot

/-- The loops of the handlers wait for a game or for its end. -/
theorem Uses.loops {p : SProg α} (h : Uses ks p) :
    Prog.Loops (S := sessionSig) (fun o => SessionOp.IsWait o ∨ SessionOp.IsKillPoll o) p :=
  Prog.All.mono h fun _ _ ho => ho.2

/-- A program without queries stops: only queries are repeated. -/
theorem Uses.stops {p : SProg α} (h : Uses ks p) (hQuery : Kind.query ∉ ks) {codePage : CodePage}
    {A : Env → Prop} (s : Session) : Prog.Stops (sessionHandler codePage) A p s := by
  have hKind : ∀ o : SessionOp, o.IsWait ∨ o.IsKillPoll → o.kind = .query := by
    rintro o (hWait | hPoll)
    · cases o with
      | queryGamePid _ => rfl
      | sleep => rfl
      | _ => exact hWait.elim
    · cases o with
      | isProcessRunning _ => rfl
      | _ => exact hPoll.elim
  have hLoops : Prog.Loops (S := sessionSig) (fun _ => False) p :=
    Prog.All.mono h fun o _ ho hAgain => hQuery (hKind o (ho.2 hAgain) ▸ ho.1)
  exact hLoops.stops s

end

/-! ## The parts of the handlers -/

section

variable (setup : Setup)

/-- What `GameIsAreadlyRunning` uses, and so on for each function of the handlers. -/
theorem uses_gameIsAreadlyRunning (gameId : String) :
    Uses [.query] (gameIsAreadlyRunning setup gameId) :=
  uses_ite (uses_bind (uses_act.mpr (by simp)) fun _ => uses_pure _) (uses_pure _)

/-- The search for the running game asks and kills. -/
theorem uses_killAreadlyRunningGame (gameId : String) :
    Uses [.query, .kill] (killAreadlyRunningGame setup gameId) :=
  uses_onlyIf (uses_bind (uses_act.mpr (by simp)) fun _ =>
    uses_bind (uses_poll (by simp) (Or.inr trivial)) fun _ => uses_pure _)

/-- The launch runs the script and does nothing else. -/
theorem uses_startGameByGameId (gameId : String) :
    Uses [.script] (startGameByGameId setup gameId) := by
  unfold startGameByGameId
  rcases split (getGamePathByID setup gameId) "&&" with _ | ⟨p, _ | ⟨q, rest⟩⟩
  · exact uses_pure ()
  · exact uses_pure ()
  · exact uses_act.mpr (by simp)

/-- So does the search for the other games. -/
theorem uses_killOthers (gameId : String) (groups : List String) :
    Uses [.query, .kill] (killOthers setup gameId groups) := by
  induction groups with
  | nil => exact uses_pure _
  | cons group groups ih =>
    refine uses_bind (uses_onlyIf (uses_bind ?_ fun _ => uses_onlyIf ?_)) fun _ => ih
    · exact (uses_gameIsAreadlyRunning setup _).mono (by simp)
    · exact uses_killAreadlyRunningGame setup _

/-- A report asks for the status before it is sent. -/
theorem uses_activeReportGameStatus : Uses [.query, .report] activeReportGameStatus :=
  uses_bind (uses_act.mpr (by simp)) fun _ => uses_act.mpr (by simp [deviceStateReport])

/-- An answer asks for the session before it is sent. -/
theorem uses_messageFeedBack (msgType resultCode resultMsg : String) :
    Uses [.query, .answer] (messageFeedBack msgType resultCode resultMsg) :=
  uses_onlyIf (uses_bind (uses_act.mpr (by simp)) fun _ => uses_act.mpr (by simp))

/-- The record is written, and nothing besides. -/
theorem uses_recordInfo (startGameParame gameId : String) (gameStatus : Int) :
    Uses [.record] (recordInfo startGameParame gameId gameStatus) :=
  uses_bind (uses_act.mpr (by simp)) fun _ =>
    uses_bind (uses_act.mpr (by simp)) fun _ => uses_act.mpr (by simp)

/-- What `LaunchGame` uses. -/
theorem uses_launchGame (gameId startGameParams data : String) (force : Int) :
    Uses [.query, .params, .kill, .script, .report]
      (launchGame setup gameId startGameParams data force) := by
  have hStart : Uses [.query, .params, .kill, .script, .report] (startGameByGameId setup gameId) :=
    (uses_startGameByGameId setup gameId).mono (by simp)
  refine uses_bind (uses_act.mpr (by simp)) fun _ => uses_bind (uses_onlyIf ?_) fun _ =>
    uses_bind ?_ fun _ => uses_ite (uses_ite (uses_bind ?_ fun _ => hStart) (uses_pure _)) hStart
  · exact uses_activeReportGameStatus.mono (by simp)
  · exact (uses_gameIsAreadlyRunning setup gameId).mono (by simp)
  · exact (uses_killAreadlyRunningGame setup gameId).mono (by simp)

/-- The wait asks only. -/
theorem uses_waitForGame (gameId : String) : Uses [.query] (waitForGame setup gameId) :=
  uses_ite (uses_bind (uses_poll (by simp) (Or.inl trivial)) fun _ => uses_pure _)
    (uses_poll (by simp) (Or.inl trivial))

/-- The action of a start is the launch, the wait and the record. -/
theorem uses_startGameAction (gameId startGameParams data : String) (force : Int) :
    Uses [.query, .params, .kill, .script, .report, .record]
      (startGameAction setup gameId startGameParams data force) := by
  refine uses_bind ?_ fun _ => uses_bind ?_ fun _ => ?_
  · exact (uses_launchGame setup gameId startGameParams data force).mono (by simp)
  · exact (uses_waitForGame setup gameId).mono (by simp)
  · exact (uses_recordInfo data gameId 1).mono (by simp)

/-- The parameters are set before the stream is closed and pushed. -/
theorem uses_pushStreamerAction (params : PushStreamerParams) :
    Uses [.params, .stream] (pushStreamerAction setup params) :=
  uses_bind (uses_act.mpr (by simp)) fun _ => uses_bind (uses_act.mpr (by simp)) fun _ =>
    uses_onlyIf (uses_bind (uses_act.mpr (by simp)) fun _ => uses_pure _)

/-- The stream is closed, and pushed if this succeeds. -/
theorem pushStreamerAction_trace {setup : Setup} {params : PushStreamerParams}
    {t : List (Event sessionSig)} {u : Unit}
    (h : Prog.Path (pushStreamerAction setup params) t u) :
    t = [⟨.setPushStreamerParams params, ()⟩, ⟨.closepush (setup.codePage.recode params.roomId)
        (setup.codePage.recode params.serverUrl), false⟩] ∨
      ∃ ret : Bool, t = [⟨.setPushStreamerParams params, ()⟩,
        ⟨.closepush (setup.codePage.recode params.roomId)
          (setup.codePage.recode params.serverUrl), true⟩,
        ⟨.push (pushArgs setup params), ret⟩] := by
  obtain ⟨_, tRest, rfl, h₁⟩ := Prog.path_then.mp h
  obtain ⟨ret, tPush, rfl, h₂⟩ := Prog.path_then.mp h₁
  cases ret with
  | false =>
    obtain ⟨rfl, -⟩ := Prog.path_pure.mp h₂
    exact Or.inl rfl
  | true =>
    obtain ⟨ret, tPure, rfl, hPure⟩ := Prog.path_then.mp h₂
    obtain ⟨rfl, -⟩ := Prog.path_pure.mp hPure
    exact Or.inr ⟨ret, rfl⟩

/-- The keyboard is started together with the protection of the stream. -/
theorem uses_startKeyboardAction (gameId controlUrl keyboardLoginParams : String) :
    Uses [.query, .keyboard, .protect]
      (startKeyboardAction setup gameId controlUrl keyboardLoginParams) :=
  uses_bind (uses_act.mpr (by simp)) fun _ => uses_bind (uses_act.mpr (by simp)) fun _ =>
    uses_bind (uses_act.mpr (by simp)) fun _ => uses_act.mpr (by simp)

/-- What is done with an accepted payload, and everything that the handler can
do. -/
def carryKinds : List Kind :=
  [.query, .params, .kill, .script, .record, .stream, .keyboard, .report, .protect]

def startKinds : List Kind := .answer :: carryKinds

/-- An accepted payload uses all of the actions. -/
theorem uses_carryOut (gameId data : String) (f : StartGameFields) (model : StartGameModel) :
    Uses carryKinds (carryOut setup gameId data f model) := by
  refine uses_bind ?_ fun _ => uses_bind ?_ fun _ => uses_onlyIf ?_
  · exact (uses_startGameAction setup gameId _ data _).mono (by simp [carryKinds])
  · exact (uses_pushStreamerAction setup _).mono (by simp [carryKinds])
  · exact (uses_startKeyboardAction setup gameId _ _).mono (by simp [carryKinds])

/-- A rejected one is answered instead. -/
theorem uses_acceptOrAnswer (gameId data : String) (f : StartGameFields) (model : StartGameModel) :
    Uses startKinds (acceptOrAnswer setup gameId data f model) := by
  refine uses_ite ?_ ?_
  · exact (uses_messageFeedBack _ _ _).mono (by simp [startKinds, carryKinds])
  · exact (uses_carryOut setup gameId data f model).mono (List.subset_cons_self _ _)

/-- The whole of `StartGame`, from the members that it reads first. -/
theorem uses_startGame (data : String) (root : Value) (model : StartGameModel) :
    Uses startKinds (startGame setup data root model) := by
  unfold startGame
  cases readText root "gameId" with
  | error e => exact uses_pure _
  | ok gameId =>
    refine uses_bind ?_ fun _ =>
      uses_bind (uses_act.mpr (by simp [startKinds, carryKinds])) fun _ =>
        uses_bind (uses_act.mpr (by simp [startKinds, carryKinds])) fun s => ?_
    · exact (uses_killOthers setup gameId _).mono (by simp [startKinds, carryKinds])
    · cases readStartGame setup (Session.deviceNo s) root with
      | error e => exact uses_pure _
      | ok f => exact uses_bind (uses_acceptOrAnswer setup gameId data f model) fun _ => uses_pure _

/-- The same of the message that calls it. -/
theorem uses_startGameCallback (data : String) (model : StartGameModel) :
    Uses startKinds (startGameCallback setup data model) := by
  refine uses_bind (uses_act.mpr (by simp [startKinds, carryKinds])) fun _ =>
    uses_bind (uses_act.mpr (by simp [startKinds, carryKinds])) fun _ => uses_ite (uses_pure _) ?_
  cases setup.parse data with
  | none => exact uses_pure _
  | some root => exact uses_startGame setup data root model

/-- The game of the session is killed and reported. -/
theorem uses_killCurrentGame : Uses [.query, .kill, .report] (killCurrentGame setup) :=
  uses_bind (uses_act.mpr (by simp)) fun _ => uses_onlyIf (uses_bind (uses_act.mpr (by simp))
    fun _ => uses_activeReportGameStatus.mono (by simp))

/-- What StopGame uses besides the switches. -/
theorem uses_stopGame (root : Value) : Uses [.query, .kill, .report] (stopGame setup root) := by
  unfold stopGame
  cases readIsForce root with
  | error e => exact uses_pure _
  | ok isForce =>
    refine uses_bind (uses_onlyIf (uses_killCurrentGame setup)) fun _ => ?_
    cases readStopGame root with
    | error e => exact uses_pure _
    | ok f => exact uses_bind (uses_onlyIf (uses_killCurrentGame setup)) fun _ => uses_pure _

end

/-! ## What each kind of step changes -/

section

variable {codePage : CodePage} (e : Env) (s : Session) {o : SessionOp}

/-- No step changes the mode. -/
theorem exec_mode (o : SessionOp) : ((sessionHandler codePage).exec e s o).2.mode = s.mode := by
  cases o <;> rfl

/-- No step changes the number of the device. -/
theorem exec_deviceNo (o : SessionOp) :
    ((sessionHandler codePage).exec e s o).2.deviceNo = s.deviceNo := by
  cases o <;> rfl

/-- An execution keeps the number of the device. -/
theorem deviceNo_of_exec {α : Type} {A : Env → Prop} {p : SProg α} {s s' : Session}
    {t : List (Event sessionSig)} {a : α}
    (h : Prog.Exec (sessionHandler codePage) A p s t a s') : s'.deviceNo = s.deviceNo := by
  induction h with
  | ret a s => rfl
  | step e _ _ ih => rw [ih, exec_deviceNo]

/-- An execution keeps the mode. -/
theorem mode_of_exec {α : Type} {A : Env → Prop} {p : SProg α} {s s' : Session}
    {t : List (Event sessionSig)} {a : α}
    (h : Prog.Exec (sessionHandler codePage) A p s t a s') : s'.mode = s.mode := by
  induction h with
  | ret a s => rfl
  | step e _ _ ih => rw [ih, exec_mode]

/-- Only its own steps change what is recorded. -/
theorem exec_record (h : o.kind ≠ .record) :
    ((sessionHandler codePage).exec e s o).2.record = s.record := by
  cases o with
  | setValue key value => exact absurd rfl h
  | _ => rfl

/-- The status is that of the record. -/
theorem getGameStatus_congr {a b : Session} (h : a.record = b.record) :
    a.getGameStatus = b.getGameStatus := by
  rw [Session.getGameStatus, h, Session.getGameStatus]

/-- The payload is that of the record. -/
theorem getGameInfo_congr {a b : Session} (h : a.record = b.record) :
    a.getGameInfo = b.getGameInfo := by
  rw [Session.getGameInfo, h, Session.getGameInfo]

/-- A value that is recorded has gone through the code page. -/
theorem record_of_setValue {e : Env} {s s' : Session} {key : RecordKey} {value : String} {u : Unit}
    (h : (sessionHandler codePage).exec e s (.setValue key value) = (u, s')) :
    s'.record = s.record.map fun r => r.set (codePage.recode value) key :=
  (congrArg (fun x => x.2.record) h).symm

/-- A program without steps of the kind `record` keeps the record. -/
theorem Uses.keeps_record {α : Type} {ks : List Kind} {p : SProg α} (hUses : Uses ks p)
    (hNot : Kind.record ∉ ks) {A : Env → Prop} {s s' : Session} {t : List (Event sessionSig)}
    {a : α} (h : Prog.Exec (sessionHandler codePage) A p s t a s') : s'.record = s.record :=
  h.keeps (K := fun o => SessionOp.kind o = .record)
    (fun e x _ ho => exec_record e x ho) (hUses.avoids fun _ ho hKind => hNot (hKind ▸ ho))

end

end PushStreamer
