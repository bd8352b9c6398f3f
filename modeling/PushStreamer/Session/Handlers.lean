import PushStreamer.Session.State

/-!
# The handlers of `CloudStreamer`

The functions of `cloudstreamer.cpp` behind the messages StartGame, StopGame,
SignIn and ChangeResolution, as programs over the atomic steps of the session.
A handler returns the JSON failure that ends its thread, if there is one; a
`GameDealExeception` is caught by the handler and answered.
-/

namespace PushStreamer

section

variable (setup : Setup)

-- ---------------------------------------------------------------------------
-- Games and their executables
-- ---------------------------------------------------------------------------

/-- `GetValueByGameID`. -/
def getValueByGameID (gameId keyName : String) : String :=
  if gameId ≠ "" ∧ keyName ≠ "" then setup.cloudGameConfig.getValueWhere "id" gameId keyName
  else ""

/-- The executable of a game; `gameexeName` and `gameExeName` are one key. -/
def gameExe (gameId : String) : String := getValueByGameID setup gameId "gameExeName"

/-- `GetGamePathByID`. -/
def getGamePathByID (gameId : String) : String := getValueByGameID setup gameId "path"

/-- `GameIsAreadlyRunning`. -/
def gameIsAreadlyRunning (gameId : String) : SProg Bool := do
  if gameExe setup gameId ≠ "" then
    let pid : Nat ← act (.queryGamePid (gameExe setup gameId))
    pure (decide (0 < pid))
  else pure false

/-- `KillAreadlyRunningGame`: the loop ends when the process is gone. -/
def killAreadlyRunningGame (gameId : String) : SProg Unit := do
  Prog.onlyIf (gameExe setup gameId ≠ "") do
    act (.killGameByName (gameExe setup gameId))
    let _ : Nat ← poll (.isProcessRunning (gameExe setup gameId)) fun pid : Nat =>
      decide (0 < pid)

/-- `StartGameByGameId`: the start parameters do not reach the script. -/
def startGameByGameId (gameId : String) : SProg Unit := do
  match split (getGamePathByID setup gameId) "&&" with
  | p :: q :: _ =>
    let params := "start;" ++ p ++ ";" ++ q
    act (.executeOutterScript ((splitParts ';' params).map String.ofList))
  | _ => pure ()

/-- The loop of `ForeachKillExe` over the groups of `cloudGameConfig.ini`. -/
def killOthers (gameId : String) : List String → SProg Unit
  | [] => pure ()
  | group :: groups => do
    let game_id := setup.cloudGameConfig.getValue group "id"
    Prog.onlyIf (game_id ≠ gameId ∧ game_id ≠ "") do
      let isRunning ← gameIsAreadlyRunning setup game_id
      Prog.onlyIf isRunning (killAreadlyRunningGame setup game_id)
    killOthers gameId groups

/-- The groups of `cloudGameConfig.ini`. -/
def configGroups : List String := setup.cloudGameConfig.elim [] fun ini => ini.groups.map Prod.fst

/-- `ForeachKillExe`. -/
def foreachKillExe (gameId : String) : SProg Unit := killOthers setup gameId (configGroups setup)

-- ---------------------------------------------------------------------------
-- Reports and records
-- ---------------------------------------------------------------------------

/-- `WSServiceTransferSignStringEx`. -/
def deviceStateReport (s : Session) : Report :=
  .deviceState s.sessionId s.deviceNo s.gameId (if s.getGameStatus ≠ 0 then 1 else 0)

/-- `ActiveReportGameStatus`. -/
def activeReportGameStatus : SProg Unit := do
  let s : Session ← act .get
  act (.send (deviceStateReport s))

/-- `MessageFeedBack`. -/
def messageFeedBack (msgType resultCode resultMsg : String) : SProg Unit := do
  Prog.onlyIf (msgType ≠ "") do
    let s : Session ← act .get
    act (.send (.receiveCallback s.sessionId msgType resultCode resultMsg))

/-- The text of a status: `gameStatus ? "1" : "0"`. -/
def statusText (gameStatus : Int) : String := if gameStatus ≠ 0 then "1" else "0"

/-- `RecordInfo(startGameParame, gameId, gameStatus)`. -/
def recordInfo (startGameParame gameId : String) (gameStatus : Int) : SProg Unit := do
  act (.setValue .startGameParame startGameParame)
  act (.setValue .startGameStatus (statusText gameStatus))
  act (.setValue .gameId gameId)

/-- `RecordInfo(gameId, gameStatus)`. -/
def recordStatus (gameId : String) (gameStatus : Int) : SProg Unit := do
  act (.setValue .gameId gameId)
  act (.setValue .startGameStatus (statusText gameStatus))

-- ---------------------------------------------------------------------------
-- StartGame
-- ---------------------------------------------------------------------------

/-- `root[name].asCString()`. -/
def readText (root : Value) (name : String) : Except JsonFailure String := do
  (← root.index name).asCString

/-- The members of a StartGame payload, after `gameId`. -/
structure StartGameFields where
  roomId : String
  playerUrl : String
  serverUrl : String
  controlUrl : String
  port : String
  framerate : String
  bitrate : String
  deadline : String
  cpuused : String
  x : String
  y : String
  mode : String
  capmode : String
  vol : String
  control : String
  fileMiniTime : String
  isQueuing : String
  force : Int
  keyboardLoginParams : String
  startGameParams : String

/-- The login of the keyboard channel; its port becomes the device number. -/
def keyboardLogin (deviceNo : String) (root : Value) : Except JsonFailure String := do
  let login ← root.index "keyboardLoginParams"
  if login.isObject then
    let login ← login.setMember "init" (.int 123)
    let login ← login.setMember "port" (.str (setup.codePage.recode deviceNo))
    pure (setup.write login)
  else pure (setup.write login)

/-- What `StartGameCallback` reads of its payload. -/
def readStartGame (deviceNo : String) (root : Value) : Except JsonFailure StartGameFields := do
  let roomId ← readText root "roomId"
  let playerUrl ← readText root "playerUrl"
  let serverUrl ← readText root "serverUrl"
  let controlUrl ← readText root "controlUrl"
  let port ← readText root "port"
  let framerate ← readText root "framerate"
  let bitrate ← readText root "bitrate"
  let deadline ← readText root "deadline"
  let cpuused ← readText root "cpuused"
  let x ← readText root "x"
  let y ← readText root "y"
  let mode ← readText root "mode"
  let capmode ← readText root "capmode"
  let vol ← readText root "vol"
  let control ← readText root "control"
  let fileMiniTime ← readText root "fileMiniTime"
  let isQueuing ← readText root "isQueuing"
  let force ← root.memberOr "force" Value.asInt 0
  let keyboardLoginParams ← keyboardLogin setup deviceNo root
  let startGameParams ← readText root "startGameParams"
  pure { roomId, playerUrl, serverUrl, controlUrl, port, framerate, bitrate, deadline, cpuused,
         x, y, mode, capmode, vol, control, fileMiniTime, isQueuing, force,
         keyboardLoginParams, startGameParams }

/-- The wait loop of `StartGameAction`: a game without executable never counts
as running. -/
def waitForGame (gameId : String) : SProg Unit := do
  if gameExe setup gameId ≠ "" then
    let _ : Nat ← poll (.queryGamePid (gameExe setup gameId)) fun pid : Nat =>
      decide (pid = 0)
  else poll .sleep fun _ => true

/-- The part of `StartGameAction` before its wait loop. -/
def launchGame (gameId startGameParams data : String) (force : Int) : SProg Unit := do
  act (.setStartGameParams { gameId, startGameParams, data, force })
  Prog.onlyIf (gameId ≠ "" ∧ startGameParams = "null") activeReportGameStatus
  let gameIsRunning ← gameIsAreadlyRunning setup gameId
  if gameIsRunning then
    if force > 0 then do
      killAreadlyRunningGame setup gameId
      startGameByGameId setup gameId
    else pure ()
  else startGameByGameId setup gameId

/-- `StartGameAction`. -/
def startGameAction (gameId startGameParams data : String) (force : Int) : SProg Unit := do
  launchGame setup gameId startGameParams data force
  waitForGame setup gameId
  recordInfo data gameId 1

/-- The arguments of `push` for saved parameters. -/
def pushArgs (p : PushStreamerParams) : PushArgs where
  port := setup.codePage.recode p.roomId
  url := setup.codePage.recode p.serverUrl
  hosturl := setup.codePage.recode p.domain
  framerate := toInt p.framerate.toList
  bitrate := toInt p.bitrate.toList
  deadline := toInt p.deadline.toList
  cpuused := toInt p.cpuused.toList
  x := toInt p.x.toList
  y := toInt p.y.toList
  mode := toInt p.mode.toList
  capmode := toInt p.capmode.toList
  vol := toInt p.vol.toList

/-- `PushStreamerAction`; its callers drop the return code. -/
def pushStreamerAction (params : PushStreamerParams) : SProg Unit := do
  act (.setPushStreamerParams params)
  let ret : Bool ← act (.closepush (setup.codePage.recode params.roomId)
    (setup.codePage.recode params.serverUrl))
  Prog.onlyIf ret do
    let _ : Bool ← act (.push (pushArgs setup params))

/-- `AssembleWSServer`. -/
def assembleWSServer (wsUrl key deviceNo : String) : String :=
  if wsUrl = "" ∨ key = "" ∨ deviceNo = "" then ""
  else
    let (signStrMd5, epochTimeStr) := setup.playSign (deviceNo ++ key)
    "ws://" ++ wsUrl ++ "/?deviceNo=" ++ deviceNo ++ "&playSign=" ++ signStrMd5 ++ "&timeStame=" ++
      epochTimeStr

/-- `StartKeyboardAction`. -/
def startKeyboardAction (gameId controlUrl keyboardLoginParams : String) : SProg Unit := do
  act .stopKeyBoardThread
  let s : Session ← act .get
  let appPath := setup.applicationDirPath ++ "/"
  let _ : Bool ← act (.startKeyBoardThread
    { nameKeyTablePath := appPath ++ getValueByGameID setup gameId "keyBoardNameValueMappingTable"
      defaultKeyBoardPath := appPath ++ getValueByGameID setup gameId "keyBoardDefaultConfig"
      gameKeyBoardPath := getValueByGameID setup gameId "keyBoardGameConfig"
      controlUrl
      wsUrl := assembleWSServer setup controlUrl setup.wsServerKey s.deviceNo
      loginCommand := keyboardLoginParams })
  act .startProtectGstLaunch

/-- `StartGameModel`. -/
inductive StartGameModel where
  | normalModel
  | onlyPushStreamer
deriving DecidableEq

/-- The saved parameters of an accepted payload. -/
def pushParams (f : StartGameFields) : PushStreamerParams where
  serverUrl := "https://" ++ f.serverUrl ++ ":" ++ "4443" ++ "/"
  domain := f.serverUrl
  roomId := f.roomId
  framerate := f.framerate
  bitrate := f.bitrate
  deadline := f.deadline
  cpuused := f.cpuused
  x := f.x
  y := f.y
  mode := f.mode
  capmode := f.capmode
  vol := f.vol

/-- A member that the parameter check wants is empty. -/
def paramMissing (gameId : String) (f : StartGameFields) : Prop :=
  f.serverUrl = "" ∨ f.controlUrl = "" ∨ f.port = "" ∨ f.roomId = "" ∨ gameId = "" ∨
    f.keyboardLoginParams = ""

instance (gameId : String) (f : StartGameFields) : Decidable (paramMissing gameId f) := by
  unfold paramMissing
  infer_instance

/-- What `StartGameCallback` does with a payload that passes the check. -/
def carryOut (gameId data : String) (f : StartGameFields) (model : StartGameModel) :
    SProg Unit := do
  startGameAction setup gameId f.startGameParams data f.force
  pushStreamerAction setup (pushParams f)
  Prog.onlyIf (model = .normalModel)
    (startKeyboardAction setup gameId f.controlUrl f.keyboardLoginParams)

/-- The parameter check: the exception that it throws is caught and answered. -/
def acceptOrAnswer (gameId data : String) (f : StartGameFields) (model : StartGameModel) :
    SProg Unit := do
  if paramMissing gameId f then
    messageFeedBack "StartGame" "-2" "StartGameCallback json param format failure!"
  else carryOut setup gameId data f model

/-- The part of `StartGameCallback` that reads the payload. `isUpdate()` is
false, so its branch is not taken. -/
def startGame (data : String) (root : Value) (model : StartGameModel) :
    SProg (Except JsonFailure Unit) := do
  match readText root "gameId" with
  | .error e => pure (.error e)
  | .ok gameId => do
    foreachKillExe setup gameId
    act (.setGameId gameId)
    let s : Session ← act .get
    match readStartGame setup s.deviceNo root with
    | .error e => pure (.error e)
    | .ok f => do
      acceptOrAnswer setup gameId data f model
      pure (.ok ())

/-- `StartGameCallback`. -/
def startGameCallback (data : String) (model : StartGameModel) :
    SProg (Except JsonFailure Unit) := do
  act .clearFunctionParams
  act .lastGaspGoalPushStreamer
  if data = "" then pure (.ok ())
  else match setup.parse data with
  | none => pure (.ok ())
  | some root => startGame setup data root model

-- ---------------------------------------------------------------------------
-- StopGame
-- ---------------------------------------------------------------------------

/-- Kill the game of the session and report. -/
def killCurrentGame : SProg Unit := do
  let s : Session ← act .get
  Prog.onlyIf (gameExe setup s.gameId ≠ "") do
    act (.killGameByName (gameExe setup s.gameId))
    activeReportGameStatus

/-- The part of `StopGameCallback` before it reads its payload. -/
def stopSession : SProg Unit := do
  act .lastGaspGoalPushStreamer
  let s : Session ← act .get
  recordStatus s.gameId 0
  let s : Session ← act .get
  act .stopProtectGstLaunch
  act (.send (deviceStateReport s))
  let s : Session ← act .get
  Prog.onlyIf (s.mode = .defaultMode ∨ s.mode = .onlyPushStreamer) do
    let _ : Bool ← act (.closepush s.pushStreamerParams.roomId s.pushStreamerParams.serverUrl)
  Prog.onlyIf (s.mode = .defaultMode ∨ s.mode = .onlyKeyBoard) (act .stopKeyBoardThread)

/-- `isForce` of a StopGame payload is 1. -/
def readIsForce (root : Value) : Except JsonFailure Bool := do
  if ← root.isMember "isForce" then
    let isForce ← (← root.index "isForce").asInt
    pure (isForce = 1)
  else pure false

/-- The members of a StopGame payload: `serverUrl`, `controlUrl` and `port`. -/
def readStopGame (root : Value) : Except JsonFailure (String × String × String) := do
  let _ ← readText root "gameId"
  let _ ← readText root "roomId"
  let serverUrl ← readText root "serverUrl"
  let _ ← readText root "playerUrl"
  let controlUrl ← readText root "controlUrl"
  let port ← readText root "port"
  pure (serverUrl, controlUrl, port)

/-- The part of `StopGameCallback` that reads the payload. -/
def stopGame (root : Value) : SProg (Except JsonFailure Unit) := do
  match readIsForce root with
  | .error e => pure (.error e)
  | .ok isForce => do
    Prog.onlyIf isForce (killCurrentGame setup)
    match readStopGame root with
    | .error e => pure (.error e)
    | .ok (serverUrl, controlUrl, port) => do
      Prog.onlyIf (serverUrl ≠ "" ∧ controlUrl ≠ "" ∧ port ≠ "") (killCurrentGame setup)
      pure (.ok ())

/-- `StopGameCallback`. -/
def stopGameCallback (data : String) : SProg (Except JsonFailure Unit) := do
  stopSession
  if data = "" then pure (.ok ())
  else match setup.parse data with
  | none => pure (.ok ())
  | some root => stopGame setup root

-- ---------------------------------------------------------------------------
-- Replays of the recorded payload
-- ---------------------------------------------------------------------------

/-- `RecoveryGame`: the payload and model of the handler it starts. -/
def recoveryGame : SProg (Option (String × StartGameModel)) := do
  let s : Session ← act .get
  let s' : Session ← act .get
  if s.getGameStatus ≠ 0 then pure (some (s'.getGameInfo, .normalModel)) else pure none

/-- The recorded payload with other parameters of the stream. -/
def withResolution (framerate bitrate deadline : String) (root : Value) :
    Except JsonFailure Value := do
  let root ← root.setMember "framerate" (.str (setup.codePage.recode framerate))
  let root ← root.setMember "bitrate" (.str (setup.codePage.recode bitrate))
  root.setMember "deadline" (.str (setup.codePage.recode deadline))

/-- `ModifiyStartParams`. -/
def modifiyStartParams (framerate bitrate deadline : String) :
    SProg (Except JsonFailure String) := do
  if framerate ≠ "" ∧ bitrate ≠ "" ∧ deadline ≠ "" then
    let s : Session ← act .get
    if s.getGameInfo ≠ "" then
      match setup.parse s.getGameInfo with
      | none => pure (.ok "")
      | some root =>
        match withResolution setup framerate bitrate deadline root with
        | .error e => pure (.error e)
        | .ok root => do
          act (.setValue .startGameParame (setup.write root))
          pure (.ok (setup.write root))
    else pure (.ok "")
  else pure (.ok "")

/-- A text member of a ChangeResolution message, empty without one. -/
def readOptionalText (root : Value) (name : String) : Except JsonFailure String := do
  if ← root.isMember name then
    let v ← root.index name
    if v.isString then v.asCString else pure ""
  else pure ""

def readResolution (root : Value) : Except JsonFailure (String × String × String) := do
  let framerate ← readOptionalText root "framerate"
  let bitrate ← readOptionalText root "bitrate"
  let deadline ← readOptionalText root "deadline"
  pure (framerate, bitrate, deadline)

/-- `ChangeResolutionCallback`: the payload and model of the handler it starts. -/
def changeResolutionCallback (paramData : String) :
    SProg (Except JsonFailure (Option (String × StartGameModel))) := do
  if paramData = "" then pure (.ok none)
  else match setup.parse paramData with
  | none => pure (.ok none)
  | some root =>
    match readResolution root with
    | .error e => pure (.error e)
    | .ok (framerate, bitrate, deadline) => do
      match ← modifiyStartParams setup framerate bitrate deadline with
      | .error e => pure (.error e)
      | .ok newStartParams =>
        if newStartParams ≠ "" then
          let s : Session ← act .get
          if s.getGameStatus ≠ 0 then pure (.ok (some (newStartParams, .onlyPushStreamer)))
          else pure (.ok none)
        else pure (.ok none)

end

end PushStreamer
