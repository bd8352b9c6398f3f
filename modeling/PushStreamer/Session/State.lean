import PushStreamer.Lib.Prog
import PushStreamer.Model.Ini
import PushStreamer.Model.Json
import PushStreamer.Model.Text

/-!
# The session of `CloudStreamer`

The handlers of `CloudStreamer` run on threads of their own and share its
members, the record file and the list of processes. `Session` is what they
share, `SessionOp` their atomic steps on it, and `sessionHandler` what each
step does. At every step the environment may change the list of processes, and
it decides what `push` and `closepush` return (`Env`).

The members of the reports that come from the clock and the random numbers
(nonce, timestamp, signature) are left out.
-/

namespace PushStreamer

-- ---------------------------------------------------------------------------
-- What is fixed while the program runs
-- ---------------------------------------------------------------------------

/-- The configuration and the vendored JSON reader and writer: the reader finds
no value in an empty text, and `FastWriter` ends every text with a newline.
`playSign` is the signature of the websocket address and the time that goes
with it. -/
structure Setup where
  codePage : CodePage
  parse : String → Option Value
  write : Value → String
  parse_empty : parse "" = none
  write_ne : ∀ v, write v ≠ ""
  cloudGameConfig : DealIniFile
  applicationDirPath : String
  wsServerKey : String
  playSign : String → String × String

/-- A text that parses is not empty. -/
theorem Setup.ne_of_parse {setup : Setup} {text : String} {root : Value}
    (h : setup.parse text = some root) : text ≠ "" := by
  rintro rfl
  rw [setup.parse_empty] at h
  cases h

-- ---------------------------------------------------------------------------
-- What the handlers share
-- ---------------------------------------------------------------------------

/-- `UI_MODE`. -/
inductive UiMode where
  | defaultMode
  | onlyPushStreamer
  | onlyKeyBoard
deriving DecidableEq

structure PushStreamerParams where
  serverUrl : String
  domain : String
  roomId : String
  framerate : String
  bitrate : String
  deadline : String
  cpuused : String
  x : String
  y : String
  mode : String
  capmode : String
  vol : String
deriving DecidableEq

structure StartGameParams where
  gameId : String
  startGameParams : String
  data : String
  force : Int
deriving DecidableEq

-- both records after `memset(.., 0, ..)`
def PushStreamerParams.cleared : PushStreamerParams :=
  ⟨"", "", "", "", "", "", "", "", "", "", "", ""⟩

def StartGameParams.cleared : StartGameParams := ⟨"", "", "", 0⟩

/-- The values of `pushStreamerRunningStatus.ini`. -/
@[ext] structure GameRecord where
  startGameParame : String
  startGameStatus : String
  gameId : String
deriving DecidableEq

inductive RecordKey where
  | startGameParame
  | startGameStatus
  | gameId
deriving DecidableEq

def GameRecord.set (r : GameRecord) (value : String) : RecordKey → GameRecord
  | .startGameParame => { r with startGameParame := value }
  | .startGameStatus => { r with startGameStatus := value }
  | .gameId => { r with gameId := value }

/-- A keyboard thread of the session: the pid that its gate compares with, and
whether `start` returned true. -/
structure KeyBoardSession where
  gamePid : Nat
  running : Bool
deriving DecidableEq

/-- An entry of the list of processes, with the name of its executable
(`szExeFile`). The process 0 is left out: a look that finds it returns 0, too. -/
structure Process where
  exeFile : String
  pid : Nat
  pos : 0 < pid
deriving DecidableEq

structure Session where
  mode : UiMode
  sessionId : String
  deviceNo : String
  controlUrl : String
  gameId : String
  pushStreamerParams : PushStreamerParams
  startGameParams : StartGameParams
  gamePid : Nat
  -- `none` when the file could not be opened
  record : Option GameRecord
  keyBoardThread : Option KeyBoardSession
  protectThread : Bool
  protectThreadFlag : Bool
  -- in the order of the snapshots
  processes : List Process

namespace Session

-- `RecordGameInfo::GetGameInfo` and `GetGameStatus`
def getGameInfo (s : Session) : String := s.record.elim "" GameRecord.startGameParame

def getGameStatus (s : Session) : Int :=
  toInt (s.record.elim "" GameRecord.startGameStatus).toList

end Session

-- ---------------------------------------------------------------------------
-- Atomic steps
-- ---------------------------------------------------------------------------

/-- The arguments of `push`. -/
structure PushArgs where
  port : String
  url : String
  hosturl : String
  framerate : Int
  bitrate : Int
  deadline : Int
  cpuused : Int
  x : Int
  y : Int
  mode : Int
  capmode : Int
  vol : Int
deriving DecidableEq

/-- What a keyboard thread is created and started with. -/
structure KeyBoardStart where
  nameKeyTablePath : String
  defaultKeyBoardPath : String
  gameKeyBoardPath : String
  controlUrl : String
  wsUrl : String
  loginCommand : String
deriving DecidableEq

/-- Messages to the control server: `GameReportDeviceState` and
`ReceiveCallback`. -/
inductive Report where
  | deviceState (sessionId deviceNo gameId : String) (status : Nat)
  | receiveCallback (sessionId receiveType resultCode resultMessage : String)
deriving DecidableEq

inductive SessionOp where
  | get
  | clearFunctionParams
  | lastGaspGoalPushStreamer
  | setGameId (gameId : String)
  | setPushStreamerParams (params : PushStreamerParams)
  | setStartGameParams (params : StartGameParams)
  -- `m_gamePid = isProcessRunning(exe)`
  | queryGamePid (exe : String)
  | isProcessRunning (exe : String)
  | sleep
  | killGameByName (exe : String)
  | executeOutterScript (params : List String)
  | setValue (key : RecordKey) (value : String)
  | closepush (port url : String)
  | push (args : PushArgs)
  -- stop and reset `m_keyBoardThread`, if there is one
  | stopKeyBoardThread
  | startKeyBoardThread (args : KeyBoardStart)
  | send (report : Report)
  | startProtectGstLaunch
  | stopProtectGstLaunch
  -- the steps of `ProtectGstLaunch` on its flag, the record and the keyboard thread
  | raiseProtectFlag
  | readProtectFlag
  | getGameStatus
  | setKeyBoardGamePid
deriving DecidableEq

/-- What each step returns. -/
def SessionOp.Res : SessionOp → Type
  | .get => Session
  | .queryGamePid _ | .isProcessRunning _ => Nat
  | .closepush _ _ | .push _ | .startKeyBoardThread _ | .readProtectFlag => Bool
  | .getGameStatus => Int
  | _ => Unit

abbrev sessionSig : Sig := ⟨SessionOp, SessionOp.Res⟩

/-- Programs of the handlers. -/
abbrev SProg (α : Type) := Prog sessionSig α

/-- One step. -/
abbrev act (o : SessionOp) : SProg o.Res := Prog.perform (S := sessionSig) o

/-- A step that is repeated while its result says so. -/
abbrev poll (o : SessionOp) (again : o.Res → Bool) : SProg o.Res :=
  Prog.repeatWhile (S := sessionSig) o again

/-- What the environment decides at one step. -/
structure Env where
  evolve : List Process → List Process
  closepush : Bool
  push : Bool

/-- These processes run, and no others. -/
def onlyRuns (processes : List Process) : Env :=
  { evolve := fun _ => processes, closepush := true, push := true }

/-- The executable is running. -/
def Running (exe : String) (processes : List Process) : Prop := ∃ p ∈ processes, p.exeFile = exe

/-- `g_gstLaunchName`. -/
def gstLaunchName : String := "gst-launch-1.0.exe"

/-- `isProcessRunning`: the pid of the first process whose name is `processName` once
it has gone through `ws2s`, or 0. -/
def isProcessRunning (codePage : CodePage) (processName : String) (processes : List Process) :
    Nat :=
  ((processes.find? fun p => codePage.ws2s p.exeFile = processName).map Process.pid).getD 0

/-- A process is found under a name just when `ws2s` gives some process that name. -/
theorem isProcessRunning_pos_iff {codePage : CodePage} {processName : String}
    {processes : List Process} :
    0 < isProcessRunning codePage processName processes ↔
      ∃ p ∈ processes, codePage.ws2s p.exeFile = processName := by
  unfold isProcessRunning
  cases hFind : processes.find? fun p => codePage.ws2s p.exeFile = processName with
  | none =>
    rw [List.find?_eq_none] at hFind
    exact iff_of_false (Nat.lt_irrefl 0) fun ⟨p, hMem, hName⟩ =>
      hFind p hMem (decide_eq_true hName)
  | some p =>
    have hName := List.find?_some hFind
    exact iff_of_true p.pos ⟨p, List.mem_of_find?_eq_some hFind, of_decide_eq_true hName⟩

theorem isProcessRunning_eq_zero_iff {codePage : CodePage} {processName : String}
    {processes : List Process} :
    isProcessRunning codePage processName processes = 0 ↔
      ∀ p ∈ processes, codePage.ws2s p.exeFile ≠ processName := by
  rw [← Nat.le_zero, ← Nat.not_lt, isProcessRunning_pos_iff]
  push Not
  rfl

/-- The list of processes without those of `exe`. -/
def withoutProcess (exe : String) (processes : List Process) : List Process :=
  processes.filter fun p => p.exeFile ≠ exe

theorem running_withoutProcess {exe name : String} {processes : List Process} :
    Running exe (withoutProcess name processes) ↔ Running exe processes ∧ exe ≠ name := by
  constructor
  · rintro ⟨p, hMem, rfl⟩
    obtain ⟨hIn, hOther⟩ := List.mem_filter.mp hMem
    exact ⟨⟨p, hIn, rfl⟩, of_decide_eq_true hOther⟩
  · rintro ⟨⟨p, hIn, rfl⟩, hOther⟩
    exact ⟨p, List.mem_filter.mpr ⟨hIn, decide_eq_true hOther⟩, rfl⟩

/-- What a step does and returns, once the environment has changed the list of
processes. A killed process is gone until the environment brings it back. -/
def execOp (codePage : CodePage) (e : Env) (s : Session) : (o : SessionOp) → o.Res × Session
  | .get => (s, s)
  | .clearFunctionParams => ((), { s with
      pushStreamerParams := .cleared, startGameParams := .cleared })
  | .lastGaspGoalPushStreamer => ((), { s with
      processes := withoutProcess gstLaunchName s.processes })
  | .setGameId gameId => ((), { s with gameId })
  | .setPushStreamerParams params => ((), { s with pushStreamerParams := params })
  | .setStartGameParams params => ((), { s with startGameParams := params })
  | .queryGamePid exe =>
    let pid := isProcessRunning codePage exe s.processes
    (pid, { s with gamePid := pid })
  | .isProcessRunning exe => (isProcessRunning codePage exe s.processes, s)
  | .sleep => ((), s)
  | .killGameByName exe => ((), { s with processes := withoutProcess exe s.processes })
  | .executeOutterScript _ => ((), s)
  | .setValue key value => ((), { s with
      record := s.record.map fun r => r.set (codePage.recode value) key })
  | .closepush _ _ => (e.closepush, s)
  | .push _ => (e.push, s)
  | .stopKeyBoardThread => ((), { s with keyBoardThread := none })
  | .startKeyBoardThread args =>
    -- `KeyBoardThread::start` refuses an empty address or login
    let running := decide (args.wsUrl ≠ "" ∧ args.loginCommand ≠ "")
    (running, { s with
      controlUrl := args.controlUrl
      keyBoardThread := some { gamePid := s.gamePid, running } })
  | .send _ => ((), s)
  | .startProtectGstLaunch => ((), { s with protectThread := true })
  | .stopProtectGstLaunch => ((), { s with
      protectThreadFlag := if s.protectThread then false else s.protectThreadFlag })
  | .raiseProtectFlag => ((), { s with protectThreadFlag := true })
  | .readProtectFlag => (s.protectThreadFlag, s)
  | .getGameStatus => (s.getGameStatus, s)
  | .setKeyBoardGamePid => ((), { s with
      -- `SetGamePid` keeps the old pid when it is given 0
      keyBoardThread := s.keyBoardThread.map fun k =>
        { k with gamePid := if s.gamePid ≠ 0 then s.gamePid else k.gamePid } })

def sessionHandler (codePage : CodePage) : Handler sessionSig Session Env where
  exec e s o := execOp codePage e { s with processes := e.evolve s.processes } o

end PushStreamer
