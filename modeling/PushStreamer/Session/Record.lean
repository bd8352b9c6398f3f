import PushStreamer.Lib.Register
import PushStreamer.Session.Replay

/-!
# The record of the session

`RecordGameInfo` keeps a payload, a game and a status in
`pushStreamerRunningStatus.ini`. The file is opened at the first call, whichever
it is; a file that does not exist is not created, and what is recorded then is
lost. A text is written in the code page and read as UTF-8.

* `record_recorded` — the store refines the record of the session: every call
  sets its fields, if the file is open.
* `record_faithful_iff` — when the fields read back as they were recorded last.
-/

namespace PushStreamer

-- ---------------------------------------------------------------------------
-- `RecordGameInfo`
-- ---------------------------------------------------------------------------

/-- `g_pushStreamerRunningStatus` and `g_iniTopic`. -/
def pushStreamerRunningStatus : String := "/pushStreamerRunningStatus.ini"

def iniTopic : String := "pushStreamerInfo"

/-- `g_startGameParame`, `g_startGameStatus` and `g_gameId`. -/
def RecordKey.name : RecordKey → String
  | .startGameParame => "startGameParame"
  | .startGameStatus => "startGameStatus"
  | .gameId => "gameId"

/-- `m_dealIniFile`, `none` before the first call. -/
abbrev RecordGameInfo := Option DealIniFile

/-- The directory of the program and the files of the system. -/
structure Installation where
  codePage : CodePage
  applicationDirPath : String
  files : String → DealIniFile

namespace RecordGameInfo

variable (inst : Installation) (info : RecordGameInfo)

/-- The file that the first call opens; a failure is only logged. -/
def openedFile : DealIniFile :=
  if inst.applicationDirPath ≠ "" then
    DealIniFile.openFile inst.files (inst.applicationDirPath ++ pushStreamerRunningStatus)
  else none

/-- `InitDealIniFile`: the file that the members use from then on. -/
def initDealIniFile : DealIniFile := info.getD (openedFile inst)

/-- `SetValue` of one field; its result is dropped. -/
def setField (file : DealIniFile) (key : RecordKey) (value : String) : DealIniFile :=
  (file.setValue inst.codePage iniTopic key.name value).2

/-- `RecordInfo(startGameParame, gameId, gameStatus)`. -/
def recordInfo (startGameParame gameId : String) (gameStatus : Int) : RecordGameInfo :=
  let file := initDealIniFile inst info
  let file := setField inst file .startGameParame startGameParame
  let file := setField inst file .startGameStatus (statusText gameStatus)
  some (setField inst file .gameId gameId)

/-- `RecordInfo(startGameParame)`. -/
def recordPayload (startGameParame : String) : RecordGameInfo :=
  some (setField inst (initDealIniFile inst info) .startGameParame startGameParame)

/-- `RecordInfo(gameStatus)`. -/
def recordStatus (gameStatus : Int) : RecordGameInfo :=
  some (setField inst (initDealIniFile inst info) .startGameStatus (statusText gameStatus))

/-- `RecordInfo(gameId, gameStatus)`. -/
def recordGame (gameId : String) (gameStatus : Int) : RecordGameInfo :=
  let file := initDealIniFile inst info
  let file := setField inst file .gameId gameId
  some (setField inst file .startGameStatus (statusText gameStatus))

/-- The text of a field. -/
def getField (key : RecordKey) : String :=
  (initDealIniFile inst info).getValue iniTopic key.name

/-- `GetGameInfo`, with what `InitDealIniFile` leaves. -/
def getGameInfo : String × RecordGameInfo :=
  (getField inst info .startGameParame, some (initDealIniFile inst info))

/-- `GetGameStatus`. -/
def getGameStatus : Int × RecordGameInfo :=
  (toInt (getField inst info .startGameStatus).toList, some (initDealIniFile inst info))

/-- `GetGameId`. -/
def getGameId : String × RecordGameInfo :=
  (getField inst info .gameId, some (initDealIniFile inst info))

end RecordGameInfo

-- ---------------------------------------------------------------------------
-- Sequences of calls
-- ---------------------------------------------------------------------------

/-- The calls of the four overloads of `RecordInfo`. -/
inductive RecordCall where
  | info (startGameParame gameId : String) (gameStatus : Int)
  | payload (startGameParame : String)
  | status (gameStatus : Int)
  | game (gameId : String) (gameStatus : Int)

namespace RecordCall

def perform (inst : Installation) (info : RecordGameInfo) : RecordCall → RecordGameInfo
  | .info startGameParame gameId gameStatus =>
    RecordGameInfo.recordInfo inst info startGameParame gameId gameStatus
  | .payload startGameParame => RecordGameInfo.recordPayload inst info startGameParame
  | .status gameStatus => RecordGameInfo.recordStatus inst info gameStatus
  | .game gameId gameStatus => RecordGameInfo.recordGame inst info gameId gameStatus

/-- What a call records, field by field. -/
def payload? : RecordCall → Option String
  | .info startGameParame _ _ | .payload startGameParame => some startGameParame
  | _ => none

def gameId? : RecordCall → Option String
  | .info _ gameId _ | .game gameId _ => some gameId
  | _ => none

def status? : RecordCall → Option Int
  | .info _ _ gameStatus | .status gameStatus | .game _ gameStatus => some gameStatus
  | _ => none

end RecordCall

/-- The calls of a program that starts with no file open. -/
def recordAll (inst : Installation) (calls : List RecordCall) : RecordGameInfo :=
  calls.foldl (RecordCall.perform inst) none

/-- What was recorded last in a field. -/
def lastRecorded {τ : Type} (field : RecordCall → Option τ) (calls : List RecordCall) : Option τ :=
  (calls.filterMap field).getLast?

-- ---------------------------------------------------------------------------
-- The store and the record of the session
-- ---------------------------------------------------------------------------

/-- The record that the session sees. -/
def DealIniFile.record (file : DealIniFile) : Option GameRecord :=
  file.map fun ini =>
    { startGameParame := ini.value iniTopic RecordKey.startGameParame.name
      startGameStatus := ini.value iniTopic RecordKey.startGameStatus.name
      gameId := ini.value iniTopic RecordKey.gameId.name }

/-- What a call does to an open record. -/
def GameRecord.perform (codePage : CodePage) (r : GameRecord) : RecordCall → GameRecord
  | .info startGameParame gameId gameStatus =>
    ((r.set (codePage.recode startGameParame) .startGameParame).set
      (codePage.recode (statusText gameStatus)) .startGameStatus).set
        (codePage.recode gameId) .gameId
  | .payload startGameParame => r.set (codePage.recode startGameParame) .startGameParame
  | .status gameStatus => r.set (codePage.recode (statusText gameStatus)) .startGameStatus
  | .game gameId gameStatus =>
    (r.set (codePage.recode gameId) .gameId).set
      (codePage.recode (statusText gameStatus)) .startGameStatus

section

variable {inst : Installation}

theorem recordKey_name_ne {key key' : RecordKey} (h : key' ≠ key) :
    ¬ SameName key.name key'.name := by
  revert h
  cases key <;> cases key' <;> decide

/-- One field of the file is one field of the record. -/
theorem record_setField (file : DealIniFile) (key : RecordKey) (value : String) :
    (RecordGameInfo.setField inst file key value).record =
      file.record.map fun r => r.set (inst.codePage.recode value) key := by
  have hNamed : iniTopic ≠ "" ∧ key.name ≠ "" := by
    refine ⟨by decide, ?_⟩
    cases key <;> decide
  rw [RecordGameInfo.setField, DealIniFile.setValue_eq _ _ hNamed]
  cases file with
  | none => rfl
  | some ini =>
    -- the three keys have three names, so that one write leaves the other two
    have hKeep : ∀ key' : RecordKey, key' ≠ key →
        (ini.setValue iniTopic key.name (inst.codePage.recode value)).value iniTopic key'.name =
          ini.value iniTopic key'.name := fun key' hNe =>
      Ini.value_setValue_of_ne ini iniTopic key.name _ (recordKey_name_ne hNe)
    have hSet := Ini.value_setValue ini iniTopic key.name (inst.codePage.recode value)
    refine congrArg some ?_
    cases key with
    | startGameParame =>
      exact GameRecord.ext hSet (hKeep .startGameStatus (by decide)) (hKeep .gameId (by decide))
    | startGameStatus =>
      exact GameRecord.ext (hKeep .startGameParame (by decide)) hSet (hKeep .gameId (by decide))
    | gameId =>
      exact GameRecord.ext (hKeep .startGameParame (by decide))
        (hKeep .startGameStatus (by decide)) hSet

/-- A call, on a file that is open or not. -/
theorem record_perform (info : RecordGameInfo) (call : RecordCall) :
    (RecordGameInfo.initDealIniFile inst (call.perform inst info)).record =
      (RecordGameInfo.initDealIniFile inst info).record.map fun r =>
        r.perform inst.codePage call := by
  cases call with
  | info startGameParame gameId gameStatus =>
    show (RecordGameInfo.setField _ _ _ _).record = _
    rw [record_setField, record_setField, record_setField, Option.map_map, Option.map_map]
    rfl
  | payload startGameParame => exact record_setField _ _ _
  | status gameStatus => exact record_setField _ _ _
  | game gameId gameStatus =>
    show (RecordGameInfo.setField _ _ _ _).record = _
    rw [record_setField, record_setField, Option.map_map]
    rfl

/-- **The store refines the record**: the calls act on the record that the file
held when it was opened. -/
theorem record_recorded (calls : List RecordCall) :
    (RecordGameInfo.initDealIniFile inst (recordAll inst calls)).record =
      (RecordGameInfo.openedFile inst).record.map fun r =>
        calls.foldl (GameRecord.perform inst.codePage) r := by
  induction calls using List.reverseRecOn with
  | nil => exact Option.map_id'.symm
  | append_singleton calls call ih =>
    have hLast : recordAll inst (calls ++ [call]) = call.perform inst (recordAll inst calls) :=
      List.foldl_append
    rw [hLast, record_perform, ih, Option.map_map]
    refine congrArg (Option.map · _) (funext fun r => ?_)
    rw [List.foldl_append]
    rfl

/-- What a field of the record holds after the calls. -/
theorem perform_fields (codePage : CodePage) (calls : List RecordCall) (r : GameRecord) :
    calls.foldl (GameRecord.perform codePage) r =
      { startGameParame := ((lastRecorded RecordCall.payload? calls).map codePage.recode).getD
          r.startGameParame
        startGameStatus := ((lastRecorded RecordCall.status? calls).map fun gameStatus =>
          codePage.recode (statusText gameStatus)).getD r.startGameStatus
        gameId :=
          ((lastRecorded RecordCall.gameId? calls).map codePage.recode).getD r.gameId } := by
  induction calls using List.reverseRecOn with
  | nil => rfl
  | append_singleton calls call ih =>
    have hLast' : ∀ {τ : Type} (field : RecordCall → Option τ),
        lastRecorded field (calls ++ [call]) = (field call).or (lastRecorded field calls) := by
      intro τ field
      rw [lastRecorded, List.filterMap_append, List.getLast?_append, lastRecorded]
      cases hField : field call with
      | none => rw [List.filterMap_cons_none hField]; rfl
      | some v => rw [List.filterMap_cons_some hField]; rfl
    rw [List.foldl_append, ih, hLast', hLast', hLast']
    cases call with
    | _ => rfl

end

-- ---------------------------------------------------------------------------
-- When the store is faithful
-- ---------------------------------------------------------------------------

/-- Each field reads back as it was recorded last, the status as 0 or 1, and a
replay is one of the payload that was recorded last. -/
def Faithful (inst : Installation) (calls : List RecordCall) : Prop :=
  let info := recordAll inst calls
  (∀ text, lastRecorded RecordCall.payload? calls = some text →
    (RecordGameInfo.getGameInfo inst info).1 = text) ∧
  (∀ gameId, lastRecorded RecordCall.gameId? calls = some gameId →
    (RecordGameInfo.getGameId inst info).1 = gameId) ∧
  (∀ gameStatus, lastRecorded RecordCall.status? calls = some gameStatus →
    (RecordGameInfo.getGameStatus inst info).1 = if gameStatus ≠ 0 then 1 else 0) ∧
  ∀ (setup : Setup) (s : Session) (text : String) (gameStatus : Int),
    s.record = (RecordGameInfo.initDealIniFile inst info).record →
    lastRecorded RecordCall.payload? calls = some text →
    lastRecorded RecordCall.status? calls = some gameStatus →
    Trigger.signIn.replayed setup s =
      if gameStatus ≠ 0 then some (text, .normalModel) else none

/-- What a text recorded last must be to read back. -/
def Installation.Keeps (inst : Installation) (text : String) : Prop :=
  if (RecordGameInfo.openedFile inst).isSome = true then inst.codePage.recode text = text
  else text = ""

section

variable {inst : Installation} {calls : List RecordCall}

/-- The getters read the record. -/
theorem getField_eq (inst : Installation) (info : RecordGameInfo) :
    (RecordGameInfo.getGameInfo inst info).1 =
        (RecordGameInfo.initDealIniFile inst info).record.elim "" GameRecord.startGameParame ∧
      (RecordGameInfo.getGameId inst info).1 =
        (RecordGameInfo.initDealIniFile inst info).record.elim "" GameRecord.gameId ∧
      (RecordGameInfo.getGameStatus inst info).1 =
        toInt ((RecordGameInfo.initDealIniFile inst info).record.elim ""
          GameRecord.startGameStatus).toList := by
  unfold RecordGameInfo.getGameInfo RecordGameInfo.getGameId RecordGameInfo.getGameStatus
    RecordGameInfo.getField
  cases RecordGameInfo.initDealIniFile inst info with
  | none => exact ⟨rfl, rfl, rfl⟩
  | some ini => exact ⟨rfl, rfl, rfl⟩

/-- A status reads back as 0 or 1, if the file is open. -/
theorem toInt_recode_statusText (codePage : CodePage) (gameStatus : Int) :
    toInt (codePage.recode (statusText gameStatus)).toList = if gameStatus ≠ 0 then 1 else 0 := by
  unfold statusText
  split
  · rw [codePage.recode_eq (by decide)]
    decide
  · rw [codePage.recode_eq (by decide)]
    decide

/-- What the getters return, by what was recorded last. -/
theorem getters_of_recorded (inst : Installation) (calls : List RecordCall) :
    (∀ text, lastRecorded RecordCall.payload? calls = some text →
      (RecordGameInfo.getGameInfo inst (recordAll inst calls)).1 =
        if (RecordGameInfo.openedFile inst).isSome = true then inst.codePage.recode text else "") ∧
    (∀ gameId, lastRecorded RecordCall.gameId? calls = some gameId →
      (RecordGameInfo.getGameId inst (recordAll inst calls)).1 =
        if (RecordGameInfo.openedFile inst).isSome = true then inst.codePage.recode gameId
        else "") ∧
    (∀ gameStatus, lastRecorded RecordCall.status? calls = some gameStatus →
      (RecordGameInfo.getGameStatus inst (recordAll inst calls)).1 =
        if (RecordGameInfo.openedFile inst).isSome = true ∧ gameStatus ≠ 0 then 1 else 0) := by
  obtain ⟨hInfo, hId, hStatus⟩ := getField_eq inst (recordAll inst calls)
  rw [hInfo, hId, hStatus, record_recorded]
  cases RecordGameInfo.openedFile inst with
  | none =>
    -- a file that is not open has no values
    refine ⟨fun _ _ => rfl, fun _ _ => rfl, fun gameStatus _ => ?_⟩
    rw [if_neg fun h => Bool.false_ne_true h.1]
    rfl
  | some ini =>
    rw [show DealIniFile.record (some ini) = some _ from rfl, Option.map_some, perform_fields]
    refine ⟨fun text h => ?_, fun gameId h => ?_, fun gameStatus h => ?_⟩
    · rw [h]
      rfl
    · rw [h]
      rfl
    · rw [h]
      refine (toInt_recode_statusText inst.codePage gameStatus).trans (if_congr ?_ rfl rfl)
      exact ⟨fun h => ⟨rfl, h⟩, And.right⟩

/-- Both ways a text reads back as it was recorded just when it can be kept. -/
theorem reads_back_iff (inst : Installation) (text : String) :
    (if (RecordGameInfo.openedFile inst).isSome = true then inst.codePage.recode text else "") =
      text ↔ inst.Keeps text := by
  unfold Installation.Keeps
  split
  · exact Iff.rfl
  · exact eq_comm

theorem status_reads_back_iff (inst : Installation) (gameStatus : Int) :
    (if (RecordGameInfo.openedFile inst).isSome = true ∧ gameStatus ≠ 0 then (1 : Int) else 0) =
        (if gameStatus ≠ 0 then 1 else 0) ↔
      (RecordGameInfo.openedFile inst).isSome = true ∨ gameStatus = 0 := by
  by_cases hOpen : (RecordGameInfo.openedFile inst).isSome = true <;>
    by_cases hZero : gameStatus = 0 <;> simp [hOpen, hZero]

/-- **The record is faithful** just when what was recorded last in a field can be
kept: with an open file a text that the code page keeps, and any status; without
one the empty text and the status 0. -/
theorem record_faithful_iff (inst : Installation) (calls : List RecordCall) :
    Faithful inst calls ↔
      (∀ text, lastRecorded RecordCall.payload? calls = some text → inst.Keeps text) ∧
      (∀ gameId, lastRecorded RecordCall.gameId? calls = some gameId → inst.Keeps gameId) ∧
      (∀ gameStatus, lastRecorded RecordCall.status? calls = some gameStatus →
        (RecordGameInfo.openedFile inst).isSome = true ∨ gameStatus = 0) := by
  obtain ⟨hInfo, hId, hStatus⟩ := getters_of_recorded inst calls
  constructor
  · rintro ⟨hText, hGame, hValue, -⟩
    refine ⟨fun text h => ?_, fun gameId h => ?_, fun gameStatus h => ?_⟩
    · exact (reads_back_iff inst text).mp ((hInfo text h).symm.trans (hText text h))
    · exact (reads_back_iff inst gameId).mp ((hId gameId h).symm.trans (hGame gameId h))
    · exact (status_reads_back_iff inst gameStatus).mp
        ((hStatus gameStatus h).symm.trans (hValue gameStatus h))
  · rintro ⟨hText, hGame, hValue⟩
    have hReadText : ∀ text, lastRecorded RecordCall.payload? calls = some text →
        (RecordGameInfo.getGameInfo inst (recordAll inst calls)).1 = text := fun text h =>
      (hInfo text h).trans ((reads_back_iff inst text).mpr (hText text h))
    have hReadStatus : ∀ gameStatus, lastRecorded RecordCall.status? calls = some gameStatus →
        (RecordGameInfo.getGameStatus inst (recordAll inst calls)).1 =
          if gameStatus ≠ 0 then 1 else 0 := fun gameStatus h =>
      (hStatus gameStatus h).trans ((status_reads_back_iff inst gameStatus).mpr
        (hValue gameStatus h))
    refine ⟨hReadText, fun gameId h => (hId gameId h).trans
      ((reads_back_iff inst gameId).mpr (hGame gameId h)), hReadStatus, ?_⟩
    -- a replay reads the same two fields
    intro setup s text gameStatus hRecord hLast hLastStatus
    obtain ⟨hSessionInfo, -, hSessionStatus⟩ := getField_eq inst (recordAll inst calls)
    have hParame : s.getGameInfo = text := by
      rw [← hReadText text hLast, hSessionInfo, ← hRecord]
      rfl
    have hRunning : s.getGameStatus = if gameStatus ≠ 0 then 1 else 0 := by
      rw [← hReadStatus gameStatus hLastStatus, hSessionStatus, ← hRecord]
      rfl
    rw [Trigger.replayed, hParame, hRunning]
    by_cases hZero : gameStatus = 0 <;> simp [hZero]

/-- Without the file a running game is recorded, and reads back as no game. -/
theorem lost_without_file :
    ¬ Faithful ⟨.utf8, "C:/app", fun _ => none⟩ [.info "x" "g1" 1] := by
  rintro ⟨-, -, hStatus, -⟩
  exact absurd (hStatus 1 rfl) (by decide)

end

end PushStreamer
