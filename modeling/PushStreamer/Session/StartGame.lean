import PushStreamer.Session.Effects

/-!
# StartGame

What the handler of a StartGame message does with a payload. The JSON members
that it reads must all be there with the right type (`StartReadable`), or the
handler's thread ends in the middle. A readable payload is answered when a
member that the parameter check wants is empty, and carried out otherwise; the
codes that `closepush` and `push` return are dropped.

* `returns_readStartGame`, `readStartGame_fields` — reading the payload.
* `exec_startGameCallback` — one complete execution of the handler.
* `startGame_settled_iff` — when a StartGame is carried out or answered.
-/

namespace PushStreamer

open Value

-- ---------------------------------------------------------------------------
-- Reading the payload
-- ---------------------------------------------------------------------------

/-- The text of a member, empty for any other value. -/
def memberText (ms : List (String × Value)) (name : String) : String :=
  match member ms name with
  | .str s => s
  | _ => ""

/-- The members that `StartGameCallback` reads with `asCString`. -/
def startTexts : List String :=
  ["gameId", "roomId", "playerUrl", "serverUrl", "controlUrl", "port", "framerate", "bitrate",
   "deadline", "cpuused", "x", "y", "mode", "capmode", "vol", "control", "fileMiniTime",
   "isQueuing", "startGameParams"]

/-- Every member that `StartGameCallback` reads has the type that it needs. -/
def StartReadable (ms : List (String × Value)) : Prop :=
  (∀ name ∈ startTexts, ∃ s, member ms name = .str s) ∧ FitsInt (member ms "force")

/-- A member that the parameter check wants is empty. -/
def ParamEmpty (ms : List (String × Value)) : Prop :=
  ∃ name ∈ ["serverUrl", "controlUrl", "port", "roomId", "gameId"], memberText ms name = ""

instance (ms : List (String × Value)) : Decidable (ParamEmpty ms) := by
  unfold ParamEmpty
  infer_instance

section

variable (setup : Setup) (ms : List (String × Value)) (deviceNo : String)

/-- `asCString` returns for a text only. -/
theorem returns_readText (name : String) :
    Returns (readText (.obj ms) name) ↔ ∃ s, member ms name = .str s := by
  rw [readText, index_of_members rfl]
  exact returns_asCString

theorem readText_eq {ms : List (String × Value)} {name : String}
    (h : ∃ s, member ms name = .str s) :
    readText (.obj ms) name = .ok (memberText ms name) := by
  obtain ⟨s, hs⟩ := h
  rw [readText, index_of_members rfl, memberText, hs]
  rfl

/-- The login is read of any payload, and is never empty. -/
theorem keyboardLogin_returns :
    ∃ login, keyboardLogin setup deviceNo (.obj ms) = .ok login ∧ login ≠ "" := by
  unfold keyboardLogin
  rw [index_of_members rfl]
  cases member ms "keyboardLoginParams" with
  | null => exact ⟨_, rfl, setup.write_ne _⟩
  | obj ks => exact ⟨_, rfl, setup.write_ne _⟩
  | _ => exact ⟨_, rfl, setup.write_ne _⟩

/-- The members of a payload are read just when the texts are texts and the force fits. -/
theorem returns_readStartGame :
    Returns (readStartGame setup deviceNo (.obj ms)) ↔
      (∀ name ∈ startTexts.tail, ∃ s, member ms name = .str s) ∧ FitsInt (member ms "force") := by
  have hText := returns_readText ms
  have hForce : Returns ((Value.obj ms).memberOr "force" asInt 0) ↔ FitsInt (member ms "force") :=
    (returns_memberOr rfl "force" (by simp [FitsInt])).trans returns_asInt
  have hLogin : Returns (keyboardLogin setup deviceNo (.obj ms)) ↔ True :=
    iff_true_intro ((keyboardLogin_returns setup ms deviceNo).imp fun _ h => h.1)
  unfold readStartGame
  refine (returns_bind_congr (hText _) fun _ => returns_bind_congr (hText _) fun _ =>
    returns_bind_congr (hText _) fun _ => returns_bind_congr (hText _) fun _ =>
    returns_bind_congr (hText _) fun _ => returns_bind_congr (hText _) fun _ =>
    returns_bind_congr (hText _) fun _ => returns_bind_congr (hText _) fun _ =>
    returns_bind_congr (hText _) fun _ => returns_bind_congr (hText _) fun _ =>
    returns_bind_congr (hText _) fun _ => returns_bind_congr (hText _) fun _ =>
    returns_bind_congr (hText _) fun _ => returns_bind_congr (hText _) fun _ =>
    returns_bind_congr (hText _) fun _ => returns_bind_congr (hText _) fun _ =>
    returns_bind_congr (hText _) fun _ => returns_bind_congr hForce fun _ =>
    returns_bind_congr hLogin fun _ => returns_bind_congr (hText _) fun _ =>
    iff_true_intro (returns_pure _)).trans ?_
  simp only [startTexts, List.tail_cons, List.forall_mem_cons, List.not_mem_nil, and_true,
    true_and, false_imp_iff, implies_true, and_assoc]
  rw [and_comm (a := FitsInt (member ms "force"))]

/-- What is read of a payload, with the login that goes to the keyboard
channel. -/
def startFields (login : String) : StartGameFields where
  roomId := memberText ms "roomId"
  playerUrl := memberText ms "playerUrl"
  serverUrl := memberText ms "serverUrl"
  controlUrl := memberText ms "controlUrl"
  port := memberText ms "port"
  framerate := memberText ms "framerate"
  bitrate := memberText ms "bitrate"
  deadline := memberText ms "deadline"
  cpuused := memberText ms "cpuused"
  x := memberText ms "x"
  y := memberText ms "y"
  mode := memberText ms "mode"
  capmode := memberText ms "capmode"
  vol := memberText ms "vol"
  control := memberText ms "control"
  fileMiniTime := memberText ms "fileMiniTime"
  isQueuing := memberText ms "isQueuing"
  force := (member ms "force").intOf
  keyboardLoginParams := login
  startGameParams := memberText ms "startGameParams"

/-- What is read of them, up to the login, which has a random part. -/
theorem readStartGame_eq {f : StartGameFields}
    (h : readStartGame setup deviceNo (.obj ms) = .ok f) :
    ∃ login, login ≠ "" ∧ f = startFields ms login := by
  obtain ⟨hTexts, hForce⟩ := (returns_readStartGame setup ms deviceNo).mp ⟨f, h⟩
  have hText : ∀ name ∈ startTexts.tail, readText (.obj ms) name = .ok (memberText ms name) :=
    fun name hName => readText_eq (hTexts name hName)
  obtain ⟨login, hLogin, hNe⟩ := keyboardLogin_returns setup ms deviceNo
  simp only [readStartGame, bind, Except.bind, hText "roomId" (by decide),
    hText "playerUrl" (by decide), hText "serverUrl" (by decide), hText "controlUrl" (by decide),
    hText "port" (by decide), hText "framerate" (by decide), hText "bitrate" (by decide),
    hText "deadline" (by decide), hText "cpuused" (by decide), hText "x" (by decide),
    hText "y" (by decide), hText "mode" (by decide), hText "capmode" (by decide),
    hText "vol" (by decide), hText "control" (by decide), hText "fileMiniTime" (by decide),
    hText "isQueuing" (by decide), hText "startGameParams" (by decide), hLogin,
    memberOr_asInt (v := .obj ms) rfl "force" hForce] at h
  exact ⟨login, hNe, (Except.ok.inj h).symm⟩

/-- What a payload that could be read holds, as far as its handling depends
on it. -/
theorem readStartGame_fields {f : StartGameFields}
    (h : readStartGame setup deviceNo (.obj ms) = .ok f) :
    f.serverUrl = memberText ms "serverUrl" ∧ f.controlUrl = memberText ms "controlUrl" ∧
      f.port = memberText ms "port" ∧ f.roomId = memberText ms "roomId" ∧
      f.force = (member ms "force").intOf ∧ f.keyboardLoginParams ≠ "" := by
  obtain ⟨login, hNe, rfl⟩ := readStartGame_eq setup ms deviceNo h
  exact ⟨rfl, rfl, rfl, rfl, rfl, hNe⟩

/-- The stream parameters that an accepted payload saves. -/
def sessionParams : PushStreamerParams := pushParams (startFields ms "")

/-- The parameters of the stream do not depend on the login. -/
theorem pushParams_of_readStartGame {f : StartGameFields}
    (h : readStartGame setup deviceNo (.obj ms) = .ok f) : pushParams f = sessionParams ms := by
  obtain ⟨login, -, rfl⟩ := readStartGame_eq setup ms deviceNo h
  rfl

end

-- ---------------------------------------------------------------------------
-- One execution
-- ---------------------------------------------------------------------------

/-- `push` returned true. -/
def isPushed : Event sessionSig → Bool
  | ⟨.push _, ret⟩ => ret
  | _ => false

/-- A keyboard thread was started, and `start` returned true. -/
def isKeyboardStarted : Event sessionSig → Bool
  | ⟨.startKeyBoardThread _, ret⟩ => ret
  | _ => false

/-- A `MessageFeedBack("StartGame", code, ..)` with a nonzero code was sent. -/
def isAnswer : Event sessionSig → Bool
  | ⟨.send (.receiveCallback _ receiveType resultCode _), _⟩ =>
    receiveType = "StartGame" && resultCode ≠ "0"
  | _ => false

/-- The game is recorded as running, `push` returned true and the keyboard
thread was started. -/
def CarriedOut (s' : Session) (t : List (Event sessionSig)) : Prop :=
  s'.getGameStatus = 1 ∧ t.any isPushed ∧ t.any isKeyboardStarted

/-- A trace whose steps are of other kinds has no event of a given one. -/
theorem any_eq_false_of_kinds {t : List (Event sessionSig)} {ks : List Kind}
    (hKinds : ∀ ev ∈ t, SessionOp.kind ev.op ∈ ks) {P : Event sessionSig → Bool} {k : Kind}
    (hP : ∀ ev, P ev = true → SessionOp.kind ev.op = k) (hk : k ∉ ks) : t.any P = false := by
  rw [List.any_eq_false]
  intro ev hev hTrue
  exact hk (hP ev hTrue ▸ hKinds ev hev)

/-- What counts as a push is a step on the stream; the other two tests likewise. -/
theorem kind_of_isPushed (ev : Event sessionSig) (h : isPushed ev = true) :
    SessionOp.kind ev.op = .stream := by
  obtain ⟨o, r⟩ := ev
  cases o <;> first | rfl | cases h

theorem kind_of_isKeyboardStarted (ev : Event sessionSig) (h : isKeyboardStarted ev = true) :
    SessionOp.kind ev.op = .keyboard := by
  obtain ⟨o, r⟩ := ev
  cases o <;> first | rfl | cases h

theorem kind_of_isAnswer (ev : Event sessionSig) (h : isAnswer ev = true) :
    SessionOp.kind ev.op = .answer := by
  obtain ⟨o, r⟩ := ev
  cases o with
  | send report =>
    cases report with
    | deviceState => cases h
    | receiveCallback => rfl
  | _ => cases h

section

variable {setup : Setup} {A : Env → Prop} {s s' : Session} {t : List (Event sessionSig)}

/-- The record after `RecordInfo` with all three values. -/
theorem exec_recordInfo {startGameParame gameId : String} {gameStatus : Int} {u : Unit}
    (h : Prog.Exec (sessionHandler setup.codePage) A
      (recordInfo startGameParame gameId gameStatus) s t u s') :
    s'.record = s.record.map fun _ =>
      { startGameParame := setup.codePage.recode startGameParame
        startGameStatus := setup.codePage.recode (statusText gameStatus)
        gameId := setup.codePage.recode gameId } := by
  obtain ⟨t₁, t', _, s₁, -, h₁, hRest⟩ := Prog.exec_bind.mp h
  obtain ⟨t₂, t₃, _, s₂, -, h₂, h₃⟩ := Prog.exec_bind.mp hRest
  obtain ⟨e₁, -, -, hExec₁⟩ := Prog.exec_perform.mp h₁
  obtain ⟨e₂, -, -, hExec₂⟩ := Prog.exec_perform.mp h₂
  obtain ⟨e₃, -, -, hExec₃⟩ := Prog.exec_perform.mp h₃
  -- each step writes its own key
  have hRecord₁ := record_of_setValue hExec₁
  have hRecord₂ := record_of_setValue hExec₂
  have hRecord₃ := record_of_setValue hExec₃
  rw [hRecord₃, hRecord₂, hRecord₁, Option.map_map, Option.map_map]
  rfl

/-- `StartGameAction` records the game as running, and changes the record in no
other way. -/
theorem exec_startGameAction {gameId startGameParams data : String} {force : Int} {u : Unit}
    (h : Prog.Exec (sessionHandler setup.codePage) A
      (startGameAction setup gameId startGameParams data force) s t u s') :
    s'.record = s.record.map fun _ =>
      { startGameParame := setup.codePage.recode data
        startGameStatus := setup.codePage.recode (statusText 1)
        gameId := setup.codePage.recode gameId } := by
  obtain ⟨t₁, t', _, s₁, rfl, hLaunch, hRest⟩ := Prog.exec_bind.mp h
  obtain ⟨t₂, t₃, _, s₂, rfl, hWait, hRecord⟩ := Prog.exec_bind.mp hRest
  rw [exec_recordInfo hRecord, (uses_waitForGame setup gameId).keeps_record (by decide) hWait,
    (uses_launchGame setup gameId startGameParams data force).keeps_record (by decide) hLaunch]

/-- The status that the ini file gives back for a recorded one. -/
theorem toInt_recode_one : toInt (setup.codePage.recode (statusText 1)).toList = 1 := by
  rw [setup.codePage.recode_eq (by decide)]
  decide

/-- The stream is pushed when both calls of the library succeed. -/
theorem exec_pushStreamerAction {params : PushStreamerParams} {u : Unit} {cp pu : Bool}
    (hA : ∀ e, A e → e.closepush = cp ∧ e.push = pu)
    (h : Prog.Exec (sessionHandler setup.codePage) A (pushStreamerAction setup params) s t u s') :
    t.any isPushed = (cp && pu) := by
  obtain ⟨e₁, tRest, -, rfl, h₁⟩ := Prog.exec_then.mp h
  obtain ⟨e₂, tPush, hA₂, rfl, h₂⟩ := Prog.exec_then.mp h₁
  obtain ⟨rfl, -⟩ := hA e₂ hA₂
  change Prog.Exec _ A (Prog.onlyIf (e₂.closepush = true) _) _ tPush u s' at h₂
  by_cases hClosed : e₂.closepush = true
  · rw [Prog.onlyIf_pos hClosed] at h₂
    obtain ⟨e₃, tPure, hA₃, rfl, hPure⟩ := Prog.exec_then.mp h₂
    obtain ⟨rfl, -, -⟩ := Prog.exec_pure.mp hPure
    obtain ⟨-, rfl⟩ := hA e₃ hA₃
    rw [hClosed, Bool.true_and]
    exact Bool.or_false _
  · rw [Prog.onlyIf_neg hClosed] at h₂
    obtain ⟨rfl, -, -⟩ := Prog.exec_pure.mp h₂
    rw [Bool.eq_false_iff.mpr hClosed]
    rfl

/-- An address is made when all of its parts are there. -/
theorem assembleWSServer_ne {wsUrl key deviceNo : String} :
    assembleWSServer setup wsUrl key deviceNo ≠ "" ↔ wsUrl ≠ "" ∧ key ≠ "" ∧ deviceNo ≠ "" := by
  unfold assembleWSServer
  split
  · rename_i h
    simp only [ne_eq, not_true_eq_false, false_iff]
    tauto
  · rename_i h
    exact iff_of_true (by simp) (by tauto)

/-- The keyboard thread is started when its address and the login are there. -/
theorem exec_startKeyboardAction {gameId controlUrl login : String} {u : Unit}
    (h : Prog.Exec (sessionHandler setup.codePage) A
      (startKeyboardAction setup gameId controlUrl login) s t u s') :
    t.any isKeyboardStarted = true ↔
      (controlUrl ≠ "" ∧ setup.wsServerKey ≠ "" ∧ s.deviceNo ≠ "") ∧ login ≠ "" := by
  obtain ⟨e₁, tRest, -, rfl, h₁⟩ := Prog.exec_then.mp h
  obtain ⟨e₂, tRest, -, rfl, h₂⟩ := Prog.exec_then.mp h₁
  obtain ⟨e₃, tProtect, -, rfl, h₃⟩ := Prog.exec_then.mp h₂
  obtain ⟨e₄, -, rfl, -⟩ := Prog.exec_perform.mp h₃
  -- the event of the start is the only one that counts
  have hAny : ∀ ret : Bool, (false || (false || (ret || (false || false)))) = ret := by decide
  refine (Bool.eq_iff_iff.mp (hAny _)).trans ?_
  rw [← assembleWSServer_ne]
  exact decide_eq_true_iff

/-- What is left of a payload that passed the check: it is carried out when the
record file is open, both stream calls return true and the keyboard thread
starts. -/
theorem exec_carryOut {gameId data : String} {f : StartGameFields} {u : Unit} {cp pu : Bool}
    (hA : ∀ e, A e → e.closepush = cp ∧ e.push = pu)
    (h : Prog.Exec (sessionHandler setup.codePage) A
      (carryOut setup gameId data f .normalModel) s t u s') :
    CarriedOut s' t ↔ s.record.isSome ∧ (cp = true ∧ pu = true) ∧
      (f.controlUrl ≠ "" ∧ setup.wsServerKey ≠ "" ∧ s.deviceNo ≠ "") ∧
        f.keyboardLoginParams ≠ "" := by
  obtain ⟨tStart, t', _, s₁, rfl, hStart, hRest⟩ := Prog.exec_bind.mp h
  obtain ⟨tPush, tKey, _, s₂, rfl, hPush, hKey⟩ := Prog.exec_bind.mp hRest
  rw [Prog.onlyIf_pos rfl] at hKey
  have hUsesStart := uses_startGameAction setup gameId f.startGameParams data f.force
  have hUsesPush := uses_pushStreamerAction setup (pushParams f)
  have hUsesKey := uses_startKeyboardAction setup gameId f.controlUrl f.keyboardLoginParams
  -- the status: written by the first part, kept by the others
  have hStatus : s'.getGameStatus = 1 ↔ s.record.isSome = true := by
    have hKept : s'.record = s₁.record :=
      (hUsesKey.keeps_record (by decide) hKey).trans (hUsesPush.keeps_record (by decide) hPush)
    rw [Session.getGameStatus, hKept, exec_startGameAction hStart]
    cases s.record with
    | none => exact iff_of_false (show ¬ toInt "".toList = 1 by decide) (by decide)
    | some r => exact iff_of_true toInt_recode_one rfl
  -- the calls: each in its own part
  have hPushed := any_eq_false_of_kinds (hUsesStart.kinds hStart.path) kind_of_isPushed (by decide)
  have hPushed' := any_eq_false_of_kinds (hUsesKey.kinds hKey.path) kind_of_isPushed (by decide)
  have hKeyboard := any_eq_false_of_kinds (hUsesStart.kinds hStart.path)
    kind_of_isKeyboardStarted (by decide)
  have hKeyboard' := any_eq_false_of_kinds (hUsesPush.kinds hPush.path)
    kind_of_isKeyboardStarted (by decide)
  have hDeviceNo : s₂.deviceNo = s.deviceNo :=
    (deviceNo_of_exec hPush).trans (deviceNo_of_exec hStart)
  unfold CarriedOut
  rw [hStatus, List.any_append, List.any_append, List.any_append, List.any_append, hPushed,
    hPushed', hKeyboard, hKeyboard', exec_pushStreamerAction hA hPush, Bool.false_or,
    Bool.or_false, Bool.false_or, Bool.false_or, Bool.and_eq_true,
    exec_startKeyboardAction hKey, hDeviceNo]

/-- The check of the parameters, on what was read of the payload. -/
theorem paramMissing_iff {ms : List (String × Value)} {f : StartGameFields} {deviceNo : String}
    (h : readStartGame setup deviceNo (.obj ms) = .ok f) :
    paramMissing (memberText ms "gameId") f ↔ ParamEmpty ms := by
  obtain ⟨hServer, hControl, hPort, hRoom, -, hLogin⟩ := readStartGame_fields setup ms deviceNo h
  unfold paramMissing ParamEmpty
  rw [hServer, hControl, hPort, hRoom]
  simp only [hLogin, or_false, List.mem_cons, List.not_mem_nil, exists_eq_or_imp, exists_eq_left]

/-- An answer is sent, whatever the state. -/
theorem exec_messageFeedBack {resultMsg : String} {u : Unit}
    (h : Prog.Exec (sessionHandler setup.codePage) A
      (messageFeedBack "StartGame" "-2" resultMsg) s t u s') :
    t.any isAnswer = true := by
  rw [messageFeedBack, Prog.onlyIf_pos (by decide)] at h
  obtain ⟨t₁, t₂, _, s₁, rfl, h₁, h₂⟩ := Prog.exec_bind.mp h
  obtain ⟨e₂, -, rfl, -⟩ := Prog.exec_perform.mp h₂
  rw [List.any_append, Bool.or_eq_true]
  exact Or.inr rfl

/-- The execution ended without a failure, and the game was carried out or
answered. -/
def Settled (r : Except JsonFailure Unit) (s' : Session) (t : List (Event sessionSig)) : Prop :=
  r = .ok () ∧ (CarriedOut s' t ∨ t.any isAnswer = true)

/-- The steps of the handler before its parameter check. -/
def beforeCheck (setup : Setup) (gameId : String) : SProg Session := do
  act .clearFunctionParams
  act .lastGaspGoalPushStreamer
  foreachKillExe setup gameId
  act (.setGameId gameId)
  act .get

def earlyKinds : List Kind := [.query, .params, .kill]

/-- `beforeCheck` from `ForeachKillExe` on. -/
def killAndSet (setup : Setup) (gameId : String) : SProg Session := do
  foreachKillExe setup gameId
  act (.setGameId gameId)
  act .get

theorem uses_killAndSet (setup : Setup) (gameId : String) :
    Uses earlyKinds (killAndSet setup gameId) := by
  refine uses_bind ?_ fun _ => uses_bind (uses_act.mpr (by simp [earlyKinds])) fun _ =>
    uses_act.mpr (by simp [earlyKinds])
  exact (uses_killOthers setup gameId _).mono (by simp [earlyKinds])

theorem uses_beforeCheck (setup : Setup) (gameId : String) :
    Uses earlyKinds (beforeCheck setup gameId) := by
  refine uses_bind (uses_act.mpr (by simp [earlyKinds])) fun _ =>
    uses_bind (uses_act.mpr (by simp [earlyKinds])) fun _ => ?_
  exact uses_killAndSet setup gameId

/-- The condition under which a payload is carried out or answered, in the
state `s`. -/
def Settles (setup : Setup) (cp pu : Bool) (s : Session) (ms : List (String × Value)) : Prop :=
  StartReadable ms ∧ (ParamEmpty ms ∨
    s.record.isSome = true ∧ (cp = true ∧ pu = true) ∧ setup.wsServerKey ≠ "" ∧ s.deviceNo ≠ "")

/-- From the parameter check on. -/
theorem exec_acceptOrAnswer {ms : List (String × Value)} {data deviceNo : String}
    {f : StartGameFields} {u : Unit} {cp pu : Bool}
    (hA : ∀ e, A e → e.closepush = cp ∧ e.push = pu)
    (hRead : readStartGame setup deviceNo (.obj ms) = .ok f)
    (h : Prog.Exec (sessionHandler setup.codePage) A
      (acceptOrAnswer setup (memberText ms "gameId") data f .normalModel) s t u s') :
    (CarriedOut s' t ∨ t.any isAnswer = true) ↔ (ParamEmpty ms ∨ s.record.isSome = true ∧
      (cp = true ∧ pu = true) ∧ setup.wsServerKey ≠ "" ∧ s.deviceNo ≠ "") := by
  rw [acceptOrAnswer] at h
  split at h
  case isTrue hMissing =>
    exact iff_of_true (Or.inr (exec_messageFeedBack h))
      (Or.inl ((paramMissing_iff hRead).mp hMissing))
  case isFalse hPresent =>
    have hAnswer := any_eq_false_of_kinds ((uses_carryOut setup _ data f _).kinds h.path)
      kind_of_isAnswer (by decide)
    have hEmpty : ¬ ParamEmpty ms := fun hEmpty => hPresent ((paramMissing_iff hRead).mpr hEmpty)
    have hControl : f.controlUrl ≠ "" := fun hNo => hPresent (Or.inr (Or.inl hNo))
    have hLogin : f.keyboardLoginParams ≠ "" :=
      (readStartGame_fields setup ms deviceNo hRead).2.2.2.2.2
    rw [hAnswer, exec_carryOut hA h]
    simp only [hEmpty, hControl, hLogin, ne_eq, not_false_eq_true, true_and, and_true, false_or,
      Bool.false_eq_true, or_false]

/-- The part of the handler that reads the payload: either a member cannot be
read and the thread ends there, or the parameters are checked in the end. -/
theorem startGame_inversion {σ E : Type} {H : Handler sessionSig σ E} {A : E → Prop}
    {s s' : σ} {ms : List (String × Value)} {data : String} {model : StartGameModel}
    {r : Except JsonFailure Unit}
    (h : Prog.Exec H A (startGame setup data (.obj ms) model) s t r s') :
    (¬ StartReadable ms ∧ (∃ failure, r = .error failure) ∧
      ∀ ev ∈ t, SessionOp.kind ev.op ∈ earlyKinds) ∨
    (StartReadable ms ∧ r = .ok () ∧ ∃ (f : StartGameFields) (deviceNo : String)
      (sRead : Session) (s₁ : σ) (t₁ t₂ : List (Event sessionSig)), t = t₁ ++ t₂ ∧
        readStartGame setup deviceNo (.obj ms) = .ok f ∧
        Prog.Exec H A (killAndSet setup (memberText ms "gameId")) s t₁ sRead s₁ ∧
        Prog.Exec H A (acceptOrAnswer setup (memberText ms "gameId") data f model)
          s₁ t₂ () s') := by
  unfold startGame at h
  cases hRead : readText (.obj ms) "gameId" with
  | error failure =>
    -- the first member that is read ends the thread
    rw [hRead] at h
    obtain ⟨rfl, rfl, -⟩ := Prog.exec_pure.mp h
    refine Or.inl ⟨fun hReadable => ?_, ⟨failure, rfl⟩, by simp⟩
    have hText := readText_eq (hReadable.1 "gameId" (by decide))
    rw [hRead] at hText
    cases hText
  | ok gameId =>
    have hText := (returns_readText ms "gameId").mp ⟨gameId, hRead⟩
    obtain rfl : memberText ms "gameId" = gameId :=
      Except.ok.inj ((readText_eq hText).symm.trans hRead)
    rw [hRead] at h
    obtain ⟨t₁, tRest, _, s₁, rfl, hKill, h₁⟩ := Prog.exec_bind.mp h
    obtain ⟨t₂, tRest, _, s₂, rfl, hSet, h₂⟩ := Prog.exec_bind.mp h₁
    obtain ⟨t₃, t₄, sRead, s₃, rfl, hGet, h₃⟩ := Prog.exec_bind.mp h₂
    have hBefore : Prog.Exec H A (killAndSet setup (memberText ms "gameId")) s
        (t₁ ++ (t₂ ++ t₃)) sRead s₃ :=
      Prog.exec_bind.mpr ⟨_, _, _, _, rfl, hKill, Prog.exec_bind.mpr ⟨_, _, _, _, rfl, hSet, hGet⟩⟩
    have hFieldsIff := returns_readStartGame setup ms (Session.deviceNo sRead)
    cases hFields : readStartGame setup (Session.deviceNo sRead) (.obj ms) with
    | error failure =>
      -- one of the others does
      rw [hFields] at h₃
      obtain ⟨rfl, rfl, -⟩ := Prog.exec_pure.mp h₃
      have hKinds := (uses_killAndSet setup (memberText ms "gameId")).kinds hBefore.path
      refine Or.inl ⟨fun hReadable => ?_, ⟨failure, rfl⟩, by rwa [List.append_nil]⟩
      obtain ⟨f, hOk⟩ := hFieldsIff.mpr
        ⟨fun name hName => hReadable.1 name (List.mem_of_mem_tail hName), hReadable.2⟩
      rw [hFields] at hOk
      cases hOk
    | ok f =>
      rw [hFields] at h₃
      obtain ⟨t₅, t₆, _, s₄, rfl, hAccept, hPure⟩ := Prog.exec_bind.mp h₃
      obtain ⟨rfl, rfl, rfl⟩ := Prog.exec_pure.mp hPure
      obtain ⟨hTexts, hForce⟩ := hFieldsIff.mp ⟨f, hFields⟩
      exact Or.inr ⟨⟨List.forall_mem_cons.mpr ⟨hText, hTexts⟩, hForce⟩, rfl, f, _, sRead, s₃, _, t₅,
        by simp only [List.append_assoc, List.append_nil], hFields, hBefore, hAccept⟩

/-- One complete execution of the handler on a payload that parses to an
object: either a member cannot be read and the thread ends there, or the
parameters are checked in the end. -/
theorem startGameCallback_inversion {σ E : Type} {H : Handler sessionSig σ E} {A : E → Prop}
    {s s' : σ} {ms : List (String × Value)} {data : String} {model : StartGameModel}
    {r : Except JsonFailure Unit} (hParse : setup.parse data = some (.obj ms))
    (h : Prog.Exec H A (startGameCallback setup data model) s t r s') :
    (¬ StartReadable ms ∧ (∃ failure, r = .error failure) ∧
      ∀ ev ∈ t, SessionOp.kind ev.op ∈ earlyKinds) ∨
    (StartReadable ms ∧ r = .ok () ∧ ∃ (f : StartGameFields) (deviceNo : String)
      (sRead : Session) (s₁ : σ) (t₁ t₂ : List (Event sessionSig)), t = t₁ ++ t₂ ∧
        readStartGame setup deviceNo (.obj ms) = .ok f ∧
        Prog.Exec H A (beforeCheck setup (memberText ms "gameId")) s t₁ sRead s₁ ∧
        Prog.Exec H A (acceptOrAnswer setup (memberText ms "gameId") data f model)
          s₁ t₂ () s') := by
  have hData : data ≠ "" := Setup.ne_of_parse hParse
  obtain ⟨t₁, tRest, _, s₁, rfl, hClear, h₁⟩ := Prog.exec_bind.mp h
  obtain ⟨t₂, t₃, _, s₂, rfl, hGasp, h₂⟩ := Prog.exec_bind.mp h₁
  rw [if_neg hData, hParse] at h₂
  change Prog.Exec _ A (startGame setup data (.obj ms) model) s₂ t₃ r s' at h₂
  -- what comes before `StartGame` uses early kinds only
  rcases startGame_inversion h₂ with ⟨hNot, hFails, hKinds⟩ |
    ⟨hReadable, hOk, f, deviceNo, sRead, s₃, t₄, t₅, rfl, hFields, hBefore, hAccept⟩
  · have hKinds₁ : ∀ ev ∈ t₁, SessionOp.kind ev.op ∈ earlyKinds :=
      Uses.kinds (uses_act.mpr (by simp [earlyKinds])) hClear.path
    have hKinds₂ : ∀ ev ∈ t₂, SessionOp.kind ev.op ∈ earlyKinds :=
      Uses.kinds (uses_act.mpr (by simp [earlyKinds])) hGasp.path
    exact Or.inl ⟨hNot, hFails,
      List.forall_mem_append.mpr ⟨hKinds₁, List.forall_mem_append.mpr ⟨hKinds₂, hKinds⟩⟩⟩
  · have hAll : Prog.Exec H A (beforeCheck setup (memberText ms "gameId")) s
        (t₁ ++ (t₂ ++ t₄)) sRead s₃ :=
      Prog.exec_bind.mpr ⟨_, _, _, _, rfl, hClear, Prog.exec_bind.mpr ⟨_, _, _, _, rfl, hGasp,
        hBefore⟩⟩
    exact Or.inr ⟨hReadable, hOk, f, deviceNo, sRead, s₃, _, t₅,
      by simp only [List.append_assoc], hFields, hAll, hAccept⟩

/-- One complete execution of the handler: what it needs to carry the payload
out or answer it. -/
theorem exec_startGameCallback {ms : List (String × Value)} {data : String}
    {r : Except JsonFailure Unit} {cp pu : Bool}
    (hA : ∀ e, A e → e.closepush = cp ∧ e.push = pu) (hParse : setup.parse data = some (.obj ms))
    (h : Prog.Exec (sessionHandler setup.codePage) A
      (startGameCallback setup data .normalModel) s t r s') :
    Settled r s' t ↔ Settles setup cp pu s ms := by
  rcases startGameCallback_inversion hParse h with ⟨hNot, ⟨failure, rfl⟩, -⟩ |
    ⟨hReadable, rfl, f, deviceNo, sRead, s₁, t₁, t₂, rfl, hFields, hBefore, hAccept⟩
  · exact iff_of_false (fun hSettled => nomatch hSettled.1) fun hSettles => hNot hSettles.1
  · -- the part before the check settles nothing, and keeps what the condition is about
    have hUses := uses_beforeCheck setup (memberText ms "gameId")
    have hKinds := hUses.kinds hBefore.path
    have hPushed := any_eq_false_of_kinds hKinds kind_of_isPushed (by decide)
    have hKeyboard := any_eq_false_of_kinds hKinds kind_of_isKeyboardStarted (by decide)
    have hAnswer := any_eq_false_of_kinds hKinds kind_of_isAnswer (by decide)
    have hRecord : s₁.record = s.record := hUses.keeps_record (by decide) hBefore
    have hDeviceNo : s₁.deviceNo = s.deviceNo := deviceNo_of_exec hBefore
    have hAccepted := exec_acceptOrAnswer hA hFields hAccept
    rw [hRecord, hDeviceNo] at hAccepted
    rw [Settles, and_iff_right hReadable, ← hAccepted, Settled, and_iff_right rfl]
    unfold CarriedOut
    rw [List.any_append, List.any_append, List.any_append, hPushed, hKeyboard, hAnswer,
      Bool.false_or, Bool.false_or, Bool.false_or]

end

-- ---------------------------------------------------------------------------
-- When a StartGame is settled
-- ---------------------------------------------------------------------------

/-- Environments whose stream calls return `cp` and `pu`. -/
def envs (evolve : ℕ → List Process → List Process) (cp pu : Bool) : ℕ → Env :=
  fun n => { evolve := evolve n, closepush := cp, push := pu }

/-- Each of the environments has these results of the calls. -/
theorem envs_of_mem_first {evolve : ℕ → List Process → List Process} {cp pu : Bool} {n : ℕ}
    {e : Env} (h : e ∈ Prog.first (envs evolve cp pu) n) : e.closepush = cp ∧ e.push = pu := by
  obtain ⟨i, -, rfl⟩ := List.mem_map.mp h
  exact ⟨rfl, rfl⟩

/-- **Carried out or answered.** A handler that does not wait for ever for its
game ends with the payload carried out or answered just when no killed game
stays listed for ever, every member can be read, and either a checked member is
empty or everything that is left succeeds: the record file is open, `closepush`
and `push` return true, and the websocket address has its key and device
number. -/
theorem startGame_settled_iff {setup : Setup} {ms : List (String × Value)} {data : String}
    (hParse : setup.parse data = some (.obj ms)) (evolve : ℕ → List Process → List Process)
    (cp pu : Bool) (s : Session)
    (hWait : ¬ Prog.PollsForever (sessionHandler setup.codePage) SessionOp.IsWait
      (startGameCallback setup data .normalModel) (envs evolve cp pu) s) :
    (∃ n t r s', Prog.eval (sessionHandler setup.codePage) (Prog.first (envs evolve cp pu) n)
      (startGameCallback setup data .normalModel) s = some (t, r, s') ∧ Settled r s' t) ↔
    ¬ Prog.PollsForever (sessionHandler setup.codePage) SessionOp.IsKillPoll
        (startGameCallback setup data .normalModel) (envs evolve cp pu) s ∧
      Settles setup cp pu s ms := by
  have hSettles : ∀ {n t r s'}, Prog.eval (sessionHandler setup.codePage)
      (Prog.first (envs evolve cp pu) n) (startGameCallback setup data .normalModel) s =
        some (t, r, s') → (Settled r s' t ↔ Settles setup cp pu s ms) := fun hEval =>
    exec_startGameCallback (fun _ h => h) hParse
      (Prog.exec_of_eval (A := fun e => e.closepush = cp ∧ e.push = pu)
        (fun _ => envs_of_mem_first) hEval)
  constructor
  · rintro ⟨n, t, r, s', hEval, hSettled⟩
    refine ⟨Prog.not_pollsForever_of_eval (n := n) ?_, (hSettles hEval).mp hSettled⟩
    rw [hEval]
    rfl
  · rintro ⟨hKill, hCondition⟩
    rcases Prog.ends_or_polls (H := sessionHandler setup.codePage)
      (startGameCallback setup data .normalModel) (envs evolve cp pu) s with
      ⟨n, ⟨t, r, s'⟩, hEval⟩ | hPolls
    · exact ⟨n, t, r, s', hEval, (hSettles hEval).mpr hCondition⟩
    · -- only the two waits can be repeated
      have hLoops := (uses_startGameCallback setup data .normalModel).loops
      rcases hPolls.of_loops hLoops with hWaits | hKills
      · exact absurd hWaits hWait
      · exact absurd hKills hKill

-- ---------------------------------------------------------------------------
-- A configuration with two games
-- ---------------------------------------------------------------------------

def sampleConfig : DealIniFile := some { groups := [
  ("one", [("id", "g1"), ("gameExeName", "one.exe"), ("path", "C:/one&&one.exe")]),
  ("two", [("id", "g2"), ("gameExeName", "two.exe"), ("path", "C:/two&&two.exe")])] }

-- the members of a StartGame payload for the first game
def sampleMembers (serverUrl : String) (force : Bool) : List (String × Value) :=
  [("gameId", .str "g1"), ("roomId", .str "r1"), ("playerUrl", .str "p"),
   ("serverUrl", .str serverUrl), ("controlUrl", .str "c"), ("port", .str "80"),
   ("framerate", .str "30"), ("bitrate", .str "4000"), ("deadline", .str "1"),
   ("cpuused", .str "5"), ("x", .str "0"), ("y", .str "0"), ("mode", .str "0"),
   ("capmode", .str "0"), ("vol", .str "1"), ("control", .str ""), ("fileMiniTime", .str ""),
   ("isQueuing", .str "0"), ("startGameParams", .str "null"),
   ("force", .int (if force then 1 else 0)), ("keyboardLoginParams", .obj [])]

def sampleData (serverUrl : String) (force : Bool) : String :=
  "\x7b\"gameId\":\"g1\",\"roomId\":\"r1\",\"playerUrl\":\"p\",\"serverUrl\":\"" ++ serverUrl ++
    "\",\"controlUrl\":\"c\",\"port\":\"80\",\"framerate\":\"30\",\"bitrate\":\"4000\"," ++
    "\"deadline\":\"1\",\"cpuused\":\"5\",\"x\":\"0\",\"y\":\"0\",\"mode\":\"0\",\"capmode\":\"0\"," ++
    "\"vol\":\"1\",\"control\":\"\",\"fileMiniTime\":\"\",\"isQueuing\":\"0\"," ++
    "\"startGameParams\":\"null\",\"force\":" ++ (if force then "1" else "0") ++
    ",\"keyboardLoginParams\":\x7b\x7d\x7d"

def sampleStopMembers : List (String × Value) :=
  [("gameId", .str "g1"), ("roomId", .str "r1"), ("serverUrl", .str "s"),
   ("playerUrl", .str "p"), ("controlUrl", .str "c"), ("port", .str "80")]

def sampleStopData : String :=
  "\x7b\"gameId\":\"g1\",\"roomId\":\"r1\",\"serverUrl\":\"s\",\"playerUrl\":\"p\"," ++
    "\"controlUrl\":\"c\",\"port\":\"80\"\x7d"

def samplePayloads : List (String × Value) :=
  [(sampleData "s" false, .obj (sampleMembers "s" false)),
   (sampleData "s" true, .obj (sampleMembers "s" true)),
   (sampleData "" false, .obj (sampleMembers "" false)),
   (sampleStopData, .obj sampleStopMembers)]

/-- The reader and the writer, on the texts above and what is written of
them. -/
def sampleSetup : Setup where
  codePage := .utf8
  parse data := (samplePayloads.find? fun p => p.1 = data).map Prod.snd
  write
    | .null => "null\n"
    | _ => "\x7b\"init\":123,\"port\":\"dev\"\x7d\n"
  parse_empty := by
    rw [Option.map_eq_none_iff, List.find?_eq_none]
    decide +kernel
  write_ne v := by
    split
    · decide
    · decide
  cloudGameConfig := sampleConfig
  applicationDirPath := "C:/app"
  wsServerKey := "key"
  playSign _ := ("sign", "1")

def sampleSession : Session where
  mode := .defaultMode
  sessionId := "session"
  deviceNo := "dev"
  controlUrl := ""
  gameId := ""
  pushStreamerParams := .cleared
  startGameParams := .cleared
  gamePid := 0
  record := some ⟨"", "0", ""⟩
  keyBoardThread := none
  protectThread := false
  protectThreadFlag := true
  processes := []

/-- The processes of the two games. -/
def oneProcess : Process where
  exeFile := "one.exe"
  pid := 7
  pos := by decide

def twoProcess : Process where
  exeFile := "two.exe"
  pid := 9
  pos := by decide

/-- The first game appears in the list of processes, and no other. -/
def oneRuns : ℕ → List Process → List Process := fun _ _ => [oneProcess]

theorem sampleSetup_parse (data : String) :
    sampleSetup.parse data = (samplePayloads.find? fun p => p.1 = data).map Prod.snd := rfl

theorem parse_sampleData :
    sampleSetup.parse (sampleData "s" false) = some (.obj (sampleMembers "s" false)) := by
  have hFind : (samplePayloads.find? fun p => p.1 = sampleData "s" false) =
      some (sampleData "s" false, .obj (sampleMembers "s" false)) :=
    List.find?_cons_of_pos (decide_eq_true rfl)
  rw [sampleSetup_parse, hFind, Option.map_some]

theorem parse_forcedData :
    sampleSetup.parse (sampleData "s" true) = some (.obj (sampleMembers "s" true)) := by
  have hFind : (samplePayloads.find? fun p => p.1 = sampleData "s" true) =
      some (sampleData "s" true, .obj (sampleMembers "s" true)) :=
    (List.find?_cons_of_neg (by decide +kernel)).trans
      (List.find?_cons_of_pos (decide_eq_true rfl))
  rw [sampleSetup_parse, hFind, Option.map_some]

/-- The samples have every member that is read. -/
theorem startReadable_sampleMembers (serverUrl : String) (force : Bool) :
    StartReadable (sampleMembers serverUrl force) := by
  refine ⟨?_, show FitsInt (.int _) from trivial⟩
  rw [startTexts]
  simp only [List.forall_mem_cons, List.not_mem_nil, false_imp_iff, implies_true, and_true]
  exact ⟨⟨_, rfl⟩, ⟨_, rfl⟩, ⟨_, rfl⟩, ⟨_, rfl⟩, ⟨_, rfl⟩, ⟨_, rfl⟩, ⟨_, rfl⟩, ⟨_, rfl⟩, ⟨_, rfl⟩,
    ⟨_, rfl⟩, ⟨_, rfl⟩, ⟨_, rfl⟩, ⟨_, rfl⟩, ⟨_, rfl⟩, ⟨_, rfl⟩, ⟨_, rfl⟩, ⟨_, rfl⟩, ⟨_, rfl⟩,
    ⟨_, rfl⟩⟩

/-- The sample payload is carried out when everything succeeds. -/
theorem startGame_settled_first_game :
    ∃ n t r s', Prog.eval (sessionHandler sampleSetup.codePage)
      (Prog.first (envs oneRuns true true) n)
      (startGameCallback sampleSetup (sampleData "s" false) .normalModel) sampleSession =
        some (t, r, s') ∧ Settled r s' t := by
  have hEnds : (Prog.eval (sessionHandler sampleSetup.codePage)
      (Prog.first (envs oneRuns true true) 20)
      (startGameCallback sampleSetup (sampleData "s" false) .normalModel)
      sampleSession).isSome = true := by decide +kernel
  exact (startGame_settled_iff parse_sampleData oneRuns true true sampleSession
    (Prog.not_pollsForever_of_eval hEnds)).mpr
    ⟨Prog.not_pollsForever_of_eval hEnds, startReadable_sampleMembers _ _,
      Or.inr ⟨rfl, ⟨rfl, rfl⟩, by decide, by decide⟩⟩

/-- It is dropped without an answer when `push` fails. -/
theorem startGame_dropped_when_push_fails :
    ¬ Prog.PollsForever (sessionHandler sampleSetup.codePage) SessionOp.IsWait
      (startGameCallback sampleSetup (sampleData "s" false) .normalModel)
      (envs oneRuns true false) sampleSession ∧
    ¬ ∃ n t r s', Prog.eval (sessionHandler sampleSetup.codePage)
      (Prog.first (envs oneRuns true false) n)
      (startGameCallback sampleSetup (sampleData "s" false) .normalModel) sampleSession =
        some (t, r, s') ∧ Settled r s' t := by
  have hEnds : (Prog.eval (sessionHandler sampleSetup.codePage)
      (Prog.first (envs oneRuns true false) 20)
      (startGameCallback sampleSetup (sampleData "s" false) .normalModel)
      sampleSession).isSome = true := by decide +kernel
  refine ⟨Prog.not_pollsForever_of_eval hEnds, ?_⟩
  rintro ⟨n, t, r, s', hEval, hSettled⟩
  have hExec := Prog.exec_of_eval (A := fun e => e.closepush = true ∧ e.push = false)
    (fun _ => envs_of_mem_first) hEval
  have hSettles := (exec_startGameCallback (fun _ h => h) parse_sampleData hExec).mp hSettled
  rcases hSettles.2 with hEmpty | ⟨-, ⟨-, hPush⟩, -⟩
  · have hPresent : ¬ ParamEmpty (sampleMembers "s" false) := by decide +kernel
    exact hPresent hEmpty
  · cases hPush

end PushStreamer
