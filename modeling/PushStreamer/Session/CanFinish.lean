import PushStreamer.Session.Replay

/-!
# The wait for a game

`StartGameAction` waits until its game is in the list of processes. A game
whose executable is not found in `cloudGameConfig.ini` never counts as running,
and neither does one under whose executable no process is listed; so the wait never
ends, and nothing before it asks for either.

* `gameExe_eq_iff` — when the executable of a game is found.
* `start_can_finish_iff` — when the start of a game can come to an end.
-/

namespace PushStreamer

open Value

section

variable {setup : Setup} {s s' : Session} {t : List (Event sessionSig)}

-- ---------------------------------------------------------------------------
-- Games with an executable
-- ---------------------------------------------------------------------------

/-- The first group with the id names the executable. -/
def NamesExecutable (file : DealIniFile) (gameId exe : String) : Prop :=
  exe ≠ "" ∧ ∃ ini before group after, file = some ini ∧ ini.groups = before ++ group :: after ∧
    (∀ g ∈ before, ini.value g.1 "id" ≠ gameId) ∧ ini.value group.1 "id" = gameId ∧
    ini.value group.1 "gameExeName" = exe

/-- The executable that `GetValue` finds is that of the first group. -/
theorem getValueWhere_eq_iff {file : DealIniFile} {gameId exe : String} :
    file.getValueWhere "id" gameId "gameExeName" = exe ∧ exe ≠ "" ↔
      NamesExecutable file gameId exe := by
  rw [DealIniFile.getValueWhere, if_pos (Or.inl (by decide)), NamesExecutable, and_comm]
  refine and_congr_right fun hExe => ?_
  cases file with
  | none => exact iff_of_false hExe.symm fun ⟨_, _, _, _, hFile, _⟩ => nomatch hFile
  | some ini =>
    -- the search by position
    have hSearch : ∀ group, (ini.groups.find? fun g => ini.value g.1 "id" = gameId) = some group ↔
        ini.value group.1 "id" = gameId ∧ ∃ before after,
          ini.groups = before ++ group :: after ∧ ∀ g ∈ before, ini.value g.1 "id" ≠ gameId := by
      intro group
      rw [List.find?_eq_some_iff_append]
      simp only [decide_eq_true_eq, Bool.not_eq_true', decide_eq_false_iff_not]
    rw [Option.elim_some]
    constructor
    · intro hFound
      cases hFind : ini.groups.find? fun g => ini.value g.1 "id" = gameId with
      | none =>
        rw [hFind] at hFound
        exact absurd hFound.symm hExe
      | some group =>
        rw [hFind] at hFound
        obtain ⟨hId, before, after, hGroups, hBefore⟩ := (hSearch group).mp hFind
        exact ⟨ini, before, group, after, rfl, hGroups, hBefore, hId, hFound⟩
    · rintro ⟨_, before, group, after, ⟨rfl⟩, hGroups, hBefore, hId, hFound⟩
      rw [(hSearch group).mpr ⟨hId, before, after, hGroups, hBefore⟩]
      exact hFound

/-- The same of `GetValueByGameID`. -/
theorem gameExe_eq_iff {gameId exe : String} (hId : gameId ≠ "") :
    gameExe setup gameId = exe ∧ exe ≠ "" ↔ NamesExecutable setup.cloudGameConfig gameId exe := by
  rw [gameExe, getValueByGameID, if_pos ⟨hId, by decide⟩, getValueWhere_eq_iff]

-- ---------------------------------------------------------------------------
-- Before the wait
-- ---------------------------------------------------------------------------

/-- The environment ends every process. -/
def Idle (e : Env) : Prop := ∀ processes, e.evolve processes = []

theorem idle_onlyRuns : Idle (onlyRuns []) := fun _ => rfl

theorem stops_act {A : Env → Prop} (setup : Setup) (o : SessionOp) (s : Session) :
    Prog.Stops (sessionHandler setup.codePage) A (act o) s := Prog.stops_perform _

/-- A killed game is gone when nothing runs. -/
theorem stops_killIdle (setup : Setup) (gameId : String) (s : Session) :
    Prog.Stops (sessionHandler setup.codePage) Idle (killAreadlyRunningGame setup gameId) s := by
  refine Prog.stops_onlyIf fun _ => (stops_act setup _ s).bind fun _ _ s₁ _ =>
    Prog.Stops.bind (Prog.stops_repeatWhile fun e he => ?_) fun _ _ _ _ => Prog.stops_pure _
  show decide (0 < isProcessRunning setup.codePage _ (e.evolve s₁.processes)) = false
  rw [he]
  rfl

/-- The search for the other games comes to an end when nothing runs. -/
theorem stops_killOthersIdle (setup : Setup) (gameId : String) (groups : List String)
    (s : Session) :
    Prog.Stops (sessionHandler setup.codePage) Idle (killOthers setup gameId groups) s := by
  induction groups generalizing s with
  | nil => exact Prog.stops_pure _
  | cons group groups ih =>
    exact Prog.Stops.bind (Prog.stops_onlyIf fun _ =>
      (stops_gameIsAreadlyRunning setup _ s).bind fun _ _ s₁ _ =>
        Prog.stops_onlyIf fun _ => stops_killIdle setup _ s₁) fun _ _ s₂ _ => ih s₂

theorem stops_startGameByGameId {A : Env → Prop} (setup : Setup) (gameId : String) (s : Session) :
    Prog.Stops (sessionHandler setup.codePage) A (startGameByGameId setup gameId) s :=
  (uses_startGameByGameId setup gameId).stops (by simp) s

/-- What `StartGameAction` does before its wait comes to an end. -/
theorem stops_launchGame (setup : Setup) (gameId startGameParams data : String) (force : Int)
    (s : Session) :
    Prog.Stops (sessionHandler setup.codePage) Idle
      (launchGame setup gameId startGameParams data force) s := by
  refine (stops_act setup _ s).bind fun _ _ s₁ _ => Prog.Stops.bind (Prog.stops_onlyIf fun _ =>
    (stops_act setup _ s₁).bind fun _ _ s₂ _ => stops_act setup _ s₂) fun _ _ s₂ _ =>
    (stops_gameIsAreadlyRunning setup gameId s₂).bind fun _ isRunning s₃ _ => ?_
  split
  · split
    · exact (stops_killIdle setup gameId s₃).bind fun _ _ s₄ _ =>
        stops_startGameByGameId setup gameId s₄
    · exact Prog.stops_pure _
  · exact stops_startGameByGameId setup gameId s₃

/-- What comes before the check ends, too. -/
theorem stops_beforeCheck (setup : Setup) (gameId : String) (s : Session) :
    Prog.Stops (sessionHandler setup.codePage) Idle (beforeCheck setup gameId) s :=
  (stops_act setup _ s).bind fun _ _ s₁ _ => (stops_act setup _ s₁).bind fun _ _ s₂ _ =>
    (stops_killOthersIdle setup gameId _ s₂).bind fun _ _ s₃ _ =>
      (stops_act setup _ s₃).bind fun _ _ s₄ _ => stops_act setup _ s₄

-- ---------------------------------------------------------------------------
-- The wait
-- ---------------------------------------------------------------------------

/-- Whenever the handler of a StartGame enters the wait for its game, the game
counts as running under some list of processes. -/
def SeenInWait (setup : Setup) (data : String) (ms : List (String × Value)) (s : Session) : Prop :=
  ∀ (f : StartGameFields) (sRead s₁ s₂ : Session) (t₁ t₂ : List (Event sessionSig)),
    Prog.Exec (sessionHandler setup.codePage) (fun _ => True)
      (beforeCheck setup (memberText ms "gameId")) s t₁ sRead s₁ →
    readStartGame setup sRead.deviceNo (.obj ms) = .ok f →
    Prog.Exec (sessionHandler setup.codePage) (fun _ => True)
      (launchGame setup (memberText ms "gameId") f.startGameParams data f.force) s₁ t₂ () s₂ →
    ∃ processes t s', Prog.Exec (sessionHandler setup.codePage) Quiet
      (gameIsAreadlyRunning setup (memberText ms "gameId")) { s₂ with processes } t true s'

/-- The game has an executable, and some process can be found under its name. -/
def CanBeSeen (setup : Setup) (gameId : String) : Prop :=
  gameExe setup gameId ≠ "" ∧ setup.codePage.Shows (gameExe setup gameId)

/-- Whether a game can be seen is a matter of the file and of the code page. -/
theorem canBeSeen_iff {gameId : String} (hId : gameId ≠ "") :
    CanBeSeen setup gameId ↔
      ∃ exe, NamesExecutable setup.cloudGameConfig gameId exe ∧ setup.codePage.Shows exe := by
  constructor
  · rintro ⟨hExe, hShows⟩
    exact ⟨_, (gameExe_eq_iff hId).mp ⟨rfl, hExe⟩, hShows⟩
  · rintro ⟨exe, hNames, hShows⟩
    obtain ⟨rfl, hExe⟩ := (gameExe_eq_iff hId).mpr hNames
    exact ⟨hExe, hShows⟩

/-- The list with a process that is found under the name. -/
theorem found_of_shows {codePage : CodePage} {name : String} (h : codePage.Shows name) :
    ∃ processes, 0 < isProcessRunning codePage name processes := by
  obtain ⟨exe, hName⟩ := h
  exact ⟨[⟨exe, 1, by decide⟩],
    isProcessRunning_pos_iff.mpr ⟨_, List.mem_singleton_self _, hName⟩⟩

/-- What is found can be found. -/
theorem shows_of_found {codePage : CodePage} {name : String} {processes : List Process}
    (h : 0 < isProcessRunning codePage name processes) : codePage.Shows name := by
  obtain ⟨p, -, hName⟩ := isProcessRunning_pos_iff.mp h
  exact ⟨p.exeFile, hName⟩

/-- A game that can be seen is seen under some list. -/
theorem seen_of_canBeSeen {gameId : String} (h : CanBeSeen setup gameId) (s : Session) :
    ∃ processes t s', Prog.Exec (sessionHandler setup.codePage) Quiet
      (gameIsAreadlyRunning setup gameId) { s with processes } t true s' := by
  obtain ⟨processes, hFound⟩ := found_of_shows h.2
  obtain ⟨t, b, s', hExec⟩ := (stops_gameIsAreadlyRunning setup gameId
    { s with processes }).ends quiet_quietEnv
  obtain ⟨rfl, -⟩ := exec_gameIsAreadlyRunning hExec h.1
  have hTrue : decide (0 < isProcessRunning setup.codePage (gameExe setup gameId) processes) =
      true := decide_eq_true hFound
  exact ⟨processes, t, s', hTrue ▸ hExec⟩

/-- What is seen can be seen. -/
theorem canBeSeen_of_seen {A : Env → Prop} {gameId : String}
    (h : Prog.Exec (sessionHandler setup.codePage) A (gameIsAreadlyRunning setup gameId)
      s t true s') : CanBeSeen setup gameId := by
  rw [gameIsAreadlyRunning] at h
  split at h
  case isFalse => cases (Prog.exec_pure.mp h).2.1
  case isTrue hExe =>
    obtain ⟨t₁, t₂, pid, s₁, -, hQuery, hRest⟩ := Prog.exec_bind.mp h
    obtain ⟨e, -, -, hLook⟩ := Prog.exec_perform.mp hQuery
    obtain ⟨rfl, -⟩ := Prod.mk.inj hLook
    exact ⟨hExe, shows_of_found (of_decide_eq_true (Prog.exec_pure.mp hRest).2.1.symm)⟩

/-- The wait for a game that can be seen ends when the game appears. -/
theorem ends_waitForGame {gameId : String} (h : CanBeSeen setup gameId) (s : Session) :
    Prog.Ends (sessionHandler setup.codePage) (fun _ => True) (waitForGame setup gameId) s := by
  have hWait : waitForGame setup gameId = _ := if_pos h.1
  rw [hWait]
  obtain ⟨processes, hFound⟩ := found_of_shows h.2
  have hStop : decide (isProcessRunning setup.codePage (gameExe setup gameId) processes = 0) =
      false := decide_eq_false (Nat.ne_of_gt hFound)
  exact Prog.ends_bind (Prog.ends_repeatWhile (e := onlyRuns processes) trivial hStop)
    fun _ _ _ _ => Prog.ends_pure _ _

/-- The wait for a game without executable never ends. -/
theorem not_path_waitForGame {gameId : String} {u : Unit} (hExe : gameExe setup gameId = "") :
    ¬ Prog.Path (waitForGame setup gameId) t u := by
  have hWait : waitForGame setup gameId = _ := if_neg (not_not.mpr hExe)
  rw [hWait]
  exact Prog.not_path_forever

/-- A wait that ends is one for a game that can be seen. -/
theorem canBeSeen_of_waitForGame {A : Env → Prop} {gameId : String} {u : Unit}
    (h : Prog.Exec (sessionHandler setup.codePage) A (waitForGame setup gameId) s t u s') :
    CanBeSeen setup gameId := by
  have hExe : gameExe setup gameId ≠ "" := fun hNone => not_path_waitForGame hNone h.path
  have hWait : waitForGame setup gameId = _ := if_pos hExe
  rw [hWait] at h
  obtain ⟨t₁, t₂, pid, s₁, -, hPoll, -⟩ := Prog.exec_bind.mp h
  -- the last look found a process
  obtain ⟨hStop, -, e, s₂, -, hLook⟩ := Prog.exec_repeatWhile_last hPoll
  obtain ⟨rfl, -⟩ := Prod.mk.inj hLook
  exact ⟨hExe, shows_of_found (Nat.pos_of_ne_zero (of_decide_eq_false hStop))⟩

-- ---------------------------------------------------------------------------
-- After the wait
-- ---------------------------------------------------------------------------

theorem stops_recordInfo (setup : Setup) (startGameParame gameId : String) (gameStatus : Int)
    (s : Session) :
    Prog.Stops (sessionHandler setup.codePage) Idle
      (recordInfo startGameParame gameId gameStatus) s :=
  (uses_recordInfo startGameParame gameId gameStatus).stops (by simp) s

theorem stops_pushStreamerAction (setup : Setup) (params : PushStreamerParams) (s : Session) :
    Prog.Stops (sessionHandler setup.codePage) Idle (pushStreamerAction setup params) s :=
  (uses_pushStreamerAction setup params).stops (by simp) s

theorem stops_startKeyboardAction (setup : Setup) (gameId controlUrl login : String)
    (s : Session) :
    Prog.Stops (sessionHandler setup.codePage) Idle
      (startKeyboardAction setup gameId controlUrl login) s :=
  (stops_act setup _ s).bind fun _ _ s₁ _ => (stops_act setup _ s₁).bind fun _ _ s₂ _ =>
    (stops_act setup _ s₂).bind fun _ _ s₃ _ => stops_act setup _ s₃

/-- What always stops when nothing runs comes to an end in some environment. -/
theorem ends_of_stops {α : Type} {p : SProg α}
    (h : Prog.Stops (sessionHandler setup.codePage) Idle p s) :
    Prog.Ends (sessionHandler setup.codePage) (fun _ => True) p s :=
  (h.ends idle_onlyRuns).mono fun _ _ => trivial

/-- An accepted payload of a game that can be seen is carried out to the end. -/
theorem ends_carryOut {gameId data : String} {f : StartGameFields} {model : StartGameModel}
    (hSeen : CanBeSeen setup gameId) (s : Session) :
    Prog.Ends (sessionHandler setup.codePage) (fun _ => True)
      (carryOut setup gameId data f model) s := by
  have hAction : Prog.Ends (sessionHandler setup.codePage) (fun _ => True)
      (startGameAction setup gameId f.startGameParams data f.force) s :=
    Prog.ends_bind (ends_of_stops (stops_launchGame setup gameId _ data _ s)) fun _ _ s₁ _ =>
      Prog.ends_bind (ends_waitForGame hSeen s₁) fun _ _ s₂ _ =>
        ends_of_stops (stops_recordInfo setup data gameId 1 s₂)
  refine Prog.ends_bind hAction fun _ _ s₁ _ =>
    Prog.ends_bind (ends_of_stops (stops_pushStreamerAction setup _ s₁)) fun _ _ s₂ _ =>
      Prog.ends_onlyIf fun _ => ?_
  exact ends_of_stops (stops_startKeyboardAction setup gameId _ _ s₂)

-- ---------------------------------------------------------------------------
-- The handler
-- ---------------------------------------------------------------------------

variable {ms : List (String × Value)} {data : String} {model : StartGameModel}

/-- What is readable is read. -/
theorem readStartGame_of_readable (setup : Setup) (hReadable : StartReadable ms)
    (deviceNo : String) : ∃ f, readStartGame setup deviceNo (.obj ms) = .ok f :=
  (returns_readStartGame setup ms deviceNo).mpr
    ⟨fun name hName => hReadable.1 name (List.mem_of_mem_tail hName), hReadable.2⟩

/-- The handler comes to an end for an accepted payload of a game that can be
seen. -/
theorem ends_startGameCallback (hParse : setup.parse data = some (.obj ms))
    (hReadable : StartReadable ms) (hAccepted : ¬ ParamEmpty ms)
    (hSeen : CanBeSeen setup (memberText ms "gameId")) (s : Session) :
    Prog.Ends (sessionHandler setup.codePage) (fun _ => True)
      (startGameCallback setup data model) s := by
  have hData : data ≠ "" := Setup.ne_of_parse hParse
  refine Prog.ends_bind (ends_of_stops (stops_act setup _ s)) fun _ _ s₁ _ =>
    Prog.ends_bind (ends_of_stops (stops_act setup _ s₁)) fun _ _ s₂ _ => ?_
  rw [if_neg hData, hParse]
  show Prog.Ends _ _ (startGame setup data (.obj ms) model) s₂
  unfold startGame
  rw [readText_eq (hReadable.1 "gameId" (by decide))]
  refine Prog.ends_bind (ends_of_stops (stops_killOthersIdle setup _ _ s₂)) fun _ _ s₃ _ =>
    Prog.ends_bind (ends_of_stops (stops_act setup _ s₃)) fun _ _ s₄ _ =>
      Prog.ends_bind (ends_of_stops (stops_act setup _ s₄)) fun _ sRead s₅ _ => ?_
  obtain ⟨f, hRead⟩ := readStartGame_of_readable setup hReadable (Session.deviceNo sRead)
  rw [hRead]
  refine Prog.ends_bind ?_ fun _ _ s₆ _ => Prog.ends_pure _ _
  rw [acceptOrAnswer, if_neg fun hMissing => hAccepted ((paramMissing_iff hRead).mp hMissing)]
  exact ends_carryOut hSeen s₅

/-- Where it comes to an end for an accepted payload, its game can be seen. -/
theorem canBeSeen_of_ends {A : Env → Prop} (hParse : setup.parse data = some (.obj ms))
    (hReadable : StartReadable ms) (hAccepted : ¬ ParamEmpty ms)
    (h : Prog.Ends (sessionHandler setup.codePage) A (startGameCallback setup data model) s) :
    CanBeSeen setup (memberText ms "gameId") := by
  obtain ⟨t, r, s', hExec⟩ := h
  rcases startGameCallback_inversion hParse hExec with ⟨hNot, -⟩ |
    ⟨-, -, f, deviceNo, sRead, s₁, t₁, t₂, -, hRead, -, hAccept⟩
  · exact absurd hReadable hNot
  · rw [acceptOrAnswer,
      if_neg fun hMissing => hAccepted ((paramMissing_iff hRead).mp hMissing)] at hAccept
    obtain ⟨_, _, _, _, -, hStart, -⟩ := Prog.exec_bind.mp hAccept
    obtain ⟨_, _, _, _, -, -, hRest⟩ := Prog.exec_bind.mp hStart
    obtain ⟨_, _, _, _, -, hWait, -⟩ := Prog.exec_bind.mp hRest
    exact canBeSeen_of_waitForGame hWait

/-- The wait is entered, so a game that is seen there can be seen. -/
theorem canBeSeen_of_seenInWait (hReadable : StartReadable ms) (h : SeenInWait setup data ms s) :
    CanBeSeen setup (memberText ms "gameId") := by
  obtain ⟨t₁, sRead, s₁, hBefore⟩ :=
    ends_of_stops (stops_beforeCheck setup (memberText ms "gameId") s)
  obtain ⟨f, hRead⟩ := readStartGame_of_readable setup hReadable sRead.deviceNo
  obtain ⟨t₂, _, s₂, hLaunch⟩ := ends_of_stops
    (stops_launchGame setup (memberText ms "gameId") f.startGameParams data f.force s₁)
  obtain ⟨_, _, _, hExec⟩ := h f sRead s₁ s₂ t₁ t₂ hBefore hRead hLaunch
  exact canBeSeen_of_seen hExec

end

-- ---------------------------------------------------------------------------
-- The payload of the first game
-- ---------------------------------------------------------------------------

/-- The same programs without the group of the first game. -/
def withoutFirstGame : Setup := { sampleSetup with
  cloudGameConfig := some { groups := [
    ("two", [("id", "g2"), ("gameExeName", "two.exe"), ("path", "C:/two&&two.exe")])] } }

end PushStreamer
