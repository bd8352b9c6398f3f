import PushStreamer.Lib.Safety
import PushStreamer.Session.OtherGames

/-!
# Payloads that spare the running game

A game runs whose executable is `exe`, in environments that leave its processes
alone, and a payload of this game goes through the StartGame handler. `Touches exe`
are the steps that kill or start it. A game whose name the code page does not keep is
not found under it: then only what else is found under the name counts.

* `spares_startGameCallback` — the handler spares the game if `Spares` holds.
* `canTouch_startGameCallback` — and can touch it otherwise.
-/

namespace PushStreamer

open Value

-- ---------------------------------------------------------------------------
-- The processes of a game
-- ---------------------------------------------------------------------------

/-- The processes of `exe`. -/
def processesOf (exe : String) (processes : List Process) : List Process :=
  processes.filter fun p => p.exeFile = exe

/-- The environment leaves the processes of `exe` alone. -/
def LeavesAlone (exe : String) (e : Env) : Prop :=
  ∀ processes, processesOf exe (e.evolve processes) = processesOf exe processes

/-- The step kills the processes of `exe`, or starts a game. -/
def Touches (exe : String) : SessionOp → Prop
  | .killGameByName name => name = exe
  | .lastGaspGoalPushStreamer => gstLaunchName = exe
  | .executeOutterScript _ => True
  | _ => False

/-- Some process can be found under the name. -/
def CodePage.Shows (codePage : CodePage) (name : String) : Prop := ∃ exe, codePage.ws2s exe = name

/-- What a look into the process list can return while `exe` runs. -/
def SeesGame (codePage : CodePage) (exe : String) :
    (o : sessionSig.Op) → sessionSig.Res o → Prop
  | .queryGamePid name, (r : Nat) =>
    (codePage.ws2s exe = name → 0 < r) ∧ (0 < r → codePage.Shows name)
  | .isProcessRunning name, (r : Nat) =>
    (codePage.ws2s exe = name → 0 < r) ∧ (0 < r → codePage.Shows name)
  | _, _ => True

section

variable {codePage : CodePage} {exe : String} {processes running : List Process}

theorem mem_processesOf {p : Process} :
    p ∈ processesOf exe processes ↔ p ∈ processes ∧ p.exeFile = exe := by
  rw [processesOf, List.mem_filter, decide_eq_true_eq]

/-- The end of another process does not concern the game. -/
theorem processesOf_withoutProcess {name : String} (h : name ≠ exe) :
    processesOf exe (withoutProcess name processes) = processesOf exe processes := by
  rw [processesOf, withoutProcess, List.filter_filter]
  refine List.filter_congr fun p _ => ?_
  by_cases hExe : p.exeFile = exe
  · rw [decide_eq_true hExe, Bool.true_and]
    exact decide_eq_true fun hName => h (hName.symm.trans hExe)
  · rw [decide_eq_false hExe, Bool.false_and]

/-- A running game is found under the name that `ws2s` gives it. -/
theorem sees_of_running (codePage : CodePage) (h : processesOf exe processes ≠ [])
    (name : String) :
    (codePage.ws2s exe = name → 0 < isProcessRunning codePage name processes) ∧
      (0 < isProcessRunning codePage name processes → codePage.Shows name) := by
  rw [isProcessRunning_pos_iff]
  refine ⟨fun hName => ?_, fun ⟨p, _, hName⟩ => ⟨p.exeFile, hName⟩⟩
  obtain ⟨p, hMem⟩ := List.exists_mem_of_ne_nil _ h
  obtain ⟨hIn, rfl⟩ := mem_processesOf.mp hMem
  exact ⟨p, hIn, hName⟩

/-- A step that does not touch the game keeps its processes, and sees them. -/
theorem exec_spared (e : Env) (s : Session) (o : SessionOp) (he : LeavesAlone exe e)
    (hRunning : running ≠ []) (hKept : processesOf exe s.processes = running)
    (hSpared : ¬ Touches exe o) :
    SeesGame codePage exe o ((sessionHandler codePage).exec e s o).1 ∧
      processesOf exe ((sessionHandler codePage).exec e s o).2.processes = running := by
  have hEvolve : processesOf exe (e.evolve s.processes) = running := (he s.processes).trans hKept
  have hSees := sees_of_running codePage (hEvolve ▸ hRunning)
  cases o with
  | queryGamePid name => exact ⟨hSees name, hEvolve⟩
  | isProcessRunning name => exact ⟨hSees name, hEvolve⟩
  | killGameByName name => exact ⟨trivial, (processesOf_withoutProcess hSpared).trans hEvolve⟩
  | lastGaspGoalPushStreamer =>
    exact ⟨trivial, (processesOf_withoutProcess hSpared).trans hEvolve⟩
  | _ => exact ⟨trivial, hEvolve⟩

/-- Steps of the other kinds touch no process. -/
theorem not_touches_of_kind {o : SessionOp} (hKill : o.kind ≠ .kill) (hScript : o.kind ≠ .script) :
    ¬ Touches exe o := by
  cases o with
  | killGameByName name => exact absurd rfl hKill
  | lastGaspGoalPushStreamer => exact absurd rfl hKill
  | executeOutterScript params => exact absurd rfl hScript
  | _ => exact id

/-- The steps of `p` spare `exe` while it runs. -/
abbrev SparesGame {α : Type} (codePage : CodePage) (exe : String) (p : SProg α) : Prop :=
  Prog.AllOn (S := sessionSig) (SeesGame codePage exe) (fun o => ¬ Touches exe o) p

/-- What spares the game performs no step that touches it, and keeps its processes. -/
theorem spared_of_begins {α : Type} {p : SProg α} {s s' : Session} {t : List (Event sessionSig)}
    (h : Prog.Begins (sessionHandler codePage) (LeavesAlone exe) p s t s')
    (hSpares : SparesGame codePage exe p) (hRunning : running ≠ [])
    (hKept : processesOf exe s.processes = running) :
    (∀ ev ∈ t, ¬ Touches exe ev.op) ∧ processesOf exe s'.processes = running := by
  have hStep : ∀ (e : Env) (x : Session) (o : sessionSig.Op), LeavesAlone exe e →
      processesOf exe x.processes = running → ¬ Touches exe o →
      SeesGame codePage exe o ((sessionHandler codePage).exec e x o).1 ∧
        processesOf exe ((sessionHandler codePage).exec e x o).2.processes = running :=
    fun e x o he => exec_spared e x o he hRunning
  exact Prog.Begins.safe hStep h hSpares hKept

/-- What `p` returns while `exe` runs. -/
abbrev GivesWhile {α : Type} (codePage : CodePage) (exe : String) (Q : α → Prop) (p : SProg α) :
    Prop :=
  Prog.Gives (S := sessionSig) (SeesGame codePage exe) Q p

/-- What neither kills nor runs a script spares every game. -/
theorem Uses.spares {α : Type} {ks : List Kind} {p : SProg α} (h : Uses ks p)
    (hKill : Kind.kill ∉ ks) (hScript : Kind.script ∉ ks) : SparesGame codePage exe p := by
  refine Prog.AllOn.of_avoids (h.avoids fun o ho hTouches => hTouches ?_)
  exact not_touches_of_kind (fun hKind => hKill (hKind ▸ ho)) fun hKind => hScript (hKind ▸ ho)

end

-- ---------------------------------------------------------------------------
-- Payloads that spare the game
-- ---------------------------------------------------------------------------

/-- `ForeachKillExe` kills the game as another one of the same executable: something
is found under its name, and no search before that one finds the game itself. -/
def KilledAsOther (codePage : CodePage) (exe : String) (others : List String) : Prop :=
  codePage.Shows exe ∧
    ∃ before after, others = before ++ exe :: after ∧ codePage.ws2s exe ∉ before

/-- `ForeachKillExe` finds the game under the name of another one, and waits for its
end. -/
def HeldUp (codePage : CodePage) (exe : String) (others : List String) : Prop :=
  codePage.ws2s exe ≠ exe ∧ codePage.ws2s exe ∈ others

/-- The start of the game neither forces it when something is found under its name,
nor runs the script when it is not found itself. -/
def SparedByStart (setup : Setup) (exe : String) (ms : List (String × Value)) : Prop :=
  (setup.codePage.Shows exe → ¬ 0 < (member ms "force").intOf) ∧
    (setup.codePage.ws2s exe = exe ∨
      (split (getGamePathByID setup (memberText ms "gameId")) "&&").length < 2)

/-- Replaying `data` spares the running game `exe`: it is not the streamer, it is not
killed as another configured game, and a payload that passes the check is held up
before the start, or spares it there. -/
def Spares (setup : Setup) (exe data : String) : Prop :=
  exe ≠ gstLaunchName ∧ ∀ ms, setup.parse data = some (.obj ms) →
    ¬ KilledAsOther setup.codePage exe
        (otherExes setup (memberText ms "gameId") (configGroups setup)) ∧
      (StartReadable ms → ¬ ParamEmpty ms →
        HeldUp setup.codePage exe
            (otherExes setup (memberText ms "gameId") (configGroups setup)) ∨
          SparedByStart setup exe ms)

section

variable {setup : Setup} {exe : String}

/-- The end of a game with another executable. -/
theorem spares_killAreadlyRunningGame {game_id : String} (hExe : gameExe setup game_id ≠ exe) :
    SparesGame setup.codePage exe (killAreadlyRunningGame setup game_id) :=
  Prog.allOn_onlyIf fun _ => Prog.allOn_bind (Prog.allOn_perform hExe) fun _ =>
    Prog.allOn_bind (Prog.allOn_repeatWhile id _) fun _ => Prog.allOn_pure _

/-- What `GameIsAreadlyRunning` answers while `exe` runs. -/
theorem gives_gameIsAreadlyRunning {game_id : String} (hExe : gameExe setup game_id ≠ "") :
    GivesWhile setup.codePage exe
      (fun b => (setup.codePage.ws2s exe = gameExe setup game_id → b = true) ∧
        (b = true → setup.codePage.Shows (gameExe setup game_id)))
      (gameIsAreadlyRunning setup game_id) := by
  rw [gameIsAreadlyRunning, if_pos hExe]
  refine Prog.gives_bind (Q := fun r : Nat =>
    (setup.codePage.ws2s exe = gameExe setup game_id → 0 < r) ∧
      (0 < r → setup.codePage.Shows (gameExe setup game_id))) (fun r hSees _ => hSees) ?_
  intro (r : Nat) hSees
  exact ⟨fun hName => decide_eq_true (hSees.1 hName), fun h => hSees.2 (of_decide_eq_true h)⟩

/-- The wait for the end of a game that is found under the name does not end. -/
theorem gives_killAreadlyRunningGame {game_id : String} (hExe : gameExe setup game_id ≠ "")
    (hName : setup.codePage.ws2s exe = gameExe setup game_id) :
    GivesWhile setup.codePage exe (fun _ => False) (killAreadlyRunningGame setup game_id) := by
  rw [killAreadlyRunningGame, Prog.onlyIf_pos hExe]
  refine Prog.gives_bind (Prog.gives_true _) fun _ _ =>
    Prog.gives_bind (Prog.gives_repeatWhile (Q := fun _ => False) ?_) fun _ h => h.elim
  intro (r : Nat) hSees hStop
  exact of_decide_eq_false hStop (hSees.1 hName)

/-- One group of the loop of `ForeachKillExe`, whose game is the one that is found. -/
theorem gives_killOther {gameId game_id : String} (hId : game_id ≠ gameId ∧ game_id ≠ "")
    (hExe : gameExe setup game_id ≠ "") (hName : setup.codePage.ws2s exe = gameExe setup game_id) :
    GivesWhile setup.codePage exe (fun _ => False)
      (Prog.onlyIf (game_id ≠ gameId ∧ game_id ≠ "") do
        let isRunning ← gameIsAreadlyRunning setup game_id
        Prog.onlyIf isRunning (killAreadlyRunningGame setup game_id)) := by
  rw [Prog.onlyIf_pos hId]
  refine Prog.gives_bind (gives_gameIsAreadlyRunning hExe) fun b hb => ?_
  rw [Prog.onlyIf_pos (hb.1 hName)]
  exact gives_killAreadlyRunningGame hExe hName

/-- A loop that finds the game under the name of another one does not end. -/
theorem gives_killOthers {gameId : String} {groups : List String}
    (h : setup.codePage.ws2s exe ∈ otherExes setup gameId groups) :
    GivesWhile setup.codePage exe (fun _ => False) (killOthers setup gameId groups) := by
  induction groups with
  | nil => cases h
  | cons group groups ih =>
    rw [otherExes] at h
    split at h
    · next hOther =>
      rcases List.mem_cons.mp h with hName | hRest
      · exact Prog.gives_bind (gives_killOther ⟨hOther.1, hOther.2.1⟩ hOther.2.2 hName)
          fun _ hNever => hNever.elim
      · exact Prog.gives_bind (Prog.gives_true _) fun _ _ => ih hRest
    · exact Prog.gives_bind (Prog.gives_true _) fun _ _ => ih h

/-- A name that the game is not found under can come first. -/
theorem KilledAsOther.cons {codePage : CodePage} {other : String} {others : List String}
    (h : KilledAsOther codePage exe others) (hName : codePage.ws2s exe ≠ other) :
    KilledAsOther codePage exe (other :: others) := by
  obtain ⟨hShows, before, after, rfl, hNot⟩ := h
  exact ⟨hShows, other :: before, after, rfl, List.not_mem_cons_of_ne_of_not_mem hName hNot⟩

/-- A group that is passed over, or whose game has no executable. -/
theorem killOther_eq {gameId game_id : String}
    (h : ¬ (game_id ≠ gameId ∧ game_id ≠ "" ∧ gameExe setup game_id ≠ "")) :
    (Prog.onlyIf (game_id ≠ gameId ∧ game_id ≠ "") do
      let isRunning ← gameIsAreadlyRunning setup game_id
      Prog.onlyIf isRunning (killAreadlyRunningGame setup game_id)) = pure () := by
  by_cases hId : game_id ≠ gameId ∧ game_id ≠ ""
  · have hExe : gameExe setup game_id = "" := by
      by_contra hExe
      exact h ⟨hId.1, hId.2, hExe⟩
    rw [Prog.onlyIf_pos hId, gameIsAreadlyRunning, if_neg (not_not.mpr hExe)]
    rfl
  · exact Prog.onlyIf_neg hId _

/-- The group of another executable. -/
theorem spares_killOther {gameId game_id : String} (hSame : gameExe setup game_id ≠ exe) :
    SparesGame setup.codePage exe
      (Prog.onlyIf (game_id ≠ gameId ∧ game_id ≠ "") do
        let isRunning ← gameIsAreadlyRunning setup game_id
        Prog.onlyIf isRunning (killAreadlyRunningGame setup game_id)) :=
  Prog.allOn_onlyIf fun _ =>
    Prog.allOn_bind ((uses_gameIsAreadlyRunning setup game_id).spares (by simp) (by simp))
      fun _ => Prog.allOn_onlyIf fun _ => spares_killAreadlyRunningGame hSame

/-- A game under whose name nothing is found. -/
theorem spares_killOther_of_none {gameId game_id : String} (hExe : gameExe setup game_id ≠ "")
    (hNone : ¬ setup.codePage.Shows (gameExe setup game_id)) :
    SparesGame setup.codePage exe
      (Prog.onlyIf (game_id ≠ gameId ∧ game_id ≠ "") do
        let isRunning ← gameIsAreadlyRunning setup game_id
        Prog.onlyIf isRunning (killAreadlyRunningGame setup game_id)) :=
  Prog.allOn_onlyIf fun _ =>
    Prog.allOn_bind_gives ((uses_gameIsAreadlyRunning setup game_id).spares (by simp) (by simp))
      (gives_gameIsAreadlyRunning hExe) fun _ hb => Prog.allOn_onlyIf fun hFound =>
        absurd (hb.2 hFound) hNone

/-- The loop of `ForeachKillExe` spares a game that it does not kill as another one. -/
theorem spares_killOthers {gameId : String} {groups : List String}
    (h : ¬ KilledAsOther setup.codePage exe (otherExes setup gameId groups)) :
    SparesGame setup.codePage exe (killOthers setup gameId groups) := by
  induction groups with
  | nil => exact Prog.allOn_pure _
  | cons group groups ih =>
    rw [otherExes] at h
    split at h
    case isFalse hOther =>
      rw [killOthers, killOther_eq hOther]
      exact ih h
    case isTrue hOther =>
      by_cases hSame : gameExe setup (setup.cloudGameConfig.getValue group "id") = exe
      · -- this would kill the game if anything were found under its name
        have hNone : ¬ setup.codePage.Shows exe := fun hShows =>
          h ⟨hShows, [], _, by rw [hSame, List.nil_append], List.not_mem_nil⟩
        exact Prog.allOn_bind (spares_killOther_of_none hOther.2.2 (hSame ▸ hNone)) fun _ =>
          ih fun hKilled => hNone hKilled.1
      · by_cases hName : setup.codePage.ws2s exe =
            gameExe setup (setup.cloudGameConfig.getValue group "id")
        · -- the game is found under the name of the other one: the loop stays here
          exact Prog.allOn_bind_gives (spares_killOther hSame)
            (gives_killOther ⟨hOther.1, hOther.2.1⟩ hOther.2.2 hName) fun _ hNever => hNever.elim
        · exact Prog.allOn_bind (spares_killOther hSame) fun _ =>
            ih fun hKilled => h (hKilled.cons hName)

/-- A start without a script. -/
theorem startGameByGameId_eq {gameId : String}
    (h : (split (getGamePathByID setup gameId) "&&").length < 2) :
    startGameByGameId setup gameId = pure () := by
  rw [startGameByGameId]
  rcases hSplit : split (getGamePathByID setup gameId) "&&" with _ | ⟨p, _ | ⟨q, rest⟩⟩
  · rfl
  · rfl
  · rw [hSplit, List.length_cons, List.length_cons] at h
    omega

/-- A start with a script. -/
theorem startGameByGameId_script {gameId : String}
    (h : 2 ≤ (split (getGamePathByID setup gameId) "&&").length) :
    ∃ params, startGameByGameId setup gameId = act (.executeOutterScript params) := by
  rw [startGameByGameId]
  rcases hSplit : split (getGamePathByID setup gameId) "&&" with _ | ⟨p, _ | ⟨q, rest⟩⟩
  · rw [hSplit] at h
    exact absurd h (by decide)
  · rw [hSplit] at h
    exact absurd h (by simp)
  · exact ⟨_, rfl⟩

/-- A game that runs is left alone by its start. -/
theorem spares_launchGame {ms : List (String × Value)} {startGameParams data : String} {force : Int}
    (hGame : gameExe setup (memberText ms "gameId") = exe) (hExe : exe ≠ "")
    (hForce : force = (member ms "force").intOf) (hStart : SparedByStart setup exe ms) :
    SparesGame setup.codePage exe
      (launchGame setup (memberText ms "gameId") startGameParams data force) := by
  have hReport : SparesGame setup.codePage exe activeReportGameStatus :=
    uses_activeReportGameStatus.spares (by simp) (by simp)
  have hLook : SparesGame setup.codePage exe
      (gameIsAreadlyRunning setup (memberText ms "gameId")) :=
    (uses_gameIsAreadlyRunning setup _).spares (by simp) (by simp)
  refine Prog.allOn_bind (Prog.allOn_perform id) fun _ =>
    Prog.allOn_bind (Prog.allOn_onlyIf fun _ => hReport) fun _ =>
      Prog.allOn_bind_gives hLook (gives_gameIsAreadlyRunning (hGame ▸ hExe)) fun b hb => ?_
  rw [hGame] at hb
  split
  case isTrue hFound =>
    rw [if_neg (hForce ▸ hStart.1 (hb.2 hFound))]
    exact Prog.allOn_pure _
  case isFalse hNot =>
    rw [startGameByGameId_eq (hStart.2.resolve_left fun hName => hNot (hb.1 hName))]
    exact Prog.allOn_pure _

/-- A payload that is rejected spares the game, and so does a start that spares it. -/
theorem spares_acceptOrAnswer {ms : List (String × Value)} {data deviceNo : String}
    {f : StartGameFields} {model : StartGameModel}
    (hRead : readStartGame setup deviceNo (.obj ms) = .ok f)
    (hGame : gameExe setup (memberText ms "gameId") = exe) (hExe : exe ≠ "")
    (hStart : ParamEmpty ms ∨ SparedByStart setup exe ms) :
    SparesGame setup.codePage exe
      (acceptOrAnswer setup (memberText ms "gameId") data f model) := by
  rw [acceptOrAnswer]
  split
  case isTrue hMissing =>
    exact (uses_messageFeedBack _ _ _).spares (by simp) (by simp)
  case isFalse hPresent =>
    have hEmpty : ¬ ParamEmpty ms := fun h => hPresent ((paramMissing_iff hRead).mpr h)
    have hField : f.force = (member ms "force").intOf :=
      (readStartGame_fields setup ms deviceNo hRead).2.2.2.2.1
    refine Prog.allOn_bind (Prog.allOn_bind ?_ fun _ => Prog.allOn_bind ?_ fun _ => ?_) fun _ =>
      Prog.allOn_bind ?_ fun _ => Prog.allOn_onlyIf fun _ => ?_
    · exact spares_launchGame hGame hExe hField (hStart.resolve_left hEmpty)
    · exact (uses_waitForGame setup _).spares (by simp) (by simp)
    · exact (uses_recordInfo _ _ _).spares (by simp) (by simp)
    · exact (uses_pushStreamerAction setup _).spares (by simp) (by simp)
    · exact (uses_startKeyboardAction setup _ _ _).spares (by simp) (by simp)

/-- Only an object has a readable text member. -/
theorem object_of_readText {root : Value} {name text : String}
    (h : readText root name = .ok text) : ∃ ms, root = .obj ms ∧ text = memberText ms name := by
  cases root with
  | obj ms =>
    have hText := (returns_readText ms name).mp ⟨text, h⟩
    exact ⟨ms, rfl, Except.ok.inj (h.symm.trans (readText_eq hText))⟩
  | _ => cases h

/-- **The handler spares the game.** -/
theorem spares_startGameCallback {data : String} {model : StartGameModel}
    (hGame : ∀ ms, setup.parse data = some (.obj ms) →
      gameExe setup (memberText ms "gameId") = exe)
    (hExe : exe ≠ "") (h : Spares setup exe data) :
    SparesGame setup.codePage exe (startGameCallback setup data model) := by
  refine Prog.allOn_bind (Prog.allOn_perform id) fun _ =>
    Prog.allOn_bind (Prog.allOn_perform (Ne.symm h.1)) fun _ => ?_
  split
  · exact Prog.allOn_pure _
  cases hParse : setup.parse data with
  | none => exact Prog.allOn_pure _
  | some root =>
    show SparesGame setup.codePage exe (startGame setup data root model)
    unfold startGame
    cases hText : readText root "gameId" with
    | error failure => exact Prog.allOn_pure _
    | ok gameId =>
      obtain ⟨ms, rfl, rfl⟩ := object_of_readText hText
      obtain ⟨hOthers, hStart⟩ := h.2 ms hParse
      have hKill := spares_killOthers hOthers
      by_cases hHeld : HeldUp setup.codePage exe
          (otherExes setup (memberText ms "gameId") (configGroups setup))
      · -- the handler does not get past the other games
        exact Prog.allOn_bind_gives hKill (gives_killOthers hHeld.2) fun _ hNever => hNever.elim
      refine Prog.allOn_bind hKill fun _ => Prog.allOn_bind (Prog.allOn_perform id) fun _ =>
        Prog.allOn_bind (Prog.allOn_perform id) fun s => ?_
      cases hRead : readStartGame setup (Session.deviceNo s) (.obj ms) with
      | error failure => exact Prog.allOn_pure _
      | ok f =>
        obtain ⟨hTexts, hForce⟩ := (returns_readStartGame setup ms _).mp ⟨f, hRead⟩
        have hReadable : StartReadable ms :=
          ⟨List.forall_mem_cons.mpr ⟨(returns_readText ms "gameId").mp ⟨_, hText⟩, hTexts⟩, hForce⟩
        have hSpared : ParamEmpty ms ∨ SparedByStart setup exe ms := by
          by_cases hEmpty : ParamEmpty ms
          · exact .inl hEmpty
          · exact .inr ((hStart hReadable hEmpty).resolve_left hHeld)
        exact Prog.allOn_bind (spares_acceptOrAnswer hRead (hGame ms hParse) hExe hSpared)
          fun _ => Prog.allOn_pure _

end


-- ---------------------------------------------------------------------------
-- Payloads that touch the game
-- ---------------------------------------------------------------------------

/-- The environment ends every process but those of the game. -/
def aloneEnv (exe : String) : Env := { quietEnv with evolve := processesOf exe }

/-- The environment starts a process of `other`, unless this is the game. -/
def besideEnv (exe other : String) : Env := { quietEnv with
  evolve := fun processes => if other = exe then processes else ⟨other, 1, by decide⟩ :: processes }

section

variable {setup : Setup} {exe : String} {s s' : Session} {t : List (Event sessionSig)}

theorem leavesAlone_aloneEnv : LeavesAlone exe (aloneEnv exe) := fun processes => by
  show processesOf exe (processesOf exe processes) = _
  rw [processesOf, processesOf, List.filter_filter]
  simp only [Bool.and_self]

theorem leavesAlone_besideEnv {other : String} : LeavesAlone exe (besideEnv exe other) := by
  intro processes
  show processesOf exe (if other = exe then processes else _) = _
  split
  · rfl
  · next hOther => exact List.filter_cons_of_neg (by simpa using hOther)

/-- A process of that name runs then. -/
theorem runs_besideEnv {processes : List Process} (other : String)
    (hRunning : processesOf exe processes ≠ []) :
    ∃ p ∈ (besideEnv exe other).evolve processes, p.exeFile = other := by
  show ∃ p ∈ if other = exe then processes else _, p.exeFile = other
  split
  case isTrue hSame =>
    obtain ⟨p, hMem⟩ := List.exists_mem_of_ne_nil _ hRunning
    obtain ⟨hIn, hExe⟩ := mem_processesOf.mp hMem
    exact ⟨p, hIn, hExe.trans hSame.symm⟩
  case isFalse => exact ⟨_, List.mem_cons_self, rfl⟩

/-- Left alone, some beginning of `p` touches the game. -/
def CanTouch {α : Type} (setup : Setup) (exe : String) (p : SProg α) (s : Session) : Prop :=
  ∃ t s', Prog.Begins (sessionHandler setup.codePage) (LeavesAlone exe) p s t s' ∧
    ∃ ev ∈ t, Touches exe ev.op

/-- A part that can touch the game may come first. -/
theorem CanTouch.bind_left {α β : Type} {p : SProg α} {f : α → SProg β}
    (h : CanTouch setup exe p s) : CanTouch setup exe (p >>= f) s := by
  obtain ⟨t, s', hBegins, hTouch⟩ := h
  exact ⟨t, s', hBegins.bind_left f, hTouch⟩

/-- A part that can touch the game may come behind one that can end. -/
theorem CanTouch.bind_right {α β : Type} {p : SProg α} {f : α → SProg β} {a : α} {s₁ : Session}
    (hExec : Prog.Exec (sessionHandler setup.codePage) (LeavesAlone exe) p s t a s₁)
    (h : CanTouch setup exe (f a) s₁) : CanTouch setup exe (p >>= f) s := by
  obtain ⟨t₂, s', hBegins, ev, hMem, hTouch⟩ := h
  exact ⟨t ++ t₂, s', Prog.Begins.bind_right hExec hBegins, ev, List.mem_append_right _ hMem,
    hTouch⟩

/-- After a part that ends and spares the game, the game still runs. -/
theorem CanTouch.after_spared {α β : Type} {p : SProg α} {f : α → SProg β}
    (hRunning : processesOf exe s.processes ≠ [])
    (hEnds : Prog.Ends (sessionHandler setup.codePage) (LeavesAlone exe) p s)
    (hSpares : SparesGame setup.codePage exe p)
    (h : ∀ a s₁, processesOf exe s₁.processes ≠ [] → CanTouch setup exe (f a) s₁) :
    CanTouch setup exe (p >>= f) s := by
  obtain ⟨t, a, s₁, hExec⟩ := hEnds
  have hKept := (spared_of_begins hExec.begins hSpares hRunning rfl).2
  exact CanTouch.bind_right hExec (h a s₁ (hKept ▸ hRunning))

theorem canTouch_act {o : SessionOp} (h : Touches exe o) : CanTouch setup exe (act o) s := by
  have hExec : Prog.Exec (sessionHandler setup.codePage) (LeavesAlone exe) (act o) s _ _ _ :=
    Prog.exec_perform.mpr ⟨_, leavesAlone_aloneEnv, rfl, rfl⟩
  exact ⟨_, _, hExec.begins, _, List.mem_singleton_self _, h⟩

theorem ends_act (setup : Setup) (exe : String) (o : SessionOp) (s : Session) :
    Prog.Ends (sessionHandler setup.codePage) (LeavesAlone exe) (act o) s :=
  Prog.ends_perform (H := sessionHandler setup.codePage) leavesAlone_aloneEnv o s

theorem ends_activeReportGameStatus (setup : Setup) (exe : String) (s : Session) :
    Prog.Ends (sessionHandler setup.codePage) (LeavesAlone exe) activeReportGameStatus s :=
  Prog.ends_bind (ends_act setup exe _ _) fun _ _ _ _ => ends_act setup exe _ _

/-- When some process can be found under the name of a game, it can be found running. -/
theorem exec_found {game_id : String} (hExe : gameExe setup game_id ≠ "")
    (hShows : setup.codePage.Shows (gameExe setup game_id))
    (hRunning : processesOf exe s.processes ≠ []) :
    ∃ t s₁, Prog.Exec (sessionHandler setup.codePage) (LeavesAlone exe)
      (gameIsAreadlyRunning setup game_id) s t true s₁ := by
  obtain ⟨other, hOther⟩ := hShows
  have hFound : 0 < isProcessRunning setup.codePage (gameExe setup game_id)
      ((besideEnv exe other).evolve s.processes) := by
    obtain ⟨p, hIn, hSame⟩ := runs_besideEnv other hRunning
    exact isProcessRunning_pos_iff.mpr ⟨p, hIn, hSame ▸ hOther⟩
  rw [gameIsAreadlyRunning, if_pos hExe]
  refine ⟨_, _, Prog.exec_bind.mpr ⟨_, _, _, _, rfl,
    Prog.exec_perform.mpr ⟨besideEnv exe other, leavesAlone_besideEnv, rfl, rfl⟩,
    Prog.exec_pure.mpr ⟨rfl, ?_, rfl⟩⟩⟩
  exact (decide_eq_true hFound).symm

/-- A game under whose name the one that runs is not found need not be found. -/
theorem exec_notFound {game_id : String} (hName : setup.codePage.ws2s exe ≠ gameExe setup game_id) :
    ∃ t s₁, Prog.Exec (sessionHandler setup.codePage) (LeavesAlone exe)
      (gameIsAreadlyRunning setup game_id) s t false s₁ := by
  rw [gameIsAreadlyRunning]
  split
  case isFalse => exact ⟨_, _, Prog.exec_pure.mpr ⟨rfl, rfl, rfl⟩⟩
  case isTrue =>
    have hZero : isProcessRunning setup.codePage (gameExe setup game_id)
        ((aloneEnv exe).evolve s.processes) = 0 := by
      refine isProcessRunning_eq_zero_iff.mpr fun p hMem => ?_
      obtain ⟨-, rfl⟩ := mem_processesOf.mp hMem
      exact hName
    refine ⟨_, _, Prog.exec_bind.mpr ⟨_, _, _, _, rfl,
      Prog.exec_perform.mpr ⟨_, leavesAlone_aloneEnv, rfl, rfl⟩,
      Prog.exec_pure.mpr ⟨rfl, ?_, rfl⟩⟩⟩
    exact (decide_eq_false (Nat.not_lt.mpr hZero.le)).symm

/-- A running game that is found is killed. -/
theorem canTouch_kill {game_id : String} (hGame : gameExe setup game_id = exe) (hExe : exe ≠ "") :
    CanTouch setup exe (killAreadlyRunningGame setup game_id) s := by
  rw [killAreadlyRunningGame, Prog.onlyIf, hGame, if_pos hExe]
  exact CanTouch.bind_left (canTouch_act rfl)

/-- One group of the loop of `ForeachKillExe` whose game need not be found. -/
theorem ends_killOther {gameId game_id : String}
    (hName : setup.codePage.ws2s exe ≠ gameExe setup game_id) :
    Prog.Ends (sessionHandler setup.codePage) (LeavesAlone exe)
      (Prog.onlyIf (game_id ≠ gameId ∧ game_id ≠ "") do
        let isRunning ← gameIsAreadlyRunning setup game_id
        Prog.onlyIf isRunning (killAreadlyRunningGame setup game_id)) s := by
  refine Prog.ends_onlyIf fun _ => ?_
  obtain ⟨t, s₁, hExec⟩ := exec_notFound (s := s) hName
  exact ⟨_, _, _, Prog.exec_bind.mpr ⟨_, _, _, _, rfl, hExec, Prog.exec_pure.mpr ⟨rfl, rfl, rfl⟩⟩⟩

/-- A search for games that need not be found comes to an end. -/
theorem ends_killOthers {gameId : String} {groups : List String}
    (h : setup.codePage.ws2s exe ∉ otherExes setup gameId groups) :
    Prog.Ends (sessionHandler setup.codePage) (LeavesAlone exe) (killOthers setup gameId groups)
      s := by
  induction groups generalizing s with
  | nil => exact Prog.ends_pure () s
  | cons group groups ih =>
    rw [otherExes] at h
    split at h
    case isTrue =>
      rw [List.mem_cons, not_or] at h
      exact Prog.ends_bind (ends_killOther h.1) fun _ _ _ _ => ih h.2
    case isFalse hOther =>
      rw [killOthers, killOther_eq hOther]
      exact ih h

/-- The first name is that of the game, or the game is not found under it. -/
theorem KilledAsOther.of_cons {codePage : CodePage} {other : String} {others : List String}
    (h : KilledAsOther codePage exe (other :: others)) :
    other = exe ∨ (codePage.ws2s exe ≠ other ∧ KilledAsOther codePage exe others) := by
  obtain ⟨hShows, before, after, hSplit, hNot⟩ := h
  cases before with
  | nil =>
    rw [List.nil_append] at hSplit
    exact .inl (List.cons.inj hSplit).1
  | cons first before =>
    obtain ⟨rfl, hRest⟩ := List.cons.inj hSplit
    rw [List.mem_cons, not_or] at hNot
    exact .inr ⟨hNot.1, hShows, before, after, hRest, hNot.2⟩

/-- The game is killed as another one, when nothing is found before that. -/
theorem canTouch_killOthers {gameId : String} {groups : List String} (hExe : exe ≠ "")
    (hRunning : processesOf exe s.processes ≠ [])
    (h : KilledAsOther setup.codePage exe (otherExes setup gameId groups)) :
    CanTouch setup exe (killOthers setup gameId groups) s := by
  induction groups generalizing s with
  -- without other games nothing is killed as one
  | nil =>
    obtain ⟨-, before, after, hNil, -⟩ := h
    cases before <;> cases hNil
  | cons group groups ih =>
    have hShows := h.1
    rw [otherExes] at h
    split at h
    case isFalse hOther =>
      rw [killOthers, killOther_eq hOther]
      exact ih hRunning h
    case isTrue hOther =>
      by_cases hSame : gameExe setup (setup.cloudGameConfig.getValue group "id") = exe
      · -- something is found under the name of the game
        obtain ⟨t₁, s₁, hExec⟩ := exec_found hOther.2.2 (hSame ▸ hShows) hRunning
        refine CanTouch.bind_left ?_
        rw [Prog.onlyIf_pos ⟨hOther.1, hOther.2.1⟩]
        refine CanTouch.bind_right hExec ?_
        rw [Prog.onlyIf_pos rfl]
        exact canTouch_kill hSame hExe
      · -- the groups before it leave the game alone
        obtain ⟨hName, hRest⟩ := h.of_cons.resolve_left hSame
        exact CanTouch.after_spared hRunning (ends_killOther hName) (spares_killOther hSame)
          fun _ s₁ hRunning₁ => ih hRunning₁ hRest

/-- The start of a running game kills it by its force, or runs the script when it
is not found. -/
theorem canTouch_launchGame {ms : List (String × Value)} {startGameParams data : String}
    {force : Int} (hGame : gameExe setup (memberText ms "gameId") = exe) (hExe : exe ≠ "")
    (hRunning : processesOf exe s.processes ≠ []) (hForce : force = (member ms "force").intOf)
    (hStart : ¬ SparedByStart setup exe ms) :
    CanTouch setup exe (launchGame setup (memberText ms "gameId") startGameParams data force)
      s := by
  have hReport : SparesGame setup.codePage exe activeReportGameStatus :=
    uses_activeReportGameStatus.spares (by simp) (by simp)
  refine CanTouch.after_spared hRunning (ends_act setup exe _ s) (Prog.allOn_perform id) ?_
  intro _ s₁ hRunning₁
  refine CanTouch.after_spared hRunning₁
    (Prog.ends_onlyIf fun _ => ends_activeReportGameStatus setup exe s₁)
    (Prog.allOn_onlyIf fun _ => hReport) ?_
  intro _ s₂ hRunning₂
  rw [SparedByStart, not_and_or, not_or] at hStart
  rcases hStart with hForced | ⟨hName, hScript⟩
  · -- it is found, and killed
    rw [Classical.not_imp, not_not] at hForced
    obtain ⟨t, s₃, hFound⟩ := exec_found (hGame ▸ hExe) (hGame.symm ▸ hForced.1) hRunning₂
    refine CanTouch.bind_right hFound ?_
    rw [if_pos rfl, if_pos (hForce ▸ hForced.2)]
    exact CanTouch.bind_left (canTouch_kill hGame hExe)
  · -- it is not found, and started
    have hFind : setup.codePage.ws2s exe ≠ gameExe setup (memberText ms "gameId") := by
      rw [hGame]
      exact hName
    obtain ⟨t, s₃, hNotFound⟩ := exec_notFound (s := s₂) hFind
    refine CanTouch.bind_right hNotFound ?_
    obtain ⟨params, hParams⟩ := startGameByGameId_script (Nat.le_of_not_lt hScript)
    rw [if_neg Bool.false_ne_true, hParams]
    exact canTouch_act trivial

/-- A game with an executable has a text for its id. -/
theorem text_of_gameExe {ms : List (String × Value)}
    (hGame : gameExe setup (memberText ms "gameId") = exe) (hExe : exe ≠ "") :
    ∃ g, member ms "gameId" = .str g := by
  by_contra hNone
  have hEmpty : memberText ms "gameId" = "" := by
    unfold memberText
    split
    · rename_i g hText
      exact absurd ⟨g, hText⟩ hNone
    · rfl
  rw [hEmpty, gameExe, getValueByGameID, if_neg (by simp)] at hGame
  exact hExe hGame.symm

/-- What is neither killed as another game nor held up is not found by the search for
the others. -/
theorem not_mem_of_spared {others : List String}
    (hKilled : ¬ KilledAsOther setup.codePage exe others) (hHeld : ¬ HeldUp setup.codePage exe others) : setup.codePage.ws2s exe ∉ others := by
  intro hMem
  by_cases hName : setup.codePage.ws2s exe = exe
  · rw [hName] at hMem
    obtain ⟨before, after, rfl, hFirst⟩ := List.eq_append_cons_of_mem hMem
    exact hKilled ⟨⟨exe, hName⟩, before, after, rfl, hName.symm ▸ hFirst⟩
  · exact hHeld ⟨hName, hMem⟩

/-- The payload of a running game touches it as another game with the same
executable, or when it is started. -/
theorem canTouch_startGame {ms : List (String × Value)} {data : String} {model : StartGameModel}
    (hGame : gameExe setup (memberText ms "gameId") = exe) (hExe : exe ≠ "")
    (hRunning : processesOf exe s.processes ≠ [])
    (h : ¬ (¬ KilledAsOther setup.codePage exe
        (otherExes setup (memberText ms "gameId") (configGroups setup)) ∧
      (StartReadable ms → ¬ ParamEmpty ms →
        HeldUp setup.codePage exe
            (otherExes setup (memberText ms "gameId") (configGroups setup)) ∨
          SparedByStart setup exe ms))) :
    CanTouch setup exe (startGame setup data (.obj ms) model) s := by
  unfold startGame
  rw [readText_eq (text_of_gameExe hGame hExe)]
  by_cases hKilled : KilledAsOther setup.codePage exe
      (otherExes setup (memberText ms "gameId") (configGroups setup))
  · exact CanTouch.bind_left (canTouch_killOthers hExe hRunning hKilled)
  have hStart := (not_and_or.mp h).resolve_left (not_not.mpr hKilled)
  rw [Classical.not_imp, Classical.not_imp, not_or] at hStart
  obtain ⟨hReadable, hPresent, hHeld, hSpared⟩ := hStart
  refine CanTouch.after_spared hRunning (ends_killOthers (not_mem_of_spared hKilled hHeld))
    (spares_killOthers hKilled) ?_
  intro _ s₁ hRunning₁
  refine CanTouch.after_spared hRunning₁ (ends_act setup exe _ s₁) (Prog.allOn_perform id) ?_
  intro _ s₂ hRunning₂
  refine CanTouch.after_spared hRunning₂ (ends_act setup exe _ s₂) (Prog.allOn_perform id) ?_
  intro sRead s₃ hRunning₃
  obtain ⟨f, hRead⟩ := (returns_readStartGame setup ms (Session.deviceNo sRead)).mpr
    ⟨fun name hName => hReadable.1 name (List.mem_of_mem_tail hName), hReadable.2⟩
  have hField : f.force = (member ms "force").intOf :=
    (readStartGame_fields setup ms _ hRead).2.2.2.2.1
  rw [hRead]
  refine CanTouch.bind_left ?_
  rw [acceptOrAnswer, if_neg fun hMissing => hPresent ((paramMissing_iff hRead).mp hMissing)]
  exact CanTouch.bind_left (CanTouch.bind_left
    (canTouch_launchGame hGame hExe hRunning₃ hField hSpared))

/-- **The handler touches the game** when the payload does not spare it. -/
theorem canTouch_startGameCallback {data : String} {model : StartGameModel}
    (hGame : ∀ ms, setup.parse data = some (.obj ms) →
      gameExe setup (memberText ms "gameId") = exe)
    (hExe : exe ≠ "") (hRunning : processesOf exe s.processes ≠ [])
    (h : ¬ Spares setup exe data) :
    CanTouch setup exe (startGameCallback setup data model) s := by
  refine CanTouch.after_spared hRunning (ends_act setup exe _ s) (Prog.allOn_perform id) ?_
  intro _ s₁ hRunning₁
  by_cases hGst : exe = gstLaunchName
  · -- the handler kills the streamer first
    exact CanTouch.bind_left (canTouch_act hGst.symm)
  refine CanTouch.after_spared hRunning₁ (ends_act setup exe _ s₁)
    (Prog.allOn_perform (Ne.symm hGst)) ?_
  intro _ s₂ hRunning₂
  -- so there is a payload that the game is not spared by
  rw [Spares, not_and_or] at h
  obtain ⟨ms, hNot⟩ := not_forall.mp (h.resolve_left (not_not.mpr hGst))
  rw [Classical.not_imp] at hNot
  obtain ⟨hParse, hTouch⟩ := hNot
  have hData : data ≠ "" := Setup.ne_of_parse hParse
  rw [if_neg hData, hParse]
  exact canTouch_startGame (hGame ms hParse) hExe hRunning₂ hTouch

end

end PushStreamer
