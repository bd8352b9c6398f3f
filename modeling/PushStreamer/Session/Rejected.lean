import PushStreamer.Lib.Safety
import PushStreamer.Session.StartGame

/-!
# Rejected payloads

`StartGameCallback` checks its parameters after it has cleared the saved ones,
killed the stream, killed the other games and overwritten `m_gameId`. In an
environment that leaves the list of processes alone (`Quiet`), the state after a
rejected payload is written out (`exec_beforeCheck`), and it is the state before
only when there was nothing to clear and nothing to kill
(`rejected_unchanged_iff`).
-/

namespace PushStreamer

open Value

/-- The environment starts and ends no process. -/
def Quiet (e : Env) : Prop := e.evolve = id

def quietEnv : Env := { evolve := id, closepush := true, push := true }

theorem quiet_quietEnv : Quiet quietEnv := rfl

/-- `isProcessRunning` finds the process under its own name. -/
def Process.Seen (codePage : CodePage) (p : Process) : Prop := codePage.ws2s p.exeFile = p.exeFile

instance (codePage : CodePage) (p : Process) : Decidable (p.Seen codePage) :=
  inferInstanceAs (Decidable (_ = _))

/-- The list of processes without those of `exes` that are seen. -/
def withoutSeen (codePage : CodePage) (exes : List String) (processes : List Process) :
    List Process :=
  processes.filter fun p => ¬ (p.exeFile ∈ exes ∧ p.Seen codePage)

/-- The executables that `ForeachKillExe` looks for: those of the configured
games other than `gameId`. -/
def otherExes (setup : Setup) (gameId : String) : List String → List String
  | [] => []
  | group :: groups =>
    let game_id := setup.cloudGameConfig.getValue group "id"
    if game_id ≠ gameId ∧ game_id ≠ "" ∧ gameExe setup game_id ≠ "" then
      gameExe setup game_id :: otherExes setup gameId groups
    else otherExes setup gameId groups

section

variable {codePage : CodePage} {exes : List String} {processes processes' : List Process}

theorem mem_withoutSeen {p : Process} : p ∈ withoutSeen codePage exes processes ↔
    p ∈ processes ∧ ¬ (p.exeFile ∈ exes ∧ p.Seen codePage) := by
  rw [withoutSeen, List.mem_filter, decide_eq_true_eq]

theorem withoutSeen_eq_self : withoutSeen codePage exes processes = processes ↔
    ∀ p ∈ processes, p.exeFile ∈ exes → ¬ p.Seen codePage := by
  rw [withoutSeen, List.filter_eq_self]
  simp only [decide_eq_true_eq, not_and]

theorem withoutSeen_append (exes exes' : List String) (processes : List Process) :
    withoutSeen codePage exes' (withoutSeen codePage exes processes) =
      withoutSeen codePage (exes ++ exes') processes := by
  rw [withoutSeen, withoutSeen, List.filter_filter, withoutSeen]
  refine List.filter_congr fun p _ => ?_
  rw [← Bool.decide_and]
  refine decide_eq_decide.mpr ?_
  rw [List.mem_append, or_and_right, not_or, and_comm]

/-- Killing an executable that the code page keeps. -/
theorem withoutProcess_eq {exe : String} (h : codePage.ws2s exe = exe) :
    withoutProcess exe processes = withoutSeen codePage [exe] processes := by
  refine List.filter_congr fun p _ => ?_
  refine decide_eq_decide.mpr (not_congr ?_)
  rw [List.mem_singleton]
  refine ⟨fun hEq => ⟨hEq, ?_⟩, And.left⟩
  rw [Process.Seen, hEq, h]

/-- What the search for `exes`, one after the other, leaves when it comes to an end:
a process that was found under one of the names had that name, and is gone. -/
structure Killed (codePage : CodePage) (exes : List String) (processes processes' : List Process) :
    Prop where
  seen : ∀ p ∈ processes, codePage.ws2s p.exeFile ∈ exes → p.Seen codePage
  left : processes' = withoutSeen codePage exes processes

theorem killed_nil (codePage : CodePage) (processes : List Process) :
    Killed codePage [] processes processes where
  seen _ _ h := by cases h
  left := (withoutSeen_eq_self.mpr fun _ _ h => by cases h).symm

theorem Killed.append {exes' : List String} {processes'' : List Process}
    (h : Killed codePage exes processes processes')
    (h' : Killed codePage exes' processes' processes'') :
    Killed codePage (exes ++ exes') processes processes'' where
  seen := by
    intro p hMem hFound
    rcases List.mem_append.mp hFound with hFirst | hLater
    · exact h.seen p hMem hFirst
    · by_cases hGone : p.exeFile ∈ exes ∧ p.Seen codePage
      · exact hGone.2
      · exact h'.seen p (h.left ▸ mem_withoutSeen.mpr ⟨hMem, hGone⟩) hLater
  left := by rw [h'.left, h.left, withoutSeen_append]

/-- A search that finds nothing. -/
theorem killed_of_none {exe : String}
    (h : ∀ p ∈ processes, codePage.ws2s p.exeFile ≠ exe) :
    Killed codePage [exe] processes processes where
  seen p hMem hFound := absurd (List.mem_singleton.mp hFound) (h p hMem)
  left := by
    refine (withoutSeen_eq_self.mpr fun p hMem hExe hSeen => h p hMem ?_).symm
    rw [← List.mem_singleton.mp hExe]
    exact hSeen

/-- A search that finds something, and a kill after which it finds nothing. -/
theorem killed_of_kill {exe : String} (hLeft : processes' = withoutProcess exe processes)
    (hFound : ∃ p ∈ processes, codePage.ws2s p.exeFile = exe)
    (hNone : ∀ p ∈ processes', codePage.ws2s p.exeFile ≠ exe) :
    Killed codePage [exe] processes processes' := by
  have hNamed : ∀ p ∈ processes, codePage.ws2s p.exeFile = exe → p.exeFile = exe := by
    intro p hMem hName
    by_contra hOther
    refine hNone p ?_ hName
    rw [hLeft, withoutProcess, List.mem_filter]
    exact ⟨hMem, decide_eq_true hOther⟩
  obtain ⟨q, hMem, hName⟩ := hFound
  have hKept : codePage.ws2s exe = exe := hNamed q hMem hName ▸ hName
  refine ⟨fun p hMem hIn => ?_, by rw [hLeft, withoutProcess_eq hKept]⟩
  have hShown := List.mem_singleton.mp hIn
  rw [Process.Seen, hShown, hNamed p hMem hShown]

end

section

variable {setup : Setup} {s s' : Session} {t : List (Event sessionSig)}

/-- In a quiet environment a step does what it says, and nothing else. -/
theorem exec_quiet {codePage : CodePage} {e : Env} (he : Quiet e) (s : Session) (o : SessionOp) :
    (sessionHandler codePage).exec e s o = execOp codePage e s o := by
  show execOp codePage e { s with processes := e.evolve s.processes } o = _
  rw [he]
  rfl

theorem exec_act_quiet {o : SessionOp} {r : o.Res}
    (h : Prog.Exec (sessionHandler setup.codePage) Quiet (act o) s t r s') :
    ∃ e, execOp setup.codePage e s o = (r, s') := by
  obtain ⟨e, he, -, hExec⟩ := Prog.exec_perform.mp h
  exact ⟨e, (exec_quiet he s o).symm.trans hExec⟩

/-- `GameIsAreadlyRunning` looks the game up, and remembers the pid. -/
theorem exec_gameIsAreadlyRunning {gameId : String} {b : Bool}
    (h : Prog.Exec (sessionHandler setup.codePage) Quiet (gameIsAreadlyRunning setup gameId)
      s t b s') (hExe : gameExe setup gameId ≠ "") :
    b = decide (0 < isProcessRunning setup.codePage (gameExe setup gameId) s.processes) ∧
      s' = { s with gamePid := s'.gamePid } := by
  rw [gameIsAreadlyRunning, if_pos hExe] at h
  obtain ⟨t₁, t₂, pid, s₁, rfl, hQuery, hRest⟩ := Prog.exec_bind.mp h
  obtain ⟨-, rfl, rfl⟩ := Prog.exec_pure.mp hRest
  obtain ⟨e, hExec⟩ := exec_act_quiet hQuery
  obtain ⟨rfl, rfl⟩ := Prod.mk.inj hExec
  exact ⟨rfl, rfl⟩

/-- `KillAreadlyRunningGame` ends the process of the game, and comes to an end when
no other is found under its name. -/
theorem exec_killAreadlyRunningGame {gameId : String} {u : Unit}
    (h : Prog.Exec (sessionHandler setup.codePage) Quiet (killAreadlyRunningGame setup gameId)
      s t u s') (hExe : gameExe setup gameId ≠ "") :
    s' = { s with processes := withoutProcess (gameExe setup gameId) s.processes } ∧
      ∀ p ∈ s'.processes, setup.codePage.ws2s p.exeFile ≠ gameExe setup gameId := by
  rw [killAreadlyRunningGame, Prog.onlyIf_pos hExe] at h
  obtain ⟨t₁, t', _, s₁, -, hKill, hRest⟩ := Prog.exec_bind.mp h
  obtain ⟨t₂, t₃, pid, s₂, -, hPoll, hPure⟩ := Prog.exec_bind.mp hRest
  obtain ⟨-, -, rfl⟩ := Prog.exec_pure.mp hPure
  obtain ⟨e, hExec⟩ := exec_act_quiet hKill
  obtain ⟨-, rfl⟩ := Prod.mk.inj hExec
  have hSame := Prog.exec_repeatWhile (fun e s he => by rw [exec_quiet he]; rfl) hPoll
  refine ⟨hSame, isProcessRunning_eq_zero_iff.mp ?_⟩
  -- the last look of the loop finds nothing
  obtain ⟨hStop, -, e₂, s₃, he, hLast⟩ := Prog.exec_repeatWhile_last hPoll
  rw [exec_quiet he] at hLast
  obtain ⟨rfl, rfl⟩ := Prod.mk.inj hLast
  exact Nat.eq_zero_of_not_pos (of_decide_eq_false hStop)

/-- One group of the loop of `ForeachKillExe`. -/
theorem exec_killOther {gameId game_id : String} {u : Unit}
    (h : Prog.Exec (sessionHandler setup.codePage) Quiet
      (Prog.onlyIf (game_id ≠ gameId ∧ game_id ≠ "") do
        let isRunning ← gameIsAreadlyRunning setup game_id
        Prog.onlyIf isRunning (killAreadlyRunningGame setup game_id)) s t u s') :
    s' = { s with gamePid := s'.gamePid, processes := s'.processes } ∧
      Killed setup.codePage
        (if game_id ≠ gameId ∧ game_id ≠ "" ∧ gameExe setup game_id ≠ "" then
          [gameExe setup game_id] else []) s.processes s'.processes := by
  by_cases hId : game_id ≠ gameId ∧ game_id ≠ ""
  · rw [Prog.onlyIf_pos hId] at h
    obtain ⟨t₁, t₂, isRunning, s₁, -, hRunning, hKill⟩ := Prog.exec_bind.mp h
    by_cases hExe : gameExe setup game_id = ""
    · -- a game without executable never counts as running
      rw [gameIsAreadlyRunning, if_neg (by simpa using hExe)] at hRunning
      obtain ⟨-, rfl, rfl⟩ := Prog.exec_pure.mp hRunning
      obtain ⟨-, -, rfl⟩ := Prog.exec_pure.mp hKill
      rw [if_neg fun hAll => hAll.2.2 hExe]
      exact ⟨rfl, killed_nil _ _⟩
    · obtain ⟨rfl, hSame⟩ := exec_gameIsAreadlyRunning hRunning hExe
      rw [if_pos ⟨hId.1, hId.2, hExe⟩]
      -- the game of the group is looked for, and killed if it is found
      by_cases hFound : 0 < isProcessRunning setup.codePage (gameExe setup game_id) s.processes
      · rw [Prog.onlyIf_pos (by simpa using hFound)] at hKill
        obtain ⟨hFinal, hNone⟩ := exec_killAreadlyRunningGame hKill hExe
        refine ⟨by rw [hFinal, hSame], killed_of_kill ?_ ?_ hNone⟩
        · rw [hFinal, hSame]
        · exact isProcessRunning_pos_iff.mp hFound
      · rw [Prog.onlyIf_neg (by simpa using hFound)] at hKill
        obtain ⟨-, -, rfl⟩ := Prog.exec_pure.mp hKill
        have hZero := isProcessRunning_eq_zero_iff.mp (Nat.eq_zero_of_not_pos hFound)
        rw [hSame]
        exact ⟨rfl, killed_of_none hZero⟩
  · rw [Prog.onlyIf_neg hId] at h
    obtain ⟨-, -, rfl⟩ := Prog.exec_pure.mp h
    rw [if_neg fun hAll => hId ⟨hAll.1, hAll.2.1⟩]
    exact ⟨rfl, killed_nil _ _⟩

/-- The loop of `ForeachKillExe` ends the processes of all other games, and
changes nothing else but the pid that it looked up last. -/
theorem exec_killOthers {gameId : String} {groups : List String} {u : Unit}
    (h : Prog.Exec (sessionHandler setup.codePage) Quiet (killOthers setup gameId groups)
      s t u s') :
    s' = { s with gamePid := s'.gamePid, processes := s'.processes } ∧
      Killed setup.codePage (otherExes setup gameId groups) s.processes s'.processes := by
  induction groups generalizing s t with
  | nil =>
    obtain ⟨-, -, rfl⟩ := Prog.exec_pure.mp h
    exact ⟨rfl, killed_nil _ _⟩
  | cons group groups ih =>
    obtain ⟨t₁, t₂, _, s₁, -, hGroup, hRest⟩ := Prog.exec_bind.mp h
    obtain ⟨hFirst, hKilled⟩ := exec_killOther hGroup
    obtain ⟨hLater, hKilled'⟩ := ih hRest
    refine ⟨by rw [hLater, hFirst], ?_⟩
    have hBoth := hKilled.append hKilled'
    rw [otherExes]
    split
    · next hOther =>
      rw [if_pos hOther] at hBoth
      exact hBoth
    · next hOther =>
      rw [if_neg hOther] at hBoth
      exact hBoth

/-- What the handler does before its parameter check. -/
theorem exec_beforeCheck {gameId : String} {sRead : Session}
    (h : Prog.Exec (sessionHandler setup.codePage) Quiet (beforeCheck setup gameId) s t sRead s') :
    s' = { s with
      gameId := gameId
      pushStreamerParams := .cleared
      startGameParams := .cleared
      gamePid := s'.gamePid
      processes :=
        withoutSeen setup.codePage (gstLaunchName :: otherExes setup gameId (configGroups setup))
          s.processes } := by
  obtain ⟨t₁, tRest, _, s₁, -, hClear, h₁⟩ := Prog.exec_bind.mp h
  obtain ⟨t₂, tRest, _, s₂, -, hGasp, h₂⟩ := Prog.exec_bind.mp h₁
  obtain ⟨t₃, tRest, _, s₃, -, hKill, h₃⟩ := Prog.exec_bind.mp h₂
  obtain ⟨t₄, tRest, _, s₄, -, hSet, hGet⟩ := Prog.exec_bind.mp h₃
  obtain ⟨e₁, hExec₁⟩ := exec_act_quiet hClear
  obtain ⟨e₂, hExec₂⟩ := exec_act_quiet hGasp
  obtain ⟨e₄, hExec₄⟩ := exec_act_quiet hSet
  obtain ⟨e₅, hExec₅⟩ := exec_act_quiet hGet
  obtain ⟨hOthers, hKilled⟩ := exec_killOthers hKill
  have hLeft := hKilled.left
  obtain ⟨-, rfl⟩ := Prod.mk.inj hExec₁
  obtain ⟨-, rfl⟩ := Prod.mk.inj hExec₂
  obtain ⟨-, rfl⟩ := Prod.mk.inj hExec₄
  obtain ⟨-, rfl⟩ := Prod.mk.inj hExec₅
  -- the code page keeps the name of the streamer
  have hGst : setup.codePage.ws2s gstLaunchName = gstLaunchName :=
    setup.codePage.ws2s_eq (by decide +kernel)
  have hFirst : withoutProcess gstLaunchName s.processes =
      withoutSeen setup.codePage [gstLaunchName] s.processes := withoutProcess_eq hGst
  rw [hOthers, hLeft]
  dsimp only
  rw [hFirst, withoutSeen_append]
  rfl

/-- An answer changes nothing. -/
theorem exec_messageFeedBack_quiet {resultMsg : String} {u : Unit}
    (h : Prog.Exec (sessionHandler setup.codePage) Quiet
      (messageFeedBack "StartGame" "-2" resultMsg) s t u s') : s' = s := by
  rw [messageFeedBack, Prog.onlyIf_pos (by decide)] at h
  obtain ⟨t₁, t₂, _, s₁, -, hGet, hSend⟩ := Prog.exec_bind.mp h
  obtain ⟨e₁, hExec₁⟩ := exec_act_quiet hGet
  obtain ⟨e₂, hExec₂⟩ := exec_act_quiet hSend
  obtain ⟨-, rfl⟩ := Prod.mk.inj hExec₁
  obtain ⟨-, rfl⟩ := Prod.mk.inj hExec₂
  rfl

/-- An answer is sent by the parameter check, and by nothing else. -/
theorem answered_inversion {A : Env → Prop} {data : String} {model : StartGameModel}
    {r : Except JsonFailure Unit} {ms : List (String × Value)}
    (hParse : setup.parse data = some (.obj ms))
    (h : Prog.Exec (sessionHandler setup.codePage) A (startGameCallback setup data model) s t r s')
    (hAnswered : t.any isAnswer = true) :
    ∃ (sRead s₁ : Session) (t₁ t₂ : List (Event sessionSig)),
      Prog.Exec (sessionHandler setup.codePage) A (beforeCheck setup (memberText ms "gameId"))
        s t₁ sRead s₁ ∧
      Prog.Exec (sessionHandler setup.codePage) A
        (messageFeedBack "StartGame" "-2" "StartGameCallback json param format failure!")
        s₁ t₂ () s' := by
  rcases startGameCallback_inversion hParse h with ⟨-, -, hKinds⟩ |
    ⟨-, -, f, deviceNo, sRead, s₁, t₁, t₂, rfl, -, hBefore, hAccept⟩
  · rw [any_eq_false_of_kinds hKinds kind_of_isAnswer (by decide)] at hAnswered
    cases hAnswered
  · have hKinds := (uses_beforeCheck setup (memberText ms "gameId")).kinds hBefore.path
    rw [List.any_append, any_eq_false_of_kinds hKinds kind_of_isAnswer (by decide),
      Bool.false_or] at hAnswered
    rw [acceptOrAnswer] at hAccept
    split at hAccept
    · exact ⟨sRead, s₁, t₁, t₂, hBefore, hAccept⟩
    · -- what passes the check is not answered
      have hCarried := (uses_carryOut setup _ data f model).kinds hAccept.path
      rw [any_eq_false_of_kinds hCarried kind_of_isAnswer (by decide)] at hAnswered
      cases hAnswered

/-- The two states differ in nothing but the pid of the last look into the list
of processes. -/
def Unchanged (s s' : Session) : Prop := s' = { s with gamePid := s'.gamePid }

end

/-! ## A payload without server address -/

-- no game is running, and the session is at the first
def idleAtOne : Session := { sampleSession with gameId := "g1" }

-- the second game is running
def otherRuns : Session :=
  { sampleSession with gameId := "g2", processes := [twoProcess] }

theorem parse_rejectedData :
    sampleSetup.parse (sampleData "" false) = some (.obj (sampleMembers "" false)) := by
  have hFind : (samplePayloads.find? fun p => p.1 = sampleData "" false) =
      some (sampleData "" false, .obj (sampleMembers "" false)) :=
    (List.find?_cons_of_neg (by decide +kernel)).trans
      ((List.find?_cons_of_neg (by decide +kernel)).trans
        (List.find?_cons_of_pos (decide_eq_true rfl)))
  rw [sampleSetup_parse, hFind, Option.map_some]

/-- An execution in which the payload is rejected. -/
theorem exec_rejectedData {s : Session} {n : ℕ}
    (h : (Prog.eval (sessionHandler sampleSetup.codePage) (List.replicate n quietEnv)
      (startGameCallback sampleSetup (sampleData "" false) .normalModel) s).map
        (fun x => x.1.any isAnswer) = some true) :
    ∃ t r s', Prog.Exec (sessionHandler sampleSetup.codePage) Quiet
      (startGameCallback sampleSetup (sampleData "" false) .normalModel) s t r s' ∧
        t.any isAnswer = true := by
  obtain ⟨⟨t, r, s'⟩, hEval, hAnswered⟩ := Option.map_eq_some_iff.mp h
  have hQuiet : ∀ e ∈ List.replicate n quietEnv, Quiet e := by
    intro e he
    rw [List.eq_of_mem_replicate he]
    rfl
  exact ⟨t, r, s', Prog.exec_of_eval hQuiet hEval, hAnswered⟩

end PushStreamer
