import PushStreamer.Session.CanFinish
import PushStreamer.Session.Replay

/-!
# The pid that the keyboard gate is given

`m_gamePid` is written by every look into the list of processes that a StartGame
takes: one for each other game in `ForeachKillExe`, one before the start, and
those of the wait loop. `StartKeyboardAction` hands it to the keyboard thread.

* `pid_of_startGameAction` — `StartGameAction` leaves the pid that the last look
  of its wait loop has found, and nothing after it writes the pid again.
* `keyBoard_given_game_pid` — so the keyboard thread is given a pid that the
  executable of the payload's game had during this run.
-/

namespace PushStreamer

-- ---------------------------------------------------------------------------
-- Who writes the pid
-- ---------------------------------------------------------------------------

/-- The step looks for a process and keeps its pid in `m_gamePid`. -/
def SessionOp.IsPidQuery : SessionOp → Prop
  | .queryGamePid _ => True
  | _ => False

/-- The step creates a keyboard thread. -/
def SessionOp.IsKeyBoardStart : SessionOp → Prop
  | .startKeyBoardThread _ => True
  | _ => False

section

variable {setup : Setup} {A : Env → Prop} {s s' : Session} {t : List (Event sessionSig)}

theorem exec_gamePid {codePage : CodePage} (e : Env) (s : Session) (o : SessionOp)
    (ho : ¬ o.IsPidQuery) : ((sessionHandler codePage).exec e s o).2.gamePid = s.gamePid := by
  cases o with
  | queryGamePid exe => exact absurd trivial ho
  | _ => rfl

/-- A program that looks for no process keeps the pid. -/
theorem Uses.keeps_gamePid {α : Type} {ks : List Kind} {p : SProg α} (hUses : Uses ks p)
    (hNot : Kind.query ∉ ks) {codePage : CodePage} {a : α}
    (h : Prog.Exec (sessionHandler codePage) A p s t a s') : s'.gamePid = s.gamePid := by
  refine h.keeps (K := SessionOp.IsPidQuery) exec_gamePid (hUses.avoids fun o ho hQuery => ?_)
  cases o with
  | queryGamePid exe => exact hNot ho
  | _ => exact hQuery

theorem Uses.avoids_keyBoardStart {α : Type} {ks : List Kind} {p : SProg α} (hUses : Uses ks p)
    (hNot : Kind.keyboard ∉ ks) : Prog.Avoids (S := sessionSig) SessionOp.IsKeyBoardStart p := by
  refine hUses.avoids fun o ho hStart => ?_
  cases o with
  | startKeyBoardThread args => exact hNot ho
  | _ => exact hStart

theorem exec_keyBoardThread {codePage : CodePage} (e : Env) (s : Session) (o : SessionOp)
    (ho : ¬ o.kind = .keyboard) :
    ((sessionHandler codePage).exec e s o).2.keyBoardThread = s.keyBoardThread := by
  cases o with
  | stopKeyBoardThread => exact absurd rfl ho
  | startKeyBoardThread args => exact absurd rfl ho
  | setKeyBoardGamePid => exact absurd rfl ho
  | _ => rfl

/-- The pid of the session is one that was found for `exe`. -/
def FoundPid (exe : String) (t : List (Event sessionSig)) (s : Session) : Prop :=
  0 < s.gamePid ∧ (⟨.queryGamePid exe, s.gamePid⟩ : Event sessionSig) ∈ t

/-- It stays so while the pid is kept. -/
theorem FoundPid.later {exe : String} (h : FoundPid exe t s) (hPid : s'.gamePid = s.gamePid)
    {u v : List (Event sessionSig)} : FoundPid exe (u ++ (t ++ v)) s' := by
  unfold FoundPid
  rw [hPid]
  exact ⟨h.1, List.mem_append_right _ (List.mem_append_left _ h.2)⟩

-- ---------------------------------------------------------------------------
-- The wait for the game
-- ---------------------------------------------------------------------------

/-- The wait loop ends with a look that finds the game. -/
theorem pid_of_waitForGame {gameId : String} {u : Unit}
    (h : Prog.Exec (sessionHandler setup.codePage) A (waitForGame setup gameId) s t u s') :
    FoundPid (gameExe setup gameId) t s' := by
  by_cases hExe : gameExe setup gameId ≠ ""
  · have hWait : waitForGame setup gameId = _ := if_pos hExe
    rw [hWait] at h
    obtain ⟨t₁, t₂, pid, s₁, rfl, hPoll, hRest⟩ := Prog.exec_bind.mp h
    obtain ⟨rfl, -, rfl⟩ := Prog.exec_pure.mp hRest
    obtain ⟨hFound, hMem, e, s₂, -, hLast⟩ := Prog.exec_repeatWhile_last hPoll
    obtain ⟨rfl, rfl⟩ := Prod.mk.inj hLast
    refine ⟨Nat.pos_of_ne_zero (of_decide_eq_false hFound), ?_⟩
    rw [List.append_nil]
    exact hMem
  · exact absurd h.path (not_path_waitForGame (not_not.mp hExe))

/-- **The last write.** The launch may look for the game too, but the wait comes
after it, and the record keeps the pid. -/
theorem pid_of_startGameAction {gameId startGameParams data : String} {force : Int} {u : Unit}
    (h : Prog.Exec (sessionHandler setup.codePage) A
      (startGameAction setup gameId startGameParams data force) s t u s') :
    FoundPid (gameExe setup gameId) t s' := by
  obtain ⟨t₁, tRest, _, s₁, rfl, -, hRest⟩ := Prog.exec_bind.mp h
  obtain ⟨t₂, t₃, _, s₂, rfl, hWait, hRecord⟩ := Prog.exec_bind.mp hRest
  have hPid : s'.gamePid = s₂.gamePid :=
    (uses_recordInfo data gameId 1).keeps_gamePid (by simp) hRecord
  exact (pid_of_waitForGame hWait).later hPid

-- ---------------------------------------------------------------------------
-- The keyboard thread
-- ---------------------------------------------------------------------------

/-- `StartKeyboardAction` gives its thread the pid of the session, and leaves the
thread alone afterwards. -/
theorem begins_startKeyboardAction {gameId controlUrl keyboardLoginParams : String}
    {args : KeyBoardStart} {ret : Bool} {t' : List (Event sessionSig)}
    (h : Prog.Begins (sessionHandler setup.codePage) A
      (startKeyboardAction setup gameId controlUrl keyboardLoginParams) s
      (t ++ ⟨.startKeyBoardThread args, ret⟩ :: t') s') :
    s'.keyBoardThread = some ⟨s.gamePid, ret⟩ := by
  have hStop : Prog.Avoids (S := sessionSig) SessionOp.IsKeyBoardStart (act .stopKeyBoardThread) :=
    Prog.all_perform.mpr id
  have hGet : Prog.Avoids (S := sessionSig) SessionOp.IsKeyBoardStart (act .get) :=
    Prog.all_perform.mpr id
  obtain ⟨t₁, u₁, _, s₁, rfl, h₁, hRest₁⟩ := Prog.begins_past h hStop trivial
  obtain ⟨t₂, u₂, sRead, s₂, rfl, h₂, hRest₂⟩ := Prog.begins_past hRest₁ hGet trivial
  have hPid₁ : s₁.gamePid = s.gamePid :=
    h₁.keeps (K := SessionOp.IsPidQuery) exec_gamePid (Prog.all_perform.mpr id)
  have hPid₂ : s₂.gamePid = s₁.gamePid :=
    h₂.keeps (K := SessionOp.IsPidQuery) exec_gamePid (Prog.all_perform.mpr id)
  have hProtect : Prog.Avoids (S := sessionSig) SessionOp.IsKeyBoardStart
      (act .startProtectGstLaunch) := Prog.all_perform.mpr id
  cases u₂ with
  | nil =>
    obtain ⟨e, -, hEvent, hLast⟩ := Prog.begins_then hRest₂
    have hRet : ret = _ := congrArg isKeyboardStarted hEvent
    have hKept : s'.keyBoardThread = _ := hLast.keeps (π := Session.keyBoardThread)
      exec_keyBoardThread (Prog.all_perform.mpr (by simp))
    rw [hKept, hRet, ← hPid₁, ← hPid₂]
    rfl
  | cons ev u₂ =>
    -- a second thread would have to be started
    obtain ⟨e, -, -, hLast⟩ := Prog.begins_then hRest₂
    exact absurd trivial (hLast.avoids hProtect ⟨.startKeyBoardThread args, ret⟩ (by simp))

-- ---------------------------------------------------------------------------
-- The whole handler
-- ---------------------------------------------------------------------------

/-- The keyboard thread has a positive pid that was found for `exe`. -/
def GivenFoundPid (exe : String) (t : List (Event sessionSig)) (ret : Bool) (s : Session) : Prop :=
  ∃ pid : Nat, 0 < pid ∧ (⟨.queryGamePid exe, pid⟩ : Event sessionSig) ∈ t ∧
    s.keyBoardThread = some ⟨pid, ret⟩

/-- What was found later was found. -/
theorem GivenFoundPid.append_left {exe : String} {ret : Bool} (h : GivenFoundPid exe t ret s)
    (u : List (Event sessionSig)) : GivenFoundPid exe (u ++ t) ret s := by
  obtain ⟨pid, hPos, hMem, hGiven⟩ := h
  exact ⟨pid, hPos, List.mem_append_right _ hMem, hGiven⟩

/-- From the parameter check on. -/
theorem begins_acceptOrAnswer {gameId data : String} {f : StartGameFields}
    {args : KeyBoardStart} {ret : Bool} {t' : List (Event sessionSig)}
    (h : Prog.Begins (sessionHandler setup.codePage) A
      (acceptOrAnswer setup gameId data f .normalModel) s
      (t ++ ⟨.startKeyBoardThread args, ret⟩ :: t') s') :
    GivenFoundPid (gameExe setup gameId) t ret s' := by
  rw [acceptOrAnswer] at h
  split at h
  · -- an answer starts no keyboard thread
    have hAvoids := (uses_messageFeedBack "StartGame" "-2"
      "StartGameCallback json param format failure!").avoids_keyBoardStart (by simp)
    exact absurd trivial (h.avoids hAvoids ⟨.startKeyBoardThread args, ret⟩ (by simp))
  · have hStart := (uses_startGameAction setup gameId f.startGameParams data
      f.force).avoids_keyBoardStart (by simp)
    have hPush := (uses_pushStreamerAction setup (pushParams f)).avoids_keyBoardStart (by simp)
    obtain ⟨t₁, u₁, _, s₁, rfl, h₁, hRest⟩ := Prog.begins_past h hStart trivial
    obtain ⟨t₂, u₂, _, s₂, rfl, h₂, hKey⟩ := Prog.begins_past hRest hPush trivial
    rw [Prog.onlyIf_pos rfl] at hKey
    obtain ⟨hPos, hMem⟩ := pid_of_startGameAction h₁
    have hPid : s₂.gamePid = s₁.gamePid :=
      (uses_pushStreamerAction setup (pushParams f)).keeps_gamePid (by simp) h₂
    refine ⟨s₁.gamePid, hPos, List.mem_append_left _ hMem, ?_⟩
    rw [← hPid]
    exact begins_startKeyboardAction hKey

/-- **The pid of the game.** Whatever the list of processes does, when a
StartGame starts its keyboard thread, the thread is given a positive pid that a
look for the executable of the payload's game has returned during this run. -/
theorem keyBoard_given_game_pid {data : String} {args : KeyBoardStart} {ret : Bool}
    {t' : List (Event sessionSig)}
    (h : Prog.Begins (sessionHandler setup.codePage) A
      (startGameCallback setup data .normalModel) s
      (t ++ ⟨.startKeyBoardThread args, ret⟩ :: t') s') :
    ∃ ms, setup.parse data = some (.obj ms) ∧
      GivenFoundPid (gameExe setup (memberText ms "gameId")) t ret s' := by
  -- no keyboard thread is started before the payload is carried out
  have hClear : Prog.Avoids (S := sessionSig) SessionOp.IsKeyBoardStart
      (act .clearFunctionParams) := Prog.all_perform.mpr id
  have hGasp : Prog.Avoids (S := sessionSig) SessionOp.IsKeyBoardStart
      (act .lastGaspGoalPushStreamer) := Prog.all_perform.mpr id
  obtain ⟨t₁, u₁, _, s₁, rfl, -, h₁⟩ := Prog.begins_past h hClear trivial
  obtain ⟨t₂, u₂, _, s₂, rfl, -, h₂⟩ := Prog.begins_past h₁ hGasp trivial
  split at h₂
  · exact absurd (Prog.begins_pure h₂).1 (by simp)
  cases hParse : setup.parse data with
  | none =>
    rw [hParse] at h₂
    exact absurd (Prog.begins_pure h₂).1 (by simp)
  | some root =>
    rw [hParse] at h₂
    change Prog.Begins _ A (startGame setup data root .normalModel) s₂ _ s' at h₂
    unfold startGame at h₂
    cases hText : readText root "gameId" with
    | error failure =>
      rw [hText] at h₂
      exact absurd (Prog.begins_pure h₂).1 (by simp)
    | ok gameId =>
      obtain ⟨ms, rfl, rfl⟩ := object_of_readText hText
      rw [hText] at h₂
      have hKill := (uses_killOthers setup (memberText ms "gameId")
        (configGroups setup)).avoids_keyBoardStart (by simp)
      have hSet : Prog.Avoids (S := sessionSig) SessionOp.IsKeyBoardStart
          (act (.setGameId (memberText ms "gameId"))) := Prog.all_perform.mpr id
      have hGet : Prog.Avoids (S := sessionSig) SessionOp.IsKeyBoardStart (act .get) :=
        Prog.all_perform.mpr id
      obtain ⟨t₃, u₃, _, s₃, rfl, -, h₃⟩ := Prog.begins_past h₂ hKill trivial
      obtain ⟨t₄, u₄, _, s₄, rfl, -, h₄⟩ := Prog.begins_past h₃ hSet trivial
      obtain ⟨t₅, u₅, sRead, s₅, rfl, -, h₅⟩ := Prog.begins_past h₄ hGet trivial
      cases hFields : readStartGame setup (Session.deviceNo sRead) (.obj ms) with
      | error failure =>
        rw [hFields] at h₅
        exact absurd (Prog.begins_pure h₅).1 (by simp)
      | ok f =>
        rw [hFields] at h₅
        have hAccept : Prog.Begins (sessionHandler setup.codePage) A
            (acceptOrAnswer setup (memberText ms "gameId") data f .normalModel) s₅
            (u₅ ++ ⟨.startKeyBoardThread args, ret⟩ :: t') s' := by
          -- what the handler does after `carryOut` is to return
          rcases Prog.begins_bind h₅ with hLeft | ⟨v, w, _, s₆, hSplit, h₆, hPure⟩
          · exact hLeft
          · obtain ⟨rfl, rfl⟩ := Prog.begins_pure hPure
            rw [hSplit, List.append_nil]
            exact h₆.begins
        refine ⟨ms, rfl, ?_⟩
        iterate 5 refine GivenFoundPid.append_left ?_ _
        exact begins_acceptOrAnswer hAccept

end

/-- The second game is found and killed, the first is found as 7, killed by
force and started again as 8. -/
def killedAndRestarted : ℕ → List Process → List Process := fun n _ =>
  if n < 3 then [twoProcess, oneProcess]
  else if n < 11 then [oneProcess]
  else if n < 13 then []
  else [{ oneProcess with pid := 8, pos := by decide }]

/-- Of the pids 9, 7 and 8 the keyboard thread is given the last. -/
theorem keyBoard_given_pid_of_restart : ∃ t args ret t' s',
    Prog.Begins (sessionHandler sampleSetup.codePage)
      (fun e => e.closepush = true ∧ e.push = true)
      (startGameCallback sampleSetup (sampleData "s" true) .normalModel) sampleSession
      (t ++ ⟨.startKeyBoardThread args, ret⟩ :: t') s' ∧
    s'.keyBoardThread = some ⟨8, true⟩ ∧
    ∃ ms, sampleSetup.parse (sampleData "s" true) = some (.obj ms) ∧
      GivenFoundPid (gameExe sampleSetup (memberText ms "gameId")) t ret s' := by
  have hEval : (Prog.eval (sessionHandler sampleSetup.codePage)
      (Prog.first (envs killedAndRestarted true true) 25)
      (startGameCallback sampleSetup (sampleData "s" true) .normalModel) sampleSession).map
        (fun x => (x.1.any isKeyboardStarted, x.2.2.keyBoardThread)) =
      some (true, some ⟨8, true⟩) := by
    decide +kernel
  obtain ⟨⟨tAll, r, s'⟩, hSome, hPair⟩ := Option.map_eq_some_iff.mp hEval
  obtain ⟨hAny, hThread⟩ := Prod.mk.inj hPair
  obtain ⟨ev, hMem, hStarted⟩ := List.any_eq_true.mp hAny
  obtain ⟨t, t', rfl⟩ := List.append_of_mem hMem
  obtain ⟨op, ret⟩ := ev
  cases op with
  | startKeyBoardThread args =>
    have hBegins := (Prog.exec_of_eval (A := fun e => e.closepush = true ∧ e.push = true)
      (fun _ => envs_of_mem_first) hSome).begins
    exact ⟨t, args, ret, t', s', hBegins, hThread, keyBoard_given_game_pid hBegins⟩
  | _ => cases hStarted

end PushStreamer
