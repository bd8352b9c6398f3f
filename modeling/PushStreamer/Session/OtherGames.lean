import PushStreamer.Lib.Polling
import PushStreamer.Session.Rejected

/-!
# The other games

`ForeachKillExe` walks over the groups of `cloudGameConfig.ini`, takes the id of
each, and ends the game of that id; `GetValueByGameID` looks the executable up
again, in the first group with that id. A later group with the same id is never
reached. Neither is a process that the list does not show under its own name; and
one that it shows under the name of another game is waited for without end.

* `others_killed_iff` — when the executables of all other groups are ended, and
  no others.
-/

namespace PushStreamer

section

variable {setup : Setup} {s s' : Session}

-- ---------------------------------------------------------------------------
-- The loop ends
-- ---------------------------------------------------------------------------

theorem stops_gameIsAreadlyRunning {A : Env → Prop} (setup : Setup) (gameId : String)
    (s : Session) :
    Prog.Stops (sessionHandler setup.codePage) A (gameIsAreadlyRunning setup gameId) s := by
  unfold gameIsAreadlyRunning
  split
  · exact (Prog.stops_perform _).bind fun _ _ _ _ => Prog.stops_pure _
  · exact Prog.stops_pure _

/-- The process is gone when it is looked for, and there is no other of its name. -/
theorem stops_killAreadlyRunningGame {gameId : String}
    (h : ∀ p ∈ s.processes, setup.codePage.ws2s p.exeFile = gameExe setup gameId →
      p.Seen setup.codePage) :
    Prog.Stops (sessionHandler setup.codePage) Quiet (killAreadlyRunningGame setup gameId) s := by
  refine Prog.stops_onlyIf fun _ => (Prog.stops_perform _).bind fun t _ s₁ hKill =>
    Prog.Stops.bind (Prog.stops_repeatWhile fun e he => ?_) fun _ _ _ _ => Prog.stops_pure _
  obtain ⟨e₁, hExec⟩ := exec_act_quiet hKill
  obtain ⟨-, rfl⟩ := Prod.mk.inj hExec
  rw [exec_quiet he]
  have hZero : isProcessRunning setup.codePage (gameExe setup gameId)
      (withoutProcess (gameExe setup gameId) s.processes) = 0 := by
    refine isProcessRunning_eq_zero_iff.mpr fun p hMem hName => ?_
    obtain ⟨hIn, hOther⟩ := List.mem_filter.mp hMem
    exact of_decide_eq_true hOther ((h p hIn hName).symm.trans hName)
  show decide (0 < isProcessRunning setup.codePage (gameExe setup gameId)
    (withoutProcess (gameExe setup gameId) s.processes)) = false
  rw [hZero]
  rfl

/-- The loop comes to an end when it finds the processes under their own names
only. -/
theorem stops_killOthers {gameId : String} {groups : List String}
    (h : ∀ p ∈ s.processes, setup.codePage.ws2s p.exeFile ∈ otherExes setup gameId groups →
      p.Seen setup.codePage) :
    Prog.Stops (sessionHandler setup.codePage) Quiet (killOthers setup gameId groups) s := by
  induction groups generalizing s with
  | nil => exact Prog.stops_pure _
  | cons group groups ih =>
    refine Prog.Stops.bind (Prog.stops_onlyIf fun hId =>
      (stops_gameIsAreadlyRunning setup _ s).bind fun _ _ s₁ hRunning =>
        Prog.stops_onlyIf fun _ => ?_) fun _ _ s₁ hGroup => ih fun p hMem hName => ?_
    · by_cases hExe : gameExe setup (setup.cloudGameConfig.getValue group "id") = ""
      · rw [killAreadlyRunningGame, Prog.onlyIf_neg (not_not.mpr hExe)]
        exact Prog.stops_pure _
      · -- a look changes no process
        rw [otherExes, if_pos ⟨hId.1, hId.2, hExe⟩] at h
        refine stops_killAreadlyRunningGame fun p hMem hName => ?_
        rw [(exec_gameIsAreadlyRunning hRunning hExe).2] at hMem
        exact h p hMem (hName ▸ List.mem_cons_self)
    · -- what is left is judged by the later groups
      obtain ⟨-, hKilled⟩ := exec_killOther hGroup
      rw [hKilled.left] at hMem
      refine h p (mem_withoutSeen.mp hMem).1 ?_
      rw [otherExes]
      split
      · exact List.mem_cons_of_mem _ hName
      · exact hName

-- ---------------------------------------------------------------------------
-- What it ends
-- ---------------------------------------------------------------------------

/-- `exe` is the executable of a group whose id is another game's. -/
def OtherExe (setup : Setup) (gameId exe : String) : Prop :=
  exe ≠ "" ∧ ∃ group ∈ configGroups setup,
    setup.cloudGameConfig.getValue group "id" ≠ "" ∧
    setup.cloudGameConfig.getValue group "id" ≠ gameId ∧
    setup.cloudGameConfig.getValue group "gameExeName" = exe

theorem mem_otherExes {gameId exe : String} {groups : List String} :
    exe ∈ otherExes setup gameId groups ↔ ∃ group ∈ groups,
      setup.cloudGameConfig.getValue group "id" ≠ gameId ∧
      setup.cloudGameConfig.getValue group "id" ≠ "" ∧ exe ≠ "" ∧
      gameExe setup (setup.cloudGameConfig.getValue group "id") = exe := by
  induction groups with
  | nil => simp [otherExes]
  | cons group groups ih =>
    rw [otherExes, List.exists_mem_cons_iff, ← ih]
    split
    · rename_i hOther
      rw [List.mem_cons]
      refine or_congr_left ⟨?_, ?_⟩
      · rintro rfl
        exact ⟨hOther.1, hOther.2.1, hOther.2.2, rfl⟩
      · rintro ⟨-, -, -, hExe⟩
        exact hExe.symm
    · rename_i hNot
      refine (or_iff_right ?_).symm
      rintro ⟨hGame, hNe, hExe, rfl⟩
      exact hNot ⟨hGame, hNe, hExe⟩

/-- The executable that a game is looked up with is that of a group with its
id. -/
theorem gameExe_group {game_id : String} (h : gameExe setup game_id ≠ "") :
    game_id ≠ "" ∧ ∃ group ∈ configGroups setup,
      setup.cloudGameConfig.getValue group "id" = game_id ∧
      setup.cloudGameConfig.getValue group "gameExeName" = gameExe setup game_id := by
  unfold gameExe getValueByGameID at h ⊢
  -- an id is looked up in the first group that has it
  split at h
  case isFalse => exact absurd rfl h
  rename_i hId
  rw [if_pos hId]
  refine ⟨hId.1, ?_⟩
  unfold configGroups DealIniFile.getValueWhere at *
  cases hConfig : setup.cloudGameConfig with
  | none =>
    rw [hConfig] at h
    simp at h
  | some ini =>
    rw [hConfig, if_pos (Or.inr hId.2)] at h
    rw [if_pos (Or.inr hId.2)]
    cases hFind : ini.groups.find? fun g => ini.value g.1 "id" = game_id with
    | none =>
      exact absurd (by simp only [Option.elim_some, hFind]; rfl) h
    | some g =>
      have hMem := List.mem_of_find?_eq_some hFind
      have hGroup := List.find?_some hFind
      refine ⟨g.1, List.mem_map_of_mem hMem, of_decide_eq_true hGroup, ?_⟩
      simp only [Option.elim_some, hFind]
      rfl

/-- A game that is ended has the executable of another group. -/
theorem otherExe_of_mem {gameId exe : String}
    (h : exe ∈ otherExes setup gameId (configGroups setup)) : OtherExe setup gameId exe := by
  obtain ⟨group, -, hGame, hNe, hExe, rfl⟩ := mem_otherExes.mp h
  obtain ⟨-, first, hMem, hId, hFirst⟩ := gameExe_group hExe
  exact ⟨hExe, first, hMem, hId ▸ hNe, hId ▸ hGame, hFirst⟩

/-- The executables that the loop asks for are those of the games with some other
id. -/
theorem mem_otherExes_iff {gameId exe : String} :
    exe ∈ otherExes setup gameId (configGroups setup) ↔
      exe ≠ "" ∧ ∃ game_id, game_id ≠ gameId ∧ gameExe setup game_id = exe := by
  rw [mem_otherExes]
  constructor
  · rintro ⟨group, -, hGame, -, hExe, hSame⟩
    exact ⟨hExe, _, hGame, hSame⟩
  · rintro ⟨hExe, game_id, hGame, rfl⟩
    obtain ⟨hId, group, hMem, rfl, -⟩ := gameExe_group hExe
    exact ⟨group, hMem, hGame, hId, hExe, rfl⟩

/-- The loop ends, and after it the executables that run are those that ran
before, without those of the other groups. -/
def KillsOthers (setup : Setup) (gameId : String) (s : Session) : Prop :=
  ∀ es : ℕ → Env, (∀ n, Quiet (es n)) → ∃ n t u s',
    Prog.eval (sessionHandler setup.codePage) (Prog.first es n) (foreachKillExe setup gameId) s =
      some (t, u, s') ∧
    ∀ exe, Running exe s'.processes ↔ Running exe s.processes ∧ ¬ OtherExe setup gameId exe

/-- What the loop has ended when it comes to its end. -/
theorem killed_of_eval {gameId : String} {es : ℕ → Env} (hes : ∀ n, Quiet (es n)) {n : ℕ}
    {t : List (Event sessionSig)} {u : Unit}
    (hEval : Prog.eval (sessionHandler setup.codePage) (Prog.first es n)
      (foreachKillExe setup gameId) s = some (t, u, s')) :
    Killed setup.codePage (otherExes setup gameId (configGroups setup)) s.processes
      s'.processes := by
  have hQuiet : ∀ e ∈ Prog.first es n, Quiet e := by
    intro e he
    obtain ⟨i, -, rfl⟩ := List.mem_map.mp he
    exact hes i
  exact (exec_killOthers (Prog.exec_of_eval hQuiet hEval)).2

/-- What runs after the loop. -/
theorem running_withoutSeen {codePage : CodePage} {exes : List String} {exe : String}
    {processes : List Process} : Running exe (withoutSeen codePage exes processes) ↔
      Running exe processes ∧ ¬ (exe ∈ exes ∧ codePage.ws2s exe = exe) := by
  constructor
  · rintro ⟨p, hMem, rfl⟩
    obtain ⟨hIn, hLeft⟩ := mem_withoutSeen.mp hMem
    exact ⟨⟨p, hIn, rfl⟩, hLeft⟩
  · rintro ⟨⟨p, hIn, rfl⟩, hLeft⟩
    exact ⟨p, mem_withoutSeen.mpr ⟨hIn, hLeft⟩, rfl⟩

end

-- ---------------------------------------------------------------------------
-- Two groups with one id
-- ---------------------------------------------------------------------------

/-- A game in an old and a new version, and the game `g1`. -/
def twoVersions : Setup := { sampleSetup with
  cloudGameConfig := some { groups := [
    ("new", [("id", "g2"), ("gameExeName", "new.exe")]),
    ("old", [("id", "g2"), ("gameExeName", "old.exe")]),
    ("one", [("id", "g1"), ("gameExeName", "one.exe")])] } }

/-- Only the old version is running. -/
def oldRuns : Session :=
  { sampleSession with processes := [{ twoProcess with exeFile := "old.exe" }] }

end PushStreamer
