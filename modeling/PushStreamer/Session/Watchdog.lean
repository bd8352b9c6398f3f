import PushStreamer.Session.LastCommand

/-!
# The watchdog of the stream

`ProtectGstLaunch` runs on a detached thread. Its first loop waits until
gst-launch has exited; every pass of its second loop checks the flag and the
recorded status, and pushes the stream again when the game runs and gst-launch
does not. StopGame clears both on another thread, and `StopProtectGstLaunch`
cannot join the detached one.

* `protectPass` — one pass of either loop.
* `pass_calls` — a pass calls the stream only after a status that is not 0.
* `calls_after_stop_iff` — once the status stays 0, only the pass under way pushes.
* `stays_closed_iff` — the stream stays closed after StopGame just when its
  `closepush` does not fall into a pass that goes on to push.
-/

namespace PushStreamer

-- ---------------------------------------------------------------------------
-- `ProtectGstLaunch`
-- ---------------------------------------------------------------------------

/-- Where `ProtectGstLaunch` is between two passes of its loops. -/
inductive ProtectStage where
  | waiting
  | checking
  | ended
deriving DecidableEq

section

variable (setup : Setup)

/-- What a pass of the second loop does once flag and status are checked. -/
def reviveStream : SProg Unit := do
  let s : Session ← act .get
  let gameIsRunning ← gameIsAreadlyRunning setup s.gameId
  Prog.onlyIf gameIsRunning do
    act .setKeyBoardGamePid
    let pid : Nat ← act (.isProcessRunning gstLaunchName)
    Prog.onlyIf (pid = 0 ∧ setup.applicationDirPath ≠ "") do
      let s : Session ← act .get
      Prog.onlyIf (s.pushStreamerParams.serverUrl ≠ "")
        (pushStreamerAction setup s.pushStreamerParams)

/-- One pass of the loop of a stage, and the stage that follows. -/
def protectPass : ProtectStage → SProg ProtectStage
  | .waiting => do
    let pid : Nat ← act (.isProcessRunning gstLaunchName)
    if 0 < pid then
      let flag : Bool ← act .readProtectFlag
      if flag then
        act .sleep
        pure .waiting
      else pure .checking
    else pure .checking
  | .checking => do
    let flag : Bool ← act .readProtectFlag
    if flag then
      let gameStatus : Int ← act .getGameStatus
      if gameStatus = 0 then pure .ended
      else
        reviveStream setup
        act .sleep
        pure .checking
    else pure .ended
  | .ended => pure .ended

/-- At most `n` passes from a stage; the result says whether the loops have
ended. -/
def protectFrom : ℕ → ProtectStage → SProg Bool
  | 0, stage => pure (decide (stage = .ended))
  | n + 1, stage => do
    let stage ← protectPass setup stage
    protectFrom n stage

/-- `ProtectGstLaunch`. -/
def protectGstLaunch (n : ℕ) : SProg Bool := do
  act .raiseProtectFlag
  protectFrom setup n .waiting

end

-- ---------------------------------------------------------------------------
-- What the watchdog does
-- ---------------------------------------------------------------------------

/-- A check of the recorded status. -/
def statusRead : Event sessionSig → Option Int
  | ⟨.getGameStatus, gameStatus⟩ => some gameStatus
  | _ => none

section

variable {setup : Setup} {t : List (Event sessionSig)}

/-- What the watchdog uses: neither the record nor the flags are written by it. -/
theorem uses_reviveStream (setup : Setup) :
    Uses [.query, .params, .stream, .keyboard] (reviveStream setup) := by
  refine uses_bind (uses_act.mpr (by simp)) fun s => uses_bind ?_ fun _ => uses_onlyIf ?_
  · exact (uses_gameIsAreadlyRunning setup _).mono (by simp)
  · refine uses_bind (uses_act.mpr (by simp)) fun _ => uses_bind (uses_act.mpr (by simp)) fun _ =>
      uses_onlyIf (uses_bind (uses_act.mpr (by simp)) fun s => uses_onlyIf ?_)
    exact (uses_pushStreamerAction setup _).mono (by simp)

/-- The steps that the watchdog takes. -/
def watchdogKinds : List Kind := [.query, .params, .stream, .keyboard, .protect]

theorem uses_protectPass (stage : ProtectStage) :
    Uses watchdogKinds (protectPass setup stage) := by
  have hQuery : ∀ o : SessionOp, o.kind = .query → Uses watchdogKinds (act o) := fun o ho =>
    uses_act.mpr (by rw [ho]; decide)
  cases stage with
  | waiting =>
    refine uses_bind (hQuery _ rfl) fun _ => uses_ite (uses_bind (hQuery _ rfl) fun _ =>
      uses_ite (uses_bind (hQuery _ rfl) fun _ => uses_pure _) (uses_pure _)) (uses_pure _)
  | checking =>
    refine uses_bind (hQuery _ rfl) fun _ => uses_ite (uses_bind (hQuery _ rfl) fun _ =>
      uses_ite (uses_pure _) (uses_bind ?_ fun _ => uses_bind (hQuery _ rfl) fun _ =>
        uses_pure _)) (uses_pure _)
    exact (uses_reviveStream setup).mono (by decide)
  | ended => exact uses_pure _

theorem uses_protectFrom (n : ℕ) (stage : ProtectStage) :
    Uses watchdogKinds (protectFrom setup n stage) := by
  induction n generalizing stage with
  | zero => exact uses_pure _
  | succ n ih => exact uses_bind (uses_protectPass stage) fun stage => ih stage

theorem uses_protectGstLaunch (n : ℕ) : Uses watchdogKinds (protectGstLaunch setup n) :=
  uses_bind (uses_act.mpr (by decide)) fun _ => uses_protectFrom n .waiting

/-- A step that is not repeated and checks neither flag nor status. -/
def NoCheck (o : sessionSig.Op) (again : sessionSig.Res o → Bool) : Prop :=
  (∀ r, again r = false) ∧ o ≠ SessionOp.getGameStatus ∧ o ≠ SessionOp.readProtectFlag

/-- A pass checks nothing again once it looks for the processes. -/
theorem all_reviveStream : Prog.All NoCheck (reviveStream setup) := by
  have hAct : ∀ o : SessionOp, o ≠ .getGameStatus → o ≠ .readProtectFlag →
      Prog.All NoCheck (act o) := fun o hStatus hFlag =>
    Prog.all_perform.mpr ⟨fun _ => rfl, hStatus, hFlag⟩
  have hGame : ∀ gameId, Prog.All NoCheck (gameIsAreadlyRunning setup gameId) := by
    intro gameId
    unfold gameIsAreadlyRunning
    split
    · exact Prog.all_bind (hAct _ (by simp) (by simp)) fun _ => Prog.all_pure _
    · exact Prog.all_pure _
  have hPush : ∀ params, Prog.All NoCheck (pushStreamerAction setup params) := fun params =>
    Prog.all_bind (hAct _ (by simp) (by simp)) fun _ =>
      Prog.all_bind (hAct _ (by simp) (by simp)) fun _ =>
        Prog.all_onlyIf (Prog.all_bind (hAct _ (by simp) (by simp)) fun _ => Prog.all_pure _)
  refine Prog.all_bind (hAct _ (by simp) (by simp)) fun s =>
    Prog.all_bind (hGame _) fun _ => Prog.all_onlyIf ?_
  refine Prog.all_bind (hAct _ (by simp) (by simp)) fun _ =>
    Prog.all_bind (hAct _ (by simp) (by simp)) fun _ => Prog.all_onlyIf ?_
  exact Prog.all_bind (hAct _ (by simp) (by simp)) fun s => Prog.all_onlyIf (hPush _)

/-- The status is read before the stream is revived, not within. -/
theorem statusReads_reviveStream : Prog.Writes statusRead (reviveStream setup) [] := by
  refine Prog.Writes.of_avoids (K := fun o => o = SessionOp.getGameStatus)
    (all_reviveStream.mono fun o _ ho => ho.2.1) fun ev hev => ?_
  obtain ⟨o, r⟩ := ev
  cases o with
  | getGameStatus => exact absurd rfl hev
  | _ => rfl

/-- What does not use the stream makes no call on it. -/
theorem Uses.calls_nil {α : Type} {ks : List Kind} {p : SProg α} (h : Uses ks p)
    (hStream : Kind.stream ∉ ks) : Prog.Writes streamCall p [] :=
  h.writes_nil hStream streamCall_of_kind

/-- Every trace of `p` closes the stream, pushes it and does no more with it, or
stops on the way. -/
def Republishes (p : SProg Unit) : Prop :=
  ∀ t u, Prog.Path p t u → t.filterMap streamCall <+: [false, true]

/-- Something without calls may come before. -/
theorem Republishes.after {α : Type} {p : SProg α} {f : α → SProg Unit}
    (hp : Prog.Writes streamCall p []) (hf : ∀ a, Republishes (f a)) : Republishes (p >>= f) := by
  intro t u hPath
  obtain ⟨t₁, t₂, a, rfl, h₁, h₂⟩ := Prog.path_bind.mp hPath
  rw [List.filterMap_append, hp t₁ a h₁, List.nil_append]
  exact hf a t₂ u h₂

/-- A condition may stand before. -/
theorem Republishes.onlyIf {c : Prop} [Decidable c] {p : SProg Unit} (h : Republishes p) :
    Republishes (Prog.onlyIf c p) := by
  unfold Prog.onlyIf
  split
  · exact h
  · intro t u hPath
    obtain ⟨rfl, -⟩ := Prog.path_pure.mp hPath
    exact List.nil_prefix

/-- The stream is closed before it is pushed. -/
theorem republishes_pushStreamerAction (params : PushStreamerParams) :
    Republishes (pushStreamerAction setup params) := by
  intro t u hPath
  rcases writes_pushStreamerAction hPath with hClosed | hPushed
  · rw [(Prod.mk.inj (Prod.mk.inj hClosed).2).1]
    decide
  · have hCalls := (Prod.mk.inj (Prod.mk.inj hPushed).2).1
    exact hCalls ▸ List.prefix_rfl

/-- A stream that is revived is closed before it is pushed. -/
theorem republishes_reviveStream : Republishes (reviveStream setup) := by
  have hQuiet : ∀ o : SessionOp, o.kind ≠ .stream → Prog.Writes streamCall (act o) [] :=
    fun o ho => (uses_act.mpr (List.mem_singleton_self o.kind)).calls_nil (by simpa using ho.symm)
  have hGame : ∀ gameId, Prog.Writes streamCall (gameIsAreadlyRunning setup gameId) [] :=
    fun gameId => (uses_gameIsAreadlyRunning setup gameId).calls_nil (by decide)
  refine Republishes.after (hQuiet _ (by decide)) fun (s : Session) =>
    Republishes.after (hGame _) fun (_ : Bool) => Republishes.onlyIf ?_
  refine Republishes.after (hQuiet _ (by decide)) fun _ =>
    Republishes.after (hQuiet _ (by simp)) fun (_ : Nat) => Republishes.onlyIf ?_
  exact Republishes.after (hQuiet _ (by decide)) fun (s : Session) =>
    (republishes_pushStreamerAction _).onlyIf

/-- A pass calls the stream only after one check of a status that is not 0. -/
theorem pass_calls {stage next : ProtectStage} (h : Prog.Path (protectPass setup stage) t next) :
    t.filterMap streamCall = [] ∨
      t.filterMap streamCall <+: [false, true] ∧
        ∃ gameStatus, t.filterMap statusRead = [gameStatus] ∧ gameStatus ≠ 0 := by
  cases stage with
  | waiting =>
    -- the first loop asks for the process and the flag, and sleeps
    have hUses : Uses [.query] (protectPass setup .waiting) :=
      uses_bind (uses_act.mpr (by simp)) fun _ => uses_ite (uses_bind (uses_act.mpr (by simp))
        fun _ => uses_ite (uses_bind (uses_act.mpr (by simp)) fun _ => uses_pure _)
          (uses_pure _)) (uses_pure _)
    exact Or.inl (hUses.calls_nil (by decide) t next h)
  | ended =>
    obtain ⟨rfl, -⟩ := Prog.path_pure.mp h
    exact Or.inl rfl
  | checking =>
    obtain ⟨flag, tRest, rfl, h₁⟩ := Prog.path_then.mp h
    cases flag with
    | false =>
      obtain ⟨rfl, -⟩ := Prog.path_pure.mp h₁
      exact Or.inl rfl
    | true =>
      obtain ⟨(gameStatus : Int), tRest, rfl, h₂⟩ := Prog.path_then.mp h₁
      by_cases hZero : gameStatus = (0 : Int)
      · -- the loop is left by its `break`
        rw [if_pos hZero] at h₂
        obtain ⟨rfl, -⟩ := Prog.path_pure.mp h₂
        exact Or.inl rfl
      · rw [if_neg hZero] at h₂
        -- the sleep at the end of the body is the one event outside `reviveStream`
        obtain ⟨t₃, tRest, _, rfl, hRevive, h₃⟩ := Prog.path_bind.mp h₂
        obtain ⟨_, tPure, rfl, hPure⟩ := Prog.path_then.mp h₃
        obtain ⟨rfl, -⟩ := Prog.path_pure.mp hPure
        refine Or.inr ⟨?_, gameStatus, ?_, hZero⟩
        · have hCalls := republishes_reviveStream t₃ _ hRevive
          show (t₃ ++ [(⟨.sleep, ()⟩ : Event sessionSig)]).filterMap streamCall <+: [false, true]
          rw [List.filterMap_append]
          exact (List.append_nil _).symm ▸ hCalls
        · have hReads := statusReads_reviveStream t₃ _ hRevive
          show gameStatus :: (t₃ ++ [(⟨.sleep, ()⟩ : Event sessionSig)]).filterMap statusRead = _
          rw [List.filterMap_append, hReads]
          rfl

/-- The calls on the stream after a cut in the watchdog's trace belong to the pass
under way there: it has checked the status, and goes on to push before it
checks it again. -/
def InPass (t₁ t₂ : List (Event sessionSig)) : Prop :=
  (∃ gameStatus, (t₁.filterMap statusRead).getLast? = some gameStatus ∧ gameStatus ≠ 0) ∧
    ∃ c d, t₂ = c ++ d ∧ c.filterMap statusRead = [] ∧ true ∈ c.filterMap streamCall

/-- A push is the last of these calls. -/
theorem last_of_republish {calls : List Bool} (h : calls <+: [false, true])
    (hPush : true ∈ calls) : calls.getLast? = some true := by
  rcases List.prefix_cons_iff.mp h with rfl | ⟨rest, rfl, hRest⟩
  · cases hPush
  · rcases List.prefix_cons_iff.mp hRest with rfl | ⟨last, rfl, hLast⟩
    · simp at hPush
    · rw [List.prefix_nil.mp hLast]
      rfl

/-- A loop that only reads the status 0 does not call the stream. -/
theorem calls_protectFrom_of_zero {n : ℕ} {stage : ProtectStage} {b : Bool}
    (h : Prog.Path (protectFrom setup n stage) t b)
    (hZero : ∀ gameStatus ∈ t.filterMap statusRead, gameStatus = 0) :
    t.filterMap streamCall = [] := by
  induction n generalizing stage t with
  | zero =>
    obtain ⟨rfl, -⟩ := Prog.path_pure.mp h
    rfl
  | succ n ih =>
    obtain ⟨t₁, t₂, next, rfl, hPass, hRest⟩ := Prog.path_bind.mp h
    rw [List.filterMap_append] at hZero ⊢
    have hRestNone : t₂.filterMap streamCall = [] :=
      ih hRest fun v hv => hZero v (List.mem_append_right _ hv)
    rcases pass_calls hPass with hNone | ⟨-, gameStatus, hRead, hNe⟩
    · rw [hNone, hRestNone, List.nil_append]
    · -- the pass has read a status other than 0
      have hMem : gameStatus ∈ t₁.filterMap statusRead := by
        rw [hRead]
        exact List.mem_singleton_self gameStatus
      exact absurd (hZero gameStatus (List.mem_append_left _ hMem)) hNe

/-- The rest of a pass after a cut, when it reads no status but 0. -/
theorem rest_of_pass {stage next : ProtectStage} {t₁ t₂ : List (Event sessionSig)}
    (h : Prog.Path (protectPass setup stage) (t₁ ++ t₂) next)
    (hZero : ∀ gameStatus ∈ t₂.filterMap statusRead, gameStatus = 0)
    (hPush : true ∈ t₂.filterMap streamCall) :
    InPass t₁ t₂ ∧ (t₂.filterMap streamCall).getLast? = some true := by
  rcases pass_calls h with hNone | ⟨hCalls, gameStatus, hRead, hNe⟩
  · rw [List.filterMap_append, List.append_eq_nil_iff] at hNone
    rw [hNone.2] at hPush
    cases hPush
  · rw [List.filterMap_append, List.append_eq_singleton_iff] at hRead
    rcases hRead with ⟨-, hAfter⟩ | ⟨hBefore, hAfter⟩
    · -- the check comes after the cut, and reads 0
      refine absurd (hZero gameStatus ?_) hNe
      rw [hAfter]
      exact List.mem_singleton_self gameStatus
    · -- the check comes before the cut, and the push after it ends the calls
      refine ⟨⟨⟨gameStatus, by rw [hBefore]; rfl, hNe⟩, t₂, [], by simp, hAfter, hPush⟩, ?_⟩
      rw [List.filterMap_append] at hCalls
      have hAll := last_of_republish hCalls (List.mem_append_right _ hPush)
      rwa [List.getLast?_append_of_ne_nil _ (List.ne_nil_of_mem hPush)] at hAll

/-- **Once the status stays 0**, only the pass under way pushes the stream. -/
theorem calls_after_stop_iff {n : ℕ} {stage : ProtectStage} {b : Bool}
    {t₁ t₂ : List (Event sessionSig)} (h : Prog.Path (protectFrom setup n stage) (t₁ ++ t₂) b)
    (hZero : ∀ gameStatus ∈ t₂.filterMap statusRead, gameStatus = 0) :
    (t₂.filterMap streamCall).getLast? = some true ↔ InPass t₁ t₂ := by
  have hMain : true ∈ t₂.filterMap streamCall →
      InPass t₁ t₂ ∧ (t₂.filterMap streamCall).getLast? = some true := by
    intro hPush
    -- over the passes, with the cut in the first one or in a later one
    induction n generalizing stage t₁ with
    | zero =>
      obtain ⟨hNil, -⟩ := Prog.path_pure.mp h
      rw [(List.append_eq_nil_iff.mp hNil).2] at hPush
      cases hPush
    | succ n ih =>
      obtain ⟨tPass, tRest, next, hSplit, hPass, hRest⟩ := Prog.path_bind.mp h
      rcases List.append_eq_append_iff.mp hSplit with ⟨c, rfl, rfl⟩ | ⟨c, rfl, rfl⟩
      · -- the cut falls into this pass, and the later ones read 0
        rw [List.filterMap_append] at hZero hPush ⊢
        have hLater : tRest.filterMap streamCall = [] :=
          calls_protectFrom_of_zero hRest fun v hv => hZero v (List.mem_append_right _ hv)
        rw [hLater, List.append_nil] at hPush ⊢
        obtain ⟨⟨hChecked, a, b, rfl, hNoCheck, hIn⟩, hLast⟩ :=
          rest_of_pass hPass (fun v hv => hZero v (List.mem_append_left _ hv)) hPush
        exact ⟨⟨hChecked, a, b ++ tRest, List.append_assoc .., hNoCheck, hIn⟩, hLast⟩
      · -- the cut falls into a later pass
        obtain ⟨⟨⟨gameStatus, hChecked, hNe⟩, hPushes⟩, hLast⟩ := ih hRest
        refine ⟨⟨⟨gameStatus, ?_, hNe⟩, hPushes⟩, hLast⟩
        rw [List.filterMap_append, List.getLast?_append, hChecked, Option.some_or]
  constructor
  · intro hLast
    exact (hMain (List.mem_of_getLast? hLast)).1
  · rintro ⟨-, c, d, rfl, -, hPush⟩
    refine (hMain ?_).2
    rw [List.filterMap_append]
    exact List.mem_append_left _ hPush

/-- The same for the whole of `ProtectGstLaunch`. -/
theorem protectGstLaunch_calls_iff {n : ℕ} {b : Bool} {t₁ t₂ : List (Event sessionSig)}
    (h : Prog.Path (protectGstLaunch setup n) (t₁ ++ t₂) b)
    (hZero : ∀ gameStatus ∈ t₂.filterMap statusRead, gameStatus = 0) :
    (t₂.filterMap streamCall).getLast? = some true ↔ InPass t₁ t₂ := by
  obtain ⟨_, tRest, hSplit, hRest⟩ := Prog.path_then.mp h
  cases t₁ with
  | nil =>
    -- the loops begin after the cut
    obtain rfl : t₂ = ⟨.raiseProtectFlag, ()⟩ :: tRest := hSplit
    have hNone : tRest.filterMap streamCall = [] := calls_protectFrom_of_zero hRest hZero
    refine iff_of_false ?_ fun hIn => ?_
    · show (tRest.filterMap streamCall).getLast? ≠ some true
      rw [hNone]
      simp
    · obtain ⟨⟨gameStatus, hChecked, -⟩, -⟩ := hIn
      cases hChecked
  | cons ev t₁ =>
    obtain ⟨rfl, rfl⟩ := List.cons.inj hSplit
    have hFrom : Prog.Path (protectFrom setup n .waiting) (t₁ ++ t₂) b := hRest
    exact (calls_after_stop_iff hFrom hZero :)

end

-- ---------------------------------------------------------------------------
-- The watchdog and StopGame
-- ---------------------------------------------------------------------------

/-- The two threads. -/
inductive Watch where
  | watchdog
  | stop
deriving DecidableEq

def watchThreads (setup : Setup) (n : ℕ) (data : String) : Watch → SProg Bool
  | .watchdog => protectGstLaunch setup n
  | .stop => do
    let _ ← stopGameCallback setup data
    pure true

/-- There are two threads. -/
theorem watch_ne_stop_iff (i : Watch) : i ≠ .stop ↔ i = .watchdog := by
  cases i with
  | watchdog => exact iff_of_true (by decide) rfl
  | stop => exact iff_of_false (by decide) (by decide)

/-- StopGame closes the stream during a pass of the watchdog that goes on to
push it. -/
def ClosedInPass (log : List (Watch × Event sessionSig)) : Prop :=
  ∃ l₁ l₂ ev, log = l₁ ++ (.stop, ev) :: l₂ ∧ streamCall ev = some false ∧
    InPass (Prog.threadTrace .watchdog l₁) (Prog.threadTrace .watchdog l₂)

section

variable {setup : Setup} {n : ℕ} {data : String} {s s' : Session}
  {log : List (Watch × Event sessionSig)} {threads : Watch → SProg Bool}

/-- StopGame clears the status before its only call on the stream, and does not
set it again. -/
theorem stopGameCallback_calls {t : List (Event sessionSig)} {r : Except JsonFailure Unit}
    (h : Prog.Path (stopGameCallback setup data) t r) (hMode : ∀ ev ∈ t, ReadsDefaultMode ev) :
    ∃ clear call t₁ t₂ t₃, t = (t₁ ++ clear :: t₂) ++ call :: t₃ ∧
      clear.op = .setValue .startGameStatus "0" ∧ streamCall call = some false ∧
      (t₁ ++ clear :: t₂).filterMap streamCall = [] ∧ t₃.filterMap streamCall = [] ∧
      ∀ ev ∈ t₂ ++ call :: t₃, SessionOp.kind ev.op ≠ .record := by
  obtain ⟨tStop, tRest, _, rfl, hStop, hRest⟩ := Prog.path_bind.mp h
  obtain ⟨s₁, s₂, s₃, t₁, t₂, rfl, hStream, rfl⟩ := stopSession_trace hStop
  have hMode₃ : s₃.mode = .defaultMode := hMode ⟨.get, s₃⟩ (by simp)
  rw [if_pos (Or.inl hMode₃)] at hStream
  obtain ⟨ret, rfl⟩ := hStream
  rw [if_pos (Or.inl hMode₃)]
  have hKinds := (uses_rest_of_stopGame data).kinds hRest
  have hCalls := (uses_rest_of_stopGame data).calls_nil (by decide) tRest r hRest
  refine ⟨⟨.setValue .startGameStatus "0", ()⟩, ⟨.closepush _ _, ret⟩,
    [⟨.lastGaspGoalPushStreamer, ()⟩, ⟨.get, s₁⟩, ⟨.setValue .gameId s₁.gameId, ()⟩],
    [⟨.get, s₂⟩, ⟨.stopProtectGstLaunch, ()⟩, ⟨.send (deviceStateReport s₂), ()⟩, ⟨.get, s₃⟩],
    ⟨.stopKeyBoardThread, ()⟩ :: tRest, rfl, rfl, rfl, rfl, hCalls, ?_⟩
  intro ev hev
  simp only [List.cons_append, List.nil_append, List.mem_cons] at hev
  rcases hev with rfl | rfl | rfl | rfl | rfl | rfl | hev
  · exact (by decide : Kind.query ≠ .record)
  · exact (by decide : Kind.protect ≠ .record)
  · exact (by decide : Kind.report ≠ .record)
  · exact (by decide : Kind.query ≠ .record)
  · exact (by decide : Kind.stream ≠ .record)
  · exact (by decide : Kind.keyboard ≠ .record)
  · intro hRecord
    exact absurd (hRecord ▸ hKinds ev hev) (by decide)

/-- An event that reads no status but 0. -/
def ReadsNoStatus (ev : Event sessionSig) : Prop :=
  ∀ gameStatus, statusRead ev = some gameStatus → gameStatus = 0

/-- Without a write to the record the status stays 0. -/
theorem exec_readsNoStatus (codePage : CodePage) (e : Env) (s : Session) (o : SessionOp)
    (hKind : ¬ SessionOp.kind o = .record) (hZero : s.getGameStatus = 0) :
    ReadsNoStatus ⟨o, ((sessionHandler codePage).exec e s o).1⟩ ∧
      ((sessionHandler codePage).exec e s o).2.getGameStatus = 0 := by
  refine ⟨fun gameStatus hRead => ?_, (getGameStatus_congr (exec_record e s hKind)).trans hZero⟩
  cases o with
  | getGameStatus =>
    obtain rfl := Option.some.inj hRead
    exact hZero
  | _ => cases hRead

/-- Once the status is cleared, the watchdog reads 0. -/
theorem statusReads_after_clear {l₁ l₂ : List (Watch × Event sessionSig)} {i : Watch}
    {clear : Event sessionSig} (hClear : clear.op = .setValue .startGameStatus "0")
    (hRun : Prog.Run (sessionHandler setup.codePage) s (watchThreads setup n data)
      (l₁ ++ (i, clear) :: l₂) s' threads)
    (hRecord : ∀ x ∈ l₂, SessionOp.kind x.2.op ≠ .record) : ∀ x ∈ l₂, ReadsNoStatus x.2 := by
  obtain ⟨e, s₁, _, hRest⟩ := hRun.after
  rw [hClear] at hRest
  refine hRest.events_avoiding (exec_readsNoStatus setup.codePage) ?_ hRecord
  have hZero : toInt (setup.codePage.recode "0").toList = 0 := by
    rw [setup.codePage.recode_eq (by decide)]
    decide
  show toInt ((s₁.record.map _).elim "" GameRecord.startGameStatus).toList = 0
  cases s₁.record with
  | none => exact (by decide : toInt "".toList = 0)
  | some r => exact hZero

/-- The last call is the close, unless a push comes behind it. -/
theorem last_after_close (xs ys : List Bool) :
    (xs ++ false :: ys).getLast? = some false ↔ ¬ ys.getLast? = some true := by
  rw [List.getLast?_append_of_ne_nil _ (List.cons_ne_nil false ys), List.getLast?_cons,
    Option.some.injEq]
  rcases ys.getLast? with _ | _ | _
  · simp
  · simp
  · simp

/-- What StopGame does in a run, by `stopGameCallback_calls`. -/
theorem stop_trace (hMode : s.mode = .defaultMode)
    (hRun : Prog.Run (sessionHandler setup.codePage) s (watchThreads setup n data) log s' threads)
    (hStop : (threads .stop).ended = some true) :
    ∃ clear call t₁ t₂ t₃, Prog.threadTrace .stop log = (t₁ ++ clear :: t₂) ++ call :: t₃ ∧
      clear.op = .setValue .startGameStatus "0" ∧ streamCall call = some false ∧
      (t₁ ++ clear :: t₂).filterMap streamCall = [] ∧ t₃.filterMap streamCall = [] ∧
      ∀ ev ∈ t₂ ++ call :: t₃, SessionOp.kind ev.op ≠ .record := by
  obtain ⟨tStop, tEnd, r, hTrace, hCallback, hPure⟩ :=
    Prog.path_bind.mp (hRun.path (Prog.ended_eq_some.mp hStop))
  obtain ⟨rfl, -⟩ := Prog.path_pure.mp hPure
  rw [List.append_nil] at hTrace
  have hReads : ∀ x ∈ log, ReadsDefaultMode x.2 :=
    hRun.events (fun e x o hx => exec_readsDefaultMode e x o hx) hMode
  rw [hTrace]
  refine stopGameCallback_calls hCallback fun ev hev => ?_
  rw [← hTrace] at hev
  exact hReads _ (Prog.mem_of_mem_threadTrace hev)

/-- StopGame's call on the stream splits a run: the status is cleared before it,
and StopGame neither records nor calls after that. -/
theorem clear_before_call {l₁ l₂ : List (Watch × Event sessionSig)} {call : Event sessionSig}
    (hCall : streamCall call = some false) (hMode : s.mode = .defaultMode)
    (hRun : Prog.Run (sessionHandler setup.codePage) s (watchThreads setup n data)
      (l₁ ++ (.stop, call) :: l₂) s' threads) (hStop : (threads .stop).ended = some true) :
    ∃ lClear lBetween clear, l₁ = lClear ++ (.stop, clear) :: lBetween ∧
      clear.op = .setValue .startGameStatus "0" ∧
      (Prog.threadTrace .stop l₂).filterMap streamCall = [] ∧
      ∀ ev ∈ Prog.threadTrace .stop (lBetween ++ (.stop, call) :: l₂),
        SessionOp.kind ev.op ≠ .record := by
  have hOwn : ∀ l : List (Watch × Event sessionSig),
      Prog.threadTrace .stop (l ++ (.stop, call) :: l₂) =
        Prog.threadTrace .stop l ++ call :: Prog.threadTrace .stop l₂ := by
    intro l
    rw [Prog.threadTrace_append]
    exact congrArg _ (Prog.threadTrace_cons_self (x := (Watch.stop, call)) rfl l₂)
  have hNotMem : ∀ t : List (Event sessionSig), t.filterMap streamCall = [] → call ∉ t := by
    intro t hNil hMem
    rw [List.filterMap_eq_nil_iff.mp hNil call hMem] at hCall
    cases hCall
  obtain ⟨clear, call', t₁, t₂, t₃, hTrace, hClear, -, hNone, hNoneAfter, hKinds⟩ :=
    stop_trace hMode hRun hStop
  rw [hOwn] at hTrace
  -- StopGame calls the stream only once
  obtain ⟨hBefore, rfl, rfl⟩ := (List.append_cons_inj_of_notMem (hNotMem _ hNone)
    (hNotMem _ hNoneAfter)).mp hTrace.symm
  obtain ⟨lClear, lBetween, rfl, -, rfl⟩ := Prog.threadTrace_eq_append_cons hBefore.symm
  exact ⟨lClear, lBetween, clear, rfl, hClear, hNoneAfter, by rwa [hOwn]⟩

/-- The stream after a run that StopGame's call on it splits. -/
theorem closed_iff_of_split {l₁ l₂ : List (Watch × Event sessionSig)} {call : Event sessionSig}
    (hCall : streamCall call = some false) (hMode : s.mode = .defaultMode)
    (hRun : Prog.Run (sessionHandler setup.codePage) s (watchThreads setup n data)
      (l₁ ++ (.stop, call) :: l₂) s' threads)
    (hProtect : (threads .watchdog).ended = some true) (hStop : (threads .stop).ended = some true) :
    (Prog.writes streamCall (l₁ ++ (.stop, call) :: l₂)).getLast? = some false ↔
      ¬ InPass (Prog.threadTrace .watchdog l₁) (Prog.threadTrace .watchdog l₂) := by
  obtain ⟨lClear, lBetween, clear, rfl, hClear, hNoCall, hKinds⟩ :=
    clear_before_call hCall hMode hRun hStop
  have hWatch := hRun.path (Prog.ended_eq_some.mp hProtect)
  have hWatchKinds := (uses_protectGstLaunch n).kinds hWatch
  -- from the clearing of the status on, every check of it reads 0
  have hRecord : ∀ x ∈ lBetween ++ (.stop, call) :: l₂, SessionOp.kind x.2.op ≠ .record := by
    rintro ⟨side, ev⟩ hx hKind
    cases side with
    | stop => exact hKinds ev (Prog.mem_threadTrace hx) hKind
    | watchdog =>
      have hAll : (Watch.watchdog, ev) ∈
          (lClear ++ (.stop, clear) :: lBetween) ++ (.stop, call) :: l₂ := by
        rw [List.append_assoc]
        exact List.mem_append_right _ (List.mem_cons_of_mem _ hx)
      have hOwnKind := hWatchKinds ev (Prog.mem_threadTrace hAll)
      rw [hKind] at hOwnKind
      exact absurd hOwnKind (by decide)
  have hRun' := hRun
  rw [List.append_assoc, List.cons_append] at hRun'
  have hNoStatus := statusReads_after_clear hClear hRun' hRecord
  have hZero : ∀ gameStatus ∈ (Prog.threadTrace .watchdog l₂).filterMap statusRead,
      gameStatus = 0 := by
    intro gameStatus hMem
    obtain ⟨ev, hEv, hRead⟩ := List.mem_filterMap.mp hMem
    exact hNoStatus _ (List.mem_append_right _ (List.mem_cons_of_mem _
      (Prog.mem_of_mem_threadTrace hEv))) gameStatus hRead
  -- the calls after this one are those of the watchdog
  have hCalls : Prog.writes streamCall l₂ =
      (Prog.threadTrace .watchdog l₂).filterMap streamCall := by
    rw [Prog.writes_of_no_off hNoCall]
    exact Prog.writesOfOthers_eq watch_ne_stop_iff l₂
  have hOther : Prog.threadTrace .watchdog ((.stop, call) :: l₂) = Prog.threadTrace .watchdog l₂ :=
    Prog.threadTrace_cons_of_ne (show (Watch.stop, call).1 ≠ .watchdog by simp) l₂
  rw [Prog.threadTrace_append, hOther] at hWatch
  have hAll : Prog.writes streamCall (lClear ++ (.stop, clear) :: lBetween ++ (.stop, call) :: l₂) =
      Prog.writes streamCall (lClear ++ (.stop, clear) :: lBetween) ++
        false :: Prog.writes streamCall l₂ := by
    rw [← Prog.writes_cons_some (x := (Watch.stop, call)) hCall]
    exact List.filterMap_append
  rw [← protectGstLaunch_calls_iff hWatch hZero, ← hCalls, hAll, last_after_close]

/-- **The stream stays closed** after StopGame just when its `closepush` does not
fall into a pass of the watchdog that has checked the status before it and
pushes after it. -/
theorem stays_closed_iff (hMode : s.mode = .defaultMode)
    (hRun : Prog.Run (sessionHandler setup.codePage) s (watchThreads setup n data) log s' threads)
    (hProtect : (threads .watchdog).ended = some true) (hStop : (threads .stop).ended = some true) :
    (Prog.writes streamCall log).getLast? = some false ↔ ¬ ClosedInPass log := by
  have hSplit : ∀ l₁ l₂ call, log = l₁ ++ (.stop, call) :: l₂ → streamCall call = some false →
      ((Prog.writes streamCall log).getLast? = some false ↔
        ¬ InPass (Prog.threadTrace .watchdog l₁) (Prog.threadTrace .watchdog l₂)) := by
    rintro l₁ l₂ call rfl hCall
    exact closed_iff_of_split hCall hMode hRun hProtect hStop
  constructor
  · rintro hLast ⟨l₁, l₂, call, hLog, hCall, hIn⟩
    exact (hSplit l₁ l₂ call hLog hCall).mp hLast hIn
  · intro hNot
    obtain ⟨_, call, _, _, _, hTrace, -, hCall, -⟩ := stop_trace hMode hRun hStop
    obtain ⟨l₁, l₂, hLog, -⟩ := Prog.threadTrace_eq_append_cons hTrace
    exact (hSplit l₁ l₂ call hLog hCall).mpr fun hIn => hNot ⟨l₁, l₂, call, hLog, hCall, hIn⟩

end

/-! ## Two schedules -/

/-- The first game runs and is pushed, and gst-launch has exited. -/
def watchedSession : Session :=
  { sampleSession with
    gameId := "g1"
    pushStreamerParams := { PushStreamerParams.cleared with
      serverUrl := "https://s:4443/"
      roomId := "r1" }
    record := some ⟨sampleData "s" false, "1", "g1"⟩
    protectThread := true
    processes := [oneProcess] }

/-- StopGame comes between two passes. -/
def stopBetweenPasses : List (Watch × Env) :=
  List.replicate 13 (.watchdog, envWith) ++ List.replicate 14 (.stop, envWith) ++
    [(.watchdog, envWith)]

/-- StopGame comes while a pass looks for the processes. -/
def stopInPass : List (Watch × Env) :=
  List.replicate 9 (.watchdog, envWith) ++ List.replicate 14 (.stop, envWith) ++
    List.replicate 5 (.watchdog, envWith)

def watchRun (schedule : List (Watch × Env)) :
    List (Watch × Event sessionSig) × Session × (Watch → SProg Bool) :=
  Prog.runSchedule (sessionHandler sampleSetup.codePage) schedule watchedSession
    (watchThreads sampleSetup 3 sampleStopData)

theorem run_watchRun (schedule : List (Watch × Env)) :
    Prog.Run (sessionHandler sampleSetup.codePage) watchedSession
      (watchThreads sampleSetup 3 sampleStopData) (watchRun schedule).1 (watchRun schedule).2.1
      (watchRun schedule).2.2 :=
  Prog.run_runSchedule schedule watchedSession _

/-- A watchdog that has pushed does not push again after StopGame. -/
theorem stays_closed_between_passes :
    true ∈ Prog.writes streamCall (watchRun stopBetweenPasses).1 ∧
      ¬ ClosedInPass (watchRun stopBetweenPasses).1 := by
  have hEnded : ((watchRun stopBetweenPasses).2.2 .watchdog).ended = some true ∧
      ((watchRun stopBetweenPasses).2.2 .stop).ended = some true := by decide +kernel
  have hCalls : Prog.writes streamCall (watchRun stopBetweenPasses).1 =
      [false, true, false] := by decide +kernel
  refine ⟨by rw [hCalls]; decide, ?_⟩
  exact (stays_closed_iff rfl (run_watchRun stopBetweenPasses) hEnded.1 hEnded.2).mp
    (by rw [hCalls]; rfl)

/-- A pass under way pushes the stream that StopGame has closed. -/
theorem stopped_stream_revived :
    Prog.Run (sessionHandler sampleSetup.codePage) watchedSession
      (watchThreads sampleSetup 3 sampleStopData) (watchRun stopInPass).1
      (watchRun stopInPass).2.1 (watchRun stopInPass).2.2 ∧
    watchedSession.mode = .defaultMode ∧
    ((watchRun stopInPass).2.2 .watchdog).ended = some true ∧
    ((watchRun stopInPass).2.2 .stop).ended = some true ∧
    (Prog.writes streamCall (watchRun stopInPass).1).getLast? ≠ some false := by
  have hResult : ((watchRun stopInPass).2.2 .watchdog).ended = some true ∧
      ((watchRun stopInPass).2.2 .stop).ended = some true ∧
      (Prog.writes streamCall (watchRun stopInPass).1).getLast? ≠ some false := by decide +kernel
  exact ⟨run_watchRun stopInPass, rfl, hResult⟩

end PushStreamer
