import PushStreamer.Input.KeyBoardThread
import PushStreamer.Lib.Machine
import PushStreamer.Lib.Strokes

/-!
# Full keyboard mode

A `keycode` message presses (`ud` 1) or releases (`ud` 2) a code. A release goes
to the driver as it is; a press is changed on the way: digits by the caps state,
and the keys that are not handled directly by two tables, code to name and name
to code. `KeyBoardThread::start` opens the files of these tables.

* `step_cases` — what one message does.
* `ownKey_iff` — the presses that reach the driver as the code they name.
* `releases_what_it_presses` — the sequences of messages after which no driver
  key is left pressed.
* `function_keys_never_work` — after `start` no key goes through the tables.
-/

namespace PushStreamer

open Strokes (Stroke AllReleased)

-- ---------------------------------------------------------------------------
-- Presses and releases
-- ---------------------------------------------------------------------------

/-- The stroke of a `keycode` message. -/
def messageStroke (root : Value) : Option (Stroke Int) :=
  match readInt root "ud", root.index "key" >>= readKey with
  | .ok ud, .ok keyTemp =>
    if ud = 1 then some (.press keyTemp) else if ud = 2 then some (.release keyTemp) else none
  | _, _ => none

/-- The stroke of a driver call. -/
def DriverCall.stroke : DriverCall → Option (Stroke Int)
  | .keyDown key => some (.press key)
  | .keyUp key => some (.release key)
  | _ => none

/-- The key that the two tables lead to; 0 when one has no entry. -/
def tableKey (st : KeyBoardThread) (keyTemp : Int) : Int :=
  let keyMapping := st.iniParse1.getValue "ValueName" (toString keyTemp)
  if keyMapping = "" then 0
  else toInt (st.iniParse2.getValue "ValueName" keyMapping).toList

/-- The press of a code goes to the driver under the same code, or not at all:
a code handled directly is no digit while caps is on, and the tables lead any
other code to itself or to no key. -/
def OwnKey (st : KeyBoardThread) (keyTemp : Int) : Prop :=
  if isLeftKeyboardNumberLetter keyTemp then
    ¬ (st.isUpperKey = true ∧ 0 ≤ keyTemp ∧ keyTemp ≤ 9)
  else tableKey st keyTemp ≤ 0 ∨ tableKey st keyTemp = keyTemp

instance (st : KeyBoardThread) (keyTemp : Int) : Decidable (OwnKey st keyTemp) := by
  unfold OwnKey
  infer_instance

/-- The driver key of a press, if there is one. -/
def driverKey (st : KeyBoardThread) (keyTemp : Int) : Option Int :=
  if isLeftKeyboardNumberLetter keyTemp then
    some (if st.isUpperKey = true ∧ 0 ≤ keyTemp ∧ keyTemp ≤ 9 then keyTemp + 32 else keyTemp)
  else if tableKey st keyTemp > 0 then some (tableKey st keyTemp) else none

/-- A press goes to its driver key. -/
theorem fullKeyboardDown_calls (st : KeyBoardThread) (keyTemp : Int) :
    (fullKeyboardDown st keyTemp).2 = (driverKey st keyTemp).toList.map .keyDown := by
  unfold fullKeyboardDown driverKey tableKey
  by_cases hDirect : isLeftKeyboardNumberLetter keyTemp = true
  · simp only [hDirect, if_true, Option.toList_some, List.map_singleton, Bool.and_eq_true,
      decide_eq_true_eq, ge_iff_le]
  · simp only [hDirect, if_false, Bool.false_eq_true]
    generalize st.iniParse1.getValue "ValueName" (toString keyTemp) = keyMapping
    generalize st.iniParse2.getValue "ValueName" keyMapping = keyMappingValue
    by_cases hName : keyMapping = ""
    · simp [hName]
    · by_cases hValue : keyMappingValue = ""
      · have hEmpty : ¬ toInt "".toList > 0 := by decide
        rw [hValue, if_pos (Or.inr rfl), if_neg hName, if_neg hEmpty]
        rfl
      · simp only [hName, hValue, or_self, if_false]
        split <;> rfl

/-- A code is its own key when the press goes nowhere else. -/
theorem ownKey_iff (st : KeyBoardThread) (keyTemp : Int) :
    OwnKey st keyTemp ↔ ∀ key, driverKey st keyTemp = some key → key = keyTemp := by
  unfold OwnKey driverKey
  by_cases hDirect : isLeftKeyboardNumberLetter keyTemp = true
  · simp only [hDirect, if_true, Option.some.injEq, forall_eq']
    split
    · rename_i hUpper
      exact iff_of_false (not_not.mpr hUpper) (by omega)
    · rename_i hUpper
      exact iff_of_true hUpper rfl
  · simp only [hDirect, if_false, Bool.false_eq_true]
    split
    · rename_i hPos
      simp only [Option.some.injEq, forall_eq']
      exact or_iff_right (by omega)
    · rename_i hNone
      exact iff_of_true (Or.inl (by omega)) fun _ hKey => by cases hKey

/-- The keyboard thread with the driver calls made so far. -/
structure FullKeyboard where
  keyBoard : KeyBoardThread
  calls : List DriverCall

namespace FullKeyboard

/-- One message; an exception ends the run. -/
def step (s : FullKeyboard) (root : Value) : Option FullKeyboard :=
  match dealTheFullKeyboardModel root s.keyBoard with
  | .ok (keyBoard, calls) => some ⟨keyBoard, s.calls ++ calls⟩
  | .error _ => none

/-- The strokes that the driver has got. -/
def driverStrokes (s : FullKeyboard) : List (Stroke Int) := s.calls.filterMap DriverCall.stroke

/-- What a message does: a press calls `KeyDown` for its driver key, and a
release calls `KeyUp` for its code. -/
theorem step_cases {s s' : FullKeyboard} {root : Value} (hStep : s.step root = some s') :
    (∃ keyTemp, messageStroke root = some (.press keyTemp) ∧
      s' = ⟨(fullKeyboardDown s.keyBoard keyTemp).1,
        s.calls ++ (driverKey s.keyBoard keyTemp).toList.map .keyDown⟩) ∨
    (∃ keyTemp, messageStroke root = some (.release keyTemp) ∧
      s' = { s with calls := s.calls ++ [.keyUp keyTemp] }) ∨
    (messageStroke root = none ∧ s' = s) := by
  unfold step dealTheFullKeyboardModel at hStep
  unfold messageStroke
  cases hUd : readInt root "ud" with
  | error e =>
    rw [hUd] at hStep
    cases hStep
  | ok ud =>
    rw [hUd] at hStep
    -- the driver is called for the codes 1 and 2 only
    by_cases hPress : ud = 1
    · subst hPress
      cases hKey : root.index "key" >>= readKey with
      | error e =>
        rw [hKey] at hStep
        cases hStep
      | ok keyTemp =>
        rw [hKey] at hStep
        have hNext : s' = ⟨(fullKeyboardDown s.keyBoard keyTemp).1,
          s.calls ++ (fullKeyboardDown s.keyBoard keyTemp).2⟩ := (Option.some.inj hStep).symm
        rw [fullKeyboardDown_calls] at hNext
        exact Or.inl ⟨keyTemp, rfl, hNext⟩
    · by_cases hRelease : ud = 2
      · subst hRelease
        cases hKey : root.index "key" >>= readKey with
        | error e =>
          rw [hKey] at hStep
          cases hStep
        | ok keyTemp =>
          rw [hKey] at hStep
          exact Or.inr (Or.inl ⟨keyTemp, rfl, (Option.some.inj hStep).symm⟩)
      · simp only [ofJson_ok, bind, Except.bind, if_neg hPress, if_neg hRelease, pure,
          Except.pure, List.append_nil] at hStep
        refine Or.inr (Or.inr ⟨?_, (Option.some.inj hStep).symm⟩)
        cases hKey : root.index "key" >>= readKey with
        | error e => rfl
        | ok keyTemp => simp only [if_neg hPress, if_neg hRelease]

/-- If the message is a press, it goes to the driver under its own code. -/
def NamesItself (s : FullKeyboard) (root : Value) : Prop :=
  match messageStroke root with
  | some (.press keyTemp) => OwnKey s.keyBoard keyTemp
  | _ => True

instance (s : FullKeyboard) (root : Value) : Decidable (s.NamesItself root) := by
  unfold NamesItself
  split <;> infer_instance

/-- What is down at the driver is down in the messages. -/
theorem down_step {s s' : FullKeyboard} {root : Value} {messages : List (Stroke Int)}
    (h : ∀ k ∈ Strokes.down s.driverStrokes, k ∈ Strokes.down messages)
    (hOwn : s.NamesItself root) (hStep : s.step root = some s') :
    ∀ k ∈ Strokes.down s'.driverStrokes,
      k ∈ Strokes.down (messages ++ (messageStroke root).toList) := by
  rcases step_cases hStep with
    ⟨keyTemp, hStroke, rfl⟩ | ⟨keyTemp, hStroke, rfl⟩ | ⟨hStroke, rfl⟩
  · intro k hk
    rw [hStroke, Option.toList_some, Strokes.mem_down_press]
    -- a press may not reach the driver, or reach it under another code
    cases hKey : driverKey s.keyBoard keyTemp with
    | none =>
      rw [driverStrokes, hKey, Option.toList_none, List.map_nil, List.append_nil] at hk
      exact Or.inl (h k hk)
    | some key =>
      rw [NamesItself, hStroke] at hOwn
      obtain rfl := (ownKey_iff s.keyBoard keyTemp).mp hOwn key hKey
      rw [driverStrokes, hKey, List.filterMap_append] at hk
      exact (Strokes.mem_down_press.mp hk).imp_left (h k)
  · intro k hk
    rw [driverStrokes, List.filterMap_append] at hk
    obtain ⟨hDown, hNe⟩ := Strokes.mem_down_release.mp hk
    rw [hStroke, Option.toList_some, Strokes.mem_down_release]
    exact ⟨h k hDown, hNe⟩
  · rw [hStroke, Option.toList_none, List.append_nil]
    exact h

/-- In a run what is down at the driver is down in the messages. -/
theorem down_run {roots : List Value} {s s' : FullKeyboard} {messages : List (Stroke Int)}
    (h : ∀ k ∈ Strokes.down s.driverStrokes, k ∈ Strokes.down messages)
    (hOwn : Machine.MeetsTaken step NamesItself s roots)
    (hRun : Machine.run step s roots = some s') :
    ∀ k ∈ Strokes.down s'.driverStrokes,
      k ∈ Strokes.down (messages ++ roots.filterMap messageStroke) := by
  induction roots generalizing s messages with
  | nil =>
    obtain rfl := Option.some.inj hRun
    rw [List.filterMap_nil, List.append_nil]
    exact h
  | cons root roots ih =>
    obtain ⟨s₁, hStep, hRest⟩ := Machine.run_cons.mp hRun
    have hAll := ih (down_step h (hOwn.1 s₁ hStep) hStep) (hOwn.2 s₁ hStep) hRest
    rw [List.append_assoc] at hAll
    -- the message adds its stroke, if it has one
    cases hStroke : messageStroke root with
    | none =>
      rw [List.filterMap_cons_none hStroke]
      rwa [hStroke] at hAll
    | some stroke =>
      rw [List.filterMap_cons_some hStroke]
      rwa [hStroke] at hAll

/--
**What is pressed is released.** In a sequence of `keycode` messages in which
each press of a code is followed by a release of this code, and each press goes
to the driver under its own code, every driver key that was pressed is released
afterwards.
-/
theorem releases_what_it_presses {st : KeyBoardThread} {roots : List Value} {s : FullKeyboard}
    (hRun : Machine.run step ⟨st, []⟩ roots = some s)
    (hReleased : AllReleased (roots.filterMap messageStroke))
    (hOwn : Machine.MeetsTaken step NamesItself ⟨st, []⟩ roots) :
    AllReleased s.driverStrokes := by
  have hStart : ∀ k ∈ Strokes.down (FullKeyboard.driverStrokes ⟨st, []⟩),
      k ∈ Strokes.down ([] : List (Stroke Int)) := fun _ hk => by cases hk
  have hDown := down_run hStart hOwn hRun
  rw [List.nil_append, Strokes.down_eq_nil_iff.mpr hReleased] at hDown
  exact Strokes.down_eq_nil_iff.mp (List.eq_nil_iff_forall_not_mem.mpr fun k hk =>
    List.not_mem_nil (hDown k hk))

/-- A press under another code is not undone by its own release: from a state
with nothing down, a press and a release of one code leave nothing down just
when the press goes to the driver under its own code. -/
theorem press_release_iff {s s' : FullKeyboard} {press release : Value} {keyTemp : Int}
    (hUp : Strokes.down s.driverStrokes = [])
    (hPress : messageStroke press = some (.press keyTemp))
    (hRelease : messageStroke release = some (.release keyTemp))
    (hRun : Machine.run step s [press, release] = some s') :
    AllReleased s'.driverStrokes ↔ OwnKey s.keyBoard keyTemp := by
  obtain ⟨s₁, hStep₁, hRest⟩ := Machine.run_cons.mp hRun
  obtain ⟨s₂, hStep₂, hEnd⟩ := Machine.run_cons.mp hRest
  obtain rfl := Option.some.inj hEnd
  have hDown : ∀ k, k ∈ Strokes.down s₂.driverStrokes ↔
      driverKey s.keyBoard keyTemp = some k ∧ k ≠ keyTemp := by
    rcases step_cases hStep₁ with ⟨_, h₁, rfl⟩ | ⟨_, h₁, rfl⟩ | ⟨h₁, rfl⟩ <;>
      rw [hPress] at h₁ <;> cases h₁
    rcases step_cases hStep₂ with ⟨_, h₂, rfl⟩ | ⟨_, h₂, rfl⟩ | ⟨h₂, rfl⟩ <;>
      rw [hRelease] at h₂ <;> cases h₂
    intro k
    rw [driverStrokes, List.filterMap_append]
    refine Strokes.mem_down_release.trans (and_congr_left fun _ => ?_)
    rw [List.filterMap_append]
    cases driverKey s.keyBoard keyTemp with
    | none =>
      rw [Option.toList_none, List.map_nil, List.filterMap_nil, List.append_nil]
      refine iff_of_false (fun hk => ?_) fun hk => by cases hk
      exact List.not_mem_nil (hUp ▸ hk)
    | some key =>
      refine Strokes.mem_down_press.trans ?_
      rw [Option.some.injEq]
      refine (or_iff_right fun hk => ?_).trans eq_comm
      exact List.not_mem_nil (hUp ▸ hk)
  rw [← Strokes.down_eq_nil_iff, List.eq_nil_iff_forall_not_mem, ownKey_iff]
  refine forall_congr' fun k => ?_
  rw [hDown k, not_and, not_not]

/-- A `keycode` message. -/
def keyCodeMessage (ud keyTemp : Int) : Value := .obj [("ud", .int ud), ("key", .int keyTemp)]

/-- A thread without tables. -/
def withoutTables (isUpperKey : Bool) : KeyBoardThread := ⟨none, none, isUpperKey, none, 0⟩

/-- Caps is on, and the tables lead the code 91 to itself. -/
def withTables : KeyBoardThread where
  iniParse1 := some { groups := [("ValueName", [("91", "Win")])] }
  iniParse2 := some { groups := [("ValueName", [("Win", "91")])] }
  isUpperKey := true
  keyBoardConfig := none
  gamePid := 0

/-- The letter `A` and the code 91 overlap. -/
def overlapping : List Value :=
  [keyCodeMessage 1 65, keyCodeMessage 1 91, keyCodeMessage 2 65, keyCodeMessage 2 91]

/-- A letter and a code of the tables, with caps on. -/
theorem releases_letter_and_mapped_code :
    ∃ s, Machine.run step ⟨withTables, []⟩ overlapping = some s ∧
      AllReleased s.driverStrokes := by
  obtain ⟨s, hRun⟩ : ∃ s, Machine.run step ⟨withTables, []⟩ overlapping = some s := ⟨_, rfl⟩
  refine ⟨s, hRun, releases_what_it_presses hRun (Strokes.down_eq_nil_iff.mp (by decide)) ?_⟩
  rw [Machine.meetsTaken_iff]
  decide +kernel

/-- With caps on, the code 5 is pressed as 37 and released as 5. -/
theorem digit_stays_down :
    ¬ ∀ roots s, Machine.run step ⟨withoutTables true, []⟩ roots = some s →
      AllReleased (roots.filterMap messageStroke) → AllReleased s.driverStrokes := by
  intro h
  have hReleased : AllReleased ([keyCodeMessage 1 5, keyCodeMessage 2 5].filterMap messageStroke) :=
    Strokes.down_eq_nil_iff.mp (by decide)
  have hUp := Strokes.down_eq_nil_iff.mpr (h _ _ rfl hReleased)
  revert hUp
  decide

end FullKeyboard

-- ---------------------------------------------------------------------------
-- The tables after `start`
-- ---------------------------------------------------------------------------

/-- `OpenFile` on an object that may have a file open: what it returns, and what
is open then. -/
def DealIniFile.reopen (files : String → DealIniFile) (filePath : String) (file : DealIniFile) :
    Int × DealIniFile :=
  if filePath = "" then (-1, file)
  else
    match files filePath with
    | some ini => (0, some ini)
    | none => (-1, none)

namespace KeyBoardThread

/-- After the constructor. -/
def new : KeyBoardThread where
  iniParse1 := none
  iniParse2 := none
  isUpperKey := false
  keyBoardConfig := none
  gamePid := 0

/-- The part of `start` that opens the tables. Both calls are made on
`m_iniParse1`, the second one only when the first has returned 0. -/
def openTables (files : String → DealIniFile) (executePath : String) (st : KeyBoardThread) :
    KeyBoardThread :=
  if executePath = "" then st
  else
    let (ret, iniParse1) :=
      st.iniParse1.reopen files (executePath ++ "/fullKeyboardValueName.ini")
    if ret ≠ 0 then { st with iniParse1 }
    else { st with
      iniParse1 := (iniParse1.reopen files (executePath ++ "/fullKeyboardNameValue.ini")).2 }

/-- `start`: what it returns, and the members that the handlers use. -/
def start (files : String → DealIniFile) (executePath wsUrl loginCommand : String)
    (st : KeyBoardThread) : Bool × KeyBoardThread :=
  if wsUrl = "" ∨ loginCommand = "" then (false, st) else (true, st.openTables files executePath)

/-- What happens to the members that the handlers use. -/
inductive Event where
  | start (files : String → DealIniFile) (executePath wsUrl loginCommand : String)
  | message (parse : String → Option Value) (foreground : Option Nat) (stale : Stale)
      (message : String)
  | setKeyBoardModel (keyBoardConfig : KeyMapper)
  | setGamePid (gamePid : Int)

/-- A handler that throws has changed nothing. -/
def step (st : KeyBoardThread) : Event → Option KeyBoardThread
  | .start files executePath wsUrl loginCommand =>
    some (st.start files executePath wsUrl loginCommand).2
  | .message parse foreground stale message =>
    match messageCallback parse foreground stale message st with
    | .ok (st', _) => some st'
    | .error _ => some st
  | .setKeyBoardModel keyBoardConfig => some { st with keyBoardConfig := some keyBoardConfig }
  | .setGamePid gamePid => some (if gamePid ≠ 0 then { st with gamePid } else st)

/-- The result of a handler leaves the tables as they are. -/
def SameTables (st : KeyBoardThread) (handled : Handled) : Prop :=
  ∀ st' calls, handled = .ok (st', calls) →
    st'.iniParse1 = st.iniParse1 ∧ st'.iniParse2 = st.iniParse2

section

variable {st : KeyBoardThread}

/-- A handler that keeps the tables after each result keeps them. -/
theorem SameTables.bind {α : Type} {x : Except Fault α} {f : α → Handled}
    (h : ∀ a, SameTables st (f a)) : SameTables st (x >>= f) := by
  intro st' calls hOk
  cases x with
  | error e => cases hOk
  | ok a => exact h a st' calls hOk

theorem SameTables.ite {c : Prop} [Decidable c] {x y : Handled} (hx : SameTables st x)
    (hy : SameTables st y) : SameTables st (if c then x else y) := by
  split
  · exact hx
  · exact hy

theorem sameTables_pure (calls : List DriverCall) : SameTables st (pure (st, calls)) := by
  intro st' calls' hOk
  obtain ⟨rfl, rfl⟩ := Prod.mk.inj (Except.ok.inj hOk)
  exact ⟨rfl, rfl⟩

theorem sameTables_config (keyBoardConfig : Option KeyMapper) (calls : List DriverCall) :
    SameTables st (pure ({ st with keyBoardConfig }, calls)) := by
  intro st' calls' hOk
  obtain ⟨rfl, rfl⟩ := Prod.mk.inj (Except.ok.inj hOk)
  exact ⟨rfl, rfl⟩

/-- A press keeps the tables. -/
theorem sameTables_fullKeyboardDown (keyTemp : Int) :
    SameTables st (pure (fullKeyboardDown st keyTemp)) := by
  intro st' calls hOk
  have hState : st' = (fullKeyboardDown st keyTemp).1 :=
    (congrArg Prod.fst (Except.ok.inj hOk)).symm
  rw [hState]
  unfold fullKeyboardDown
  split
  · exact ⟨rfl, rfl⟩
  · dsimp only
    split
    · exact ⟨rfl, rfl⟩
    · dsimp only
      split <;> exact ⟨rfl, rfl⟩

/-- No message changes the tables. -/
theorem sameTables_messageCallback (parse : String → Option Value) (foreground : Option Nat)
    (stale : Stale) (message : String) :
    SameTables st (messageCallback parse foreground stale message st) := by
  have hFull : ∀ root, SameTables st (dealTheFullKeyboardModel root st) := fun root =>
    .bind fun _ => .ite (.bind fun _ => sameTables_fullKeyboardDown _)
      (.ite (.bind fun _ => sameTables_pure _) (sameTables_pure _))
  have hNormal : ∀ root, SameTables st (normalMessage root st) := fun root =>
    .bind fun _ => .bind fun _ => .ite
      (.ite (.bind fun _ => sameTables_pure _) (.ite (.bind fun _ => sameTables_pure _)
        (.ite (.bind fun _ => sameTables_pure _) (.ite (.bind fun _ => sameTables_pure _)
          (.ite (.bind fun _ => sameTables_pure _) (sameTables_pure _))))))
      (sameTables_pure _)
  have hGamepad : ∀ root, SameTables st (gamepadMessage root st) := fun root => by
    refine .bind fun f => ?_
    split
    · exact sameTables_pure _
    · exact .ite (sameTables_config _ _) (.ite (sameTables_config _ _)
        (.ite (sameTables_config _ _) (sameTables_pure _)))
  have hMessage : ∀ root, SameTables st (dealTheMessage root stale st) := fun root =>
    .bind fun _ => .ite (.bind fun _ => sameTables_pure _) (.ite (hFull root)
      (.bind fun _ => .ite (hNormal root) (.ite (hGamepad root) (sameTables_pure _))))
  unfold messageCallback
  refine .ite (.ite ?_ (sameTables_pure _)) (sameTables_pure _)
  split
  · exact hMessage _
  · exact sameTables_pure _

/-- The second table is not opened with the first. -/
theorem openTables_iniParse2 (files : String → DealIniFile) (executePath : String)
    (st : KeyBoardThread) : (st.openTables files executePath).iniParse2 = st.iniParse2 := by
  unfold openTables
  split
  · rfl
  · dsimp only
    split <;> rfl

/-- The second table is not opened by `start`. -/
theorem start_iniParse2 (files : String → DealIniFile)
    (executePath wsUrl loginCommand : String) (st : KeyBoardThread) :
    (st.start files executePath wsUrl loginCommand).2.iniParse2 = st.iniParse2 := by
  unfold start
  split
  · rfl
  · exact openTables_iniParse2 files executePath st

/-- With both files there, the table of the names is closed again and the one of
the values takes its place. -/
theorem openTables_iniParse1 {files : String → DealIniFile} {executePath : String}
    {valueName nameValue : Ini} (hPath : executePath ≠ "")
    (hFirst : files (executePath ++ "/fullKeyboardValueName.ini") = some valueName)
    (hSecond : files (executePath ++ "/fullKeyboardNameValue.ini") = some nameValue)
    (st : KeyBoardThread) : (st.openTables files executePath).iniParse1 = some nameValue := by
  have hNe : ∀ name, executePath ++ name ≠ "" := by
    intro name hEmpty
    have hLength := congrArg String.length hEmpty
    rw [String.length_append] at hLength
    exact hPath (String.length_eq_zero_iff.mp (Nat.eq_zero_of_add_eq_zero_right hLength))
  simp only [openTables, if_neg hPath, DealIniFile.reopen, if_neg (hNe _), hFirst, hSecond]
  rfl

/-- Nothing ever opens a file in `m_iniParse2`. -/
theorem iniParse2_step (st : KeyBoardThread) (e : Event) (st' : KeyBoardThread)
    (h : st.iniParse2 = none) (hStep : st.step e = some st') : st'.iniParse2 = none := by
  cases e with
  | start files executePath wsUrl loginCommand =>
    obtain rfl := Option.some.inj hStep
    exact (start_iniParse2 files executePath wsUrl loginCommand st).trans h
  | message parse foreground stale message =>
    unfold step at hStep
    dsimp only at hStep
    split at hStep
    · rename_i hOk
      obtain rfl := Option.some.inj hStep
      exact (sameTables_messageCallback parse foreground stale message _ _ hOk).2.trans h
    · obtain rfl := Option.some.inj hStep
      exact h
  | setKeyBoardModel keyBoardConfig =>
    obtain rfl := Option.some.inj hStep
    exact h
  | setGamePid gamePid =>
    obtain rfl := Option.some.inj hStep
    split
    · exact h
    · exact h

/-- The `ud` 1 message `root` calls `KeyDown(v)`, and changes the caps state just
when `v` is 20. -/
def FunctionKeyWorks (root : Value) (v : Int) (st : KeyBoardThread) : Prop :=
  ∃ st' calls, dealTheFullKeyboardModel root st = .ok (st', calls) ∧ .keyDown v ∈ calls ∧
    (st'.isUpperKey ≠ st.isUpperKey ↔ v = 20)

/--
**Function keys.** Whatever the two files hold, and whatever has happened to the
thread before `start`, the message that presses a code which is not handled
directly makes no driver call.
-/
theorem function_keys_never_work {es : List Event} {st : KeyBoardThread}
    (hRun : Machine.run step new es = some st) (files : String → DealIniFile)
    (executePath wsUrl loginCommand : String) {root : Value} {k v : Int}
    (hUd : readInt root "ud" = .ok 1) (hKey : (root.index "key" >>= readKey) = .ok k)
    (hDirect : isLeftKeyboardNumberLetter k = false) :
    ¬ FunctionKeyWorks root v (st.start files executePath wsUrl loginCommand).2 := by
  rintro ⟨st', calls, hOk, hCalled, -⟩
  have hTable : (st.start files executePath wsUrl loginCommand).2.iniParse2 = none :=
    (start_iniParse2 ..).trans (Machine.inv_run iniParse2_step rfl hRun)
  generalize (st.start files executePath wsUrl loginCommand).2 = started at hOk hTable
  have hDeal : dealTheFullKeyboardModel root started = .ok (fullKeyboardDown started k) := by
    unfold dealTheFullKeyboardModel
    rw [hUd, hKey]
    rfl
  have hCalls : calls = (fullKeyboardDown started k).2 :=
    congrArg Prod.snd (Except.ok.inj (hOk.symm.trans hDeal))
  have hNone : tableKey started k = 0 := by
    unfold tableKey
    rw [hTable]
    dsimp only
    split <;> rfl
  rw [hCalls, fullKeyboardDown_calls, driverKey, hDirect, hNone] at hCalled
  cases hCalled

/-- Code 112 is `F1` in the first file, and `F1` is key 58 in the second one. -/
def sampleFiles (filePath : String) : DealIniFile :=
  if filePath = "app/fullKeyboardValueName.ini" then some ⟨[("ValueName", [("112", "F1")])]⟩
  else if filePath = "app/fullKeyboardNameValue.ini" then some ⟨[("ValueName", [("F1", "58")])]⟩
  else none

theorem function_keys_never_work_f1 :
    ¬ FunctionKeyWorks (FullKeyboard.keyCodeMessage 1 112) 58
      (new.start sampleFiles "app" "ws://s" "login").2 :=
  have hRun : Machine.run step new [] = some new := rfl
  function_keys_never_work hRun sampleFiles "app" "ws://s" "login" rfl rfl (by decide)

/-- `F1` has both entries, and pressing it does nothing. -/
theorem f1_is_lost :
    (sampleFiles "app/fullKeyboardValueName.ini").getValue "ValueName" "112" = "F1" ∧
      (sampleFiles "app/fullKeyboardNameValue.ini").getValue "ValueName" "F1" = "58" ∧
      ¬ FunctionKeyWorks (FullKeyboard.keyCodeMessage 1 112) 58
        (new.start sampleFiles "app" "ws://s" "login").2 := by
  refine ⟨by decide, by decide, ?_⟩
  rintro ⟨st', calls, hOk, hCalled, -⟩
  have hCalls : calls = [] := (congrArg Prod.snd (Except.ok.inj hOk)).symm
  rw [hCalls] at hCalled
  cases hCalled

end

end KeyBoardThread

end PushStreamer
