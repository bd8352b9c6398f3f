import PushStreamer.Session.StartGame

/-!
# The dispatcher of the control channel

`ParseMessageCallback` receives every text of the control server. A message with
a `type` starts the handler thread of that type when its `code` means success; a
message without one is the answer to a connection, and `code` "0" makes the
client sign in. The two branches judge the code in different ways: `atoi` of it
against 0, and the text against "0".

* `parseMessageCallback_typed`, `parseMessageCallback_untyped` — the two branches.
* `dispatches_exactly_iff` — the texts on which just the success messages start
  a thread.
-/

namespace PushStreamer

open Value

/-- The handler threads, by the message that starts them. -/
inductive HandlerThread where
  | startGame
  | stopGame
  | signIn
  | changeResolution
deriving DecidableEq

def HandlerThread.msgType : HandlerThread → String
  | .startGame => "StartGame"
  | .stopGame => "StopGame"
  | .signIn => "SignIn"
  | .changeResolution => "ChangeResolution"

/-- What the dispatcher does with a message. -/
inductive Dispatch where
  | startThread (handler : HandlerThread) (paramData : String)
  -- `StopReportStatusTimer` and `StartReportStatusTimer`
  | restartReportStatusTimer
  | signInWsService
deriving DecidableEq

/-- The comparisons of `msgType`. -/
def startHandler (msgType rootJsonStr : String) : List Dispatch :=
  if msgType = "StartGame" then [.startThread .startGame rootJsonStr]
  else if msgType = "StopGame" then [.startThread .stopGame rootJsonStr]
  else if msgType = "SignIn" then [.startThread .signIn rootJsonStr, .restartReportStatusTimer]
  else if msgType = "ChangeResolution" then [.startThread .changeResolution rootJsonStr]
  else []

/-- `ParseMessageCallback`. -/
def parseMessageCallback (setup : Setup) (data : String) : Except JsonFailure (List Dispatch) :=
  match setup.parse data with
  | none => pure []
  | some root => do
    if ← root.isMember "type" then
      let msgType ← readText root "type"
      let returnCodeStr ← readText root "code"
      if atoi returnCodeStr ≠ 0 then pure []
      else if msgType ≠ "" then
        if ← root.isMember "data" then
          let data ← root.index "data"
          pure (startHandler msgType (setup.write data))
        else pure []
      else pure []
    else if ← root.isMember "code" then
      let codeStr ← (← root.index "code").asString
      if codeStr = "0" then pure [.signInWsService] else pure []
    else pure []

-- ---------------------------------------------------------------------------
-- What the dispatcher is to accept
-- ---------------------------------------------------------------------------

/-- A message of one of the four types with `data` and the code of success. -/
def SuccessMessage (ms : List (String × Value)) : Prop :=
  (∃ handler : HandlerThread, member ms "type" = .str handler.msgType) ∧
    (ms.lookup "data").isSome = true ∧ member ms "code" = .str "0"

/-- The answer to a connection: no type, and the code of success. -/
def UntypedSuccess (ms : List (String × Value)) : Prop :=
  ms.lookup "type" = none ∧ member ms "code" = .str "0"

/-- A handler thread is started. -/
def StartsThread (result : Except JsonFailure (List Dispatch)) : Prop :=
  ∃ steps handler paramData, result = .ok steps ∧ .startThread handler paramData ∈ steps

/-- A success message starts a thread, and every other text is passed over: the
callback returns and does nothing, or signs in for an untyped success. -/
def DispatchesExactly (setup : Setup) (data : String) : Prop :=
  (StartsThread (parseMessageCallback setup data) ↔
    ∃ ms, setup.parse data = some (.obj ms) ∧ SuccessMessage ms) ∧
  ((¬ ∃ ms, setup.parse data = some (.obj ms) ∧ SuccessMessage ms) →
    parseMessageCallback setup data = .ok [] ∨
    (parseMessageCallback setup data = .ok [.signInWsService] ∧
      ∃ ms, setup.parse data = some (.obj ms) ∧ UntypedSuccess ms))

/-- The members that the dispatcher judges have the types that it needs, and the
numeric value of the code decides as its text does. -/
def JudgedAlike (ms : List (String × Value)) : Prop :=
  (ms.lookup "type" = none ∧ Text (member ms "code")) ∨
  ∃ msgType code, member ms "type" = .str msgType ∧ member ms "code" = .str code ∧
    (atoi code = 0 → code = "0" ∨ startHandler msgType "" = [] ∨ ms.lookup "data" = none)

/-! ## The four types -/

theorem startHandler_msgType (handler : HandlerThread) (rootJsonStr : String) :
    .startThread handler rootJsonStr ∈ startHandler handler.msgType rootJsonStr := by
  cases handler with
  | _ => simp [startHandler, HandlerThread.msgType]

/-- A type that starts anything is one of the four. -/
theorem startHandler_ne_nil {msgType rootJsonStr : String}
    (h : startHandler msgType rootJsonStr ≠ []) :
    ∃ handler : HandlerThread, msgType = handler.msgType := by
  unfold startHandler at h
  split at h
  · exact ⟨.startGame, by assumption⟩
  split at h
  · exact ⟨.stopGame, by assumption⟩
  split at h
  · exact ⟨.signIn, by assumption⟩
  split at h
  · exact ⟨.changeResolution, by assumption⟩
  · exact absurd rfl h

theorem startHandler_eq_nil_iff {msgType rootJsonStr : String} :
    startHandler msgType rootJsonStr = [] ↔
      ∀ handler : HandlerThread, msgType ≠ handler.msgType := by
  constructor
  · rintro hNil handler rfl
    have hMem := startHandler_msgType handler rootJsonStr
    rw [hNil] at hMem
    cases hMem
  · intro hNone
    by_contra hNe
    obtain ⟨handler, hType⟩ := startHandler_ne_nil hNe
    exact hNone handler hType

/-! ## The two branches -/

section

variable {setup : Setup} {data : String} {root : Value} {ms : List (String × Value)}

/-- A root without members: `isMember` asserts. -/
theorem parseMessageCallback_error {failure : JsonFailure} (hParse : setup.parse data = some root)
    (hMs : root.members = .error failure) :
    parseMessageCallback setup data = .error failure := by
  rw [parseMessageCallback, hParse]
  dsimp only
  rw [isMember, hMs]
  rfl

/-- The text of a code is "0" for that string only. -/
theorem textOf_eq_zero {v : Value} : v.textOf = "0" ↔ v = .str "0" := by
  cases v with
  | str s => simp [textOf, asString, Except.toOption]
  | bool b =>
    cases b with
    | _ => simp [textOf, asString, Except.toOption]
  | _ => simp [textOf, asString, Except.toOption]

/-- Without a type: the code is compared as a text, and must convert to one. -/
theorem parseMessageCallback_untyped (hParse : setup.parse data = some root)
    (hMs : root.members = .ok ms) (hType : ms.lookup "type" = none) :
    (Text (member ms "code") → parseMessageCallback setup data =
      .ok (if (member ms "code").textOf = "0" then [.signInWsService] else [])) ∧
    (¬ Text (member ms "code") → ∃ failure, parseMessageCallback setup data = .error failure) := by
  have hEq : parseMessageCallback setup data =
      if (ms.lookup "code").isSome = true then (do
        let codeStr ← (member ms "code").asString
        if codeStr = "0" then pure [.signInWsService] else pure [])
      else .ok [] := by
    rw [parseMessageCallback, hParse]
    dsimp only
    rw [isMember_of_members hMs "type", isMember_of_members hMs "code", index_of_members hMs "code",
      hType]
    rfl
  cases hCode : ms.lookup "code" with
  | none =>
    -- no code: nothing is read
    have hNull : member ms "code" = .null := by rw [member, hCode]; rfl
    rw [hEq, hCode, hNull]
    exact ⟨fun _ => rfl, fun hNot => absurd trivial hNot⟩
  | some v =>
    have hMember : member ms "code" = v := by rw [member, hCode]; rfl
    rw [hEq, hCode, if_pos Option.isSome_some, hMember]
    constructor
    · intro hText
      rw [asString_eq hText]
      show (if v.textOf = "0" then _ else _) = _
      split <;> rfl
    · intro hNot
      have hFails : ¬ Returns v.asString := fun hReturns => hNot (returns_asString.mp hReturns)
      obtain ⟨failure, hString⟩ := error_of_not_returns hFails
      rw [hString]
      exact ⟨failure, rfl⟩

/-- With a type, type and code are read as strings. -/
theorem parseMessageCallback_of_type (hParse : setup.parse data = some root)
    (hMs : root.members = .ok ms) (hType : ms.lookup "type" ≠ none) :
    parseMessageCallback setup data = (do
      let msgType ← (member ms "type").asCString
      let returnCodeStr ← (member ms "code").asCString
      if atoi returnCodeStr ≠ 0 then pure []
      else if msgType ≠ "" then
        if (ms.lookup "data").isSome = true then
          pure (startHandler msgType (setup.write (member ms "data")))
        else pure []
      else pure []) := by
  have hIs : (ms.lookup "type").isSome = true := Option.isSome_iff_ne_none.mpr hType
  rw [parseMessageCallback, hParse]
  dsimp only
  rw [isMember_of_members hMs, isMember_of_members hMs, index_of_members hMs, readText, readText,
    index_of_members hMs, index_of_members hMs, hIs]
  rfl

/-- The code is compared as a number. -/
theorem parseMessageCallback_typed (hParse : setup.parse data = some root)
    (hMs : root.members = .ok ms) (hType : ms.lookup "type" ≠ none) {msgType code : String}
    (hMsgType : member ms "type" = .str msgType) (hCode : member ms "code" = .str code) :
    parseMessageCallback setup data = .ok (if atoi code ≠ 0 then [] else
      (ms.lookup "data").elim [] fun v => startHandler msgType (setup.write v)) := by
  rw [parseMessageCallback_of_type hParse hMs hType, hMsgType, hCode]
  show (if atoi code ≠ 0 then _ else _) = _
  by_cases hZero : atoi code = 0
  · rw [if_neg (not_not.mpr hZero), if_neg (not_not.mpr hZero)]
    by_cases hEmpty : msgType = ""
    · -- an empty type is none of the four
      rw [if_neg (not_not.mpr hEmpty), hEmpty]
      cases ms.lookup "data" with
      | none => rfl
      | some v => rfl
    · rw [if_pos hEmpty]
      cases hData : ms.lookup "data" with
      | none => rfl
      | some v =>
        have hMember : member ms "data" = v := by rw [member, hData]; rfl
        rw [if_pos Option.isSome_some, hMember]
        rfl
  · rw [if_pos hZero, if_pos hZero]
    rfl

/-- Where one of the two is no string, the reading of it fails. -/
theorem parseMessageCallback_not_strings (hParse : setup.parse data = some root)
    (hMs : root.members = .ok ms) (hType : ms.lookup "type" ≠ none)
    (hNot : ¬ ∃ msgType code, member ms "type" = .str msgType ∧ member ms "code" = .str code) :
    ∃ failure, parseMessageCallback setup data = .error failure := by
  refine error_of_not_returns fun hReturns => hNot ?_
  rw [parseMessageCallback_of_type hParse hMs hType, returns_bind] at hReturns
  obtain ⟨_, hTypeText, hRest⟩ := hReturns
  obtain ⟨_, hCodeText, -⟩ := returns_bind.mp hRest
  obtain ⟨msgType, hMsgType⟩ := returns_asCString.mp ⟨_, hTypeText⟩
  obtain ⟨code, hCode⟩ := returns_asCString.mp ⟨_, hCodeText⟩
  exact ⟨msgType, code, hMsgType, hCode⟩

end

-- ---------------------------------------------------------------------------
-- When just the success messages start a thread
-- ---------------------------------------------------------------------------

section

variable {setup : Setup} {data : String} {root : Value} {ms : List (String × Value)}

theorem not_startsThread_nil : ¬ StartsThread (.ok []) := by
  rintro ⟨steps, handler, paramData, hOk, hMem⟩
  obtain rfl := Except.ok.inj hOk
  cases hMem

/-- A failure on another text breaks the contract. -/
theorem not_dispatchesExactly_of_error
    (hFails : ∃ failure, parseMessageCallback setup data = .error failure)
    (hOther : ∀ ms, setup.parse data = some (.obj ms) → ¬ SuccessMessage ms) :
    ¬ DispatchesExactly setup data := by
  obtain ⟨failure, hFails⟩ := hFails
  rintro ⟨-, hPassed⟩
  have hNone : ¬ ∃ ms, setup.parse data = some (.obj ms) ∧ SuccessMessage ms :=
    fun ⟨ms, hParse, hSuccess⟩ => hOther ms hParse hSuccess
  rcases hPassed hNone with hNil | ⟨hSign, -⟩
  · rw [hFails] at hNil
    cases hNil
  · rw [hFails] at hSign
    cases hSign

/-- Doing nothing on another text keeps it. -/
theorem dispatchesExactly_of_nil (hNil : parseMessageCallback setup data = .ok [])
    (hOther : ∀ ms, setup.parse data = some (.obj ms) → ¬ SuccessMessage ms) :
    DispatchesExactly setup data := by
  refine ⟨iff_of_false ?_ fun ⟨ms, hParse, hSuccess⟩ => hOther ms hParse hSuccess,
    fun _ => Or.inl hNil⟩
  rw [hNil]
  exact not_startsThread_nil

theorem not_successMessage_of_untyped (hType : ms.lookup "type" = none) : ¬ SuccessMessage ms := by
  rintro ⟨⟨handler, hHandler⟩, -⟩
  rw [member, hType] at hHandler
  cases hHandler

/-- The untyped branch keeps the contract where the code converts to a text. -/
theorem dispatches_untyped (hParse : setup.parse data = some (.obj ms))
    (hType : ms.lookup "type" = none) :
    DispatchesExactly setup data ↔ Text (member ms "code") := by
  obtain ⟨hReads, hFails⟩ := parseMessageCallback_untyped hParse rfl hType
  have hOther : ∀ ms', setup.parse data = some (.obj ms') → ¬ SuccessMessage ms' := by
    intro ms' hParse'
    rw [hParse] at hParse'
    obtain rfl := Value.obj.inj (Option.some.inj hParse')
    exact not_successMessage_of_untyped hType
  constructor
  · intro hExactly
    by_contra hNot
    exact not_dispatchesExactly_of_error (hFails hNot) hOther hExactly
  · intro hText
    have hSteps := hReads hText
    by_cases hZero : (member ms "code").textOf = "0"
    · rw [if_pos hZero] at hSteps
      refine ⟨iff_of_false ?_ fun ⟨ms', hParse', hSuccess⟩ => hOther ms' hParse' hSuccess,
        fun _ => Or.inr ⟨hSteps, ms, hParse, hType, textOf_eq_zero.mp hZero⟩⟩
      rw [hSteps]
      rintro ⟨steps, handler, paramData, hOk, hMem⟩
      obtain rfl := Except.ok.inj hOk
      simp at hMem
    · rw [if_neg hZero] at hSteps
      exact dispatchesExactly_of_nil hSteps hOther

/-- Success, for a message whose type and code are strings. -/
theorem successMessage_iff (hParse : setup.parse data = some (.obj ms)) {msgType code : String}
    (hMsgType : member ms "type" = .str msgType) (hCode : member ms "code" = .str code) :
    (∃ ms', setup.parse data = some (.obj ms') ∧ SuccessMessage ms') ↔
      (∃ handler : HandlerThread, msgType = handler.msgType) ∧ (ms.lookup "data").isSome = true ∧
        code = "0" := by
  constructor
  · rintro ⟨ms', hParse', ⟨handler, hHandler⟩, hData, hZero⟩
    rw [hParse] at hParse'
    obtain rfl := Value.obj.inj (Option.some.inj hParse')
    rw [hMsgType] at hHandler
    rw [hCode] at hZero
    exact ⟨⟨handler, Value.str.inj hHandler⟩, hData, Value.str.inj hZero⟩
  · rintro ⟨⟨handler, hHandler⟩, hData, hZero⟩
    exact ⟨ms, hParse, ⟨handler, by rw [hMsgType, hHandler]⟩, hData, by rw [hCode, hZero]⟩

/-- The typed branch, on a type and a code that are strings. -/
theorem dispatches_typed (hParse : setup.parse data = some (.obj ms))
    (hType : ms.lookup "type" ≠ none) {msgType code : String}
    (hMsgType : member ms "type" = .str msgType) (hCode : member ms "code" = .str code) :
    DispatchesExactly setup data ↔
      (atoi code = 0 → code = "0" ∨ startHandler msgType "" = [] ∨ ms.lookup "data" = none) := by
  have hSteps := parseMessageCallback_typed hParse rfl hType hMsgType hCode
  have hSuccess := successMessage_iff hParse hMsgType hCode
  -- where nothing is started, nothing is to be started
  have hNil : parseMessageCallback setup data = .ok [] →
      ((∃ handler : HandlerThread, msgType = handler.msgType) → (ms.lookup "data").isSome = true →
        code ≠ "0") → DispatchesExactly setup data := by
    intro hNil hNot
    refine dispatchesExactly_of_nil hNil fun ms' hParse' hMessage => ?_
    obtain ⟨hHandler, hData, hZero⟩ := hSuccess.mp ⟨ms', hParse', hMessage⟩
    exact hNot hHandler hData hZero
  by_cases hAtoi : atoi code = 0
  · rw [if_neg (not_not.mpr hAtoi)] at hSteps
    cases hData : ms.lookup "data" with
    | none =>
      rw [hData] at hSteps hNil
      exact iff_of_true (hNil hSteps fun _ hIs => by cases hIs) fun _ => Or.inr (Or.inr rfl)
    | some v =>
      rw [hData] at hSteps hSuccess hNil
      by_cases hHandler : ∃ handler : HandlerThread, msgType = handler.msgType
      · obtain ⟨handler, rfl⟩ := hHandler
        have hStarts : StartsThread (parseMessageCallback setup data) :=
          ⟨_, handler, _, hSteps, startHandler_msgType handler (setup.write v)⟩
        have hNe : startHandler handler.msgType "" ≠ [] := fun hEq =>
          startHandler_eq_nil_iff.mp hEq handler rfl
        constructor
        · intro hExactly _
          obtain ⟨-, -, hZero⟩ := hSuccess.mp (hExactly.1.mp hStarts)
          exact Or.inl hZero
        · intro hJudged
          rcases hJudged hAtoi with hZero | hNo | hNone
          · have hIs := hSuccess.mpr ⟨⟨handler, rfl⟩, rfl, hZero⟩
            exact ⟨iff_of_true hStarts hIs, fun hNot => absurd hIs hNot⟩
          · exact absurd hNo hNe
          · cases hNone
      · have hNo : ∀ handler : HandlerThread, msgType ≠ handler.msgType := fun handler hEq =>
          hHandler ⟨handler, hEq⟩
        rw [Option.elim_some, startHandler_eq_nil_iff.mpr hNo] at hSteps
        exact iff_of_true (hNil hSteps fun hIs => absurd hIs hHandler)
          fun _ => Or.inr (Or.inl (startHandler_eq_nil_iff.mpr hNo))
  · rw [if_pos hAtoi] at hSteps
    refine iff_of_true (hNil hSteps fun _ _ hZero => hAtoi ?_) fun hZero => absurd hZero hAtoi
    rw [hZero]
    decide

/-- An object: both branches together. -/
theorem dispatches_object (hParse : setup.parse data = some (.obj ms)) :
    DispatchesExactly setup data ↔ JudgedAlike ms := by
  unfold JudgedAlike
  by_cases hType : ms.lookup "type" = none
  · rw [dispatches_untyped hParse hType]
    constructor
    · intro hText
      exact Or.inl ⟨hType, hText⟩
    · rintro (⟨-, hText⟩ | ⟨msgType, code, hMsgType, -⟩)
      · exact hText
      · rw [member, hType] at hMsgType
        cases hMsgType
  by_cases hStrings : ∃ msgType code, member ms "type" = .str msgType ∧ member ms "code" = .str code
  · obtain ⟨msgType, code, hMsgType, hCode⟩ := hStrings
    rw [dispatches_typed hParse hType hMsgType hCode]
    constructor
    · intro hJudged
      exact Or.inr ⟨msgType, code, hMsgType, hCode, hJudged⟩
    · rintro (⟨hNone, -⟩ | ⟨msgType', code', hMsgType', hCode', hJudged⟩)
      · exact absurd hNone hType
      · rw [hMsgType] at hMsgType'
        rw [hCode] at hCode'
        obtain rfl := Value.str.inj hMsgType'
        obtain rfl := Value.str.inj hCode'
        exact hJudged
  · -- one of the two accessors asserts
    have hFails := parseMessageCallback_not_strings hParse rfl hType hStrings
    refine iff_of_false (not_dispatchesExactly_of_error hFails fun ms' hObj hSuccess => ?_) ?_
    · rw [hParse] at hObj
      obtain rfl := Value.obj.inj (Option.some.inj hObj)
      obtain ⟨⟨handler, hHandler⟩, -, hZero⟩ := hSuccess
      exact hStrings ⟨_, _, hHandler, hZero⟩
    · rintro (⟨hNone, -⟩ | ⟨msgType, code, hMsgType, hCode, -⟩)
      · exact hType hNone
      · exact hStrings ⟨msgType, code, hMsgType, hCode⟩

/-- **The dispatcher accepts exactly the success messages** of a text just when
the text does not parse, or its root is an object or `null` in which the code of
an untyped message converts to a text, and type and code of a typed one are
strings; there a code that `atoi` reads as 0 must be "0", unless nothing hangs
on it (another type, or no data). -/
theorem dispatches_exactly_iff (setup : Setup) (data : String) :
    DispatchesExactly setup data ↔
      ∀ root, setup.parse data = some root → ∃ ms, root.members = .ok ms ∧ JudgedAlike ms := by
  cases hParse : setup.parse data with
  | none =>
    have hNil : parseMessageCallback setup data = .ok [] := by
      rw [parseMessageCallback, hParse]
      rfl
    refine iff_of_true (dispatchesExactly_of_nil hNil fun ms hSome => ?_) (by simp)
    rw [hParse] at hSome
    cases hSome
  | some root =>
    have hRoot : (∀ root', some root = some root' → ∃ ms, root'.members = .ok ms ∧ JudgedAlike ms) ↔
        ∃ ms, root.members = .ok ms ∧ JudgedAlike ms := by simp
    rw [hRoot]
    -- a root without members is no object
    have hWrong : ∀ failure, root.members = .error failure →
        ¬ DispatchesExactly setup data ∧ ¬ ∃ ms, root.members = .ok ms ∧ JudgedAlike ms := by
      intro failure hMs
      have hFailed := parseMessageCallback_error hParse hMs
      refine ⟨not_dispatchesExactly_of_error ⟨failure, hFailed⟩ ?_, ?_⟩
      · intro ms hObj
        rw [hParse] at hObj
        obtain rfl := Option.some.inj hObj
        cases hMs
      · rintro ⟨ms, hOk, -⟩
        rw [hMs] at hOk
        cases hOk
    cases root with
    | null =>
      have hSteps := (parseMessageCallback_untyped hParse members_null rfl).1 trivial
      rw [if_neg (by decide)] at hSteps
      refine iff_of_true (dispatchesExactly_of_nil hSteps fun ms hObj => ?_)
        ⟨[], rfl, Or.inl ⟨rfl, trivial⟩⟩
      rw [hParse] at hObj
      cases hObj
    | obj ms =>
      have hMembers : (∃ ms', (Value.obj ms).members = .ok ms' ∧ JudgedAlike ms') ↔
          JudgedAlike ms := by simp
      exact (dispatches_object hParse).trans hMembers.symm
    | int n => exact iff_of_false (hWrong _ rfl).1 (hWrong _ rfl).2
    | uint n => exact iff_of_false (hWrong _ rfl).1 (hWrong _ rfl).2
    | real q => exact iff_of_false (hWrong _ rfl).1 (hWrong _ rfl).2
    | str s => exact iff_of_false (hWrong _ rfl).1 (hWrong _ rfl).2
    | bool b => exact iff_of_false (hWrong _ rfl).1 (hWrong _ rfl).2
    | arr xs => exact iff_of_false (hWrong _ rfl).1 (hWrong _ rfl).2

end

-- the answer of a server that could not start a game
def busyReply : String := "\x7b\"type\":\"StartGame\",\"code\":\"busy\",\"data\":\x7b\x7d\x7d"

def busySetup : Setup :=
  { sampleSetup with
    parse := fun data => if data = busyReply then
      some (.obj [("type", .str "StartGame"), ("code", .str "busy"), ("data", .obj [])]) else none
    parse_empty := by decide }

/-- `atoi` reads "busy" as 0: the error is taken for a success, and a game is
started. -/
theorem error_reply_starts_game :
    StartsThread (parseMessageCallback busySetup busyReply) ∧
      ¬ DispatchesExactly busySetup busyReply := by
  have hParse : busySetup.parse busyReply =
      some (.obj [("type", .str "StartGame"), ("code", .str "busy"), ("data", .obj [])]) := by
    show (if busyReply = busyReply then _ else none) = _
    exact if_pos rfl
  have hSteps := parseMessageCallback_typed hParse rfl (by decide) rfl rfl
  rw [if_neg (by decide)] at hSteps
  have hStarts : StartsThread (parseMessageCallback busySetup busyReply) :=
    ⟨_, .startGame, _, hSteps, startHandler_msgType .startGame _⟩
  refine ⟨hStarts, fun hExactly => ?_⟩
  obtain ⟨ms, hObj, -, -, hZero⟩ := hExactly.1.mp hStarts
  rw [hParse] at hObj
  obtain rfl := Value.obj.inj (Option.some.inj hObj)
  exact absurd (Value.str.inj hZero) (by decide)

end PushStreamer
