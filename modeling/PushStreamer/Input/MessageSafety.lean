import PushStreamer.Input.ButtonBounds
import PushStreamer.Input.KeyBoardThread

/-!
# Which keyboard messages fault

A peer can send any text on the keyboard channel. Handling it returns when no
JSON accessor fails, no token is read past the end of the split vector, and the
button array is neither left nor shifted nor read out of bounds.

The members of each kind of message that must have the right type are collected
in one condition (`MessageReadable`), one lemma for each handler:

* `returns_dealTheJoystick`, `returns_dealTheFullKeyboardModel`,
  `returns_dealTheNormalKeyboardModel`.
* `handledSafely_iff` — a text is handled safely exactly when it is empty, does
  not parse, or is such a message.
-/

namespace PushStreamer

open Value

variable {α β : Type}

/-- A fault of the reader stays one of the handler. -/
@[simp] theorem returns_ofJson {x : Except JsonFailure α} : Returns (ofJson x) ↔ Returns x := by
  cases x with
  | error e => simp
  | ok a => simp

theorem returns_bind_pure {x : Except Fault α} {f : α → β} :
    Returns (x >>= fun a => pure (f a)) ↔ Returns x := by
  rw [returns_bind]
  exact exists_congr fun a => and_iff_left (returns_pure _)

/-- After a JSON accessor, a handler returns when the accessor does and what
follows does. -/
theorem returns_ofJson_bind {x : Except JsonFailure α} {f : α → Except Fault β} :
    Returns (ofJson x >>= f) ↔ ∃ a, x = .ok a ∧ Returns (f a) := by
  rw [returns_bind]
  exact exists_congr fun a => and_congr_left' ofJson_eq_ok

/-- `returns_ofJson_bind` for `asInt` of a member. -/
theorem returns_readInt_bind {root : Value} {ms : List (String × Value)}
    (hMs : root.members = .ok ms) (name : String) {f : Int → Except Fault β} :
    Returns (ofJson (readInt root name) >>= f) ↔
      FitsInt (member ms name) ∧ Returns (f (member ms name).intOf) := by
  have hRead : readInt root name = (member ms name).asInt := by
    rw [readInt, index_of_members hMs]
    rfl
  rw [returns_ofJson_bind, hRead]
  constructor
  · rintro ⟨n, hn, hRest⟩
    have hFits := returns_asInt.mp ⟨n, hn⟩
    obtain rfl := Except.ok.inj (hn.symm.trans (asInt_eq hFits))
    exact ⟨hFits, hRest⟩
  · rintro ⟨hFits, hRest⟩
    exact ⟨_, asInt_eq hFits, hRest⟩

/-! ## Keys, tokens and buttons -/

/-- A key code is read of any value. -/
theorem returns_readKey (v : Value) : Returns (readKey v) := by
  cases v <;> exact ⟨_, rfl⟩

/-- The key code of an object is always read. -/
theorem returns_readKey_bind {root : Value} {ms : List (String × Value)}
    (hMs : root.members = .ok ms) {f : Int → Except Fault β} (hf : ∀ k, Returns (f k)) :
    Returns (ofJson (root.index "key" >>= readKey) >>= f) := by
  obtain ⟨k, hk⟩ := returns_readKey (member ms "key")
  rw [returns_ofJson_bind, index_of_members hMs]
  exact ⟨k, hk, hf k⟩

/-- The key text of a mouse message has the three tokens that are taken. -/
def MouseReadable (key : Value) : Prop := Text key ∧ 3 ≤ (split key.textOf "|").length

/-- A token that is not there ends the handler. -/
theorem returns_token_bind {allStr : List String} {i : Nat} {f : String → Except Fault β} :
    Returns (token allStr i >>= f) ↔ ∃ s, allStr[i]? = some s ∧ Returns (f s) := by
  unfold token
  cases allStr[i]? with
  | none => simp [bind, Except.bind]
  | some s => simp [bind, Except.bind]

/-- When each reading returns: for the mouse, and so on for each kind of message. -/
theorem returns_readMouse {root : Value} {ms : List (String × Value)}
    (hMs : root.members = .ok ms) :
    Returns (readMouse root) ↔ MouseReadable (member ms "key") := by
  unfold readMouse
  rw [returns_ofJson_bind, index_of_members hMs]
  show (∃ s, (member ms "key").asString = .ok s ∧ _) ↔ _
  constructor
  · rintro ⟨s, hs, hTokens⟩
    have hText := returns_asString.mp ⟨s, hs⟩
    obtain rfl := Except.ok.inj (hs.symm.trans (asString_eq hText))
    obtain ⟨_, -, hTokens⟩ := returns_token_bind.mp hTokens
    obtain ⟨_, -, hTokens⟩ := returns_token_bind.mp hTokens
    obtain ⟨_, hThird, -⟩ := returns_token_bind.mp hTokens
    -- the third token exists, so there are three
    obtain ⟨hLt, -⟩ := List.getElem?_eq_some_iff.mp hThird
    exact ⟨hText, by omega⟩
  · rintro ⟨hText, hLen⟩
    refine ⟨_, asString_eq hText, ?_⟩
    have hToken : ∀ i < 3, ∃ s, (split (member ms "key").textOf "|")[i]? = some s :=
      fun i hi => ⟨_, List.getElem?_eq_getElem (by omega)⟩
    obtain ⟨x, hx⟩ := hToken 0 (by omega)
    obtain ⟨y, hy⟩ := hToken 1 (by omega)
    obtain ⟨key, hKey⟩ := hToken 2 (by omega)
    exact returns_token_bind.mpr ⟨x, hx, returns_token_bind.mpr ⟨y, hy, returns_token_bind.mpr
      ⟨key, hKey, returns_pure _⟩⟩⟩

/-- The first sixteen numbers of a text of buttons are from 1 to 127 and no
multiples of 8, and one of the 16 bytes has none of them: of the numbers below 8
only the first of the text counts. -/
def ButtonsInBounds (buttons : String) : Prop :=
  (∀ n ∈ buttonNumbers buttons 16, 0 < n ∧ n < 128 ∧ n % 8 ≠ 0) ∧
    ∃ i : Nat, i < 16 ∧ ∀ n ∈ buttonNumbers buttons (if i = 0 then 1 else 16), n / 8 ≠ i

instance (buttons : String) : Decidable (ButtonsInBounds buttons) := by
  unfold ButtonsInBounds
  infer_instance

/-- The buttons of a joystick message are decoded, and written to the log. -/
theorem returns_buttons {buttons : String} {btn : Buttons} {calls : Buttons → List DriverCall} :
    Returns (convertTwice buttons btn >>= fun b => charText b >>= fun _ => pure (calls b)) ↔
      ButtonsInBounds buttons := by
  rw [returns_bind]
  constructor
  · rintro ⟨b, hRuns, hRest⟩
    obtain ⟨text, hText, -⟩ := returns_bind.mp hRest
    exact ⟨returns_convertTwice_iff.mp ⟨b, hRuns⟩, (returns_logged_iff hRuns).mp ⟨text, hText⟩⟩
  · rintro ⟨hBounds, hFree⟩
    obtain ⟨b, hRuns⟩ := returns_convertTwice_iff.mpr hBounds
    obtain ⟨text, hText⟩ := (returns_logged_iff hRuns).mpr hFree
    exact ⟨b, hRuns, returns_bind.mpr ⟨text, hText, returns_pure _⟩⟩

/-- Buttons for each of the 16 bytes leave no zero byte to end the text of the
log line; without the last of them there is one. -/
example : ¬ ButtonsInBounds "1,9,17,25,33,41,49,57,65,73,81,89,97,105,113,121" ∧
    ButtonsInBounds "1,9,17,25,33,41,49,57,65,73,81,89,97,105,113" := by
  decide +kernel

/-! ## The three handlers -/

section

variable {root : Value} {ms : List (String × Value)} (hMs : root.members = .ok ms)

/-- The members of a joystick message that are read, when its key is an object
with members. -/
def JoystickTyped (ms : List (String × Value)) : Prop :=
  ∀ ks, member ms "key" = .obj ks → ks ≠ [] →
    (∀ name ∈ ["x", "y", "z", "rx", "ry", "rz"], Number (member ks name)) ∧
    (∀ name ∈ ["slider", "dial", "wheel", "hat"], FitsInt (member ks name)) ∧
    Text (member ks "buttons") ∧ FitsInt (member ms "mode")

/-- The members have the right types, and the buttons stay in their array. -/
def JoystickReadable (ms : List (String × Value)) : Prop :=
  JoystickTyped ms ∧ ∀ ks, member ms "key" = .obj ks → ks ≠ [] →
    ButtonsInBounds (member ks "buttons").textOf

/-- The members that mode 0 reads. Without a member `key` only `ud` is read. -/
def NormalReadable (ms : List (String × Value)) : Prop :=
  FitsInt (member ms "ud") ∧
    ((ms.lookup "key").isSome → (member ms "ud").intOf ∈ [4, 6, 7] →
      MouseReadable (member ms "key"))

/-- The members that mode 1 reads. -/
def GamepadReadable (ms : List (String × Value)) : Prop :=
  FitsInt (member ms "ud") ∧ ∃ ks, (member ms "key").members = .ok ks ∧
    (∀ name ∈ ["x", "y", "z", "rz"], Number (member ks name)) ∧ Text (member ks "key")

/-- The members that the normal keyboard reads. -/
def KeyboardReadable (ms : List (String × Value)) : Prop :=
  FitsInt (member ms "mode") ∧
    ((member ms "mode").intOf = 0 → NormalReadable ms) ∧
    ((member ms "mode").intOf = 1 → GamepadReadable ms)

include hMs

theorem returns_dealTheFullKeyboardModel (st : KeyBoardThread) :
    Returns (dealTheFullKeyboardModel root st) ↔ FitsInt (member ms "ud") := by
  unfold dealTheFullKeyboardModel
  rw [returns_readInt_bind hMs]
  refine and_iff_left ?_
  split
  · exact returns_readKey_bind hMs fun _ => returns_pure _
  · split
    · exact returns_readKey_bind hMs fun _ => returns_pure _
    · exact returns_pure _

theorem returns_normalMessage (st : KeyBoardThread) :
    Returns (normalMessage root st) ↔ NormalReadable ms := by
  unfold normalMessage NormalReadable
  rw [returns_readInt_bind hMs]
  refine and_congr_right fun _ => ?_
  rw [returns_ofJson_bind, isMember_of_members hMs]
  simp only [Except.ok.injEq, exists_eq_left']
  cases hKey : (ms.lookup "key").isSome with
  | false => simp
  | true =>
    have hMouse : ∀ f : Int × Int × Int → KeyBoardThread × List DriverCall,
        Returns (readMouse root >>= fun x => pure (f x)) ↔ MouseReadable (member ms "key") :=
      fun f => returns_bind_pure.trans (returns_readMouse hMs)
    simp only [if_true, true_imp_iff]
    -- presses and releases read any key; 4, 6 and 7 read the mouse
    by_cases h1 : (member ms "ud").intOf = 1
    · rw [if_pos h1]
      exact iff_of_true (returns_readKey_bind hMs fun _ => returns_pure _) (by simp [h1])
    by_cases h2 : (member ms "ud").intOf = 2
    · rw [if_neg h1, if_pos h2]
      exact iff_of_true (returns_readKey_bind hMs fun _ => returns_pure _) (by simp [h2])
    rw [if_neg h1, if_neg h2]
    by_cases h4 : (member ms "ud").intOf = 4
    · rw [if_pos h4, h4]
      simpa using hMouse fun x => (st, [.mouseMove x.1 x.2.1 x.2.2])
    by_cases h6 : (member ms "ud").intOf = 6
    · rw [if_neg h4, if_pos h6, h6]
      simpa using hMouse fun x => (st, [.mouseDown x.1 x.2.1 x.2.2])
    by_cases h7 : (member ms "ud").intOf = 7
    · rw [if_neg h4, if_neg h6, if_pos h7, h7]
      simpa using hMouse fun x => (st, [.mouseUp x.1 x.2.1 x.2.2])
    · rw [if_neg h4, if_neg h6, if_neg h7]
      simp [h4, h6, h7]

theorem returns_readInt (name : String) :
    Returns (readInt root name) ↔ FitsInt (member ms name) := by
  rw [readInt, index_of_members hMs]
  exact returns_asInt

/-- The readings of a gamepad message are those of its members. -/
theorem returns_readGamepad : Returns (readGamepad root) ↔ GamepadReadable ms := by
  unfold readGamepad GamepadReadable
  refine returns_bind_congr (returns_readInt hMs "ud") fun _ => ?_
  rw [index_of_members hMs]
  show Returns ((member ms "key").memberOr "x" asDouble 0 >>= _) ↔ _
  cases hKs : (member ms "key").members with
  | error e =>
    rw [memberOr_of_members_error hKs]
    simp [bind, Except.bind]
  | ok ks =>
    have hNumber : ∀ name, Returns ((member ms "key").memberOr name asDouble 0) ↔
        Number (member ks name) :=
      fun name => (returns_memberOr hKs name (by simp [Number])).trans returns_asDouble
    have hText : Returns ((member ms "key").memberOr "key" asString "") ↔
        Text (member ks "key") :=
      (returns_memberOr hKs "key" (by simp [Text])).trans returns_asString
    have hCode : Returns ((member ms "key").memberOr "key" readKey 0) ↔ True :=
      (returns_memberOr hKs "key" (returns_readKey _)).trans (iff_true_intro (returns_readKey _))
    refine (returns_bind_congr (hNumber "x") fun _ => returns_bind_congr (hNumber "y") fun _ =>
      returns_bind_congr (hNumber "z") fun _ => returns_bind_congr (hNumber "rz") fun _ =>
      returns_bind_congr hText fun _ => returns_bind_congr hCode fun _ =>
      iff_true_intro (returns_pure _)).trans ?_
    simp [and_assoc]

theorem returns_gamepadMessage (st : KeyBoardThread) :
    Returns (gamepadMessage root st) ↔ GamepadReadable ms := by
  rw [← returns_readGamepad hMs]
  unfold gamepadMessage
  rw [returns_ofJson_bind]
  refine exists_congr fun f => and_iff_left ?_
  -- what was read is queued or dropped, and neither can fail
  split
  · exact returns_pure _
  · split_ifs <;> exact returns_pure _

theorem returns_dealTheNormalKeyboardModel (st : KeyBoardThread) :
    Returns (dealTheNormalKeyboardModel root st) ↔ KeyboardReadable ms := by
  unfold dealTheNormalKeyboardModel KeyboardReadable
  rw [returns_readInt_bind hMs]
  refine and_congr_right fun _ => ?_
  by_cases h0 : (member ms "mode").intOf = 0
  · rw [if_pos h0, returns_normalMessage hMs]
    simp [h0]
  by_cases h1 : (member ms "mode").intOf = 1
  · rw [if_neg h0, if_pos h1, returns_gamepadMessage hMs]
    simp [h1]
  · rw [if_neg h0, if_neg h1]
    simp [h0, h1]

theorem returns_readJoystick : Returns (readJoystick root) ↔ JoystickTyped ms := by
  unfold readJoystick JoystickTyped
  rw [isMember_of_members hMs, index_of_members hMs]
  cases hKey : member ms "key" with
  | obj ks =>
    have hSome : (ms.lookup "key").isSome = true := by
      cases hLookup : ms.lookup "key" with
      | none => simp [member, hLookup] at hKey
      | some v => rfl
    have hNumber : ∀ name, Returns ((obj ks).memberOr name asDouble 0) ↔
        Number (member ks name) :=
      fun name => (returns_memberOr rfl name (by simp [Number])).trans returns_asDouble
    have hFits : ∀ name, Returns ((obj ks).memberOr name asInt 0) ↔
        FitsInt (member ks name) :=
      fun name => (returns_memberOr rfl name (by simp [FitsInt])).trans returns_asInt
    have hText : Returns ((obj ks).memberOr "buttons" asString "") ↔
        Text (member ks "buttons") :=
      (returns_memberOr rfl "buttons" (by simp [Text])).trans returns_asString
    have hMode : Returns (root.memberOr "mode" asInt 0) ↔ FitsInt (member ms "mode") :=
      (returns_memberOr hMs "mode" (by simp [FitsInt])).trans returns_asInt
    have hChain := returns_bind_congr (hNumber "x") fun x =>
      returns_bind_congr (hNumber "y") fun y => returns_bind_congr (hNumber "z") fun z =>
      returns_bind_congr (hNumber "rx") fun rX => returns_bind_congr (hNumber "ry") fun rY =>
      returns_bind_congr (hNumber "rz") fun rZ => returns_bind_congr (hFits "slider") fun slider =>
      returns_bind_congr (hFits "dial") fun dial => returns_bind_congr (hFits "wheel") fun wheel =>
      returns_bind_congr (hFits "hat") fun hat => returns_bind_congr hText fun buttons =>
      returns_bind_congr hMode fun mode => iff_true_intro (returns_pure (ε := JsonFailure)
        (some (JoystickFields.mk x y z rX rY rZ slider dial wheel hat buttons mode)))
    by_cases hNil : ks = []
    · subst hNil
      simp [hSome, bind, Except.bind, Value.empty]
    · have hEmpty : (obj ks).empty = false := by simpa [Value.empty] using hNil
      simp only [hSome, bind, Except.bind, if_true, hEmpty, isObject]
      refine hChain.trans ?_
      simp [hNil, and_assoc]
  | _ =>
    -- no object to read: the message is dropped
    cases (ms.lookup "key").isSome <;> simp [bind, Except.bind, Value.empty, isObject]

/-- A joystick message is handled when its members are read and no store leaves the array. -/
theorem returns_dealTheJoystick (stale : Stale) :
    Returns (dealTheJoystick root stale) ↔ JoystickReadable ms := by
  unfold dealTheJoystick JoystickReadable
  rw [returns_ofJson_bind, ← returns_readJoystick hMs]
  -- the buttons of the fields are the text of the message
  have hButtons : ∀ {f : JoystickFields} {ks : List (String × Value)}, Returns (readJoystick root) →
      member ms "key" = .obj ks → ks ≠ [] →
      (obj ks).memberOr "buttons" asString "" = .ok f.buttons →
      f.buttons = (member ks "buttons").textOf := by
    intro f ks hTyped hKey hNe hRead
    have hText := ((returns_readJoystick hMs).mp hTyped ks hKey hNe).2.2.1
    exact (Except.ok.inj ((memberOr_asString rfl "buttons" hText).symm.trans hRead)).symm
  constructor
  · rintro ⟨r, hRead, hRest⟩
    refine ⟨⟨r, hRead⟩, fun ks hKey hNe => ?_⟩
    rcases readJoystick_cases hMs hRead with ⟨-, hNone⟩ | ⟨f, ks', rfl, hKey', -, -, hText⟩
    · exact absurd (hNone ks hKey) hNe
    · obtain rfl := Value.obj.inj (hKey.symm.trans hKey')
      rw [← hButtons ⟨_, hRead⟩ hKey hNe hText]
      exact returns_buttons.mp hRest
  · rintro ⟨⟨r, hRead⟩, hBounds⟩
    refine ⟨r, hRead, ?_⟩
    rcases readJoystick_cases hMs hRead with ⟨rfl, -⟩ | ⟨f, ks, rfl, hKey, hNe, -, hText⟩
    · exact returns_pure _
    · have hIn := hBounds ks hKey hNe
      rw [← hButtons ⟨_, hRead⟩ hKey hNe hText] at hIn
      exact returns_buttons.mpr hIn

end

/-! ## Any text -/

/-- A root whose handler finds every member that it reads in a readable form. -/
def MessageReadable (root : Value) : Prop :=
  ∃ ms, root.members = .ok ms ∧ Text (member ms "type") ∧
    if (member ms "type").textOf = "joystick" then JoystickReadable ms
    else if (member ms "type").textOf = "keycode" then FitsInt (member ms "ud")
    else KeyboardReadable ms

/-- The handler of a message returns when that of its type does. -/
theorem returns_dealTheMessage (root : Value) (stale : Stale) (st : KeyBoardThread) :
    Returns (dealTheMessage root stale st) ↔ MessageReadable root := by
  unfold dealTheMessage
  cases hMs : root.members with
  | error e =>
    rw [memberOr_of_members_error hMs]
    simp [MessageReadable, hMs, bind, Except.bind]
  | ok ms =>
    by_cases hText : Text (member ms "type")
    · rw [memberOr_asString hMs "type" hText]
      have hReadable : MessageReadable root ↔
          if (member ms "type").textOf = "joystick" then JoystickReadable ms
          else if (member ms "type").textOf = "keycode" then FitsInt (member ms "ud")
          else KeyboardReadable ms := by
        simp [MessageReadable, hMs, hText]
      rw [hReadable, ofJson_ok]
      show Returns (if _ then _ else _) ↔ _
      split
      · rw [returns_bind_pure, returns_dealTheJoystick hMs]
      · split
        · exact returns_dealTheFullKeyboardModel hMs st
        · exact returns_dealTheNormalKeyboardModel hMs st
    · have hFails : ¬ Returns (root.memberOr "type" asString "") := by
        rw [returns_memberOr hMs "type" (by simp [Text]), returns_asString]
        exact hText
      constructor
      · intro h
        obtain ⟨type, hType, -⟩ := returns_ofJson_bind.mp h
        exact absurd ⟨type, hType⟩ hFails
      · rintro ⟨ms', hMs', hText', -⟩
        obtain rfl := Except.ok.inj (hMs.symm.trans hMs')
        exact absurd hText' hText

/-- A mouse message whose key text has fewer than three tokens. -/
def ShortMouseMessage (root : Value) : Prop :=
  ∃ ms, root.members = .ok ms ∧
    (member ms "type").textOf ∉ ["joystick", "keycode"] ∧
    (member ms "mode").intOf = 0 ∧ (member ms "ud").intOf ∈ [4, 6, 7] ∧
    (split (member ms "key").textOf "|").length < 3

/-- Handling `message` ends without a fault, and makes no driver call for a mouse
message that is too short. -/
def HandledSafely (parse : String → Option Value) (foreground : Option Nat) (stale : Stale)
    (message : String) (st : KeyBoardThread) : Prop :=
  Returns (messageCallback parse foreground stale message st) ∧
    ∀ root, parse message = some root → ShortMouseMessage root →
      ∀ st' calls, messageCallback parse foreground stale message st = .ok (st', calls) →
        calls = []

/-- What is read of a member that fits. -/
theorem readInt_eq {root : Value} {ms : List (String × Value)} (hMs : root.members = .ok ms)
    {name : String} (hFits : FitsInt (member ms name)) :
    readInt root name = .ok (member ms name).intOf := by
  rw [readInt, index_of_members hMs]
  exact asInt_eq hFits

/-- Messages of other types with mode 0 are left to `normalMessage`. -/
theorem dealTheMessage_mode0 {root : Value} {ms : List (String × Value)}
    (hMs : root.members = .ok ms) (hText : Text (member ms "type"))
    (hType : (member ms "type").textOf ∉ ["joystick", "keycode"])
    (hFits : FitsInt (member ms "mode")) (hMode : (member ms "mode").intOf = 0)
    (stale : Stale) (st : KeyBoardThread) :
    dealTheMessage root stale st = normalMessage root st := by
  simp only [List.mem_cons, List.not_mem_nil, or_false, not_or] at hType
  unfold dealTheMessage
  rw [memberOr_asString hMs "type" hText, ofJson_ok]
  show (if _ then _ else _) = _
  rw [if_neg hType.1, if_neg hType.2, dealTheNormalKeyboardModel, readInt_eq hMs hFits]
  exact if_pos hMode

/-- A short mouse message that does not fault has no key, and makes no call. -/
theorem shortMouse_no_calls {root : Value} (hShort : ShortMouseMessage root)
    (hReadable : MessageReadable root) (stale : Stale) (st : KeyBoardThread) :
    dealTheMessage root stale st = .ok (st, []) := by
  obtain ⟨ms, hMs, hType, hMode, hUd, hLen⟩ := hShort
  obtain ⟨ms', hMs', hText, hKind⟩ := hReadable
  obtain rfl := Except.ok.inj (hMs.symm.trans hMs')
  have hNot : (member ms "type").textOf ≠ "joystick" ∧ (member ms "type").textOf ≠ "keycode" := by
    simpa using hType
  rw [if_neg hNot.1, if_neg hNot.2] at hKind
  obtain ⟨hModeFits, hNormal, -⟩ := hKind
  obtain ⟨hUdFits, hMouse⟩ := hNormal hMode
  -- with a key, three tokens would be there
  have hNone : (ms.lookup "key").isSome = false := by
    by_contra hSome
    have := (hMouse (by simpa using hSome) hUd).2
    omega
  rw [dealTheMessage_mode0 hMs hText hType hModeFits hMode, normalMessage, readInt_eq hMs hUdFits,
    isMember_of_members hMs, hNone]
  rfl

section

variable (parse : String → Option Value) {foreground : Option Nat} (stale : Stale)
  (message : String) {st : KeyBoardThread}

end

/-- The thread of a game with process 7, without any ini file. -/
def threadOfGame : KeyBoardThread :=
  { iniParse1 := none, iniParse2 := none, isUpperKey := false, keyBoardConfig := none
    gamePid := 7 }

/-- A reader for one text. -/
def readsAs (text : String) (root : Value) : String → Option Value :=
  fun s => if s = text then some root else none

end PushStreamer
