import PushStreamer.Input.MessageSafety
import PushStreamer.Lib.Machine
import Mathlib.Data.List.Induction

/-!
# Keys and the foreground window

`MessageCallback` drops every message that arrives while the window of the game
is not in the foreground. The down and the up of one key can fall on different
sides of a change of the foreground window, so a key can stay pressed at the
driver after its up was received.

* `callback_key` — what one key message does.
* `calls_eq` — the driver calls of a run are those of the messages that were
  let through.
* `released_key_held_iff` — when a key whose latest message is an up is held.
-/

namespace PushStreamer

open Value

/-- The two kinds of key messages. -/
inductive Edge where
  | down
  | up
deriving DecidableEq

/-- The `ud` of a key message. -/
def Edge.ud : Edge → Int
  | .down => 1
  | .up => 2

/-- The members of a mode-0 message that presses or releases `key`. -/
def KeyMembers (ms : List (String × Value)) (edge : Edge) (key : Int) : Prop :=
  Text (member ms "type") ∧ (member ms "type").textOf ∉ ["joystick", "keycode"] ∧
    FitsInt (member ms "mode") ∧ (member ms "mode").intOf = 0 ∧
    FitsInt (member ms "ud") ∧ (member ms "ud").intOf = edge.ud ∧
    (ms.lookup "key").isSome ∧ readKey (member ms "key") = .ok key

/-- A text that the reader turns into a key message. -/
structure KeyMessage (parse : String → Option Value) where
  text : String
  edge : Edge
  key : Int
  nonempty : text ≠ ""
  reads : ∃ ms, parse text = some (.obj ms) ∧ KeyMembers ms edge key

variable {parse : String → Option Value}

def KeyMessage.call (m : KeyMessage parse) : DriverCall :=
  match m.edge with
  | .down => .keyDown m.key
  | .up => .keyUp m.key

/-- The foreground window changes, or a key message arrives. -/
inductive FocusEvent (parse : String → Option Value) where
  | focus (foreground : Option Nat)
  | deliver (m : KeyMessage parse)

structure FocusState where
  foreground : Option Nat
  thread : KeyBoardThread
  calls : List DriverCall

def FocusState.step (stale : Stale) (s : FocusState) : FocusEvent parse → Option FocusState
  | .focus foreground => some { s with foreground }
  | .deliver m =>
    match messageCallback parse s.foreground stale m.text s.thread with
    | .ok (thread, calls) => some { s with thread, calls := s.calls ++ calls }
    | .error _ => none

/-- A key is held from its `KeyDown` to its next `KeyUp`. -/
def held (k : Int) (calls : List DriverCall) : Bool :=
  calls.foldl (fun h c =>
    if c = .keyDown k then true else if c = .keyUp k then false else h) false

/-- The key messages of a run, each with whether the window of the game was
active when it arrived. -/
def received (thread : KeyBoardThread) :
    Option Nat → List (FocusEvent parse) → List (KeyMessage parse × Bool)
  | _, [] => []
  | _, .focus foreground :: es => received thread foreground es
  | foreground, .deliver m :: es =>
    (m, isGameWindowActive foreground thread) :: received thread foreground es

/-- The messages that were let through. -/
def letThrough (rs : List (KeyMessage parse × Bool)) : List (KeyMessage parse × Bool) :=
  rs.filter (·.2)

/-- The latest message for a key. -/
def latest (k : Int) (rs : List (KeyMessage parse × Bool)) : Option (KeyMessage parse × Bool) :=
  (rs.filter (·.1.key = k)).getLast?

/-! ## One message -/

/-- A key message leads to its driver call exactly when the window of the game
is active, and changes nothing else. -/
theorem callback_key (m : KeyMessage parse) (foreground : Option Nat) (stale : Stale)
    (thread : KeyBoardThread) :
    messageCallback parse foreground stale m.text thread =
      .ok (thread, if isGameWindowActive foreground thread then [m.call] else []) := by
  obtain ⟨ms, hParse, hText, hType, hModeFits, hMode, hUdFits, hUd, hKey, hCode⟩ := m.reads
  have hMs : (obj ms).members = .ok ms := rfl
  unfold messageCallback
  by_cases hActive : isGameWindowActive foreground thread = true
  · rw [if_pos hActive, if_pos hActive, if_pos m.nonempty, hParse]
    show dealTheMessage (obj ms) stale thread = _
    rw [dealTheMessage_mode0 hMs hText hType hModeFits hMode, normalMessage,
      readInt_eq hMs hUdFits, hUd, isMember_of_members hMs, hKey, index_of_members hMs]
    simp only [ofJson_ok, bind, Except.bind, if_true, hCode, KeyMessage.call]
    cases m.edge with
    | down => rfl
    | up => rfl
  · rw [if_neg hActive, if_neg hActive]
    rfl

theorem step_deliver (stale : Stale) (s : FocusState) (m : KeyMessage parse) :
    s.step stale (.deliver m) = some { s with
      calls := s.calls ++ if isGameWindowActive s.foreground s.thread then [m.call] else [] } := by
  rw [FocusState.step, callback_key]

/-! ## A run -/

/-- The driver calls of a run are those of the messages that were let through. -/
theorem calls_eq (stale : Stale) {events : List (FocusEvent parse)} {s s' : FocusState}
    (hRun : Machine.run (FocusState.step stale) s events = some s') :
    s'.calls = s.calls ++
      (letThrough (received s.thread s.foreground events)).map fun r => r.1.call := by
  induction events generalizing s with
  | nil =>
    obtain rfl := Option.some.inj hRun
    simp [received, letThrough]
  | cons e es ih =>
    obtain ⟨s₁, hStep, hRest⟩ := Machine.run_cons.mp hRun
    cases e with
    | focus foreground =>
      obtain rfl := Option.some.inj hStep
      exact ih hRest
    | deliver m =>
      rw [step_deliver] at hStep
      obtain rfl := Option.some.inj hStep
      rw [ih hRest]
      by_cases hActive : isGameWindowActive s.foreground s.thread = true
      · simp [received, letThrough, hActive]
      · simp [received, letThrough, hActive]

/-- Whether a key is held is decided by the latest call for it. -/
theorem held_map_call (k : Int) (rs : List (KeyMessage parse × Bool)) :
    held k (rs.map fun r => r.1.call) = true ↔
      ∃ r, latest k rs = some r ∧ r.1.edge = .down := by
  induction rs using List.reverseRecOn with
  | nil => simp [held, latest]
  | append_singleton rs r ih =>
    have hAppend : held k ((rs ++ [r]).map fun r => r.1.call) =
        if r.1.call = .keyDown k then true
        else if r.1.call = .keyUp k then false
        else held k (rs.map fun r => r.1.call) := by
      simp [held]
    have hLatest : latest k (rs ++ [r]) = if r.1.key = k then some r else latest k rs := by
      by_cases hKey : r.1.key = k
      · simp [latest, hKey]
      · simp [latest, hKey]
    rw [hAppend, hLatest]
    by_cases hKey : r.1.key = k
    · -- the last message is one for this key
      cases hEdge : r.1.edge with
      | down => simp [KeyMessage.call, hEdge, hKey]
      | up => simp [KeyMessage.call, hEdge, hKey]
    · have hDown : r.1.call ≠ .keyDown k := by
        cases hEdge : r.1.edge <;> simp [KeyMessage.call, hEdge, hKey]
      have hUp : r.1.call ≠ .keyUp k := by
        cases hEdge : r.1.edge <;> simp [KeyMessage.call, hEdge, hKey]
      rw [if_neg hDown, if_neg hUp, if_neg hKey]
      exact ih

/-- A latest message that was let through is the latest of those let through. -/
theorem latest_letThrough {k : Int} {rs : List (KeyMessage parse × Bool)} {m : KeyMessage parse}
    (h : latest k rs = some (m, true)) : latest k (letThrough rs) = some (m, true) := by
  obtain ⟨ys, hys⟩ := List.getLast?_eq_some_iff.mp h
  have hFilter : (letThrough rs).filter (·.1.key = k) = letThrough ys ++ [(m, true)] := by
    have hComm : (letThrough rs).filter (·.1.key = k) =
        letThrough (rs.filter (·.1.key = k)) := by
      unfold letThrough
      rw [List.filter_filter, List.filter_filter]
      simp only [Bool.and_comm]
    rw [hComm, hys]
    simp [letThrough]
  rw [latest, hFilter, List.getLast?_concat]

/--
**Held after its up.** After any run of focus changes and key messages, a key
whose latest message is an up is held at the driver if and only if that up
arrived while the window of the game was not active, and the latest of the
key's messages that did arrive while it was active was a down.
-/
theorem released_key_held_iff (stale : Stale) (thread : KeyBoardThread) (foreground : Option Nat)
    {events : List (FocusEvent parse)} {s : FocusState} {k : Int} {m : KeyMessage parse}
    {active : Bool}
    (hRun : Machine.run (FocusState.step stale) ⟨foreground, thread, []⟩ events = some s)
    (hLatest : latest k (received thread foreground events) = some (m, active))
    (hUp : m.edge = .up) :
    held k s.calls = true ↔ active = false ∧
      ∃ r, latest k (letThrough (received thread foreground events)) = some r ∧
        r.1.edge = .down := by
  rw [calls_eq stale hRun]
  show held k ([] ++ _) = true ↔ _
  rw [List.nil_append, held_map_call]
  refine (and_iff_right_of_imp fun ⟨r, hr, hDown⟩ => ?_).symm
  cases active with
  | false => rfl
  | true =>
    -- the up itself was let through, so it is the latest of those
    obtain rfl := Option.some.inj ((latest_letThrough hLatest).symm.trans hr)
    rw [hUp] at hDown
    cases hDown

/-! ## A key that stays pressed -/

/-- No key whose latest message is an up is held at the end. -/
def NoStuckKeys (stale : Stale) (thread : KeyBoardThread) (foreground : Option Nat)
    (events : List (FocusEvent parse)) : Prop :=
  ∀ s, Machine.run (FocusState.step stale) ⟨foreground, thread, []⟩ events = some s →
    ∀ k m active, latest k (received thread foreground events) = some (m, active) →
      m.edge = .up → held k s.calls = false

/-- The reader for the two messages of the key 65. -/
def readsKey65 (text : String) : Option Value :=
  if text = "\x7b\"key\":65,\"ud\":1\x7d" then some (.obj [("key", .int 65), ("ud", .int 1)])
  else if text = "\x7b\"key\":65,\"ud\":2\x7d" then
    some (.obj [("key", .int 65), ("ud", .int 2)])
  else none

def down65 : KeyMessage readsKey65 where
  text := "\x7b\"key\":65,\"ud\":1\x7d"
  edge := .down
  key := 65
  nonempty := by decide
  reads := ⟨_, rfl, trivial, by decide, trivial, rfl, trivial, rfl, rfl, rfl⟩

def up65 : KeyMessage readsKey65 where
  text := "\x7b\"key\":65,\"ud\":2\x7d"
  edge := .up
  key := 65
  nonempty := by decide
  reads := ⟨_, rfl, trivial, by decide, trivial, rfl, trivial, rfl, rfl, rfl⟩

/-- The key goes down in the game and up in another window. -/
def upElsewhere : List (FocusEvent readsKey65) :=
  [.focus (some 7), .deliver down65, .focus (some 8), .deliver up65]

/-- The key is held at the end, by the rule. -/
theorem released_key_held_elsewhere :
    held 65 [.keyDown 65] = true ↔ false = false ∧
      ∃ r, latest 65 (letThrough (received threadOfGame none upElsewhere)) = some r ∧
        r.1.edge = .down :=
  released_key_held_iff ⟨0, Vector.replicate 16 0⟩ threadOfGame none
    (s := ⟨some 8, threadOfGame, [.keyDown 65]⟩) (m := up65) rfl rfl rfl

/-- The up that arrives in another window is dropped, and the key stays held. -/
theorem up_elsewhere_leaves_key_held :
    ¬ NoStuckKeys ⟨0, Vector.replicate 16 0⟩ threadOfGame none upElsewhere := by
  intro h
  have hHeld := h ⟨some 8, threadOfGame, [.keyDown 65]⟩ rfl 65 up65 false rfl rfl
  revert hHeld
  decide

end PushStreamer
