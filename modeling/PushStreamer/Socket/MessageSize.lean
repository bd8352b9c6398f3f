import PushStreamer.Lib.Machine
import PushStreamer.Socket.Frames

/-!
# The size of a message

`max_message_size` is compared with the size of a message when the header of a
frame has been read: the bytes that are there already, and those that the frame
announces. Their sum is a `size_t`, and nothing bounds what a frame announces.

* `good_turn_iff` — the turns after which the bytes of the message, with those
  that are still to come of the frame, are within the limit.
* `size_bounded_iff` — the runs in which they always are.
* `unbounded` — what a peer can do otherwise.
-/

namespace PushStreamer.Wire

open Endpoint (Bytes Opcode)
open Endpoint.Opcode (isControl)
open Outcome (ok error)

namespace Processor

-- ---------------------------------------------------------------------------
-- The steps of a connection's reading
-- ---------------------------------------------------------------------------

inductive Event where
  -- the transport has read some bytes
  | bytes (l : Bytes)
  -- a turn of `consume`
  | turn
  | getMessage

/-- The processor and the bytes that it has not taken yet. -/
def step (server : Bool) (maxMessageSize : ℕ) (x : Processor × Bytes) :
    Event → Option (Processor × Bytes)
  | .bytes l => if x.2 = [] ∧ x.1.state ≠ .ready then some (x.1, l) else none
  | .turn => if goesOn x then (turn server maxMessageSize x).toOption else none
  | .getMessage => if x.1.state = .ready then some (x.1.getMessage.2, x.2) else none

/-- The bytes of the message that is put together. -/
def stored (p : Processor) : ℕ := (p.dataMsg.map fun m => m.msg.payload.length).getD 0

/-- The bytes of it that are still to come of the frame. -/
def pending (p : Processor) : ℕ :=
  if p.state = .application ∧ p.currentMsg = .dataMsg then p.bytesNeeded else 0

/-- The message is within the limit, with the frame that is read. -/
def Good (maxMessageSize : ℕ) (p : Processor) : Prop := p.stored + p.pending ≤ maxMessageSize

/-- The next turn reads the end of a header that announces so much for a message
that the sum of the sizes is not a `size_t`. -/
def Wraps (x : Processor × Bytes) : Prop :=
  x.1.state = .headerExtended ∧
    let q := (x.1.copyExtendedHeaderBytes x.2).1
    q.bytesNeeded = 0 ∧ isControl q.basicHeader.getOpcode = false ∧ x.1.dataMsg.isSome ∧
      2 ^ 64 ≤ x.1.stored + getPayloadSize q.basicHeader q.extendedHeader

/-- The sum of the sizes is a `size_t`. -/
def NoWrap (x : Processor × Bytes) (e : Event) : Prop := e = .turn → ¬ Wraps x

section

variable {server : Bool} {maxMessageSize : ℕ} {p p' : Processor} {buf buf' : Bytes}

/-- Outside of a payload nothing is pending. -/
theorem pending_eq_zero (h : p.state ≠ .application) : p.pending = 0 := if_neg fun h' => h h'.1

/-- Where no payload is read, only the bytes of the message count. -/
theorem good_iff_stored (h : p.state ≠ .application) :
    Good maxMessageSize p ↔ p.stored ≤ maxMessageSize := by
  rw [Good, pending_eq_zero h, Nat.add_zero]

/-- Only a header that is complete can make the sum wrap. -/
theorem not_wraps (h : p.state ≠ .headerExtended) : ¬ Wraps (p, buf) := fun h' => h h'.1

/-- A basic header adds nothing. -/
theorem good_basicTurn (hState : p.state = .headerBasic) (hGood : Good maxMessageSize p)
    (hTurn : p.basicTurn server buf = .ok (p', buf')) : Good maxMessageSize p' := by
  rw [good_iff_stored (by rw [hState]; decide)] at hGood
  obtain ⟨bh, k, hCopy, -⟩ := copyBasicHeaderBytes_frame p buf
  unfold basicTurn at hTurn
  dsimp only at hTurn
  rw [hCopy] at hTurn
  split at hTurn
  · have hSame : (p.copyBasicHeaderBytes buf).1 = p' :=
      congrArg Prod.fst (Except.ok.inj hTurn)
    rw [← hSame, hCopy, good_iff_stored (by dsimp only; rw [hState]; decide)]
    exact hGood
  · split at hTurn
    · cases hTurn
    · rw [← (Prod.mk.inj (Except.ok.inj hTurn)).1, good_iff_stored (fun h => by cases h)]
      exact hGood

/-- **The end of a header** is where the limit is checked. -/
theorem good_extendedTurn_iff (hMax : maxMessageSize < 2 ^ 64) (hState : p.state = .headerExtended)
    (hGood : Good maxMessageSize p) (hTurn : p.extendedTurn maxMessageSize buf = .ok (p', buf')) :
    Good maxMessageSize p' ↔ ¬ Wraps (p, buf) := by
  rw [good_iff_stored (by rw [hState]; decide)] at hGood
  unfold extendedTurn at hTurn
  dsimp only at hTurn
  set q := (p.copyExtendedHeaderBytes buf).1 with hq
  have hData : q.dataMsg = p.dataMsg := rfl
  split at hTurn
  -- the header is not there yet, and no size was added
  next hMore =>
    rw [← show q = p' from congrArg Prod.fst (Except.ok.inj hTurn),
      good_iff_stored (by rw [show q.state = .headerExtended from hState]; decide)]
    refine iff_of_true hGood fun hWraps => ?_
    exact absurd hWraps.2.1 (Nat.ne_of_gt hMore)
  next hDone =>
    have hZero : q.bytesNeeded = 0 := by omega
    split at hTurn
    · cases hTurn
    obtain ⟨p₁, hOpen, hPair⟩ := of_map_eq_ok hTurn
    obtain ⟨rfl, -⟩ := Prod.mk.inj hPair
    unfold openMessage at hOpen
    dsimp only at hOpen
    split at hOpen
    -- a control message leaves the size of the other one
    next hControl =>
      rw [← Except.ok.inj hOpen]
      refine iff_of_true ?_ fun hWraps => ?_
      · show p.stored + 0 ≤ maxMessageSize
        exact hGood
      · cases hControl.symm.trans hWraps.2.2.1
    next hControl =>
      split at hOpen
      -- a first fragment is compared as it is, so that there is nothing to wrap
      next hNone =>
        split at hOpen
        · cases hOpen
        next hSmall =>
          rw [← Except.ok.inj hOpen]
          refine iff_of_true ?_ fun hWraps => ?_
          · show 0 + getPayloadSize q.basicHeader q.extendedHeader ≤ maxMessageSize
            omega
          · have hSome : p.dataMsg.isSome := hWraps.2.2.2.1
            rw [show p.dataMsg = none from hNone] at hSome
            cases hSome
      -- the sum is taken modulo 2 ^ 64, and is the true one unless it wraps
      next m hSome =>
        split at hOpen
        · cases hOpen
        next hSmall =>
          have hStored : p.stored = m.msg.payload.length := by
            rw [stored, show p.dataMsg = some m from hSome]
            rfl
          have hAfter : Good maxMessageSize p₁ ↔ m.msg.payload.length +
              getPayloadSize q.basicHeader q.extendedHeader ≤ maxMessageSize := by
            rw [← Except.ok.inj hOpen]
            exact Iff.rfl
          have hWraps : Wraps (p, buf) ↔ 2 ^ 64 ≤ m.msg.payload.length +
              getPayloadSize q.basicHeader q.extendedHeader := by
            rw [← hStored]
            constructor
            · exact fun h => h.2.2.2.2
            · exact fun h => ⟨hState, hZero, Bool.eq_false_iff.mpr hControl,
                by rw [show p.dataMsg = some m from hSome]; rfl, h⟩
          rw [hAfter, hWraps]
          constructor
          · intro h
            omega
          · intro h
            rw [Nat.mod_eq_of_lt (by omega)] at hSmall
            omega

/-- Bytes that come to a message are taken from those that are to come. -/
theorem good_added {m : MsgMetadata} {offset : ℕ} {plain : Bytes} (hState : p.state = .application)
    (hCurrent : p.current = some m) (hLe : plain.length ≤ p.bytesNeeded)
    (hGood : Good maxMessageSize p) : Good maxMessageSize (p.added m offset plain) := by
  unfold Good stored pending at hGood ⊢
  unfold current at hCurrent
  cases hWhich : p.currentMsg with
  | controlMsg =>
    rw [added_dataMsg hWhich, added_currentMsg, hWhich]
    rw [hWhich] at hGood
    simpa using hGood
  | dataMsg =>
    rw [hWhich] at hCurrent hGood
    dsimp only at hCurrent
    rw [hCurrent] at hGood
    have hMsg : (p.added m offset plain).dataMsg = some (MsgMetadata.add m p.key offset plain) := by
      unfold added setCurrent
      rw [hWhich]
    have hLength : (MsgMetadata.add m p.key offset plain).msg.payload.length =
        m.msg.payload.length + plain.length := List.length_append
    rw [hMsg, added_currentMsg, hWhich, added_state, hState, added_bytesNeeded]
    rw [hState] at hGood
    simp only [and_self, if_true, Option.map_some, Option.getD_some] at hGood ⊢
    rw [hLength]
    omega

/-- The limit holds on, whatever the state after the frame. -/
theorem Good.of_dataMsg (hGood : Good maxMessageSize p) (hSame : p'.dataMsg = p.dataMsg)
    (hState : p'.state ≠ .application) : Good maxMessageSize p' := by
  rw [good_iff_stored hState, stored, hSame]
  exact Nat.le_trans (Nat.le_add_right _ _) hGood

/-- The end of a frame leaves the message as it is. -/
theorem endOfFrame_dataMsg (h : p.endOfFrame = .ok p') :
    p'.dataMsg = p.dataMsg ∧ p'.state ≠ .application := by
  unfold endOfFrame finalizeMessage at h
  split at h
  · split at h
    · cases h
    · split at h
      · cases h
      · rw [← Except.ok.inj h]
        exact ⟨rfl, fun h' => by cases h'⟩
  · rw [← Except.ok.inj h]
    exact ⟨rfl, fun h' => by cases h'⟩

/-- What is added of a payload was pending before. -/
theorem good_applicationTurn (h : Inv p) (hState : p.state = .application)
    (hGood : Good maxMessageSize p) (hTurn : p.applicationTurn buf = .ok (p', buf')) :
    Good maxMessageSize p' := by
  obtain ⟨m, offset, hCurrent, hPrepared⟩ := h.payload hState
  unfold applicationTurn at hTurn
  dsimp only at hTurn
  split at hTurn
  · cases hTurn
  next p₁ hProcess =>
  -- the bytes that came were announced, whether any came or not
  have hNext : Good maxMessageSize p₁ := by
    split at hProcess
    · rw [processPayloadBytes_eq h.size hCurrent hPrepared] at hProcess
      split at hProcess
      · rw [← Except.ok.inj hProcess]
        refine good_added hState hCurrent ?_ hGood
        rw [length_mask, List.length_take]
        omega
      · cases hProcess
    · rw [← Except.ok.inj hProcess]
      exact hGood
  split at hTurn
  · rw [← (Prod.mk.inj (Except.ok.inj hTurn)).1]
    exact hNext
  · obtain ⟨p₂, hEnd, hPair⟩ := of_map_eq_ok hTurn
    obtain ⟨rfl, -⟩ := Prod.mk.inj hPair
    obtain ⟨hSame, hAfter⟩ := endOfFrame_dataMsg hEnd
    exact hNext.of_dataMsg hSame hAfter

/-- **One turn** keeps to the limit, unless the sum of the sizes wraps. -/
theorem good_turn_iff (hMax : maxMessageSize < 2 ^ 64) {x x' : Processor × Bytes} (h : Inv x.1)
    (hGood : Good maxMessageSize x.1) (hTurn : turn server maxMessageSize x = .ok x') :
    Good maxMessageSize x'.1 ↔ ¬ Wraps x := by
  cases hState : x.1.state with
  | headerBasic =>
    rw [turn_basic hState] at hTurn
    exact iff_of_true (good_basicTurn hState hGood hTurn) (not_wraps (by rw [hState]; decide))
  | headerExtended =>
    rw [turn_extended hState] at hTurn
    exact good_extendedTurn_iff hMax hState hGood hTurn
  | application =>
    rw [turn_application hState] at hTurn
    exact iff_of_true (good_applicationTurn h hState hGood hTurn)
      (not_wraps (by rw [hState]; decide))
  | ready =>
    unfold turn at hTurn
    rw [hState] at hTurn
    cases hTurn

/-- The invariant of the reading is kept. -/
theorem inv_step {x x' : Processor × Bytes} {e : Event} (h : Inv x.1)
    (hStep : step server maxMessageSize x e = some x') : Inv x'.1 := by
  cases e with
  | bytes l =>
    obtain ⟨-, rfl⟩ := Machine.of_guard hStep
    exact h
  | turn =>
    rw [step, Option.ite_none_right_eq_some] at hStep
    cases hTurn : turn server maxMessageSize x with
    | error ec =>
      rw [hTurn] at hStep
      cases hStep.2
    | ok x₁ =>
      rw [hTurn] at hStep
      obtain rfl : x₁ = x' := Option.some.inj hStep.2
      exact inv_turn h hTurn
  | getMessage =>
    obtain ⟨hReady, rfl⟩ := Machine.of_guard hStep
    exact inv_getMessage hReady

/-- A message that is taken is stored no more. -/
theorem good_getMessage (hState : p.state = .ready) (hGood : Good maxMessageSize p) :
    Good maxMessageSize p.getMessage.2 := by
  have hAfter : p.getMessage.2.state ≠ .application := by
    rw [(getMessage_waits hState).1]
    decide
  -- the message that is taken out is the stored one, or the stored one stays
  have hData : p.getMessage.2.dataMsg = p.dataMsg ∨ p.getMessage.2.dataMsg = none := by
    unfold getMessage
    rw [if_neg (not_not.mpr hState)]
    cases hCurrent : p.current with
    | none => exact .inl rfl
    | some m =>
      dsimp only
      unfold setCurrent
      cases p.currentMsg with
      | controlMsg =>
        split
        · exact .inl rfl
        · exact .inr rfl
      | dataMsg =>
        split
        · exact .inr rfl
        · exact .inr rfl
  rcases hData with hSame | hNone
  · exact hGood.of_dataMsg hSame hAfter
  · rw [good_iff_stored hAfter, stored, hNone]
    exact Nat.zero_le _

/-- A step keeps within the limit just when no sum wraps in it. -/
theorem good_step_iff (hMax : maxMessageSize < 2 ^ 64) (x : Processor × Bytes) (e : Event)
    (x' : Processor × Bytes) (h : Inv x.1) (hGood : Good maxMessageSize x.1)
    (hStep : step server maxMessageSize x e = some x') :
    Good maxMessageSize x'.1 ↔ NoWrap x e := by
  cases e with
  | bytes l =>
    obtain ⟨-, rfl⟩ := Machine.of_guard hStep
    exact iff_of_true hGood fun h' => by cases h'
  | turn =>
    rw [step, Option.ite_none_right_eq_some] at hStep
    cases hTurn : turn server maxMessageSize x with
    | error ec =>
      rw [hTurn] at hStep
      cases hStep.2
    | ok x₁ =>
      rw [hTurn] at hStep
      obtain rfl : x₁ = x' := Option.some.inj hStep.2
      exact (good_turn_iff hMax h hGood hTurn).trans ⟨fun h' _ => h', fun h' => h' rfl⟩
  | getMessage =>
    obtain ⟨hReady, rfl⟩ := Machine.of_guard hStep
    exact iff_of_true (good_getMessage hReady hGood) fun h' => by cases h'

/-- A run keeps within the limit just when no sum wraps in it. -/
theorem keeps_iff (hMax : maxMessageSize < 2 ^ 64) {s : Processor × Bytes} {es : List Event}
    (h : Inv s.1) (hGood : Good maxMessageSize s.1) :
    Machine.Keeps (step server maxMessageSize) (fun x => Good maxMessageSize x.1) s es ↔
      Machine.MeetsTaken (step server maxMessageSize) NoWrap s es := by
  have hInv : ∀ (x : Processor × Bytes) (e : Event) (x' : Processor × Bytes), Inv x.1 →
      step server maxMessageSize x e = some x' → Inv x'.1 := fun _ _ _ hx hStep => inv_step hx hStep
  exact Machine.keeps_iff_meets hInv
    (fun x e x' hx hGoodx hStep => good_step_iff hMax x e x' hx hGoodx hStep) h hGood

end

-- ---------------------------------------------------------------------------
-- All along a connection
-- ---------------------------------------------------------------------------

/-- **The limit holds** in all that is read from a connection just when no header
announces so much that the sum of the sizes wraps. -/
theorem size_bounded_iff (server : Bool) {maxMessageSize : ℕ} (hMax : maxMessageSize < 2 ^ 64)
    (es : List Event) :
    Machine.Keeps (step server maxMessageSize) (fun x => Good maxMessageSize x.1) (new, []) es ↔
      Machine.MeetsTaken (step server maxMessageSize) NoWrap (new, []) es :=
  keeps_iff hMax inv_new (Nat.zero_le _)

/-- A fragment of one byte, read to its end: the second turn checks the limit. -/
def fragmentRead : List Event := [.bytes [0x02, 0x01, 7], .turn, .turn, .turn]

theorem size_bounded_fragment :
    ((Machine.run (step false 4) (new, []) fragmentRead).map fun x => x.1.state) =
      some .headerBasic ∧
    (Machine.Keeps (step false 4) (fun x => Good 4 x.1) (new, []) fragmentRead ↔
      Machine.MeetsTaken (step false 4) NoWrap (new, []) fragmentRead) :=
  ⟨by decide, size_bounded_iff false (by decide) _⟩

section

variable {server : Bool} {maxMessageSize : ℕ} {p p' : Processor} {a : Option Fragments}
  {buf : Bytes}

/-- A turn of the loop is a step. -/
theorem run_turn {x x' : Processor × Bytes} (hGo : goesOn x = true)
    (hTurn : turn server maxMessageSize x = .ok x') :
    step server maxMessageSize x .turn = some x' := by
  rw [step, if_pos hGo, hTurn]
  rfl

/-- A read is made of these steps. -/
theorem exists_run {ms : List Message}
    (hPump : pump server maxMessageSize (p, buf) = ⟨ms, .ok p'⟩) :
    ∃ es, Machine.run (step server maxMessageSize) (p, buf) es = some (p', []) := by
  induction hMeasure : measure (p, buf) using Nat.strongRecOn generalizing p buf ms with
  | _ n ih =>
    subst hMeasure
    by_cases hReady : p.state = .ready
    · rw [pump_ready hReady] at hPump
      have hRest : pump server maxMessageSize (p.getMessage.2, buf) =
          ⟨(pump server maxMessageSize (p.getMessage.2, buf)).outputs, .ok p'⟩ := by
        rw [← show (pump server maxMessageSize (p.getMessage.2, buf)).result = .ok p' from
          congrArg Outcome.result hPump]
      obtain ⟨es, hRun⟩ := ih _ (getMessage_measure hReady) hRest rfl
      exact ⟨.getMessage :: es, Machine.run_cons.mpr ⟨_, if_pos hReady, hRun⟩⟩
    by_cases hGo : goesOn (p, buf) = true
    · cases hNext : turn server maxMessageSize (p, buf) with
      | error ec =>
        rw [pump_error hGo hNext] at hPump
        cases congrArg Outcome.result hPump
      | ok x =>
        rw [pump_ok hGo hNext] at hPump
        obtain ⟨es, hRun⟩ := ih _ (turn_decreases _ _ hGo hNext) hPump rfl
        exact ⟨.turn :: es, Machine.run_cons.mpr ⟨x, run_turn hGo hNext, hRun⟩⟩
    · simp only [goesOn, decide_eq_true_eq, not_and, not_or, not_not] at hGo
      obtain ⟨hNil, hNeeded⟩ := hGo hReady
      rw [hNil, pump_wait ⟨hReady, hNeeded⟩] at hPump
      rw [hNil, ← Except.ok.inj (congrArg Outcome.result hPump)]
      exact ⟨[], rfl⟩

/-- **Whatever the transport reads**, the limit holds after it, unless a header was
read that made the sum wrap. -/
theorem read_bounded (hMax : maxMessageSize < 2 ^ 64) {ms : List Message}
    (hPump : pump server maxMessageSize (new, buf) = ⟨ms, .ok p'⟩) :
    Good maxMessageSize p' ∨ ∃ es, ¬ Machine.MeetsTaken (step server maxMessageSize) NoWrap
      (new, buf) es := by
  obtain ⟨es, hRun⟩ := exists_run hPump
  by_cases hMeets : Machine.MeetsTaken (step server maxMessageSize) NoWrap (new, buf) es
  · have hKeeps := (keeps_iff hMax (s := (new, buf)) inv_new (Nat.zero_le _)).mpr hMeets
    exact .inl (hKeeps.good (Nat.zero_le _) hRun)
  · exact .inr ⟨es, hMeets⟩

/-- The first bytes of a payload. -/
theorem pump_opened {bh : BasicHeader} {size : ℕ} {k enc : Bytes} {m : Fragments}
    (h : Opened p bh size k m) (hLt : enc.length < size)
    (hCheck : (checkUtf8 (m.metadata k) (mask k 0 enc)).1 = true) :
    pump server maxMessageSize (p, enc) = ok (p.added (m.metadata k) 0 (mask k 0 enc)) := by
  have hPrepared : (m.metadata k).preparedKey = prepared p.key 0 := by rw [h.key]; rfl
  have hNeeded := h.needed
  by_cases hNil : enc = []
  · subst hNil
    rw [mask_nil, added_nil h.current hPrepared]
    exact pump_wait ⟨by rw [h.state]; decide, by omega⟩
  · have hSome : 0 < enc.length := List.length_pos_iff.mpr hNil
    have hGo : goesOn (p, enc) = true := by simp [goesOn, h.state, hNil]
    have hMin : min p.bytesNeeded enc.length = enc.length := Nat.min_eq_right (by omega)
    have hMore : 0 < (p.added (m.metadata k) 0 (mask k 0 enc)).bytesNeeded := by
      rw [added_bytesNeeded, length_mask]
      omega
    have hTurn : turn server maxMessageSize (p, enc) =
        .ok (p.added (m.metadata k) 0 (mask k 0 enc), []) := by
      rw [turn_application h.state]
      unfold applicationTurn
      dsimp only
      rw [hMin, if_pos hSome, List.take_length, List.drop_length,
        processPayloadBytes_eq h.inv.size h.current hPrepared, h.key, if_pos hCheck]
      exact if_pos hMore
    rw [pump_ok hGo hTurn]
    exact pump_wait ⟨by rw [added_state, h.state]; decide, by omega⟩

end

/-- A fragment of one byte, and a header that announces `2 ^ 64 - 1` more. -/
def firstFragment : Bytes := [0x02, 0x01, 0]
def hugeHeader : Bytes := [0x80, 127, 255, 255, 255, 255, 255, 255, 255, 255]

/-- The first fragment of one byte is read, and its message is under way. -/
theorem read_firstFragment {maxMessageSize : ℕ} (hMax : 1 ≤ maxMessageSize) :
    ∃ p, handleReadFrame false maxMessageSize new firstFragment = ok p ∧
      AtFrame p (some ⟨⟨opBinary, [0]⟩, .new⟩) := by
  have hRead := read_frame false maxMessageSize atFrame_new
    ⟨opBinary, false, false, false, false, none, [0], by decide⟩
  have hAccept : accept false maxMessageSize none
      ⟨opBinary, false, false, false, false, none, [0], by decide⟩ =
        ok (some ⟨⟨opBinary, [0]⟩, .new⟩) := by
    have hSmall : ¬ maxMessageSize < (([] : Bytes).length + [(0 : UInt8)].length) % 2 ^ 64 :=
      Nat.not_lt.mpr hMax
    unfold accept
    rw [show checkFrame false (none : Option Fragments).isNone
      ⟨opBinary, false, false, false, false, none, [0], by decide⟩ = none by decide]
    exact (if_neg (by decide)).trans (if_neg hSmall)
  rw [hAccept] at hRead
  exact hRead.to_ok

/-- **A peer can make the client keep anything**, whatever the limit: the bytes of
a message go on without an end. -/
theorem unbounded {maxMessageSize : ℕ} (hMax : 1 ≤ maxMessageSize) (data : Bytes)
    (hData : data.length < 2 ^ 64 - 1) :
    ∃ p, Transducer.run (handleReadFrame false maxMessageSize) new
        [firstFragment, hugeHeader ++ data] = ok p ∧ p.stored = data.length + 1 := by
  obtain ⟨p, hRead, hAt⟩ := read_firstFragment hMax
  have hLength :
      (List.replicate 8 (255 : UInt8)).length + 2 = BasicHeader.getHeaderLen ⟨0x80, 127⟩ :=
    rfl
  have hSize :
      getPayloadSize ⟨0x80, 127⟩ (.write .empty 0 (List.replicate 8 255)) = 2 ^ 64 - 1 := by
    decide
  have hTurn := turn_twoBytes false maxMessageSize hAt 0x80 127 (List.replicate 8 255 ++ data)
  rw [show validateIncomingBasicHeader ⟨0x80, 127⟩ false (some (⟨⟨opBinary, [0]⟩, .new⟩ :
    Fragments)).isNone = none by decide] at hTurn
  have hNext := turn_header false maxMessageSize hAt ⟨0x80, 127⟩ hLength data
  rw [show validateIncomingExtendedHeader ⟨0x80, 127⟩ (.write .empty 0 (List.replicate 8 255)) =
    none by decide] at hNext
  have hData0 : isControl (BasicHeader.getOpcode ⟨0x80, 127⟩) = false := by decide
  have hSize64 : getPayloadSize ⟨0x80, 127⟩ (.write .empty 0 (List.replicate 8 255)) < 2 ^ 64 := by
    rw [hSize]
    decide
  have hOpen := openMessage_data maxMessageSize hAt (by decide) hData0 hSize64
  dsimp only at hOpen
  rw [hSize] at hOpen
  split at hOpen
  -- one byte and the rest of all sizes
  next hBig => exact absurd hBig (Nat.not_lt_zero _)
  obtain ⟨p₁, hOpen, hOpened, hWhich⟩ := hOpen
  dsimp only at hNext
  rw [hOpen] at hNext
  have hGo : goesOn (p, hugeHeader ++ data) = true :=
    decide_eq_true ⟨hAt.waits.1, .inl (List.cons_ne_nil _ _)⟩
  obtain ⟨q, hPump, hStored⟩ : ∃ q, pump false maxMessageSize (p₁, data) = ok q ∧
      q.stored = data.length + 1 := by
    refine ⟨_, pump_opened hOpened hData rfl, ?_⟩
    unfold stored added setCurrent
    rw [hWhich]
    show ([0] ++ mask _ 0 data).length = _
    rw [List.length_append, length_mask, Nat.add_comm]
    rfl
  refine ⟨q, ?_, hStored⟩
  rw [Transducer.run_cons, hRead, Outcome.ok_andThen, Transducer.run_cons,
    handleReadFrame_waits hAt.waits, pump_ok hGo hTurn,
    pump_ok (goesOn_afterBasic hLength data) hNext, hPump]
  rfl

/-- Three bytes behind the huge header. -/
theorem unbounded_three : ∃ p, Transducer.run (handleReadFrame false 32000000) new
    [firstFragment, hugeHeader ++ [1, 2, 3]] = ok p ∧ p.stored = [1, 2, 3].length + 1 :=
  unbounded (by decide) [1, 2, 3] (by decide)

end Processor

end PushStreamer.Wire
