import PushStreamer.Lib.Transducer
import PushStreamer.Socket.Processor

/-!
# `handle_read_frame`

The loop that gives what the transport has read to the processor, and takes each
message that becomes ready from it. The messages are listed in the order in which
they become ready, whatever the state of the session: `dispatch` says which of them
a handler gets. An error ends the connection's reading.

* `pump_ok`, `pump_error`, `pump_ready`, `pump_wait` — the two loops as one.
* `inv_turn` — what holds of the processor between the turns: it never writes
  outside of a header, and a payload has a message.
* `pump_append` — the bytes may come in any pieces.
* `read_chunks` — so may those of a whole connection.
-/

namespace PushStreamer.Wire

open Endpoint (Bytes Opcode)
open Endpoint.Opcode (isControl)
open Outcome (ok error)

namespace Processor

-- ---------------------------------------------------------------------------
-- The loop
-- ---------------------------------------------------------------------------

/-- One turn of the loop; the list has the messages that became ready. -/
def readTurn (server : Bool) (maxMessageSize : ℕ) (s : (Processor × Bytes) × List Message) :
    Except (List Message × ErrorCode) ((Processor × Bytes) × List Message) :=
  match consume server maxMessageSize s.1 with
  | .error ec => .error (s.2, ec)
  | .ok x =>
    if x.1.state = .ready then
      let r := x.1.getMessage
      .ok ((r.2, x.2), s.2 ++ r.1.toList)
    else .ok (x, s.2)

section

variable {server : Bool} {maxMessageSize : ℕ} {p p' : Processor} {buf buf' : Bytes}

/-- After `get_message` the processor waits for a header. -/
theorem getMessage_waits (h : p.state = .ready) :
    p.getMessage.2.state = .headerBasic ∧ p.getMessage.2.bytesNeeded = 2 := by
  unfold getMessage
  rw [if_neg (not_not.mpr h)]
  cases p.current <;> exact ⟨rfl, rfl⟩

/-- Taking the message makes progress, even though it takes no bytes. -/
theorem getMessage_measure (h : p.state = .ready) :
    measure (p.getMessage.2, buf) < measure (p, buf) := by
  obtain ⟨hState, hNeeded⟩ := getMessage_waits h
  unfold measure
  rw [rank, hState, hNeeded, if_neg (by decide), rank, h]
  dsimp only
  omega

/-- So every turn of the outer loop makes progress. -/
theorem readTurn_decreases (s s' : (Processor × Bytes) × List Message)
    (hCond : decide (s.1.2 ≠ []) = true) (h : readTurn server maxMessageSize s = .ok s') :
    measure s'.1 < measure s.1 := by
  have hBytes : s.1.2 ≠ [] := of_decide_eq_true hCond
  unfold readTurn at h
  split at h
  · cases h
  next x hConsume =>
  by_cases hReady : s.1.1.state = .ready
  · have hStop : goesOn s.1 = false := by simp [goesOn, hReady]
    have hSame : consume server maxMessageSize s.1 = .ok s.1 := While.run_of_not hStop
    rw [hSame] at hConsume
    obtain rfl := Except.ok.inj hConsume
    rw [if_pos hReady] at h
    rw [← Except.ok.inj h]
    exact getMessage_measure hReady
  · have hGo : goesOn s.1 = true := by simp [goesOn, hReady, hBytes]
    have hLess : measure x < measure s.1 := While.measure_run_lt hGo hConsume
    split at h
    next hState =>
      rw [← Except.ok.inj h]
      exact Nat.lt_trans (getMessage_measure hState) hLess
    · rwa [← Except.ok.inj h]

end

/-- The loop of `handle_read_frame`. -/
def readLoop (server : Bool) (maxMessageSize : ℕ) :
    While (List Message × ErrorCode) ((Processor × Bytes) × List Message) where
  cond s := s.1.2 ≠ []
  body := readTurn server maxMessageSize
  measure s := measure s.1
  decreases := readTurn_decreases

/-- What the loop has done at its end. -/
def ended (r : Except (List Message × ErrorCode) ((Processor × Bytes) × List Message)) :
    Outcome Message ErrorCode Processor :=
  match r with
  | .ok s => ⟨s.2, .ok s.1.1⟩
  | .error e => ⟨e.1, .error e.2⟩

/-- `handle_read_frame` with the bytes that are read. -/
def handleReadFrame (server : Bool) (maxMessageSize : ℕ) (p : Processor) (buf : Bytes) :
    Outcome Message ErrorCode Processor :=
  ended ((readLoop server maxMessageSize).run ((p, buf), []))

-- ---------------------------------------------------------------------------
-- The two loops as one
-- ---------------------------------------------------------------------------

/-- What is left of `handle_read_frame` when `consume` has come to these bytes. -/
def pump (server : Bool) (maxMessageSize : ℕ) (x : Processor × Bytes) :
    Outcome Message ErrorCode Processor :=
  match consume server maxMessageSize x with
  | .error ec => error ec
  | .ok x =>
    if x.1.state = .ready then
      (handleReadFrame server maxMessageSize x.1.getMessage.2 x.2).prepend x.1.getMessage.1.toList
    else handleReadFrame server maxMessageSize x.1 x.2

section

variable {server : Bool} {maxMessageSize : ℕ} {p p' : Processor} {buf buf' : Bytes}

/-- The messages so far do not matter. -/
theorem ended_prepend (s : (Processor × Bytes) × List Message) (ms : List Message) :
    ended ((readLoop server maxMessageSize).run (s.1, ms ++ s.2)) =
      (ended ((readLoop server maxMessageSize).run s)).prepend ms := by
  induction s using (readLoop server maxMessageSize).induct with
  | hStep s ih =>
    by_cases hCond : (readLoop server maxMessageSize).cond s = true
    · have hCond' : (readLoop server maxMessageSize).cond (s.1, ms ++ s.2) = true := hCond
      cases hConsume : consume server maxMessageSize s.1 with
      -- the messages of the turns before stay in front of an error
      | error ec =>
        have hBody : readTurn server maxMessageSize s = .error (s.2, ec) := by
          rw [readTurn, hConsume]
        have hBody' : readTurn server maxMessageSize (s.1, ms ++ s.2) =
            .error (ms ++ s.2, ec) := by
          rw [readTurn, hConsume]
        rw [While.run_of_error hCond hBody, While.run_of_error hCond' hBody']
        rfl
      | ok x =>
        -- a message that is ready is put behind those before it, any other turn adds none
        by_cases hReady : x.1.state = .ready
        · have hBody : readTurn server maxMessageSize s =
              .ok ((x.1.getMessage.2, x.2), s.2 ++ x.1.getMessage.1.toList) := by
            rw [readTurn, hConsume]
            exact if_pos hReady
          have hBody' : readTurn server maxMessageSize (s.1, ms ++ s.2) =
              .ok ((x.1.getMessage.2, x.2), ms ++ (s.2 ++ x.1.getMessage.1.toList)) := by
            rw [readTurn, hConsume, ← List.append_assoc]
            exact if_pos hReady
          rw [While.run_of_ok hCond hBody, While.run_of_ok hCond' hBody']
          exact ih _ hCond hBody
        · have hBody : readTurn server maxMessageSize s = .ok (x, s.2) := by
            rw [readTurn, hConsume]
            exact if_neg hReady
          have hBody' : readTurn server maxMessageSize (s.1, ms ++ s.2) = .ok (x, ms ++ s.2) := by
            rw [readTurn, hConsume]
            exact if_neg hReady
          rw [While.run_of_ok hCond hBody, While.run_of_ok hCond' hBody']
          exact ih _ hCond hBody
    · have hStop := Bool.eq_false_iff.mpr hCond
      have hStop' : (readLoop server maxMessageSize).cond (s.1, ms ++ s.2) = false := hStop
      rw [While.run_of_not hStop, While.run_of_not hStop']
      rfl

/-- Without bytes the loop does not begin. -/
theorem handleReadFrame_nil (p : Processor) :
    handleReadFrame server maxMessageSize p [] = ok p := by
  rw [handleReadFrame, While.run_of_not rfl]
  rfl

/-- The outer loop is the inner one, with the messages taken out between. -/
theorem handleReadFrame_eq (h : buf ≠ []) :
    handleReadFrame server maxMessageSize p buf = pump server maxMessageSize (p, buf) := by
  have hCond : (readLoop server maxMessageSize).cond ((p, buf), []) = true := decide_eq_true h
  rw [handleReadFrame, pump]
  cases hConsume : consume server maxMessageSize (p, buf) with
  | error ec =>
    have hBody : readTurn server maxMessageSize ((p, buf), []) = .error ([], ec) := by
      rw [readTurn, hConsume]
    rw [While.run_of_error hCond hBody]
    rfl
  | ok x =>
    by_cases hReady : x.1.state = .ready
    · have hBody : readTurn server maxMessageSize ((p, buf), []) =
          .ok ((x.1.getMessage.2, x.2), x.1.getMessage.1.toList ++ []) := by
        rw [readTurn, hConsume, List.append_nil]
        exact if_pos hReady
      rw [While.run_of_ok hCond hBody]
      dsimp only
      rw [if_pos hReady]
      exact ended_prepend ((x.1.getMessage.2, x.2), []) x.1.getMessage.1.toList
    · have hBody : readTurn server maxMessageSize ((p, buf), []) = .ok (x, []) := by
        rw [readTurn, hConsume]
        exact if_neg hReady
      rw [While.run_of_ok hCond hBody]
      exact (if_neg hReady).symm

/-- The processor needs bytes before it can go on. -/
def Waits (p : Processor) : Prop := p.state ≠ .ready ∧ p.bytesNeeded ≠ 0

/-- An error of the processor ends the reading. -/
theorem pump_error {x : Processor × Bytes} {ec : ErrorCode} (h : goesOn x = true)
    (hTurn : turn server maxMessageSize x = .error ec) :
    pump server maxMessageSize x = error ec := by
  have hConsume : consume server maxMessageSize x = .error ec := While.run_of_error h hTurn
  rw [pump, hConsume]

/-- A turn of the inner loop. -/
theorem pump_ok {x x' : Processor × Bytes} (h : goesOn x = true)
    (hTurn : turn server maxMessageSize x = .ok x') :
    pump server maxMessageSize x = pump server maxMessageSize x' := by
  have hConsume : consume server maxMessageSize x = consume server maxMessageSize x' :=
    While.run_of_ok h hTurn
  rw [pump, pump, hConsume]

/-- Without bytes a processor that waits goes on waiting. -/
theorem pump_wait (h : p.Waits) : pump server maxMessageSize (p, []) = ok p := by
  have hStop : goesOn (p, []) = false := by simp [goesOn, h.2]
  have hConsume : consume server maxMessageSize (p, []) = .ok (p, []) := While.run_of_not hStop
  rw [pump, hConsume]
  exact (if_neg h.1).trans (handleReadFrame_nil p)

/-- A processor that waits. -/
theorem handleReadFrame_waits (h : p.Waits) (buf : Bytes) :
    handleReadFrame server maxMessageSize p buf = pump server maxMessageSize (p, buf) := by
  cases buf with
  | nil => rw [handleReadFrame_nil, pump_wait h]
  | cons b buf => exact handleReadFrame_eq (List.cons_ne_nil b buf)

/-- A message that is ready is taken out, and the reading goes on behind it. -/
theorem pump_ready (h : p.state = .ready) (buf : Bytes) :
    pump server maxMessageSize (p, buf) =
      (pump server maxMessageSize (p.getMessage.2, buf)).prepend p.getMessage.1.toList := by
  have hStop : goesOn (p, buf) = false := by simp [goesOn, h]
  have hConsume : consume server maxMessageSize (p, buf) = .ok (p, buf) := While.run_of_not hStop
  obtain ⟨hState, hNeeded⟩ := getMessage_waits h
  have hWaits : p.getMessage.2.Waits := ⟨by rw [hState]; decide, by rw [hNeeded]; decide⟩
  rw [← handleReadFrame_waits hWaits]
  conv_lhs => rw [pump, hConsume]
  exact if_pos h

end

-- ---------------------------------------------------------------------------
-- What holds between the turns
-- ---------------------------------------------------------------------------

/-- The masking key of the frame. -/
def key (p : Processor) : Bytes := getMaskingKey p.basicHeader p.extendedHeader

/-- What holds of the processor: what is still to come of a header fits into it,
and there is a message to put a payload into. -/
structure Inv (p : Processor) : Prop where
  size : p.extendedHeader.bytes.length = maxExtendedHeaderLength
  basic : p.state = .headerBasic → p.bytesNeeded ≤ basicHeaderLength ∧ p.extendedHeader = .empty
  extended : p.state = .headerExtended → p.cursor + p.bytesNeeded ≤ maxExtendedHeaderLength
  payload : p.state = .application → ∃ m offset, p.current = some m ∧
    m.preparedKey = prepared p.key offset
  ready : p.state = .ready → p.current.isSome

section

variable {server : Bool} {maxMessageSize : ℕ} {p p' : Processor} {buf buf' : Bytes}

/-- A processor that waits for a header has nothing else to keep. -/
theorem inv_of_header (hState : p.state = .headerBasic) (hNeeded : p.bytesNeeded ≤ 2)
    (hEmpty : p.extendedHeader = .empty) : Inv p where
  size := by rw [hEmpty]; rfl
  basic _ := ⟨hNeeded, hEmpty⟩
  extended h := by rw [hState] at h; cases h
  payload h := by rw [hState] at h; cases h
  ready h := by rw [hState] at h; cases h

theorem inv_new : Inv new := inv_of_header rfl (Nat.le_refl _) rfl

/-- The processor waits for a header once the message is taken. -/
theorem inv_getMessage (h : p.state = .ready) : Inv p.getMessage.2 := by
  unfold getMessage
  rw [if_neg (not_not.mpr h)]
  cases p.current <;> exact inv_of_header rfl (Nat.le_refl _) rfl

/-- The header bytes that are copied change nothing else. -/
theorem copyBasicHeaderBytes_frame (p : Processor) (buf : Bytes) :
    ∃ h k, (p.copyBasicHeaderBytes buf).1 = { p with basicHeader := h, bytesNeeded := k } ∧
      k ≤ p.bytesNeeded := by
  unfold copyBasicHeaderBytes
  rcases buf with _ | ⟨a, _ | ⟨b, rest⟩⟩
  · exact ⟨_, _, rfl, Nat.le_refl _⟩
  all_goals
    dsimp only
    split
    · exact ⟨_, _, rfl, Nat.le_refl _⟩
    · split <;> exact ⟨_, _, rfl, Nat.sub_le _ _⟩

/-- The length of the payload takes at most eight bytes of the extended header. -/
theorem getMaskingKeyOffset_le (h : BasicHeader) : h.getMaskingKeyOffset ≤ 8 := by
  unfold BasicHeader.getMaskingKeyOffset
  split
  · decide
  · split <;> decide

/-- A header has at most fourteen bytes. -/
theorem getHeaderLen_le (h : BasicHeader) : h.getHeaderLen ≤ 14 := by
  have hOffset := getMaskingKeyOffset_le h
  unfold BasicHeader.getHeaderLen basicHeaderLength
  split <;> omega

/-- The key is read from within the extended header, so it has its four bytes. -/
theorem length_getMaskingKey (h : BasicHeader) {e : ExtendedHeader}
    (hSize : e.bytes.length = maxExtendedHeaderLength) : (getMaskingKey h e).length = 4 := by
  have hOffset := getMaskingKeyOffset_le h
  unfold maxExtendedHeaderLength at hSize
  unfold getMaskingKey
  split
  · exact Words.length_toBytes 4 0
  · rw [List.length_take, List.length_drop]
    omega

/-- The key as a word has the bytes that the header holds. -/
theorem toBytes_readKey (h : BasicHeader) {e : ExtendedHeader}
    (hSize : e.bytes.length = maxExtendedHeaderLength) :
    Words.toBytes 4 ((readKey h e).getD 0) = getMaskingKey h e := by
  have hLength := length_getMaskingKey h hSize
  unfold readKey
  cases hMasked : h.getMasked with
  | false =>
    unfold getMaskingKey
    rw [hMasked]
    rfl
  | true => exact hLength ▸ Words.toBytes_ofBytes (getMaskingKey h e)

/-- A basic header that is read keeps the invariant: the length of the extended one fits. -/
theorem inv_basicTurn (h : Inv p) (hState : p.state = .headerBasic)
    (hTurn : p.basicTurn server buf = .ok (p', buf')) : Inv p' := by
  obtain ⟨hNeeded, hEmpty⟩ := h.basic hState
  obtain ⟨bh, k, hCopy, hLe⟩ := copyBasicHeaderBytes_frame p buf
  unfold basicTurn at hTurn
  dsimp only at hTurn
  rw [hCopy] at hTurn
  split at hTurn
  · have hSame : (p.copyBasicHeaderBytes buf).1 = p' :=
      congrArg Prod.fst (Except.ok.inj hTurn)
    rw [← hSame, hCopy]
    exact inv_of_header hState (Nat.le_trans hLe hNeeded) hEmpty
  · split at hTurn
    · cases hTurn
    · rw [← (Prod.mk.inj (Except.ok.inj hTurn)).1]
      have hLen := getHeaderLen_le bh
      exact {
        size := h.size
        basic := fun h' => by cases h'
        extended := fun _ => by
          show 0 + (bh.getHeaderLen - 2) ≤ 12
          omega
        payload := fun h' => by cases h'
        ready := fun h' => by cases h' }

/-- The message that a payload goes to. -/
theorem openMessage_current (hSize : p.extendedHeader.bytes.length = maxExtendedHeaderLength)
    (hOpen : p.openMessage maxMessageSize = .ok p') :
    p'.extendedHeader = p.extendedHeader ∧
      ∃ m, p'.current = some m ∧ m.preparedKey = prepared p'.key 0 := by
  have hPrepared := prepareMaskingKey_eq (length_getMaskingKey p.basicHeader hSize)
  unfold openMessage at hOpen
  dsimp only at hOpen
  split at hOpen
  · rw [← Except.ok.inj hOpen]
    exact ⟨rfl, _, rfl, hPrepared⟩
  split at hOpen
  all_goals
    split at hOpen
    · cases hOpen
    · rw [← Except.ok.inj hOpen]
      exact ⟨rfl, _, rfl, hPrepared⟩

/-- So does an extended header, behind which there is a message for the payload. -/
theorem inv_extendedTurn (h : Inv p) (hState : p.state = .headerExtended)
    (hTurn : p.extendedTurn maxMessageSize buf = .ok (p', buf')) : Inv p' := by
  have hFits := h.extended hState
  have hSize := h.size
  have hTake : (buf.take (min p.bytesNeeded buf.length)).length = min p.bytesNeeded buf.length :=
    List.length_take_of_le (Nat.min_le_right _ _)
  have hWrite : (p.extendedHeader.write p.cursor
      (buf.take (min p.bytesNeeded buf.length))).bytes.length = maxExtendedHeaderLength := by
    rw [length_write (by rw [hTake, hSize]; omega), hSize]
  unfold extendedTurn copyExtendedHeaderBytes at hTurn
  dsimp only at hTurn
  split at hTurn
  · -- either more of the extended header is awaited, or the message is opened
    rw [← (Prod.mk.inj (Except.ok.inj hTurn)).1]
    exact {
      size := hWrite
      basic := fun h' => by rw [hState] at h'; cases h'
      extended := fun _ => by dsimp only; omega
      payload := fun h' => by rw [hState] at h'; cases h'
      ready := fun h' => by rw [hState] at h'; cases h' }
  · split at hTurn
    · cases hTurn
    · -- `openMessage` prepares the key at offset 0
      obtain ⟨p₁, hOpen, hPair⟩ := of_map_eq_ok hTurn
      obtain ⟨rfl, -⟩ := Prod.mk.inj hPair
      have hAfter := (openMessage_ok hOpen).1
      obtain ⟨hSame, hCurrent⟩ := openMessage_current hWrite hOpen
      exact {
        size := by rw [hSame]; exact hWrite
        basic := fun h' => by rw [hAfter] at h'; cases h'
        extended := fun h' => by rw [hAfter] at h'; cases h'
        payload := fun _ => ⟨_, 0, hCurrent.choose_spec⟩
        ready := fun h' => by rw [hAfter] at h'; cases h' }

@[simp] theorem setCurrent_current (p : Processor) (m : Option MsgMetadata) :
    (p.setCurrent m).current = m := by
  unfold setCurrent
  cases hWhich : p.currentMsg <;> simp [current]

@[simp] theorem setCurrent_basicHeader (p : Processor) (m : Option MsgMetadata) :
    (p.setCurrent m).basicHeader = p.basicHeader := by
  unfold setCurrent
  cases p.currentMsg <;> rfl

@[simp] theorem setCurrent_extendedHeader (p : Processor) (m : Option MsgMetadata) :
    (p.setCurrent m).extendedHeader = p.extendedHeader := by
  unfold setCurrent
  cases p.currentMsg <;> rfl

/-- The next bytes of a payload, unmasked, and the key after them; the key of a
frame that is not masked is zero. -/
theorem unmask_eq (h : BasicHeader) {e : ExtendedHeader}
    (hSize : e.bytes.length = maxExtendedHeaderLength) (offset : ℕ) (buf : Bytes) :
    unmask h (prepared (getMaskingKey h e) offset) buf =
      (mask (getMaskingKey h e) offset buf,
        prepared (getMaskingKey h e) (offset + buf.length)) := by
  unfold unmask
  by_cases hMasked : h.getMasked = true
  · rw [if_pos hMasked]
    exact byteMaskCirc_eq (length_getMaskingKey h hSize) offset buf
  · have hZero : getMaskingKey h e = Words.toBytes 4 0 := if_pos (by simpa using hMasked)
    rw [if_neg hMasked, hZero, mask_zero, prepared_zero, prepared_zero]

/-- The message after some more bytes, which are unmasked already. -/
def MsgMetadata.add (m : MsgMetadata) (key : Bytes) (offset : ℕ) (plain : Bytes) : MsgMetadata where
  msg := ⟨m.msg.opcode, m.msg.payload ++ plain⟩
  preparedKey := prepared key (offset + plain.length)
  validator := (checkUtf8 m plain).2

/-- The processor after some more bytes. -/
def added (p : Processor) (m : MsgMetadata) (offset : ℕ) (plain : Bytes) : Processor :=
  { p.setCurrent (some (MsgMetadata.add m p.key offset plain)) with
    bytesNeeded := p.bytesNeeded - plain.length }

section

variable (p : Processor) (m : MsgMetadata) (offset : ℕ) (plain : Bytes)

@[simp] theorem added_state : (p.added m offset plain).state = p.state := setCurrent_state p _

@[simp] theorem added_bytesNeeded :
    (p.added m offset plain).bytesNeeded = p.bytesNeeded - plain.length := rfl

@[simp] theorem added_basicHeader : (p.added m offset plain).basicHeader = p.basicHeader :=
  setCurrent_basicHeader p _

@[simp] theorem added_extendedHeader : (p.added m offset plain).extendedHeader = p.extendedHeader :=
  setCurrent_extendedHeader p _

@[simp] theorem added_key : (p.added m offset plain).key = p.key := by
  rw [key, added_basicHeader, added_extendedHeader, key]

@[simp] theorem added_current :
    (p.added m offset plain).current = some (MsgMetadata.add m p.key offset plain) :=
  setCurrent_current p _

/-- The key goes on after them. -/
theorem added_payload : ∃ m' offset', (p.added m offset plain).current = some m' ∧
    m'.preparedKey = prepared (p.added m offset plain).key offset' :=
  ⟨_, offset + plain.length, added_current p m offset plain, by rw [added_key]; rfl⟩

end

/-- What `process_payload_bytes` does. -/
theorem processPayloadBytes_eq {m : MsgMetadata} {offset : ℕ}
    (hSize : p.extendedHeader.bytes.length = maxExtendedHeaderLength)
    (hCurrent : p.current = some m) (hPrepared : m.preparedKey = prepared p.key offset)
    (buf : Bytes) : p.processPayloadBytes buf =
      if (checkUtf8 m (mask p.key offset buf)).1 then
        .ok (p.added m offset (mask p.key offset buf))
      else .error .invalidUtf8 := by
  have hUnmask : unmask p.basicHeader (prepared p.key offset) buf =
      (mask p.key offset buf, prepared p.key (offset + buf.length)) :=
    unmask_eq p.basicHeader hSize offset buf
  unfold processPayloadBytes added MsgMetadata.add
  rw [hCurrent]
  dsimp only
  rw [hPrepared, hUnmask, length_mask]

/-- So does a piece of the payload, or its end. -/
theorem inv_applicationTurn (h : Inv p) (hState : p.state = .application)
    (hTurn : p.applicationTurn buf = .ok (p', buf')) : Inv p' := by
  obtain ⟨m, offset, hCurrent, hPrepared⟩ := h.payload hState
  unfold applicationTurn at hTurn
  dsimp only at hTurn
  split at hTurn
  · cases hTurn
  next p₁ hProcess =>
  -- the payload keeps its message, and the key is turned by the bytes that came
  have hNext : p₁.state = .application ∧ p₁.extendedHeader.bytes.length = 12 ∧
      ∃ m' offset', p₁.current = some m' ∧ m'.preparedKey = prepared p₁.key offset' := by
    split at hProcess
    · rw [processPayloadBytes_eq h.size hCurrent hPrepared] at hProcess
      split at hProcess
      · rw [← Except.ok.inj hProcess]
        refine ⟨(added_state _ _ _ _).trans hState, ?_, added_payload p m offset _⟩
        rw [added_extendedHeader]
        exact h.size
      · cases hProcess
    · rw [← Except.ok.inj hProcess]
      exact ⟨hState, h.size, m, offset, hCurrent, hPrepared⟩
  obtain ⟨hState₁, hSize₁, m', offset', hCurrent₁, hPrepared₁⟩ := hNext
  -- the payload goes on, or the frame ends
  split at hTurn
  · rw [← (Prod.mk.inj (Except.ok.inj hTurn)).1]
    exact {
      size := hSize₁
      basic := fun h' => by rw [hState₁] at h'; cases h'
      extended := fun h' => by rw [hState₁] at h'; cases h'
      payload := fun _ => ⟨m', offset', hCurrent₁, hPrepared₁⟩
      ready := fun h' => by rw [hState₁] at h'; cases h' }
  · obtain ⟨p₂, hEnd, hPair⟩ := of_map_eq_ok hTurn
    obtain ⟨rfl, -⟩ := Prod.mk.inj hPair
    unfold endOfFrame finalizeMessage at hEnd
    rw [hCurrent₁] at hEnd
    dsimp only at hEnd
    split at hEnd
    · -- with FIN the message is ready, without it the next header is awaited
      split at hEnd
      · cases hEnd
      · rw [← Except.ok.inj hEnd]
        exact {
          size := hSize₁
          basic := fun h' => by cases h'
          extended := fun h' => by cases h'
          payload := fun h' => by cases h'
          ready := fun _ => by
            show p₁.current.isSome
            rw [hCurrent₁]
            rfl }
    · rw [← Except.ok.inj hEnd]
      exact inv_of_header rfl (Nat.le_refl _) rfl

/-- An error of a result that is mapped is its own. -/
theorem of_map_eq_error {ε α β : Type} {r : Except ε α} {f : α → β} {e : ε}
    (h : r.map f = .error e) : r = .error e := by
  cases r with
  | error e' => exact congrArg _ (Except.error.inj h)
  | ok a => cases h

/-- `general` is none of the errors of a basic header. -/
theorem validateIncomingBasicHeader_ne_general {h : BasicHeader} {new_msg : Bool} :
    validateIncomingBasicHeader h server new_msg ≠ some .general := by
  unfold validateIncomingBasicHeader
  dsimp only
  repeat' split
  all_goals decide

/-- Nor of an extended one. -/
theorem validateIncomingExtendedHeader_ne_general {h : BasicHeader} {e : ExtendedHeader} :
    validateIncomingExtendedHeader h e ≠ some .general := by
  unfold validateIncomingExtendedHeader
  dsimp only
  repeat' split
  all_goals decide

/-- Nor of a payload that is too big. -/
theorem openMessage_ne_general : p.openMessage maxMessageSize ≠ .error .general := by
  unfold openMessage
  dsimp only
  intro h
  split at h
  · cases h
  split at h <;> split at h <;> cases h

/-- **Every turn** keeps the invariant. -/
theorem inv_turn {x x' : Processor × Bytes} (h : Inv x.1)
    (hTurn : turn server maxMessageSize x = .ok x') : Inv x'.1 := by
  cases hState : x.1.state with
  | headerBasic =>
    rw [turn_basic hState] at hTurn
    exact inv_basicTurn h hState hTurn
  | headerExtended =>
    rw [turn_extended hState] at hTurn
    exact inv_extendedTurn h hState hTurn
  | application =>
    rw [turn_application hState] at hTurn
    exact inv_applicationTurn h hState hTurn
  | ready =>
    rw [turn_ready hState] at hTurn
    cases hTurn

-- ---------------------------------------------------------------------------
-- Bytes in pieces
-- ---------------------------------------------------------------------------

variable {xs ys : Bytes}

/-- A header that is complete takes no byte. -/
theorem copyBasicHeaderBytes_zero (h : p.bytesNeeded = 0) (l : Bytes) :
    p.copyBasicHeaderBytes l = (p, l) := by
  unfold copyBasicHeaderBytes
  split
  · rfl
  · exact if_pos h

/-- The second byte. -/
theorem copyBasicHeaderBytes_second (h : p.bytesNeeded = 1) (b : UInt8) (l : Bytes) :
    p.copyBasicHeaderBytes (b :: l) =
      ({ p with basicHeader.b1 := b, bytesNeeded := 0 }, l) := by
  cases l <;> simp [copyBasicHeaderBytes, h]

/-- The first byte alone. -/
theorem copyBasicHeaderBytes_first (h : p.bytesNeeded = 2) (a : UInt8) :
    p.copyBasicHeaderBytes [a] = ({ p with basicHeader.b0 := a, bytesNeeded := 1 }, []) := by
  simp [copyBasicHeaderBytes, h]

/-- A whole header takes its two bytes at once. -/
theorem copyBasicHeaderBytes_two (h : p.bytesNeeded = 2) (a b : UInt8) (l : Bytes) :
    p.copyBasicHeaderBytes (a :: b :: l) =
      ({ p with basicHeader := ⟨a, b⟩, bytesNeeded := 0 }, l) := by
  simp [copyBasicHeaderBytes, h]

/-- The bytes of a basic header that are all there. -/
theorem copyBasicHeaderBytes_append (hNeeded : p.bytesNeeded ≤ 2) (h : p.bytesNeeded ≤ xs.length)
    (ys : Bytes) : p.copyBasicHeaderBytes (xs ++ ys) =
      ((p.copyBasicHeaderBytes xs).1, (p.copyBasicHeaderBytes xs).2 ++ ys) := by
  obtain hZero | hOne | hTwo : p.bytesNeeded = 0 ∨ p.bytesNeeded = 1 ∨ p.bytesNeeded = 2 := by omega
  · rw [copyBasicHeaderBytes_zero hZero, copyBasicHeaderBytes_zero hZero]
  · obtain ⟨b, l, rfl⟩ := List.exists_cons_of_length_pos (show 0 < xs.length by omega)
    rw [List.cons_append, copyBasicHeaderBytes_second hOne, copyBasicHeaderBytes_second hOne]
  · obtain ⟨a, l, rfl⟩ := List.exists_cons_of_length_pos (show 0 < xs.length by omega)
    rw [List.length_cons] at h
    obtain ⟨b, l, rfl⟩ := List.exists_cons_of_length_pos (show 0 < l.length by omega)
    rw [List.cons_append, List.cons_append, copyBasicHeaderBytes_two hTwo,
      copyBasicHeaderBytes_two hTwo]

/-- An extended header that is complete does not look at what is behind it. -/
theorem copyExtendedHeaderBytes_append (h : p.bytesNeeded ≤ xs.length) (ys : Bytes) :
    p.copyExtendedHeaderBytes (xs ++ ys) =
      ((p.copyExtendedHeaderBytes xs).1, (p.copyExtendedHeaderBytes xs).2 ++ ys) := by
  have hMin : min p.bytesNeeded (xs ++ ys).length = p.bytesNeeded := by
    rw [List.length_append]
    omega
  unfold copyExtendedHeaderBytes
  dsimp only
  rw [hMin, Nat.min_eq_left h, List.take_append_of_le_length h, List.drop_append_of_le_length h]

/-- Some of the bytes of an extended header. -/
theorem copyExtendedHeaderBytes_part (h : Inv p) (hState : p.state = .headerExtended)
    (hLt : xs.length < p.bytesNeeded) (ys : Bytes) :
    p.copyExtendedHeaderBytes (xs ++ ys) =
      (p.copyExtendedHeaderBytes xs).1.copyExtendedHeaderBytes ys := by
  have hFits := h.extended hState
  have hSize := h.size
  have hMin : min p.bytesNeeded (xs ++ ys).length =
      xs.length + min (p.bytesNeeded - xs.length) ys.length := by
    rw [List.length_append]
    omega
  have hTake : (ys.take (min (p.bytesNeeded - xs.length) ys.length)).length =
      min (p.bytesNeeded - xs.length) ys.length := List.length_take_of_le (Nat.min_le_right _ _)
  -- two writes, one behind the other, are one write
  have hWrite : (p.extendedHeader.write p.cursor xs).write (p.cursor + xs.length)
      (ys.take (min (p.bytesNeeded - xs.length) ys.length)) =
      p.extendedHeader.write p.cursor
        (xs ++ ys.take (min (p.bytesNeeded - xs.length) ys.length)) := by
    apply write_write
    rw [hTake, hSize]
    omega
  unfold copyExtendedHeaderBytes
  dsimp only
  rw [hMin, Nat.min_eq_right (Nat.le_of_lt hLt), List.take_length, List.take_length_add_append,
    List.drop_length_add_append, hWrite]
  congr 2
  · omega
  · omega

/-- The check of a text in pieces. -/
theorem checkUtf8_append (m : MsgMetadata) (key : Bytes) (offset : ℕ) (s t : Bytes) :
    checkUtf8 m (s ++ t) =
      if (checkUtf8 m s).1 then checkUtf8 (MsgMetadata.add m key offset s) t
      else checkUtf8 m s := by
  unfold checkUtf8
  by_cases hText : m.msg.opcode = .text
  · have hText' : (MsgMetadata.add m key offset s).msg.opcode = .text := hText
    have hNext : (MsgMetadata.add m key offset s).validator = (m.validator.decode s).2 := by
      rw [MsgMetadata.add, checkUtf8, if_pos hText]
    rw [if_pos hText, if_pos hText, if_pos hText', hNext, Validator.decode_append]
  · have hText' : ¬ (MsgMetadata.add m key offset s).msg.opcode = .text := hText
    have hNext : (MsgMetadata.add m key offset s).validator = m.validator := by
      rw [MsgMetadata.add, checkUtf8, if_neg hText]
    rw [if_neg hText, if_neg hText, if_neg hText', hNext, if_pos rfl]

/-- A payload that is added in two pieces is added as one, if the first is good text so far. -/
theorem add_add (m : MsgMetadata) (key : Bytes) (offset : ℕ) {s : Bytes}
    (hOk : (checkUtf8 m s).1 = true) (t : Bytes) :
    MsgMetadata.add m key offset (s ++ t) =
      MsgMetadata.add (MsgMetadata.add m key offset s) key (offset + s.length) t := by
  have hCheck := checkUtf8_append m key offset s t
  rw [if_pos hOk] at hCheck
  conv_lhs => rw [MsgMetadata.add, hCheck, List.length_append, ← Nat.add_assoc, ← List.append_assoc]
  rfl

/-- The same of the processor. -/
theorem added_added (p : Processor) (m : MsgMetadata) (offset : ℕ) {s : Bytes}
    (hOk : (checkUtf8 m s).1 = true) (t : Bytes) :
    p.added m offset (s ++ t) =
      (p.added m offset s).added (MsgMetadata.add m p.key offset s) (offset + s.length) t := by
  have hKey := added_key p m offset s
  rw [added, add_add m p.key offset hOk, List.length_append, ← Nat.sub_sub]
  conv_rhs => rw [added, hKey]
  unfold added setCurrent
  cases p.currentMsg <;> rfl

/-- Some of the bytes of a payload. -/
theorem processPayloadBytes_append {m : MsgMetadata} {offset : ℕ}
    (hSize : p.extendedHeader.bytes.length = maxExtendedHeaderLength)
    (hCurrent : p.current = some m) (hPrepared : m.preparedKey = prepared p.key offset)
    (xs ys : Bytes) : p.processPayloadBytes (xs ++ ys) =
      (p.processPayloadBytes xs).bind (·.processPayloadBytes ys) := by
  have hCheck := checkUtf8_append m p.key offset (mask p.key offset xs)
    (mask p.key (offset + xs.length) ys)
  rw [processPayloadBytes_eq hSize hCurrent hPrepared,
    processPayloadBytes_eq hSize hCurrent hPrepared, mask_append, hCheck]
  by_cases hOk : (checkUtf8 m (mask p.key offset xs)).1 = true
  · have hSize' : (p.added m offset (mask p.key offset xs)).extendedHeader.bytes.length =
        maxExtendedHeaderLength := by rw [added_extendedHeader, hSize]
    have hPrepared' : (MsgMetadata.add m p.key offset (mask p.key offset xs)).preparedKey =
        prepared (p.added m offset (mask p.key offset xs)).key (offset + xs.length) := by
      rw [added_key, MsgMetadata.add, length_mask]
    have hNext := processPayloadBytes_eq hSize' (added_current p m offset _) hPrepared' ys
    rw [if_pos hOk, if_pos hOk, added_added p m offset hOk, length_mask]
    rw [added_key] at hNext
    exact hNext.symm
  · rw [if_neg hOk, if_neg hOk, if_neg hOk]
    rfl

/-- Bytes that come after all that a turn takes. -/
def later (ys : Bytes) (x : Processor × Bytes) : Processor × Bytes := (x.1, x.2 ++ ys)

/-- What is behind a piece stays behind it. -/
theorem map_later (r : Except ErrorCode Processor) (l ys : Bytes) :
    r.map (·, l ++ ys) = (r.map (·, l)).map (later ys) := by
  cases r <;> rfl

/-- A turn that has all it asks for. -/
theorem turn_append (h : Inv p) (hLe : p.bytesNeeded ≤ xs.length) (ys : Bytes) :
    turn server maxMessageSize (p, xs ++ ys) =
      (turn server maxMessageSize (p, xs)).map (later ys) := by
  have hMin : min p.bytesNeeded (xs ++ ys).length = p.bytesNeeded := by
    rw [List.length_append]
    omega
  cases hState : p.state with
  | headerBasic =>
    rw [turn_basic hState, turn_basic hState]
    unfold basicTurn
    dsimp only
    -- the bytes behind those that are asked for are not looked at, and so in each state
    rw [copyBasicHeaderBytes_append (h.basic hState).1 hLe]
    dsimp only
    split
    · rfl
    · split <;> rfl
  | headerExtended =>
    rw [turn_extended hState, turn_extended hState]
    unfold extendedTurn
    dsimp only
    rw [copyExtendedHeaderBytes_append hLe]
    dsimp only
    split
    · rfl
    · split
      · rfl
      · exact map_later _ _ ys
  | application =>
    rw [turn_application hState, turn_application hState]
    unfold applicationTurn
    dsimp only
    rw [hMin, Nat.min_eq_left hLe, List.take_append_of_le_length hLe,
      List.drop_append_of_le_length hLe]
    split
    · rfl
    · split
      · rfl
      · exact map_later _ _ ys
  | ready =>
    rw [turn_ready hState, turn_ready hState]
    rfl

variable (server) in
/-- A piece of a basic header is kept, and the rest can be read later. -/
theorem basicTurn_part (h : Inv p) (hState : p.state = .headerBasic)
    (hLt : xs.length < p.bytesNeeded) (hNe : xs ≠ []) :
    ∃ p', p.basicTurn server xs = .ok (p', []) ∧ p'.state = .headerBasic ∧ p'.bytesNeeded ≠ 0 ∧
      ∀ ys, ys ≠ [] → p.basicTurn server (xs ++ ys) = p'.basicTurn server ys := by
  have hNeeded := (h.basic hState).1
  unfold basicHeaderLength at hNeeded
  obtain ⟨a, l, rfl⟩ := List.exists_cons_of_ne_nil hNe
  rw [List.length_cons] at hLt
  obtain rfl : l = [] := List.length_eq_zero_iff.mp (by omega)
  have hTwo : p.bytesNeeded = 2 := by omega
  refine ⟨{ p with basicHeader.b0 := a, bytesNeeded := 1 }, ?_, hState, Nat.one_ne_zero, ?_⟩
  · rw [basicTurn, copyBasicHeaderBytes_first hTwo]
    rfl
  · intro ys hys
    obtain ⟨b, l, rfl⟩ := List.exists_cons_of_ne_nil hys
    rw [List.cons_append, List.nil_append, basicTurn, basicTurn, copyBasicHeaderBytes_two hTwo,
      copyBasicHeaderBytes_second rfl]

variable (maxMessageSize) in
/-- So is a piece of an extended header. -/
theorem extendedTurn_part (h : Inv p) (hState : p.state = .headerExtended)
    (hLt : xs.length < p.bytesNeeded) :
    ∃ p', p.extendedTurn maxMessageSize xs = .ok (p', []) ∧ p'.state = .headerExtended ∧
      p'.bytesNeeded ≠ 0 ∧ ∀ ys, p.extendedTurn maxMessageSize (xs ++ ys) =
        p'.extendedTurn maxMessageSize ys := by
  have hMin : min p.bytesNeeded xs.length = xs.length := Nat.min_eq_right (Nat.le_of_lt hLt)
  have hMore : 0 < (p.copyExtendedHeaderBytes xs).1.bytesNeeded := by
    unfold copyExtendedHeaderBytes
    dsimp only
    omega
  have hRest : (p.copyExtendedHeaderBytes xs).2 = [] := by
    unfold copyExtendedHeaderBytes
    dsimp only
    rw [hMin, List.drop_length]
  refine ⟨(p.copyExtendedHeaderBytes xs).1, ?_, hState, by omega, ?_⟩
  · rw [extendedTurn, if_pos hMore, ← hRest]
  · intro ys
    rw [extendedTurn, extendedTurn, copyExtendedHeaderBytes_part h hState hLt]

/-- So is a piece of a payload, unless its text is bad already. -/
theorem applicationTurn_part (h : Inv p) (hState : p.state = .application)
    (hLt : xs.length < p.bytesNeeded) (hNe : xs ≠ []) :
    (∃ ec, ∀ ys, p.applicationTurn (xs ++ ys) = .error ec) ∨
      ∃ p', p.applicationTurn xs = .ok (p', []) ∧ p'.state = .application ∧ p'.bytesNeeded ≠ 0 ∧
        ∀ ys, ys ≠ [] → p.applicationTurn (xs ++ ys) = p'.applicationTurn ys := by
  obtain ⟨m, offset, hCurrent, hPrepared⟩ := h.payload hState
  have hLength : 0 < xs.length := List.length_pos_iff.mpr hNe
  have hMin : min p.bytesNeeded xs.length = xs.length := Nat.min_eq_right (Nat.le_of_lt hLt)
  have hMinAll : ∀ ys : Bytes, min p.bytesNeeded (xs ++ ys).length =
      xs.length + min (p.bytesNeeded - xs.length) ys.length := by
    intro ys
    rw [List.length_append]
    omega
  have hAppend := processPayloadBytes_append h.size hCurrent hPrepared xs
  -- an error of the first piece is one of the whole, since the check goes byte by byte
  cases hProcess : p.processPayloadBytes xs with
  | error ec =>
    refine .inl ⟨ec, ?_⟩
    intro ys
    unfold applicationTurn
    dsimp only
    rw [hMinAll, if_pos (by omega), List.take_length_add_append, hAppend, hProcess]
    rfl
  | ok p₁ =>
    obtain ⟨hSame, hNeeded⟩ := processPayloadBytes_ok hProcess
    refine .inr ⟨p₁, ?_, hSame.trans hState, by omega, ?_⟩
    · unfold applicationTurn
      dsimp only
      rw [hMin, if_pos hLength, List.take_length, hProcess, List.drop_length]
      exact if_pos (by omega)
    · intro ys hys
      have hSome : 0 < ys.length := List.length_pos_iff.mpr hys
      unfold applicationTurn
      dsimp only
      rw [hMinAll, if_pos (by omega), List.take_length_add_append, hAppend, hProcess,
        List.drop_length_add_append, hNeeded, if_pos (by omega)]
      rfl

/-- A turn that asks for more takes what there is, and goes on with what comes. -/
theorem turn_part (h : Inv p) (hState : p.state ≠ .ready) (hLt : xs.length < p.bytesNeeded)
    (hNe : xs ≠ []) :
    (∃ ec, ∀ ys, turn server maxMessageSize (p, xs ++ ys) = .error ec) ∨
      ∃ p', turn server maxMessageSize (p, xs) = .ok (p', []) ∧ p'.Waits ∧
        ∀ ys, ys ≠ [] → turn server maxMessageSize (p, xs ++ ys) =
          turn server maxMessageSize (p', ys) := by
  cases hWhere : p.state with
  | headerBasic =>
    obtain ⟨p', hTurn, hSame, hNeeded, hRest⟩ := basicTurn_part server h hWhere hLt hNe
    refine .inr ⟨p', ?_, ⟨by rw [hSame]; decide, hNeeded⟩, ?_⟩
    · rw [turn_basic hWhere, hTurn]
    · intro ys hys
      rw [turn_basic hWhere, turn_basic hSame, hRest ys hys]
  | headerExtended =>
    obtain ⟨p', hTurn, hSame, hNeeded, hRest⟩ :=
      extendedTurn_part maxMessageSize h hWhere hLt
    refine .inr ⟨p', ?_, ⟨by rw [hSame]; decide, hNeeded⟩, ?_⟩
    · rw [turn_extended hWhere, hTurn]
    · intro ys _
      rw [turn_extended hWhere, turn_extended hSame, hRest ys]
  | application =>
    rcases applicationTurn_part h hWhere hLt hNe with
      ⟨ec, hError⟩ | ⟨p', hTurn, hSame, hNeeded, hRest⟩
    · refine .inl ⟨ec, ?_⟩
      intro ys
      rw [turn_application hWhere, hError ys]
    · refine .inr ⟨p', ?_, ⟨by rw [hSame]; decide, hNeeded⟩, ?_⟩
      · rw [turn_application hWhere, hTurn]
      · intro ys hys
        rw [turn_application hWhere, turn_application hSame, hRest ys hys]
  | ready => exact absurd hWhere hState

/-- **Bytes in two pieces** do what they do in one. -/
theorem pump_append (h : Inv p) (xs ys : Bytes) :
    pump server maxMessageSize (p, xs ++ ys) =
      (pump server maxMessageSize (p, xs)).andThen fun p' =>
        pump server maxMessageSize (p', ys) := by
  induction hMeasure : measure (p, xs) using Nat.strongRecOn generalizing p xs with
  | _ n ih =>
    subst hMeasure
    by_cases hReady : p.state = .ready
    · rw [pump_ready hReady, pump_ready hReady, Outcome.prepend_andThen,
        ih _ (getMessage_measure hReady) (inv_getMessage hReady) xs rfl]
    by_cases hGo : goesOn (p, xs) = true
    · have hGoAll : goesOn (p, xs ++ ys) = true := by
        -- what is left to be asked for is there in the whole, too
        simp only [goesOn, decide_eq_true_eq, ne_eq, List.append_eq_nil_iff, not_and_or] at hGo ⊢
        exact ⟨hReady, hGo.2.imp_left .inl⟩
      -- the first piece may end within what is asked for, or behind it
      rcases Nat.lt_or_ge xs.length p.bytesNeeded with hLt | hLe
      · have hNe : xs ≠ [] := by
          rintro rfl
          simp only [goesOn, decide_eq_true_eq, ne_eq, not_true_eq_false, false_or] at hGo
          rw [hGo.2] at hLt
          exact absurd hLt (Nat.not_lt_zero _)
        rcases turn_part h hReady hLt hNe with ⟨ec, hError⟩ | ⟨p', hTurn, hWaits, hRest⟩
        · have hError' : turn server maxMessageSize (p, xs) = .error ec := by
            rw [← hError [], List.append_nil]
          rw [pump_error hGoAll (hError ys), pump_error hGo hError', Outcome.error_andThen]
        · rw [pump_ok hGo hTurn, pump_wait hWaits, Outcome.ok_andThen]
          by_cases hys : ys = []
          · rw [hys, List.append_nil, pump_ok hGo hTurn]
          · have hGoRest : goesOn (p', ys) = true := by simp [goesOn, hWaits.1, hys]
            cases hNext : turn server maxMessageSize (p', ys) with
            | error ec =>
              rw [pump_error hGoAll ((hRest ys hys).trans hNext), pump_error hGoRest hNext]
            | ok x =>
              rw [pump_ok hGoAll ((hRest ys hys).trans hNext), pump_ok hGoRest hNext]
      · have hTurn : turn server maxMessageSize (p, xs ++ ys) =
            (turn server maxMessageSize (p, xs)).map (later ys) := turn_append h hLe ys
        cases hNext : turn server maxMessageSize (p, xs) with
        | error ec =>
          rw [hNext] at hTurn
          rw [pump_error hGoAll hTurn, pump_error hGo hNext, Outcome.error_andThen]
        | ok x =>
          rw [hNext] at hTurn
          rw [pump_ok hGoAll hTurn, pump_ok hGo hNext]
          exact ih _ (turn_decreases _ _ hGo hNext) (inv_turn h hNext) x.2 rfl
    · -- nothing is there, and something is asked for
      simp only [goesOn, decide_eq_true_eq, not_and, not_or, not_not] at hGo
      obtain ⟨hNil, hNeeded⟩ := hGo hReady
      rw [hNil, List.nil_append, pump_wait ⟨hReady, hNeeded⟩, Outcome.ok_andThen]

/-- A processor between two calls of `handle_read_frame`. -/
def Idle (p : Processor) : Prop := p.Inv ∧ p.Waits

theorem idle_new : new.Idle := ⟨inv_new, by decide, by decide⟩

/-- After the call the processor waits for more. -/
theorem idle_pump {ms : List Message} (h : Inv p)
    (hPump : pump server maxMessageSize (p, xs) = ⟨ms, .ok p'⟩) : p'.Idle := by
  induction hMeasure : measure (p, xs) using Nat.strongRecOn generalizing p xs ms with
  | _ n ih =>
    subst hMeasure
    by_cases hReady : p.state = .ready
    · rw [pump_ready hReady] at hPump
      have hRest : pump server maxMessageSize (p.getMessage.2, xs) =
          ⟨(pump server maxMessageSize (p.getMessage.2, xs)).outputs, .ok p'⟩ := by
        rw [← show (pump server maxMessageSize (p.getMessage.2, xs)).result = .ok p' from
          congrArg Outcome.result hPump]
      exact ih _ (getMessage_measure hReady) (inv_getMessage hReady) hRest rfl
    by_cases hGo : goesOn (p, xs) = true
    · cases hNext : turn server maxMessageSize (p, xs) with
      | error ec =>
        rw [pump_error hGo hNext] at hPump
        cases congrArg Outcome.result hPump
      | ok x =>
        rw [pump_ok hGo hNext] at hPump
        exact ih _ (turn_decreases _ _ hGo hNext) (inv_turn h hNext) hPump rfl
    · simp only [goesOn, decide_eq_true_eq, not_and, not_or, not_not] at hGo
      obtain ⟨hNil, hNeeded⟩ := hGo hReady
      rw [hNil, pump_wait ⟨hReady, hNeeded⟩] at hPump
      rw [← Except.ok.inj (congrArg Outcome.result hPump)]
      exact ⟨h, hReady, hNeeded⟩

/-- The error that stands for a null pointer is not returned. -/
theorem turn_ne_general {x : Processor × Bytes} (h : Inv x.1) (hGo : goesOn x = true) :
    turn server maxMessageSize x ≠ .error .general := by
  intro hTurn
  cases hState : x.1.state with
  | headerBasic =>
    rw [turn_basic hState, basicTurn] at hTurn
    dsimp only at hTurn
    split at hTurn
    · cases hTurn
    split at hTurn
    next ec hBasic =>
      rw [Except.error.inj hTurn] at hBasic
      exact validateIncomingBasicHeader_ne_general hBasic
    · cases hTurn
  | headerExtended =>
    rw [turn_extended hState, extendedTurn] at hTurn
    dsimp only at hTurn
    split at hTurn
    · cases hTurn
    split at hTurn
    next ec hExtended =>
      rw [Except.error.inj hTurn] at hExtended
      exact validateIncomingExtendedHeader_ne_general hExtended
    · exact openMessage_ne_general (of_map_eq_error hTurn)
  | application =>
    obtain ⟨m, offset, hCurrent, hPrepared⟩ := h.payload hState
    rw [turn_application hState, applicationTurn] at hTurn
    split at hTurn
    next ec hProcess =>
      rw [Except.error.inj hTurn] at hProcess
      split at hProcess
      · rw [processPayloadBytes_eq h.size hCurrent hPrepared] at hProcess
        split at hProcess <;> cases hProcess
      · cases hProcess
    next p₁ hProcess =>
      have hSome : ∃ m', p₁.current = some m' := by
        split at hProcess
        · rw [processPayloadBytes_eq h.size hCurrent hPrepared] at hProcess
          split at hProcess
          · rw [← Except.ok.inj hProcess]
            exact ⟨_, added_current _ _ _ _⟩
          · cases hProcess
        · rw [← Except.ok.inj hProcess]
          exact ⟨m, hCurrent⟩
      obtain ⟨m', hSome⟩ := hSome
      split at hTurn
      · cases hTurn
      have hEnd := of_map_eq_error hTurn
      unfold endOfFrame finalizeMessage at hEnd
      rw [hSome] at hEnd
      dsimp only at hEnd
      split at hEnd
      · split at hEnd <;> cases hEnd
      · cases hEnd
  | ready => simp [goesOn, hState] at hGo

/-- No reading ends with `general`. -/
theorem pump_ne_general {ms : List Message} {ec : ErrorCode} (h : Inv p)
    (hPump : pump server maxMessageSize (p, xs) = ⟨ms, .error ec⟩) : ec ≠ .general := by
  induction hMeasure : measure (p, xs) using Nat.strongRecOn generalizing p xs ms with
  | _ n ih =>
    subst hMeasure
    by_cases hReady : p.state = .ready
    · rw [pump_ready hReady] at hPump
      have hRest : pump server maxMessageSize (p.getMessage.2, xs) =
          ⟨(pump server maxMessageSize (p.getMessage.2, xs)).outputs, .error ec⟩ := by
        rw [← show (pump server maxMessageSize (p.getMessage.2, xs)).result = .error ec from
          congrArg Outcome.result hPump]
      exact ih _ (getMessage_measure hReady) (inv_getMessage hReady) hRest rfl
    by_cases hGo : goesOn (p, xs) = true
    · cases hNext : turn server maxMessageSize (p, xs) with
      | error ec' =>
        rw [pump_error hGo hNext] at hPump
        obtain rfl : ec' = ec := Except.error.inj (congrArg Outcome.result hPump)
        rintro rfl
        exact turn_ne_general h hGo hNext
      | ok x =>
        rw [pump_ok hGo hNext] at hPump
        exact ih _ (turn_decreases _ _ hGo hNext) (inv_turn h hNext) hPump rfl
    · simp only [goesOn, decide_eq_true_eq, not_and, not_or, not_not] at hGo
      obtain ⟨hNil, hNeeded⟩ := hGo hReady
      rw [hNil, pump_wait ⟨hReady, hNeeded⟩] at hPump
      cases congrArg Outcome.result hPump

variable (server maxMessageSize) in
/-- **The transport** may deliver the bytes of a connection in any pieces: the
handlers get the same messages, and the reading ends alike. -/
theorem read_chunks (h : p.Idle) (chunks : List Bytes) :
    Transducer.run (handleReadFrame server maxMessageSize) p chunks =
      handleReadFrame server maxMessageSize p chunks.flatten := by
  refine Transducer.run_flatten (P := Idle) ?_ ?_ ?_ h chunks
  · intro p l ms p' hIdle hRead
    rw [handleReadFrame_waits hIdle.2] at hRead
    exact idle_pump hIdle.1 hRead
  · intro p hIdle
    exact handleReadFrame_nil p
  · intro p l l' hIdle
    rw [handleReadFrame_waits hIdle.2, handleReadFrame_waits hIdle.2, pump_append hIdle.1]
    rcases hPump : pump server maxMessageSize (p, l) with ⟨ms, ec | p'⟩
    · rfl
    · have hNext := (idle_pump hIdle.1 hPump).2
      exact congrArg (Outcome.prepend ms) (handleReadFrame_waits hNext l').symm

end

/-- **In whatever pieces** the transport delivers the bytes, the same is read. -/
theorem read_any_pieces (server : Bool) (maxMessageSize : ℕ) {chunks chunks' : List Bytes}
    (h : chunks.flatten = chunks'.flatten) :
    Transducer.run (handleReadFrame server maxMessageSize) new chunks =
      Transducer.run (handleReadFrame server maxMessageSize) new chunks' := by
  rw [read_chunks _ _ idle_new, read_chunks _ _ idle_new, h]

/-- A text and an empty ping, byte by byte. -/
theorem read_any_pieces_bytes :
    Transducer.run (handleReadFrame false 8) new [[0x81, 0x02, 72, 105, 0x89], [0x00]] =
      Transducer.run (handleReadFrame false 8) new [[0x81], [0x02], [72], [105], [0x89], [0x00]] :=
  read_any_pieces false 8 rfl

/-- **A payload always has a message** to go into: the pointers of the processor
are never followed while they are null, and what a read copies of a header stays
in its twelve bytes. -/
theorem read_safe (server : Bool) (maxMessageSize : ℕ) (chunks : List Bytes) :
    match (Transducer.run (handleReadFrame server maxMessageSize) new chunks).result with
    | .ok p => p.extendedHeader.bytes.length = maxExtendedHeaderLength ∧
        (p.state = .headerExtended → p.cursor + p.bytesNeeded ≤ maxExtendedHeaderLength) ∧
        (p.state = .application → p.current.isSome)
    | .error ec => ec ≠ .general := by
  rw [read_chunks _ _ idle_new, handleReadFrame_waits idle_new.2]
  rcases hPump : pump server maxMessageSize (new, chunks.flatten) with ⟨ms, ec | p⟩
  · exact pump_ne_general inv_new hPump
  · obtain ⟨hInv, -⟩ := idle_pump inv_new hPump
    refine ⟨hInv.size, hInv.extended, fun hState => ?_⟩
    obtain ⟨m, -, hCurrent, -⟩ := hInv.payload hState
    rw [hCurrent]
    rfl

end Processor

end PushStreamer.Wire
