import PushStreamer.Socket.Frames
import PushStreamer.Socket.HandshakeKey
import PushStreamer.Socket.HttpResponse

/-!
# The opening of a connection

The client from the request that it has sent to the frames of the server:
`handle_read_http_response` reads the response, checks it against the key of the
request and calls the open handler; what follows the response in the same read is
already frames.

* `run_response` — a connection, by the head of the response and the pieces in
  which the transport delivers it.
* `opens_iff` — when the open handler is called.
* `terminated_iff` — when a connection is terminated and opened.
* `frames_after_response` — the frames behind a response.
* `pieces_iff` — when they do not depend on the pieces, and what is lost else.

`terminate` shuts the socket down, and no later read comes: what is said of the
frames of a connection is said of one whose extensions were accepted.
-/

namespace PushStreamer.Opening

open Endpoint (Bytes)
open Http Http.Response
open Lines (Head headLength waits behind)
open Wire (Processor)

-- ---------------------------------------------------------------------------
-- The client
-- ---------------------------------------------------------------------------

/-- The error codes of `validate_server_handshake_response`. -/
inductive HandshakeError where
  | invalidHttpStatus
  | missingRequiredHeader
deriving DecidableEq

/-- What ends a connection: `error::general` for a response that cannot be read. -/
inductive Failure where
  | general
  | handshake (ec : HandshakeError)
  | frame (ec : Wire.ErrorCode)
deriving DecidableEq

/-- What the connection does for its owner. -/
inductive Event where
  -- `terminate` after `negotiate_extensions`; the function goes on
  | terminated
  | opened
  | message (m : Wire.Message)
deriving DecidableEq

/-- `m_internal_state`, with what is read there. -/
inductive Session where
  | readHttpResponse (response : Response)
  | processConnection (p : Processor)

/-- `validate_server_handshake_response`, for the key of the request. -/
def validateServerHandshakeResponse (key : Bytes) (head : ResponseHead) : Option HandshakeError :=
  if head.statusCode ≠ 101 then some .invalidHttpStatus
  else if !ciFindSubstr (getHeader head.headers (ascii "Upgrade")) (ascii "websocket") then
    some .missingRequiredHeader
  else if !ciFindSubstr (getHeader head.headers (ascii "Connection")) (ascii "Upgrade") then
    some .missingRequiredHeader
  else if processHandshakeKey key ≠ getHeader head.headers (ascii "Sec-WebSocket-Accept") then
    some .missingRequiredHeader
  else none

/-- `negotiate_extensions`, without an extension that is implemented: whether it
returns an error. -/
def negotiateExtensions (head : ResponseHead) : Bool :=
  getHeaderAsPlist head.headers (ascii "Sec-WebSocket-Extensions")

/-- What a response that is valid brings about. -/
def openEvents (head : ResponseHead) : List Event :=
  if negotiateExtensions head then [.terminated, .opened] else [.opened]

/-- `handle_read_frame` of the client. -/
def handleReadFrame (maxMessageSize : ℕ) (p : Processor) (buf : Bytes) :
    Outcome Event Failure Session :=
  (p.handleReadFrame false maxMessageSize buf).map .message .frame .processConnection

/-- `handle_read_http_response`. -/
def handleReadHttpResponse (maxMessageSize : ℕ) (key : Bytes) (response : Response)
    (buf : Bytes) : Outcome Event Failure Session :=
  match response.consume buf with
  | .error _ => .error .general
  | .ok (response, bytes_processed) =>
    if response.headersReady then
      match validateServerHandshakeResponse key response.head with
      | some ec => .error (.handshake ec)
      | none =>
        (handleReadFrame maxMessageSize .new (buf.drop bytes_processed)).prepend
          (openEvents response.head)
    else .ok (.readHttpResponse response)

/-- What the transport has read, at the handler that waits for it. -/
def handleRead (maxMessageSize : ℕ) (key : Bytes) :
    Session → Bytes → Outcome Event Failure Session
  | .readHttpResponse response, buf => handleReadHttpResponse maxMessageSize key response buf
  | .processConnection p, buf => handleReadFrame maxMessageSize p buf

/-- The session once the request is sent. -/
def start : Session := .readHttpResponse .new

-- ---------------------------------------------------------------------------
-- A connection as a whole
-- ---------------------------------------------------------------------------

/-- What comes of a response that has been read, with `frames` behind it. -/
def answer (maxMessageSize : ℕ) (key : Bytes) (head : ResponseHead) (frames : Bytes) :
    Outcome Event Failure Session :=
  match validateServerHandshakeResponse key head with
  | some ec => .error (.handshake ec)
  | none => (handleReadFrame maxMessageSize .new frames).prepend (openEvents head)

/-- What a connection reads. -/
def connection (maxMessageSize : ℕ) (key : Bytes) (s : Session) (chunks : List Bytes) :
    Outcome Event Failure Session :=
  Transducer.run (handleRead maxMessageSize key) s chunks

section

variable {maxMessageSize : ℕ} {key : Bytes} {r : Response} {buf rest : Bytes}
  {lines : List Bytes} {chunks : List Bytes}

/-- The handler sees of a read what its caller sees. -/
theorem handleReadHttpResponse_of_ready {head : ResponseHead} {tail : Bytes}
    (h : (r.consume buf).toOption.map (fun y => (y.1.head, y.1.headersReady, buf.drop y.2)) =
      some (head, true, tail)) :
    handleReadHttpResponse maxMessageSize key r buf = answer maxMessageSize key head tail := by
  unfold handleReadHttpResponse answer
  cases hConsume : r.consume buf with
  | error e =>
    rw [hConsume] at h
    cases h
  | ok y =>
    rw [hConsume] at h
    obtain ⟨hHead, hRest⟩ := Prod.mk.inj (Option.some.inj h)
    obtain ⟨hReady, hTail⟩ := Prod.mk.inj hRest
    dsimp only
    rw [if_pos hReady, hHead, hTail]

theorem handleReadHttpResponse_of_error (h : (r.consume buf).toOption = none) :
    handleReadHttpResponse maxMessageSize key r buf = .error .general := by
  unfold handleReadHttpResponse
  cases hConsume : r.consume buf with
  | error e => rfl
  | ok y =>
    rw [hConsume] at h
    cases h

/-- A read with the rest of the head. -/
theorem handleRead_head (hState : r.headersReady = false)
    (h : Head headerDelimiter lines rest (r.buf ++ buf)) (hRest : rest <:+ buf) :
    handleRead maxMessageSize key (.readHttpResponse r) buf =
      if maxHeaderSize < r.headerBytes + headCost lines then .error .general
      else (parseHead (r.state, r.head) lines).elim (.error .general) fun x =>
        answer maxMessageSize key x.1 (rest.drop x.2) := by
  have hConsume := consume_head hState h hRest
  rw [handleRead]
  by_cases hLarge : maxHeaderSize < r.headerBytes + headCost lines
  · rw [if_pos hLarge] at hConsume ⊢
    exact handleReadHttpResponse_of_error (Option.map_eq_none_iff.mp hConsume)
  · rw [if_neg hLarge] at hConsume ⊢
    cases hParse : parseHead (r.state, r.head) lines with
    | none =>
      rw [hParse] at hConsume
      exact handleReadHttpResponse_of_error (Option.map_eq_none_iff.mp hConsume)
    | some x =>
      rw [hParse] at hConsume
      exact handleReadHttpResponse_of_ready hConsume

variable (maxMessageSize key) in
/-- A connection that is open reads frames. -/
theorem connection_frames {p : Processor} (h : p.Idle) (chunks : List Bytes) :
    connection maxMessageSize key (.processConnection p) chunks =
      handleReadFrame maxMessageSize p chunks.flatten := by
  have hRun : connection maxMessageSize key (.processConnection p) chunks =
      (Transducer.run (Processor.handleReadFrame false maxMessageSize) p chunks).map
        .message .frame .processConnection := Transducer.run_map (fun _ _ => rfl) p chunks
  rw [hRun, Processor.read_chunks _ _ h]
  rfl

/-- A connection goes on behind the response. -/
theorem answer_append (head : ResponseHead) (frames : Bytes) (chunks : List Bytes) :
    (answer maxMessageSize key head frames).andThen
        (fun s => connection maxMessageSize key s chunks) =
      answer maxMessageSize key head (frames ++ chunks.flatten) := by
  unfold answer
  cases validateServerHandshakeResponse key head with
  | some ec => rfl
  | none =>
    dsimp only
    rw [Outcome.prepend_andThen]
    refine congrArg (Outcome.prepend _) ?_
    have hFirst := connection_frames maxMessageSize key
      Processor.idle_new (frames :: chunks)
    rw [List.flatten_cons] at hFirst
    exact hFirst

/-- Some lines, and then the others. -/
theorem parseHead_append (x : ResponseState × ResponseHead) (done left : List Bytes) :
    parseHead x (done ++ left) =
      (done.foldlM addLine x).toOption.bind fun y => parseHead y left := by
  unfold parseHead
  rw [List.foldlM_append, toOption_bind, Option.bind_assoc]

/-- A line is never the last one. -/
theorem headersReady_afterLines {x : ResponseState × ResponseHead} (hState : r.headersReady = false)
    (h : (lines.foldlM addLine (r.state, r.head)).toOption = some x) (buf : Bytes) (n m : ℕ) :
    { r.afterLines lines x with buf, read := n, headerBytes := m }.headersReady = false := by
  have hKeep : x.1 = r.state ∨ x.1 = .headers := by
    cases lines using List.reverseRecOn with
    | nil => exact .inl (congrArg Prod.fst (Option.some.inj h)).symm
    | append_singleton lines line =>
      rw [List.foldlM_append, toOption_bind] at h
      obtain ⟨y, -, hLast⟩ := Option.bind_eq_some_iff.mp h
      rw [List.foldlM_cons, addLine, toOption_bind, toOption_bind] at hLast
      obtain ⟨z, hLine, hNil⟩ := Option.bind_eq_some_iff.mp hLast
      obtain ⟨head, -, hPure⟩ := Option.bind_eq_some_iff.mp hLine
      rw [← Option.some.inj hNil, ← Option.some.inj hPure]
      exact .inr rfl
  unfold headersReady at hState ⊢
  show decide (x.1 = .body ∨ x.1 = .done) = false
  rcases hKeep with hSame | hHeaders
  · rw [hSame]
    exact hState
  · rw [hHeaders]
    rfl

variable (maxMessageSize key) in
/-- A read that ends before the head does. -/
theorem handleRead_wait {t : Bytes} (hState : r.headersReady = false)
    (h : Head headerDelimiter lines rest (r.buf ++ buf ++ t))
    (hShort : (r.buf ++ buf).length < headLength headerDelimiter lines) :
    (handleRead maxMessageSize key (.readHttpResponse r) buf = .error .general ∧
        (maxHeaderSize < r.headerBytes + (headCost lines + sizeofHeaderDelimiter) ∨
          parseHead (r.state, r.head) lines = none)) ∨
      ∃ r' left, handleRead maxMessageSize key (.readHttpResponse r) buf =
          .ok (.readHttpResponse r') ∧ r'.headersReady = false ∧
        Head headerDelimiter left rest (r'.buf ++ t) ∧
        r'.buf.length < headLength headerDelimiter left ∧
        r'.headerBytes + headCost left =
          r.headerBytes + (headCost lines + sizeofHeaderDelimiter) ∧
        parseHead (r'.state, r'.head) left = parseHead (r.state, r.head) lines := by
  obtain ⟨done, left, p, rfl, hLeft, hP, hConsume⟩ := consume_wait hState h hShort
  have hCost : headCost (done ++ left) = linesCost done + headCost left := by
    unfold headCost
    rw [linesCost_append, Nat.add_assoc]
  have hMore := headLength_lt_headCost left
  -- the bytes of the head are counted with the lines that are done
  by_cases hLarge : maxHeaderSize <
      r.headerBytes + linesCost done + (p.length + sizeofHeaderDelimiter)
  · rw [if_pos hLarge] at hConsume
    exact .inl ⟨handleReadHttpResponse_of_error hConsume, .inl (by omega)⟩
  rw [if_neg hLarge] at hConsume
  rw [parseHead_append]
  -- a line that cannot be parsed is an error in this read
  cases hLines : (done.foldlM addLine (r.state, r.head)).toOption with
  | none =>
    rw [hLines] at hConsume
    exact .inl ⟨handleReadHttpResponse_of_error hConsume, .inr rfl⟩
  | some x =>
    rw [hLines] at hConsume
    have hNot := headersReady_afterLines hState hLines p (r.read + buf.length)
      (r.headerBytes + linesCost done + sizeofHeaderDelimiter)
    refine .inr ⟨_, left, ?_, hNot, hLeft, hP, ?_, rfl⟩
    · rw [handleRead, handleReadHttpResponse]
      cases hRead : r.consume buf with
      | error e =>
        rw [hRead] at hConsume
        cases hConsume
      | ok y =>
        rw [hRead] at hConsume
        rw [Option.some.inj hConsume]
        dsimp only
        rw [hNot]
        rfl
    · show r.headerBytes + linesCost done + sizeofHeaderDelimiter + headCost left = _
      omega

variable (maxMessageSize key) in
/-- **A connection that waits for a response**, by the head of the response and the
pieces in which the transport delivers it: each piece that ends before the head does
counts as another delimiter. -/
theorem run_response (hState : r.headersReady = false)
    (h : Head headerDelimiter lines rest (r.buf ++ chunks.flatten))
    (hShort : r.buf.length < headLength headerDelimiter lines) {n : ℕ}
    (hMissing : r.buf.length + n = headLength headerDelimiter lines) :
    connection maxMessageSize key (.readHttpResponse r) chunks =
      if maxHeaderSize < r.headerBytes + (headCost lines + waits n chunks * sizeofHeaderDelimiter)
      then .error .general
      else (parseHead (r.state, r.head) lines).elim (.error .general) fun x =>
        answer maxMessageSize key x.1
          ((behind n chunks).1.drop x.2 ++ (behind n chunks).2.flatten) := by
  induction chunks generalizing r lines n with
  | nil =>
    have hLength := h.length_eq
    rw [List.flatten_nil, List.append_nil] at hLength
    omega
  | cons c cs ih =>
    show (handleRead maxMessageSize key (.readHttpResponse r) c).andThen
      (fun s => connection maxMessageSize key s cs) = _
    rw [List.flatten_cons, ← List.append_assoc] at h
    rw [waits, behind]
    -- either the end of the head is in this piece, or the piece is taken and the rest awaited
    by_cases hAll : n ≤ c.length
    · rw [if_pos hAll, if_pos hAll, Nat.zero_mul, Nat.add_zero]
      have hHead := h.of_append (by rw [List.length_append]; omega)
      have hDrop : (r.buf ++ c).drop (headLength headerDelimiter lines) = c.drop n := by
        rw [← hMissing, List.drop_length_add_append]
      rw [hDrop] at hHead
      rw [handleRead_head hState hHead (List.drop_suffix n c)]
      split
      · rfl
      · cases parseHead (r.state, r.head) lines with
        | none => rfl
        | some x => exact answer_append x.1 _ cs
    · rw [if_neg hAll, if_neg hAll, Nat.succ_mul]
      have hPart : (r.buf ++ c).length < headLength headerDelimiter lines := by
        rw [List.length_append]
        omega
      rcases handleRead_wait maxMessageSize key hState h hPart with
        ⟨hError, hWhy⟩ | ⟨r', left, hOk, hState', hLeft, hShort', hCost, hParse⟩
      · rw [hError, Outcome.error_andThen]
        split
        · rfl
        · next hSmall =>
          rcases hWhy with hLarge | hNone
          · exact absurd hLarge (by omega)
          · rw [hNone]
            rfl
      · -- what is still missing of the head, and what its bytes cost
        have hMissing' : r'.buf.length + (n - c.length) = headLength headerDelimiter left := by
          have hWhole := h.length_eq
          have hRest := hLeft.length_eq
          rw [List.length_append, List.length_append] at hWhole
          rw [List.length_append] at hRest
          omega
        have hBytes : r'.headerBytes +
              (headCost left + waits (n - c.length) cs * sizeofHeaderDelimiter) =
            r.headerBytes + (headCost lines +
              (waits (n - c.length) cs * sizeofHeaderDelimiter + sizeofHeaderDelimiter)) := by
          omega
        rw [hOk, Outcome.ok_andThen, ih hState' hLeft hShort' hMissing', hParse, hBytes]

/-- While the head is not all there, nothing happens. -/
theorem connection_short {t : Bytes} (hState : r.headersReady = false)
    (h : Head headerDelimiter lines rest (r.buf ++ chunks.flatten ++ t))
    (hShort : (r.buf ++ chunks.flatten).length < headLength headerDelimiter lines) :
    (connection maxMessageSize key (.readHttpResponse r) chunks).outputs = [] := by
  induction chunks generalizing r lines with
  | nil => rfl
  | cons c cs ih =>
    rw [List.flatten_cons, ← List.append_assoc] at h hShort
    have hPart : (r.buf ++ c).length < headLength headerDelimiter lines := by
      rw [List.length_append] at hShort
      omega
    have hWhole := h.length_eq
    rw [List.append_assoc] at h
    show ((handleRead maxMessageSize key (.readHttpResponse r) c).andThen
      (fun s => connection maxMessageSize key s cs)).outputs = []
    rcases handleRead_wait maxMessageSize key hState h hPart with
      ⟨hError, -⟩ | ⟨r', left, hOk, hState', hLeft, -, -, -⟩
    · rw [hError]
      rfl
    · rw [← List.append_assoc] at hLeft
      have hRest := hLeft.length_eq
      rw [List.length_append] at hWhole hRest
      rw [hOk, Outcome.ok_andThen]
      exact ih hState' hLeft (by omega)

/-- A connection from the request on. -/
theorem run_start (h : Head headerDelimiter lines rest chunks.flatten) :
    connection maxMessageSize key start chunks =
      if maxHeaderSize < headCost lines +
          waits (headLength headerDelimiter lines) chunks * sizeofHeaderDelimiter
      then .error .general
      else (parseHead (.responseLine, .new) lines).elim (.error .general) fun x =>
        answer maxMessageSize key x.1
          ((behind (headLength headerDelimiter lines) chunks).1.drop x.2 ++
            (behind (headLength headerDelimiter lines) chunks).2.flatten) := by
  have hPos : 0 < headLength headerDelimiter lines :=
    Nat.lt_of_lt_of_le Nat.two_pos (Lines.length_le_headLength headerDelimiter lines)
  have hRun := run_response maxMessageSize key (r := .new) rfl h hPos
    (Nat.zero_add _)
  rw [show Response.new.headerBytes = 0 from rfl, Nat.zero_add] at hRun
  exact hRun

/-- A head that can be read and is valid, and whose lines and the pieces that it
comes in are within the limit; `length` is the `Content-Length`. -/
structure Accepted (key : Bytes) (chunks lines : List Bytes) (head : ResponseHead)
    (length : ℕ) : Prop where
  parsed : parseHead (.responseLine, .new) lines = some (head, length)
  valid : validateServerHandshakeResponse key head = none
  small : headCost lines + waits (headLength headerDelimiter lines) chunks *
    sizeofHeaderDelimiter ≤ maxHeaderSize

/-- What is read as frames behind a head. -/
def framesBehind (lines : List Bytes) (length : ℕ) (chunks : List Bytes) : Bytes :=
  let x := behind (headLength headerDelimiter lines) chunks
  x.1.drop length ++ x.2.flatten

/-- A connection with a valid response. -/
theorem run_accepted (maxMessageSize : ℕ) {head : ResponseHead} {length : ℕ}
    (h : Head headerDelimiter lines rest chunks.flatten)
    (hAccepted : Accepted key chunks lines head length) :
    connection maxMessageSize key start chunks =
      (handleReadFrame maxMessageSize .new (framesBehind lines length chunks)).prepend
        (openEvents head) := by
  rw [run_start h, if_neg (Nat.not_lt.mpr hAccepted.small), hAccepted.parsed, Option.elim_some,
    answer, hAccepted.valid]
  rfl

/-- A connection with another one does nothing. -/
theorem run_refused (maxMessageSize : ℕ) (h : Head headerDelimiter lines rest chunks.flatten)
    (hNot : ∀ head length, ¬ Accepted key chunks lines head length) :
    (connection maxMessageSize key start chunks).outputs = [] := by
  rw [run_start h]
  split
  · rfl
  next hSmall =>
  cases hParse : parseHead (.responseLine, .new) lines with
  | none => rfl
  | some x =>
    rw [Option.elim_some, answer]
    cases hValid : validateServerHandshakeResponse key x.1 with
    | some ec => rfl
    | none => exact absurd ⟨hParse, hValid, Nat.not_lt.mp hSmall⟩ (hNot x.1 x.2)

/-- A connection has a valid response, or does nothing. -/
theorem accepted_or_nothing (maxMessageSize : ℕ) (key : Bytes) (chunks : List Bytes) :
    (∃ lines rest head length, Head headerDelimiter lines rest chunks.flatten ∧
        Accepted key chunks lines head length) ∨
      (connection maxMessageSize key start chunks).outputs = [] := by
  -- with an empty line behind it, the stream has a head
  obtain ⟨lines, rest, hMore⟩ := Lines.exists_head (a := 13) (b := 10) (by decide) chunks.flatten
  by_cases hAll : headLength headerDelimiter lines ≤ chunks.flatten.length
  · have hHead := hMore.of_append hAll
    by_cases hSome : ∃ head length, Accepted key chunks lines head length
    · obtain ⟨head, length, hAccepted⟩ := hSome
      exact .inl ⟨lines, _, head, length, hHead, hAccepted⟩
    · exact .inr (run_refused maxMessageSize hHead fun head length h => hSome ⟨head, length, h⟩)
  · exact .inr (connection_short (r := .new) rfl hMore (Nat.lt_of_not_le hAll))

/-- A connection that opens goes on with messages. -/
theorem outputs_accepted (maxMessageSize : ℕ) {head : ResponseHead} {length : ℕ}
    (h : Head headerDelimiter lines rest chunks.flatten)
    (hAccepted : Accepted key chunks lines head length) :
    ∃ ms : List Wire.Message, (connection maxMessageSize key start chunks).outputs =
      openEvents head ++ ms.map .message := by
  rw [run_accepted maxMessageSize h hAccepted]
  exact ⟨_, rfl⟩

theorem openEvents_opened {head : ResponseHead} (h : negotiateExtensions head = false) :
    openEvents head = [.opened] := by
  rw [openEvents, h]
  rfl

theorem count_openEvents (head : ResponseHead) (ms : List Wire.Message) :
    (openEvents head ++ ms.map Event.message).count .opened = 1 := by
  have hMessages : (ms.map Event.message).count .opened = 0 :=
    List.count_eq_zero.mpr (by simp)
  rw [List.count_append, hMessages]
  unfold openEvents
  split
  · rfl
  · rfl

theorem terminated_mem_openEvents (head : ResponseHead) (ms : List Wire.Message) :
    .terminated ∈ openEvents head ++ ms.map .message ↔ negotiateExtensions head = true := by
  unfold openEvents
  cases negotiateExtensions head with
  | true => simp
  | false => simp

/-- **When the open handler is called**: once, when the server has sent a head that
is accepted. -/
theorem opens_iff (maxMessageSize : ℕ) (key : Bytes) (chunks : List Bytes) :
    (connection maxMessageSize key start chunks).outputs.count .opened ≤ 1 ∧
      (.opened ∈ (connection maxMessageSize key start chunks).outputs ↔
        ∃ lines rest head length, Head headerDelimiter lines rest chunks.flatten ∧
          Accepted key chunks lines head length) := by
  have hOne : ∀ lines rest head length, Head headerDelimiter lines rest chunks.flatten →
      Accepted key chunks lines head length →
      (connection maxMessageSize key start chunks).outputs.count .opened = 1 := by
    intro lines rest head length hHead hAccepted
    obtain ⟨ms, hOutputs⟩ := outputs_accepted maxMessageSize hHead hAccepted
    rw [hOutputs, count_openEvents]
  have hOpens : (∃ lines rest head length, Head headerDelimiter lines rest chunks.flatten ∧
      Accepted key chunks lines head length) →
      .opened ∈ (connection maxMessageSize key start chunks).outputs := by
    rintro ⟨lines, rest, head, length, hHead, hAccepted⟩
    exact List.count_pos_iff.mp (hOne lines rest head length hHead hAccepted ▸ Nat.one_pos)
  rcases accepted_or_nothing maxMessageSize key chunks with hSome | hNone
  · refine ⟨?_, fun _ => hSome, hOpens⟩
    obtain ⟨lines, rest, head, length, hHead, hAccepted⟩ := hSome
    exact Nat.le_of_eq (hOne lines rest head length hHead hAccepted)
  · refine ⟨by rw [hNone]; exact Nat.zero_le 1, fun hMem => ?_, hOpens⟩
    rw [hNone] at hMem
    exact absurd hMem List.not_mem_nil

/-- **A connection that is terminated over its extensions is opened all the same**,
and what is left of that read goes on to be read as frames. -/
theorem terminated_iff (maxMessageSize : ℕ) (key : Bytes) (chunks : List Bytes) :
    (.terminated ∈ (connection maxMessageSize key start chunks).outputs ↔
        ∃ lines rest head length, Head headerDelimiter lines rest chunks.flatten ∧
          Accepted key chunks lines head length ∧ negotiateExtensions head = true) ∧
      (.terminated ∈ (connection maxMessageSize key start chunks).outputs →
        [.terminated, .opened] <+: (connection maxMessageSize key start chunks).outputs) := by
  have hMem : ∀ lines rest head length, Head headerDelimiter lines rest chunks.flatten →
      Accepted key chunks lines head length →
      (.terminated ∈ (connection maxMessageSize key start chunks).outputs ↔
        negotiateExtensions head = true) := by
    intro lines rest head length hHead hAccepted
    obtain ⟨ms, hOutputs⟩ := outputs_accepted maxMessageSize hHead hAccepted
    rw [hOutputs, terminated_mem_openEvents]
  -- a run without an accepted response gives nothing at all
  rcases accepted_or_nothing maxMessageSize key chunks with hSome | hNone
  · obtain ⟨lines, rest, head, length, hHead, hAccepted⟩ := hSome
    refine ⟨⟨fun h => ⟨lines, rest, head, length, hHead, hAccepted,
      (hMem _ _ _ _ hHead hAccepted).mp h⟩, ?_⟩, fun h => ?_⟩
    · rintro ⟨lines', rest', head', length', hHead', hAccepted', hBroken⟩
      exact (hMem _ _ _ _ hHead' hAccepted').mpr hBroken
    · obtain ⟨ms, hOutputs⟩ := outputs_accepted maxMessageSize hHead hAccepted
      rw [hOutputs, openEvents, if_pos ((hMem _ _ _ _ hHead hAccepted).mp h)]
      exact List.prefix_append _ _
  · refine ⟨⟨fun h => ?_, ?_⟩, fun h => ?_⟩
    · rw [hNone] at h
      exact absurd h List.not_mem_nil
    · rintro ⟨lines, rest, head, length, hHead, hAccepted, hBroken⟩
      exact (hMem _ _ _ _ hHead hAccepted).mpr hBroken
    · rw [hNone] at h
      exact absurd h List.not_mem_nil

theorem framesBehind_zero (h : Head headerDelimiter lines rest chunks.flatten) :
    framesBehind lines 0 chunks = rest := by
  have hAll : headLength headerDelimiter lines ≤ chunks.flatten.length :=
    h.length_eq ▸ Nat.le_add_right _ _
  exact (Lines.behind_flatten chunks hAll).trans h.drop

theorem framesBehind_first {text : Bytes} (h : headLength headerDelimiter lines = text.length)
    (length : ℕ) (a : Bytes) (more : List Bytes) :
    framesBehind lines length ((text ++ a) :: more) = a.drop length ++ more.flatten := by
  unfold framesBehind
  rw [behind, if_pos (h ▸ (List.prefix_append text a).length_le), h, List.drop_left]

/-- **The frames behind a response** are read as the protocol has it, in whatever
pieces the response and the frames arrive, unless the socket was shut down over the
extensions. -/
theorem frames_after_response (maxMessageSize : ℕ) {head : ResponseHead} {fs : List Wire.Frame}
    (h : Head headerDelimiter lines (fs.flatMap Wire.Frame.encode) chunks.flatten)
    (hAccepted : Accepted key chunks lines head 0)
    (hExtensions : negotiateExtensions head = false) :
    Outcome.Rel (fun s a => ∃ p, s = .processConnection p ∧ p.AtFrame a)
      (connection maxMessageSize key start chunks)
      (((Transducer.run (Wire.accept false maxMessageSize) none fs).map
        Event.message Failure.frame id).prepend [.opened]) := by
  rw [run_accepted maxMessageSize h hAccepted, framesBehind_zero h, openEvents_opened hExtensions]
  refine Outcome.Rel.prepend ?_ _
  have hRead := Processor.read_frames false maxMessageSize fs
    (List.flatten_singleton (l := fs.flatMap Wire.Frame.encode))
  rw [Processor.read_chunks _ _ Processor.idle_new, List.flatten_singleton] at hRead
  exact hRead.map fun p a hAt => ⟨p, rfl, hAt⟩

theorem fits_nil : ([] : Bytes).length < 2 ^ 64 := Nat.two_pow_pos 64

/-- A ping without a payload. -/
def ping : Wire.Frame := ⟨.ping, true, false, false, false, none, [], fits_nil⟩

/-- A response to `sampleKey`, with more lines at its end. -/
def sampleLines (more : List Bytes) : List Bytes :=
  [ascii "HTTP/1.1 101 Switching Protocols", ascii "Upgrade: websocket",
    ascii "Connection: Upgrade", ascii "Sec-WebSocket-Accept: s3pPLMBiTxaQ9kYGzzhZRbK+xOo="] ++ more

def sampleKey : Bytes := ascii "dGhlIHNhbXBsZSBub25jZQ=="

def sampleHead (more : HeaderList) : ResponseHead where
  version := ascii "HTTP/1.1"
  statusCode := 101
  statusMsg := ascii "Switching Protocols"
  headers := (ascii "Connection", ascii "Upgrade") :: more ++
    [(ascii "Sec-WebSocket-Accept", ascii "s3pPLMBiTxaQ9kYGzzhZRbK+xOo="),
      (ascii "Upgrade", ascii "websocket")]

/-- The response comes in two pieces, and a ping in the second one. -/
theorem frames_after_response_ping :
    Outcome.Rel (fun s a => ∃ p, s = .processConnection p ∧ p.AtFrame a)
      (connection 8 sampleKey start
        [(Lines.headText headerDelimiter (sampleLines [])).take 40,
          (Lines.headText headerDelimiter (sampleLines [])).drop 40 ++ ping.encode])
      (((Transducer.run (Wire.accept false 8) none [ping]).map
        Event.message Failure.frame id).prepend [.opened]) := by
  have hHead : Head headerDelimiter (sampleLines []) ([ping].flatMap Wire.Frame.encode)
      [(Lines.headText headerDelimiter (sampleLines [])).take 40,
        (Lines.headText headerDelimiter (sampleLines [])).drop 40 ++ ping.encode].flatten := by
    rw [List.flatMap_singleton, List.flatten_cons, List.flatten_singleton, ← List.append_assoc,
      List.take_append_drop]
    exact Lines.head_headText (by decide +kernel) ping.encode
  have hAccepted : Accepted sampleKey
      [(Lines.headText headerDelimiter (sampleLines [])).take 40,
        (Lines.headText headerDelimiter (sampleLines [])).drop 40 ++ ping.encode]
      (sampleLines []) (sampleHead []) 0 :=
    ⟨by decide +kernel, by decide +kernel, by decide +kernel⟩
  exact frames_after_response 8 hHead hAccepted (by decide +kernel)

/-- One byte is no frame. -/
theorem handleReadFrame_one (maxMessageSize : ℕ) (b : UInt8) :
    (handleReadFrame maxMessageSize .new [b]).outputs = [] := by
  have hTurn : Processor.turn false maxMessageSize (.new, [b]) =
      .ok ((Processor.new.copyBasicHeaderBytes [b]).1, []) := rfl
  have hNone : Processor.handleReadFrame false maxMessageSize .new [b] =
      .ok (Processor.new.copyBasicHeaderBytes [b]).1 := by
    rw [Processor.handleReadFrame_waits Processor.idle_new.2, Processor.pump_ok rfl hTurn]
    exact Processor.pump_wait ⟨Wire.State.noConfusion, Nat.one_ne_zero⟩
  rw [handleReadFrame, hNone]
  rfl

theorem handleReadFrame_ping (maxMessageSize : ℕ) :
    (handleReadFrame maxMessageSize .new ping.encode).outputs = [.message ⟨.ping, []⟩] := by
  have hEncode : [ping.encode].flatten = [ping].flatMap Wire.Frame.encode := rfl
  have hRead := Processor.read_frames false maxMessageSize [ping] hEncode
  rw [Processor.read_chunks _ _ Processor.idle_new, List.flatten_singleton] at hRead
  exact congrArg (List.map Event.message) hRead.1

/-- What a read that ends the head brings: the first bytes behind the head are taken
for the body, as far as they are in this read. -/
theorem run_pieces (maxMessageSize : ℕ) {head : ResponseHead} {length : ℕ} {text : Bytes}
    (hText : Head headerDelimiter lines [] text) (hPrefix : text <+: chunks.flatten)
    (hAccepted : Accepted key chunks lines head length)
    (hExtensions : negotiateExtensions head = false) :
    ∃ done last first later, chunks = done ++ (last ++ first) :: later ∧
      done.flatten ++ last = text ∧ done.flatten.length < text.length ∧
      connection maxMessageSize key start chunks =
        (handleReadFrame maxMessageSize .new (first.drop length ++ later.flatten)).prepend
          [.opened] := by
  obtain ⟨rest, hRest⟩ := hPrefix
  have hHead := hText.append rest
  rw [List.nil_append, hRest] at hHead
  have hLength : headLength headerDelimiter lines = text.length := hText.length_eq.symm
  -- a head has two bytes at least, so that it ends in some piece
  have hPos : 0 < headLength headerDelimiter lines := by
    cases lines with
    | nil => exact Nat.two_pos
    | cons line lines =>
      have hTwo : headerDelimiter.length = 2 := rfl
      rw [headLength]
      omega
  have hAll : headLength headerDelimiter lines ≤ chunks.flatten.length :=
    hHead.length_eq ▸ Nat.le_add_right _ _
  obtain ⟨done, last, hPieces, hTake, hLt⟩ := Lines.exists_behind chunks hPos hAll
  refine ⟨done, last, _, _, hPieces, ?_, hLength ▸ hLt, ?_⟩
  · rw [hTake, hLength, ← hRest, List.take_left]
  · rw [run_accepted maxMessageSize hHead hAccepted, openEvents_opened hExtensions]
    rfl

/-- **Where the pieces do not matter**: the body of a response ends with the read in
which the head ends, and only what follows that read is sure to be frames. -/
theorem pieces_iff (maxMessageSize : ℕ) {head : ResponseHead} {length : ℕ}
    (hParsed : parseHead (.responseLine, .new) lines = some (head, length))
    (hValid : validateServerHandshakeResponse key head = none)
    (hExtensions : negotiateExtensions head = false)
    (hSmall : headCost lines ≤ maxHeaderSize) {text : Bytes}
    (hText : Head headerDelimiter lines [] text) :
    ((∀ chunks chunks' : List Bytes, text <+: chunks.flatten → chunks.flatten = chunks'.flatten →
        Accepted key chunks lines head length → Accepted key chunks' lines head length →
        connection maxMessageSize key start chunks =
          connection maxMessageSize key start chunks') ↔
      length = 0) ∧
    ∀ chunks : List Bytes, text <+: chunks.flatten → Accepted key chunks lines head length →
      ∃ done last first later, chunks = done ++ (last ++ first) :: later ∧
        done.flatten ++ last = text ∧ done.flatten.length < text.length ∧
        connection maxMessageSize key start chunks =
          (handleReadFrame maxMessageSize .new (first.drop length ++ later.flatten)).prepend
            [.opened] := by
  refine ⟨⟨fun hSame => ?_, ?_⟩, fun chunks hPrefix hAccepted =>
    run_pieces maxMessageSize hText hPrefix hAccepted hExtensions⟩
  · have hText' : headLength headerDelimiter lines = text.length := hText.length_eq.symm
    have hAccepted : ∀ a more, Accepted key ((text ++ a) :: more) lines head length := by
      intro a more
      refine ⟨hParsed, hValid, ?_⟩
      rw [waits, if_pos (hText' ▸ (List.prefix_append text a).length_le), Nat.zero_mul]
      exact hSmall
    have hRun : ∀ a more, connection maxMessageSize key start ((text ++ a) :: more) =
        (handleReadFrame maxMessageSize .new (a.drop length ++ more.flatten)).prepend
          (openEvents head) := by
      intro a more
      have hHead := hText.append (a ++ more.flatten)
      rw [List.nil_append, ← List.append_assoc, ← List.flatten_cons] at hHead
      rw [run_accepted maxMessageSize hHead (hAccepted a more), framesBehind_first hText']
    -- a ping behind the head, in the same read or in the next one
    have hPing := hSame [text ++ ping.encode] [text ++ [], ping.encode] (by simp) (by simp)
      (hAccepted _ _) (hAccepted _ _)
    rw [hRun, hRun] at hPing
    have hOutputs := List.append_cancel_left (congrArg Outcome.outputs hPing)
    rw [List.drop_nil, List.nil_append, List.flatten_singleton, List.flatten_nil, List.append_nil,
      handleReadFrame_ping] at hOutputs
    rcases length with _ | _ | n
    · rfl
    · rw [show ping.encode.drop 1 = [0] from by decide, handleReadFrame_one] at hOutputs
      cases hOutputs
    · rw [show ping.encode.drop (n + 2) = [] from List.drop_eq_nil_of_le (Nat.le_add_left 2 n)]
        at hOutputs
      cases hOutputs
  · rintro rfl chunks chunks' ⟨rest, hRest⟩ hFlatten hAccepted hAccepted'
    have hHead := hText.append rest
    rw [hRest] at hHead
    have hHead' := hHead
    rw [hFlatten] at hHead'
    rw [run_accepted maxMessageSize hHead hAccepted, run_accepted maxMessageSize hHead' hAccepted',
      framesBehind_zero hHead, framesBehind_zero hHead']

/-- A response with a body of two bytes. -/
theorem pieces_iff_two :
    ¬ ∀ chunks chunks' : List Bytes,
      Lines.headText headerDelimiter (sampleLines [ascii "Content-Length: 2"]) <+: chunks.flatten →
      chunks.flatten = chunks'.flatten →
      Accepted sampleKey chunks (sampleLines [ascii "Content-Length: 2"])
        (sampleHead [(ascii "Content-Length", ascii "2")]) 2 →
      Accepted sampleKey chunks' (sampleLines [ascii "Content-Length: 2"])
        (sampleHead [(ascii "Content-Length", ascii "2")]) 2 →
      connection 8 sampleKey start chunks = connection 8 sampleKey start chunks' :=
  have hText : Head headerDelimiter (sampleLines [ascii "Content-Length: 2"]) []
      (Lines.headText headerDelimiter (sampleLines [ascii "Content-Length: 2"]) ++ []) :=
    Lines.head_headText (by decide +kernel) []
  fun h => absurd ((pieces_iff 8 (by decide +kernel) (by decide +kernel) (by decide +kernel)
    (by decide +kernel) (by simpa using hText)).1.mp h) (by decide)

end

end PushStreamer.Opening
