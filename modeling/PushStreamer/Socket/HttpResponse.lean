import PushStreamer.Lib.Results
import PushStreamer.Model.Text
import PushStreamer.Socket.Http
import Mathlib.Algebra.Ring.Nat

/-!
# The response of the server

`http::parser::response`: the head of a response, read line by line from what the
transport delivers. A line that is not all there is kept for the next read.

* `consume_head` — a read with the rest of the head.
* `consume_wait` — a read that ends before it.
-/

namespace PushStreamer.Http

open Endpoint (Bytes)
open Lines (cut Head headLength)
open Results

-- ---------------------------------------------------------------------------
-- Numbers in a response
-- ---------------------------------------------------------------------------

def isSpaceByte (c : UInt8) : Bool := c = 32 ∨ 9 ≤ c ∧ c ≤ 13

def isDigitByte (c : UInt8) : Bool := 48 ≤ c ∧ c ≤ 57

/-- What `>>` reads of a number: whether it has a minus, and its digits. -/
def scanNumber (cs : Bytes) : Option (Bool × ℕ) :=
  let cs := cs.dropWhile isSpaceByte
  let negative := cs.head? = some 45
  let cs := if negative ∨ cs.head? = some 43 then cs.tail else cs
  let digits := cs.takeWhile isDigitByte
  if digits = [] then none
  else some (negative, digits.foldl (fun n c => 10 * n + (c.toNat - 48)) 0)

/-- `ss >> code`, an `int`; `none` is `fail()`. -/
def scanInt (cs : Bytes) : Option ℤ :=
  (scanNumber cs).bind fun x =>
    let value : ℤ := if x.1 then -x.2 else x.2
    if intMin ≤ value ∧ value ≤ intMax then some value else none

/-- `ss >> m_read`, a `size_t` of eight bytes; a minus is taken modulo its range. -/
def scanSize (cs : Bytes) : Option ℕ :=
  (scanNumber cs).bind fun x =>
    if x.2 < 2 ^ 64 then some (if x.1 then (2 ^ 64 - x.2) % 2 ^ 64 else x.2) else none

-- ---------------------------------------------------------------------------
-- The parser
-- ---------------------------------------------------------------------------

/-- `response::state`. -/
inductive ResponseState where
  | responseLine
  | headers
  | body
  | done
deriving DecidableEq

/-- What the lines of a response say. -/
structure ResponseHead where
  version : Bytes
  statusCode : ℤ
  statusMsg : Bytes
  headers : HeaderList
deriving DecidableEq

/-- `response`, with the members of `parser` that it uses. -/
structure Response where
  head : ResponseHead
  state : ResponseState
  buf : Bytes
  headerBytes : ℕ
  read : ℕ
  body : Bytes
deriving DecidableEq

def ResponseHead.new : ResponseHead := ⟨[], 0, [], []⟩

namespace Response

/-- The constructor. -/
def new : Response := ⟨.new, .responseLine, [], 0, 0, []⟩

/-- `headers_ready`. -/
def headersReady (r : Response) : Bool := r.state = .body ∨ r.state = .done

/-- `process`: the response line. -/
def process (head : ResponseHead) (line : Bytes) : Except HttpException ResponseHead :=
  match cut (ascii " ") line with
  | none => .error ⟨"Invalid response line", 400⟩
  | some (version, rest) =>
    match cut (ascii " ") rest with
    | none => .error ⟨"Invalid request line", 400⟩
    | some (code, msg) =>
      match scanInt code with
      | none => .error ⟨"Unable to parse response code", 400⟩
      | some code => .ok { head with version, statusCode := code, statusMsg := msg }

/-- A line that is not empty. -/
def processLine (state : ResponseState) (head : ResponseHead) (line : Bytes) :
    Except HttpException ResponseHead :=
  if state = .responseLine then process head line
  else (processHeader head.headers line).map fun headers => { head with headers }

/-- What `m_read` becomes at the end of the head; 0 stands for no length. -/
def contentLength (head : ResponseHead) : Except HttpException ℕ :=
  let length := getHeader head.headers (ascii "Content-Length")
  if length = [] then .ok 0
  else
    match scanSize length with
    | none => .error ⟨"Unable to parse Content-Length header", 400⟩
    | some n => .ok n

/-- `process_body`: the response, and how many bytes it has taken. -/
def processBody (r : Response) (buf : Bytes) : Response × ℕ :=
  if r.read = 0 then ({ r with state := .done }, 0)
  else if r.read ≤ buf.length then
    ({ r with state := .done, body := r.body ++ buf.take r.read, read := 0 }, r.read)
  else ({ r with body := r.body ++ buf, read := r.read - buf.length }, buf.length)

/-- The end of the head, with `after` behind it. -/
def endOfHead (r : Response) (chunk after : Bytes) : Except HttpException (Response × ℕ) :=
  if r.state = .responseLine then .error ⟨"Incomplete Request", 400⟩
  else
    match contentLength r.head with
    | .error e => .error e
    | .ok n =>
      let r := { r with read := n, state := .body }
      let read := chunk.length + headerDelimiter.length - (after.length + headerDelimiter.length)
      let x := if read < chunk.length then r.processBody (chunk.drop read) else (r, 0)
      .ok ({ x.1 with buf := [] }, read + x.2)

/-- `m_header_bytes` with `n` more bytes and a delimiter. -/
def countHeader (r : Response) (n : ℕ) : Except HttpException Response :=
  let headerBytes := r.headerBytes + (n + sizeofHeaderDelimiter)
  if maxHeaderSize < headerBytes then .error ⟨"Maximum header size exceeded.", 431⟩
  else .ok { r with headerBytes }

/-- Where the loop of `consume` stands: what is left of `m_buf`, and what the
function has returned. -/
structure Scan where
  response : Response
  rest : Bytes
  returned : Option ℕ

/-- A turn of the loop of `consume`. -/
def turn (chunk : Bytes) (x : Scan) : Except HttpException Scan :=
  match cut headerDelimiter x.rest with
  | none => do
    let r ← x.response.countHeader x.rest.length
    pure ⟨{ r with
        buf := x.rest
        read := r.read + chunk.length
        headerBytes := r.headerBytes - x.rest.length }, [], some chunk.length⟩
  | some (line, after) => do
    let r ← x.response.countHeader line.length
    if line = [] then
      let y ← r.endOfHead chunk after
      pure ⟨y.1, [], some y.2⟩
    else
      let head ← processLine r.state r.head line
      pure ⟨{ r with head, state := .headers }, after, none⟩

/-- How far the loop of `consume` is from its end. -/
def Scan.left (x : Scan) : ℕ := if x.returned.isNone then x.rest.length + 1 else 0

/-- A turn returns, or takes a line. -/
theorem meets_turn {chunk : Bytes} {x : Scan} (h : x.returned.isNone = true) :
    Meets (fun x' => x'.left < x.left) (fun _ => True) (turn chunk x) := by
  have hReturns : ∀ r n, (⟨r, [], some n⟩ : Scan).left < x.left := by
    intro r n
    unfold Scan.left
    rw [if_pos h, if_neg (by simp)]
    exact Nat.succ_pos _
  unfold turn
  split
  · exact meets_bind (meets_trivial _) fun r _ => meets_pure (hReturns _ _)
  · next line after hCut =>
    refine meets_bind (meets_trivial _) fun r _ => ?_
    split
    · exact meets_bind (meets_trivial _) fun y _ => meets_pure (hReturns _ _)
    · refine meets_bind (meets_trivial _) fun head _ => meets_pure ?_
      have hLength := congrArg List.length (Lines.cut_eq_some hCut)
      have hTwo : headerDelimiter.length = 2 := rfl
      rw [List.length_append, List.length_append, hTwo] at hLength
      unfold Scan.left
      rw [if_pos h]
      show after.length + 1 < x.rest.length + 1
      omega

def consumeLoop (chunk : Bytes) : While HttpException Scan where
  cond x := x.returned.isNone
  body := turn chunk
  measure := Scan.left
  decreases _ _ hCond hBody := (meets_turn hCond).of_ok hBody

/-- `consume`: the response and the number of bytes that were taken. -/
def consume (r : Response) (chunk : Bytes) : Except HttpException (Response × ℕ) :=
  match r.state with
  | .done => .ok (r, 0)
  | .body => .ok (r.processBody chunk)
  | _ => do
    let x ← (consumeLoop chunk).run ⟨r, r.buf ++ chunk, none⟩
    pure (x.response, x.returned.getD 0)

-- ---------------------------------------------------------------------------
-- The head as a whole
-- ---------------------------------------------------------------------------

/-- What a line that is not empty changes. -/
def addLine (x : ResponseState × ResponseHead) (line : Bytes) :
    Except HttpException (ResponseState × ResponseHead) := do
  let head ← processLine x.1 x.2 line
  pure (.headers, head)

/-- The bytes that are counted for lines. -/
def linesCost : List Bytes → ℕ
  | [] => 0
  | line :: lines => line.length + sizeofHeaderDelimiter + linesCost lines

/-- The bytes that are counted for a head. -/
def headCost (lines : List Bytes) : ℕ := linesCost lines + sizeofHeaderDelimiter

/-- A response after some of its lines. -/
def afterLines (r : Response) (lines : List Bytes) (x : ResponseState × ResponseHead) : Response :=
  { r with state := x.1, head := x.2, headerBytes := r.headerBytes + linesCost lines }

section

variable {r : Response} {chunk : Bytes} {lines : List Bytes} {s rest : Bytes}

theorem run_of_returned (n : ℕ) (chunk rest : Bytes) :
    (consumeLoop chunk).run ⟨r, rest, some n⟩ = .ok ⟨r, rest, some n⟩ :=
  While.run_of_not rfl

theorem linesCost_cons (line : Bytes) (lines : List Bytes) :
    linesCost (line :: lines) = line.length + sizeofHeaderDelimiter + linesCost lines := rfl

theorem linesCost_append (lines lines' : List Bytes) :
    linesCost (lines ++ lines') = linesCost lines + linesCost lines' := by
  induction lines with
  | nil => exact (Nat.zero_add _).symm
  | cons line lines ih =>
    rw [List.cons_append, linesCost_cons, linesCost_cons, ih, ← Nat.add_assoc]

/-- More is counted for a head than its length. -/
theorem headLength_lt_headCost (lines : List Bytes) :
    headLength headerDelimiter lines < headCost lines := by
  have hTwo : headerDelimiter.length = 2 := rfl
  have hThree : sizeofHeaderDelimiter = 3 := rfl
  unfold headCost
  induction lines with
  | nil => decide
  | cons line lines ih =>
    rw [headLength, linesCost_cons]
    omega

/-- The loop goes on with what a turn leaves. -/
theorem toOption_run (chunk : Bytes) (x : Scan) (h : x.returned.isNone = true) :
    ((consumeLoop chunk).run x).toOption =
      (turn chunk x).toOption.bind fun x' => ((consumeLoop chunk).run x').toOption := by
  cases hTurn : turn chunk x with
  | error e =>
    rw [While.run_of_error h hTurn]
    rfl
  | ok x' =>
    rw [While.run_of_ok h hTurn]
    rfl

theorem toOption_bind {ε α β : Type} (x : Except ε α) (f : α → Except ε β) :
    (x >>= f).toOption = x.toOption.bind fun a => (f a).toOption := by
  cases x with
  | error e => rfl
  | ok a => rfl

theorem toOption_countHeader (r : Response) (n : ℕ) :
    (r.countHeader n).toOption =
      if maxHeaderSize < r.headerBytes + (n + sizeofHeaderDelimiter) then none
      else some { r with headerBytes := r.headerBytes + (n + sizeofHeaderDelimiter) } := by
  unfold countHeader
  split
  · next h => rw [if_pos h]; rfl
  · next h => rw [if_neg h]; rfl

/-- A line in `m_buf` that is not empty. -/
theorem run_line {line : Bytes} (hLine : Lines.IsLine headerDelimiter line) (hNe : line ≠ []) :
    ((consumeLoop chunk).run ⟨r, line ++ (headerDelimiter ++ s), none⟩).toOption =
      if maxHeaderSize < r.headerBytes + (line.length + sizeofHeaderDelimiter) then none
      else (addLine (r.state, r.head) line).toOption.bind fun x =>
        ((consumeLoop chunk).run ⟨r.afterLines [line] x, s, none⟩).toOption := by
  rw [toOption_run _ _ rfl, turn, Lines.cut_line hLine]
  dsimp only
  rw [toOption_bind, toOption_countHeader]
  by_cases hLarge : maxHeaderSize < r.headerBytes + (line.length + sizeofHeaderDelimiter)
  · rw [if_pos hLarge, if_pos hLarge]
    rfl
  · rw [if_neg hLarge, if_neg hLarge, Option.bind_some, if_neg hNe, toOption_bind, addLine,
      toOption_bind]
    cases processLine r.state r.head line with
    | error e => rfl
    | ok head => rfl

theorem headerBytes_afterLines (r : Response) (line : Bytes) (x : ResponseState × ResponseHead) :
    (r.afterLines [line] x).headerBytes =
      r.headerBytes + (line.length + sizeofHeaderDelimiter) := rfl

/-- A head in `m_buf`. -/
theorem run_head (h : Head headerDelimiter lines rest s) :
    ((consumeLoop chunk).run ⟨r, s, none⟩).toOption =
      if maxHeaderSize < r.headerBytes + headCost lines then none
      else (lines.foldlM addLine (r.state, r.head)).toOption.bind fun x =>
        ({ r.afterLines lines x with
            headerBytes := r.headerBytes + headCost lines }.endOfHead chunk rest).toOption.map
          fun y : Response × ℕ => ⟨y.1, [], some y.2⟩ := by
  induction h generalizing r with
  | blank rest =>
    have hCut := Lines.cut_line (Lines.isLine_nil headerDelimiter) rest
    rw [List.nil_append] at hCut
    rw [toOption_run _ _ rfl, turn, hCut]
    dsimp only
    rw [toOption_bind, toOption_countHeader]
    -- an empty line costs its delimiter, and ends the head
    have hCost : ([] : Bytes).length + sizeofHeaderDelimiter = headCost [] := rfl
    rw [hCost]
    by_cases hLarge : maxHeaderSize < r.headerBytes + headCost []
    · rw [if_pos hLarge, if_pos hLarge]
      rfl
    · rw [if_neg hLarge, if_neg hLarge, Option.bind_some, if_pos rfl, toOption_bind,
        List.foldlM_nil]
      show _ = (endOfHead { r with headerBytes := r.headerBytes + headCost [] } chunk
        rest).toOption.map _
      cases endOfHead { r with headerBytes := r.headerBytes + headCost [] } chunk rest with
      | error e => rfl
      | ok y => exact congrArg Except.toOption (run_of_returned y.2 chunk [])
  | @line line rest s lines hLine hNe h ih =>
    have hCost : ∀ x, (r.afterLines [line] x).headerBytes + headCost lines =
        r.headerBytes + headCost (line :: lines) := by
      intro x
      unfold headCost
      rw [headerBytes_afterLines, linesCost_cons]
      omega
    rw [run_line hLine hNe, List.foldlM_cons, toOption_bind]
    simp only [ih, hCost]
    by_cases hLarge : maxHeaderSize < r.headerBytes + headCost (line :: lines)
    · simp only [if_pos hLarge, ite_self, Option.bind_fun_none]
    · -- the bytes only grow, so that a head that fits has fitted at each line
      have hFirst : ¬ maxHeaderSize < r.headerBytes + (line.length + sizeofHeaderDelimiter) := by
        unfold headCost at hLarge
        rw [linesCost_cons] at hLarge
        omega
      rw [if_neg hFirst, if_neg hLarge]
      simp only [if_neg hLarge, Option.bind_assoc]
      rfl

/-- No line is all there. -/
theorem run_short (hCut : cut headerDelimiter s = none) :
    ((consumeLoop chunk).run ⟨r, s, none⟩).toOption =
      if maxHeaderSize < r.headerBytes + (s.length + sizeofHeaderDelimiter) then none
      else some ⟨{ r with
          buf := s
          read := r.read + chunk.length
          headerBytes := r.headerBytes + sizeofHeaderDelimiter }, [], some chunk.length⟩ := by
  rw [toOption_run _ _ rfl, turn, hCut]
  dsimp only
  rw [toOption_bind, toOption_countHeader]
  by_cases hLarge : maxHeaderSize < r.headerBytes + (s.length + sizeofHeaderDelimiter)
  · rw [if_pos hLarge, if_pos hLarge]
    rfl
  · have hLess : r.headerBytes + (s.length + sizeofHeaderDelimiter) - s.length =
        r.headerBytes + sizeofHeaderDelimiter := by omega
    rw [if_neg hLarge, if_neg hLarge, Option.bind_some]
    dsimp only
    rw [hLess]
    exact congrArg Except.toOption (run_of_returned _ chunk _)

variable (chunk) in
/-- A head that is not all in `m_buf`: some lines are taken, and what is there of
the next one stays. -/
theorem run_wait {t : Bytes} (h : Head headerDelimiter lines rest (s ++ t))
    (hShort : s.length < headLength headerDelimiter lines) :
    ∃ done left p, lines = done ++ left ∧ Head headerDelimiter left rest (p ++ t) ∧
      p.length < headLength headerDelimiter left ∧
      ∀ r : Response, ((consumeLoop chunk).run ⟨r, s, none⟩).toOption =
        if maxHeaderSize < r.headerBytes + linesCost done + (p.length + sizeofHeaderDelimiter)
        then none
        else (done.foldlM addLine (r.state, r.head)).toOption.map fun x =>
          ⟨{ r.afterLines done x with
              buf := p
              read := r.read + chunk.length
              headerBytes := r.headerBytes + linesCost done + sizeofHeaderDelimiter },
            [], some chunk.length⟩ := by
  induction lines generalizing s with
  | nil =>
    cases hCut : cut headerDelimiter s with
    | none => exact ⟨[], [], s, rfl, h, hShort, fun _ => run_short hCut⟩
    | some x =>
      -- an empty line would be the whole head
      have hLength := congrArg List.length (Lines.cut_eq_some hCut)
      have hNil : headLength headerDelimiter ([] : List Bytes) = headerDelimiter.length := rfl
      rw [List.length_append, List.length_append] at hLength
      omega
  | cons line lines ih =>
    cases hCut : cut headerDelimiter s with
    | none => exact ⟨[], line :: lines, s, rfl, h, hShort, fun _ => run_short hCut⟩
    | some x =>
      obtain ⟨l, s'⟩ := x
      rcases h.of_cut (Lines.cut_append hCut t) with ⟨-, hNil, -⟩ | ⟨more, hNe, hSame, hMore⟩
      · cases hNil
      · obtain ⟨rfl, rfl⟩ := List.cons_eq_cons.mp hSame
        have hWhole := Lines.cut_eq_some hCut
        have hLength := congrArg List.length hWhole
        rw [List.length_append, List.length_append] at hLength
        have hLess : s'.length < headLength headerDelimiter lines := by
          rw [headLength] at hShort
          omega
        obtain ⟨done, left, p, rfl, hLeft, hP, hRun⟩ := ih hMore hLess
        refine ⟨line :: done, left, p, rfl, hLeft, hP, fun r => ?_⟩
        rw [← hWhole, run_line (Lines.isLine_of_cut hCut) hNe, List.foldlM_cons, toOption_bind]
        simp only [hRun]
        have hCost : ∀ x, (r.afterLines [line] x).headerBytes + linesCost done =
            r.headerBytes + linesCost (line :: done) := by
          intro x
          rw [headerBytes_afterLines, linesCost_cons]
          omega
        simp only [hCost]
        by_cases hLarge : maxHeaderSize <
            r.headerBytes + linesCost (line :: done) + (p.length + sizeofHeaderDelimiter)
        · simp only [if_pos hLarge, ite_self, Option.bind_fun_none]
        · have hFirst :
              ¬ maxHeaderSize < r.headerBytes + (line.length + sizeofHeaderDelimiter) := by
            rw [linesCost_cons] at hLarge
            omega
          rw [if_neg hFirst]
          simp only [if_neg hLarge, Option.map_bind]
          rfl

theorem toOption_consume (h : r.headersReady = false) :
    (r.consume chunk).toOption =
      ((consumeLoop chunk).run ⟨r, r.buf ++ chunk, none⟩).toOption.map
        fun x => (x.response, x.returned.getD 0) := by
  rw [consume]
  unfold headersReady at h
  cases hState : r.state with
  | done => simp [hState] at h
  | body => simp [hState] at h
  | _ =>
    dsimp only
    rw [toOption_bind, Option.map_eq_bind]
    rfl

/-- What the lines of a head come to, and the length of the body. -/
def parseHead (x : ResponseState × ResponseHead) (lines : List Bytes) :
    Option (ResponseHead × ℕ) :=
  (lines.foldlM addLine x).toOption.bind fun x =>
    if x.1 = .responseLine then none
    else (contentLength x.2).toOption.map fun n => (x.2, n)

variable (chunk) in
/-- What `process_body` takes. -/
theorem processBody_spec (h : r.state = .body) :
    (r.processBody chunk).1.head = r.head ∧ (r.processBody chunk).1.headersReady = true ∧
      chunk.drop (r.processBody chunk).2 = chunk.drop r.read := by
  unfold processBody headersReady
  split
  · next hZero => exact ⟨rfl, by simp, by rw [hZero]⟩
  split
  · exact ⟨rfl, by simp, rfl⟩
  · next hMore =>
    refine ⟨rfl, by simp [h], ?_⟩
    rw [List.drop_length, List.drop_eq_nil_of_le (by omega)]

/-- What the caller sees of a read with the end of the head. -/
theorem toOption_endOfHead (hRest : rest <:+ chunk) :
    (r.endOfHead chunk rest).toOption.map
        (fun y => (y.1.head, y.1.headersReady, chunk.drop y.2)) =
      if r.state = .responseLine then none
      else (contentLength r.head).toOption.map fun n => (r.head, true, rest.drop n) := by
  obtain ⟨before, rfl⟩ := hRest
  -- what `m_read` counts is what stands before the rest
  have hRead : (before ++ rest).length + headerDelimiter.length -
      (rest.length + headerDelimiter.length) = before.length := by
    rw [List.length_append]
    omega
  unfold endOfHead
  rw [hRead]
  split
  · rfl
  · cases contentLength r.head with
    | error e => rfl
    | ok n =>
      have hTotal : (before ++ rest).length = before.length + rest.length := List.length_append
      dsimp only
      rw [List.drop_left, hTotal]
      -- a body that is not there is not processed
      by_cases hMore : before.length < before.length + rest.length
      · obtain ⟨hHead, hReady, hDrop⟩ := processBody_spec
          (r := { r with read := n, state := .body }) rest rfl
        rw [if_pos hMore]
        dsimp only [Except.toOption, Option.map_some]
        rw [hHead, List.drop_length_add_append, hDrop]
        exact congrArg (fun b => some (r.head, b, rest.drop n)) hReady
      · have hNil : rest = [] := List.length_eq_zero_iff.mp (by omega)
        rw [if_neg hMore, hNil, List.append_nil]
        dsimp only [Except.toOption, Option.map_some]
        rw [Nat.add_zero, List.drop_length, List.drop_nil]
        rfl

/-- **A read with the rest of the head.** -/
theorem consume_head (hState : r.headersReady = false)
    (h : Head headerDelimiter lines rest (r.buf ++ chunk)) (hRest : rest <:+ chunk) :
    (r.consume chunk).toOption.map (fun y => (y.1.head, y.1.headersReady, chunk.drop y.2)) =
      if maxHeaderSize < r.headerBytes + headCost lines then none
      else (parseHead (r.state, r.head) lines).map fun x => (x.1, true, rest.drop x.2) := by
  rw [toOption_consume hState, run_head h]
  split
  · rfl
  · unfold parseHead
    rw [Option.map_bind, Option.map_bind, Option.map_bind]
    refine congrArg (Option.bind _) (funext fun x => ?_)
    have hEnd := toOption_endOfHead (r := { r.afterLines lines x with
      headerBytes := r.headerBytes + headCost lines }) hRest
    dsimp only [Function.comp_apply]
    rw [Option.map_map, Option.map_map]
    refine Eq.trans hEnd ?_
    show (if x.1 = .responseLine then none else _) = _
    split
    · rfl
    · rw [Option.map_map]
      rfl

/-- **A read that ends before it.** -/
theorem consume_wait {t : Bytes} (hState : r.headersReady = false)
    (h : Head headerDelimiter lines rest (r.buf ++ chunk ++ t))
    (hShort : (r.buf ++ chunk).length < headLength headerDelimiter lines) :
    ∃ done left p, lines = done ++ left ∧ Head headerDelimiter left rest (p ++ t) ∧
      p.length < headLength headerDelimiter left ∧
      (r.consume chunk).toOption =
        if maxHeaderSize < r.headerBytes + linesCost done + (p.length + sizeofHeaderDelimiter)
        then none
        else (done.foldlM addLine (r.state, r.head)).toOption.map fun x =>
          ({ r.afterLines done x with
              buf := p
              read := r.read + chunk.length
              headerBytes := r.headerBytes + linesCost done + sizeofHeaderDelimiter },
            chunk.length) := by
  obtain ⟨done, left, p, rfl, hLeft, hP, hRun⟩ := run_wait chunk h hShort
  refine ⟨done, left, p, rfl, hLeft, hP, ?_⟩
  rw [toOption_consume hState, hRun]
  split
  · rfl
  · rw [Option.map_map]
    rfl

end

end Response

end PushStreamer.Http
