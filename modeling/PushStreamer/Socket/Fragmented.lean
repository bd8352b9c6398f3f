import PushStreamer.Socket.Dispatch

/-!
# Messages in fragments

A data message may come in several frames, with control frames between them. The
text of a frame is decoded as it comes, but `finalize_message` asks whether a
character is complete only when the last frame of the message is a TEXT frame, and
the last frame of a message in fragments is a CONTINUATION.

* `accept_control`, `accept_continuation` — one frame after the first.
* `run_rest` — the frames after the first.
* `fragmented_iff` — what is asked of the bytes of a message in fragments: a text
  may break off inside a character.
* `whole_iff` — what is asked of a message in one frame.
-/

namespace PushStreamer.Wire

open Endpoint (Bytes Opcode)
open Endpoint.Opcode (isControl)
open Outcome (ok error)
open Utf8 (WellFormed)

/-- The payloads of the data frames among `fs`. -/
def dataOf (fs : List Frame) : Bytes :=
  (fs.filter fun f => !isControl f.opcode).flatMap Frame.payload

/-- The messages of the control frames among `fs`. -/
def controlsOf (fs : List Frame) : List Message :=
  (fs.filter fun f => isControl f.opcode).map fun f => ⟨f.opcode, f.payload⟩

/-- A message in fragments, each with a header that the reader accepts. -/
structure Fragmented (server : Bool) (first : Frame) (middle : List Frame) (last : Frame) :
    Prop where
  checkFirst : checkFrame server true first = none
  dataFirst : isControl first.opcode = false
  more : first.fin = false
  checkMiddle : ∀ f ∈ middle, checkFrame server false f = none ∧
    (isControl f.opcode = true ∨ f.fin = false)
  checkLast : checkFrame server false last = none
  dataLast : isControl last.opcode = false
  final : last.fin = true

section

variable {server : Bool} {maxMessageSize : ℕ} {m : Fragments} {f : Frame}

/-- The texts that a frame may end in: the beginnings of the well-formed ones. -/
def Begins (s : Bytes) : Prop := ∃ t, WellFormed (s ++ t)

theorem decode_iff (s : Bytes) : (Validator.new.decode s).1 = true ↔ Begins s := by
  have hFst := Validator.decode_fst_iff (v := .new) (s := s) (by decide) (by decide)
  rw [hFst]
  exact exists_congr fun t => Validator.follows_zero_iff

/-- The validator has seen the message. -/
def Seen (m : Fragments) : Prop :=
  m.msg.opcode = .text → Validator.new.decode m.msg.payload = (true, m.validator)

theorem accept_control (hCheck : checkFrame server false f = none)
    (hControl : isControl f.opcode = true) :
    accept server maxMessageSize (some m) f = ⟨[⟨f.opcode, f.payload⟩], .ok (some m)⟩ := by
  unfold accept
  rw [show (some m).isNone = false from rfl, hCheck]
  exact if_pos hControl

/-- A message with one more fragment. -/
def Fragments.add (m : Fragments) (payload : Bytes) : Fragments where
  msg := ⟨m.msg.opcode, m.msg.payload ++ payload⟩
  validator := (if m.msg.opcode = .text then m.validator.decode payload else (true, m.validator)).2

theorem accept_continuation (hCheck : checkFrame server false f = none)
    (hData : isControl f.opcode = false)
    (hSize : (m.msg.payload.length + f.payload.length) % 2 ^ 64 ≤ maxMessageSize) :
    accept server maxMessageSize (some m) f = extend m f.opcode f.fin f.payload := by
  have hNot : ¬ isControl f.opcode = true := by rw [hData]; decide
  unfold accept
  rw [show (some m).isNone = false from rfl, hCheck]
  exact (if_neg hNot).trans (if_neg (Nat.not_lt.mpr hSize))

/-- A data frame after the first one is a CONTINUATION. -/
theorem opcode_continuation (hCheck : checkFrame server false f = none)
    (hData : isControl f.opcode = false) : f.opcode = opContinuation := by
  by_contra hOther
  have hOp : f.basicHeader.getOpcode = f.opcode := getOpcode_new
  unfold checkFrame validateIncomingBasicHeader at hCheck
  dsimp only at hCheck
  rw [hOp, hData] at hCheck
  simp only [hOther, ne_eq, not_false_eq_true, and_self, Bool.not_false, if_true,
    Bool.false_eq_true, false_and, if_false] at hCheck
  split at hCheck
  · cases hCheck
  split at hCheck
  · cases hCheck
  split at hCheck <;> cases hCheck

/-- What is asked of one more fragment. -/
theorem seen_add_iff (hSeen : Seen m) (payload : Bytes) :
    (m.msg.opcode = .text → (m.validator.decode payload).1 = true) ↔
      (m.msg.opcode = .text → Begins (m.msg.payload ++ payload)) := by
  refine forall_congr' fun hText => ?_
  have hDecode := hSeen hText
  rw [← decode_iff, Validator.decode_append, hDecode]
  rfl

theorem seen_add (hSeen : Seen m) {payload : Bytes}
    (hOk : m.msg.opcode = .text → (m.validator.decode payload).1 = true) :
    Seen (m.add payload) := by
  intro hText
  have hText' : m.msg.opcode = .text := hText
  show Validator.new.decode (m.msg.payload ++ payload) = (true, (Fragments.add m payload).validator)
  rw [Validator.decode_append, hSeen hText', if_pos rfl, Fragments.add, if_pos hText']
  exact Prod.ext (hOk hText') rfl

/-- A frame at whose end nothing is asked of the text. -/
theorem extend_eq (hLast : f.fin = false ∨ f.opcode ≠ .text) :
    extend m f.opcode f.fin f.payload =
      if m.msg.opcode = .text → (m.validator.decode f.payload).1 = true then
        if f.fin then ⟨[(m.add f.payload).msg], .ok none⟩ else ok (some (m.add f.payload))
      else error .invalidUtf8 := by
  have hUnasked : f.fin = true → ¬ f.opcode = .text := by
    intro hFin
    rcases hLast with hMore | hNot
    · cases hMore.symm.trans hFin
    · exact hNot
  unfold extend Fragments.add
  dsimp only
  cases hFin : f.fin with
  | false =>
    by_cases hText : m.msg.opcode = .text
    · cases hOk : (m.validator.decode f.payload).1 <;> simp [hText, hOk]
    · simp [hText]
  | true =>
    have hNot := hUnasked hFin
    by_cases hText : m.msg.opcode = .text
    · cases hOk : (m.validator.decode f.payload).1 <;> simp [hText, hOk, hNot]
    · simp [hText, hNot]

theorem begins_of_append {s t : Bytes} (h : Begins (s ++ t)) : Begins s := by
  obtain ⟨u, hu⟩ := h
  exact ⟨t ++ u, by rw [← List.append_assoc]; exact hu⟩

end

section

variable {server : Bool} {maxMessageSize : ℕ} {last : Frame}

/-- The rest of a message, of which some fragments have come. -/
theorem run_rest (hLast : checkFrame server false last = none)
    (hDataLast : isControl last.opcode = false) (hFinal : last.fin = true) {m : Fragments}
    (hSeen : Seen m) {middle : List Frame}
    (hMiddle : ∀ f ∈ middle, checkFrame server false f = none ∧
      (isControl f.opcode = true ∨ f.fin = false))
    (hSize : (m.msg.payload ++ dataOf middle ++ last.payload).length ≤ maxMessageSize) :
    ((m.msg.opcode = .text → Begins (m.msg.payload ++ dataOf middle ++ last.payload)) →
      Transducer.run (accept server maxMessageSize) (some m) (middle ++ [last]) =
        ⟨controlsOf middle ++ [⟨m.msg.opcode, m.msg.payload ++ dataOf middle ++ last.payload⟩],
          .ok none⟩) ∧
    (¬ (m.msg.opcode = .text → Begins (m.msg.payload ++ dataOf middle ++ last.payload)) →
      ∃ os, Transducer.run (accept server maxMessageSize) (some m) (middle ++ [last]) =
        ⟨os, .error .invalidUtf8⟩) := by
  induction middle generalizing m with
  | nil =>
    have hNil : dataOf [] = [] := rfl
    -- the last frame: the message is ready, or its bytes are refused
    rw [hNil, List.append_nil] at hSize ⊢
    have hNot : last.opcode ≠ .text := by
      rw [opcode_continuation hLast hDataLast]
      decide
    have hLength : (m.msg.payload.length + last.payload.length) % 2 ^ 64 ≤ maxMessageSize := by
      rw [← List.length_append]
      exact Nat.le_trans (Nat.mod_le _ _) hSize
    rw [← seen_add_iff hSeen, List.nil_append, Transducer.run_cons,
      accept_continuation hLast hDataLast hLength, extend_eq (.inr hNot)]
    constructor
    · intro hOk
      rw [if_pos hOk, if_pos hFinal]
      rfl
    · intro hBad
      rw [if_neg hBad]
      exact ⟨[], rfl⟩
  | cons f middle ih =>
    obtain ⟨⟨hCheck, hKind⟩, hRest⟩ := List.forall_mem_cons.mp hMiddle
    rw [List.cons_append, Transducer.run_cons]
    -- a control frame is given out and leaves the message, a fragment is added to it
    by_cases hControl : isControl f.opcode = true
    · have hData : dataOf (f :: middle) = dataOf middle := by simp [dataOf, hControl]
      have hControls : controlsOf (f :: middle) = ⟨f.opcode, f.payload⟩ :: controlsOf middle := by
        simp [controlsOf, hControl]
      rw [hData] at hSize ⊢
      rw [hControls, accept_control hCheck hControl]
      obtain ⟨hGood, hBad⟩ := ih hSeen hRest hSize
      constructor
      · intro h
        exact congrArg (Outcome.prepend [(⟨f.opcode, f.payload⟩ : Message)]) (hGood h)
      · intro h
        obtain ⟨os, hRun⟩ := hBad h
        exact ⟨_, congrArg (Outcome.prepend [(⟨f.opcode, f.payload⟩ : Message)]) hRun⟩
    · have hIs : isControl f.opcode = false := Bool.eq_false_iff.mpr hControl
      have hMore : f.fin = false := hKind.resolve_left hControl
      have hData : dataOf (f :: middle) = f.payload ++ dataOf middle := by simp [dataOf, hIs]
      have hControls : controlsOf (f :: middle) = controlsOf middle := by simp [controlsOf, hIs]
      -- the fragment moves from what is to come to what is stored
      have hAssoc : m.msg.payload ++ dataOf (f :: middle) ++ last.payload =
          (m.add f.payload).msg.payload ++ dataOf middle ++ last.payload := by
        rw [hData, ← List.append_assoc]
        rfl
      have hLength : (m.msg.payload.length + f.payload.length) % 2 ^ 64 ≤ maxMessageSize := by
        refine Nat.le_trans (Nat.mod_le _ _) (Nat.le_trans ?_ hSize)
        rw [hAssoc, List.append_assoc, List.length_append]
        exact Nat.le_trans (Nat.le_of_eq List.length_append.symm) (Nat.le_add_right _ _)
      rw [hControls, accept_continuation hCheck hIs hLength, extend_eq (.inl hMore)]
      by_cases hOk : m.msg.opcode = .text → (m.validator.decode f.payload).1 = true
      · rw [hAssoc] at hSize ⊢
        rw [if_pos hOk, if_neg (by rw [hMore]; decide)]
        exact ih (seen_add hSeen hOk) hRest hSize
      · -- what is refused begins no text, whatever comes after it
        rw [if_neg hOk]
        refine ⟨fun h => absurd ((seen_add_iff hSeen f.payload).mpr ?_) hOk, fun _ => ⟨[], rfl⟩⟩
        intro hText
        have hAll := h hText
        rw [hAssoc, List.append_assoc] at hAll
        exact begins_of_append hAll

/-- What is asked of a message in fragments. -/
theorem run_fragmented {first : Frame} {middle : List Frame}
    (h : Fragmented server first middle last)
    (hSize : (first.payload ++ dataOf middle ++ last.payload).length ≤ maxMessageSize) :
    ((first.opcode = .text → Begins (first.payload ++ dataOf middle ++ last.payload)) →
      Transducer.run (accept server maxMessageSize) none (first :: (middle ++ [last])) =
        ⟨controlsOf middle ++ [⟨first.opcode, first.payload ++ dataOf middle ++ last.payload⟩],
          .ok none⟩) ∧
    (¬ (first.opcode = .text → Begins (first.payload ++ dataOf middle ++ last.payload)) →
      ∃ os, Transducer.run (accept server maxMessageSize) none (first :: (middle ++ [last])) =
        ⟨os, .error .invalidUtf8⟩) := by
  let m : Fragments := ⟨⟨first.opcode, []⟩, .new⟩
  have hSeen : Seen m := fun _ => rfl
  have hNot : ¬ isControl first.opcode = true := by rw [h.dataFirst]; decide
  have hLength : ([] : Bytes).length + first.payload.length ≤ maxMessageSize := by
    rw [List.length_append, List.length_append] at hSize
    rw [List.length_nil]
    omega
  have hAccept : accept server maxMessageSize none first =
      extend m first.opcode first.fin first.payload := by
    unfold accept
    rw [show (none : Option Fragments).isNone = true from rfl, h.checkFirst]
    exact (if_neg hNot).trans (if_neg (Nat.not_lt.mpr (Nat.le_trans (Nat.mod_le _ _) hLength)))
  rw [Transducer.run_cons, hAccept, extend_eq (.inl h.more)]
  by_cases hOk : m.msg.opcode = .text → (m.validator.decode first.payload).1 = true
  · rw [if_pos hOk, if_neg (by rw [h.more]; decide)]
    exact run_rest h.checkLast h.dataLast h.final (seen_add hSeen hOk) h.checkMiddle hSize
  · rw [if_neg hOk]
    refine ⟨fun h' => absurd ((seen_add_iff hSeen first.payload).mpr ?_) hOk, fun _ => ⟨[], rfl⟩⟩
    intro hText
    have hAll := h' hText
    rw [List.append_assoc] at hAll
    exact begins_of_append hAll

end

/-- **A message in fragments** that is not too long is given to the handlers, after
the pings and pongs that came between them, just when its bytes are not a text or
begin some well-formed text: nothing asks whether the text ends where the message
does. A close between the fragments would keep the message from its handler. -/
theorem fragmented_iff (server : Bool) (maxMessageSize : ℕ) {first last : Frame}
    {middle : List Frame} (h : Fragmented server first middle last)
    (hSize : (first.payload ++ dataOf middle ++ last.payload).length ≤ maxMessageSize)
    (hNoClose : ∀ f ∈ middle, f.opcode ≠ opClose) {chunks : List Bytes}
    (hChunks : chunks.flatten = (first :: (middle ++ [last])).flatMap Frame.encode)
    (draw : ℕ → UInt32) :
    (∃ ms p', Transducer.run (Processor.handleReadFrame server maxMessageSize) .new chunks =
        ⟨ms, .ok p'⟩ ∧ handed server draw ms =
          controlsOf middle ++ [⟨first.opcode, first.payload ++ dataOf middle ++ last.payload⟩]) ↔
      (first.opcode = .text → Begins (first.payload ++ dataOf middle ++ last.payload)) := by
  have hRel := Processor.run_frames server maxMessageSize Processor.atFrame_new _ hChunks
  obtain ⟨hGood, hBad⟩ := run_fragmented h hSize
  -- the bytes do what the protocol says of the frames, and no close keeps the message back
  by_cases hText : first.opcode = .text → Begins (first.payload ++ dataOf middle ++ last.payload)
  · rw [hGood hText] at hRel
    obtain ⟨p', hRead, -⟩ := hRel.to_ok
    refine iff_of_true ⟨_, p', hRead, ?_⟩ hText
    have hData : Regular ⟨first.opcode, first.payload ++ dataOf middle ++ last.payload⟩ ∧
        first.opcode ≠ opClose := by
      refine ⟨fun hControl => ?_, fun hOp => ?_⟩
      · cases h.dataFirst.symm.trans hControl
      · have hFirst := h.dataFirst
        rw [hOp] at hFirst
        cases hFirst
    have hControls : ∀ m ∈ controlsOf middle, Regular m ∧ m.opcode ≠ opClose := by
      intro m hm
      obtain ⟨f, hf, rfl⟩ := List.mem_map.mp hm
      have hMem := List.mem_of_mem_filter hf
      -- what is given out between the fragments are the pings and pongs
      exact ⟨regular_of_check (h.checkMiddle f hMem).1, hNoClose f hMem⟩
    have hAll : ∀ m ∈ controlsOf middle ++
        [⟨first.opcode, first.payload ++ dataOf middle ++ last.payload⟩],
        Regular m ∧ m.opcode ≠ opClose :=
      List.forall_mem_append.mpr ⟨hControls, List.forall_mem_singleton.mpr hData⟩
    exact handed_of_no_close server draw (fun m hm => (hAll m hm).1) fun m hm => (hAll m hm).2
  · obtain ⟨os, hRun⟩ := hBad hText
    rw [hRun] at hRel
    refine iff_of_false ?_ hText
    rintro ⟨ms, p', hRead, -⟩
    rw [hRead] at hRel
    obtain ⟨a', hOk, -⟩ := hRel.of_ok
    cases congrArg Outcome.result hOk

/-- The first byte of a character, a ping and an empty last fragment. -/
theorem fragmented_broken :
    (∃ ms p', Transducer.run (Processor.handleReadFrame false 8) .new
        [[0x01, 0x01, 0xC3, 0x89], [0x00, 0x80, 0x00]] = ⟨ms, .ok p'⟩ ∧
        handed false (fun _ => 0) ms =
          controlsOf [⟨.ping, true, false, false, false, none, [], by decide⟩] ++
            [⟨.text, [0xC3]⟩]) ↔ (Opcode.text = .text → Begins [0xC3]) := by
  have h : Fragmented false ⟨.text, false, false, false, false, none, [0xC3], by decide⟩
      [⟨.ping, true, false, false, false, none, [], by decide⟩]
      ⟨opContinuation, true, false, false, false, none, [], by decide⟩ :=
    ⟨by decide, rfl, rfl, by decide, by decide, rfl, rfl⟩
  exact fragmented_iff false 8 h (by decide) (by decide) (by decide) fun _ => 0

/-- **A message in one frame** must be a well-formed text, or no text. -/
theorem whole_iff (server : Bool) (maxMessageSize : ℕ) {f : Frame}
    (hCheck : checkFrame server true f = none) (hData : isControl f.opcode = false)
    (hFin : f.fin = true) (hSize : f.payload.length ≤ maxMessageSize) :
    accept server maxMessageSize none f = ⟨[⟨f.opcode, f.payload⟩], .ok none⟩ ↔
      (f.opcode = .text → WellFormed f.payload) := by
  have hNot : ¬ isControl f.opcode = true := by rw [hData]; decide
  have hLength : (([] : Bytes).length + f.payload.length) % 2 ^ 64 ≤ maxMessageSize := by
    rw [List.length_nil, Nat.zero_add]
    exact Nat.le_trans (Nat.mod_le _ _) hSize
  have hAccept : accept server maxMessageSize none f =
      extend ⟨⟨f.opcode, []⟩, .new⟩ f.opcode f.fin f.payload := by
    unfold accept
    rw [show (none : Option Fragments).isNone = true from rfl, hCheck]
    exact (if_neg hNot).trans (if_neg (Nat.not_lt.mpr hLength))
  have hValid : WellFormed f.payload ↔ (Validator.new.decode f.payload).1 = true ∧
      (Validator.new.decode f.payload).2.complete = true := by
    rw [← validate_iff]
    unfold validate
    rcases Validator.new.decode f.payload with ⟨_ | _, v⟩ <;> simp
  rw [hAccept, hFin]
  unfold extend
  dsimp only
  by_cases hText : f.opcode = .text
  · rw [if_pos hText, forall_prop_of_true hText, hValid]
    rcases Validator.new.decode f.payload with ⟨_ | _, v⟩
    · exact iff_of_false (fun h => by cases congrArg Outcome.result h) fun h => by cases h.1
    · cases hComplete : v.complete with
      | false =>
        refine iff_of_false (fun h => ?_) fun h => by cases h.2
        simp [hText, error] at h
      | true => simp
  · simp [hText]

end PushStreamer.Wire
