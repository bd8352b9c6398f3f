import PushStreamer.Model.JsonWriter
import PushStreamer.Session.Replay

/-!
# Changes of the resolution

`ModifiyStartParams` sets three members of the recorded payload and records the
payload again. The reader has decoded the escapes of the old payload, the
writer copies the characters that they stood for, and the new payload goes
through the code page of the system: characters that are not ASCII can be lost.

* `resolution_change_iff` — when only the three members change.
* `escape_is_lost` — an escaped character that is replaced by a question mark.
-/

namespace PushStreamer

open Value

-- ---------------------------------------------------------------------------
-- What a change should do
-- ---------------------------------------------------------------------------

/-- The members that are set. -/
def resolutionNames : List String := ["framerate", "bitrate", "deadline"]

/-- The member `name` of the object `ms` with the new texts. -/
def changedMember (ms : List (String × Value)) (framerate bitrate deadline name : String) :
    Option Value :=
  if name = "framerate" then some (.str framerate)
  else if name = "bitrate" then some (.str bitrate)
  else if name = "deadline" then some (.str deadline)
  else ms.lookup name

/-- There is nothing to change, or nothing to change it to. -/
def NothingToChange (setup : Setup) (s : Session) (framerate bitrate deadline : String) : Prop :=
  framerate = "" ∨ bitrate = "" ∨ deadline = "" ∨ s.getGameInfo = "" ∨
    setup.parse s.getGameInfo = none

/-- A change of the resolution sets the three members of the recorded payload
and nothing else, and the last change counts. With nothing to change, the
record stays and no handler is started. -/
structure ChangesResolution (setup : Setup) (s : Session) (framerate bitrate deadline : String) :
    Prop where
  ends : Prog.Ends (sessionHandler setup.codePage) Quiet
    (modifiyStartParams setup framerate bitrate deadline) s
  edits : framerate ≠ "" → bitrate ≠ "" → deadline ≠ "" →
    ∀ ms, setup.parse s.getGameInfo = some (.obj ms) →
    ∀ t r s', Prog.Exec (sessionHandler setup.codePage) (fun _ => True)
      (modifiyStartParams setup framerate bitrate deadline) s t r s' →
    ∃ payload ks, s'.record = s.record.map (fun x => { x with startGameParame := payload }) ∧
      setup.parse s'.getGameInfo = some (.obj ks) ∧
      ∀ name, ks.lookup name = changedMember ms framerate bitrate deadline name
  lastWins : framerate ≠ "" → bitrate ≠ "" → deadline ≠ "" →
    ∀ ms, setup.parse s.getGameInfo = some (.obj ms) →
    ∀ framerate' bitrate' deadline', framerate' ≠ "" → bitrate' ≠ "" → deadline' ≠ "" →
    ∀ t₁ r₁ s₁ t₂ r₂ s₂ t r s',
      Prog.Exec (sessionHandler setup.codePage) (fun _ => True)
        (modifiyStartParams setup framerate bitrate deadline) s t₁ r₁ s₁ →
      Prog.Exec (sessionHandler setup.codePage) (fun _ => True)
        (modifiyStartParams setup framerate' bitrate' deadline') s₁ t₂ r₂ s₂ →
      Prog.Exec (sessionHandler setup.codePage) (fun _ => True)
        (modifiyStartParams setup framerate' bitrate' deadline') s t r s' →
      s₂.record = s'.record
  keeps : NothingToChange setup s framerate bitrate deadline →
    ∀ t r s', Prog.Exec (sessionHandler setup.codePage) (fun _ => True)
      (modifiyStartParams setup framerate bitrate deadline) s t r s' → s'.record = s.record
  startsNone : NothingToChange setup s framerate bitrate deadline →
    ∀ paramData root, setup.parse paramData = some root →
    readResolution root = .ok (framerate, bitrate, deadline) →
    ∀ t r s', Prog.Exec (sessionHandler setup.codePage) (fun _ => True)
      (changeResolutionCallback setup paramData) s t r s' → r = .ok none ∧ s'.record = s.record

/-- What is written of an object reads back as the same object. -/
def ReadsBack (setup : Setup) (ms : List (String × Value)) : Prop :=
  ∃ ks, setup.parse (setup.write (.obj ms)) = some (.obj ks) ∧
    ∀ name, ks.lookup name = ms.lookup name

/-- Outside the three members the object has ASCII texts only. -/
def PlainElsewhere (ms : List (String × Value)) : Prop :=
  ∀ name x, ms.lookup name = some x → name ∉ resolutionNames →
    FastWriter.AsciiText name ∧ ¬ FastWriter.Foreign x

-- ---------------------------------------------------------------------------
-- What a change does
-- ---------------------------------------------------------------------------

/-- The members of an object after `ModifiyStartParams`. -/
def resolutionMembers (ms : List (String × Value)) (framerate bitrate deadline : String) :
    List (String × Value) :=
  insertMember "deadline" (.str deadline) (insertMember "bitrate" (.str bitrate)
    (insertMember "framerate" (.str framerate) ms))

/-- What the payload has under each name after the change. -/
theorem lookup_resolutionMembers (ms : List (String × Value))
    (framerate bitrate deadline name : String) :
    (resolutionMembers ms framerate bitrate deadline).lookup name =
      changedMember ms framerate bitrate deadline name := by
  unfold resolutionMembers changedMember
  rw [lookup_insertMember, lookup_insertMember, lookup_insertMember]
  by_cases hFramerate : name = "framerate"
  · rw [hFramerate]
    rfl
  by_cases hBitrate : name = "bitrate"
  · rw [hBitrate]
    rfl
  rw [if_neg hFramerate, if_neg hBitrate, if_neg hFramerate, if_neg hBitrate]

/-- Other names keep their member. -/
theorem changedMember_of_not_mem {ms : List (String × Value)}
    {framerate bitrate deadline name : String} (h : name ∉ resolutionNames) :
    changedMember ms framerate bitrate deadline name = ms.lookup name := by
  have hNe : ∀ other ∈ resolutionNames, name ≠ other := fun other hMem hEq => h (hEq ▸ hMem)
  unfold changedMember
  rw [if_neg (hNe "framerate" (by decide)), if_neg (hNe "bitrate" (by decide)),
    if_neg (hNe "deadline" (by decide))]

/-- The three names get one of the new texts. -/
theorem changedMember_of_mem (ms : List (String × Value)) {name : String}
    (h : name ∈ resolutionNames) (framerate bitrate deadline : String) :
    ∃ text ∈ [framerate, bitrate, deadline],
      changedMember ms framerate bitrate deadline name = some (.str text) := by
  simp only [resolutionNames, List.mem_cons, List.not_mem_nil, or_false] at h
  rcases h with rfl | rfl | rfl
  · exact ⟨framerate, by simp, rfl⟩
  · exact ⟨bitrate, by simp, rfl⟩
  · exact ⟨deadline, by simp, rfl⟩

theorem asciiText_of_mem {name : String} (h : name ∈ resolutionNames) :
    FastWriter.AsciiText name := by
  have hAll : ∀ name ∈ resolutionNames, FastWriter.AsciiText name := by decide
  exact hAll name h

/-- The later change of two counts. -/
theorem changedMember_congr {ms ks : List (String × Value)}
    {framerate bitrate deadline : String}
    (h : ∀ name, ks.lookup name = changedMember ms framerate bitrate deadline name)
    (framerate' bitrate' deadline' name : String) :
    changedMember ks framerate' bitrate' deadline' name =
      changedMember ms framerate' bitrate' deadline' name := by
  by_cases hName : name ∈ resolutionNames
  · simp only [resolutionNames, List.mem_cons, List.not_mem_nil, or_false] at hName
    rcases hName with rfl | rfl | rfl
    · rfl
    · rfl
    · rfl
  · rw [changedMember_of_not_mem hName, changedMember_of_not_mem hName, h,
      changedMember_of_not_mem hName]

section

variable {setup : Setup} {A : Env → Prop} {s s' : Session} {t : List (Event sessionSig)}
  {framerate bitrate deadline : String} {ms : List (String × Value)}

/-- With a text missing there is no new payload. -/
theorem newStartParams_of_nothing (h : NothingToChange setup s framerate bitrate deadline) :
    Trigger.newStartParams setup s framerate bitrate deadline = .ok "" := by
  unfold Trigger.newStartParams
  split
  · rename_i hAll
    have hParse : setup.parse s.getGameInfo = none := by
      obtain ⟨hFramerate, hBitrate, hDeadline, hInfo⟩ := hAll
      rcases h with h | h | h | h | h
      · exact absurd h hFramerate
      · exact absurd h hBitrate
      · exact absurd h hDeadline
      · exact absurd h hInfo
      · exact h
    rw [hParse]
  · rfl

/-- The new payload is the recorded one with the three members. -/
theorem newStartParams_of_object (hFramerate : framerate ≠ "") (hBitrate : bitrate ≠ "")
    (hDeadline : deadline ≠ "") (hParse : setup.parse s.getGameInfo = some (.obj ms)) :
    Trigger.newStartParams setup s framerate bitrate deadline =
      .ok (setup.write (.obj (resolutionMembers ms (setup.codePage.recode framerate)
        (setup.codePage.recode bitrate) (setup.codePage.recode deadline)))) := by
  unfold Trigger.newStartParams
  rw [if_pos ⟨hFramerate, hBitrate, hDeadline, Setup.ne_of_parse hParse⟩, hParse]
  rfl

/-- The new payload, after a change. -/
theorem exec_change {r : Except JsonFailure String} (hFramerate : framerate ≠ "")
    (hBitrate : bitrate ≠ "") (hDeadline : deadline ≠ "")
    (hParse : setup.parse s.getGameInfo = some (.obj ms))
    (h : Prog.Exec (sessionHandler setup.codePage) A
      (modifiyStartParams setup framerate bitrate deadline) s t r s') :
    s'.record = s.record.map fun x => x.set (setup.codePage.recode (setup.write
      (.obj (resolutionMembers ms (setup.codePage.recode framerate)
        (setup.codePage.recode bitrate) (setup.codePage.recode deadline))))) .startGameParame := by
  obtain ⟨rfl, hRecord⟩ := exec_modifiyStartParams h
  rw [hRecord, newStartParams_of_object hFramerate hBitrate hDeadline hParse]
  exact if_pos (setup.write_ne _)

/-- The payload of a record is the one that was set last. -/
theorem getGameInfo_of_record {payload : String} {root : Value}
    (hParse : setup.parse s.getGameInfo = some root)
    (h : s'.record = s.record.map fun x => x.set payload .startGameParame) :
    s'.getGameInfo = payload := by
  have hInfo := Setup.ne_of_parse hParse
  unfold Session.getGameInfo at hInfo ⊢
  rw [h]
  cases hRecord : s.record with
  | none =>
    rw [hRecord] at hInfo
    exact absurd rfl hInfo
  | some x => rfl

/-- With a text missing nothing is recorded. -/
theorem exec_nothing {r : Except JsonFailure String}
    (hNothing : NothingToChange setup s framerate bitrate deadline)
    (h : Prog.Exec (sessionHandler setup.codePage) A
      (modifiyStartParams setup framerate bitrate deadline) s t r s') :
    r = .ok "" ∧ s'.record = s.record := by
  obtain ⟨rfl, hRecord⟩ := exec_modifiyStartParams h
  rw [newStartParams_of_nothing hNothing] at hRecord ⊢
  exact ⟨rfl, hRecord⟩

/-- With a text missing nothing is replayed. -/
theorem exec_callback_nothing {paramData : String} {root : Value}
    {r : Except JsonFailure (Option (String × StartGameModel))}
    (hNothing : NothingToChange setup s framerate bitrate deadline)
    (hParam : setup.parse paramData = some root)
    (hRead : readResolution root = .ok (framerate, bitrate, deadline))
    (h : Prog.Exec (sessionHandler setup.codePage) A (changeResolutionCallback setup paramData)
      s t r s') : r = .ok none ∧ s'.record = s.record := by
  have hData : paramData ≠ "" := Setup.ne_of_parse hParam
  unfold changeResolutionCallback at h
  rw [if_neg hData, hParam] at h
  dsimp only at h
  rw [hRead] at h
  obtain ⟨t₁, t₂, params, s₁, rfl, hModify, hRest⟩ := Prog.exec_bind.mp h
  obtain ⟨rfl, hRecord⟩ := exec_nothing hNothing hModify
  obtain ⟨-, rfl, rfl⟩ := Prog.exec_pure.mp hRest
  exact ⟨rfl, hRecord⟩

-- ---------------------------------------------------------------------------
-- When only the three members change
-- ---------------------------------------------------------------------------

/-- A code page without other characters: a text that has some is lost. -/
def CodePage.asciiOnly : CodePage where
  recode s := if FastWriter.AllAscii s.toList then s else ""
  ascii _ h := if_pos h
  ws2s s := if FastWriter.AllAscii s.toList then s else ""
  ws2s_ascii _ h := if_pos h

/-- A text with other characters is lost. -/
theorem recode_asciiOnly {text : String} (h : ¬ FastWriter.AllAscii text.toList) :
    CodePage.asciiOnly.recode text = "" := if_neg h

/-- The written object is ASCII when its texts are. -/
theorem ascii_written_iff (hAscii : ∀ text ∈ [framerate, bitrate, deadline],
      FastWriter.AllAscii text.toList) :
    FastWriter.AllAscii (FastWriter.write
      (.obj (resolutionMembers ms framerate bitrate deadline))).toList ↔ PlainElsewhere ms := by
  rw [FastWriter.ascii_write_iff, FastWriter.not_foreign_obj_iff]
  constructor
  · intro h name x hLookup hName
    refine h name x ?_
    rw [lookup_resolutionMembers, changedMember_of_not_mem hName, hLookup]
  · intro h name x hLookup
    rw [lookup_resolutionMembers] at hLookup
    by_cases hName : name ∈ resolutionNames
    · obtain ⟨text, hText, hChanged⟩ := changedMember_of_mem ms hName framerate bitrate deadline
      obtain rfl := Option.some.inj (hLookup.symm.trans hChanged)
      exact ⟨asciiText_of_mem hName,
        FastWriter.not_foreign_str_iff.mpr (FastWriter.asciiText_of_allAscii (hAscii text hText))⟩
    · rw [changedMember_of_not_mem hName] at hLookup
      exact h name x hLookup hName

/-- Two calls record what the second records alone, when the payload between
them reads as the first has changed it. -/
theorem record_of_two {s₁ s₂ : Session} {t₁ t₂ : List (Event sessionSig)}
    {r₁ r₂ : Except JsonFailure String} {framerate' bitrate' deadline' payload : String}
    {ks : List (String × Value)} (hWrite : setup.write = FastWriter.write)
    (hFramerate : framerate' ≠ "") (hBitrate : bitrate' ≠ "") (hDeadline : deadline' ≠ "")
    (hParse : setup.parse s.getGameInfo = some (.obj ms))
    (hFirst : s₁.record = s.record.map fun x => x.set payload .startGameParame)
    (hBetween : setup.parse s₁.getGameInfo = some (.obj ks))
    (hChanged : ∀ name, ks.lookup name = changedMember ms framerate bitrate deadline name)
    (h₂ : Prog.Exec (sessionHandler setup.codePage) A
      (modifiyStartParams setup framerate' bitrate' deadline') s₁ t₁ r₁ s₂)
    (h : Prog.Exec (sessionHandler setup.codePage) A
      (modifiyStartParams setup framerate' bitrate' deadline') s t₂ r₂ s') :
    s₂.record = s'.record := by
  have hTwo := exec_change hFramerate hBitrate hDeadline hBetween h₂
  have hOne := exec_change hFramerate hBitrate hDeadline hParse h
  rw [hWrite] at hTwo hOne
  rw [hTwo, hOne, hFirst, Option.map_map]
  -- the two objects are written alike
  have hSame : ∀ framerate bitrate deadline,
      FastWriter.write (.obj (resolutionMembers ks framerate bitrate deadline)) =
        FastWriter.write (.obj (resolutionMembers ms framerate bitrate deadline)) := by
    intro framerate bitrate deadline
    refine FastWriter.write_congr fun name => ?_
    rw [lookup_resolutionMembers, lookup_resolutionMembers, changedMember_congr hChanged]
  rw [hSame]
  rfl

/-- The new payload, when the three texts are ASCII. -/
theorem exec_ascii_change {r : Except JsonFailure String} (hFramerate : framerate ≠ "")
    (hBitrate : bitrate ≠ "") (hDeadline : deadline ≠ "")
    (hAscii : ∀ text ∈ [framerate, bitrate, deadline], FastWriter.AllAscii text.toList)
    (hParse : setup.parse s.getGameInfo = some (.obj ms))
    (h : Prog.Exec (sessionHandler setup.codePage) A
      (modifiyStartParams setup framerate bitrate deadline) s t r s') :
    s'.record = s.record.map fun x => x.set (setup.codePage.recode (setup.write
      (.obj (resolutionMembers ms framerate bitrate deadline)))) .startGameParame := by
  have hRecord := exec_change hFramerate hBitrate hDeadline hParse h
  rw [setup.codePage.ascii framerate (hAscii _ (by simp)),
    setup.codePage.ascii bitrate (hAscii _ (by simp)),
    setup.codePage.ascii deadline (hAscii _ (by simp))] at hRecord
  exact hRecord

/-- It has no loops. -/
theorem ends_modifiyStartParams (setup : Setup) (framerate bitrate deadline : String)
    (s : Session) : Prog.Ends (sessionHandler setup.codePage) Quiet
      (modifiyStartParams setup framerate bitrate deadline) s :=
  Prog.ends_of_all quiet_quietEnv (all_modifiyStartParams (fun _ => rfl) (fun _ _ => rfl) _ _ _) s

/-- Only the three members change, when the code page keeps the new payload. -/
theorem changesResolution_of_kept (hWrite : setup.write = FastWriter.write)
    (hAscii : ∀ text ∈ [framerate, bitrate, deadline], FastWriter.AllAscii text.toList)
    (hReads : ∀ ms, setup.parse s.getGameInfo = some (.obj ms) →
      ReadsBack setup (resolutionMembers ms framerate bitrate deadline))
    (hKept : framerate ≠ "" → bitrate ≠ "" → deadline ≠ "" →
      ∀ ms, setup.parse s.getGameInfo = some (.obj ms) →
        setup.codePage.recode (setup.write (.obj (resolutionMembers ms framerate bitrate
          deadline))) = setup.write (.obj (resolutionMembers ms framerate bitrate deadline))) :
    ChangesResolution setup s framerate bitrate deadline := by
  -- the payload that is recorded, and what it reads as
  have hEdits : framerate ≠ "" → bitrate ≠ "" → deadline ≠ "" →
      ∀ ms, setup.parse s.getGameInfo = some (.obj ms) →
      ∀ t r s', Prog.Exec (sessionHandler setup.codePage) (fun _ => True)
        (modifiyStartParams setup framerate bitrate deadline) s t r s' →
      ∃ payload ks, s'.record = s.record.map (fun x => x.set payload .startGameParame) ∧
        setup.parse s'.getGameInfo = some (.obj ks) ∧
        ∀ name, ks.lookup name = changedMember ms framerate bitrate deadline name := by
    intro hFramerate hBitrate hDeadline ms hParse t r s' hExec
    have hRecord := exec_ascii_change hFramerate hBitrate hDeadline hAscii hParse hExec
    obtain ⟨ks, hKs, hSame⟩ := hReads ms hParse
    refine ⟨_, ks, hRecord, ?_, fun name => ?_⟩
    · rw [getGameInfo_of_record hParse hRecord,
        hKept hFramerate hBitrate hDeadline ms hParse, hKs]
    · rw [hSame name, lookup_resolutionMembers]
  refine
    { ends := ends_modifiyStartParams setup framerate bitrate deadline s
      edits := hEdits
      lastWins := ?_
      keeps := fun hNothing t r s' hExec => (exec_nothing hNothing hExec).2
      startsNone := fun hNothing paramData root hParam hRead t r s' hExec =>
        exec_callback_nothing hNothing hParam hRead hExec }
  intro hFramerate hBitrate hDeadline ms hParse framerate' bitrate' deadline' hFramerate'
    hBitrate' hDeadline' t₁ r₁ s₁ t₂ r₂ s₂ t r s' h₁ h₂ h
  obtain ⟨payload, ks, hFirst, hBetween, hChanged⟩ :=
    hEdits hFramerate hBitrate hDeadline ms hParse t₁ r₁ s₁ h₁
  exact record_of_two hWrite hFramerate' hBitrate' hDeadline' hParse hFirst hBetween hChanged h₂ h

/-- On a system that loses every other text, what is recorded must be ASCII. -/
theorem plain_of_asciiOnly (hCodePage : setup.codePage = .asciiOnly)
    (hWrite : setup.write = FastWriter.write) (hFramerate : framerate ≠ "")
    (hBitrate : bitrate ≠ "") (hDeadline : deadline ≠ "")
    (hAscii : ∀ text ∈ [framerate, bitrate, deadline], FastWriter.AllAscii text.toList)
    (hParse : setup.parse s.getGameInfo = some (.obj ms))
    (h : ChangesResolution setup s framerate bitrate deadline) : PlainElsewhere ms := by
  rw [← ascii_written_iff hAscii]
  by_contra hForeign
  obtain ⟨t, r, s', hQuiet⟩ := h.ends
  have hExec := hQuiet.mono fun _ _ => trivial
  have hRecord := exec_ascii_change hFramerate hBitrate hDeadline hAscii hParse hExec
  have hLost : s'.getGameInfo = "" := by
    rw [getGameInfo_of_record hParse hRecord, hCodePage, hWrite, recode_asciiOnly hForeign]
  obtain ⟨-, ks, -, hKs, -⟩ := h.edits hFramerate hBitrate hDeadline ms hParse t r s' hExec
  exact Setup.ne_of_parse hKs hLost

/-- **Changes of the resolution.** Whatever the code page of the system is, only
the three members change, just when the texts of the other members are ASCII. -/
theorem resolution_change_iff (hWrite : setup.write = FastWriter.write)
    (hAscii : ∀ text ∈ [framerate, bitrate, deadline], FastWriter.AllAscii text.toList)
    (hReads : ∀ ms, setup.parse s.getGameInfo = some (.obj ms) →
      ReadsBack setup (resolutionMembers ms framerate bitrate deadline)) :
    (∀ codePage, ChangesResolution { setup with codePage } s framerate bitrate deadline) ↔
      (framerate ≠ "" → bitrate ≠ "" → deadline ≠ "" →
        ∀ ms, setup.parse s.getGameInfo = some (.obj ms) → PlainElsewhere ms) := by
  constructor
  · intro h hFramerate hBitrate hDeadline ms hParse
    refine plain_of_asciiOnly ?_ ?_ hFramerate hBitrate hDeadline hAscii ?_ (h .asciiOnly)
    · rfl
    · exact hWrite
    · exact hParse
  · intro hPlain codePage
    refine changesResolution_of_kept hWrite hAscii hReads ?_
    intro hFramerate hBitrate hDeadline ms hParse
    refine codePage.ascii _ ?_
    show FastWriter.AllAscii (setup.write _).toList
    rw [hWrite, ascii_written_iff hAscii]
    exact hPlain hFramerate hBitrate hDeadline ms hParse

end

-- ---------------------------------------------------------------------------
-- Payloads with a title
-- ---------------------------------------------------------------------------

-- characters that are not ASCII become question marks
def questionMarked (s : String) : String :=
  String.ofList ((cString s.toList).map fun c => if IsAscii c then c else '?')

theorem questionMarked_ascii (s : String) (h : ∀ c ∈ s.toList, 0 < c.toNat ∧ c.toNat < 128) :
    questionMarked s = s := by
  have hSame : ∀ c ∈ s.toList, (if IsAscii c then c else '?') = c := fun c hc => if_pos (h c hc)
  rw [questionMarked, cString_of_isAscii h, List.map_congr_left hSame, List.map_id',
    String.ofList_toList]

/-- A code page without other characters: they become question marks. -/
def CodePage.questionMarks : CodePage where
  recode := questionMarked
  ascii := questionMarked_ascii
  ws2s := questionMarked
  ws2s_ascii := questionMarked_ascii

def titled (title : String) : List (String × Value) := [("title", .str title)]

-- the object after a change, in the order of its map
def titledStream (title : String) : List (String × Value) :=
  [("bitrate", .str "8000"), ("deadline", .str "1"), ("framerate", .str "60"),
   ("title", .str title)]

def titledValues : List Value :=
  ["x", "\u4e2d", "?"].flatMap fun title => [.obj (titled title), .obj (titledStream title)]

def escapedPayload : String := "\x7b\"title\":\"\\u4e2d\"\x7d"

def titledPayloads : List (String × Value) :=
  (escapedPayload, .obj (titled "\u4e2d")) :: titledValues.map fun v => (FastWriter.write v, v)

/-- The writer, and the reader on the payload above and on what is written of
these values. -/
def titledSetup : Setup :=
  { sampleSetup with
    codePage := .questionMarks
    parse := fun data => titledPayloads.lookup data
    write := FastWriter.write
    parse_empty := rfl
    write_ne := FastWriter.write_ne }

def titledSession (payload : String) : Session :=
  { sampleSession with record := some ⟨payload, "1", "g1"⟩ }

/-- The setup reads back what it writes of these values. -/
theorem titledSetup_reads :
    ∀ v ∈ titledValues, titledSetup.parse (titledSetup.write v) = some v := by
  intro v hMem
  simp only [titledValues, List.flatMap_cons, List.flatMap_nil, List.append_nil, List.mem_append,
    List.mem_cons, List.not_mem_nil, or_false] at hMem
  rcases hMem with (rfl | rfl) | (rfl | rfl) | rfl | rfl
  · rfl
  · rfl
  · rfl
  · rfl
  · rfl
  · rfl

/-- The changed payload is read back. -/
theorem readsBack_titled {title : String} (h : .obj (titledStream title) ∈ titledValues) :
    ReadsBack titledSetup (resolutionMembers (titled title) "60" "8000" "1") := by
  have hSame : ∀ name, (titledStream title).lookup name =
      (resolutionMembers (titled title) "60" "8000" "1").lookup name := by
    intro name
    rw [lookup_resolutionMembers]
    unfold titledStream titled changedMember
    rw [lookup_member, lookup_member, lookup_member]
    by_cases hFramerate : name = "framerate"
    · rw [hFramerate]
      rfl
    by_cases hBitrate : name = "bitrate"
    · rw [hBitrate]
      rfl
    rw [if_neg hFramerate, if_neg hBitrate, if_neg hFramerate]
  refine ⟨titledStream title, ?_, hSame⟩
  have hWrite : titledSetup.write (.obj (resolutionMembers (titled title) "60" "8000" "1")) =
      titledSetup.write (.obj (titledStream title)) :=
    FastWriter.write_congr fun name => (hSame name).symm
  rw [hWrite, titledSetup_reads _ h]

theorem ascii_titledStream : ∀ text ∈ ["60", "8000", "1"], FastWriter.AllAscii text.toList := by
  decide

/-- A plain title survives on this system, as on every other. -/
theorem plain_title_is_kept : ChangesResolution titledSetup
    (titledSession (FastWriter.write (.obj (titled "x")))) "60" "8000" "1" := by
  have hParse : titledSetup.parse (titledSession (FastWriter.write (.obj (titled "x")))).getGameInfo
      = some (.obj (titled "x")) := titledSetup_reads _ (by simp [titledValues])
  have hReads : ∀ ms, titledSetup.parse
      (titledSession (FastWriter.write (.obj (titled "x")))).getGameInfo = some (.obj ms) →
        ReadsBack titledSetup (resolutionMembers ms "60" "8000" "1") := by
    intro ms hMs
    obtain rfl := Value.obj.inj (Option.some.inj (hMs.symm.trans hParse))
    exact readsBack_titled (by simp [titledValues])
  refine (resolution_change_iff rfl ascii_titledStream hReads).mpr ?_ .questionMarks
  intro _ _ _ ms hMs name x hLookup _
  obtain rfl := Value.obj.inj (Option.some.inj (hMs.symm.trans hParse))
  rw [titled, lookup_member] at hLookup
  split at hLookup
  · rename_i hName
    obtain rfl := Option.some.inj hLookup
    rw [hName, FastWriter.not_foreign_str_iff]
    decide
  · cases hLookup

/-- An ASCII payload, and a reader and a writer that invert each other: the
character that an escape stands for becomes a question mark. -/
theorem escape_is_lost :
    (∀ text v, titledSetup.parse text = some v →
      titledSetup.parse (titledSetup.write v) = some v) ∧
    FastWriter.AllAscii escapedPayload.toList ∧
    titledSetup.parse escapedPayload = some (.obj (titled "\u4e2d")) ∧
    ReadsBack titledSetup (resolutionMembers (titled "\u4e2d") "60" "8000" "1") ∧
    ¬ ChangesResolution titledSetup (titledSession escapedPayload) "60" "8000" "1" := by
  have hParse : titledSetup.parse escapedPayload = some (.obj (titled "\u4e2d")) := rfl
  refine ⟨fun text v hText => ?_, by decide, hParse, readsBack_titled (by simp [titledValues]),
    fun h => ?_⟩
  · -- what is read is one of the values
    obtain ⟨before, after, hTable, -⟩ := List.lookup_eq_some_iff.mp hText
    have hMem : (text, v) ∈ titledPayloads := hTable ▸ by simp
    rcases List.mem_cons.mp hMem with hFirst | hRest
    · obtain ⟨-, rfl⟩ := Prod.mk.inj hFirst
      exact titledSetup_reads _ (by simp [titledValues])
    · obtain ⟨w, hValue, hPair⟩ := List.mem_map.mp hRest
      obtain ⟨-, rfl⟩ := Prod.mk.inj hPair
      exact titledSetup_reads w hValue
  · obtain ⟨t, r, s', hQuiet⟩ := h.ends
    have hExec := hQuiet.mono fun _ _ => trivial
    have hRecord := exec_ascii_change (by decide) (by decide) (by decide) ascii_titledStream
      hParse hExec
    have hGarbled : CodePage.questionMarks.recode (FastWriter.write
        (.obj (resolutionMembers (titled "\u4e2d") "60" "8000" "1"))) =
          FastWriter.write (.obj (titledStream "?")) := by decide +kernel
    obtain ⟨-, ks, -, hKs, hSame⟩ :=
      h.edits (by decide) (by decide) (by decide) _ hParse t r s' hExec
    have hRead : titledSetup.parse s'.getGameInfo = some (.obj (titledStream "?")) := by
      rw [getGameInfo_of_record hParse hRecord]
      show titledSetup.parse (CodePage.questionMarks.recode (FastWriter.write _)) = _
      rw [hGarbled]
      exact titledSetup_reads _ (by simp [titledValues])
    obtain rfl := Value.obj.inj (Option.some.inj (hKs.symm.trans hRead))
    have hTitle := Value.str.inj (Option.some.inj (hSame "title"))
    exact absurd hTitle (by decide)

end PushStreamer
