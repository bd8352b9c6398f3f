import PushStreamer.Model.JsonRoundTrip
import PushStreamer.Session.Resolution

/-!
# The handlers with the vendored JSON library

The handlers read and write JSON with `Json::Reader` and `Json::FastWriter`. A
payload that the reader has read comes back from the writer, so a change of the
resolution needs no assumption on the library, but for the real numbers in the
payload.

* `vendored_change_iff` — when only the three members change.
-/

namespace PushStreamer

open Value

/-- The program reads and writes with the vendored library. -/
structure Vendored (scan : List Char → Option ℚ) (setup : Setup) : Prop where
  reader : ∀ text, setup.parse text = (Reader.parse scan text).toOption
  writer : setup.write = FastWriter.write

section

variable {setup : Setup} {scan : List Char → Option ℚ} {ms : List (String × Value)}
  {framerate bitrate deadline : String}

/-- What the program has read. -/
theorem Vendored.parse_iff (h : Vendored scan setup) {text : String} {v : Value} :
    setup.parse text = some v ↔ Reader.parse scan text = .ok v := by
  rw [h.reader]
  cases Reader.parse scan text with
  | error e => simp [Except.toOption]
  | ok w => simp [Except.toOption]

theorem zeroFree_of_ascii {text : String} (h : FastWriter.AllAscii text.toList) :
    Reader.ZeroFree text := fun hMem => absurd (h _ hMem).1 (by decide)

/-- A member after a change: a new text, or an old member. -/
theorem changedMember_cases {name : String} {x : Value}
    (h : changedMember ms framerate bitrate deadline name = some x) :
    name ∈ resolutionNames ∧ (∃ text ∈ [framerate, bitrate, deadline], x = .str text) ∨
      (name, x) ∈ ms := by
  by_cases hName : name ∈ resolutionNames
  · obtain ⟨text, hText, hChanged⟩ := changedMember_of_mem ms hName framerate bitrate deadline
    exact Or.inl ⟨hName, text, hText, Option.some.inj (h.symm.trans hChanged)⟩
  · rw [changedMember_of_not_mem hName] at h
    exact Or.inr (Reader.mem_of_lookup h)

/-- **A changed payload reads back**, when the old one was read and its real
numbers come back. -/
theorem readsBack_vendored (hSetup : Vendored scan setup) (hScan : Reader.ScansIntegers scan)
    (hAscii : ∀ text ∈ [framerate, bitrate, deadline], FastWriter.AllAscii text.toList)
    (hParsed : Reader.Parsed scan (.obj ms))
    (hReals : Reader.AllReals (Reader.Settled scan) (.obj ms)) :
    ReadsBack setup (resolutionMembers ms framerate bitrate deadline) := by
  have hSettled := hReals.mono fun _ h => h.rereadable
  cases hParsed with
  | obj _ hNames hMembers =>
    cases hReals with
    | obj hReals =>
      cases hSettled with
      | obj hSettled =>
        -- each member can be written, and comes back
        have hMember : ∀ name x,
            (resolutionMembers ms framerate bitrate deadline).lookup name = some x →
            Reader.ZeroFree name ∧ Reader.Storable scan x ∧ Reader.reread scan x = x := by
          intro name x hLookup
          rw [lookup_resolutionMembers] at hLookup
          rcases changedMember_cases hLookup with ⟨hName, text, hText, rfl⟩ | hMem
          · have hFree : ∀ name ∈ resolutionNames, Reader.ZeroFree name := by decide
            exact ⟨hFree name hName, .str (zeroFree_of_ascii (hAscii text hText)), rfl⟩
          · exact ⟨hNames _ hMem, Reader.storable_of_parsed (hMembers _ hMem) (hSettled _ hMem),
              Reader.reread_of_parsed (hMembers _ hMem) (hReals _ hMem)⟩
        have hStorable : Reader.Storable scan
            (.obj (resolutionMembers ms framerate bitrate deadline)) :=
          .obj (fun name x h => (hMember name x h).1) fun name x h => (hMember name x h).2.1
        obtain ⟨ks, hReread, hLookup⟩ := Reader.lookup_reread scan
          (resolutionMembers ms framerate bitrate deadline)
        have hParse := Reader.parse_of_readAs (Reader.readAs_writeValue hScan hStorable) ""
        rw [hReread, String.append_empty] at hParse
        refine ⟨ks, ?_, fun name => ?_⟩
        · rw [hSetup.writer]
          exact hSetup.parse_iff.mpr hParse
        · rw [hLookup name]
          cases hOld : (resolutionMembers ms framerate bitrate deadline).lookup name with
          | none => rfl
          | some x => rw [Option.map_some, (hMember name x hOld).2.2]

/-- **Changes of the resolution** with the vendored reader and writer: whatever
the code page of the system is, only the three members change, just when the
texts of the other members are ASCII. -/
theorem vendored_change_iff {s : Session} (hSetup : Vendored scan setup)
    (hScan : Reader.ScansIntegers scan)
    (hAscii : ∀ text ∈ [framerate, bitrate, deadline], FastWriter.AllAscii text.toList)
    (hReals : ∀ ms, Reader.parse scan s.getGameInfo = .ok (.obj ms) →
      Reader.AllReals (Reader.Settled scan) (.obj ms)) :
    (∀ codePage, ChangesResolution { setup with codePage } s framerate bitrate deadline) ↔
      (framerate ≠ "" → bitrate ≠ "" → deadline ≠ "" →
        ∀ ms, Reader.parse scan s.getGameInfo = .ok (.obj ms) → PlainElsewhere ms) := by
  constructor
  · intro h hFramerate hBitrate hDeadline ms hParse
    refine plain_of_asciiOnly ?_ ?_ hFramerate hBitrate hDeadline hAscii ?_ (h .asciiOnly)
    · rfl
    · exact hSetup.writer
    · exact hSetup.parse_iff.mpr hParse
  · intro hPlain codePage
    refine changesResolution_of_kept hSetup.writer hAscii ?_ ?_
    · intro ms hMs
      have hParse : Reader.parse scan s.getGameInfo = .ok (.obj ms) := hSetup.parse_iff.mp hMs
      have hSame : Vendored scan { setup with codePage } := ⟨hSetup.reader, hSetup.writer⟩
      exact readsBack_vendored hSame hScan hAscii ((Reader.meets_parse scan _).of_ok hParse)
        (hReals ms hParse)
    · intro hFramerate hBitrate hDeadline ms hMs
      have hParse : Reader.parse scan s.getGameInfo = .ok (.obj ms) := hSetup.parse_iff.mp hMs
      refine codePage.ascii _ ?_
      show FastWriter.AllAscii (setup.write _).toList
      rw [hSetup.writer, ascii_written_iff hAscii]
      exact hPlain hFramerate hBitrate hDeadline ms hParse

end

/-- The program with the vendored library, on a system with a code page of its
own. -/
def vendoredSetup : Setup :=
  { sampleSetup with
    codePage := .questionMarks
    parse := fun text => (Reader.parse Reader.scanDecimal text).toOption
    write := FastWriter.write
    parse_empty := rfl
    write_ne := FastWriter.write_ne }

theorem vendored_vendoredSetup : Vendored Reader.scanDecimal vendoredSetup := ⟨fun _ => rfl, rfl⟩

theorem parsed_titled {title : String} (h : Reader.ZeroFree title) :
    Reader.Parsed Reader.scanDecimal (.obj (titled title)) := by
  have hName : Reader.ZeroFree "title" := by decide
  exact .obj (List.pairwise_singleton _ _) (List.forall_mem_singleton.mpr hName)
    (List.forall_mem_singleton.mpr (.str h))

/-- A plain title survives on this system. -/
theorem vendored_title_is_kept : ChangesResolution vendoredSetup
    (titledSession (FastWriter.write (.obj (titled "x")))) "60" "8000" "1" := by
  have hParsed : Reader.Parsed Reader.scanDecimal (.obj (titled "x")) := parsed_titled (by decide)
  have hReals : ∀ P, Reader.AllReals P (.obj (titled "x")) := fun P =>
    .obj (List.forall_mem_singleton.mpr (.str "x"))
  have hParse : Reader.parse Reader.scanDecimal (FastWriter.write (.obj (titled "x"))) =
      .ok (.obj (titled "x")) := by
    have hRead := Reader.parse_of_readAs (Reader.readAs_writeValue
      Reader.scansIntegers_scanDecimal (Reader.storable_of_parsed hParsed (hReals _))) ""
    rwa [String.append_empty, Reader.reread_of_parsed hParsed (hReals _)] at hRead
  have hSame : ∀ ms, Reader.parse Reader.scanDecimal
      (titledSession (FastWriter.write (.obj (titled "x")))).getGameInfo = .ok (.obj ms) →
      ms = titled "x" := fun ms hMs =>
    (Value.obj.inj (Except.ok.inj (hParse.symm.trans hMs))).symm
  refine (vendored_change_iff vendored_vendoredSetup Reader.scansIntegers_scanDecimal
    (by decide) ?_).mpr ?_ .questionMarks
  · intro ms hMs
    rw [hSame ms hMs]
    exact hReals _
  · intro _ _ _ ms hMs name x hLookup _
    rw [hSame ms hMs, titled, lookup_member] at hLookup
    split at hLookup
    · rename_i hName
      obtain rfl := Option.some.inj hLookup
      rw [hName, FastWriter.not_foreign_str_iff]
      decide
    · cases hLookup

end PushStreamer
