import PushStreamer.Session.StartGame

/-!
# The launch script

The path of a game is two texts joined by `&&`. `StartGameByGameId` takes it
apart with `split`, to which `&&` is a set of characters, joins the first two
tokens with semicolons, and takes the result apart again at the semicolons for
`ExecuteOutterScript`.

* `launch_script_iff` — when the script gets the two texts, and when a path
  without `&&` starts none.
-/

namespace PushStreamer

/-- The scripts that are started, with their arguments. -/
def scripts (t : List (Event sessionSig)) : List (List String) :=
  t.filterMap fun ev =>
    match ev.op with
    | .executeOutterScript params => some params
    | _ => none

/-- Every run of `StartGameByGameId` starts these scripts. -/
def Launches (setup : Setup) (gameId : String) (calls : List (List String)) : Prop :=
  ∀ t u, Prog.Path (startGameByGameId setup gameId) t u → scripts t = calls

/-- The characters of a text, none of which separates anything. -/
def Plain (s : String) : Prop := ∀ c ∈ s.toList, c ≠ '&' ∧ c ≠ ';' ∧ c ≠ '\x00'

instance (s : String) : Decidable (Plain s) := List.decidableBAll _ s.toList

section

variable {setup : Setup} {gameId : String}

/-- Fewer than two tokens start nothing. -/
theorem launches_of_few {tokens : List String} {calls : List (List String)}
    (hTokens : split (getGamePathByID setup gameId) "&&" = tokens) (h : tokens.length < 2) :
    Launches setup gameId calls ↔ calls = [] := by
  have hProg : startGameByGameId setup gameId = pure () := by
    rw [startGameByGameId, hTokens]
    rcases tokens with _ | ⟨p, _ | ⟨q, rest⟩⟩
    · rfl
    · rfl
    · rw [List.length_cons, List.length_cons] at h
      omega
  rw [Launches, hProg]
  constructor
  · intro hAll
    exact (hAll [] () (.ret ())).symm
  · rintro rfl t u hPath
    obtain ⟨rfl, -⟩ := Prog.path_pure.mp hPath
    rfl

/-- Of two tokens or more, the parts of the first two are the arguments. -/
theorem launches_of_tokens {p q : String} {rest : List String} {calls : List (List String)}
    (hTokens : split (getGamePathByID setup gameId) "&&" = p :: q :: rest) :
    Launches setup gameId calls ↔ calls = ["start" ::
      ((splitParts ';' p).map String.ofList ++ (splitParts ';' q).map String.ofList)] := by
  -- `start`, and the two tokens between semicolons
  have hList : ("start;" ++ p ++ ";" ++ q).toList =
      "start".toList ++ ';' :: (p.toList ++ ';' :: q.toList) := by
    simp only [String.toList_append, List.append_assoc]
    rfl
  have hParts : splitParts ';' ("start;" ++ p ++ ";" ++ q) =
      "start".toList :: (splitParts ';' p ++ splitParts ';' q) := by
    unfold splitParts
    rw [hList, List.splitOn_append_cons_self, List.splitOn_append_cons_self,
      List.splitOn_eq_singleton (by decide)]
    rfl
  have hProg : startGameByGameId setup gameId = act (.executeOutterScript ("start" ::
      ((splitParts ';' p).map String.ofList ++ (splitParts ';' q).map String.ofList))) := by
    rw [startGameByGameId, hTokens]
    dsimp only
    rw [hParts, List.map_cons, List.map_append]
    rfl
  rw [Launches, hProg]
  constructor
  · intro hAll
    exact (hAll _ () (Prog.path_perform.mpr rfl)).symm
  · rintro rfl t u hPath
    rw [Prog.path_perform.mp hPath]
    rfl

/-- A token of the path has neither an ampersand nor a zero character. -/
theorem token_plain {path token : String} (h : token ∈ split path "&&") :
    ∀ c ∈ token.toList, c ≠ '&' ∧ c ≠ '\x00' := by
  obtain ⟨cs, hMem, rfl⟩ := List.mem_map.mp h
  intro c hc
  rw [String.toList_ofList] at hc
  obtain ⟨hNot, hNil | hPath⟩ := mem_strtok hMem (by simp) c hc
  · cases hNil
  · refine ⟨fun hAmp => hNot (by rw [hAmp]; decide), ?_⟩
    exact of_decide_eq_true (List.mem_takeWhile_imp (p := fun c => decide (c ≠ '\x00')) hPath)

/-- Two plain texts are the tokens. -/
theorem split_plain {p q : String} (hp : Plain p) (hq : Plain q) (hpNe : p ≠ "") (hqNe : q ≠ "") :
    split (p ++ "&&" ++ q) "&&" = [p, q] := by
  have hAmp : ∀ {s : String}, Plain s → ∀ c ∈ s.toList, c ∉ "&&".toList := by
    intro s hs c hc hMem
    exact (hs c hc).1 (by simpa using hMem)
  have hNe : ∀ {s : String}, s ≠ "" → s.toList ≠ [] := fun h hNil =>
    h (String.toList_eq_nil_iff.mp hNil)
  have hList : (p ++ "&&" ++ q).toList = p.toList ++ ("&&".toList ++ q.toList) := by
    simp only [String.toList_append, List.append_assoc]
  have hString : cString (p ++ "&&" ++ q).toList = (p ++ "&&" ++ q).toList := by
    refine cString_eq fun c hc => ?_
    rw [hList, List.mem_append, List.mem_append] at hc
    rcases hc with hLeft | hMid | hRight
    · exact (hp c hLeft).2.2
    · rintro rfl
      revert hMid
      decide
    · exact (hq c hRight).2.2
  have hDelim : cString "&&".toList = "&&".toList := by decide
  rw [split, hDelim, hString, hList, strtok_field (hNe hpNe) (hAmp hp) (by decide) (fun c hc => hc),
    strtok_last (hNe hqNe) (hAmp hq), List.map_cons, List.map_singleton, String.ofList_toList,
    String.ofList_toList]

/-- Two arguments are the two tokens, and have no semicolon. -/
theorem parts_eq_two {p q token token' : String}
    (h : (splitParts ';' token).map String.ofList ++ (splitParts ';' token').map String.ofList =
      [p, q]) : (token = p ∧ ';' ∉ p.toList) ∧ token' = q ∧ ';' ∉ q.toList := by
  have hWhole : ∀ {t r : String}, (splitParts ';' t).map String.ofList = [r] →
      t = r ∧ ';' ∉ r.toList := by
    intro t r hOne
    obtain ⟨part, hPart, rfl⟩ := List.map_eq_singleton_iff.mp hOne
    obtain ⟨rfl, hNot⟩ := splitOn_eq_singleton_iff.mp hPart
    rw [String.ofList_toList]
    exact ⟨rfl, hNot⟩
  obtain ⟨a, as, hA⟩ := List.exists_cons_of_ne_nil (List.splitOn_ne_nil ';' token.toList)
  obtain ⟨b, bs, hB⟩ := List.exists_cons_of_ne_nil (List.splitOn_ne_nil ';' token'.toList)
  have hLength := congrArg List.length h
  have hAs : as = [] := by
    rw [splitParts, hA, splitParts, hB] at hLength
    simp only [List.map_cons, List.length_append, List.length_cons, List.length_map,
      List.length_nil] at hLength
    exact List.length_eq_zero_iff.mp (by omega)
  rw [splitParts, hA, hAs, List.map_singleton, List.singleton_append] at h
  obtain ⟨hFirst, hSecond⟩ := List.cons.inj h
  refine ⟨hWhole ?_, hWhole hSecond⟩
  rw [splitParts, hA, hAs, List.map_singleton, hFirst]

/-- The script gets the two texts just when both are plain. -/
theorem launches_texts_iff {p q : String} (hpNe : p ≠ "") (hqNe : q ≠ "")
    (hPath : getGamePathByID setup gameId = p ++ "&&" ++ q) :
    Launches setup gameId [["start", p, q]] ↔ Plain p ∧ Plain q := by
  constructor
  · intro h
    rcases hTokens : split (getGamePathByID setup gameId) "&&" with _ | ⟨token, _ | ⟨token', rest⟩⟩
    · cases (launches_of_few hTokens (by simp)).mp h
    · cases (launches_of_few hTokens (by simp)).mp h
    · have hArgs := List.singleton_inj.mp ((launches_of_tokens hTokens).mp h)
      obtain ⟨⟨rfl, hpSemi⟩, rfl, hqSemi⟩ := parts_eq_two (List.cons.inj hArgs).2.symm
      have hPlain : ∀ s ∈ split (getGamePathByID setup gameId) "&&", ';' ∉ s.toList → Plain s :=
        fun s hs hSemi c hc => ⟨(token_plain hs c hc).1, fun hEq => hSemi (hEq ▸ hc),
          (token_plain hs c hc).2⟩
      rw [hTokens] at hPlain
      exact ⟨hPlain token (by simp) hpSemi, hPlain token' (by simp) hqSemi⟩
  · rintro ⟨hp, hq⟩
    have hTokens : split (getGamePathByID setup gameId) "&&" = [p, q] := by
      rw [hPath]
      exact split_plain hp hq hpNe hqNe
    have hPart : ∀ {s : String}, Plain s → (splitParts ';' s).map String.ofList = [s] := by
      intro s hs
      rw [splitParts, List.splitOn_eq_singleton fun hMem => (hs ';' hMem).2.1 rfl,
        List.map_singleton, String.ofList_toList]
    rw [launches_of_tokens hTokens, hPart hp, hPart hq]
    rfl

/-- Where no two ampersands stand together, nothing but ampersands stands beside
one only if nothing does. -/
theorem eq_nil_of_all_amp {a b : List Char} (h : ¬ ['&', '&'] <:+: a ++ '&' :: b) :
    ((∀ c ∈ a, c = '&') → a = []) ∧ ((∀ c ∈ b, c = '&') → b = []) := by
  constructor
  · intro hAll
    rcases List.eq_nil_or_concat a with hNil | ⟨front, c, rfl⟩
    · exact hNil
    · obtain rfl := hAll c (by simp)
      exact absurd ⟨front, b, by simp⟩ h
  · intro hAll
    cases b with
    | nil => rfl
    | cons c rest =>
      obtain rfl := hAll c (by simp)
      exact absurd ⟨a, rest, by simp⟩ h

/-- A path without `&&` starts nothing just when an ampersand stands at its ends
only. -/
theorem launches_nothing_iff
    (hPath : ¬ ['&', '&'] <:+: (getGamePathByID setup gameId).toList) :
    Launches setup gameId [] ↔ ∀ a b,
      cString (getGamePathByID setup gameId).toList = a ++ '&' :: b → a = [] ∨ b = [] := by
  have hDelim : cString "&&".toList = ['&', '&'] := by decide
  -- the script is called when there are two tokens or more
  have hFew : Launches setup gameId [] ↔
      (strtok ['&', '&'] [] (cString (getGamePathByID setup gameId).toList)).length < 2 := by
    rcases hTokens : split (getGamePathByID setup gameId) "&&" with _ | ⟨p, _ | ⟨q, rest⟩⟩
    all_goals
      have hLength := congrArg List.length hTokens
      rw [split, List.length_map, hDelim] at hLength
    · exact iff_of_true ((launches_of_few hTokens (by simp)).mpr rfl) (by rw [hLength]; simp)
    · exact iff_of_true ((launches_of_few hTokens (by simp)).mpr rfl) (by rw [hLength]; simp)
    · refine iff_of_false (fun h => ?_) (by rw [hLength]; simp)
      cases (launches_of_tokens hTokens).mp h
  have hAmp : ∀ cs : List Char, (∀ c ∈ cs, c ∈ ['&', '&']) ↔ ∀ c ∈ cs, c = '&' := by
    intro cs
    simp
  rw [hFew, strtok_length_lt_two]
  constructor
  · rintro h a b hEq
    have hInfix : ¬ ['&', '&'] <:+: a ++ '&' :: b := by
      rw [← hEq]
      exact fun hIn => hPath (hIn.trans (List.takeWhile_prefix _).isInfix)
    obtain ⟨hLeft, hRight⟩ := eq_nil_of_all_amp hInfix
    exact (h a '&' b hEq (by simp)).imp (fun hA => hLeft ((hAmp a).mp hA.2))
      fun hB => hRight ((hAmp b).mp hB)
  · -- without "&&" the token ends at a single '&'
    rintro h a d b hEq hd
    obtain rfl : d = '&' := by simpa using hd
    rcases h a b hEq with rfl | rfl
    · exact Or.inl ⟨rfl, by simp⟩
    · exact Or.inr (by simp)

end

/-- **The launch script.** For a path of two texts joined by `&&` the script gets
exactly these just when neither has an ampersand, a semicolon or a zero character;
a path without `&&` starts nothing just when an ampersand, before any zero
character, stands at the ends only. -/
theorem launch_script_iff (setup : Setup) (gameId : String) :
    (∀ p q, p ≠ "" → q ≠ "" → getGamePathByID setup gameId = p ++ "&&" ++ q →
      (Launches setup gameId [["start", p, q]] ↔ Plain p ∧ Plain q)) ∧
    (¬ ['&', '&'] <:+: (getGamePathByID setup gameId).toList →
      (Launches setup gameId [] ↔ ∀ a b,
        cString (getGamePathByID setup gameId).toList = a ++ '&' :: b → a = [] ∨ b = [])) :=
  ⟨fun _ _ hp hq hPath => launches_texts_iff hp hq hPath, launches_nothing_iff⟩

theorem launch_script_first_game :
    Launches sampleSetup "g1" [["start", "C:/one", "one.exe"]] ∧ Launches sampleSetup "g3" [] := by
  have hFirst := (launch_script_iff sampleSetup "g1").1 "C:/one" "one.exe" (by decide) (by decide)
    (by decide)
  have hUnknown := (launch_script_iff sampleSetup "g3").2 (by decide)
  have hEmpty : getGamePathByID sampleSetup "g3" = "" := by decide
  refine ⟨hFirst.mpr ⟨by decide, by decide⟩, hUnknown.mpr fun a b hEq => ?_⟩
  rw [hEmpty] at hEq
  exact absurd (congrArg List.length hEq) (by simp [cString])

/-- A configuration whose path has an ampersand in a directory. -/
def ampersandSetup : Setup := { sampleSetup with
  cloudGameConfig := some { groups := [("one", [("id", "g1"), ("path", "C:/R&D&&game.exe")])] } }

/-- The script gets the directory cut in two. -/
theorem ampersand_cuts_path :
    ¬ Launches ampersandSetup "g1" [["start", "C:/R&D", "game.exe"]] := by
  intro h
  have hTokens : split (getGamePathByID ampersandSetup "g1") "&&" = ["C:/R", "D", "game.exe"] := by
    decide
  have hCalls := (launches_of_tokens hTokens).mp h
  revert hCalls
  decide

end PushStreamer
