import Cosmosh.RemoteBootstrap.ProfileHook

/-! # When the hook is read as it was meant

Double quotes protect a path from a shell only where the literal of Go and the quotes of the shell agree.
-/

namespace RemoteBootstrap

open Library Library.Shell

def caseTokens : List Token :=
  [keyword ['c', 'a', 's', 'e'], .word (plainText [':'] ++ Piece.active '$' :: plainText (PATH ++ [':'])), keyword ['i', 'n']]

def exportTokens : List Token := [.operator [')'], .operator [';', ';'], keyword ['*'], .operator [')'], keyword EXPORT]

def esacTokens : List Token := [.operator [';', ';'], keyword ['e', 's', 'a', 'c']]

def ifTokens (shell : TargetShell) : List Token :=
  .operator ['\n'] :: keyword ['i', 'f'] ::
    ((if shell = .bash then
      [keyword ['['], keyword ['-', 'n'], .word ("$\x7bBASH_VERSION:-\x7d".toList.map Piece.active), keyword [']'], .operator ['&', '&']]
    else []) ++ [keyword ['['], keyword ['-', 'r']])

def thenTokens : List Token := [keyword [']'], .operator [';'], keyword ['t', 'h', 'e', 'n'], keyword ['.']]

def fiTokens : List Token := [.operator [';'], keyword ['f', 'i'], .operator ['\n']]

def between (front back : List Piece) (path : Text) : Token := .word (front ++ quotedText path ++ back)

def caseWord (binDir : Text) : Token := between (plainText ['*', ':']) (plainText [':', '*']) binDir

def exportWord (binDir : Text) : Token := between (plainText (PATH ++ ['='])) (plainText [':'] ++ Piece.active '$' :: plainText PATH) binDir

theorem posixTokens_eq {shell : TargetShell} (h : shell ≠ .fish) (paths : Paths) :
    hookTokens shell paths = caseTokens ++ caseWord paths.binDir :: (exportTokens ++ exportWord paths.binDir ::
      (esacTokens ++ (ifTokens shell ++ between [] [] paths.helperPath :: (thenTokens ++ between [] [] paths.helperPath :: fiTokens)))) := by
  rw [hookTokens, if_neg h]
  cases shell with
  | fish => exact absurd rfl h
  | bash => simp [posixHook, hookTests, Command.tokens, armTokens, testTokens, Simple.tokens, wordToken, keyword, Part.pieces,
      caseTokens, caseWord, exportTokens, exportWord, esacTokens, ifTokens, thenTokens, fiTokens, between, plainText]
  | _ => simp [posixHook, hookTests, Command.tokens, armTokens, testTokens, Simple.tokens, wordToken, keyword, Part.pieces,
      caseTokens, caseWord, exportTokens, exportWord, esacTokens, ifTokens, thenTokens, fiTokens, between, plainText]

variable (shell : TargetShell)

section

variable (w : List Piece)

theorem read_caseStart : posix.read start CASE_START = (caseTokens, { start with word := some (plainText ['*', ':']) }) := by
  have hRead : Reader.read start CASE_START = (caseTokens, { start with word := some (plainText ['*', ':']) }) := by decide
  exact hRead

theorem read_blank : posix.read { start with word := some w } [' '] = ([.word w], start) := rfl

theorem read_semicolon : posix.read { start with word := some w } [';'] = ([.word w], { start with operator := [';'] }) := rfl

theorem read_parenthesis : posix.read { start with word := some w } [')'] = ([.word w], { start with operator := [')'] }) := rfl

theorem read_colon : posix.read { start with word := some w } [':'] = ([], { start with word := some (w ++ [.literal false ':']) }) := rfl

theorem read_asterisk : posix.read { start with word := some w } ['*'] = ([], { start with word := some (w ++ [.literal false '*']) }) := rfl

theorem read_letter (c : Char) (h : c ∈ PATH) : posix.read { start with word := some w } [c] =
    ([], { start with word := some (w ++ [.literal false c]) }) := by
  simp only [PATH, List.mem_cons, List.not_mem_nil, or_false] at h
  obtain rfl | rfl | rfl | rfl := h <;> rfl

theorem read_parameter : posix.read { start with word := some w } ('$' :: PATH) =
    ([], { start with word := some (w ++ Piece.active '$' :: plainText PATH) }) := by
  have hPieces : w ++ Piece.active '$' :: plainText PATH = w ++ [.active '$'] ++ [.literal false 'P'] ++ [.literal false 'A'] ++
      [.literal false 'T'] ++ [.literal false 'H'] := by simp [plainText, PATH]
  have hText : '$' :: PATH = ['$', 'P'] ++ (['A'] ++ (['T'] ++ ['H'])) := rfl
  have hStart : posix.read { start with word := some w } ['$', 'P'] =
      ([], { start with word := some (w ++ [.active '$'] ++ [.literal false 'P']) }) := rfl
  have hParts := Dialect.read_parts hStart <| Dialect.read_parts (read_letter _ 'A' (by decide)) <|
    Dialect.read_parts (read_letter _ 'T' (by decide)) (read_letter _ 'H' (by decide))
  rw [← hText, ← hPieces] at hParts
  exact hParts

theorem read_caseExport : posix.read { start with word := some w } CASE_EXPORT =
    (.word (w ++ plainText [':', '*']) :: exportTokens, { start with word := some (plainText (PATH ++ ['='])) }) := by
  have hFixed : posix.read { start with operator := [')'] } (CASE_EXPORT.drop 3) =
      (exportTokens, { start with word := some (plainText (PATH ++ ['='])) }) := by
    change Reader.read _ _ = _
    decide
  have hText : CASE_EXPORT = [':'] ++ (['*'] ++ ([')'] ++ CASE_EXPORT.drop 3)) := rfl
  have hPieces : w ++ plainText [':', '*'] = w ++ [.literal false ':'] ++ [.literal false '*'] := by simp [plainText]
  have hParts := Dialect.read_parts (read_colon w) <| Dialect.read_parts (read_asterisk _) <|
    Dialect.read_parts (read_parenthesis _) hFixed
  rw [← hText, ← hPieces] at hParts
  exact hParts

theorem read_caseEnd : posix.read { start with word := some w } CASE_END =
    (.word (w ++ (plainText [':'] ++ Piece.active '$' :: plainText PATH)) :: esacTokens, { start with operator := ['\n'] }) := by
  have hFixed : posix.read start (CASE_END.drop 7) = (esacTokens, { start with operator := ['\n'] }) := by
    change Reader.read _ _ = _
    decide
  have hText : CASE_END = [':'] ++ (('$' :: PATH) ++ ([' '] ++ CASE_END.drop 7)) := rfl
  have hPieces : w ++ (plainText [':'] ++ Piece.active '$' :: plainText PATH) =
      w ++ [.literal false ':'] ++ Piece.active '$' :: plainText PATH := by simp [plainText]
  have hParts := Dialect.read_parts (read_colon w) <| Dialect.read_parts (read_parameter _) <| Dialect.read_parts (read_blank _) hFixed
  rw [← hText, ← hPieces] at hParts
  exact hParts

theorem read_if : posix.read { start with operator := ['\n'] } (if shell = .bash then IF_BASH else IF_READABLE) = (ifTokens shell, start) := by
  have hRead : Reader.read { start with operator := ['\n'] } (if shell = .bash then IF_BASH else IF_READABLE) =
      (ifTokens shell, start) := by
    cases shell <;> decide
  exact hRead

theorem read_then : posix.read { start with word := some w } THEN_SOURCE = (.word w :: thenTokens, start) := by
  have hFixed : Reader.read start (THEN_SOURCE.drop 1) = (thenTokens, start) := by decide
  exact Dialect.read_parts (read_blank w) hFixed

theorem readAll_fi : posix.readAll { start with word := some w } IF_END = some (.word w :: fiTokens) := by
  have hFixed : posix.readAll { start with operator := [';'] } (IF_END.drop 1) = some fiTokens := by
    change Reader.readAll _ _ = _
    decide
  have hText : IF_END = [';'] ++ IF_END.drop 1 := rfl
  rw [hText, Dialect.readAll_parts (read_semicolon w), hFixed]
  rfl

end

section

variable {isPrint : Char → Bool} {shell : TargetShell} {paths : Paths}

theorem read_toHelper (hBin : ∀ c ∈ paths.binDir, posix.safe isPrint c = true) (rest : Text) :
    posix.lex (CASE_START ++ (goQuote isPrint paths.binDir ++ (CASE_EXPORT ++ (goQuote isPrint paths.binDir ++ (CASE_END ++
      ((if shell = .bash then IF_BASH else IF_READABLE) ++ rest)))))) =
      (posix.readAll start rest).map ((caseTokens ++ caseWord paths.binDir :: (exportTokens ++ exportWord paths.binDir ::
        (esacTokens ++ ifTokens shell))) ++ ·) := by
  have hFront := Dialect.read_parts read_caseStart <| Dialect.read_parts (Dialect.read_goQuote hBin (some _)) <|
    Dialect.read_parts (read_caseExport _) <| Dialect.read_parts (Dialect.read_goQuote hBin (some _)) <|
    Dialect.read_parts (read_caseEnd _) (read_if shell)
  have hText : CASE_START ++ (goQuote isPrint paths.binDir ++ (CASE_EXPORT ++ (goQuote isPrint paths.binDir ++ (CASE_END ++
      ((if shell = .bash then IF_BASH else IF_READABLE) ++ rest))))) =
      (CASE_START ++ (goQuote isPrint paths.binDir ++ (CASE_EXPORT ++ (goQuote isPrint paths.binDir ++ (CASE_END ++
        (if shell = .bash then IF_BASH else IF_READABLE)))))) ++ rest := by simp only [List.append_assoc]
  rw [Dialect.lex, hText, Dialect.readAll_parts hFront]
  simp [caseWord, exportWord, between]

theorem posix_reads (hShell : shell ≠ .fish) (hBin : ∀ c ∈ paths.binDir, posix.safe isPrint c = true)
    (hHelper : ∀ c ∈ paths.helperPath, posix.safe isPrint c = true) :
    posix.lex (posixProfileBlock isPrint shell paths) = some (hookTokens shell paths) := by
  have hQuote := Dialect.read_goQuote hHelper none
  rw [posixProfileBlock, read_toHelper hBin, posixTokens_eq hShell,
    show start = { start with word := none } from rfl, Dialect.readAll_parts hQuote, Dialect.readAll_parts (read_then _),
    show start = { start with word := none } from rfl, Dialect.readAll_parts hQuote, readAll_fi]
  simp [between]

theorem goQuote_append (isPrint : Char → Bool) (t rest : Text) :
    goQuote isPrint t ++ rest = ['"'] ++ (goBody isPrint t ++ (['"'] ++ rest)) := by
  simp [goQuote]

theorem safe_of_word {dialect : Dialect} {word : Option (List Piece)} {t rest : Text} {back : List Piece} {tokens : List Token}
    (h : dialect.readAll { start with word := word } (goQuote isPrint t ++ rest) =
      some (between (word.getD []) back t :: tokens)) : ∀ c ∈ t, dialect.safe isPrint c = true := by
  rw [goQuote_append, Dialect.readAll_parts (dialect.read_start word), Option.map_eq_some_iff] at h
  obtain ⟨later, hLater, hTokens⟩ := h
  rw [List.nil_append] at hTokens
  exact Dialect.safe_of_readAll (hTokens ▸ hLater)

theorem posix_safe (hShell : shell ≠ .fish) (h : posix.lex (posixProfileBlock isPrint shell paths) = some (hookTokens shell paths)) :
    (∀ c ∈ paths.binDir, posix.safe isPrint c = true) ∧ ∀ c ∈ paths.helperPath, posix.safe isPrint c = true := by
  rw [posixTokens_eq hShell] at h
  have hBin : ∀ c ∈ paths.binDir, posix.safe isPrint c = true := by
    have hRead := h
    rw [posixProfileBlock, Dialect.lex, Dialect.readAll_parts read_caseStart, Option.map_eq_some_iff] at hRead
    obtain ⟨tokens, hTokens, hSame⟩ := hRead
    rw [List.append_cancel_left hSame] at hTokens
    exact safe_of_word hTokens
  refine ⟨hBin, ?_⟩
  rw [posixProfileBlock, read_toHelper hBin, Option.map_eq_some_iff] at h
  obtain ⟨tokens, hTokens, hSame⟩ := h
  have hTail : tokens = between [] [] paths.helperPath :: (thenTokens ++ between [] [] paths.helperPath :: fiTokens) := by
    simpa using hSame
  rw [hTail, show start = { start with word := none } from rfl] at hTokens
  exact safe_of_word hTokens

end

def setTokens : List Token := [keyword ['s', 'e', 't'], keyword ['-', 'g', 'x'], keyword PATH]

def sourceTokens : List Token := [.word (Piece.active '$' :: plainText PATH), .operator ['\n'], keyword ['s', 'o', 'u', 'r', 'c', 'e']]

variable (paths : Paths)

theorem fishTokens_eq : hookTokens .fish paths = setTokens ++ between [] [] paths.binDir :: (sourceTokens ++ between [] [] paths.helperPath ::
      [.operator ['\n']]) := by
  simp [hookTokens, fishHook, FishCommand.tokens, wordToken, keyword, Part.pieces, setTokens, sourceTokens, between]

section

variable {isPrint : Char → Bool} {paths : Paths} (w : List Piece)

theorem read_setPath : fish.read start SET_PATH = (setTokens, start) := by
  change Fish.read _ _ = _
  decide

theorem read_oldPath : fish.read { start with word := some w } OLD_PATH_SOURCE = (.word w :: sourceTokens, start) := by
  have hBlank : fish.read { start with word := some w } [' '] = ([.word w], start) := rfl
  have hFixed : fish.read start (OLD_PATH_SOURCE.drop 1) = (sourceTokens, start) := by
    change Fish.read _ _ = _
    decide
  exact Dialect.read_parts hBlank hFixed

theorem readAll_newline : fish.readAll { start with word := some w } ['\n'] = some [.word w, .operator ['\n']] := rfl

theorem read_toSource (hBin : ∀ c ∈ paths.binDir, fish.safe isPrint c = true) (rest : Text) :
    fish.lex (SET_PATH ++ (goQuote isPrint paths.binDir ++ (OLD_PATH_SOURCE ++ rest))) =
      (fish.readAll start rest).map ((setTokens ++ between [] [] paths.binDir :: sourceTokens) ++ ·) := by
  have hFront := Dialect.read_parts read_setPath <| Dialect.read_parts (Dialect.read_goQuote hBin none) (read_oldPath _)
  have hText : SET_PATH ++ (goQuote isPrint paths.binDir ++ (OLD_PATH_SOURCE ++ rest)) =
      (SET_PATH ++ (goQuote isPrint paths.binDir ++ OLD_PATH_SOURCE)) ++ rest := by simp only [List.append_assoc]
  rw [Dialect.lex, hText, Dialect.readAll_parts hFront]
  simp [between]

theorem fish_reads (hBin : ∀ c ∈ paths.binDir, fish.safe isPrint c = true) (hHelper : ∀ c ∈ paths.helperPath, fish.safe isPrint c = true) :
    fish.lex (fishProfileBlock isPrint paths) = some (hookTokens .fish paths) := by
  have hQuote := Dialect.read_goQuote hHelper none
  rw [fishProfileBlock, read_toSource hBin, fishTokens_eq, show start = { start with word := none } from rfl,
    Dialect.readAll_parts hQuote, readAll_newline]
  simp [between]

theorem fish_safe (h : fish.lex (fishProfileBlock isPrint paths) = some (hookTokens .fish paths)) :
    (∀ c ∈ paths.binDir, fish.safe isPrint c = true) ∧ ∀ c ∈ paths.helperPath, fish.safe isPrint c = true := by
  rw [fishTokens_eq] at h
  have hBin : ∀ c ∈ paths.binDir, fish.safe isPrint c = true := by
    have hRead := h
    rw [fishProfileBlock, Dialect.lex, Dialect.readAll_parts read_setPath, Option.map_eq_some_iff] at hRead
    obtain ⟨tokens, hTokens, hSame⟩ := hRead
    rw [List.append_cancel_left hSame, show start = { start with word := none } from rfl] at hTokens
    exact safe_of_word hTokens
  refine ⟨hBin, ?_⟩
  rw [fishProfileBlock, read_toSource hBin, Option.map_eq_some_iff] at h
  obtain ⟨tokens, hTokens, hSame⟩ := h
  have hTail : tokens = between [] [] paths.helperPath :: [.operator ['\n']] := by simpa using hSame
  rw [hTail, show start = { start with word := none } from rfl] at hTokens
  exact safe_of_word hTokens

end

def pathPattern (binDir : Text) : List PatternItem := .any :: ((':' :: binDir ++ [':']).map .exact ++ [.any])

theorem wordPattern_binDir (binDir : Text) :
    wordPattern [.plain ['*', ':'], .quoted binDir, .plain [':', '*']] = some (pathPattern binDir) := by
  simp [wordPattern, Part.pattern, pathPattern]

def hookPath (binDir path : Text) : Text :=
  if matchesPattern (pathPattern binDir) (':' :: path ++ [':']) = true then path else binDir ++ ':' :: path

def exportCommand (binDir : Text) : Simple := ⟨EXPORT, [.plain (PATH ++ ['=']), .quoted binDir, .plain [':'], .parameter PATH]⟩

theorem posixHook_run (paths : Paths) (path : Text) (answer : List Word → Bool) : runAll answer ⟨path, []⟩ (posixHook shell paths) =
      some ⟨hookPath paths.binDir path, if (hookTests shell paths.helperPath).all answer = true then [paths.helperPath] else []⟩ := by
  have hSubject : expand path [.plain [':'], .parameter PATH, .plain [':']] = some (':' :: path ++ [':']) := by
    simp [expand, Part.value]
  have hCase : Command.run answer ⟨path, []⟩ (.caseIn [.plain [':'], .parameter PATH, .plain [':']]
      [([.plain ['*', ':'], .quoted paths.binDir, .plain [':', '*']], none), ([.plain ['*']], some (exportCommand paths.binDir))]) =
      some ⟨hookPath paths.binDir path, []⟩ := by
    have hExport : (exportCommand paths.binDir).run ⟨path, []⟩ = some ⟨paths.binDir ++ ':' :: path, []⟩ := by
      have hValue : expand path [.quoted paths.binDir, .plain [':'], .parameter PATH] = some (paths.binDir ++ ':' :: path) := by
        simp [expand, Part.value]
      have hName : (exportCommand paths.binDir).name = EXPORT := rfl
      rw [Simple.run, if_pos hName]
      dsimp only [exportCommand]
      rw [if_pos rfl, hValue]
      rfl
    have hAll : wordPattern [.plain ['*']] = some [.any] := rfl
    rw [Command.run, hSubject, Option.bind_eq_bind, Option.bind_some, firstArm_cons (wordPattern_binDir paths.binDir),
      firstArm_cons hAll, matchesPattern_all, if_pos rfl, hookPath]
    split
    · rfl
    · exact hExport
  have hIf : ∀ s : Session, s.sourced = [] → Command.run answer s (.ifAll (hookTests shell paths.helperPath) ⟨['.'], [.quoted paths.helperPath]⟩) =
      some { s with sourced := if (hookTests shell paths.helperPath).all answer = true then [paths.helperPath] else [] } := by
    intro s hNone
    rw [Command.run]
    split
    · have hName : ¬ (['.'] : Text) = EXPORT := by decide
      rw [Simple.run, if_neg hName, if_pos rfl]
      simp [expand, Part.value, hNone]
    · rw [← hNone]
  change runAll answer _ [.caseIn _ [_, (_, some (exportCommand paths.binDir))], _] = _
  rw [runAll, hCase, Option.bind_eq_bind, Option.bind_some, runAll, hIf _ rfl]
  rfl

theorem mem_extended (binDir path : Text) : binDir ∈ extended binDir path := by
  rw [extended]
  split
  · next hMem => exact hMem
  · exact List.mem_cons_self

theorem elements_hookPath {binDir : Text} (h : ':' ∉ binDir) (path : Text) : elements (hookPath binDir path) = extended binDir path := by
  have hMatch : matchesPattern (pathPattern binDir) (':' :: path ++ [':']) = true ↔ binDir ∈ elements path := by
    rw [pathPattern, matchesPattern_infix, mem_elements_iff h]
  rw [hookPath, extended]
  by_cases hMem : binDir ∈ elements path
  · rw [if_pos hMem, if_pos (hMatch.mpr hMem)]
  · rw [if_neg hMem, if_neg (mt hMatch.mp hMem), elements_cons h]

theorem posix_runs_iff {shell : TargetShell} (hShell : shell ≠ .fish) (paths : Paths) (path : Text) :
    HookRuns shell paths path ↔ ':' ∉ paths.binDir := by
  rw [HookRuns, if_neg hShell]
  constructor
  · intro hRuns
    obtain ⟨path', hElements, -⟩ := hRuns fun _ => true
    exact colon_not_mem_elements (hElements ▸ mem_extended paths.binDir path)
  · intro hColon answer
    exact ⟨hookPath paths.binDir path, elements_hookPath hColon path, posixHook_run shell paths path answer⟩

theorem fishHook_run (path : Text) : runFish ⟨elements path, []⟩ (fishHook paths) =
    some ⟨elements paths.binDir ++ (elements path).flatMap elements, [paths.helperPath]⟩ := by
  simp [fishHook, runFish, FishCommand.run, expandAll, expandFish]

theorem elements_flatMap (path : Text) : (elements path).flatMap elements = elements path := by
  have hSelf : ∀ element ∈ elements path, elements element = [element] := fun element hMem =>
    List.splitOn_eq_singleton (colon_not_mem_elements hMem)
  rw [List.flatMap_congr hSelf]
  exact List.flatMap_singleton' _

theorem fish_runs_iff (path : Text) : HookRuns .fish paths path ↔ ':' ∉ paths.binDir ∧ paths.binDir ∉ elements path := by
  rw [HookRuns, if_pos rfl, fishHook_run, elements_flatMap]
  constructor
  · intro hRuns
    have hElements : elements paths.binDir ++ elements path = extended paths.binDir path := congrArg FishSession.path (Option.some.inj hRuns)
    have hMem : paths.binDir ∈ elements paths.binDir ++ elements path := hElements ▸ mem_extended paths.binDir path
    have hColon : ':' ∉ paths.binDir := (List.mem_append.mp hMem).elim colon_not_mem_elements colon_not_mem_elements
    refine ⟨hColon, fun hAlready => ?_⟩
    rw [extended, if_pos hAlready, elements, List.splitOn_eq_singleton hColon] at hElements
    have hLength := congrArg List.length hElements
    simp at hLength
  · rintro ⟨hColon, hNew⟩
    rw [extended, if_neg hNew, elements, List.splitOn_eq_singleton hColon]
    rfl

theorem reads_iff (isPrint : Char → Bool) (shell : TargetShell) (paths : Paths) :
    (dialectOf shell).lex (profileBlock isPrint shell paths) = some (hookTokens shell paths) ↔
      (∀ c ∈ paths.binDir, (dialectOf shell).safe isPrint c = true) ∧ ∀ c ∈ paths.helperPath, (dialectOf shell).safe isPrint c = true := by
  by_cases hShell : shell = .fish
  · subst hShell
    exact ⟨fish_safe, fun h => fish_reads h.1 h.2⟩
  · rw [dialectOf, if_neg hShell, profileBlock, if_neg hShell]
    exact ⟨posix_safe hShell, fun h => posix_reads hShell h.1 h.2⟩

theorem runs_iff (paths : Paths) (path : Text) :
    HookRuns shell paths path ↔ ':' ∉ paths.binDir ∧ (shell = .fish → paths.binDir ∉ elements path) := by
  by_cases hShell : shell = .fish
  · subst hShell
    rw [fish_runs_iff]
    exact and_congr_right' ⟨fun h _ => h, fun h => h rfl⟩
  · rw [posix_runs_iff hShell]
    exact ⟨fun h => ⟨h, fun hFish => absurd hFish hShell⟩, And.left⟩

/-- The hook is exact when no character of a path needs more than the quotes it gets, the search path can hold
the directory, and fish does not hold it yet. -/
theorem profile_hook_is_exact_iff (isPrint : Char → Bool) {env : Environment} {shell : TargetShell} {paths : Paths}
    (_ : resolvePaths env shell = some paths) (path : Text) : HookIsExact isPrint shell paths path ↔
      (∀ c ∈ paths.binDir ++ paths.helperPath, (dialectOf shell).safe isPrint c = true) ∧ ':' ∉ paths.binDir ∧
        (shell = .fish → paths.binDir ∉ elements path) := by
  rw [List.forall_mem_append, ← reads_iff, ← runs_iff]
  exact ⟨fun h => ⟨h.reads, h.runs⟩, fun h => ⟨h.1, h.2⟩⟩

def isPrintAscii (c : Char) : Bool := 0x20 ≤ c.toNat && c.toNat < 0x7f

def homeEnvironment (home : Text) : Environment := ⟨home, [], []⟩

theorem resolvePaths_home : resolvePaths (homeEnvironment ['/', 'u']) .bash =
    some ⟨"/u/.local/share/cosmosh/bootstrap/bin".toList, "/u/.config/cosmosh/bootstrap/helper.sh".toList⟩ := by decide

theorem plain_home_is_exact : ∃ paths, resolvePaths (homeEnvironment ['/', 'u']) .bash = some paths ∧
    HookIsExact isPrintAscii .bash paths ['/', 'b', 'i', 'n'] := by
  have hIff := profile_hook_is_exact_iff isPrintAscii resolvePaths_home ['/', 'b', 'i', 'n']
  refine ⟨_, resolvePaths_home, hIff.mpr ⟨?_, ?_, ?_⟩⟩
  · decide
  · decide
  · exact fun hFish => absurd hFish (by decide)

theorem dollar_home_is_expanded : ∃ paths, resolvePaths (homeEnvironment ['/', '$', 'u']) .bash = some paths ∧
    ¬ HookIsExact isPrintAscii .bash paths ['/', 'b', 'i', 'n'] := by
  have hPaths : resolvePaths (homeEnvironment ['/', '$', 'u']) .bash =
      some ⟨'/' :: '$' :: "u/.local/share/cosmosh/bootstrap/bin".toList, '/' :: '$' :: "u/.config/cosmosh/bootstrap/helper.sh".toList⟩ := by
    decide
  refine ⟨_, hPaths, fun hExact => ?_⟩
  have hSafe := ((reads_iff isPrintAscii .bash _).mp hExact.reads).1 '$' (by decide)
  revert hSafe
  decide

end RemoteBootstrap
