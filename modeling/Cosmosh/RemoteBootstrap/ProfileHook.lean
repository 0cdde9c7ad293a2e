import Cosmosh.Library.MarkedLines
import Cosmosh.Library.QuotedWords
import Cosmosh.Library.ShellCommands
import Cosmosh.Library.Utf8Segments

/-! # What the installer writes into a profile -/

namespace RemoteBootstrap

open Library Library.Shell Library.PosixPath

inductive TargetShell
  | ash
  | bash
  | fish
  | sh
  | zsh
  deriving DecidableEq

structure Environment where
  HOME : Text
  XDG_DATA_HOME : Text
  XDG_CONFIG_HOME : Text

/-- `unicode.IsSpace` -/
def isSpace (c : Char) : Bool :=
  c ∈ ['\t', '\n', '\x0b', '\x0c', '\r', ' ', '\u0085', '\u00a0', '\u1680', '\u2028', '\u2029', '\u202f', '\u205f', '\u3000'] ||
    (0x2000 ≤ c.toNat && c.toNat ≤ 0x200a)

/-- `strings.TrimSpace` -/
def trimSpace (t : Text) : Text := (t.dropWhile isSpace).rdropWhile isSpace

/-- `filepath.Clean` -/
def clean (p : Text) : Text :=
  if p = [] then ['.']
  else
    let body := joinSegments (resolveSegments (!isAbsolute p) (p.splitOn '/'))
    if isAbsolute p = true then '/' :: body else if body = [] then ['.'] else body

/-- `filepath.Join` -/
def joinPath (elements : List Text) : Text :=
  match elements.dropWhile (· = []) with
  | [] => []
  | rest => clean (joinSegments rest)

def envOrDefault (value fallback : Text) : Text := if trimSpace value = [] then fallback else trimSpace value

structure Paths where
  binDir : Text
  helperPath : Text
  deriving DecidableEq

def helperName (shell : TargetShell) : Text :=
  if shell = .fish then "helper.fish".toList else "helper.sh".toList

def resolvePaths (env : Environment) (shell : TargetShell) : Option Paths :=
  if env.HOME = [] then none
  else
    let dataRoot := envOrDefault env.XDG_DATA_HOME (joinPath [env.HOME, ".local".toList, "share".toList])
    let configRoot := envOrDefault env.XDG_CONFIG_HOME (joinPath [env.HOME, ".config".toList])
    let helperDir := joinPath [configRoot, "cosmosh".toList, "bootstrap".toList]
    some {
      binDir := joinPath [dataRoot, "cosmosh".toList, "bootstrap".toList, "bin".toList]
      helperPath := joinPath [helperDir, helperName shell]
    }

def CASE_START : Text := ['c', 'a', 's', 'e', ' ', ':', '$', 'P', 'A', 'T', 'H', ':', ' ', 'i', 'n', ' ', '*', ':']

def CASE_EXPORT : Text := [':', '*', ')', ' ', ';', ';', ' ', '*', ')', ' ', 'e', 'x', 'p', 'o', 'r', 't', ' ', 'P', 'A', 'T', 'H', '=']

def CASE_END : Text := [':', '$', 'P', 'A', 'T', 'H', ' ', ';', ';', ' ', 'e', 's', 'a', 'c', '\n']

def IF_BASH : Text := "if [ -n \"$\x7bBASH_VERSION:-\x7d\" ] && [ -r ".toList

def IF_READABLE : Text := ['i', 'f', ' ', '[', ' ', '-', 'r', ' ']

def THEN_SOURCE : Text := [' ', ']', ';', ' ', 't', 'h', 'e', 'n', ' ', '.', ' ']

def IF_END : Text := [';', ' ', 'f', 'i', '\n']

def SET_PATH : Text := ['s', 'e', 't', ' ', '-', 'g', 'x', ' ', 'P', 'A', 'T', 'H', ' ']

def OLD_PATH_SOURCE : Text := [' ', '$', 'P', 'A', 'T', 'H', '\n', 's', 'o', 'u', 'r', 'c', 'e', ' ']

section

variable (isPrint : Char → Bool)

def posixProfileBlock (shell : TargetShell) (paths : Paths) : Text :=
  CASE_START ++ (goQuote isPrint paths.binDir ++ (CASE_EXPORT ++ (goQuote isPrint paths.binDir ++ (CASE_END ++
    ((if shell = .bash then IF_BASH else IF_READABLE) ++ (goQuote isPrint paths.helperPath ++ (THEN_SOURCE ++
      (goQuote isPrint paths.helperPath ++ IF_END))))))))

def fishProfileBlock (paths : Paths) : Text :=
  SET_PATH ++ (goQuote isPrint paths.binDir ++ (OLD_PATH_SOURCE ++ (goQuote isPrint paths.helperPath ++ ['\n'])))

def profileBlock (shell : TargetShell) (paths : Paths) : Text :=
  if shell = .fish then fishProfileBlock isPrint paths else posixProfileBlock isPrint shell paths

end

def dialectOf (shell : TargetShell) : Dialect := if shell = .fish then fish else posix

def hookTests (shell : TargetShell) (helperPath : Text) : List (List Word) :=
  (if shell = .bash then [[[.plain ['-', 'n']], [.active "$\x7bBASH_VERSION:-\x7d".toList]]] else []) ++
    [[[.plain ['-', 'r']], [.quoted helperPath]]]

/-- `case` on the search path, then the helper. -/
def posixHook (shell : TargetShell) (paths : Paths) : List Command :=
  [.caseIn [.plain [':'], .parameter PATH, .plain [':']]
      [([.plain ['*', ':'], .quoted paths.binDir, .plain [':', '*']], none),
        ([.plain ['*']], some ⟨EXPORT, [.plain (PATH ++ ['=']), .quoted paths.binDir, .plain [':'], .parameter PATH]⟩)],
    .ifAll (hookTests shell paths.helperPath) ⟨['.'], [.quoted paths.helperPath]⟩]

def fishHook (paths : Paths) : List FishCommand := [.setPath [[.quoted paths.binDir], [.parameter PATH]], .source [.quoted paths.helperPath]]

def hookTokens (shell : TargetShell) (paths : Paths) : List Token :=
  if shell = .fish then (fishHook paths).flatMap FishCommand.tokens else (posixHook shell paths).flatMap Command.tokens

def extended (binDir path : Text) : List Text :=
  if binDir ∈ elements path then elements path else binDir :: elements path

def HookRuns (shell : TargetShell) (paths : Paths) (path : Text) : Prop :=
  if shell = .fish then
    runFish ⟨elements path, []⟩ (fishHook paths) = some ⟨extended paths.binDir path, [paths.helperPath]⟩
  else
    ∀ answer, ∃ path', elements path' = extended paths.binDir path ∧
      runAll answer ⟨path, []⟩ (posixHook shell paths) =
        some ⟨path', if (hookTests shell paths.helperPath).all answer = true then [paths.helperPath] else []⟩

structure HookIsExact (isPrint : Char → Bool) (shell : TargetShell) (paths : Paths) (path : Text) : Prop where
  reads : (dialectOf shell).lex (profileBlock isPrint shell paths) = some (hookTokens shell paths)
  runs : HookRuns shell paths path

end RemoteBootstrap

namespace RemoteBootstrap

open Library Library.Utf8

def markerStart : List Byte := encode "# >>> cosmosh bootstrap >>>".toList

def markerEnd : List Byte := encode "# <<< cosmosh bootstrap <<<".toList

/-- `strings.Index` of a text that is not empty. -/
def index (part : List Byte) : List Byte → Option Nat
  | [] => none
  | b :: text => if part <+: b :: text then some 0 else (index part text).map (· + 1)

def isLineBreak (b : Byte) : Bool := b = 0x0d || b = 0x0a

/-- `strings.TrimSpace` leaves nothing. -/
def isBlank (text : List Byte) : Bool := (decode text).all isSpace

def replaceMarkedBlock (existing block : List Byte) : List Byte :=
  let markedBlock := markerStart ++ 0x0a :: (block ++ (markerEnd ++ [0x0a]))
  let separator := if isBlank existing = true then [] else [0x0a]
  match index markerStart existing, index markerEnd existing with
  | some startIndex, some endIndex =>
    if endIndex > startIndex then
      let remaining := (existing.drop (endIndex + markerEnd.length)).dropWhile isLineBreak
      existing.take startIndex ++ (markedBlock ++ remaining)
    else existing ++ (separator ++ markedBlock)
  | _, _ => existing ++ (separator ++ markedBlock)

def bootstrapMarkers : Markers Byte where
  start := markerStart
  stop := markerEnd
  newline := 0x0a
  isBreak := isLineBreak
  isMarker_start := ⟨by decide, by decide⟩
  isMarker_stop := ⟨by decide, by decide⟩
  same_head := by decide
  stop_not_in_start := by decide
  newline_not_mem_start := by decide
  newline_not_mem_stop := by decide
  break_newline := by decide
  break_head := by decide

def separator (existing : List Byte) : List Byte := if isBlank existing = true then [] else [0x0a]

theorem separator_cases (existing : List Byte) : separator existing = [] ∨ separator existing = [bootstrapMarkers.newline] := by
  rw [separator]
  split
  · exact .inl rfl
  · exact .inr rfl

theorem index_eq (part text : List Byte) : index part text = (cut part text).map fun (before, _) => before.length := by
  induction text with
  | nil => rfl
  | cons b text ih =>
    rw [index, cut]
    split
    · rfl
    · rw [ih, Option.map_map, Option.map_map]
      rfl

theorem replaceMarkedBlock_eq (existing block : List Byte) :
    replaceMarkedBlock existing block = bootstrapMarkers.replaceBlock separator existing block := by
  rw [replaceMarkedBlock, Markers.replaceBlock, Markers.region, index_eq, index_eq]
  cases hStart : cut markerStart existing with
  | none =>
    have hPlace : cut bootstrapMarkers.start existing = none := hStart
    rw [hPlace]
    rfl
  | some first =>
    obtain ⟨before, rest⟩ := first
    have hPlace : cut bootstrapMarkers.start existing = some (before, rest) := hStart
    cases hStop : cut markerEnd existing with
    | none =>
      have hEnd : cut bootstrapMarkers.stop existing = none := hStop
      rw [hPlace, hEnd]
      rfl
    | some second =>
      obtain ⟨upTo, after⟩ := second
      have hEnd : cut bootstrapMarkers.stop existing = some (upTo, after) := hStop
      obtain ⟨hFront, -⟩ := cut_eq_some bootstrapMarkers.isMarker_start.nonempty hPlace
      obtain ⟨hBack, -⟩ := cut_eq_some bootstrapMarkers.isMarker_stop.nonempty hEnd
      have hTake : existing.take before.length = before := by rw [hFront, List.take_left]
      have hDrop : existing.drop (upTo.length + markerEnd.length) = after := by
        rw [hBack, ← List.append_assoc]
        exact List.drop_left' (List.length_append ..)
      rw [hPlace, hEnd]
      dsimp only [Option.map_some]
      by_cases hLess : before.length < upTo.length
      · rw [if_pos hLess, if_pos hLess, hTake, hDrop]
        rfl
      · rw [if_neg hLess, if_neg hLess]
        rfl

structure ReplacesExactly (existing block other : List Byte) : Prop where
  idempotent : replaceMarkedBlock (replaceMarkedBlock existing block) block = replaceMarkedBlock existing block
  last : replaceMarkedBlock (replaceMarkedBlock existing block) other = replaceMarkedBlock existing other
  lines : bootstrapMarkers.KeepsLines existing (replaceMarkedBlock existing block)

def IsSettled (existing : List Byte) : Prop := bootstrapMarkers.Settled separator existing

theorem replaces_exactly_iff (existing : List Byte) {block : List Byte} (hBlock : bootstrapMarkers.Free block) (other : List Byte) :
    ReplacesExactly existing block other ↔ IsSettled existing := by
  have hReplace := bootstrapMarkers.replaceBlock_iff separator_cases existing hBlock other
  simp only [← replaceMarkedBlock_eq] at hReplace
  rw [IsSettled, ← hReplace]
  exact ⟨fun h => ⟨h.idempotent, h.last, h.lines⟩, fun ⟨hIdempotent, hLast, hLines⟩ => ⟨hIdempotent, hLast, hLines⟩⟩

theorem alias_profile_is_replaced_exactly :
    ReplacesExactly (encode "alias ll='ls -l'\n".toList) (encode "export A=1\n".toList) (encode "export B=1\n".toList) := by
  have hFree : bootstrapMarkers.Free (encode "alias ll='ls -l'\n".toList) := ⟨by decide, by decide⟩
  refine (replaces_exactly_iff _ ⟨by decide, by decide⟩ _).mpr ?_
  rw [IsSettled, Markers.Settled, hFree.region]
  exact ⟨hFree, fun _ => .inr ⟨encode "alias ll='ls -l'".toList, by decide⟩⟩

theorem unclosed_block_takes_the_alias : ¬ ∀ existing block other : List Byte, bootstrapMarkers.Free block → bootstrapMarkers.Free other →
      ReplacesExactly existing block other := by
  intro hAll
  have hExact := hAll (markerStart ++ encode "\nalias ll='ls -l'\n".toList) (encode "export A=1\n".toList) (encode "export A=1\n".toList)
    ⟨by decide, by decide⟩ ⟨by decide, by decide⟩
  exact absurd hExact.idempotent (by decide +kernel)

end RemoteBootstrap
