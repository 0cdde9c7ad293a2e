import Cosmosh.Library.NormalizedPath
import Cosmosh.Library.Utf16
import Cosmosh.Terminal.CommandTokenizers

/-! # The directory a remote shell is taken to be in

The submitted `cd` commands are followed on a path; what the path names is a directory.
-/

namespace Terminal

open Library Library.JsText Library.PosixPath

def resolveCdTarget (tokens : List Text) : Option Text :=
  if (tokens.headD []).map Char.toLower ≠ "cd".toList then none
  else
    match tokens.tail.find? fun token => token ≠ [] ∧ token.head? ≠ some '-' with
    | none => some "~".toList
    | some target => if target = "-".toList then none else some target

/-- `directory` is the working directory of the process. -/
def updateRemoteCompletionCwd (directory : List Text) (homeDirectory currentCwd : Option Text) (command : Command) : Option Text :=
  match resolveCdTarget ((splitCommandTokens command).map Utf16.toText) with
  | none => currentCwd
  | some cdTarget =>
    let home := (homeDirectory.map trim).filter (· ≠ [])
    if cdTarget = "~".toList then (home.map normalize).or currentCwd
    else if isAbsolute cdTarget then some (normalize cdTarget)
    else if "~/".toList.isPrefixOf cdTarget then (home.map fun home => normalize (joinPath home (cdTarget.drop 2))).or currentCwd
    else
      match currentCwd.filter (· ≠ []) with
      | none => currentCwd
      | some cwd => some (normalize (resolve (resolveFrom directory cwd) cdTarget))

def replayRemoteCompletionCwdCommands (directory : List Text) (homeDirectory baseCwd : Option Text) (commands : List Command) : Option Text :=
  commands.foldl (updateRemoteCompletionCwd directory homeDirectory) baseCwd

def destination (tokens : List Text) : Option Text :=
  if (tokens.headD []).map Char.toLower = "cd".toList then
    some ((tokens.tail.find? fun token => token ≠ [] ∧ token.head? ≠ some '-').getD "~".toList)
  else none

/-- The directory a shell is in after a `cd`, as far as it is known. -/
def changeDirectory (home current : Option (List Text)) (target : Text) : Option (List Text) :=
  if target = "~".toList then home.or current
  else if isAbsolute target then some (location target)
  else if "~/".toList.isPrefixOf target then (home.map fun home => (walk home.reverse (target.drop 2)).reverse).or current
  else current.map fun current => resolveFrom current target

def directoryAfter (home current : Option (List Text)) (command : Command) : Option (List Text) :=
  match destination ((splitCommandTokens command).map Utf16.toText) with
  | none => current
  | some target => changeDirectory home current target

structure Names (path : Option Text) (current : Option (List Text)) : Prop where
  absolute : ∀ p ∈ path, isAbsolute p = true
  located : path.map location = current

variable {path homeDirectory : Option Text} {current home : Option (List Text)} {directory : List Text}

/-- A target never begins with `-`, so the guard for `cd -` is not reached. -/
theorem resolveCdTarget_eq_destination (tokens : List Text) : resolveCdTarget tokens = destination tokens := by
  rw [resolveCdTarget, destination, ite_not]
  split
  · cases hFound : tokens.tail.find? fun token => token ≠ [] ∧ token.head? ≠ some '-' with
    | none => rfl
    | some target =>
      have hWord := List.find?_some hFound
      rw [decide_eq_true_eq] at hWord
      have hOther : target ≠ "-".toList := by
        rintro rfl
        exact hWord.2 rfl
      simp only [if_neg hOther, Option.getD_some]
  · rfl

theorem names_some {p : Text} (h : isAbsolute p = true) : Names (some p) (some (location p)) := ⟨by rintro _ ⟨⟩; exact h, rfl⟩

theorem Names.or {other : Option Text} {elsewhere : Option (List Text)} (h : Names path current) (hOther : Names other elsewhere) :
    Names (path.or other) (current.or elsewhere) := by
  obtain ⟨hAbsolute, rfl⟩ := h
  cases path with
  | none => exact hOther
  | some p => exact ⟨hAbsolute, rfl⟩

theorem Names.map {change : Text → Text} {follow : List Text → List Text} (h : Names path current)
    (hChange : ∀ p, isAbsolute p = true → isAbsolute (change p) = true ∧ location (change p) = follow (location p)) :
    Names (path.map change) (current.map follow) := by
  obtain ⟨hAbsolute, rfl⟩ := h
  cases path with
  | none => exact ⟨nofun, rfl⟩
  | some p =>
    obtain ⟨hStill, hLocation⟩ := hChange p (hAbsolute p rfl)
    exact ⟨by rintro _ ⟨⟩; exact hStill, congrArg some hLocation⟩

theorem resolveFrom_plain {names : List Text} (h : ∀ n ∈ names, Plain n) (target : Text) : ∀ n ∈ resolveFrom names target, Plain n := by
  have hStart : ∀ n ∈ startFor names target, Plain n := by
    rw [startFor]
    split
    · simp
    · exact fun n hn => h n (List.mem_reverse.mp hn)
  intro n hn
  exact foldl_pushSegment_all_plain hStart (fun s hs => not_mem_of_mem_splitOn hs) n (List.mem_reverse.mp hn)

theorem isAbsolute_append {p : Text} (h : isAbsolute p = true) (rest : Text) : isAbsolute (p ++ rest) = true := by
  obtain ⟨names, rfl⟩ := (isAbsolute_iff p).mp h
  rfl

theorem joinPath_home {p : Text} (h : isAbsolute p = true) (rest : Text) :
    isAbsolute (normalize (joinPath p rest)) = true ∧ location (normalize (joinPath p rest)) = (walk (location p).reverse rest).reverse := by
  have hFull : p ≠ [] := by
    rintro rfl
    cases h
  by_cases hRest : rest = []
  · subst hRest
    have hJoin : joinPath p [] = normalize p := by simp [joinPath, hFull]
    rw [hJoin, normalize_normalize, isAbsolute_normalize, location_normalize h, walk_nil, List.reverse_reverse]
    exact ⟨h, rfl⟩
  · have hJoin : joinPath p rest = normalize (p ++ '/' :: rest) := by simp [joinPath, hFull, hRest]
    have hAbsolute := isAbsolute_append h ('/' :: rest)
    have hWalk : location (p ++ '/' :: rest) = (walk (walk [] p) rest).reverse := congrArg List.reverse (walk_append [] p rest)
    have hHome : walk [] p = (location p).reverse := (List.reverse_reverse _).symm
    rw [hJoin, normalize_normalize, isAbsolute_normalize, location_normalize hAbsolute, hWalk, hHome]
    exact ⟨hAbsolute, rfl⟩

theorem names_update (hPath : Names path current) (hHome : Names ((homeDirectory.map trim).filter (· ≠ [])) home) (command : Command) :
    Names (updateRemoteCompletionCwd directory homeDirectory path command) (directoryAfter home current command) := by
  rw [updateRemoteCompletionCwd, directoryAfter, resolveCdTarget_eq_destination]
  cases destination ((splitCommandTokens command).map Utf16.toText) with
  | none => exact hPath
  | some target =>
    simp only [changeDirectory]
    split
    · refine Names.or ?_ hPath
      have hNormal : Names (((homeDirectory.map trim).filter (· ≠ [])).map normalize) (home.map id) := hHome.map fun p hp => ⟨(isAbsolute_normalize p).trans hp, location_normalize hp⟩
      rwa [Option.map_id] at hNormal
    · split
      · next hTarget =>
        have hNames := names_some ((isAbsolute_normalize target).trans hTarget)
        rwa [location_normalize hTarget] at hNames
      · split
        · exact (hHome.map fun p hp => joinPath_home hp (target.drop 2)).or hPath
        · obtain ⟨hAbsolute, rfl⟩ := hPath
          cases path with
          | none => exact ⟨nofun, rfl⟩
          | some p =>
            have hp := hAbsolute p rfl
            have hFull : p ≠ [] := by
              rintro rfl
              cases hp
            have hPlain := resolveFrom_plain (location_plain p) target
            rw [Option.filter_some_pos (by simpa using hFull)]
            simp only [resolveFrom_of_absolute hp, Option.map_some]
            have hRendered : isAbsolute (resolve (location p) target) = true := rfl
            have hNames := names_some ((isAbsolute_normalize _).trans hRendered)
            rwa [location_normalize hRendered, resolve, location_render hPlain] at hNames

theorem replay_follows_directories (directory : List Text) (homeDirectory baseCwd : Option Text) (commands : List Command)
    (hHome : ∀ home ∈ (homeDirectory.map trim).filter (· ≠ []), isAbsolute home = true) (hBase : ∀ cwd ∈ baseCwd, isAbsolute cwd = true) :
    Names (replayRemoteCompletionCwdCommands directory homeDirectory baseCwd commands)
      (commands.foldl (directoryAfter (((homeDirectory.map trim).filter (· ≠ [])).map location)) (baseCwd.map location)) := by
  have hRun : ∀ (path : Option Text) (current : Option (List Text)), Names path current →
      Names (commands.foldl (updateRemoteCompletionCwd directory homeDirectory) path)
        (commands.foldl (directoryAfter (((homeDirectory.map trim).filter (· ≠ [])).map location)) current) := by
    induction commands with
    | nil => exact fun _ _ h => h
    | cons command commands ih => exact fun _ _ h => ih _ _ (names_update h ⟨hHome, rfl⟩ command)
  exact hRun baseCwd _ ⟨hBase, rfl⟩

theorem replay_from_root : Names (replayRemoteCompletionCwdCommands [] (some "/home/a".toList) (some "/".toList) [CodeUnits.ofAscii "cd ~/b".toList])
    ([CodeUnits.ofAscii "cd ~/b".toList].foldl (directoryAfter ((((some "/home/a".toList).map trim).filter (· ≠ [])).map location))
      ((some "/".toList).map location)) :=
  replay_follows_directories [] (some "/home/a".toList) (some "/".toList) [CodeUnits.ofAscii "cd ~/b".toList] (by decide) (by decide)

end Terminal
