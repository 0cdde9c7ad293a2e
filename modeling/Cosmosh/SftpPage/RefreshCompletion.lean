import Cosmosh.SftpPage.DirectorySteps
import Mathlib.Data.List.Perm.Basic
import Mathlib.Tactic.ByContra

/-! # Refreshes that several operations share

A call adds its directories to the pending ones and waits for the loop that runs.
-/

namespace SftpPage

open Library Transition DirectoryPage

def unresolvedOwner (call : RefreshCall) : Bool := call.owner && call.phase ≠ .resolved

structure OneRefresh (s : DirectoryPage) : Prop where
  awaited : s.awaitedLoads = if s.refresh = .awaiting then 1 else 0
  owners : s.calls.countP unresolvedOwner = if s.refresh = .idle then 0 else 1
  released : ∀ call ∈ s.calls, call.owner = true → call.phase = .released → s.refresh = .returned

variable {s : DirectoryPage}

theorem OneRefresh.proceeds {s' : DirectoryPage} (hOne : OneRefresh s) (hProceeds : Proceeds s s') : OneRefresh s' := by
  refine ⟨?_, ?_, ?_⟩
  · rw [hProceeds.awaited, hProceeds.refresh]
    exact hOne.awaited
  · rw [hProceeds.calls, hProceeds.refresh]
    exact hOne.owners
  · rw [hProceeds.calls, hProceeds.refresh]
    exact hOne.released

theorem OneRefresh.answered (hOne : OneRefresh s) {index : Nat} {load : Load} (hLoad : s.loads[index]? = some load)
    (cache : Path → Option DirectoryCacheEntry) :
    OneRefresh ({ s with loads := s.loads.eraseIdx index, directoryCache := cache }.afterAnswer load) := by
  obtain ⟨hBound, hAt⟩ := List.getElem?_eq_some_iff.mp hLoad
  have hCount := (List.getElem_cons_eraseIdx_perm hBound).countP_eq fun load => load.owner = .refresh
  rw [hAt, List.countP_cons] at hCount
  have hAwaited := hOne.awaited
  rw [awaitedLoads, ← hCount] at hAwaited
  rw [afterAnswer]
  split
  · rename_i hOwner
    have hAwaiting : s.refresh = .awaiting := by
      by_contra hNot
      simp [hOwner, hNot] at hAwaited
    refine ⟨?_, ?_, fun call hCall hOwned hReleased => ?_⟩
    · simpa [hOwner, hAwaiting, awaitedLoads] using hAwaited
    · simpa [hAwaiting] using hOne.owners
    · have hReturned := hOne.released call hCall hOwned hReleased
      rw [hAwaiting] at hReturned
      contradiction
  · rename_i hOwner
    refine ⟨?_, hOne.owners, hOne.released⟩
    simpa [hOwner, awaitedLoads] using hAwaited

theorem refreshTurn_one (hAwaited : s.awaitedLoads = 0) (hOwners : s.calls.countP unresolvedOwner = 1)
    (hReleased : ∀ call ∈ s.calls, call.owner = true → call.phase ≠ .released) : OneRefresh s.refreshTurn := by
  obtain ⟨generations, cache, started, hTurn, -, -, -, hStarted, -⟩ := s.refreshTurn_eq
  have hNone := awaited_none fun load hLoad => (hStarted load hLoad).2.1
  have hLogged : ∀ paths requested call, (logRefresh paths requested call).owner = call.owner ∧
      (logRefresh paths requested call).phase = call.phase := by
    intro paths requested call
    rw [logRefresh]
    split <;> exact ⟨rfl, rfl⟩
  rw [awaitedLoads] at hAwaited
  rw [hTurn]
  refine ⟨?_, ?_, fun call hCall hOwner hPhase => ?_⟩
  · rw [awaitedLoads]
    dsimp only
    rw [List.countP_append, List.countP_append, hAwaited, hNone]
    rfl
  · rw [List.countP_map]
    have hSame : unresolvedOwner ∘ logRefresh s.pathsToInvalidate (started.map (·.path) ++ [s.currentPathRef]) =
        unresolvedOwner := by
      funext call
      simp [unresolvedOwner, hLogged]
    rw [hSame, hOwners]
    rfl
  · obtain ⟨before, hBefore, rfl⟩ := List.mem_map.mp hCall
    rw [(hLogged _ _ _).1] at hOwner
    rw [(hLogged _ _ _).2] at hPhase
    exact absurd hPhase (hReleased before hBefore hOwner)

theorem OneRefresh.addCall (hOne : OneRefresh s) (paths : List Path) (since : Nat) (phase : CallPhase) :
    OneRefresh (s.addCall paths since false phase) := by
  refine ⟨hOne.awaited, ?_, fun call hCall hOwner hPhase => ?_⟩
  · rw [DirectoryPage.addCall, List.countP_append, hOne.owners]
    rfl
  · rcases List.mem_append.mp hCall with hOld | hOwn
    · exact hOne.released call hOld hOwner hPhase
    · rw [List.mem_singleton.mp hOwn] at hOwner
      contradiction

theorem OneRefresh.refreshAfterOperation (hOne : OneRefresh s) (paths : List Path) (since : Nat) :
    OneRefresh (s.refreshCurrentDirectoryAfterOperation paths since) := by
  rw [refreshCurrentDirectoryAfterOperation]
  cases hPhase : s.refresh with
  | idle =>
    refine refreshTurn_one ?_ ?_ fun call hCall hOwner hReleased => ?_
    · exact hOne.awaited.trans (by simp [hPhase])
    · rw [DirectoryPage.addCall, List.countP_append, hOne.owners, hPhase]
      rfl
    · rcases List.mem_append.mp hCall with hOld | hOwn
      · have hReturned := hOne.released call hOld hOwner hReleased
        rw [hPhase] at hReturned
        contradiction
      · rw [List.mem_singleton.mp hOwn] at hReleased
        contradiction
  | awaiting => exact hOne.addCall paths since .joined
  | loaded => exact hOne.addCall paths since .joined
  | returned => exact hOne.addCall paths since .released

theorem OneRefresh.continueRefresh (hOne : OneRefresh s) (hLoaded : s.refresh = .loaded) : OneRefresh s.continueRefresh := by
  have hAwaited : s.awaitedLoads = 0 := by simp [hOne.awaited, hLoaded]
  have hOwners : s.calls.countP unresolvedOwner = 1 := by simp [hOne.owners, hLoaded]
  rw [DirectoryPage.continueRefresh]
  split
  · refine ⟨hAwaited, ?_, fun _ _ _ _ => rfl⟩
    have hSame : unresolvedOwner ∘ release = unresolvedOwner := by
      funext call
      rw [Function.comp, release]
      split
      · rename_i hJoined
        simp [unresolvedOwner, hJoined]
      · rfl
    rw [List.countP_map, hSame, hOwners]
    rfl
  · refine refreshTurn_one hAwaited hOwners fun call hCall hOwner hReleased => ?_
    have hReturned := hOne.released call hCall hOwner hReleased
    rw [hLoaded] at hReturned
    contradiction

theorem OneRefresh.resumeCall (hOne : OneRefresh s) {index : Nat} {call : RefreshCall} (hCall : s.calls[index]? = some call)
    (hReleased : call.phase = .released) : OneRefresh (s.resumeCall index call) := by
  obtain ⟨hBound, hAt⟩ := List.getElem?_eq_some_iff.mp hCall
  have hCount : (s.calls.set index { call with phase := .resolved }).countP unresolvedOwner =
      s.calls.countP unresolvedOwner - (if unresolvedOwner call then 1 else 0) := by
    rw [List.countP_set hBound, hAt]
    simp [unresolvedOwner]
  have hKept : ∀ other ∈ s.calls.set index { call with phase := .resolved }, other.owner = true →
      other.phase = .released → s.refresh = .returned ∧ other ∈ s.calls := by
    intro other hOther hOwner hPhase
    rcases List.mem_or_eq_of_mem_set hOther with hOld | rfl
    · exact ⟨hOne.released other hOld hOwner hPhase, hOld⟩
    · contradiction
  rw [DirectoryPage.resumeCall]
  dsimp only
  split
  · rename_i hOwner
    have hReturned := hOne.released call (List.mem_of_getElem? hCall) hOwner hReleased
    have hNoOwner : (s.calls.set index { call with phase := .resolved }).countP unresolvedOwner = 0 := by
      rw [hCount, hOne.owners]
      simp [unresolvedOwner, hOwner, hReleased, hReturned]
    refine ⟨?_, by simpa using hNoOwner, fun other hOther hOwned hPhase => ?_⟩
    · simpa [awaitedLoads, hReturned] using hOne.awaited
    · have hNot := List.countP_eq_zero.mp hNoOwner other hOther
      simp [unresolvedOwner, hOwned, hPhase] at hNot
  · rename_i hOwner
    refine ⟨hOne.awaited, ?_, fun other hOther hOwned hPhase => (hKept other hOther hOwned hPhase).1⟩
    rw [hCount, hOne.owners]
    simp [unresolvedOwner, hOwner]

def refreshRuns (s : DirectoryPage) : Prop := s.refresh = .awaiting ∨ s.refresh = .loaded

instance : DecidablePred refreshRuns := fun _ => inferInstanceAs (Decidable (_ ∨ _))

def NoRefreshLost (s : DirectoryPage) : Prop :=
  (∀ call ∈ s.calls, call.phase = .resolved →
    ∀ path ∈ call.paths, path ∈ call.invalidated ∧ path ∈ call.requested) ∧
  (¬ refreshRuns s → s.pendingRefreshPaths = [])

def heardByRefresh (s : DirectoryPage) : PageEvent → Bool
  | .refreshAfterOperation paths _ => paths = [] || s.refresh ≠ .returned
  | _ => true

def Covered (s : DirectoryPage) (call : RefreshCall) : Prop :=
  ∀ path ∈ call.paths,
    (call.phase = .joined ∧ path ∈ s.pendingRefreshPaths) ∨ (path ∈ call.invalidated ∧ path ∈ call.requested)

structure RefreshesHeard (s : DirectoryPage) : Prop where
  pending : ¬ refreshRuns s → s.pendingRefreshPaths = []
  joined : ∀ call ∈ s.calls, call.phase = .joined → refreshRuns s
  covered : ∀ call ∈ s.calls, Covered s call

theorem RefreshesHeard.noRefreshLost (hHeard : RefreshesHeard s) : NoRefreshLost s := by
  refine ⟨fun call hCall hResolved path hPath => ?_, hHeard.pending⟩
  rcases hHeard.covered call hCall path hPath with ⟨hJoined, -⟩ | hDone
  · rw [hResolved] at hJoined
    contradiction
  · exact hDone

theorem RefreshesHeard.proceeds {s' : DirectoryPage} (hHeard : RefreshesHeard s) (hProceeds : Proceeds s s') : RefreshesHeard s' := by
  have hRuns : refreshRuns s' ↔ refreshRuns s := by rw [refreshRuns, refreshRuns, hProceeds.refresh]
  refine ⟨fun hStopped => ?_, fun call hCall hJoined => ?_, fun call hCall => ?_⟩
  · rw [hProceeds.pending]
    exact hHeard.pending (hRuns.not.mp hStopped)
  · rw [hProceeds.calls] at hCall
    exact hRuns.mpr (hHeard.joined call hCall hJoined)
  · rw [hProceeds.calls] at hCall
    rw [Covered, hProceeds.pending]
    exact hHeard.covered call hCall

theorem RefreshesHeard.afterAnswer (hHeard : RefreshesHeard s) (load : Load) : RefreshesHeard (s.afterAnswer load) := by
  rw [DirectoryPage.afterAnswer]
  split
  · exact ⟨fun hStopped => absurd (.inr rfl) hStopped, fun _ _ _ => .inr rfl, hHeard.covered⟩
  · exact hHeard

theorem refreshTurn_heard (hCovered : ∀ call ∈ s.calls, Covered s call) : RefreshesHeard s.refreshTurn := by
  obtain ⟨generations, cache, started, hTurn, -, -, -, -, hStarted⟩ := s.refreshTurn_eq
  rw [hTurn]
  refine ⟨fun hStopped => absurd (.inl rfl) hStopped, fun _ _ _ => .inl rfl, fun call hCall path hPath => ?_⟩
  obtain ⟨before, hBefore, rfl⟩ := List.mem_map.mp hCall
  have hRequested : ∀ other ∈ s.pathsToInvalidate, other ∈ started.map (·.path) ++ [s.currentPathRef] := by
    intro other hOther
    rw [hStarted]
    by_cases hActive : other = s.currentPathRef <;> simp [hOther, hActive]
  by_cases hResolved : before.phase = .resolved
  · have hKept : logRefresh s.pathsToInvalidate (started.map (·.path) ++ [s.currentPathRef]) before = before := by
      simp [logRefresh, hResolved]
    rw [hKept] at hPath ⊢
    rcases hCovered before hBefore path hPath with ⟨hJoined, -⟩ | hDone
    · rw [hResolved] at hJoined
      contradiction
    · exact .inr hDone
  · simp only [logRefresh, hResolved, if_false] at hPath ⊢
    refine .inr ?_
    rcases hCovered before hBefore path hPath with ⟨-, hPending⟩ | ⟨hInvalidated, hAsked⟩
    · have hTaken : path ∈ s.pathsToInvalidate := mem_pathsToInvalidate.mpr (.inr hPending)
      exact ⟨List.mem_append_right _ hTaken, List.mem_append_right _ (hRequested path hTaken)⟩
    · exact ⟨List.mem_append_left _ hInvalidated, List.mem_append_left _ hAsked⟩

theorem mem_addPending {paths pending : List Path} {path : Path} : path ∈ paths.foldl addPending pending ↔ path ∈ pending ∨ path ∈ paths := by
  induction paths generalizing pending with
  | nil => simp
  | cons added paths ih =>
    rw [List.foldl_cons, ih, addPending]
    split <;> simp <;> grind

section

variable (hHeard : RefreshesHeard s)
include hHeard

theorem covered_addCall (paths : List Path) (since : Nat) (owner : Bool) (phase : CallPhase) (hPhase : phase = .joined ∨ paths = []) :
    ∀ call ∈ (s.addCall paths since owner phase).calls, Covered (s.addCall paths since owner phase) call := by
  intro call hCall path hPath
  rcases List.mem_append.mp hCall with hOld | hOwn
  · rcases hHeard.covered call hOld path hPath with ⟨hJoined, hPending⟩ | hDone
    · exact .inl ⟨hJoined, mem_addPending.mpr (.inl hPending)⟩
    · exact .inr hDone
  · rw [List.mem_singleton.mp hOwn] at hPath ⊢
    rcases hPhase with hJoined | rfl
    · exact .inl ⟨hJoined, mem_addPending.mpr (.inr hPath)⟩
    · exact absurd hPath List.not_mem_nil

theorem RefreshesHeard.refreshAfterOperation (paths : List Path) (since : Nat) (hInTime : paths = [] ∨ s.refresh ≠ .returned) :
    RefreshesHeard (s.refreshCurrentDirectoryAfterOperation paths since) := by
  have hRunning : refreshRuns s → RefreshesHeard (s.addCall paths since false .joined) := fun hRuns =>
    ⟨fun hStopped => absurd hRuns hStopped, fun _ _ _ => hRuns,
      covered_addCall hHeard paths since false .joined (.inl rfl)⟩
  rw [refreshCurrentDirectoryAfterOperation]
  cases hPhase : s.refresh with
  | idle => exact refreshTurn_heard (covered_addCall hHeard paths since true .joined (.inl rfl))
  | awaiting => exact hRunning (.inl hPhase)
  | loaded => exact hRunning (.inr hPhase)
  | returned =>
    obtain rfl : paths = [] := hInTime.resolve_right fun hNot => hNot hPhase
    refine ⟨hHeard.pending, fun call hCall hJoined => ?_, covered_addCall hHeard [] since false .released (.inr rfl)⟩
    rcases List.mem_append.mp hCall with hOld | hOwn
    · exact hHeard.joined call hOld hJoined
    · rw [List.mem_singleton.mp hOwn] at hJoined
      contradiction

theorem RefreshesHeard.continueRefresh : RefreshesHeard s.continueRefresh := by
  rw [DirectoryPage.continueRefresh]
  split
  · rename_i hEmpty
    refine ⟨fun _ => hEmpty, fun call hCall hJoined => ?_, fun call hCall path hPath => ?_⟩
    · obtain ⟨before, -, rfl⟩ := List.mem_map.mp hCall
      rw [release] at hJoined
      split at hJoined <;> contradiction
    · obtain ⟨before, hBefore, rfl⟩ := List.mem_map.mp hCall
      have hPaths : (release before).paths = before.paths := by rw [release]; split <;> rfl
      have hLog : (release before).invalidated = before.invalidated ∧ (release before).requested = before.requested := by
        rw [release]
        split <;> exact ⟨rfl, rfl⟩
      rw [hPaths] at hPath
      rw [hLog.1, hLog.2]
      rcases hHeard.covered before hBefore path hPath with ⟨-, hPending⟩ | hDone
      · rw [hEmpty] at hPending
        exact absurd hPending List.not_mem_nil
      · exact .inr hDone
  · exact refreshTurn_heard hHeard.covered

theorem RefreshesHeard.resumeCall {index : Nat} {call : RefreshCall} (hCall : s.calls[index]? = some call)
    (hReleased : call.phase = .released) (hStopped : call.owner = true → ¬ refreshRuns s) : RefreshesHeard (s.resumeCall index call) := by
  have hCovered : ∀ other ∈ s.calls.set index { call with phase := .resolved }, Covered s other := by
    intro other hOther path hPath
    rcases List.mem_or_eq_of_mem_set hOther with hOld | rfl
    · exact hHeard.covered other hOld path hPath
    · rcases hHeard.covered call (List.mem_of_getElem? hCall) path hPath with ⟨hJoined, -⟩ | hDone
      · rw [hReleased] at hJoined
        contradiction
      · exact .inr hDone
  have hJoined : ∀ other ∈ s.calls.set index { call with phase := .resolved }, other.phase = .joined →
      refreshRuns s := by
    intro other hOther hPhase
    rcases List.mem_or_eq_of_mem_set hOther with hOld | rfl
    · exact hHeard.joined other hOld hPhase
    · contradiction
  rw [DirectoryPage.resumeCall]
  dsimp only
  split
  · rename_i hOwner
    exact ⟨fun _ => hHeard.pending (hStopped hOwner),
      fun other hOther hPhase => absurd (hJoined other hOther hPhase) (hStopped hOwner), hCovered⟩
  · exact ⟨hHeard.pending, hJoined, hCovered⟩

end

theorem step_one (resolve : Path → Path) (hOne : OneRefresh s) (event : PageEvent) : OneRefresh (s.step resolve event) := by
  rcases s.step_cases resolve event with hProceeds | ⟨index, load, hLoad, success, -, hProceeds⟩ | ⟨paths, since, -, -, hStep⟩ |
    ⟨-, hLoaded, hStep⟩ | ⟨index, call, hCall, hReleased, hStep⟩
  · exact hOne.proceeds hProceeds
  · obtain ⟨cache, hKept⟩ := keepAnswer_eq resolve { s with loads := s.loads.eraseIdx index } load success
    rw [hKept] at hProceeds
    exact (hOne.answered hLoad cache).proceeds hProceeds
  · rw [hStep]
    exact hOne.refreshAfterOperation paths since
  · rw [hStep]
    exact hOne.continueRefresh hLoaded
  · rw [hStep]
    exact hOne.resumeCall hCall hReleased

theorem step_heard (resolve : Path → Path) (hOne : OneRefresh s) (hHeard : RefreshesHeard s) {event : PageEvent}
    (hInTime : heardByRefresh s event = true) : RefreshesHeard (s.step resolve event) := by
  rcases s.step_cases resolve event with hProceeds | ⟨index, load, hLoad, success, -, hProceeds⟩ | ⟨paths, since, rfl, -, hStep⟩ |
    ⟨-, hLoaded, hStep⟩ | ⟨index, call, hCall, hReleased, hStep⟩
  · exact hHeard.proceeds hProceeds
  · obtain ⟨cache, hKept⟩ := keepAnswer_eq resolve { s with loads := s.loads.eraseIdx index } load success
    rw [hKept] at hProceeds
    have hErased : RefreshesHeard { s with loads := s.loads.eraseIdx index, directoryCache := cache } :=
      ⟨hHeard.pending, hHeard.joined, hHeard.covered⟩
    exact (hErased.afterAnswer load).proceeds hProceeds
  · rw [hStep]
    exact hHeard.refreshAfterOperation paths since (by simpa [heardByRefresh] using hInTime)
  · rw [hStep]
    exact hHeard.continueRefresh
  · rw [hStep]
    refine hHeard.resumeCall hCall hReleased fun hOwner hRuns => ?_
    have hReturned := hOne.released call (List.mem_of_getElem? hCall) hOwner hReleased
    rcases hRuns with hRuns | hRuns <;> rw [hReturned] at hRuns <;> contradiction

theorem opened_one (currentPath : Path) : OneRefresh (opened currentPath) := ⟨rfl, rfl, nofun⟩

theorem opened_heard (currentPath : Path) : RefreshesHeard (opened currentPath) := ⟨fun _ => rfl, nofun, nofun⟩

theorem reachable_heard {resolve : Path → Path}
    (hReachable : (directoryPages resolve).ReachableWhile (fun s event => heardByRefresh s event = true) s) :
    OneRefresh s ∧ RefreshesHeard s := by
  refine hReachable.invariant (P := fun s => OneRefresh s ∧ RefreshesHeard s) ?_ ?_
  · rintro _ ⟨currentPath, rfl⟩
    exact ⟨opened_one currentPath, opened_heard currentPath⟩
  · rintro s event ⟨hOne, hHeard⟩ hInTime
    exact ⟨step_one resolve hOne event, step_heard resolve hOne hHeard hInTime⟩

/-- While no call with directories falls between the return of the loop and the release of its promise, every
directory of a call is invalidated and requested before the call resolves, and none is left pending. -/
theorem refreshes_are_not_lost {resolve : Path → Path} {s : DirectoryPage}
    (hReachable : (directoryPages resolve).ReachableWhile (fun s event => heardByRefresh s event = true) s) :
    NoRefreshLost s := (reachable_heard hReachable).2.noRefreshLost

theorem joined_directory_is_refreshed : NoRefreshLost ((directoryPages id).run (opened ['/'])
      [.refreshAfterOperation [['/', 'a']] 0, .refreshAfterOperation [['/', 'b']] 0, .respond 1 true,
        .continueRefresh, .respond 2 true, .continueRefresh, .resumeCall 0, .resumeCall 1]) := by
  have hStart : (directoryPages id).ReachableWhile (fun s event => heardByRefresh s event = true) (opened ['/']) := .start ⟨_, rfl⟩
  exact refreshes_are_not_lost (hStart.run (by decide))

/-- The loop for `/a` has returned and its promise is still held when the call for `/b` is made. -/
def lateCall : List PageEvent :=
  [.refreshAfterOperation [['/', 'a']] 0, .respond 1 true, .continueRefresh, .refreshAfterOperation [['/', 'b']] 0,
    .resumeCall 0, .resumeCall 1]

theorem late_directory_is_not_refreshed : (directoryPages id).Reachable ((directoryPages id).run (opened ['/']) lateCall) ∧
    ¬ NoRefreshLost ((directoryPages id).run (opened ['/']) lateCall) ∧
    ((directoryPages id).run (opened ['/']) lateCall).calls.map (fun call => (call.phase, call.invalidated)) =
      [(.resolved, [['/'], ['/', 'a']]), (.resolved, [])] ∧
    ((directoryPages id).run (opened ['/']) lateCall).pendingRefreshPaths = [['/', 'b']] := by
  have hStart : (directoryPages id).Reachable (opened ['/']) := .start ⟨_, rfl⟩
  refine ⟨hStart.run lateCall, fun hLost => ?_, by decide, by decide⟩
  exact absurd (hLost.2 (by decide)) (by decide)

end SftpPage
