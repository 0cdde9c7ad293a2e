import Mathlib.Data.Rat.Defs
import Cosmosh.Library.Transition
import Cosmosh.Sftp.RemoteRequests

/-! # The guard of one SFTP operation

An operation runs under an idle deadline, an absolute deadline and the signal of its transport.
-/

namespace Sftp

open Library.Transition

/-- A number of milliseconds. `none` is what `Number.isFinite` refuses. -/
abbrev Milliseconds := Option Rat

inductive SftpOperationTimeoutKind
  | idle
  | absolute
  deriving DecidableEq

structure SftpOperationFailure where
  code : SftpOperationFailureCode
  operation : String
  outcomeUnknown : Bool
  limit : Option (SftpOperationTimeoutKind × Milliseconds)
  deriving DecidableEq

inductive GuardError (ε : Type)
  | operation (error : ε)
  | failure (failure : SftpOperationFailure)
  deriving DecidableEq

structure SftpOperationGuardOptions where
  operation : String
  impact : SftpOperationImpact
  idleTimeoutMs : Milliseconds
  absoluteTimeoutMs : Milliseconds
  hasOnTimeout : Bool

abbrev TimerId := Nat

structure ArmedTimer where
  id : TimerId
  timeoutKind : SftpOperationTimeoutKind
  deriving DecidableEq

/-- The variables of the guard, and what it has done to the platform, to its caller and to the operation. -/
structure OperationGuard (α ε : Type) where
  options : SftpOperationGuardOptions
  idleTimer : Option TimerId
  absoluteTimer : Option TimerId
  settled : Bool
  armed : List ArmedTimer
  nextTimer : TimerId
  listening : Bool
  transportAborted : Bool
  operationAborted : Option (GuardError ε)
  started : Bool
  settlements : List (Except (GuardError ε) α)
  timeoutCalls : List SftpOperationFailure

namespace OperationGuard

variable {α ε : Type} (guard : OperationGuard α ε)

def clearTimeout (timer : Option TimerId) : OperationGuard α ε := { guard with armed := guard.armed.filter fun entry => some entry.id ≠ timer }

def setTimeout (timeoutKind : SftpOperationTimeoutKind) : OperationGuard α ε :=
  { guard with armed := guard.armed ++ [⟨guard.nextTimer, timeoutKind⟩], nextTimer := guard.nextTimer + 1 }

def cleanup : OperationGuard α ε :=
  let guard := { guard.clearTimeout guard.idleTimer with idleTimer := none }
  let guard := { guard.clearTimeout guard.absoluteTimer with absoluteTimer := none }
  { guard with listening := false }

def settleSuccess (value : α) : OperationGuard α ε :=
  if guard.settled then guard
  else
    let guard := { guard with settled := true }.cleanup
    { guard with settlements := guard.settlements ++ [.ok value] }

def settleFailure (error : GuardError ε) : Bool × OperationGuard α ε :=
  if guard.settled then (false, guard)
  else
    let guard := { guard with settled := true }.cleanup
    (true, { guard with operationAborted := some error, settlements := guard.settlements ++ [.error error] })

def sftpOperationFailure (code : SftpOperationFailureCode) (limit : Option (SftpOperationTimeoutKind × Milliseconds)) :
    SftpOperationFailure := ⟨code, guard.options.operation, guard.options.impact = .mutation, limit⟩

def transportFailure : SftpOperationFailure := guard.sftpOperationFailure .transportClosed none

def handleTransportAbort : OperationGuard α ε := (guard.settleFailure (.failure guard.transportFailure)).2

def timeoutMs : SftpOperationTimeoutKind → Milliseconds
  | .idle => guard.options.idleTimeoutMs
  | .absolute => guard.options.absoluteTimeoutMs

def timeoutFailure (timeoutKind : SftpOperationTimeoutKind) : SftpOperationFailure :=
  guard.sftpOperationFailure .timeout (some (timeoutKind, guard.timeoutMs timeoutKind))

/-- An error of `onTimeout` is logged. -/
def handleTimeout (timeoutKind : SftpOperationTimeoutKind) : OperationGuard α ε :=
  let timeoutError := guard.timeoutFailure timeoutKind
  let (selected, guard) := guard.settleFailure (.failure timeoutError)
  if ¬selected then guard
  else if guard.options.hasOnTimeout then { guard with timeoutCalls := guard.timeoutCalls ++ [timeoutError] }
  else guard

def markProgress : OperationGuard α ε :=
  if guard.settled then guard
  else
    let guard := guard.clearTimeout guard.idleTimer
    { guard.setTimeout .idle with idleTimer := some guard.nextTimer }

/-- What reaches the guard: the reaction of the operation's promise, an error thrown by `start`, a call of `markProgress`, a
timer of the platform, and the abort of the transport. They come in any order, some of them while `start` is running. -/
inductive Event (α ε : Type)
  | fulfilled (value : α)
  | rejected (error : ε)
  | thrown (error : ε)
  | progress
  | timer (id : TimerId)
  | transportAbort
  deriving DecidableEq

def step : Event α ε → OperationGuard α ε
  | .fulfilled value => guard.settleSuccess value
  | .rejected error => (guard.settleFailure (.operation error)).2
  | .thrown error => (guard.settleFailure (.operation error)).2
  | .progress => guard.markProgress
  | .timer id =>
    match guard.armed.find? fun entry => entry.id = id with
    | some entry => { guard with armed := guard.armed.filter (· ≠ entry) }.handleTimeout entry.timeoutKind
    | none => guard
  | .transportAbort =>
    if guard.transportAborted then guard
    else if guard.listening then { guard with transportAborted := true, listening := false }.handleTransportAbort
    else { guard with transportAborted := true }

end OperationGuard

def isPositive : Milliseconds → Bool
  | some ms => 0 < ms
  | none => false

section

variable {α ε : Type} (options : SftpOperationGuardOptions) (transportAborted : Bool)

def newGuard : OperationGuard α ε := ⟨options, none, none, false, [], 0, false, transportAborted, none, false, [], []⟩

/-- Everything up to the call of `start`. -/
def install : OperationGuard α ε :=
  let guard := { newGuard options transportAborted with listening := true }
  if transportAborted then guard.handleTransportAbort
  else
    let guard := guard.markProgress
    { guard.setTimeout .absolute with absoluteTimer := some guard.nextTimer, started := true }

inductive RangeError
  | idleTimeout
  | absoluteTimeout
  deriving DecidableEq

def runGuardedSftpOperation : Except RangeError (OperationGuard α ε) :=
  if ¬isPositive options.idleTimeoutMs then .error .idleTimeout
  else if ¬isPositive options.absoluteTimeoutMs then .error .absoluteTimeout
  else .ok (install options transportAborted)

end

def guardedOperations (α ε : Type) : Machine (OperationGuard α ε) (OperationGuard.Event α ε) where
  initial guard := ∃ options transportAborted, runGuardedSftpOperation options transportAborted = .ok guard
  step := OperationGuard.step

end Sftp
