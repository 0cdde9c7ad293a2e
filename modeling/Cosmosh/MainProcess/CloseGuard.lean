import Cosmosh.Library.Transition
import Cosmosh.MainProcess.CloseConfirmation

/-! # Deciding on a close

A close of a window or of the application is decided one at a time: the guard counts the connections,
asks unless it need not, disconnects, and approves.
-/

namespace MainProcess

open Library.Transition

abbrev DecisionId := Nat

structure ActiveConnectionSummary where
  sshCount : Nat
  sftpCount : Nat
  totalCount : Nat
  deriving DecidableEq

inductive ConnectionCloseIntent
  | quit
  | window
  deriving DecidableEq

inductive ConnectionCloseGuardErrorStage
  | confirmation
  | disconnect
  | preference
  | probe
  deriving DecidableEq

inductive RequestStage
  | readActiveConnections
  | readCloseConfirmationEnabled
  | confirmClose
  | closeActiveConnections
  | onApproved
  | ended
  deriving DecidableEq

/-- A running request with its local variables; `confirmation` is the promise that `confirmClose` gave. -/
structure CloseDecision where
  id : DecisionId
  intent : ConnectionCloseIntent
  stage : RequestStage
  summary : Option ActiveConnectionSummary
  confirmationEnabled : Bool
  confirmation : Option ConfirmationId
  deriving DecidableEq

/-- `approvals` holds the decisions as they were when `onApproved` was called. -/
structure ConnectionCloseGuard where
  pendingRequest : Option DecisionId
  decisions : List CloseDecision
  approvals : List CloseDecision
  nextDecision : DecisionId
  errors : List ConnectionCloseGuardErrorStage
  broker : RendererCloseConfirmationBroker

def newGuard : ConnectionCloseGuard := ⟨none, [], [], 0, [], newBroker⟩

namespace ConnectionCloseGuard

variable (guard : ConnectionCloseGuard)

def requestClose (intent : ConnectionCloseIntent) : ConnectionCloseGuard :=
  match guard.pendingRequest with
  | some _ => guard
  | none =>
    { guard with
      pendingRequest := some guard.nextDecision
      decisions := guard.decisions ++ [⟨guard.nextDecision, intent, .readActiveConnections, none, true, none⟩]
      nextDecision := guard.nextDecision + 1 }

def report (stage : ConnectionCloseGuardErrorStage) : ConnectionCloseGuard := { guard with errors := guard.errors ++ [stage] }

def goOn (decision : CloseDecision) : ConnectionCloseGuard :=
  { guard with decisions := guard.decisions.map fun other => if other.id = decision.id then decision else other }

def approve (decision : CloseDecision) : ConnectionCloseGuard :=
  { guard with approvals := guard.approvals ++ [decision] }.goOn { decision with stage := .onApproved }

def afterActiveConnections (decision : CloseDecision) : Option ActiveConnectionSummary → ConnectionCloseGuard
  | some summary =>
    if summary.totalCount = 0 then guard.approve { decision with summary := some summary }
    else guard.goOn { decision with summary := some summary, stage := .readCloseConfirmationEnabled }
  | none => (guard.report .probe).goOn { decision with stage := .readCloseConfirmationEnabled }

/-- The target is the main window as it is when `confirmClose` is called. -/
def askConfirmation (decision : CloseDecision) (target : Option RendererCloseConfirmationTarget) (requestId : String) : ConnectionCloseGuard :=
  match guard.broker.requestConfirmation target requestId with
  | (broker, some confirmation) =>
    { guard with broker := broker }.goOn { decision with confirmation := some confirmation, stage := .confirmClose }
  | (broker, none) => ({ guard with broker := broker }.report .confirmation).goOn { decision with stage := .ended }

def afterPreference (decision : CloseDecision) (target : Option RendererCloseConfirmationTarget) (requestId : String) :
    Option Bool → ConnectionCloseGuard
  | some false => guard.goOn { decision with confirmationEnabled := false, stage := .closeActiveConnections }
  | some true => guard.askConfirmation decision target requestId
  | none => (guard.report .preference).askConfirmation decision target requestId

def afterConfirmation (decision : CloseDecision) (confirmed : Bool) : ConnectionCloseGuard :=
  if confirmed then guard.goOn { decision with stage := .closeActiveConnections } else guard.goOn { decision with stage := .ended }

def afterDisconnect (decision : CloseDecision) (disconnected : Bool) : ConnectionCloseGuard :=
  if disconnected then guard.approve decision else (guard.report .disconnect).approve decision

/-- The handler of `finally`. -/
def clearPendingRequest (decision : CloseDecision) : ConnectionCloseGuard :=
  { guard with
    decisions := guard.decisions.filter (·.id ≠ decision.id)
    pendingRequest := if guard.pendingRequest = some decision.id then none else guard.pendingRequest }

end ConnectionCloseGuard

/-- `none` stands for a failure. -/
inductive CloseEvent
  | requestClose (intent : ConnectionCloseIntent)
  | probed (decision : CloseDecision) (summary : Option ActiveConnectionSummary)
  | preferred (decision : CloseDecision) (enabled : Option Bool) (target : Option RendererCloseConfirmationTarget) (requestId : String)
  | confirmed (decision : CloseDecision) (settlement : Settlement)
  | disconnected (decision : CloseDecision) (succeeded : Bool)
  | approved (decision : CloseDecision)
  | cleared (decision : CloseDecision)
  | response (senderWebContentsId : Nat) (requestId : String) (confirmed : Bool)
  | destroyed (promise : ConfirmationId)
  | timedOut (promise : ConfirmationId)
  deriving DecidableEq

namespace ConnectionCloseGuard

variable (guard : ConnectionCloseGuard)

def waitsAt (decision : CloseDecision) (stage : RequestStage) : Bool := decide (decision ∈ guard.decisions) && decide (decision.stage = stage)

def step : CloseEvent → ConnectionCloseGuard
  | .requestClose intent => guard.requestClose intent
  | .probed decision summary =>
    if guard.waitsAt decision .readActiveConnections then guard.afterActiveConnections decision summary else guard
  | .preferred decision enabled target requestId =>
    if guard.waitsAt decision .readCloseConfirmationEnabled then guard.afterPreference decision target requestId enabled else guard
  | .confirmed decision settlement =>
    if guard.waitsAt decision .confirmClose && decide (settlement ∈ guard.broker.settled) &&
        decide (decision.confirmation = some settlement.confirmation) then
      guard.afterConfirmation decision settlement.confirmed
    else guard
  | .disconnected decision succeeded =>
    if guard.waitsAt decision .closeActiveConnections then guard.afterDisconnect decision succeeded else guard
  | .approved decision => if guard.waitsAt decision .onApproved then guard.goOn { decision with stage := .ended } else guard
  | .cleared decision => if guard.waitsAt decision .ended then guard.clearPendingRequest decision else guard
  | .response senderWebContentsId requestId confirmed =>
    { guard with broker := (guard.broker.resolveConfirmation senderWebContentsId requestId confirmed).1 }
  | .destroyed promise => { guard with broker := guard.broker.onDestroyed promise }
  | .timedOut promise => { guard with broker := guard.broker.onTimeout promise }

end ConnectionCloseGuard

def closeGuard : Machine ConnectionCloseGuard CloseEvent where
  initial := fun guard => guard = newGuard
  step := ConnectionCloseGuard.step

end MainProcess
