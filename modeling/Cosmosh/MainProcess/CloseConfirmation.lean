import Mathlib.Data.List.Basic

/-! # Asking the renderer before a close

The main process asks the renderer of a window whether its connections may be closed.
-/

namespace MainProcess

abbrev ConfirmationId := Nat

inductive RendererCloseConfirmationErrorStage
  | send
  | timeout
  | unavailable
  deriving DecidableEq

inductive SettlementCause
  | unavailable
  | response (senderWebContentsId : Nat) (requestId : String)
  | destroyed
  | send_failed
  | timed_out
  deriving DecidableEq

structure Settlement where
  confirmation : ConfirmationId
  confirmed : Bool
  cause : SettlementCause
  deriving DecidableEq

structure PendingRendererCloseConfirmation where
  ownerWebContentsId : Nat
  promise : ConfirmationId
  requestId : String
  /-- Whether `unsubscribeDestroyed` is the one that the target gave. -/
  subscribed : Bool
  deriving DecidableEq

/-- `timers` and `subscriptions` are those that are live; `requested` holds every confirmation that was opened. -/
structure RendererCloseConfirmationBroker where
  pendingConfirmation : Option PendingRendererCloseConfirmation
  timers : List ConfirmationId
  subscriptions : List ConfirmationId
  settled : List Settlement
  requested : List PendingRendererCloseConfirmation
  created : Nat
  errors : List RendererCloseConfirmationErrorStage

inductive RendererSignal
  | response (senderWebContentsId : Nat) (requestId : String) (confirmed : Bool)
  | destroyed
  deriving DecidableEq

/-- How `subscribeDestroyed` goes. -/
inductive SubscribeOutcome
  | returns
  | fires
  | throws
  deriving DecidableEq

/-- `duringSend` is what happens while `sendRequest` runs. -/
structure RendererCloseConfirmationTarget where
  webContentsId : Nat
  subscribeDestroyed : SubscribeOutcome
  duringSend : List RendererSignal
  sendFails : Bool
  deriving DecidableEq

def newBroker : RendererCloseConfirmationBroker := ⟨none, [], [], [], [], 0, []⟩

namespace RendererCloseConfirmationBroker

variable (broker : RendererCloseConfirmationBroker)

def settle (promise : ConfirmationId) (confirmed : Bool) (cause : SettlementCause) : RendererCloseConfirmationBroker :=
  match broker.pendingConfirmation with
  | none => broker
  | some pending =>
    if pending.promise = promise then
      { broker with
        timers := broker.timers.filter (· ≠ promise)
        subscriptions := if pending.subscribed then broker.subscriptions.filter (· ≠ promise) else broker.subscriptions
        pendingConfirmation := none
        settled := broker.settled ++ [⟨promise, confirmed, cause⟩] }
    else broker

def resolveConfirmation (senderWebContentsId : Nat) (requestId : String) (confirmed : Bool) : RendererCloseConfirmationBroker × Bool :=
  match broker.pendingConfirmation with
  | none => (broker, false)
  | some pending =>
    if senderWebContentsId = pending.ownerWebContentsId ∧ requestId = pending.requestId then
      (broker.settle pending.promise confirmed (.response senderWebContentsId requestId), true)
    else (broker, false)

def onDestroyed (promise : ConfirmationId) : RendererCloseConfirmationBroker :=
  if promise ∈ broker.subscriptions then broker.settle promise true .destroyed else broker

def onTimeout (promise : ConfirmationId) : RendererCloseConfirmationBroker :=
  if promise ∈ broker.timers then
    let fired : RendererCloseConfirmationBroker :=
      { broker with timers := broker.timers.filter (· ≠ promise), errors := broker.errors ++ [.timeout] }
    fired.settle promise false .timed_out
  else broker

def onSignal (promise : ConfirmationId) : RendererSignal → RendererCloseConfirmationBroker
  | .response senderWebContentsId requestId confirmed => (broker.resolveConfirmation senderWebContentsId requestId confirmed).1
  | .destroyed => broker.onDestroyed promise

def openConfirmation (webContentsId : Nat) (requestId : String) : RendererCloseConfirmationBroker :=
  let pending : PendingRendererCloseConfirmation := ⟨webContentsId, broker.created, requestId, false⟩
  { broker with
    created := broker.created + 1
    requested := broker.requested ++ [pending]
    timers := broker.created :: broker.timers
    pendingConfirmation := some pending }

/-- `unsubscribeDestroyed` is set on the confirmation, also when that has ended meanwhile. -/
def attachSubscription (promise : ConfirmationId) : RendererCloseConfirmationBroker :=
  { broker with
    subscriptions := promise :: broker.subscriptions
    pendingConfirmation := broker.pendingConfirmation.map fun pending =>
      if pending.promise = promise then { pending with subscribed := true } else pending }

def sendRequest (target : RendererCloseConfirmationTarget) (promise : ConfirmationId) : RendererCloseConfirmationBroker :=
  let sent := target.duringSend.foldl (fun broker signal => broker.onSignal promise signal) broker
  if target.sendFails then
    let reported : RendererCloseConfirmationBroker := { sent with errors := sent.errors ++ [.send] }
    reported.settle promise true .send_failed
  else sent

def requestConfirmation (target : Option RendererCloseConfirmationTarget) (requestId : String) :
    RendererCloseConfirmationBroker × Option ConfirmationId :=
  match broker.pendingConfirmation, target with
  | some pending, _ => (broker, some pending.promise)
  | none, none =>
    ({ broker with
        created := broker.created + 1
        settled := broker.settled ++ [⟨broker.created, true, .unavailable⟩]
        errors := broker.errors ++ [.unavailable] }, some broker.created)
  | none, some target =>
    let opened := broker.openConfirmation target.webContentsId requestId
    match target.subscribeDestroyed with
    | .throws => (opened, none)
    | .returns => ((opened.attachSubscription broker.created).sendRequest target broker.created, some broker.created)
    | .fires =>
      (((opened.settle broker.created true .destroyed).attachSubscription broker.created).sendRequest target broker.created,
        some broker.created)

def Sound (requested : List PendingRendererCloseConfirmation) (settlement : Settlement) : Prop :=
  match settlement.cause with
  | .response senderWebContentsId requestId =>
    ∃ pending ∈ requested, pending.promise = settlement.confirmation ∧ pending.ownerWebContentsId = senderWebContentsId ∧
      pending.requestId = requestId
  | .timed_out => settlement.confirmed = false
  | .unavailable | .destroyed | .send_failed => settlement.confirmed = true

end RendererCloseConfirmationBroker

end MainProcess
