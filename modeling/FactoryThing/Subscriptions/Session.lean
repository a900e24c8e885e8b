import FactoryThing.Lib.Keyed
import FactoryThing.Lib.Runs
import FactoryThing.Subscriptions.Publishing

/-!
# A session with subscriptions

The subscription services (`src/server/ua_services_subscription.c:53-581`), the subscriptions and
the response queue of a session (`src/ua_session.c:94-124`), and the delayed callbacks that work
on them (`src/server/ua_server_worker.c:171-192`). The server is modelled as one activated session
sees it. Every event is one message, one timer callback or one round of delayed callbacks; it
carries what the environment answers, and it may stop the program.
-/

namespace FactoryThing.Subscriptions

variable {V : Type}

/-- `UA_UInt32Range` (`include/ua_server.h`). -/
structure UInt32Range where
  min : UInt32
  max : UInt32

/-- `UA_BOUNDEDVALUE_SETWBOUNDS` (`ua_services_subscription.c:11-15`). -/
def UInt32Range.setWithBounds (bounds : UInt32Range) (src : UInt32) : UInt32 :=
  if src > bounds.max then bounds.max else if src < bounds.min then bounds.min else src

/-- The part of `UA_ServerConfig` the subscriptions depend on. -/
structure Config where
  lifeTimeCountLimits : UInt32Range
  keepAliveCountLimits : UInt32Range
  queueSizeLimits : UInt32Range
  maxNotificationsPerPublish : UInt32
  maxRetransmissionQueueSize : UInt32

/-- The callbacks given to `UA_Server_delayedCallback`. The first one carries the token of the
session, the second one the channel to be freed. -/
inductive Delayed where
  | answerPublishRequestsNoSubscription
  | removeSecureChannelCallback (channel : Nat)
  deriving DecidableEq

/-- The session (`ua_session.h:35-58`) and what is around it: the clock, the channels of the
channel manager, the delayed callbacks and the next address `UA_malloc` hands out. The timeout is
in units of the clock. -/
structure Server (V : Type) where
  channel : Option Nat
  timeout : Int
  validTill : Int
  lastSubscriptionID : UInt32
  serverSubscriptions : List (Subscription V)
  responseQueue : List PublishResponseEntry
  clock : Int
  channels : List Nat
  delayedCallbacks : List Delayed
  nextAddr : Nat
  deriving DecidableEq

/-- A session that has just been activated on its first channel. -/
def Server.init (timeout clock : Int) : Server V where
  channel := some 0
  timeout := timeout
  validTill := clock + timeout
  lastSubscriptionID := 0
  serverSubscriptions := []
  responseQueue := []
  clock := clock
  channels := [0]
  delayedCallbacks := []
  nextAddr := 1

/-- What a step shows: samples, requests and their answers. -/
inductive Output (V : Type) where
  | accepted (sub mon : Nat) (value : DataValue V)
  | discarded (sub mon : Nat) (value : QueuedValue V)
  | requested (requestId requestHandle : UInt32)
  | queued (entry : PublishResponseEntry)
  | acknowledged (sub : Nat) (sequenceNumber : UInt32) (result : StatusCode)
  | published (sub : Nat) (response : PublishResponse V)
  | refused (response : PublishResponse V)
  | drained (response : PublishResponse V)
  | republished (sub : Nat) (sequenceNumber : UInt32)
      (answer : Except StatusCode (NotificationMessage V))
  | deleted (sub : Subscription V)

/-- The settings of a CreateSubscriptionRequest. -/
structure SubscriptionSettings where
  publishingEnabled : Bool
  requestedLifetimeCount : UInt32
  requestedMaxKeepAliveCount : UInt32
  maxNotificationsPerPublish : UInt32

/-- The monitoring parameters of a CreateMonitoredItems. -/
structure MonitoringParameters where
  clientHandle : UInt32
  queueSize : UInt32
  discardOldest : Bool
  trigger : DataChangeTrigger

/-- A PublishRequest with the subscription ids and sequence numbers it acknowledges. -/
structure PublishRequest where
  requestId : UInt32
  requestHandle : UInt32
  subscriptionAcknowledgements : List (UInt32 × UInt32)

/-- Which of the allocations of `Service_Publish` succeed. -/
structure PublishAllocs where
  entry : Bool
  results : Bool

/-- Which of the allocations of `Service_DeleteSubscriptions` succeed. -/
structure DeleteAllocs where
  results : Bool
  token : Bool
  delayedJob : Bool

variable (config : Config) (sv : Server V)

/-- `UA_Session_getSubscriptionByID` (`ua_session.c:110-118`). -/
def getSubscriptionByID (subscriptionID : UInt32) : Option (Subscription V) :=
  Keyed.find Subscription.subscriptionID sv.serverSubscriptions subscriptionID

/-- A write to the subscription at an address. -/
def Server.modifySubscription (a : Nat) (f : Subscription V → Subscription V) : Server V :=
  { sv with serverSubscriptions := Keyed.modify Subscription.addr f a sv.serverSubscriptions }

/-- `UA_Session_deleteSubscription` (`ua_session.c:98-108`). -/
def deleteSubscription (subscriptionID : UInt32) : Server V × List (Output V) :=
  match getSubscriptionByID sv subscriptionID with
  | none => (sv, [])
  | some sub =>
      ({ sv with
          serverSubscriptions :=
            Keyed.remove Subscription.subscriptionID sv.serverSubscriptions subscriptionID },
        [.deleted sub])

/-- `UA_Subscription_new` and the settings of `setSubscriptionSettings`
(`ua_services_subscription.c:17-74`). -/
def newSubscription (settings : SubscriptionSettings) (addr : Nat) (subscriptionID : UInt32) :
    Subscription V :=
  let maxKeepAliveCount :=
    config.keepAliveCountLimits.setWithBounds settings.requestedMaxKeepAliveCount
  let lifeTimeCount := config.lifeTimeCountLimits.setWithBounds settings.requestedLifetimeCount
  { addr := addr
    subscriptionID := subscriptionID
    lifeTimeCount :=
      if lifeTimeCount < 3 * maxKeepAliveCount then 3 * maxKeepAliveCount else lifeTimeCount
    maxKeepAliveCount := maxKeepAliveCount
    notificationsPerPublish :=
      if settings.maxNotificationsPerPublish = 0 ∨
          settings.maxNotificationsPerPublish > config.maxNotificationsPerPublish then
        config.maxNotificationsPerPublish
      else settings.maxNotificationsPerPublish
    publishingEnabled := settings.publishingEnabled
    state := .normal
    sequenceNumber := 0
    currentKeepAliveCount := maxKeepAliveCount
    currentLifetimeCount := 0
    lastMonitoredItemId := 0
    monitoredItems := []
    retransmissionQueue := []
    retransmissionQueueSize := 0 }

/-- `Service_CreateSubscription` (`:53-87`). -/
def serviceCreateSubscription (settings : SubscriptionSettings) (alloc : Bool) : Server V :=
  if ¬ alloc then sv
  else
    let subscriptionID := sv.lastSubscriptionID + 1
    { sv with
      lastSubscriptionID := subscriptionID
      nextAddr := sv.nextAddr + 1
      serverSubscriptions :=
        newSubscription config settings sv.nextAddr subscriptionID :: sv.serverSubscriptions }

/-- `UA_MonitoredItem_new` and the settings of `setMonitoredItemSettings` (`:145-195`). -/
def newMonitoredItem (params : MonitoringParameters) (addr : Nat) (itemId : UInt32) :
    MonitoredItem V :=
  { addr := addr
    itemId := itemId
    clientHandle := params.clientHandle
    currentQueueSize := 0
    maxQueueSize := config.queueSizeLimits.setWithBounds params.queueSize
    discardOldest := params.discardOldest
    trigger := params.trigger
    lastSampledValue := none
    queue := [] }

/-- `Service_CreateMonitoredItems` for one item that passes the checks of the request
(`:236-250`). The first sample it takes is a sample of its own. -/
def serviceCreateMonitoredItem (subscriptionID : UInt32) (params : MonitoringParameters)
    (alloc : Bool) : Server V :=
  match getSubscriptionByID sv subscriptionID with
  | none => sv
  | some sub =>
      let sv := sv.modifySubscription sub.addr fun sub => { sub with currentLifetimeCount := 0 }
      if ¬ alloc then sv
      else
        { sv with nextAddr := sv.nextAddr + 1 }.modifySubscription sub.addr fun sub =>
          { sub with
            lastMonitoredItemId := sub.lastMonitoredItemId + 1
            monitoredItems :=
              newMonitoredItem config params sv.nextAddr (sub.lastMonitoredItemId + 1) ::
                sub.monitoredItems }

/-- A sample of the monitored item at an address, for which the read yields `value`. -/
def sampleCallback (enc : Encoder V) (a m : Nat) (alloc : SampleAllocs) (value : DataValue V) :
    Except Breakdown (Server V × List (Output V)) :=
  match Keyed.find Subscription.addr sv.serverSubscriptions a with
  | none => .ok (sv, [])
  | some sub =>
      match Keyed.find MonitoredItem.addr sub.monitoredItems m with
      | none => .ok (sv, [])
      | some mon =>
          match sampleCallbackWithValue enc alloc mon value with
          | .error breakdown => .error breakdown
          | .ok ⟨mon', accepted, discarded⟩ =>
              .ok (sv.modifySubscription a fun sub =>
                  { sub with
                    monitoredItems :=
                      Keyed.modify MonitoredItem.addr (fun _ => mon') m sub.monitoredItems },
                discarded.map (Output.discarded a m) ++
                  if accepted then [Output.accepted a m value] else [])

/-- `UA_Subscription_publishCallback` of the subscription at an address. -/
def publish [Inhabited V] (a : Nat) (turns : Nat → Turn) : Server V × List (Output V) :=
  match Keyed.find Subscription.addr sv.serverSubscriptions a with
  | none => (sv, [])
  | some sub =>
      let published :=
        publishCallback config.maxRetransmissionQueueSize sv.channel turns sub sv.responseQueue
      let sv :=
        { sv with responseQueue := published.responseQueue }.modifySubscription a
          fun _ => published.sub
      let sent := published.sent.map (Output.published a)
      if published.endOfLifetime then
        let (sv, deleted) := deleteSubscription sv published.sub.subscriptionID
        (sv, sent ++ deleted)
      else (sv, sent)

/-- The acknowledgements of a PublishRequest in turn (`:449-462`), with their results. -/
def acknowledge : Server V → List (UInt32 × UInt32) →
    Server V × List StatusCode × List (Output V)
  | sv, [] => (sv, [], [])
  | sv, (subscriptionID, sequenceNumber) :: acks =>
      match getSubscriptionByID sv subscriptionID with
      | none =>
          let (sv, results, outputs) := acknowledge sv acks
          (sv, StatusCode.badSubscriptionIdInvalid :: results, outputs)
      | some sub =>
          let result := (removeRetransmissionMessage sub sequenceNumber).2
          let (sv, results, outputs) :=
            acknowledge (sv.modifySubscription sub.addr fun sub =>
              (removeRetransmissionMessage sub sequenceNumber).1) acks
          (sv, result :: results, .acknowledged sub.addr sequenceNumber result :: outputs)

/-- A response without any content (`UA_PublishResponse_init`). -/
def errorResponse (channel : Nat) (requestId requestHandle : UInt32) (error : StatusCode)
    (results : List StatusCode) : PublishResponse V :=
  { channel := channel
    requestId := requestId
    requestHandle := requestHandle
    serviceResult := error
    subscriptionId := 0
    availableSequenceNumbers := []
    moreNotifications := false
    notificationMessage := ⟨0, 0, []⟩
    results := results }

/-- `subscriptionSendError` (`:400-411`). -/
def subscriptionSendError (channel : Nat) (requestHandle requestId : UInt32) (error : StatusCode) :
    PublishResponse V :=
  errorResponse channel requestId requestHandle error []

/-- `Service_Publish` (`:413-481`), called over the channel of the session. -/
def servicePublish [Inhabited V] (channel : Nat) (request : PublishRequest) (alloc : PublishAllocs)
    (turns : Nat → Turn) : Server V × List (Output V) :=
  if sv.serverSubscriptions = [] then
    (sv, [.refused (subscriptionSendError channel request.requestHandle request.requestId
      StatusCode.badNoSubscription)])
  -- the two calls below name the request id first
  else if ¬ alloc.entry then
    (sv, [.refused (subscriptionSendError channel request.requestId request.requestHandle
      StatusCode.badOutOfMemory)])
  else if request.subscriptionAcknowledgements ≠ [] ∧ ¬ alloc.results then
    (sv, [.refused (subscriptionSendError channel request.requestId request.requestHandle
      StatusCode.badOutOfMemory)])
  else
    let (sv, results, acknowledged) := acknowledge sv request.subscriptionAcknowledgements
    let entry : PublishResponseEntry := ⟨request.requestId, request.requestHandle, results⟩
    let sv := { sv with responseQueue := sv.responseQueue ++ [entry] }
    match sv.serverSubscriptions.find? (·.state = .late) with
    | none => (sv, acknowledged ++ [.queued entry])
    | some immediate =>
        let (sv, published) := publish config sv immediate.addr turns
        (sv, acknowledged ++ .queued entry :: published)

/-- The answer to a RepublishRequest; `copied` tells whether the message can be copied. -/
def republishAnswer (sub : Subscription V) (retransmitSequenceNumber : UInt32) (copied : Bool) :
    Except StatusCode (NotificationMessage V) :=
  match sub.retransmissionQueue.find? (·.sequenceNumber == retransmitSequenceNumber) with
  | none => .error StatusCode.badMessageNotAvailable
  | some message => if copied then .ok message else .error StatusCode.badOutOfMemory

/-- `Service_Republish` (`:557-581`). -/
def serviceRepublish (subscriptionID retransmitSequenceNumber : UInt32) (copied : Bool) :
    Server V × List (Output V) :=
  match getSubscriptionByID sv subscriptionID with
  | none => (sv, [])
  | some sub =>
      (sv.modifySubscription sub.addr fun sub => { sub with currentLifetimeCount := 0 },
        [.republished sub.addr retransmitSequenceNumber
          (republishAnswer sub retransmitSequenceNumber copied)])

/-- `UA_Session_deleteSubscription` for one id after the other. -/
def deleteSubscriptions : Server V → List UInt32 → Server V × List (Output V)
  | sv, [] => (sv, [])
  | sv, subscriptionID :: ids =>
      let (sv, deleted) := deleteSubscription sv subscriptionID
      let (sv, deleted') := deleteSubscriptions sv ids
      (sv, deleted ++ deleted')

/-- `Service_DeleteSubscriptions` (`:483-524`). -/
def serviceDeleteSubscriptions (ids : List UInt32) (alloc : DeleteAllocs) :
    Server V × List (Output V) :=
  if ids = [] ∨ ¬ alloc.results then (sv, [])
  else
    let (sv, deleted) := deleteSubscriptions sv ids
    if sv.serverSubscriptions ≠ [] ∨ ¬ alloc.token ∨ ¬ alloc.delayedJob then (sv, deleted)
    else
      ({ sv with
          delayedCallbacks := .answerPublishRequestsNoSubscription :: sv.delayedCallbacks },
            deleted)

/-- `UA_Subscription_answerPublishRequestsNoSubscription` (`ua_subscription.c:596-620`). The session
manager does not hand out a session that has timed out. -/
def answerPublishRequestsNoSubscription : Except Breakdown (Server V × List (Output V)) :=
  if sv.clock > sv.validTill ∨ sv.serverSubscriptions ≠ [] ∨ sv.responseQueue = [] then .ok (sv, [])
  else
    match sv.channel with
    | none => .error .noChannel
    | some channel =>
        .ok ({ sv with responseQueue := [] },
          sv.responseQueue.map fun pre =>
            .drained (errorResponse channel pre.requestId pre.requestHandle
              StatusCode.badNoSubscription pre.results))

/-- One delayed callback. The channel of the second one is freed
(`UA_SecureChannel_deleteMembersCleanup`), and the session loses it if it is attached to it. -/
def runDelayed : Delayed → Except Breakdown (Server V × List (Output V))
  | .answerPublishRequestsNoSubscription => answerPublishRequestsNoSubscription sv
  | .removeSecureChannelCallback c =>
      .ok ({ sv with channel := if sv.channel = some c then none else sv.channel }, [])

/-- `processDelayedCallbacks` (`ua_server_worker.c:182-192`), the newest one first. -/
def processDelayedCallbacks : List Delayed → Server V →
    Except Breakdown (Server V × List (Output V))
  | [], sv => .ok ({ sv with delayedCallbacks := [] }, [])
  | d :: ds, sv =>
      match runDelayed { sv with delayedCallbacks := ds } d with
      | .error breakdown => .error breakdown
      | .ok (sv, outputs) =>
          match processDelayedCallbacks ds sv with
          | .error breakdown => .error breakdown
          | .ok (sv, outputs') => .ok (sv, outputs ++ outputs')

/-- `removeSecureChannel` (`ua_securechannel_manager.c:37-53`) of a channel still in the list. -/
def removeSecureChannel (c : Nat) (alloc : Bool) : Server V :=
  if c ∈ sv.channels ∧ alloc then
    { sv with
      delayedCallbacks := .removeSecureChannelCallback c :: sv.delayedCallbacks
      channels := sv.channels.erase c }
  else sv

/-- `Service_ActivateSession` (`ua_services_session.c:64-93`) over channel `c`, for a request the
access control lets pass; `alloc` tells whether the entry in the session list of the channel can
be allocated. -/
def serviceActivateSession (c : Nat) (alloc : Bool) : Server V :=
  if sv.validTill < sv.clock then sv
  else
    let channel := if sv.channel = some c then sv.channel else none
    { sv with
      channel := if channel = none ∧ alloc then some c else channel
      validTill := sv.clock + sv.timeout }

/-- What can happen to the session. The first three are timer callbacks and the clock. -/
inductive Event (V : Type) where
  | sample (sub mon : Nat) (alloc : SampleAllocs) (value : DataValue V)
  | publishCallback (sub : Nat) (turns : Nat → Turn)
  | tick (elapsed : Nat)
  | publish (request : PublishRequest) (alloc : PublishAllocs) (turns : Nat → Turn)
  | republish (subscriptionID sequenceNumber : UInt32) (copied : Bool)
  | createSubscription (settings : SubscriptionSettings) (alloc : Bool)
  | createMonitoredItem (subscriptionID : UInt32) (params : MonitoringParameters) (alloc : Bool)
  | deleteSubscriptions (ids : List UInt32) (alloc : DeleteAllocs)
  | openChannel
  | closeChannel (channel : Nat) (alloc : Bool)
  | activateSession (channel : Nat) (alloc : Bool)
  | delayedCallbacks

/-- A service called over the channel of the session; the message prolongs the session's life
(`ua_server_binary.c:491-503`). A request over any other channel does not reach the service. -/
def Server.serve (service : Nat → Server V → Server V × List (Output V)) :
    Server V × List (Output V) :=
  match sv.channel with
  | none => (sv, [])
  | some channel => service channel { sv with validTill := sv.clock + sv.timeout }

/-- One event: a callback of the server, a service call, or the network. -/
def step [Inhabited V] (enc : Encoder V) : Event V → Except Breakdown (Server V × List (Output V))
  | .sample a m alloc value => sampleCallback sv enc a m alloc value
  | .publishCallback a turns => .ok (publish config sv a turns)
  | .tick elapsed => .ok ({ sv with clock := sv.clock + elapsed }, [])
  | .publish request alloc turns =>
      .ok (sv.serve fun channel sv =>
        let (sv, outputs) := servicePublish config sv channel request alloc turns
        (sv, .requested request.requestId request.requestHandle :: outputs))
  | .republish subscriptionID sequenceNumber copied =>
      .ok (sv.serve fun _ sv => serviceRepublish sv subscriptionID sequenceNumber copied)
  | .createSubscription settings alloc =>
      .ok (sv.serve fun _ sv => (serviceCreateSubscription config sv settings alloc, []))
  | .createMonitoredItem subscriptionID params alloc =>
      .ok (sv.serve fun _ sv =>
        (serviceCreateMonitoredItem config sv subscriptionID params alloc, []))
  | .deleteSubscriptions ids alloc =>
      .ok (sv.serve fun _ sv => serviceDeleteSubscriptions sv ids alloc)
  | .openChannel =>
      .ok ({ sv with nextAddr := sv.nextAddr + 1, channels := sv.nextAddr :: sv.channels }, [])
  | .closeChannel c alloc => .ok (removeSecureChannel sv c alloc, [])
  | .activateSession c alloc =>
      .ok (if c ∈ sv.channels ∨ .removeSecureChannelCallback c ∈ sv.delayedCallbacks then
        serviceActivateSession sv c alloc else sv, [])
  | .delayedCallbacks => processDelayedCallbacks sv.delayedCallbacks sv

end FactoryThing.Subscriptions
