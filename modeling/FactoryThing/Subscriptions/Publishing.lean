import FactoryThing.Subscriptions.Notifications

/-!
# Publishing

Notification messages, the retransmission queue and the publish callback
(`src/server/ua_subscription.c:334-563`). The callback works on its subscription and on the
response queue of the session; what it sends is returned with the address of the channel it is
sent over. Every pass of the callback asks the environment for the time and for memory.
-/

namespace FactoryThing.Subscriptions

variable {V : Type}

/-- `UA_NotificationMessage`. The notification data are those of the one
`UA_DataChangeNotification` in it; without it the list is empty. -/
structure NotificationMessage (V : Type) where
  sequenceNumber : UInt32
  publishTime : Int
  notificationData : List (MonitoredItemNotification V)
  deriving DecidableEq

/-- The states of a subscription the program uses. -/
inductive SubscriptionState where
  | normal
  | late
  deriving DecidableEq

/-- `UA_Subscription` (`ua_subscription.h:82-114`) without its intervals, priority and job. -/
structure Subscription (V : Type) where
  addr : Nat
  subscriptionID : UInt32
  lifeTimeCount : UInt32
  maxKeepAliveCount : UInt32
  notificationsPerPublish : UInt32
  publishingEnabled : Bool
  state : SubscriptionState
  sequenceNumber : UInt32
  currentKeepAliveCount : UInt32
  currentLifetimeCount : UInt32
  lastMonitoredItemId : UInt32
  monitoredItems : List (MonitoredItem V)
  retransmissionQueue : List (NotificationMessage V)
  retransmissionQueueSize : UInt32
  deriving DecidableEq

/-- `UA_PublishResponseEntry`: of the response prepared so far, the request handle and the results
of the acknowledgements. -/
structure PublishResponseEntry where
  requestId : UInt32
  requestHandle : UInt32
  results : List StatusCode
  deriving DecidableEq

/-- `UA_PublishResponse` as given to `UA_SecureChannel_sendBinaryMessage` with the request id. -/
structure PublishResponse (V : Type) where
  channel : Nat
  requestId : UInt32
  requestHandle : UInt32
  serviceResult : StatusCode
  subscriptionId : UInt32
  availableSequenceNumbers : List UInt32
  moreNotifications : Bool
  notificationMessage : NotificationMessage V
  results : List StatusCode
  deriving DecidableEq

/-- What the environment answers in one pass of the publish callback: the clock, and whether the
retransmission entry and the parts of the message can be allocated. -/
structure Turn where
  now : Int
  retransmission : Bool
  message : Bool

variable (sub : Subscription V)

/-- `countQueuedNotifications` (`:334-351`). -/
def countQueuedNotifications : Nat × Bool :=
  if sub.publishingEnabled then
    countItems sub.notificationsPerPublish.toNat sub.monitoredItems (0, false)
  else (0, false)

/-- `prepareNotificationMessage` (`:388-436`) once its memory is there: the notifications in the
message, of which `UA_Array_new` has zeroed those that are not written, and the subscription. -/
def prepareNotificationMessage [Inhabited V] (notifications : Nat) :
    List (MonitoredItemNotification V) × Subscription V :=
  let (moved, mons) := moveItems notifications 0 sub.monitoredItems
  (moved ++ List.replicate (notifications - moved.length) default,
    { sub with monitoredItems := mons })

/-- `UA_Subscription_addRetransmissionMessage` (`:353-371`). -/
def addRetransmissionMessage (maxRetransmissionQueueSize : UInt32)
    (entry : NotificationMessage V) : Subscription V :=
  let sub :=
    if maxRetransmissionQueueSize > 0 ∧
        sub.retransmissionQueueSize ≥ maxRetransmissionQueueSize then
      { sub with
        retransmissionQueue := sub.retransmissionQueue.dropLast
        retransmissionQueueSize := sub.retransmissionQueueSize - 1 }
    else sub
  { sub with
    retransmissionQueue := entry :: sub.retransmissionQueue
    retransmissionQueueSize := sub.retransmissionQueueSize + 1 }

/-- `UA_Subscription_removeRetransmissionMessage` (`:373-386`). -/
def removeRetransmissionMessage (sequenceNumber : UInt32) : Subscription V × StatusCode :=
  if sub.retransmissionQueue.any (·.sequenceNumber == sequenceNumber) then
    ({ sub with
        retransmissionQueue :=
          sub.retransmissionQueue.eraseP (·.sequenceNumber == sequenceNumber)
        retransmissionQueueSize := sub.retransmissionQueueSize - 1 }, StatusCode.good)
  else (sub, StatusCode.badSequenceNumberUnknown)

/-- Setting up the response behind the point of no return (`:499-537`): the subscription with the
message in its retransmission queue, if it has notifications, and the response as it is sent. -/
def setUpResponse [Inhabited V] (maxRetransmissionQueueSize : UInt32) (channel : Nat)
    (pre : PublishResponseEntry) (turn : Turn) (notifications : Nat) (moreNotifications : Bool) :
    Subscription V × PublishResponse V :=
  let (notificationData, sub) :=
    if notifications > 0 then prepareNotificationMessage sub notifications else ([], sub)
  let sequenceNumber := sub.sequenceNumber + 1
  let message : NotificationMessage V := ⟨sequenceNumber, turn.now, notificationData⟩
  let sub :=
    if notifications > 0 then
      addRetransmissionMessage { sub with sequenceNumber := sequenceNumber }
        maxRetransmissionQueueSize message
    else sub
  ({ sub with state := .normal, currentKeepAliveCount := 0, currentLifetimeCount := 0 },
    { channel := channel
      requestId := pre.requestId
      requestHandle := pre.requestHandle
      serviceResult := StatusCode.good
      subscriptionId := sub.subscriptionID
      availableSequenceNumbers := sub.retransmissionQueue.map (·.sequenceNumber)
      moreNotifications := moreNotifications
      notificationMessage := message
      results := pre.results })

/-- What a publish callback does: the subscription afterwards and whether its lifetime has ended,
the response queue and the responses sent. -/
structure Published (V : Type) where
  sub : Subscription V
  endOfLifetime : Bool
  responseQueue : List PublishResponseEntry
  sent : List (PublishResponse V)

/-- What is done without a response to publish with (`:462-478`). -/
def withoutResponse : Published V :=
  if sub.state ≠ .late then ⟨{ sub with state := .late }, false, [], []⟩
  else
    let sub := { sub with currentLifetimeCount := sub.currentLifetimeCount + 1 }
    ⟨sub, sub.currentLifetimeCount > sub.lifeTimeCount, [], []⟩

/-- `UA_Subscription_publishCallback` (`:438-563`). Every repetition uses up a queued response. -/
def publishCallback [Inhabited V] (maxRetransmissionQueueSize : UInt32) (channel : Option Nat)
    (turns : Nat → Turn) (sub : Subscription V) (responseQueue : List PublishResponseEntry) :
    Published V :=
  let (notifications, moreNotifications) := countQueuedNotifications sub
  let sub :=
    if notifications = 0 then
      { sub with currentKeepAliveCount := sub.currentKeepAliveCount + 1 }
    else sub
  if notifications = 0 ∧ sub.currentKeepAliveCount < sub.maxKeepAliveCount then
    ⟨sub, false, responseQueue, []⟩
  else
    match channel, responseQueue with
    | none, responseQueue => ⟨sub, false, responseQueue, []⟩
    | some _, [] => withoutResponse sub
    | some channel, pre :: responseQueue =>
        if notifications > 0 ∧ ¬ ((turns 0).retransmission ∧ (turns 0).message) then
          ⟨sub, false, pre :: responseQueue, []⟩
        else
          let (sub, response) := setUpResponse sub maxRetransmissionQueueSize channel pre (turns 0)
            notifications moreNotifications
          if moreNotifications then
            let rest := publishCallback maxRetransmissionQueueSize (some channel)
              (fun n => turns (n + 1)) sub responseQueue
            { rest with sent := response :: rest.sent }
          else ⟨sub, false, responseQueue, [response]⟩
termination_by structural responseQueue

end FactoryThing.Subscriptions
