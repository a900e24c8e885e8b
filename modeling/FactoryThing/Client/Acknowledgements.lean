import FactoryThing.Lib.Runs
import FactoryThing.Lib.Trace
import FactoryThing.Subscriptions.Publishing
import Mathlib.Data.List.Count

/-!
# Acknowledgements of a client

The subscription manager of a client (`src/client/ua_client_highlevel_subscriptions.c:224-341`)
acknowledges the sequence number of every publish response it processes. A keep-alive response
carries the number of the message that is still to come, so that this message is acknowledged before
it is received. Without keep-alives, and as long as the server confirms what is acknowledged, every
message with data is acknowledged once.
-/

namespace FactoryThing.Client

open Subscriptions (MonitoredItemNotification Subscription removeRetransmissionMessage)

variable {V : Type}

structure SubscriptionAcknowledgement where
  subscriptionId : UInt32
  sequenceNumber : UInt32
  deriving DecidableEq

/-- `UA_Client_MonitoredItem`, as far as a notification goes by it. -/
structure ClientMonitoredItem where
  monitoredItemId : UInt32
  clientHandle : UInt32
  deriving DecidableEq

/-- `UA_Client_Subscription`, as far as a publish response goes by it. -/
structure ClientSubscription where
  subscriptionID : UInt32
  monitoredItems : List ClientMonitoredItem
  deriving DecidableEq

/-- `UA_Client`, as far as the subscription manager goes by it. -/
structure Manager where
  errored : Bool
  subscriptions : List ClientSubscription
  pendingNotificationsAcks : List SubscriptionAcknowledgement
  deriving DecidableEq

/-- An element of `notificationData`: a decoded DataChangeNotification, or anything else. -/
inductive NotificationData (V : Type) where
  | dataChange (monitoredItems : List (MonitoredItemNotification V))
  | other
  deriving DecidableEq

structure NotificationMessage (V : Type) where
  sequenceNumber : UInt32
  notificationData : List (NotificationData V)
  deriving DecidableEq

/-- The fields of the response that are read. -/
structure PublishResponse (V : Type) where
  serviceResult : StatusCode
  subscriptionId : UInt32
  moreNotifications : Bool
  notificationMessage : NotificationMessage V
  results : List StatusCode
  deriving DecidableEq

/-- What can be seen of a run: a publish request with its acknowledgements, a call of a handler, and
a notification message of a subscription that has been processed. -/
inductive Output (V : Type) where
  | requested (acks : List SubscriptionAcknowledgement)
  | handled (monitoredItemId : UInt32) (value : Subscriptions.DataValue V)
  | processed (subscriptionId : UInt32) (message : NotificationMessage V)
  deriving DecidableEq

/-- What the environment answers in one round: whether the acknowledgements of the request and the
new pending one can be allocated, and the response. -/
structure Turn (V : Type) where
  requestAlloc : Bool
  response : PublishResponse V
  ackAlloc : Bool
  deriving DecidableEq

/-- The server has taken notice of an acknowledgement (`:245-249`). -/
def isConfirmed (result : StatusCode) : Bool :=
  result == StatusCode.good || result == StatusCode.badSequenceNumberUnknown

/-- The loop over the results of the acknowledgements (`:244-262`). -/
def removeConfirmed (pending : List SubscriptionAcknowledgement) :
    List (SubscriptionAcknowledgement × StatusCode) → List SubscriptionAcknowledgement
  | [] => pending
  | (origAck, result) :: rest =>
    removeConfirmed (if isConfirmed result then pending.erase origAck else pending) rest

/-- The calls of the handlers (`:265-289`). -/
def handleNotifications (sub : ClientSubscription) (data : List (NotificationData V)) :
    List (Output V) :=
  data.flatMap fun
    | .dataChange monitoredItems =>
      monitoredItems.filterMap fun mitemNot =>
        (sub.monitoredItems.find? fun mon => mon.clientHandle == mitemNot.clientHandle).map
          fun mon => .handled mon.monitoredItemId mitemNot.value
    | .other => []

/-- `UA_Client_processPublishResponse` (`:224-303`). -/
def processPublishResponse (client : Manager) (acks : List SubscriptionAcknowledgement)
    (response : PublishResponse V) (ackAlloc : Bool) : Manager × List (Output V) :=
  if response.serviceResult ≠ StatusCode.good then (client, [])
  else
    match client.subscriptions.find? fun sub => sub.subscriptionID == response.subscriptionId with
    | none => (client, [])
    | some sub =>
      let pending := removeConfirmed client.pendingNotificationsAcks (acks.zip response.results)
      let msg := response.notificationMessage
      let outputs := handleNotifications sub msg.notificationData ++
        [.processed sub.subscriptionID msg]
      -- the sequence number of a keep-alive is acknowledged as well
      let pending :=
        if ackAlloc then ⟨sub.subscriptionID, msg.sequenceNumber⟩ :: pending else pending
      ({ client with pendingNotificationsAcks := pending }, outputs)

/-- The loop of `UA_Client_Subscriptions_manuallySendPublishRequest` (`:310-339`), as far as the
environment has answered. -/
def sendPublishRequests : List (Turn V) → Manager → Manager × List (Output V)
  | [], client => (client, [])
  | turn :: turns, client =>
    let acks := client.pendingNotificationsAcks
    if acks ≠ [] ∧ turn.requestAlloc = false then (client, [])
    else
      let (client, outputs) := processPublishResponse client acks turn.response turn.ackAlloc
      if turn.response.moreNotifications then
        let (client, more) := sendPublishRequests turns client
        (client, .requested acks :: (outputs ++ more))
      else (client, .requested acks :: outputs)

/-- `UA_Client_Subscriptions_manuallySendPublishRequest` (`:305-341`). -/
def manuallySendPublishRequest (client : Manager) (turns : List (Turn V)) :
    Manager × List (Output V) :=
  if client.errored then (client, []) else sendPublishRequests turns client

/-- What happens to the subscription manager: the state of the connection and the subscriptions are
changed by other functions of the client, or publish requests are sent. -/
inductive ManagerEvent (V : Type) where
  | changed (errored : Bool) (subscriptions : List ClientSubscription)
  | sendPublishRequest (turns : List (Turn V))

/-- One event of the subscriptions of a client. -/
def managerStep (client : Manager) : ManagerEvent V → Except Empty (Manager × List (Output V))
  | .changed errored subscriptions => .ok ({ client with errored, subscriptions }, [])
  | .sendPublishRequest turns => .ok (manuallySendPublishRequest client turns)

def newManager : Manager := ⟨false, [], []⟩

/-- How often a message with data under this number has been processed. -/
def delivered (p : SubscriptionAcknowledgement) (log : List (Output V)) : Nat :=
  log.countP fun
    | .processed subscriptionId message =>
      subscriptionId == p.subscriptionId && message.sequenceNumber == p.sequenceNumber &&
        !message.notificationData.isEmpty
    | _ => false

/-- How often a number has been acknowledged. -/
def acknowledged (p : SubscriptionAcknowledgement) : List (Output V) → Nat
  | [] => 0
  | .requested acks :: log => acks.count p + acknowledged p log
  | _ :: log => acknowledged p log

/-- The messages with data that have been processed since the last publish request. -/
def sinceRequest : List (Output V) → List SubscriptionAcknowledgement →
    List SubscriptionAcknowledgement
  | [], acks => acks
  | .requested _ :: log, _ => sinceRequest log []
  | .processed subscriptionId message :: log, acks =>
    sinceRequest log
      (if message.notificationData =
        [] then acks else ⟨subscriptionId, message.sequenceNumber⟩ :: acks)
  | .handled _ _ :: log, acks => sinceRequest log acks

/-- A request acknowledges what has been received: each acknowledgement is for a message with data
that has been processed and not been acknowledged yet, everything processed since the last request
is acknowledged, and no message that has not been processed is taken from the retransmission queue
of its subscription. -/
structure RightAcks (past : List (Output V)) (acks : List SubscriptionAcknowledgement) : Prop where
  received : ∀ p, acks.count p + acknowledged p past ≤ delivered p past
  all : ∀ p ∈ sinceRequest past [], p ∈ acks
  kept : ∀ p ∈ acks, ∀ sub : Subscription V, sub.subscriptionID = p.subscriptionId →
    ∀ m ∈ sub.retransmissionQueue,
      m ∉ (removeRetransmissionMessage sub p.sequenceNumber).1.retransmissionQueue →
      0 < delivered ⟨sub.subscriptionID, m.sequenceNumber⟩ past

/-- Every request of a run acknowledges what has been received. -/
def AcknowledgesReceived (log : List (Output V)) : Prop :=
  Trace.Always (fun past o => ∀ acks, o = .requested acks → RightAcks past acks) [] log

/-- A response that is processed carries data, its acknowledgement can be allocated, and it confirms
the acknowledgements of its request; a request with acknowledgements gets such a response. -/
def TurnConfirms (client : Manager) (turn : Turn V) : Prop :=
  let response := turn.response
  let processed := response.serviceResult = StatusCode.good ∧
    ∃ sub ∈ client.subscriptions, sub.subscriptionID = response.subscriptionId
  (processed → response.notificationMessage.notificationData ≠ [] ∧ turn.ackAlloc = true ∧
    client.pendingNotificationsAcks.length ≤ response.results.length ∧
    ∀ r ∈ response.results.take client.pendingNotificationsAcks.length, isConfirmed r = true) ∧
  (client.pendingNotificationsAcks ≠ [] → processed)

/-- All turns of the loop whose request is sent confirm. -/
def TurnsConfirm : List (Turn V) → Manager → Prop
  | [], _ => True
  | turn :: turns, client =>
    client.pendingNotificationsAcks ≠ [] ∧ turn.requestAlloc = false ∨
      TurnConfirms client turn ∧
        (turn.response.moreNotifications = true →
          TurnsConfirm turns (processPublishResponse client client.pendingNotificationsAcks
            turn.response turn.ackAlloc).1)

def ManagerGuard (client : Manager) : ManagerEvent V → Prop
  | .changed _ _ => True
  | .sendPublishRequest turns => client.errored = true ∨ TurnsConfirm turns client

section Counting

variable {p : SubscriptionAcknowledgement} {log log' : List (Output V)}

theorem delivered_append : delivered p (log ++ log') = delivered p log + delivered p log' :=
  List.countP_append

theorem acknowledged_append :
    acknowledged p (log ++ log') = acknowledged p log + acknowledged p log' := by
  induction log with
  | nil => rw [List.nil_append, acknowledged, Nat.zero_add]
  | cons o log ih =>
    cases o with
    | requested acks => rw [List.cons_append, acknowledged, acknowledged, ih, Nat.add_assoc]
    | handled | processed => exact ih

theorem sinceRequest_append (acks : List SubscriptionAcknowledgement) :
    sinceRequest (log ++ log') acks = sinceRequest log' (sinceRequest log acks) := by
  induction log generalizing acks with
  | nil => rfl
  | cons o log ih =>
    cases o with
    | requested | handled | processed => exact ih _

def IsHandled (o : Output V) : Prop := ∃ monitoredItemId value, o = .handled monitoredItemId value

theorem isHandled_of_mem {sub : ClientSubscription} {data : List (NotificationData V)} :
    ∀ o ∈ handleNotifications sub data, IsHandled o := by
  intro o ho
  obtain ⟨d, -, ho⟩ := List.mem_flatMap.mp ho
  cases d with
  | other => cases ho
  | dataChange items =>
    obtain ⟨item, -, hitem⟩ := List.mem_filterMap.mp ho
    obtain ⟨mon, -, rfl⟩ := Option.map_eq_some_iff.mp hitem
    exact ⟨_, _, rfl⟩

theorem handled_counts (h : ∀ o ∈ log, IsHandled o) (acks : List SubscriptionAcknowledgement) :
    delivered p log = 0 ∧ acknowledged p log = 0 ∧ sinceRequest log acks = acks := by
  induction log with
  | nil => exact ⟨rfl, rfl, rfl⟩
  | cons o log ih =>
    obtain ⟨⟨i, v, rfl⟩, hrest⟩ := List.forall_mem_cons.mp h
    obtain ⟨hdelivered, hacknowledged, hsince⟩ := ih hrest
    refine ⟨?_, hacknowledged, hsince⟩
    exact (List.countP_cons_of_neg (by simp)).trans hdelivered

theorem removeConfirmed_self {pending : List SubscriptionAcknowledgement}
    {results : List StatusCode}
    (hlen : pending.length ≤ results.length)
    (hconfirmed : ∀ r ∈ results.take pending.length, isConfirmed r = true) :
    removeConfirmed pending (pending.zip results) = [] := by
  induction pending generalizing results with
  | nil => rfl
  | cons ack pending ih =>
    cases results with
    | nil => exact absurd hlen (Nat.not_succ_le_zero _)
    | cons r results =>
      obtain ⟨hr, hrest⟩ := List.forall_mem_cons.mp hconfirmed
      rw [List.zip_cons_cons, removeConfirmed, if_pos hr, List.erase_cons_head]
      exact ih (Nat.le_of_succ_le_succ hlen) hrest

end Counting

/-- What holds of a client after what can be seen of its run: what it has processed is acknowledged
or pending. -/
structure Balanced (client : Manager) (log : List (Output V)) : Prop where
  balance : ∀ p, delivered p log = acknowledged p log + client.pendingNotificationsAcks.count p
  pending : ∀ p ∈ sinceRequest log [], p ∈ client.pendingNotificationsAcks
  right : AcknowledgesReceived log

section Steps

variable {client : Manager} {log : List (Output V)}

theorem Balanced.rightAcks (h : Balanced client log) :
    RightAcks log client.pendingNotificationsAcks := by
  refine ⟨fun p => ?_, h.pending, ?_⟩
  · have hbalance := h.balance p
    omega
  · rintro p hp sub hsub m hm hgone
    have hnumber : m.sequenceNumber = p.sequenceNumber := by
      by_contra hne
      apply hgone
      unfold removeRetransmissionMessage
      split
      · exact (List.mem_eraseP_of_neg (by simpa using hne)).mpr hm
      · exact hm
    rw [hsub, hnumber, h.balance]
    exact Nat.lt_of_lt_of_le (List.count_pos_iff.mpr hp) (Nat.le_add_left _ _)

theorem Balanced.processed (h : Balanced client log) {subscriptionId : UInt32}
    {message : NotificationMessage V} (hdata : message.notificationData ≠ [])
    {handled : List (Output V)} (hhandled : ∀ o ∈ handled, IsHandled o)
    (hright : AcknowledgesReceived (log ++ .requested client.pendingNotificationsAcks ::
      (handled ++ [.processed subscriptionId message]))) :
    Balanced { client with
        pendingNotificationsAcks := [⟨subscriptionId, message.sequenceNumber⟩] }
      (log ++ .requested client.pendingNotificationsAcks ::
        (handled ++ [.processed subscriptionId message])) := by
  refine ⟨fun p => ?_, fun p hp => ?_, hright⟩
  · obtain ⟨hdelivered, hacknowledged, -⟩ := @handled_counts V p handled hhandled []
    have hcount : delivered p [.processed subscriptionId message] =
        [(⟨subscriptionId, message.sequenceNumber⟩ : SubscriptionAcknowledgement)].count p := by
      obtain ⟨id, number⟩ := p
      have hsome : message.notificationData.isEmpty = false := by simpa using hdata
      rw [delivered, List.countP_singleton, List.count_singleton]
      simp only [hsome, Bool.not_false, Bool.and_true, Bool.and_eq_true, beq_iff_eq,
        SubscriptionAcknowledgement.mk.injEq]
    have hrequest : delivered p (.requested client.pendingNotificationsAcks ::
        (handled ++ [.processed subscriptionId message])) =
        delivered p (handled ++ [.processed subscriptionId message]) :=
      List.countP_cons_of_neg (by simp)
    rw [delivered_append, hrequest, delivered_append, hdelivered, acknowledged_append, acknowledged,
      acknowledged_append, hacknowledged, h.balance p, hcount]
    simp only [acknowledged]
    omega
  · rw [sinceRequest_append, sinceRequest, sinceRequest_append,
      (@handled_counts V p handled hhandled []).2.2, sinceRequest, if_neg hdata] at hp
    exact hp

theorem Balanced.turn (h : Balanced client log) {turn : Turn V} (hturn : TurnConfirms client turn) :
    let result := processPublishResponse client client.pendingNotificationsAcks turn.response
      turn.ackAlloc
    Balanced result.1 (log ++ .requested client.pendingNotificationsAcks :: result.2) := by
  have hright : ∀ (outputs : List (Output V)), (∀ o ∈ outputs, ∀ acks, o ≠ .requested acks) →
      AcknowledgesReceived (log ++ .requested client.pendingNotificationsAcks :: outputs) := by
    intro outputs hnone
    unfold AcknowledgesReceived
    rw [Trace.always_append, List.nil_append, Trace.always_cons]
    refine ⟨h.right, ?_, ?_⟩
    · rintro acks ⟨⟩
      exact h.rightAcks
    · exact Trace.always_of_forall (fun o ho past acks heq => absurd heq (hnone o ho acks)) _
  obtain ⟨hdata, hanswered⟩ := hturn
  -- without a response that is processed there was nothing to acknowledge
  have hidle : ¬ (turn.response.serviceResult = StatusCode.good ∧
      ∃ sub ∈ client.subscriptions, sub.subscriptionID = turn.response.subscriptionId) →
      Balanced client (log ++ [.requested client.pendingNotificationsAcks]) := by
    intro hnot
    have hnothing : client.pendingNotificationsAcks = [] := by
      by_contra hne
      exact hnot (hanswered hne)
    refine ⟨fun p => ?_, fun p hp => ?_, hright [] nofun⟩
    · rw [delivered_append, acknowledged_append, h.balance p, hnothing]
      rfl
    · rw [sinceRequest_append] at hp
      cases hp
  unfold processPublishResponse
  by_cases hgood : turn.response.serviceResult = StatusCode.good
  · rw [if_neg (not_not.mpr hgood)]
    cases hfind : client.subscriptions.find? fun sub =>
        sub.subscriptionID == turn.response.subscriptionId with
    | none =>
      refine hidle ?_
      rintro ⟨-, sub, hsub, hid⟩
      exact List.find?_eq_none.mp hfind sub hsub (beq_iff_eq.mpr hid)
    | some sub =>
      have hid := List.find?_some hfind
      rw [beq_iff_eq] at hid
      obtain ⟨hdata, halloc, hlen, hconfirmed⟩ :=
        hdata ⟨hgood, sub, List.mem_of_find?_eq_some hfind, hid⟩
      dsimp only
      rw [removeConfirmed_self hlen hconfirmed, if_pos halloc]
      refine h.processed hdata isHandled_of_mem (hright _ ?_)
      intro o ho acks heq
      obtain ho | ho := List.mem_append.mp ho
      · obtain ⟨_, _, rfl⟩ := isHandled_of_mem o ho
        cases heq
      · rw [List.mem_singleton.mp ho] at heq
        cases heq
  · rw [if_pos hgood]
    exact hidle fun hprocessed => hgood hprocessed.1

theorem Balanced.sendPublishRequests {turns : List (Turn V)} (h : Balanced client log)
    (hturns : TurnsConfirm turns client) :
    Balanced (sendPublishRequests turns client).1
      (log ++ (sendPublishRequests turns client).2) := by
  induction turns generalizing client log with
  | nil =>
    rw [Client.sendPublishRequests, List.append_nil]
    exact h
  | cons turn turns ih =>
    rw [Client.sendPublishRequests]
    dsimp only
    obtain hfail | ⟨hturn, hmore⟩ := hturns
    · rw [if_pos hfail, List.append_nil]
      exact h
    · split
      · rw [List.append_nil]
        exact h
      · have hnext := h.turn hturn
        dsimp only at hnext
        split
        · rename_i hagain
          have hrest := ih hnext (hmore hagain)
          rwa [List.append_assoc, List.cons_append] at hrest
        · exact hnext

theorem Balanced.step {client' : Manager} {event : ManagerEvent V} {outputs : List (Output V)}
    (h : Balanced client log) (hguard : ManagerGuard client event)
    (hstep : managerStep client event = .ok (client', outputs)) :
    Balanced client' (log ++ outputs) := by
  cases event with
  | changed errored subscriptions =>
    cases hstep
    rw [List.append_nil]
    exact ⟨h.balance, h.pending, h.right⟩
  | sendPublishRequest turns =>
    obtain heq := Except.ok.inj hstep
    unfold manuallySendPublishRequest at heq
    split at heq
    · cases heq
      rw [List.append_nil]
      exact h
    · rename_i hconnected
      obtain herrored | hturns := hguard
      · exact absurd herrored hconnected
      · have hsent := h.sendPublishRequests hturns
        rwa [heq] at hsent

end Steps

theorem balanced_newManager : Balanced newManager ([] : List (Output V)) :=
  ⟨fun _ => rfl, nofun, Trace.always_nil _⟩

/-- A client that processes no keep-alives, and whose acknowledgements are confirmed, acknowledges
what it has received and nothing else, and everything of it once. -/
theorem acknowledges_received {client : Manager} {events : List (ManagerEvent V)}
    {outputs : List (List (Output V))}
    (hguard : Runs.Guarded managerStep ManagerGuard newManager events)
    (hrun : Runs.run managerStep newManager events = .ok (client, outputs)) :
    AcknowledgesReceived outputs.flatten := by
  have hbalanced := Runs.history_of_guarded
    (fun client (past : List (List (Output V))) => Balanced client past.flatten)
    (fun client past event client' outputs h hguard hstep => by
      rw [List.flatten_append, List.flatten_singleton]
      exact h.step hguard hstep)
    events newManager client [] outputs balanced_newManager hguard hrun
  exact hbalanced.right

/-- A response on subscription 1 with a value for the item with the client handle 7, or a
keep-alive. -/
def sampleResponse (sequenceNumber : UInt32) (data : List (NotificationData Nat))
    (results : List StatusCode) : PublishResponse Nat where
  serviceResult := StatusCode.good
  subscriptionId := 1
  moreNotifications := false
  notificationMessage := ⟨sequenceNumber, data⟩
  results := results

def sampleSubscription : ManagerEvent Nat := .changed false [⟨1, [⟨3, 7⟩]⟩]

/-- One call of `UA_Client_Subscriptions_manuallySendPublishRequest` with one response. -/
def samplePublish (response : PublishResponse Nat) : ManagerEvent Nat :=
  .sendPublishRequest [⟨true, response, true⟩]

/-- Two messages with data, the second of which confirms the first. -/
def notificationRun : List (ManagerEvent Nat) :=
  [sampleSubscription, samplePublish (sampleResponse 1 [.dataChange []] []),
    samplePublish (sampleResponse 2 [.dataChange []] [StatusCode.good])]

theorem acknowledges_received_notifications :
    ∃ client outputs, Runs.run managerStep newManager notificationRun = .ok (client, outputs) ∧
      AcknowledgesReceived outputs.flatten := by
  have hrun : Runs.run managerStep newManager notificationRun =
      .ok (⟨false, [⟨1, [⟨3, 7⟩]⟩], [⟨1, 2⟩]⟩, [[],
        [.requested [], .processed 1 ⟨1, [.dataChange []]⟩],
        [.requested [⟨1, 1⟩], .processed 1 ⟨2, [.dataChange []]⟩]]) := by
    decide +kernel
  refine ⟨_, _, hrun, acknowledges_received ?_ hrun⟩
  have hknown : ∃ sub ∈ [(⟨1, [⟨3, 7⟩]⟩ : ClientSubscription)], sub.subscriptionID = 1 :=
    ⟨_, List.mem_singleton_self _, rfl⟩
  refine Runs.guarded_cons ⟨false, [⟨1, [⟨3, 7⟩]⟩], []⟩ [] trivial rfl ?_
  refine Runs.guarded_cons ⟨false, [⟨1, [⟨3, 7⟩]⟩], [⟨1, 1⟩]⟩
    [.requested [], .processed 1 ⟨1, [.dataChange []]⟩] (.inr (.inr ⟨⟨?_, ?_⟩, nofun⟩))
    (by decide +kernel) ?_
  · intro _
    exact ⟨List.cons_ne_nil _ _, rfl, Nat.le_refl 0, nofun⟩
  · exact fun hpending => absurd rfl hpending
  refine Runs.guarded_cons ⟨false, [⟨1, [⟨3, 7⟩]⟩], [⟨1, 2⟩]⟩
    [.requested [⟨1, 1⟩], .processed 1 ⟨2, [.dataChange []]⟩] (.inr (.inr ⟨⟨?_, ?_⟩, nofun⟩))
    (by decide +kernel) trivial
  · intro _
    refine ⟨List.cons_ne_nil _ _, rfl, Nat.le_refl 1, ?_⟩
    intro r hr
    rw [List.mem_singleton.mp (show r ∈ [StatusCode.good] from hr)]
    rfl
  · exact fun _ => ⟨rfl, hknown⟩

/-- A keep-alive announces the message 1, which the next request acknowledges. -/
theorem keepAlive_acknowledged :
    ∃ client outputs, Runs.run managerStep newManager
        [sampleSubscription, samplePublish (sampleResponse 1 [] []),
          samplePublish (sampleResponse 1 [] [StatusCode.badSequenceNumberUnknown])] =
        .ok (client, outputs) ∧
      outputs.flatten = [.requested [], .processed 1 ⟨1, []⟩, .requested [⟨1, 1⟩],
        .processed 1 ⟨1, []⟩] ∧
      ¬ AcknowledgesReceived outputs.flatten := by
  refine ⟨⟨false, [⟨1, [⟨3, 7⟩]⟩], [⟨1, 1⟩]⟩, [[], [.requested [], .processed 1 ⟨1, []⟩],
    [.requested [⟨1, 1⟩], .processed 1 ⟨1, []⟩]], by decide +kernel, rfl, ?_⟩
  intro h
  have hright := h [.requested [], .processed 1 ⟨1, []⟩] _ _ rfl [⟨1, 1⟩] rfl
  have hreceived := hright.received ⟨1, 1⟩
  revert hreceived
  decide

end FactoryThing.Client
