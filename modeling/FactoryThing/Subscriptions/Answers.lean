import FactoryThing.Subscriptions.Sampling

/-!
# How publish requests are answered

Publish requests wait in the response queue of the session until a publish callback takes them, or
until the delayed callback after the last deletion answers them all. Followed through every function
of the model: what is taken from the queue is its front, and what is put into it goes to the end.
A run keeps its promises as long as `Service_Publish` and the delayed callback get their memory and
the channel is still there when the callback runs.
-/

namespace FactoryThing.Subscriptions

variable {V : Type}

/-- The request id and the request handle of a request. -/
abbrev Key := UInt32 × UInt32

def PublishResponseEntry.key (pre : PublishResponseEntry) : Key :=
  (pre.requestId, pre.requestHandle)

def PublishResponse.key (response : PublishResponse V) : Key :=
  (response.requestId, response.requestHandle)

def waiting (sv : Server V) : List Key := sv.responseQueue.map PublishResponseEntry.key

/-- A request arrives at `Service_Publish`. -/
def Output.requestedKey : Output V → Option Key
  | .requested requestId requestHandle => some (requestId, requestHandle)
  | _ => none

def Output.queuedKey : Output V → Option Key
  | .queued entry => some entry.key
  | _ => none

/-- A request is answered without having been in the queue. -/
def Output.refusedKey : Output V → Option Key
  | .refused response => some response.key
  | _ => none

/-- A request from the queue is answered. -/
def Output.consumedKey : Output V → Option Key
  | .published _ response => some response.key
  | .drained response => some response.key
  | _ => none

def Output.answeredKey : Output V → Option Key
  | .published _ response => some response.key
  | .refused response => some response.key
  | .drained response => some response.key
  | _ => none

def Output.Silent : Output V → Prop
  | .requested .. | .queued _ | .refused _ | .published .. | .drained _ => False
  | _ => True

/-- What happens to the requests: those consumed are the first ones, those queued the last ones, and
each that arrives is refused or queued. -/
structure Flow (sv : Server V) (outputs : List (Output V)) (sv' : Server V) : Prop where
  order : outputs.filterMap Output.consumedKey ++ waiting sv' =
    waiting sv ++ outputs.filterMap Output.queuedKey
  arrival : (outputs.filterMap Output.queuedKey).Sublist (outputs.filterMap Output.requestedKey)
  all : (outputs.filterMap Output.refusedKey ++ outputs.filterMap Output.queuedKey).Perm
    (outputs.filterMap Output.requestedKey)

section Flow

variable {sv sv₁ sv₂ : Server V} {outputs outputs₁ : List (Output V)}

theorem Flow.trans (h : Flow sv outputs sv₁) (h₁ : Flow sv₁ outputs₁ sv₂) :
    Flow sv (outputs ++ outputs₁) sv₂ := by
  constructor
  · rw [List.filterMap_append, List.filterMap_append, List.append_assoc, h₁.order,
      ← List.append_assoc, h.order, List.append_assoc]
  · rw [List.filterMap_append, List.filterMap_append]
    exact h.arrival.append h₁.arrival
  · simp only [List.filterMap_append]
    have hboth := h.all.append h₁.all
    refine List.Perm.trans ?_ hboth
    simp only [List.append_assoc]
    refine List.Perm.append_left _ ?_
    rw [← List.append_assoc, ← List.append_assoc]
    exact List.perm_append_comm.append_right _

theorem filterMap_of_silent (h : ∀ o ∈ outputs, o.Silent) :
    outputs.filterMap Output.consumedKey = [] ∧ outputs.filterMap Output.queuedKey = [] ∧
      outputs.filterMap Output.refusedKey = [] ∧ outputs.filterMap Output.requestedKey = [] := by
  simp only [List.filterMap_eq_nil_iff]
  refine ⟨fun o ho => ?_, fun o ho => ?_, fun o ho => ?_, fun o ho => ?_⟩ <;>
    have hsilent := h o ho <;> cases o <;> first | rfl | exact hsilent.elim

theorem Flow.silent (hqueue : sv₁.responseQueue = sv.responseQueue)
    (h : ∀ o ∈ outputs, o.Silent) : Flow sv outputs sv₁ := by
  obtain ⟨h₁, h₂, h₃, h₄⟩ := filterMap_of_silent h
  refine ⟨?_, ?_, ?_⟩
  · rw [h₁, h₂, waiting, waiting, hqueue, List.append_nil]
    rfl
  · rw [h₂]
    exact List.nil_sublist _
  · rw [h₂, h₃, h₄]
    exact .nil

theorem answered_perm (log : List (Output V)) :
    (log.filterMap Output.answeredKey).Perm
      (log.filterMap Output.refusedKey ++ log.filterMap Output.consumedKey) := by
  induction log with
  | nil => exact .nil
  | cons o log ih =>
    cases o with
    | published | drained => exact (ih.cons _).trans List.perm_middle.symm
    | refused => exact ih.cons _
    | _ => exact ih

theorem Flow.perm {sv' : Server V} (h : Flow sv outputs sv') (hnone : sv.responseQueue = []) :
    (outputs.filterMap Output.answeredKey ++ waiting sv').Perm
      (outputs.filterMap Output.requestedKey) := by
  have horder := h.order
  have hwait : waiting sv = [] := by
    rw [waiting, hnone]
    rfl
  rw [hwait, List.nil_append] at horder
  refine ((answered_perm outputs).append_right _).trans ?_
  rw [List.append_assoc, horder]
  exact h.all

end Flow

/-! ## The functions of the model -/

section Functions

variable [Inhabited V] {config : Config} {sv sv' : Server V} {outputs : List (Output V)}

theorem publishCallback_flow (max : UInt32) (channel : Option Nat)
    (responseQueue : List PublishResponseEntry) :
    ∀ (turns : Nat → Turn) (sub : Subscription V),
      let published := publishCallback max channel turns sub responseQueue
      published.sent.map PublishResponse.key ++
          published.responseQueue.map PublishResponseEntry.key =
        responseQueue.map PublishResponseEntry.key ∧
      (published.endOfLifetime = true → published.responseQueue = []) := by
  induction responseQueue with
  | nil =>
    intro turns sub
    obtain ⟨sub', ended, heq, -, -⟩ | ⟨c, pre, rest, -, hqueue, -⟩ :=
      publishCallback_cases max channel turns sub []
    · rw [heq]
      exact ⟨rfl, fun _ => rfl⟩
    · exact nomatch hqueue
  | cons pre responseQueue ih =>
    intro turns sub
    obtain ⟨sub', ended, heq, -, hended⟩ | ⟨c, pre', rest, rfl, hqueue, heq⟩ :=
      publishCallback_cases max channel turns sub (pre :: responseQueue)
    · rw [heq]
      exact ⟨rfl, hended⟩
    · cases hqueue
      split at heq
      · rw [heq]
        obtain ⟨hsplit, hended⟩ := ih (fun n => turns (n + 1)) (setUpResponse sub max c pre
          (turns 0) (countQueuedNotifications sub).1 (countQueuedNotifications sub).2).1
        exact ⟨congrArg (pre.key :: ·) hsplit, hended⟩
      · rw [heq]
        exact ⟨rfl, nofun⟩

/-- What the services leave of the session: everything but the subscriptions and the requests. -/
structure Keeps (sv sv' : Server V) : Prop where
  channel : sv'.channel = sv.channel
  delayedCallbacks : sv'.delayedCallbacks = sv.delayedCallbacks
  channels : sv'.channels = sv.channels

omit [Inhabited V] in
theorem Keeps.trans {sv sv₁ sv₂ : Server V} (h : Keeps sv sv₁) (h₁ : Keeps sv₁ sv₂) :
    Keeps sv sv₂ :=
  ⟨h₁.channel.trans h.channel, h₁.delayedCallbacks.trans h.delayedCallbacks,
    h₁.channels.trans h.channels⟩

omit [Inhabited V] in
theorem keyed_modify_eq_nil {a : Nat} {f : Subscription V → Subscription V}
    {subs : List (Subscription V)} : Keyed.modify Subscription.addr f a subs = [] ↔ subs = [] := by
  cases subs with
  | nil => exact Iff.rfl
  | cons sub subs =>
    unfold Keyed.modify
    split <;> simp

omit [Inhabited V] in
theorem deleteSubscription_flow (sv : Server V) (subscriptionID : UInt32) :
    Flow sv (deleteSubscription sv subscriptionID).2 (deleteSubscription sv subscriptionID).1 ∧
      Keeps sv (deleteSubscription sv subscriptionID).1 ∧
      (deleteSubscription sv subscriptionID).1.responseQueue = sv.responseQueue := by
  unfold deleteSubscription
  split
  · exact ⟨.silent rfl (List.forall_mem_nil _), ⟨rfl, rfl, rfl⟩, rfl⟩
  · exact ⟨.silent rfl (by simp [Output.Silent]), ⟨rfl, rfl, rfl⟩, rfl⟩

omit [Inhabited V] in
theorem filterMap_published (a : Nat) (sent : List (PublishResponse V)) :
    (sent.map (Output.published a)).filterMap Output.consumedKey = sent.map PublishResponse.key ∧
      (sent.map (Output.published a)).filterMap Output.queuedKey = [] ∧
      (sent.map (Output.published a)).filterMap Output.refusedKey = [] ∧
      (sent.map (Output.published a)).filterMap Output.requestedKey = [] := by
  induction sent with
  | nil => exact ⟨rfl, rfl, rfl, rfl⟩
  | cons response sent ih => exact ⟨congrArg (response.key :: ·) ih.1, ih.2⟩

theorem publish_flow (sv : Server V) (a : Nat) (turns : Nat → Turn) :
    Flow sv (publish config sv a turns).2 (publish config sv a turns).1 ∧
      Keeps sv (publish config sv a turns).1 ∧
      ((publish config sv a turns).1.serverSubscriptions = [] →
        sv.serverSubscriptions = [] ∧
          (publish config sv a turns).1.responseQueue = sv.responseQueue ∨
          (publish config sv a turns).1.responseQueue = []) := by
  unfold publish
  split
  · exact ⟨.silent rfl (List.forall_mem_nil _), ⟨rfl, rfl, rfl⟩, fun h => Or.inl ⟨h, rfl⟩⟩
  · rename_i sub hsub
    obtain ⟨hsplit, hended⟩ := publishCallback_flow config.maxRetransmissionQueueSize sv.channel
      sv.responseQueue turns sub
    dsimp only
    generalize publishCallback config.maxRetransmissionQueueSize sv.channel turns sub
      sv.responseQueue = published at hsplit hended ⊢
    obtain ⟨h₁, h₂, h₃, h₄⟩ := filterMap_published a published.sent
    have hflow : Flow sv (published.sent.map (Output.published a))
        ({ sv with responseQueue := published.responseQueue }.modifySubscription a
          fun _ => published.sub) := by
      refine ⟨?_, ?_, ?_⟩
      · rw [h₁, h₂, List.append_nil]
        exact hsplit
      · rw [h₂]
        exact List.nil_sublist _
      · rw [h₂, h₃, h₄]
        exact .nil
    split
    · rename_i hend
      obtain ⟨hdelete, hkeeps, hqueue⟩ := deleteSubscription_flow
        ({ sv with responseQueue := published.responseQueue }.modifySubscription a
          fun _ => published.sub) published.sub.subscriptionID
      exact ⟨hflow.trans hdelete, ⟨hkeeps.channel, hkeeps.delayedCallbacks, hkeeps.channels⟩,
        fun _ => Or.inr (hqueue.trans (hended hend))⟩
    · refine ⟨hflow, ⟨rfl, rfl, rfl⟩, fun hnil => ?_⟩
      have hnone : sv.serverSubscriptions = [] := keyed_modify_eq_nil.mp hnil
      rw [hnone] at hsub
      exact nomatch hsub

omit [Inhabited V] in
theorem acknowledge_flow (acks : List (UInt32 × UInt32)) (sv : Server V) :
    (∀ o ∈ (acknowledge sv acks).2.2, o.Silent) ∧ Keeps sv (acknowledge sv acks).1 ∧
      (acknowledge sv acks).1.responseQueue = sv.responseQueue ∧
      ((acknowledge sv acks).1.serverSubscriptions = [] ↔ sv.serverSubscriptions = []) := by
  induction acks generalizing sv with
  | nil => exact ⟨nofun, ⟨rfl, rfl, rfl⟩, rfl, Iff.rfl⟩
  | cons ack acks ih =>
    unfold acknowledge
    split
    · exact ih sv
    · rename_i sub _
      obtain ⟨hsilent, hkeeps, hqueue, hnil⟩ := ih (sv.modifySubscription sub.addr fun sub =>
        (removeRetransmissionMessage sub ack.2).1)
      refine ⟨?_, ⟨hkeeps.channel, hkeeps.delayedCallbacks, hkeeps.channels⟩, hqueue,
        hnil.trans keyed_modify_eq_nil⟩
      intro o ho
      obtain rfl | ho := List.mem_cons.mp ho
      · exact trivial
      · exact hsilent o ho

/-- The condition under which `Service_Publish` names the request in its answer. -/
def PublishAllocs.Sound (alloc : PublishAllocs) (request : PublishRequest) : Prop :=
  (alloc.entry = true ∧ (request.subscriptionAcknowledgements ≠ [] → alloc.results = true)) ∨
    request.requestId = request.requestHandle

omit [Inhabited V] in
theorem flow_refused (request : PublishRequest) (response : PublishResponse V)
    (h : response.key = (request.requestId, request.requestHandle)) :
    Flow sv [.requested request.requestId request.requestHandle, .refused response] sv := by
  refine ⟨?_, ?_, ?_⟩
  · exact (List.append_nil _).symm
  · exact List.nil_sublist _
  · change [response.key].Perm [(request.requestId, request.requestHandle)]
    rw [h]

omit [Inhabited V] in
theorem flow_queued (request : PublishRequest) (entry : PublishResponseEntry)
    (hkey : entry.key = (request.requestId, request.requestHandle))
    (hqueue : sv'.responseQueue = sv.responseQueue ++ [entry]) (hsilent : ∀ o ∈ outputs, o.Silent) :
    Flow sv (.requested request.requestId request.requestHandle :: outputs ++ [.queued entry])
      sv' := by
  obtain ⟨h₁, h₂, h₃, h₄⟩ := filterMap_of_silent hsilent
  refine ⟨?_, ?_, ?_⟩
  · rw [waiting, hqueue, List.map_append]
    simp only [List.cons_append, List.filterMap_cons, List.filterMap_append, List.filterMap_nil,
      Output.consumedKey, Output.queuedKey, h₁, h₂, List.nil_append]
    rfl
  · simp only [List.cons_append, List.filterMap_cons, List.filterMap_append, List.filterMap_nil,
      Output.queuedKey, Output.requestedKey, h₂, h₄, List.nil_append, hkey]
    exact .refl _
  · simp only [List.cons_append, List.filterMap_cons, List.filterMap_append, List.filterMap_nil,
      Output.refusedKey, Output.queuedKey, Output.requestedKey, h₂, h₃, h₄, List.nil_append, hkey]
    exact .refl _

theorem servicePublish_flow (sv : Server V) (channel : Nat) (request : PublishRequest)
    {alloc : PublishAllocs} (turns : Nat → Turn)
    (hsound : sv.serverSubscriptions ≠ [] → alloc.Sound request) :
    let result := servicePublish config sv channel request alloc turns
    Flow sv (.requested request.requestId request.requestHandle :: result.2) result.1 ∧
      Keeps sv result.1 ∧
      (result.1.serverSubscriptions = [] →
        sv.serverSubscriptions = [] ∧ result.1.responseQueue = sv.responseQueue ∨
          result.1.responseQueue = []) := by
  unfold servicePublish
  split
  · exact ⟨flow_refused request _ rfl, ⟨rfl, rfl, rfl⟩, fun h => Or.inl ⟨h, rfl⟩⟩
  rename_i hnil
  have hsound := hsound hnil
  split
  · rename_i hentry
    have hsame : request.requestId = request.requestHandle := by
      obtain h | h := hsound
      · exact absurd h.1 hentry
      · exact h
    exact ⟨flow_refused request _ (Prod.ext hsame.symm hsame), ⟨rfl, rfl, rfl⟩,
      fun h => Or.inl ⟨h, rfl⟩⟩
  split
  · rename_i hresults
    have hsame : request.requestId = request.requestHandle := by
      obtain h | h := hsound
      · exact absurd (h.2 hresults.1) hresults.2
      · exact h
    exact ⟨flow_refused request _ (Prod.ext hsame.symm hsame), ⟨rfl, rfl, rfl⟩,
      fun h => Or.inl ⟨h, rfl⟩⟩
  · obtain ⟨hsilent, hkeeps, hqueue, hsubs⟩ := acknowledge_flow
      request.subscriptionAcknowledgements sv
    dsimp only
    generalize acknowledge sv request.subscriptionAcknowledgements = acked
      at hsilent hkeeps hqueue hsubs ⊢
    obtain ⟨sv₁, results, acknowledged⟩ := acked
    have hqueued : Flow sv (.requested request.requestId request.requestHandle :: acknowledged ++
        [.queued ⟨request.requestId, request.requestHandle, results⟩])
        { sv₁ with responseQueue := sv₁.responseQueue ++
            [⟨request.requestId, request.requestHandle, results⟩] } :=
      flow_queued request _ rfl (by rw [hqueue]) hsilent
    split
    · exact ⟨hqueued, ⟨hkeeps.channel, hkeeps.delayedCallbacks, hkeeps.channels⟩,
        fun h => absurd (hsubs.mp h) hnil⟩
    · rename_i immediate _
      obtain ⟨hpublish, hkeeps₁, hlast⟩ := @publish_flow _ _ config
        { sv₁ with responseQueue := sv₁.responseQueue ++
            [⟨request.requestId, request.requestHandle, results⟩] } immediate.addr turns
      refine ⟨?_, ⟨hkeeps₁.channel.trans hkeeps.channel,
        hkeeps₁.delayedCallbacks.trans hkeeps.delayedCallbacks,
        hkeeps₁.channels.trans hkeeps.channels⟩, fun h => ?_⟩
      · have hflow := hqueued.trans hpublish
        rwa [List.cons_append, List.cons_append, List.append_assoc] at hflow
      · obtain ⟨h', -⟩ | h' := hlast h
        · exact absurd (hsubs.mp h') hnil
        · exact Or.inr h'

omit [Inhabited V] in
theorem deleteSubscriptions_flow (ids : List UInt32) (sv : Server V) :
    Flow sv (deleteSubscriptions sv ids).2 (deleteSubscriptions sv ids).1 ∧
      Keeps sv (deleteSubscriptions sv ids).1 ∧
      (deleteSubscriptions sv ids).1.responseQueue = sv.responseQueue := by
  induction ids generalizing sv with
  | nil => exact ⟨.silent rfl (List.forall_mem_nil _), ⟨rfl, rfl, rfl⟩, rfl⟩
  | cons subscriptionID ids ih =>
    obtain ⟨hflow, hkeeps, hqueue⟩ := deleteSubscription_flow sv subscriptionID
    obtain ⟨hflow₁, hkeeps₁, hqueue₁⟩ := ih (deleteSubscription sv subscriptionID).1
    exact ⟨hflow.trans hflow₁, hkeeps.trans hkeeps₁, hqueue₁.trans hqueue⟩

omit [Inhabited V] in
theorem mem_deleteSubscription {sv : Server V} {sub : Subscription V} {subscriptionID : UInt32}
    (hsub : sub ∈ sv.serverSubscriptions) (hid : sub.subscriptionID ≠ subscriptionID) :
    sub ∈ (deleteSubscription sv subscriptionID).1.serverSubscriptions := by
  unfold deleteSubscription
  split
  · exact hsub
  · refine (List.mem_eraseP_of_neg ?_).mpr hsub
    simpa using hid

omit [Inhabited V] in
theorem mem_deleteSubscriptions (ids : List UInt32) {sv : Server V} {sub : Subscription V}
    (hsub : sub ∈ sv.serverSubscriptions) (hid : sub.subscriptionID ∉ ids) :
    sub ∈ (deleteSubscriptions sv ids).1.serverSubscriptions := by
  induction ids generalizing sv with
  | nil => exact hsub
  | cons subscriptionID ids ih =>
    rw [List.mem_cons, not_or] at hid
    exact ih (mem_deleteSubscription hsub hid.1) hid.2

/-- Requests wait only while there is a subscription, or a callback that will answer them. -/
def Covered (sv : Server V) : Prop :=
  sv.serverSubscriptions = [] →
    sv.responseQueue = [] ∨ .answerPublishRequestsNoSubscription ∈ sv.delayedCallbacks

/-- The channel of the session has not been freed. -/
def Attached (sv : Server V) : Prop :=
  ∀ c, sv.channel = some c →
    c ∈ sv.channels ∨ .removeSecureChannelCallback c ∈ sv.delayedCallbacks

/-- The delayed callback that answers the waiting requests finds the session alive and attached: its
channel is not removed before the callback runs. -/
def Answerable (sv : Server V) (ds : List Delayed) : Prop :=
  .answerPublishRequestsNoSubscription ∈ ds → sv.serverSubscriptions = [] → sv.responseQueue ≠ [] →
    sv.clock ≤ sv.validTill ∧ ∃ c, sv.channel = some c ∧
      .removeSecureChannelCallback c ∉
        ds.takeWhile fun d => d ≠ .answerPublishRequestsNoSubscription

/-- The condition on an event in the state it arrives in. Memory is there to put a publish request
into the queue and to schedule the answers after the last deletion. -/
def Sound (sv : Server V) : Event V → Prop
  | .publish request alloc _ =>
      sv.channel ≠ none → sv.serverSubscriptions ≠ [] → alloc.Sound request
  | .deleteSubscriptions ids alloc =>
      (alloc.token = true ∧ alloc.delayedJob = true) ∨ sv.responseQueue = [] ∨
        (∃ sub ∈ sv.serverSubscriptions, sub.subscriptionID ∉ ids) ∨
        .answerPublishRequestsNoSubscription ∈ sv.delayedCallbacks ∨ alloc.results = false
  | .delayedCallbacks => Answerable sv sv.delayedCallbacks
  | _ => True

instance (sv : Server V) (ds : List Delayed) : Decidable (Answerable sv ds) :=
  inferInstanceAs (Decidable (_ → _ → _ → _ ∧ ∃ c, sv.channel = some c ∧ _))

instance (alloc : PublishAllocs) (request : PublishRequest) : Decidable (alloc.Sound request) :=
  inferInstanceAs (Decidable ((_ ∧ (_ → _)) ∨ _))

instance decidableSound (sv : Server V) : (e : Event V) → Decidable (Sound sv e)
  | .publish request alloc _ =>
      inferInstanceAs (Decidable (sv.channel ≠ none → sv.serverSubscriptions ≠ [] →
        alloc.Sound request))
  | .deleteSubscriptions ids alloc =>
      inferInstanceAs (Decidable ((alloc.token = true ∧ alloc.delayedJob = true) ∨
        sv.responseQueue = [] ∨ (∃ sub ∈ sv.serverSubscriptions, sub.subscriptionID ∉ ids) ∨
        .answerPublishRequestsNoSubscription ∈ sv.delayedCallbacks ∨ alloc.results = false))
  | .delayedCallbacks => inferInstanceAs (Decidable (Answerable sv sv.delayedCallbacks))
  | .sample .. | .publishCallback .. | .tick _ | .republish .. | .createSubscription ..
  | .createMonitoredItem .. | .openChannel | .closeChannel .. | .activateSession .. =>
      isTrue trivial

omit [Inhabited V] in
theorem serviceDeleteSubscriptions_flow (hcovered : Covered sv) (ids : List UInt32)
    {alloc : DeleteAllocs} (hsound : Sound sv (.deleteSubscriptions ids alloc)) :
    let result := serviceDeleteSubscriptions sv ids alloc
    Flow sv result.2 result.1 ∧ Covered result.1 := by
  obtain ⟨hflow, hkeeps, hqueue⟩ := deleteSubscriptions_flow ids sv
  unfold serviceDeleteSubscriptions
  split
  · exact ⟨.silent rfl (List.forall_mem_nil _), hcovered⟩
  · rename_i hany
    dsimp only
    split
    · rename_i hstop
      refine ⟨hflow, fun hnil => ?_⟩
      rw [hqueue, hkeeps.delayedCallbacks]
      obtain h | h | ⟨sub, hsub, hid⟩ | h | h := hsound
      · obtain h' | h' | h' := hstop
        · exact absurd hnil h'
        · exact absurd h.1 h'
        · exact absurd h.2 h'
      · exact Or.inl h
      · have hstays := mem_deleteSubscriptions ids hsub hid
        rw [hnil] at hstays
        exact nomatch hstays
      · exact Or.inr h
      · exact absurd (Or.inr (by simp [h])) hany
    · exact ⟨⟨hflow.order, hflow.arrival, hflow.all⟩, fun _ => Or.inr List.mem_cons_self⟩

omit [Inhabited V] in
theorem drained_flow (sv : Server V) (channel : Nat) :
    Flow sv (sv.responseQueue.map fun pre => .drained (errorResponse channel pre.requestId
      pre.requestHandle StatusCode.badNoSubscription pre.results))
      { sv with responseQueue := [] } := by
  have hsplit : ∀ queue : List PublishResponseEntry,
      let outputs : List (Output V) := queue.map fun pre => .drained (errorResponse channel
        pre.requestId pre.requestHandle StatusCode.badNoSubscription pre.results)
      outputs.filterMap Output.consumedKey = queue.map PublishResponseEntry.key ∧
        outputs.filterMap Output.queuedKey = [] ∧ outputs.filterMap Output.refusedKey = [] ∧
        outputs.filterMap Output.requestedKey = [] := by
    intro queue
    induction queue with
    | nil => exact ⟨rfl, rfl, rfl, rfl⟩
    | cons pre queue ih => exact ⟨congrArg (pre.key :: ·) ih.1, ih.2⟩
  obtain ⟨h₁, h₂, h₃, h₄⟩ := hsplit sv.responseQueue
  refine ⟨?_, ?_, ?_⟩
  · rw [h₁, h₂, List.append_nil]
    exact List.append_nil _
  · rw [h₂]
    exact List.nil_sublist _
  · rw [h₂, h₃, h₄]
    exact .nil

omit [Inhabited V] in
theorem processDelayedCallbacks_flow (ds : List Delayed) :
    ∀ {sv : Server V}, Answerable sv ds →
      ∃ sv' outputs, processDelayedCallbacks ds sv = .ok (sv', outputs) ∧ Flow sv outputs sv' ∧
        sv'.serverSubscriptions = sv.serverSubscriptions ∧ sv'.delayedCallbacks = [] ∧
        (sv.responseQueue = [] → sv'.responseQueue = []) ∧
        (.answerPublishRequestsNoSubscription ∈ ds → sv.serverSubscriptions = [] →
          sv'.responseQueue = []) := by
  induction ds with
  | nil =>
    intro sv _
    exact ⟨_, _, rfl, .silent rfl (List.forall_mem_nil _), rfl, rfl, id, nofun⟩
  | cons d ds ih =>
    intro sv hanswer
    cases d with
    | removeSecureChannelCallback c =>
      have hleft : Answerable { sv with
          channel := if sv.channel = some c then none else sv.channel
          delayedCallbacks := ds } ds := by
        intro hmem hnil hqueue
        obtain ⟨halive, c', hchannel, hbefore⟩ := hanswer (List.mem_cons_of_mem _ hmem) hnil hqueue
        rw [List.takeWhile_cons_of_pos (by simp), List.mem_cons, not_or] at hbefore
        refine ⟨halive, c', ?_, hbefore.2⟩
        have hother : sv.channel ≠ some c := by
          rw [hchannel]
          exact fun h => hbefore.1 (congrArg Delayed.removeSecureChannelCallback
            (Option.some.inj h))
        exact (if_neg hother).trans hchannel
      obtain ⟨sv', outputs, heq, hflow, hsubs, hnone, hempty, hdrained⟩ := ih hleft
      refine ⟨sv', outputs, ?_, ⟨hflow.order, hflow.arrival, hflow.all⟩, hsubs, hnone, hempty,
        fun hmem hnil =>
        hdrained ((List.mem_cons.mp hmem).resolve_left nofun) hnil⟩
      simp only [processDelayedCallbacks, runDelayed, heq, List.nil_append]
    | answerPublishRequestsNoSubscription =>
      by_cases hstop : sv.clock > sv.validTill ∨ sv.serverSubscriptions ≠ [] ∨ sv.responseQueue = []
      · -- a session that has timed out has nothing left to answer
        have hdone : sv.serverSubscriptions = [] → sv.responseQueue = [] := by
          intro hnil
          by_contra hqueue
          have halive := (hanswer List.mem_cons_self hnil hqueue).1
          obtain h | h | h := hstop
          · omega
          · exact h hnil
          · exact hqueue h
        obtain ⟨sv', outputs, heq, hflow, hsubs, hnone, hempty, -⟩ :=
          ih (show Answerable { sv with delayedCallbacks := ds } ds from
            fun _ hnil hqueue => absurd (hdone hnil) hqueue)
        refine ⟨sv', outputs, ?_, ⟨hflow.order, hflow.arrival, hflow.all⟩, hsubs, hnone, hempty,
          fun _ hnil => hempty (hdone hnil)⟩
        simp only [processDelayedCallbacks, runDelayed, answerPublishRequestsNoSubscription,
          if_pos hstop, heq, List.nil_append]
      · obtain ⟨halive, hnil, hqueue⟩ : _ ∧ sv.serverSubscriptions = [] ∧
          sv.responseQueue ≠ [] := by
          simpa only [not_or, not_not] using hstop
        obtain ⟨-, c, hchannel, -⟩ := hanswer List.mem_cons_self hnil hqueue
        obtain ⟨sv', outputs, heq, hflow, hsubs, hnone, hempty, -⟩ :=
          ih (show Answerable { sv with responseQueue := [], delayedCallbacks := ds } ds from
            fun _ _ hqueue => absurd rfl hqueue)
        refine ⟨sv', _, ?_, (drained_flow sv c).trans ⟨hflow.order, hflow.arrival, hflow.all⟩,
          hsubs, hnone,
          fun _ => hempty rfl, fun _ _ => hempty rfl⟩
        simp only [hchannel] at heq
        simp only [processDelayedCallbacks, runDelayed, answerPublishRequestsNoSubscription,
          if_neg hstop, hchannel, heq]

def Output.sentOver : Output V → Option Nat
  | .published _ response => some response.channel
  | .refused response => some response.channel
  | .drained response => some response.channel
  | _ => none

/-- Whatever is sent is sent over this channel. -/
def Over (channel : Option Nat) (outputs : List (Output V)) : Prop :=
  ∀ o ∈ outputs, ∀ c, o.sentOver = some c → channel = some c

omit [Inhabited V] in
theorem Over.append {channel : Option Nat} {outputs₁ : List (Output V)} (h : Over channel outputs)
    (h₁ : Over channel outputs₁) : Over channel (outputs ++ outputs₁) := by
  intro o ho
  obtain ho | ho := List.mem_append.mp ho
  · exact h o ho
  · exact h₁ o ho

omit [Inhabited V] in
theorem Over.silent {channel : Option Nat} (h : ∀ o ∈ outputs, o.Silent) :
    Over channel outputs := by
  intro o ho c hc
  have hsilent := h o ho
  cases o <;> first | exact hsilent.elim | cases hc

theorem publishCallback_over (max : UInt32) (channel : Option Nat)
    (responseQueue : List PublishResponseEntry) :
    ∀ (turns : Nat → Turn) (sub : Subscription V),
      ∀ response ∈ (publishCallback max channel turns sub responseQueue).sent,
        channel = some response.channel := by
  induction responseQueue with
  | nil =>
    intro turns sub
    obtain ⟨sub', ended, heq, -, -⟩ | ⟨c, pre, rest, -, hqueue, -⟩ :=
      publishCallback_cases max channel turns sub []
    · rw [heq]
      exact nofun
    · exact nomatch hqueue
  | cons pre responseQueue ih =>
    intro turns sub response hsent
    obtain ⟨sub', ended, heq, -, -⟩ | ⟨c, pre', rest, hchannel, hqueue, heq⟩ :=
      publishCallback_cases max channel turns sub (pre :: responseQueue)
    · rw [heq] at hsent
      exact nomatch hsent
    · cases hqueue
      dsimp only at heq
      split at heq
      · rw [heq] at hsent
        obtain rfl | hsent := List.mem_cons.mp hsent
        · exact hchannel
        · exact ih _ _ response hsent
      · rw [heq, List.mem_singleton] at hsent
        subst hsent
        exact hchannel

omit [Inhabited V] in
theorem deleteSubscription_over (channel : Option Nat) (sv : Server V) (subscriptionID : UInt32) :
    Over channel (deleteSubscription sv subscriptionID).2 := by
  refine .silent ?_
  unfold deleteSubscription
  split <;> simp [Output.Silent]

omit [Inhabited V] in
theorem deleteSubscriptions_over (channel : Option Nat) (ids : List UInt32) (sv : Server V) :
    Over channel (deleteSubscriptions sv ids).2 := by
  induction ids generalizing sv with
  | nil => exact nofun
  | cons subscriptionID ids ih =>
      exact (deleteSubscription_over channel sv subscriptionID).append (ih _)

theorem publish_over (sv : Server V) (a : Nat) (turns : Nat → Turn) :
    Over sv.channel (publish config sv a turns).2 := by
  unfold publish
  split
  · exact nofun
  · rename_i sub _
    have hsent : Over sv.channel ((publishCallback config.maxRetransmissionQueueSize sv.channel
        turns sub sv.responseQueue).sent.map (Output.published a)) := by
      intro o ho c hc
      obtain ⟨response, hresponse, rfl⟩ := List.mem_map.mp ho
      cases hc
      exact publishCallback_over _ _ _ turns sub response hresponse
    dsimp only
    split
    · exact hsent.append (deleteSubscription_over _ _ _)
    · exact hsent

theorem servicePublish_over {channel : Nat} (hchannel : sv.channel = some channel)
    (request : PublishRequest) (alloc : PublishAllocs) (turns : Nat → Turn) :
    Over sv.channel (servicePublish config sv channel request alloc turns).2 := by
  have hrefused : ∀ requestHandle requestId error, Over sv.channel
      [(.refused (subscriptionSendError channel requestHandle requestId error) : Output V)] := by
    intro requestHandle requestId error o ho c hc
    rw [List.mem_singleton] at ho
    subst ho
    cases hc
    exact hchannel
  unfold servicePublish
  split
  · exact hrefused _ _ _
  split
  · exact hrefused _ _ _
  split
  · exact hrefused _ _ _
  · obtain ⟨hsilent, hkeeps, -, -⟩ := acknowledge_flow request.subscriptionAcknowledgements sv
    dsimp only
    generalize acknowledge sv request.subscriptionAcknowledgements = acked at hsilent hkeeps ⊢
    obtain ⟨sv₁, results, acknowledged⟩ := acked
    dsimp only at hsilent hkeeps ⊢
    have hover : Over sv.channel (acknowledged ++
        [.queued ⟨request.requestId, request.requestHandle, results⟩]) :=
      (Over.silent hsilent).append (by simp [Over, Output.sentOver])
    split
    · exact hover
    · rename_i immediate _
      have hpublish := @publish_over _ _ config { sv₁ with
        responseQueue := sv₁.responseQueue ++
          [⟨request.requestId, request.requestHandle, results⟩] } immediate.addr turns
      have hsame : Over sv.channel _ := fun o ho c hc => hkeeps.channel ▸ hpublish o ho c hc
      have hboth := hover.append hsame
      rw [List.append_assoc] at hboth
      exact hboth

omit [Inhabited V] in
theorem processDelayedCallbacks_channel (ds : List Delayed) :
    ∀ {sv sv' : Server V} {outputs : List (Output V)},
      processDelayedCallbacks ds sv = .ok (sv', outputs) →
      sv'.channels = sv.channels ∧ Over sv.channel outputs ∧ ∀ c, sv'.channel = some c →
        sv.channel = some c ∧ .removeSecureChannelCallback c ∉ ds := by
  induction ds with
  | nil =>
    intro sv sv' outputs h
    cases h
    exact ⟨rfl, List.forall_mem_nil _, fun c hc => ⟨hc, List.not_mem_nil⟩⟩
  | cons d ds ih =>
    intro sv sv' outputs h
    unfold processDelayedCallbacks at h
    split at h
    · cases h
    rename_i sv₁ outputs₁ hrun
    split at h
    · cases h
    rename_i sv₂ outputs₂ hrest
    cases h
    obtain ⟨hchannels, hover, hchannel⟩ := ih hrest
    cases d with
    | removeSecureChannelCallback c =>
      cases hrun
      have hkept : ∀ c', (if sv.channel = some c then none else sv.channel) = some c' →
          sv.channel = some c' ∧ c' ≠ c := by
        intro c' hc'
        split at hc'
        · cases hc'
        · rename_i hother
          exact ⟨hc', fun heq => hother (heq ▸ hc')⟩
      refine ⟨hchannels, fun o ho c' hc' => (hkept c' (hover o ho c' hc')).1, fun c' hc' => ?_⟩
      obtain ⟨hfirst, hlater⟩ := hchannel c' hc'
      obtain ⟨hbefore, hne⟩ := hkept c' hfirst
      refine ⟨hbefore, fun hmem => ?_⟩
      obtain heq | hmem := List.mem_cons.mp hmem
      · exact hne (Delayed.removeSecureChannelCallback.inj heq)
      · exact hlater hmem
    | answerPublishRequestsNoSubscription =>
      have hanswers : sv₁.channels = sv.channels ∧ sv₁.channel = sv.channel ∧
          Over sv.channel outputs₁ := by
        simp only [runDelayed, answerPublishRequestsNoSubscription] at hrun
        split at hrun
        · cases hrun
          exact ⟨rfl, rfl, List.forall_mem_nil _⟩
        · split at hrun
          · cases hrun
          · rename_i c hc
            cases hrun
            refine ⟨rfl, rfl, fun o ho c' hc' => ?_⟩
            obtain ⟨pre, -, rfl⟩ := List.mem_map.mp ho
            cases hc'
            exact hc
      obtain ⟨hchannels₁, hsame, hover₁⟩ := hanswers
      rw [hsame] at hover hchannel
      refine ⟨hchannels.trans hchannels₁, hover₁.append hover, fun c hc => ?_⟩
      obtain ⟨hbefore, hlater⟩ := hchannel c hc
      exact ⟨hbefore, fun hmem => hlater ((List.mem_cons.mp hmem).resolve_left (by simp))⟩

/-! ## Every step -/

omit [Inhabited V] in
theorem sample_ne_noChannel {enc : Encoder V} {a m : Nat} {alloc : SampleAllocs}
    {value : DataValue V} : sampleCallback sv enc a m alloc value ≠ .error .noChannel := by
  have hspace : ∀ mon : MonitoredItem V,
    ensureSpaceInMonitoredItemQueue mon ≠ .error .noChannel := by
    intro mon h
    unfold ensureSpaceInMonitoredItemQueue at h
    split at h
    · cases h
    · split at h <;> cases h
  have hvalue : ∀ mon, sampleCallbackWithValue enc alloc mon value ≠ .error .noChannel := by
    intro mon h
    unfold sampleCallbackWithValue at h
    repeat' split at h
    all_goals try cases h
    rename_i hbreak
    exact hspace _ hbreak
  intro h
  unfold sampleCallback at h
  repeat' split at h
  all_goals try cases h
  rename_i hbreak
  exact hvalue _ hbreak

/-- What a step is to do with the requests and with the channel. -/
structure Handled (sv : Server V) (outputs : List (Output V)) (sv' : Server V) : Prop where
  flow : Flow sv outputs sv'
  covered : Covered sv'
  attached : Attached sv'
  channel : Over sv.channel outputs

omit [Inhabited V] in
theorem Handled.of_ok {result : Server V × List (Output V)} (h : Handled sv result.2 result.1)
    (heq : (.ok result : Except Breakdown _) = .ok (sv', outputs)) : Handled sv outputs sv' := by
  cases heq
  exact h

omit [Inhabited V] in
theorem Handled.quiet (hcovered : Covered sv) (hattached : Attached sv')
    (hqueue : sv'.responseQueue = sv.responseQueue)
    (hsubs : sv'.serverSubscriptions = [] → sv.serverSubscriptions = [])
    (hdelayed : sv.delayedCallbacks ⊆ sv'.delayedCallbacks) (hsilent : ∀ o ∈ outputs, o.Silent) :
    Handled sv outputs sv' where
  flow := .silent hqueue hsilent
  covered := by
    intro hnil
    rw [hqueue]
    exact (hcovered (hsubs hnil)).imp_right fun hmem => hdelayed hmem
  attached := hattached
  channel := .silent hsilent

omit [Inhabited V] in
theorem Attached.keeps (h : Attached sv) (hkeeps : Keeps sv sv') : Attached sv' := by
  intro c hc
  rw [hkeeps.channels, hkeeps.delayedCallbacks]
  exact h c (hkeeps.channel ▸ hc)

omit [Inhabited V] in
theorem sample_handled {enc : Encoder V} {a m : Nat} {alloc : SampleAllocs} {value : DataValue V}
    (hcovered : Covered sv) (hattached : Attached sv)
    (h : sampleCallback sv enc a m alloc value = .ok (sv', outputs)) : Handled sv outputs sv' := by
  obtain ⟨rfl, rfl⟩ | ⟨sub, mon, sampled, -, -, -, rfl, rfl⟩ := sampleCallback_cases h
  · exact .quiet hcovered hattached rfl id (List.Subset.refl _) (List.forall_mem_nil _)
  · refine .quiet hcovered (hattached.keeps ⟨rfl, rfl, rfl⟩) rfl keyed_modify_eq_nil.mp
      (List.Subset.refl _) fun o ho => ?_
    obtain ho | ho := List.mem_append.mp ho
    · obtain ⟨qv, -, rfl⟩ := List.mem_map.mp ho
      exact trivial
    · split at ho
      · rw [List.mem_singleton] at ho
        subst ho
        exact trivial
      · exact nomatch ho

theorem publish_handled (hcovered : Covered sv) (hattached : Attached sv) (a : Nat)
    (turns : Nat → Turn) :
    Handled sv (publish config sv a turns).2 (publish config sv a turns).1 := by
  obtain ⟨hflow, hkeeps, hlast⟩ := @publish_flow _ _ config sv a turns
  refine ⟨hflow, fun hnil => ?_, hattached.keeps hkeeps, publish_over sv a turns⟩
  rw [hkeeps.delayedCallbacks]
  obtain ⟨hbefore, hqueue⟩ | hqueue := hlast hnil
  · rw [hqueue]
    exact hcovered hbefore
  · exact Or.inl hqueue

theorem servicePublish_handled {channel : Nat} (hcovered : Covered sv) (hattached : Attached sv)
    (hchannel : sv.channel = some channel) (request : PublishRequest) {alloc : PublishAllocs}
    (turns : Nat → Turn) (hsound : sv.serverSubscriptions ≠ [] → alloc.Sound request) :
    let result := servicePublish config sv channel request alloc turns
    Handled sv (.requested request.requestId request.requestHandle :: result.2) result.1 := by
  obtain ⟨hflow, hkeeps, hlast⟩ :=
    @servicePublish_flow _ _ config sv channel request alloc turns hsound
  have hrequested : Over sv.channel
      [(.requested request.requestId request.requestHandle : Output V)] :=
    by simp [Over, Output.sentOver]
  refine ⟨hflow, fun hnil => ?_, hattached.keeps hkeeps,
    hrequested.append (servicePublish_over hchannel request alloc turns)⟩
  rw [hkeeps.delayedCallbacks]
  obtain ⟨hbefore, hqueue⟩ | hqueue := hlast hnil
  · rw [hqueue]
    exact hcovered hbefore
  · exact Or.inl hqueue

omit [Inhabited V] in
theorem serviceDeleteSubscriptions_handled (hcovered : Covered sv) (hattached : Attached sv)
    (ids : List UInt32) {alloc : DeleteAllocs}
    (hsound : Sound sv (.deleteSubscriptions ids alloc)) :
    Handled sv (serviceDeleteSubscriptions sv ids alloc).2
      (serviceDeleteSubscriptions sv ids alloc).1 := by
  obtain ⟨hflow, hcovered'⟩ := serviceDeleteSubscriptions_flow hcovered ids hsound
  obtain ⟨-, hkeeps, -⟩ := deleteSubscriptions_flow ids sv
  have hover := deleteSubscriptions_over sv.channel ids sv
  refine ⟨hflow, hcovered', ?_, ?_⟩
  · unfold serviceDeleteSubscriptions
    split
    · exact hattached
    dsimp only
    split
    · exact hattached.keeps hkeeps
    · intro c hc
      exact (hattached.keeps hkeeps c hc).imp_right (List.mem_cons_of_mem _)
  · unfold serviceDeleteSubscriptions
    split
    · exact nofun
    dsimp only
    split <;> exact hover

omit [Inhabited V] in
theorem processDelayedCallbacks_handled (hcovered : Covered sv) (hattached : Attached sv)
    (hanswer : Answerable sv sv.delayedCallbacks) :
    ∃ sv' outputs, processDelayedCallbacks sv.delayedCallbacks sv = .ok (sv', outputs) ∧
      Handled sv outputs sv' ∧ (sv'.serverSubscriptions = [] → sv'.responseQueue = []) := by
  obtain ⟨sv', outputs, heq, hflow, hsubs, hnone, hempty, hdrained⟩ :=
    processDelayedCallbacks_flow sv.delayedCallbacks hanswer
  obtain ⟨hchannels, hover, hchannel⟩ := processDelayedCallbacks_channel _ heq
  have hdone : sv'.serverSubscriptions = [] → sv'.responseQueue = [] := by
    intro hnil
    rw [hsubs] at hnil
    obtain hqueue | hmem := hcovered hnil
    · exact hempty hqueue
    · exact hdrained hmem hnil
  refine ⟨sv', outputs, heq, ⟨hflow, fun hnil => Or.inl (hdone hnil), fun c hc => ?_, hover⟩, hdone⟩
  obtain ⟨hbefore, hlater⟩ := hchannel c hc
  rw [hchannels]
  exact Or.inl ((hattached c hbefore).resolve_right hlater)

omit [Inhabited V] in
theorem serve_handled {service : Nat → Server V → Server V × List (Output V)}
    (hcovered : Covered sv) (hattached : Attached sv)
    (hservice : ∀ channel, sv.channel = some channel →
      Handled { sv with validTill := sv.clock + sv.timeout }
        (service channel { sv with validTill := sv.clock + sv.timeout }).2
        (service channel { sv with validTill := sv.clock + sv.timeout }).1) :
    Handled sv (sv.serve service).2 (sv.serve service).1 := by
  unfold Server.serve
  split
  · exact .quiet hcovered hattached rfl id (List.Subset.refl _) (List.forall_mem_nil _)
  · rename_i channel hchannel
    have h := hservice channel hchannel
    exact ⟨⟨h.flow.order, h.flow.arrival, h.flow.all⟩, h.covered, h.attached, h.channel⟩

omit [Inhabited V] in
theorem serviceCreateSubscription_handled (hcovered : Covered sv) (hattached : Attached sv)
    (settings : SubscriptionSettings) (alloc : Bool) :
    Handled sv [] (serviceCreateSubscription config sv settings alloc) := by
  unfold serviceCreateSubscription
  split
  · exact .quiet hcovered hattached rfl id (List.Subset.refl _) (List.forall_mem_nil _)
  · exact .quiet hcovered (hattached.keeps ⟨rfl, rfl, rfl⟩) rfl nofun (List.Subset.refl _)
      (List.forall_mem_nil _)

omit [Inhabited V] in
theorem serviceCreateMonitoredItem_handled (hcovered : Covered sv) (hattached : Attached sv)
    (subscriptionID : UInt32) (params : MonitoringParameters) (alloc : Bool) :
    Handled sv [] (serviceCreateMonitoredItem config sv subscriptionID params alloc) := by
  unfold serviceCreateMonitoredItem
  split
  · exact .quiet hcovered hattached rfl id (List.Subset.refl _) (List.forall_mem_nil _)
  dsimp only
  split
  · exact .quiet hcovered (hattached.keeps ⟨rfl, rfl, rfl⟩) rfl keyed_modify_eq_nil.mp
      (List.Subset.refl _) (List.forall_mem_nil _)
  · exact .quiet hcovered (hattached.keeps ⟨rfl, rfl, rfl⟩) rfl
      (fun hnil => keyed_modify_eq_nil.mp (keyed_modify_eq_nil.mp hnil)) (List.Subset.refl _)
      (List.forall_mem_nil _)

omit [Inhabited V] in
theorem serviceRepublish_handled (hcovered : Covered sv) (hattached : Attached sv)
    (subscriptionID sequenceNumber : UInt32) (copied : Bool) :
    Handled sv (serviceRepublish sv subscriptionID sequenceNumber copied).2
      (serviceRepublish sv subscriptionID sequenceNumber copied).1 := by
  unfold serviceRepublish
  split
  · exact .quiet hcovered hattached rfl id (List.Subset.refl _) (List.forall_mem_nil _)
  · exact .quiet hcovered (hattached.keeps ⟨rfl, rfl, rfl⟩) rfl keyed_modify_eq_nil.mp
      (List.Subset.refl _) (by simp [Output.Silent])

omit [Inhabited V] in
theorem removeSecureChannel_handled (hcovered : Covered sv) (hattached : Attached sv) (c : Nat)
    (alloc : Bool) : Handled sv [] (removeSecureChannel sv c alloc) := by
  unfold removeSecureChannel
  split
  · refine .quiet hcovered (fun c' hc' => ?_) rfl id (List.subset_cons_self _ _)
      (List.forall_mem_nil _)
    obtain rfl | hother := eq_or_ne c' c
    · exact Or.inr List.mem_cons_self
    · exact (hattached c' hc').imp (List.mem_erase_of_ne hother).mpr (List.mem_cons_of_mem _)
  · exact .quiet hcovered hattached rfl id (List.Subset.refl _) (List.forall_mem_nil _)

omit [Inhabited V] in
theorem serviceActivateSession_handled (hcovered : Covered sv) (hattached : Attached sv) {c : Nat}
    (hlive : c ∈ sv.channels ∨ .removeSecureChannelCallback c ∈ sv.delayedCallbacks)
    (alloc : Bool) : Handled sv [] (serviceActivateSession sv c alloc) := by
  unfold serviceActivateSession
  split
  · exact .quiet hcovered hattached rfl id (List.Subset.refl _) (List.forall_mem_nil _)
  · refine .quiet hcovered (fun c' hc' => ?_) rfl id (List.Subset.refl _) (List.forall_mem_nil _)
    -- the new channel is not freed, and the old one only stays if it is the same
    by_cases hsame : sv.channel = some c
    · simp only [hsame, if_true] at hc'
      cases hc'
      exact hlive
    · simp only [if_neg hsame, true_and] at hc'
      split at hc' <;> cases hc'
      exact hlive

theorem step_handled {enc : Encoder V} {e : Event V} (hcovered : Covered sv)
    (hattached : Attached sv) (hsound : Sound sv e)
    (h : step config sv enc e = .ok (sv', outputs)) :
    Handled sv outputs sv' ∧
      (e = .delayedCallbacks → sv'.serverSubscriptions = [] → sv'.responseQueue = []) := by
  have hcovered' : Covered { sv with validTill := sv.clock + sv.timeout } :=
    fun hnil => hcovered hnil
  have hattached' : Attached { sv with validTill := sv.clock + sv.timeout } := hattached
  cases e with
  | sample a m alloc value => exact ⟨sample_handled hcovered hattached h, nofun⟩
  | publishCallback a turns =>
    exact ⟨(publish_handled hcovered hattached a turns).of_ok h, nofun⟩
  | tick elapsed =>
    cases h
    exact ⟨.quiet hcovered hattached rfl id (List.Subset.refl _) (List.forall_mem_nil _), nofun⟩
  | publish request alloc turns =>
    refine ⟨Handled.of_ok (serve_handled hcovered hattached fun channel hchannel => ?_) h, nofun⟩
    exact servicePublish_handled hcovered' hattached' hchannel request turns
      (hsound (hchannel ▸ Option.some_ne_none channel))
  | republish subscriptionID sequenceNumber copied =>
    exact ⟨(serve_handled hcovered hattached fun _ _ => serviceRepublish_handled
      hcovered' hattached' subscriptionID sequenceNumber copied).of_ok h, nofun⟩
  | createSubscription settings alloc =>
    exact ⟨(serve_handled hcovered hattached fun _ _ => serviceCreateSubscription_handled
      hcovered' hattached' settings alloc).of_ok h, nofun⟩
  | createMonitoredItem subscriptionID params alloc =>
    exact ⟨(serve_handled hcovered hattached fun _ _ => serviceCreateMonitoredItem_handled
      hcovered' hattached' subscriptionID params alloc).of_ok h, nofun⟩
  | deleteSubscriptions ids alloc =>
    exact ⟨(serve_handled hcovered hattached fun _ _ => serviceDeleteSubscriptions_handled
      hcovered' hattached' ids hsound).of_ok h, nofun⟩
  | openChannel =>
    cases h
    refine ⟨.quiet hcovered (fun c hc => ?_) rfl id (List.Subset.refl _) (List.forall_mem_nil _),
      nofun⟩
    exact (hattached c hc).imp_left (List.mem_cons_of_mem _)
  | closeChannel c alloc =>
    cases h
    exact ⟨removeSecureChannel_handled hcovered hattached c alloc, nofun⟩
  | activateSession c alloc =>
    cases h
    refine ⟨?_, nofun⟩
    split
    · rename_i hlive
      exact serviceActivateSession_handled hcovered hattached hlive alloc
    · exact .quiet hcovered hattached rfl id (List.Subset.refl _) (List.forall_mem_nil _)
  | delayedCallbacks =>
    obtain ⟨sv₁, outputs₁, heq, hhandled, hdone⟩ :=
      processDelayedCallbacks_handled hcovered hattached hsound
    cases heq.symm.trans h
    exact ⟨hhandled, fun _ => hdone⟩

theorem step_ne_noChannel {enc : Encoder V} {e : Event V} (hsound : Sound sv e) :
    step config sv enc e ≠ .error .noChannel := by
  cases e with
  | sample a m alloc value => exact sample_ne_noChannel
  | delayedCallbacks =>
    obtain ⟨sv', outputs, heq, -⟩ := processDelayedCallbacks_flow sv.delayedCallbacks hsound
    intro h
    cases heq.symm.trans h
  | _ => exact nofun

/-- What holds of the requests after a run: each answer is to a request of its own, by its id and
handle, those in the queue were consumed in the order in which they had arrived, and none waits for
nothing. -/
structure Answered (log : List (Output V)) (sv : Server V) : Prop where
  once : (log.filterMap Output.answeredKey ++ waiting sv).Perm
    (log.filterMap Output.requestedKey)
  order : log.filterMap Output.consumedKey ++ waiting sv = log.filterMap Output.queuedKey
  arrival : (log.filterMap Output.queuedKey).Sublist (log.filterMap Output.requestedKey)
  covered : Covered sv

/-- In a run whose steps meet the condition every publish request is answered at most once, in
order, and over the channel of the session. A round of delayed callbacks leaves no request of a
session without subscriptions. -/
theorem publishRequests_answered (config : Config) (enc : Encoder V) (timeout clock : Int)
    (es : List (Event V))
    (hsound : Runs.Guarded (fun sv => step config sv enc) Sound (Server.init timeout clock) es) :
    Runs.run (fun sv => step config sv enc) (Server.init timeout clock) es ≠ .error .noChannel ∧
      ∀ sv replies, Runs.run (fun sv => step config sv enc) (Server.init timeout clock) es =
          .ok (sv, replies) →
        Answered replies.flatten sv ∧
        ∀ e sv' outputs, Sound sv e → step config sv enc e = .ok (sv', outputs) →
          (∀ o ∈ outputs, ∀ c, o.sentOver = some c → sv.channel = some c ∧
            (c ∈ sv.channels ∨ .removeSecureChannelCallback c ∈ sv.delayedCallbacks)) ∧
          (e = .delayedCallbacks → sv'.serverSubscriptions = [] → sv'.responseQueue = []) := by
  refine ⟨Runs.run_ne_error (fun _ _ => step_ne_noChannel) es hsound, fun sv replies hrun => ?_⟩
  have hinit : Flow (Server.init timeout clock : Server V) [] (Server.init timeout clock) :=
    .silent rfl (List.forall_mem_nil _)
  have hattached : Attached (Server.init timeout clock : Server V) := by
    intro c hc
    cases hc
    exact Or.inl List.mem_cons_self
  have hkept : Flow (Server.init timeout clock) (([] : List (List (Output V))) ++ replies).flatten
      sv ∧ Covered sv ∧ Attached sv := by
    refine Runs.history_of_guarded
      (fun sv past => Flow (Server.init timeout clock) past.flatten sv ∧ Covered sv ∧ Attached sv)
      ?_ es (Server.init timeout clock) sv [] replies
      ⟨hinit, fun _ => Or.inl rfl, hattached⟩ hsound hrun
    intro s past e s' outputs ⟨hflow, hcovered, hattached⟩ hsound hstep
    obtain ⟨hhandled, -⟩ := step_handled hcovered hattached hsound hstep
    rw [List.flatten_concat]
    exact ⟨hflow.trans hhandled.flow, hhandled.covered, hhandled.attached⟩
  obtain ⟨hflow, hcovered, hattached⟩ := hkept
  refine ⟨⟨hflow.perm rfl, hflow.order, hflow.arrival, hcovered⟩, ?_⟩
  intro e sv' outputs hsound hstep
  obtain ⟨hhandled, hdone⟩ := step_handled hcovered hattached hsound hstep
  refine ⟨fun o ho c hc => ?_, hdone⟩
  have hchannel := hhandled.channel o ho c hc
  exact ⟨hchannel, hattached c hchannel⟩

end Functions

section Witnesses

/-- A run with two publish requests, one of which is answered after the last deletion. -/
theorem publishRequests_answered_drained :
    ∃ sv replies, Runs.run (fun sv => step standardConfig sv byteEncoder) (Server.init 100 0)
        [.createSubscription ⟨true, 3, 1, 0⟩ true, .publish ⟨5, 6, []⟩ ⟨true, true⟩ granted,
          .publish ⟨7, 8, []⟩ ⟨true, true⟩ granted, .publishCallback 1 granted,
          .deleteSubscriptions [1] ⟨true, true, true⟩, .delayedCallbacks] = .ok (sv, replies) ∧
      replies.flatten.filterMap Output.answeredKey = [(5, 6), (7, 8)] ∧
      Answered replies.flatten sv := by
  have hreaches : Runs.Reaches (fun sv => step standardConfig sv byteEncoder) (Server.init 100 0)
      [.createSubscription ⟨true, 3, 1, 0⟩ true, .publish ⟨5, 6, []⟩ ⟨true, true⟩ granted,
        .publish ⟨7, 8, []⟩ ⟨true, true⟩ granted, .publishCallback 1 granted,
        .deleteSubscriptions [1] ⟨true, true, true⟩, .delayedCallbacks]
      fun _ replies => replies.flatten.filterMap Output.answeredKey = [(5, 6), (7, 8)] := by
    decide +kernel
  obtain ⟨sv, replies, hrun, hanswered⟩ := hreaches
  refine ⟨sv, replies, hrun, hanswered, ?_⟩
  exact ((publishRequests_answered standardConfig byteEncoder 100 0 _ (by decide +kernel)).2
    sv replies hrun).1

/-- Without memory for the entry the answer takes the request id for the handle. A channel closed
after the last deletion is gone before the requests are answered over it. Without memory for the
delayed callback the requests are left in the queue. -/
theorem publishRequests_not_answered :
    (¬ ∀ (es : List (Event Nat)) sv replies,
      Runs.run (fun sv => step standardConfig sv byteEncoder) (Server.init 100 0) es =
        .ok (sv, replies) →
      (replies.flatten.filterMap Output.answeredKey ++ waiting sv).Perm
        (replies.flatten.filterMap Output.requestedKey)) ∧
    (¬ ∀ es : List (Event Nat),
      Runs.run (fun sv => step standardConfig sv byteEncoder) (Server.init 100 0) es ≠
        .error .noChannel) ∧
    ¬ ∀ (es : List (Event Nat)) sv replies,
      Runs.run (fun sv => step standardConfig sv byteEncoder) (Server.init 100 0)
        (es ++ [.delayedCallbacks]) = .ok (sv, replies) →
      sv.serverSubscriptions = [] → sv.responseQueue = [] := by
  refine ⟨?_, ?_, ?_⟩
  · intro h
    have hreaches : Runs.Reaches (fun sv => step standardConfig sv byteEncoder) (Server.init 100 0)
        [.createSubscription ⟨true, 3, 1, 0⟩ true,
          .publish ⟨5, 6, []⟩ ⟨false, true⟩ granted]
        fun sv replies => ¬ (replies.flatten.filterMap Output.answeredKey ++ waiting sv).Perm
          (replies.flatten.filterMap Output.requestedKey) := by
      decide +kernel
    obtain ⟨sv, replies, hrun, hother⟩ := hreaches
    exact hother (h _ sv replies hrun)
  · intro h
    have hfails : Runs.Fails (fun sv => step standardConfig sv byteEncoder) (Server.init 100 0)
        [.createSubscription ⟨true, 3, 1, 0⟩ true, .publish ⟨5, 6, []⟩ ⟨true, true⟩ granted,
          .deleteSubscriptions [1] ⟨true, true, true⟩, .closeChannel 0 true, .delayedCallbacks]
        .noChannel := by
      decide +kernel
    exact h _ hfails
  · intro h
    have hreaches : Runs.Reaches (fun sv => step standardConfig sv byteEncoder) (Server.init 100 0)
        ([.createSubscription ⟨true, 3, 1, 0⟩ true, .publish ⟨5, 6, []⟩ ⟨true, true⟩ granted,
          .deleteSubscriptions [1] ⟨true, false, true⟩] ++ [.delayedCallbacks])
        fun sv _ => ¬ (sv.serverSubscriptions = [] → sv.responseQueue = []) := by
      decide +kernel
    obtain ⟨sv, replies, hrun, hleft⟩ := hreaches
    exact hleft (h _ sv replies hrun)

end Witnesses

end FactoryThing.Subscriptions
