import FactoryThing.Lib.Retention
import FactoryThing.Lib.Trace
import FactoryThing.Subscriptions.Sampling
import Mathlib

/-!
# The retransmission queue

What a subscription has published with notifications and what the client has acknowledged decides
what its retransmission queue holds: the messages kept of this history. This is proved for every run
as long as the subscription has sent fewer than 2^32 messages, so that their numbers do not repeat.
-/

namespace FactoryThing.Subscriptions

open Retention

variable {V : Type}

/-- The history of messages and acknowledgements. -/
abbrev History (V : Type) : Type := List (Note (NotificationMessage V) UInt32)

/-- What an output says about the messages of the subscription at an address. A keep-alive has no
notifications and is not kept. -/
def Output.notes (a : Nat) : Output V → History V
  | .published b response =>
      if b = a ∧ response.notificationMessage.notificationData ≠ [] then
        [.sent response.notificationMessage]
      else []
  | .acknowledged b sequenceNumber _ => if b = a then [.acked sequenceNumber] else []
  | _ => []

def history (a : Nat) (log : List (Output V)) : History V := log.flatMap (Output.notes a)

/-- The messages of a history that are kept. -/
def kept (max : UInt32) (notes : History V) : List (NotificationMessage V) :=
  retained NotificationMessage.sequenceNumber max.toNat notes

def numbers (messages : List (NotificationMessage V)) : List UInt32 :=
  messages.map NotificationMessage.sequenceNumber

@[simp] theorem history_append (a : Nat) (log log' : List (Output V)) :
    history a (log ++ log') = history a log ++ history a log' := List.flatMap_append

theorem history_of_elsewhere {a : Nat} {outputs : List (Output V)}
    (h : ∀ o ∈ outputs, o.Elsewhere) : history a outputs = [] := by
  rw [history, List.flatMap_eq_nil_iff]
  intro o ho
  have helse := h o ho
  cases o with
  | requested | queued | refused | drained => rfl
  | _ => exact helse.elim

/-- The queue of a subscription is what its history says. -/
structure KeptBy (max : UInt32) (sub : Subscription V) (notes : History V) : Prop where
  queue : sub.retransmissionQueue = kept max notes
  size : sub.retransmissionQueueSize.toNat = sub.retransmissionQueue.length
  last : sub.sequenceNumber.toNat = (sents notes).length
  numbered : (sents notes).map (·.sequenceNumber.toNat) = List.range' 1 (sents notes).length

/-- The messages of the subscription and their numbers are the same. -/
structure SameMessages (sub sub' : Subscription V) : Prop where
  sequenceNumber : sub'.sequenceNumber = sub.sequenceNumber
  retransmissionQueue : sub'.retransmissionQueue = sub.retransmissionQueue
  retransmissionQueueSize : sub'.retransmissionQueueSize = sub.retransmissionQueueSize

theorem Settled.sameMessages {sub sub' : Subscription V} (h : Settled sub sub') :
    SameMessages sub sub' :=
  ⟨h.sequenceNumber, h.retransmissionQueue, h.retransmissionQueueSize⟩

/-- A history whose messages have numbers of their own. -/
def Numbered (notes : History V) : Prop := (sents notes).length < 2 ^ 32

section KeptBy

variable {max : UInt32} {sub sub' : Subscription V} {notes : History V}

theorem KeptBy.congr (h : KeptBy max sub notes) (hs : SameMessages sub sub') :
    KeptBy max sub' notes where
  queue := hs.retransmissionQueue.trans h.queue
  size := by
    rw [hs.retransmissionQueueSize, hs.retransmissionQueue]
    exact h.size
  last := by
    rw [hs.sequenceNumber]
    exact h.last
  numbered := h.numbered

theorem KeptBy.decreasing (h : KeptBy max sub notes) :
    (numbers sub.retransmissionQueue).Pairwise (· > ·) := by
  have hrange : ((sents notes).map (·.sequenceNumber.toNat)).Pairwise (· < ·) := by
    rw [h.numbered]
    exact List.pairwise_lt_range'
  have hgrow : (sents notes).Pairwise fun m m' => m.sequenceNumber < m'.sequenceNumber := by
    rw [List.pairwise_map] at hrange
    exact hrange.imp UInt32.lt_iff_toNat_lt.mpr
  rw [h.queue, numbers, List.pairwise_map]
  exact retained_pairwise notes hgrow

theorem KeptBy.length_le (h : KeptBy max sub notes) :
    sub.retransmissionQueue.length ≤ (sents notes).length := by
  have hlen : (kept max notes).length ≤ (sents notes).reverse.length :=
    (retained_sublist notes).length_le
  rw [List.length_reverse] at hlen
  exact h.queue ▸ hlen

theorem eraseP_eq_filter {messages : List (NotificationMessage V)} (sequenceNumber : UInt32)
    (h : (numbers messages).Pairwise (· > ·)) :
    messages.eraseP (·.sequenceNumber == sequenceNumber) =
      messages.filter fun m => m.sequenceNumber ≠ sequenceNumber := by
  induction messages with
  | nil => rfl
  | cons m messages ih =>
    rw [numbers, List.map_cons, List.pairwise_cons] at h
    by_cases hm : m.sequenceNumber = sequenceNumber
    · rw [List.eraseP_cons_of_pos (by simpa using hm), List.filter_cons_of_neg (by simpa using hm)]
      symm
      rw [List.filter_eq_self]
      intro m' hm'
      have hlt := h.1 m'.sequenceNumber (List.mem_map_of_mem hm')
      have hne : m'.sequenceNumber ≠ sequenceNumber := by
        rintro heq
        rw [hm, heq] at hlt
        exact UInt32.lt_irrefl _ hlt
      simpa using hne
    · rw [List.eraseP_cons_of_neg (by simpa using hm), List.filter_cons_of_pos (by simpa using hm),
        ih h.2]

theorem republishAnswer_of_mem {sub : Subscription V} {sequenceNumber : UInt32}
    (h : (numbers sub.retransmissionQueue).Pairwise (· > ·)) {message : NotificationMessage V}
    (hmem : message ∈ sub.retransmissionQueue) (hnum : message.sequenceNumber = sequenceNumber) :
    republishAnswer sub sequenceNumber true = .ok message := by
  have hnodup : (numbers sub.retransmissionQueue).Nodup :=
    h.imp fun {m n} hlt heq => by
      subst heq
      exact UInt32.lt_irrefl _ hlt
  have hfind := Keyed.find_of_mem hnodup hmem
  rw [hnum] at hfind
  unfold republishAnswer
  unfold Keyed.find at hfind
  rw [hfind]
  rfl

theorem KeptBy.acknowledge (h : KeptBy max sub notes) (sequenceNumber : UInt32) :
    KeptBy max (removeRetransmissionMessage sub sequenceNumber).1
      (notes ++ [.acked sequenceNumber]) ∧ (removeRetransmissionMessage sub sequenceNumber).2 =
        if sequenceNumber ∈ numbers (kept max notes) then StatusCode.good
        else StatusCode.badSequenceNumberUnknown := by
  have hmem : sub.retransmissionQueue.any (·.sequenceNumber == sequenceNumber) = true ↔
      sequenceNumber ∈ numbers (kept max notes) := by
    rw [← h.queue, List.any_eq_true, numbers, List.mem_map]
    simp
  have hkept : kept max (notes ++ [.acked sequenceNumber]) =
      sub.retransmissionQueue.filter fun m => m.sequenceNumber ≠ sequenceNumber := by
    rw [h.queue]
    exact retained_concat notes _
  unfold removeRetransmissionMessage
  by_cases hin : sub.retransmissionQueue.any (·.sequenceNumber == sequenceNumber) = true
  · rw [if_pos hin, if_pos (hmem.mp hin)]
    refine ⟨⟨?_, ?_, ?_, ?_⟩, rfl⟩
    · rw [hkept]
      exact eraseP_eq_filter sequenceNumber h.decreasing
    · obtain ⟨m, hm, hnum⟩ := List.any_eq_true.mp hin
      have hpos : 0 < sub.retransmissionQueue.length := List.length_pos_of_mem hm
      rw [List.length_eraseP_of_mem hm hnum, UInt32.toNat_sub_of_le, h.size]
      · rfl
      · rw [UInt32.le_iff_toNat_le, h.size]
        exact hpos
    · exact h.last.trans (by simp [sents])
    · simpa [sents] using h.numbered
  · rw [if_neg hin, if_neg (mt hmem.mpr hin)]
    refine ⟨⟨?_, h.size, ?_, ?_⟩, rfl⟩
    · rw [hkept]
      symm
      rw [List.filter_eq_self]
      intro m hm
      have hne : m.sequenceNumber ≠ sequenceNumber := fun heq =>
        hin (List.any_eq_true.mpr ⟨m, hm, by simpa using heq⟩)
      simpa using hne
    · exact h.last.trans (by simp [sents])
    · simpa [sents] using h.numbered

theorem KeptBy.addRetransmissionMessage (h : KeptBy max sub notes) {message : NotificationMessage V}
    (hnum : message.sequenceNumber = sub.sequenceNumber + 1)
    (hnumbered : Numbered (notes ++ [.sent message])) :
    KeptBy max (addRetransmissionMessage { sub with sequenceNumber := sub.sequenceNumber + 1 } max
      message) (notes ++ [.sent message]) := by
  have hlen : (sents (notes ++ [Note.sent message])).length = (sents notes).length + 1 := by
    simp [sents]
  have hbound := h.length_le
  have hlast : (sub.sequenceNumber + 1).toNat = (sents notes).length + 1 := by
    unfold Numbered at hnumbered
    rw [UInt32.toNat_add, h.last]
    simp only [UInt32.reduceToNat]
    omega
  have hkept : kept max (notes ++ [.sent message]) =
      message :: evict max.toNat sub.retransmissionQueue := by
    rw [h.queue]
    exact retained_concat notes _
  have hfull : (max > 0 ∧ sub.retransmissionQueueSize ≥ max) ↔
      (0 < max.toNat ∧ max.toNat ≤ sub.retransmissionQueue.length) := by
    rw [← h.size]
    exact Iff.and UInt32.lt_iff_toNat_lt UInt32.le_iff_toNat_le
  have hcons : ∀ (queue : List (NotificationMessage V)) (size : UInt32),
      size.toNat = queue.length → queue.length ≤ (sents notes).length →
      (size + 1).toNat = (message :: queue).length := by
    intro queue size hsize hle
    unfold Numbered at hnumbered
    rw [UInt32.toNat_add, hsize, List.length_cons]
    simp only [UInt32.reduceToNat]
    omega
  unfold Subscriptions.addRetransmissionMessage
  dsimp only
  refine ⟨?_, ?_, ?_, ?_⟩
  · rw [hkept]
    unfold evict
    split
    · rename_i hcode
      rw [if_pos (hfull.mp hcode)]
    · rename_i hcode
      rw [if_neg (mt hfull.mpr hcode)]
  · split
    · rename_i hcode
      have hroom := hfull.mp hcode
      apply hcons
      · rw [UInt32.toNat_sub_of_le, h.size, List.length_dropLast]
        · rfl
        · rw [UInt32.le_iff_toNat_le, h.size]
          exact Nat.le_trans hroom.1 hroom.2
      · rw [List.length_dropLast]
        omega
    · exact hcons _ _ h.size hbound
  · rw [hlen]
    split <;> exact hlast
  · rw [hlen, sents_append, List.map_append, h.numbered, List.range'_concat]
    simp only [sents, List.map_cons, List.map_nil, hnum, hlast]
    rw [Nat.one_mul, Nat.add_comm 1]

end KeptBy

section Publishing

variable [Inhabited V]

theorem answered_retransmission (config : Config) (channel : Nat) (pre : PublishResponseEntry)
    (turn : Turn) (sub : Subscription V) :
    let result := answered config channel pre turn sub
    let message := result.2.notificationMessage
    message.sequenceNumber = sub.sequenceNumber + 1 ∧
      result.2.availableSequenceNumbers = numbers result.1.retransmissionQueue ∧
      if message.notificationData = [] then
        result.1.sequenceNumber = sub.sequenceNumber ∧
          result.1.retransmissionQueue = sub.retransmissionQueue ∧
          result.1.retransmissionQueueSize = sub.retransmissionQueueSize
      else
        let added := addRetransmissionMessage { sub with sequenceNumber := sub.sequenceNumber + 1 }
          config.maxRetransmissionQueueSize message
        result.1.sequenceNumber = added.sequenceNumber ∧
          result.1.retransmissionQueue = added.retransmissionQueue ∧
          result.1.retransmissionQueueSize = added.retransmissionQueueSize := by
  unfold answered setUpResponse prepareNotificationMessage addRetransmissionMessage
  dsimp only
  split
  · rename_i hpos
    have hdata : (moveItems (countQueuedNotifications sub).1 0 sub.monitoredItems).1 ++
        List.replicate ((countQueuedNotifications sub).1 -
          (moveItems (countQueuedNotifications sub).1 0 sub.monitoredItems).1.length) default ≠
            [] := by
      intro hnil
      have hlen := congrArg List.length hnil
      rw [List.length_append, List.length_replicate, List.length_nil] at hlen
      omega
    dsimp only
    rw [if_neg hdata]
    split <;> exact ⟨rfl, rfl, rfl, rfl, rfl⟩
  · exact ⟨rfl, rfl, by rw [if_pos rfl]; exact ⟨rfl, rfl, rfl⟩⟩

/-- The retransmission queues of a session after what has been seen so far. -/
structure Retaining (max : UInt32) (sv : Server V) (log : List (Output V)) : Prop where
  wellFormed : WellFormed sv
  unborn : ∀ a, sv.nextAddr ≤ a → history a log = []
  keptBy : ∀ a sub, subscriptionAt sv a = some sub → Numbered (history a log) →
    KeptBy max sub (history a log)

/-- The answer to a RepublishRequest, given the messages kept. -/
def republishOf (messages : List (NotificationMessage V)) (sequenceNumber : UInt32)
    (copied : Bool) :
    Except StatusCode (NotificationMessage V) :=
  match messages.find? (·.sequenceNumber == sequenceNumber) with
  | none => .error StatusCode.badMessageNotAvailable
  | some message => if copied then .ok message else .error StatusCode.badOutOfMemory

/-- An output is right given what was seen before it: a response lists the numbers of the messages
kept, an acknowledgement tells whether its number was one of them, and a message is republished as
it was sent. -/
def Right (max : UInt32) (past : List (Output V)) : Output V → Prop
  | .published a response =>
      Numbered (history a (past ++ [.published a response])) →
        response.availableSequenceNumbers =
          numbers (kept max (history a (past ++ [.published a response])))
  | .acknowledged a sequenceNumber result =>
      Numbered (history a past) →
        result = if sequenceNumber ∈ numbers (kept max (history a past)) then StatusCode.good
          else StatusCode.badSequenceNumberUnknown
  | .republished a sequenceNumber answer =>
      Numbered (history a past) →
        ∃ copied, answer = republishOf (kept max (history a past)) sequenceNumber copied
  | _ => True

variable {config : Config} {sv sv' : Server V} {log outputs : List (Output V)} {max : UInt32}

omit [Inhabited V] in
theorem retaining_init (max : UInt32) (timeout clock : Int) :
    Retaining max (Server.init timeout clock : Server V) [] where
  wellFormed := wellFormed_init timeout clock
  unborn _ _ := rfl
  keptBy _ _ h := nomatch h

omit [Inhabited V] in
theorem numbered_of_append {notes notes' : History V} (h : Numbered (notes ++ notes')) :
    Numbered notes := by
  unfold Numbered at *
  rw [sents_append, List.length_append] at h
  omega

omit [Inhabited V] in
theorem Retaining.settle (h : Retaining max sv log) (hwf : WellFormed sv')
    (hnext : sv.nextAddr ≤ sv'.nextAddr) (hnone : ∀ a, history a outputs = [])
    (hsub : ∀ a sub', subscriptionAt sv' a = some sub' →
      ∃ sub, subscriptionAt sv a = some sub ∧ SameMessages sub sub') :
    Retaining max sv' (log ++ outputs) := by
  refine ⟨hwf, fun a ha => ?_, fun a sub' hsub' => ?_⟩
  · rw [history_append, hnone, List.append_nil]
    exact h.unborn a (Nat.le_trans hnext ha)
  · rw [history_append, hnone, List.append_nil]
    intro hnumbered
    obtain ⟨sub, hfind, hsame⟩ := hsub a sub' hsub'
    exact (h.keptBy a sub hfind hnumbered).congr hsame

omit [Inhabited V] in
theorem Retaining.modify (h : Retaining max sv log) {a : Nat} {sub : Subscription V}
    {f : Subscription V → Subscription V} (haddr : ∀ sub, sub.addr = a → (f sub).addr = a)
    (hwf : WellFormed (sv.modifySubscription a f)) (hsub : subscriptionAt sv a = some sub)
    (hother : ∀ b, b ≠ a → history b outputs = [])
    (hself : Numbered (history a log ++ history a outputs) →
      KeptBy max (f sub) (history a log ++ history a outputs)) :
    Retaining max (sv.modifySubscription a f) (log ++ outputs) := by
  refine ⟨hwf, fun b hb => ?_, fun b sub' hsub' => ?_⟩
  · have hne : b ≠ a := by
      rintro rfl
      have hlt := h.wellFormed.bounded sub (Keyed.mem_of_find hsub)
      rw [addr_of_find hsub] at hlt
      exact Nat.not_lt.mpr hb hlt
    rw [history_append, hother b hne, List.append_nil]
    exact h.unborn b hb
  · rw [history_append]
    by_cases hb : b = a
    · subst hb
      rw [subscriptionAt_modifySubscription_self sv haddr, hsub, Option.map_some,
        Option.some.injEq] at hsub'
      subst hsub'
      exact hself
    · rw [subscriptionAt_modifySubscription_ne haddr hb] at hsub'
      rw [hother b hb, List.append_nil]
      exact h.keptBy b sub' hsub'

omit [Inhabited V] in
theorem sameMessages_of_modify {a : Nat} {f : Subscription V → Subscription V}
    (haddr : ∀ sub, sub.addr = a → (f sub).addr = a) (hf : ∀ sub, SameMessages sub (f sub))
    {b : Nat} {sub' : Subscription V}
    (h : subscriptionAt (sv.modifySubscription a f) b = some sub') :
    ∃ sub, subscriptionAt sv b = some sub ∧ SameMessages sub sub' := by
  by_cases hb : b = a
  · subst hb
    rw [subscriptionAt_modifySubscription_self sv haddr, Option.map_eq_some_iff] at h
    obtain ⟨sub, hsub, rfl⟩ := h
    exact ⟨sub, hsub, hf sub⟩
  · rw [subscriptionAt_modifySubscription_ne haddr hb] at h
    exact ⟨sub', h, rfl, rfl, rfl⟩

theorem KeptBy.publish {sub : Subscription V} {notes : History V} (a channel : Nat)
    (pre : PublishResponseEntry) (turn : Turn)
    (h : Numbered notes → KeptBy config.maxRetransmissionQueueSize sub notes)
    (hnumbered : Numbered (notes ++
      history a [.published a (answered config channel pre turn sub).2])) :
    KeptBy config.maxRetransmissionQueueSize (answered config channel pre turn sub).1
      (notes ++ history a [.published a (answered config channel pre turn sub).2]) := by
  have hkept := h (numbered_of_append hnumbered)
  obtain ⟨hnum, -, hcase⟩ := answered_retransmission config channel pre turn sub
  by_cases hdata :
      (answered config channel pre turn sub).2.notificationMessage.notificationData = []
  · rw [if_pos hdata] at hcase
    have hnone : history a [.published a (answered config channel pre turn sub).2] = [] := by
      simp [history, Output.notes, hdata]
    rw [hnone, List.append_nil]
    exact hkept.congr ⟨hcase.1, hcase.2.1, hcase.2.2⟩
  · rw [if_neg hdata] at hcase
    have hone : history a [.published a (answered config channel pre turn sub).2] =
        [.sent (answered config channel pre turn sub).2.notificationMessage] := by
      simp [history, Output.notes, hdata]
    rw [hone] at hnumbered ⊢
    exact (hkept.addRetransmissionMessage hnum hnumbered).congr ⟨hcase.1, hcase.2.1, hcase.2.2⟩

omit [Inhabited V] in
theorem history_of_ne {a b : Nat} (hne : b ≠ a) (response : PublishResponse V) :
    history b [.published a response] = [] := by
  simp [history, Output.notes, Ne.symm hne]

theorem Retaining.changes (h : Retaining config.maxRetransmissionQueueSize sv log)
    (hch : Changes config sv outputs sv') :
    Retaining config.maxRetransmissionQueueSize sv' (log ++ outputs) ∧
      Trace.Always (Right config.maxRetransmissionQueueSize) log outputs := by
  induction hch generalizing log with
  | @frame sv sv' outputs hsubs hnext hout =>
    have hfind : ∀ a, subscriptionAt sv' a = subscriptionAt sv a := by
      intro a
      unfold subscriptionAt
      rw [hsubs]
    refine ⟨h.settle (h.wellFormed.congr hsubs hnext) hnext (fun a => history_of_elsewhere hout)
      fun a sub hsub => ⟨sub, hfind a ▸ hsub, rfl, rfl, rfl⟩, ?_⟩
    apply Trace.always_of_forall
    intro o ho past
    have helse := hout o ho
    cases o with
    | requested | queued | refused | drained => exact trivial
    | _ => exact helse.elim
  | settle sv a hf =>
    have hwf : WellFormed _ := h.wellFormed.changes (Changes.settle sv a hf : Changes config _ _ _)
    refine ⟨h.settle hwf (Nat.le_refl _) (fun _ => rfl) fun b sub' => ?_, Trace.always_nil _⟩
    exact sameMessages_of_modify (fun sub haddr => (hf sub).addr.trans haddr)
      fun sub => (hf sub).sameMessages
  | @publish sv a sub channel pre turn hsub =>
    have hwf := h.wellFormed.changes (Changes.publish sv channel pre turn hsub :
      Changes config _ _ _)
    have hkept := KeptBy.publish a channel pre turn (h.keptBy a sub hsub)
    refine ⟨h.modify ?_ hwf hsub (fun b hb => history_of_ne hb _) hkept, ?_⟩
    · exact fun _ _ => (addr_answered config channel pre turn sub).trans (addr_of_find hsub)
    · rw [Trace.always_cons]
      refine ⟨?_, Trace.always_nil _⟩
      intro hnumbered
      rw [history_append] at hnumbered ⊢
      rw [← (hkept hnumbered).queue]
      exact (answered_retransmission config channel pre turn sub).2.1
  | @acknowledge sv a sub sequenceNumber hsub =>
    have hwf := h.wellFormed.changes
      (Changes.acknowledge sv sequenceNumber hsub : Changes config _ _ _)
    have hack := fun hn => (h.keptBy a sub hsub hn).acknowledge sequenceNumber
    have hself : history a [Output.acknowledged (V := V) a sequenceNumber
        (removeRetransmissionMessage sub sequenceNumber).2] = [.acked sequenceNumber] := by
      simp [history, Output.notes]
    refine ⟨h.modify ?_ hwf hsub ?_ ?_, ?_⟩
    · exact fun sub haddr => (removeRetransmissionMessage_frame sub sequenceNumber).1.trans haddr
    · intro b hb
      simp [history, Output.notes, Ne.symm hb]
    · rw [hself]
      exact fun hn => (hack (numbered_of_append hn)).1
    · rw [Trace.always_cons]
      exact ⟨fun hn => (hack hn).2, Trace.always_nil _⟩
  | @republish sv a sub sequenceNumber copied hsub =>
    refine ⟨h.settle h.wellFormed (Nat.le_refl _) (fun _ => rfl)
      fun b sub' hsub' => ⟨sub', hsub', rfl, rfl, rfl⟩, ?_⟩
    rw [Trace.always_cons]
    refine ⟨fun hn => ⟨copied, ?_⟩, Trace.always_nil _⟩
    rw [← (h.keptBy a sub hsub hn).queue]
    rfl
  | @delete sv subscriptionID sub hsub =>
    have hwf := h.wellFormed.changes (Changes.delete sv hsub : Changes config _ _ _)
    refine ⟨h.settle hwf (Nat.le_refl _) (fun _ => rfl) fun b sub' hsub' => ?_, ?_⟩
    · by_cases hb : sub.addr = b
      · subst hb
        rw [subscriptionAt_remove_self h.wellFormed hsub] at hsub'
        cases hsub'
      · rw [subscriptionAt_remove_ne hsub hb] at hsub'
        exact ⟨sub', hsub', rfl, rfl, rfl⟩
    · rw [Trace.always_cons]
      exact ⟨trivial, Trace.always_nil _⟩
  | createSubscription sv settings subscriptionID =>
    have hwf := h.wellFormed.changes
      (Changes.createSubscription sv settings subscriptionID : Changes config _ _ _)
    refine ⟨⟨hwf, fun a ha => ?_, fun a sub hsub => ?_⟩, Trace.always_nil _⟩
    · rw [List.append_nil]
      exact h.unborn a (Nat.le_of_succ_le ha)
    · rw [List.append_nil]
      by_cases ha : sv.nextAddr = a
      · have hnew := subscriptionAt_cons_self sv
          (newSubscription config settings sv.nextAddr subscriptionID)
        subst ha
        have hsub' := hnew.symm.trans hsub
        rw [Option.some.injEq] at hsub'
        rw [h.unborn sv.nextAddr (Nat.le_refl _), ← hsub']
        exact fun _ => ⟨rfl, rfl, rfl, rfl⟩
      · rw [subscriptionAt_cons_ne ha] at hsub
        exact h.keptBy a sub hsub
  | createMonitoredItem sv a params =>
    have hwf := h.wellFormed.changes
      (Changes.createMonitoredItem sv a params : Changes config _ _ _)
    refine ⟨h.settle hwf (Nat.le_succ _) (fun _ => rfl) fun b sub' hsub' => ?_, Trace.always_nil _⟩
    have hsame : ∀ sub, SameMessages sub
        (Subscription.addMonitoredItem (V := V) config params sv.nextAddr sub) :=
      fun _ => ⟨rfl, rfl, rfl⟩
    have hkeep : ∀ sub, sub.addr = a →
        (Subscription.addMonitoredItem (V := V) config params sv.nextAddr sub).addr = a :=
      fun _ haddr => haddr
    exact sameMessages_of_modify hkeep hsame hsub'
  | trans _ _ ih ih₁ =>
    obtain ⟨hnext, hright⟩ := ih h
    obtain ⟨hnext₁, hright₁⟩ := ih₁ hnext
    rw [List.append_assoc] at hnext₁
    exact ⟨hnext₁, (Trace.always_append _ _ _).mpr ⟨hright, hright₁⟩⟩

theorem Retaining.step {enc : Encoder V} {e : Event V}
    (h : Retaining config.maxRetransmissionQueueSize sv log)
    (hstep : step config sv enc e = .ok (sv', outputs)) :
    Retaining config.maxRetransmissionQueueSize sv' (log ++ outputs) ∧
      Trace.Always (Right config.maxRetransmissionQueueSize) log outputs := by
  by_cases hsample : ∃ a m alloc value, e = .sample a m alloc value
  · obtain ⟨a, m, alloc, value, rfl⟩ := hsample
    have hwf := h.wellFormed.sample hstep
    obtain ⟨rfl, rfl⟩ | ⟨sub, mon, sampled, -, -, -, rfl, rfl⟩ := sampleCallback_cases hstep
    · exact ⟨by rwa [List.append_nil], Trace.always_nil _⟩
    · have hnone : ∀ b, history b (sampled.discarded.map (Output.discarded a m) ++
          if sampled.accepted then [Output.accepted a m value] else []) = [] := by
        intro b
        rw [history, List.flatMap_eq_nil_iff]
        intro o ho
        obtain ho | ho := List.mem_append.mp ho
        · obtain ⟨qv, -, rfl⟩ := List.mem_map.mp ho
          rfl
        · split at ho
          · rw [List.mem_singleton.mp ho]
            rfl
          · cases ho
      have hsame : ∀ sub, SameMessages sub (Subscription.setMonitoredItem m sampled.mon sub) :=
        fun _ => ⟨rfl, rfl, rfl⟩
      have hkeep : ∀ sub, sub.addr = a →
          (Subscription.setMonitoredItem m sampled.mon sub).addr = a := fun _ haddr => haddr
      refine ⟨h.settle hwf (Nat.le_refl _) hnone fun b sub' hsub' =>
        sameMessages_of_modify hkeep hsame hsub', ?_⟩
      apply Trace.always_of_forall
      intro o ho past
      obtain ho | ho := List.mem_append.mp ho
      · obtain ⟨qv, -, rfl⟩ := List.mem_map.mp ho
        exact trivial
      · split at ho
        · rw [List.mem_singleton.mp ho]
          exact trivial
        · cases ho
  · refine h.changes (step_changes h.wellFormed (fun a m alloc value he => hsample ?_) hstep)
    exact ⟨a, m, alloc, value, he⟩

/-- The retransmission queues are exact, for every run of the machine. While a subscription has
sent fewer than 2^32 messages its queue holds the messages kept of its history: its size is the
length, within the limit, and the numbers are strictly decreasing. Acknowledging a number takes out
its message and no other, republishing one returns the message as it was sent, and everything
answered along the way, in particular the available sequence numbers, was right at that time. -/
theorem retransmissionQueue_exact (config : Config) (enc : Encoder V) (timeout clock : Int)
    (es : List (Event V)) {sv : Server V} {replies : List (List (Output V))}
    (hrun : Runs.run (fun sv => step config sv enc) (Server.init timeout clock) es =
      .ok (sv, replies)) :
    (∀ a sub, subscriptionAt sv a = some sub → Numbered (history a replies.flatten) →
      sub.retransmissionQueue =
          kept config.maxRetransmissionQueueSize (history a replies.flatten) ∧
        sub.retransmissionQueue.Sublist (sents (history a replies.flatten)).reverse ∧
        sub.retransmissionQueueSize.toNat = sub.retransmissionQueue.length ∧
        (config.maxRetransmissionQueueSize ≠ 0 →
          sub.retransmissionQueueSize ≤ config.maxRetransmissionQueueSize) ∧
        (numbers sub.retransmissionQueue).Pairwise (· > ·) ∧
        ∀ sequenceNumber,
          (removeRetransmissionMessage sub sequenceNumber).1.retransmissionQueue =
              sub.retransmissionQueue.filter (·.sequenceNumber ≠ sequenceNumber) ∧
            (removeRetransmissionMessage sub sequenceNumber).2 =
              (if sequenceNumber ∈ numbers sub.retransmissionQueue then StatusCode.good
                else StatusCode.badSequenceNumberUnknown) ∧
            (∀ message ∈ sub.retransmissionQueue, message.sequenceNumber = sequenceNumber →
              republishAnswer sub sequenceNumber true = .ok message) ∧
            (sequenceNumber ∉ numbers sub.retransmissionQueue →
              republishAnswer sub sequenceNumber true = .error StatusCode.badMessageNotAvailable)) ∧
      Trace.Always (Right config.maxRetransmissionQueueSize) [] replies.flatten := by
  have hall : Retaining config.maxRetransmissionQueueSize sv
        (([] : List (List (Output V))) ++ replies).flatten ∧
      Trace.Always (Right config.maxRetransmissionQueueSize) []
        (([] : List (List (Output V))) ++ replies).flatten := by
    refine Runs.history_of_guarded (fun sv past =>
        Retaining config.maxRetransmissionQueueSize sv past.flatten ∧
          Trace.Always (Right config.maxRetransmissionQueueSize) [] past.flatten)
      ?_ es (Server.init timeout clock) sv [] replies
      ⟨retaining_init _ timeout clock, Trace.always_nil _⟩ (Runs.guarded_true _ es) hrun
    intro sv past e sv' outputs h _ hstep
    obtain ⟨hnext, hright⟩ := h.1.step hstep
    rw [List.flatten_concat]
    exact ⟨hnext, (Trace.always_append _ _ _).mpr ⟨h.2, by rwa [List.nil_append]⟩⟩
  rw [List.nil_append] at hall
  refine ⟨fun a sub hsub hnumbered => ?_, hall.2⟩
  have hkept := hall.1.keptBy a sub hsub hnumbered
  refine ⟨hkept.queue, ?_, hkept.size, ?_, hkept.decreasing, fun sequenceNumber => ?_⟩
  · rw [hkept.queue]
    exact retained_sublist _
  · intro hmax
    rw [UInt32.le_iff_toNat_le, hkept.size, hkept.queue]
    exact length_retained_le _ fun hzero => hmax (UInt32.toNat_inj.mp hzero)
  · obtain ⟨hnext, hresult⟩ := hkept.acknowledge sequenceNumber
    rw [← hkept.queue] at hresult
    refine ⟨?_, hresult, ?_, ?_⟩
    · rw [hnext.queue, hkept.queue]
      exact retained_concat _ _
    · intro message hmem hnum
      exact republishAnswer_of_mem hkept.decreasing hmem hnum
    · intro hnone
      unfold republishAnswer
      rw [List.find?_eq_none.mpr]
      intro message hmem
      have hne : message.sequenceNumber ≠ sequenceNumber := fun hnum =>
        hnone (hnum ▸ List.mem_map_of_mem hmem)
      simpa using hne

/-- A message that has been published is in the queue. -/
theorem retransmissionQueue_exact_published :
    ∃ sv replies sub,
      Runs.run (fun sv => step standardConfig sv byteEncoder) (Server.init 100 0)
          (sampledOnce true ++ [.publish ⟨5, 6, []⟩ ⟨true, true⟩ granted,
            .publishCallback 1 granted]) = .ok (sv, replies) ∧
        subscriptionAt sv 1 = some sub ∧ sub.retransmissionQueue.length = 1 ∧
        sub.retransmissionQueueSize.toNat = sub.retransmissionQueue.length := by
  have hreaches : Runs.Reaches (fun sv => step standardConfig sv byteEncoder) (Server.init 100 0)
      (sampledOnce true ++ [.publish ⟨5, 6, []⟩ ⟨true, true⟩ granted, .publishCallback 1 granted])
      fun sv replies => ((subscriptionAt sv 1).map fun sub => sub.retransmissionQueue.length) =
        some 1 ∧ (sents (history 1 replies.flatten)).length < 2 ^ 32 := by decide +kernel
  obtain ⟨sv, replies, hrun, hone, hnumbered⟩ := hreaches
  obtain ⟨sub, hsub, hlen⟩ := Option.map_eq_some_iff.mp hone
  exact ⟨sv, replies, sub, hrun, hsub, hlen,
    ((retransmissionQueue_exact standardConfig byteEncoder 100 0 _ hrun).1 1 sub hsub
      hnumbered).2.2.1⟩

end Publishing

end FactoryThing.Subscriptions
