import FactoryThing.Subscriptions.Sampling
import Mathlib

/-!
# The lifetime of a subscription

A subscription whose session hears nothing from the client is deleted by its publish callback
(`ua_subscription.c:438-478`): first the callbacks count up to a keep-alive, then the subscription
is late, and then they count its lifetime. They count neither when the session has no channel.
-/

namespace FactoryThing.Subscriptions

variable {V : Type}

/-- How many of the next `m` rounds without notifications end before the channel is looked at. -/
def quietRounds (keepAlive maxKeepAlive : UInt32) (m : Nat) : Nat :=
  (List.range m).countP fun i => keepAlive + UInt32.ofNat (i + 1) < maxKeepAlive

theorem quietRounds_succ (keepAlive maxKeepAlive : UInt32) (m : Nat) :
    quietRounds keepAlive maxKeepAlive (m + 1) =
      quietRounds keepAlive maxKeepAlive m +
        if keepAlive + UInt32.ofNat (m + 1) < maxKeepAlive then 1 else 0 := by
  rw [quietRounds, List.range_succ, List.countP_append, List.countP_singleton]
  refine congrArg (quietRounds keepAlive maxKeepAlive m + ·) ?_
  exact if_congr decide_eq_true_iff rfl rfl

theorem quietRounds_le (keepAlive maxKeepAlive : UInt32) {m : Nat} (hm : m ≤ 2 ^ 32) :
    quietRounds keepAlive maxKeepAlive m ≤ maxKeepAlive.toNat := by
  let value (i : Nat) : Nat := (keepAlive + UInt32.ofNat (i + 1)).toNat
  have hvalue : ∀ i, value i = (keepAlive.toNat + (i + 1)) % 2 ^ 32 := by
    intro i
    show (keepAlive + UInt32.ofNat (i + 1)).toNat = _
    rw [UInt32.toNat_add, UInt32.toNat_ofNat', Nat.add_mod_mod]
  have hcard : quietRounds keepAlive maxKeepAlive m =
      ((Finset.range m).filter fun i =>
        keepAlive + UInt32.ofNat (i + 1) < maxKeepAlive).card := by
    rw [quietRounds, List.countP_eq_length_filter]
    rfl
  rw [hcard, ← Finset.card_range maxKeepAlive.toNat]
  refine Finset.card_le_card_of_injOn value ?_ ?_
  · intro i hi
    rw [Finset.mem_coe, Finset.mem_filter] at hi
    rw [Finset.mem_coe, Finset.mem_range]
    exact UInt32.lt_iff_toNat_lt.mp hi.2
  · intro i hi j hj hij
    rw [Finset.mem_coe, Finset.mem_filter, Finset.mem_range] at hi hj
    rw [hvalue, hvalue] at hij
    omega

/-- What the counters say of a subscription since it was `start`: it had `m` rounds without
notifications, was found late `late` times for the first time, and then counted `counted` rounds. -/
structure Spent (start : Subscription V) (m late counted : Nat) (sub : Subscription V) : Prop where
  subscriptionID : sub.subscriptionID = start.subscriptionID
  maxKeepAliveCount : sub.maxKeepAliveCount = start.maxKeepAliveCount
  lifeTimeCount : sub.lifeTimeCount = start.lifeTimeCount
  keepAlive : sub.currentKeepAliveCount = start.currentKeepAliveCount + UInt32.ofNat m
  lifetime : sub.currentLifetimeCount.toNat = start.currentLifetimeCount.toNat + counted
  once : late ≤ 1
  notLate : sub.state ≠ .late → late = 0 ∧ counted = 0
  alive : 0 < counted →
    start.currentLifetimeCount.toNat + counted ≤ start.lifeTimeCount.toNat

/-- The rounds that end before the channel is looked at, since the subscription was `start`. -/
def Subscription.quiet (start : Subscription V) (m : Nat) : Nat :=
  quietRounds start.currentKeepAliveCount start.maxKeepAliveCount m

/-- The counters after `n` publish callbacks without a response: some of them were quiet, one made
the subscription late, and the others counted its lifetime. -/
def Tally (start : Subscription V) (n : Nat) (sub : Subscription V) : Prop :=
  n ≤ 2 ^ 32 ∧
    ∃ m late counted, Spent start m late counted sub ∧ m ≤ n ∧ n = start.quiet m + late + counted

/-- How many publish callbacks a subscription outlives at most. -/
def Subscription.patience (sub : Subscription V) : Nat :=
  sub.maxKeepAliveCount.toNat + sub.lifeTimeCount.toNat + 2

/-- The counters do not wrap around while the subscription is waiting. -/
structure Subscription.Counts (sub : Subscription V) : Prop where
  patience : sub.patience ≤ 2 ^ 32
  lifetime : sub.currentLifetimeCount.toNat + 1 < 2 ^ 32

variable {start sub : Subscription V} {n : Nat}

theorem tally_zero (start : Subscription V) : Tally start 0 start := by
  refine ⟨Nat.zero_le _, 0, 0, 0, ?_, Nat.le_refl 0, rfl⟩
  exact
    { subscriptionID := rfl
      maxKeepAliveCount := rfl
      lifeTimeCount := rfl
      keepAlive := (UInt32.add_zero _).symm
      lifetime := rfl
      once := Nat.zero_le 1
      notLate := fun _ => ⟨rfl, rfl⟩
      alive := fun h => absurd h (Nat.lt_irrefl 0) }

theorem Tally.lt_patience (h : Tally start n sub) : n < start.patience := by
  obtain ⟨hn, m, late, counted, hspent, hm, hsum⟩ := h
  have hquiet : start.quiet m ≤ start.maxKeepAliveCount.toNat :=
    quietRounds_le _ _ (Nat.le_trans hm hn)
  have hlate := hspent.once
  have hcounted : counted ≤ start.lifeTimeCount.toNat := by
    by_cases hpos : 0 < counted
    · exact Nat.le_trans (Nat.le_add_left _ _) (hspent.alive hpos)
    · omega
  unfold Subscription.patience
  omega

theorem withoutResponse_tally {m late counted : Nat} (hcounts : start.Counts) (hn : n + 1 ≤ 2 ^ 32)
    (hspent : Spent start m late counted sub) (hm : m ≤ n + 1)
    (hsum : n = start.quiet m + late + counted) :
    (withoutResponse sub).endOfLifetime = true ∨ Tally start (n + 1) (withoutResponse sub).sub := by
  unfold withoutResponse
  by_cases hstate : sub.state ≠ .late
  · rw [if_pos hstate]
    obtain ⟨rfl, rfl⟩ := hspent.notLate hstate
    refine .inr ⟨hn, m, 1, 0, ?_, hm, by omega⟩
    exact { hspent with once := Nat.le_refl 1, notLate := fun h => absurd rfl h }
  · rw [if_neg hstate]
    have hone : (1 : UInt32).toNat = 1 := rfl
    have hbound : start.currentLifetimeCount.toNat + counted + 1 < 2 ^ 32 := by
      by_cases hpos : 0 < counted
      · have halive := hspent.alive hpos
        have hpatience := hcounts.patience
        unfold Subscription.patience at hpatience
        omega
      · have hlifetime := hcounts.lifetime
        omega
    have hnext : (sub.currentLifetimeCount + 1).toNat =
        start.currentLifetimeCount.toNat + (counted + 1) := by
      rw [UInt32.toNat_add, hone, hspent.lifetime]
      exact Nat.mod_eq_of_lt hbound
    by_cases hend : sub.currentLifetimeCount + 1 > sub.lifeTimeCount
    · exact .inl (decide_eq_true hend)
    · refine .inr ⟨hn, m, late, counted + 1, ?_, hm, by omega⟩
      have hle : (sub.currentLifetimeCount + 1).toNat ≤ sub.lifeTimeCount.toNat :=
        UInt32.le_iff_toNat_le.mp (UInt32.not_lt.mp hend)
      rw [hnext, hspent.lifeTimeCount] at hle
      exact { hspent with
        lifetime := hnext
        notLate := fun h => absurd h hstate
        alive := fun _ => hle }

structure SameSubscription (sub sub' : Subscription V) : Prop where
  addr : sub'.addr = sub.addr
  subscriptionID : sub'.subscriptionID = sub.subscriptionID
  monitoredItems : sub'.monitoredItems = sub.monitoredItems

variable [Inhabited V]

theorem publishCallback_nil (max : UInt32) (channel : Option Nat) (turns : Nat → Turn)
    (sub : Subscription V) :
    SameSubscription sub (publishCallback max channel turns sub []).sub ∧
      (publishCallback max channel turns sub []).responseQueue = [] := by
  unfold publishCallback withoutResponse
  dsimp only
  split
  · split
    · exact ⟨⟨rfl, rfl, rfl⟩, rfl⟩
    · cases channel with
      | none => exact ⟨⟨rfl, rfl, rfl⟩, rfl⟩
      | some c =>
        dsimp only
        split
        · exact ⟨⟨rfl, rfl, rfl⟩, rfl⟩
        · exact ⟨⟨rfl, rfl, rfl⟩, rfl⟩
  · split
    · exact ⟨⟨rfl, rfl, rfl⟩, rfl⟩
    · cases channel with
      | none => exact ⟨⟨rfl, rfl, rfl⟩, rfl⟩
      | some c =>
        dsimp only
        split
        · exact ⟨⟨rfl, rfl, rfl⟩, rfl⟩
        · exact ⟨⟨rfl, rfl, rfl⟩, rfl⟩

omit [Inhabited V] in
theorem keepAlive_succ (start : Subscription V) (m : Nat) :
    start.currentKeepAliveCount + UInt32.ofNat m + 1 =
      start.currentKeepAliveCount + UInt32.ofNat (m + 1) := by
  rw [UInt32.add_assoc, UInt32.ofNat_add]
  rfl

theorem Tally.publishCallback (h : Tally start n sub) (hcounts : start.Counts) (max : UInt32)
    (channel : Nat) (turns : Nat → Turn) :
    (Subscriptions.publishCallback max (some channel) turns sub []).endOfLifetime = true ∨
      Tally start (n + 1) (Subscriptions.publishCallback max (some channel) turns sub []).sub := by
  have hn : n + 1 ≤ 2 ^ 32 := Nat.le_trans h.lt_patience hcounts.patience
  obtain ⟨-, m, late, counted, hspent, hm, hsum⟩ := h
  unfold Subscriptions.publishCallback
  by_cases hnone : (countQueuedNotifications sub).1 = 0
  · rw [if_pos hnone]
    have hnext : Spent start (m + 1) late counted
        { sub with currentKeepAliveCount := sub.currentKeepAliveCount + 1 } :=
      { hspent with
        keepAlive := by
          rw [hspent.keepAlive, keepAlive_succ] }
    have hquiet := quietRounds_succ start.currentKeepAliveCount start.maxKeepAliveCount m
    rw [← keepAlive_succ, ← hspent.keepAlive, ← hspent.maxKeepAliveCount] at hquiet
    by_cases hearly : sub.currentKeepAliveCount + 1 < sub.maxKeepAliveCount
    · rw [if_pos ⟨hnone, hearly⟩]
      rw [if_pos hearly, hspent.maxKeepAliveCount] at hquiet
      refine .inr ⟨hn, m + 1, late, counted, hnext, Nat.succ_le_succ hm, ?_⟩
      unfold Subscription.quiet at hsum ⊢
      omega
    · rw [if_neg fun hboth => hearly hboth.2]
      rw [if_neg hearly, hspent.maxKeepAliveCount] at hquiet
      refine withoutResponse_tally hcounts hn hnext (Nat.succ_le_succ hm) ?_
      unfold Subscription.quiet at hsum ⊢
      omega
  · rw [if_neg hnone, if_neg fun hboth => hnone hboth.1]
    exact withoutResponse_tally hcounts hn hspent (Nat.le_succ_of_le hm) hsum

/-- An event that is no message of the client. -/
def Event.FromServer : Event V → Prop
  | .sample .. | .publishCallback .. | .tick _ | .openChannel | .closeChannel .. |
    .delayedCallbacks => True
  | _ => False

/-- A publish callback of the subscription at an address. -/
def Event.isCallback (a : Nat) : Event V → Bool
  | .publishCallback b _ => b == a
  | _ => false

/-- No message of the client comes, and the session has a channel when the subscription
publishes. -/
def Connected (a : Nat) (sv : Server V) (e : Event V) : Prop :=
  e.FromServer ∧ (e.isCallback a = true → sv.channel ≠ none)

/-- A server without publish requests, whose subscription at an address, if it is still there, has
had `n` publish callbacks since it was `start`. -/
structure Abandoned (a : Nat) (start : Subscription V) (n : Nat) (sv : Server V) : Prop where
  wellFormed : WellFormed sv
  noRequests : sv.responseQueue = []
  unique : ∀ sub ∈ sv.serverSubscriptions, sub.subscriptionID = start.subscriptionID → sub.addr = a
  tally : ∀ sub, subscriptionAt sv a = some sub → Tally start n sub

variable {config : Config} {enc : Encoder V} {sv sv' : Server V} {outputs : List (Output V)}
  {a b n' : Nat}

omit [Inhabited V] in
theorem Abandoned.modify (h : Abandoned a start n sv) {f : Subscription V → Subscription V}
    (hwf : WellFormed (sv.modifySubscription b f))
    (hsame : ∀ sub, subscriptionAt sv b = some sub →
      (f sub).addr = sub.addr ∧ (f sub).subscriptionID = sub.subscriptionID)
    (htally : ∀ sub, subscriptionAt (sv.modifySubscription b f) a = some sub → Tally start n' sub) :
    Abandoned a start n' (sv.modifySubscription b f) where
  wellFormed := hwf
  noRequests := h.noRequests
  unique := by
    intro sub hmem hid
    obtain hmem | ⟨sub, hfind, rfl⟩ := Keyed.mem_modify hmem
    · exact h.unique sub hmem hid
    · obtain ⟨haddr, hsameId⟩ := hsame sub hfind
      rw [hsameId] at hid
      rw [haddr]
      exact h.unique sub (Keyed.mem_of_find hfind) hid
  tally := htally

omit [Inhabited V] in
theorem Abandoned.congr (h : Abandoned a start n sv)
    (hsubs : sv'.serverSubscriptions = sv.serverSubscriptions)
    (hnext : sv.nextAddr ≤ sv'.nextAddr) (hqueue : sv'.responseQueue = sv.responseQueue) :
    Abandoned a start n sv' where
  wellFormed := h.wellFormed.congr hsubs hnext
  noRequests := hqueue.trans h.noRequests
  unique sub hmem hid := h.unique sub (hsubs ▸ hmem) hid
  tally sub hsub := h.tally sub (by rw [subscriptionAt, ← hsubs]; exact hsub)

omit [Inhabited V] in
theorem Abandoned.sample (h : Abandoned a start n sv) {b m : Nat} {alloc : SampleAllocs}
    {value : DataValue V} (hstep : sampleCallback sv enc b m alloc value = .ok (sv', outputs)) :
    Abandoned a start n sv' := by
  have hwf := h.wellFormed.sample hstep
  obtain ⟨rfl, -⟩ | ⟨sub, mon, sampled, hsub, -, -, rfl, -⟩ := sampleCallback_cases hstep
  · exact h
  · have hkeep : ∀ sub, sub.addr = b →
        (Subscription.setMonitoredItem m sampled.mon sub).addr = b := fun _ haddr => haddr
    refine h.modify hwf (fun _ _ => ⟨rfl, rfl⟩) fun sub' hsub' => ?_
    by_cases hab : a = b
    · subst hab
      rw [subscriptionAt_modifySubscription_self sv hkeep, hsub] at hsub'
      cases hsub'
      obtain ⟨hn, m, late, counted, hspent, hle, hsum⟩ := h.tally sub hsub
      exact ⟨hn, m, late, counted, { hspent with }, hle, hsum⟩
    · rw [subscriptionAt_modifySubscription_ne hkeep hab] at hsub'
      exact h.tally sub' hsub'

theorem abandoned_deleteSubscription (config : Config) {subscriptionID : UInt32}
    (hwf : WellFormed sv) (hqueue : sv.responseQueue = [])
    (hunique : ∀ sub ∈ sv.serverSubscriptions,
      sub.subscriptionID = start.subscriptionID → sub.addr = a)
    (htally : ∀ sub, subscriptionAt sv a = some sub → Tally start n sub ∨
      sub.subscriptionID = subscriptionID ∧ subscriptionID = start.subscriptionID) :
    Abandoned a start n (deleteSubscription sv subscriptionID).1 := by
  unfold deleteSubscription
  cases hfind : getSubscriptionByID sv subscriptionID with
  | none =>
    refine ⟨hwf, hqueue, hunique, fun sub hsub => (htally sub hsub).resolve_right ?_⟩
    rintro ⟨hid, -⟩
    exact Keyed.find_eq_none_iff.mp hfind
      (hid ▸ List.mem_map_of_mem (Keyed.mem_of_find hsub))
  | some found =>
    refine ⟨hwf.changes (.delete sv hfind : Changes config sv _ _), hqueue, ?_, ?_⟩
    · exact fun sub hmem => hunique sub (List.mem_of_mem_eraseP hmem)
    · intro sub hsub
      have hne : found.addr ≠ a := by
        intro haddr
        have hgone := subscriptionAt_remove_self hwf hfind
        rw [haddr] at hgone
        rw [hgone] at hsub
        cases hsub
      rw [subscriptionAt_remove_ne hfind hne] at hsub
      refine (htally sub hsub).resolve_right ?_
      rintro ⟨-, hid⟩
      have hfoundId : found.subscriptionID = subscriptionID := Keyed.key_of_find hfind
      exact hne (hunique found (Keyed.mem_of_find hfind) (hfoundId.trans hid))

theorem Abandoned.publish (h : Abandoned a start n sv) (hcounts : start.Counts)
    (turns : Nat → Turn) (hchannel : b = a → sv.channel ≠ none) :
    Abandoned a start (if b = a then n + 1 else n) (Subscriptions.publish config sv b turns).1 := by
  cases hsub : subscriptionAt sv b with
  | none =>
    have hstays : Subscriptions.publish config sv b turns = (sv, []) := by
      unfold Subscriptions.publish
      rw [show Keyed.find Subscription.addr sv.serverSubscriptions b = none from hsub]
    rw [hstays]
    refine ⟨h.wellFormed, h.noRequests, h.unique, fun sub hsub' => ?_⟩
    by_cases hab : b = a
    · rw [hab] at hsub
      rw [hsub] at hsub'
      cases hsub'
    · rw [if_neg hab]
      exact h.tally sub hsub'
  | some sub =>
    unfold Subscriptions.publish
    rw [show Keyed.find Subscription.addr sv.serverSubscriptions b = some sub from hsub,
      h.noRequests]
    dsimp only
    have hnil := publishCallback_nil config.maxRetransmissionQueueSize sv.channel turns sub
    generalize hpublished :
      publishCallback config.maxRetransmissionQueueSize sv.channel turns sub [] = published
      at hnil ⊢
    obtain ⟨hsame, hqueue⟩ := hnil
    have haddr : published.sub.addr = b := hsame.addr.trans (addr_of_find hsub)
    have hkeep : ∀ other : Subscription V, other.addr = b → published.sub.addr = b :=
      fun _ _ => haddr
    have hstart : { sv with responseQueue := published.responseQueue } = sv := by
      rw [hqueue, ← h.noRequests]
    rw [hstart]
    have hwf : WellFormed (sv.modifySubscription b fun _ => published.sub) := by
      refine h.wellFormed.modify_of_map_addr hkeep fun other hother => ?_
      rw [hsub] at hother
      cases hother
      rw [hsame.monitoredItems]
    have hunique : ∀ other ∈ (sv.modifySubscription b fun _ => published.sub).serverSubscriptions,
        other.subscriptionID = start.subscriptionID → other.addr = a := by
      intro other hmem hid
      obtain hmem | ⟨_, hfind, rfl⟩ := Keyed.mem_modify hmem
      · exact h.unique other hmem hid
      · rw [hsame.subscriptionID] at hid
        rw [hsame.addr]
        exact h.unique sub (Keyed.mem_of_find hsub) hid
    -- the subscription that is watched, after its own callback or another one
    have htally : ∀ other, subscriptionAt (sv.modifySubscription b fun _ => published.sub) a =
        some other → Tally start (if b = a then n + 1 else n) other ∨
          b = a ∧ other = published.sub ∧ published.endOfLifetime = true := by
      intro other hother
      by_cases hab : b = a
      · subst hab
        rw [subscriptionAt_modifySubscription_self sv hkeep, hsub] at hother
        cases hother
        obtain ⟨channel, hsome⟩ := Option.ne_none_iff_exists'.mp (hchannel rfl)
        rw [hsome] at hpublished
        obtain hend | hcounted := (h.tally sub hsub).publishCallback hcounts
          config.maxRetransmissionQueueSize channel turns
        · rw [hpublished] at hend
          exact .inr ⟨rfl, rfl, hend⟩
        · rw [hpublished] at hcounted
          rw [if_pos rfl]
          exact .inl hcounted
      · rw [subscriptionAt_modifySubscription_ne hkeep (Ne.symm hab)] at hother
        rw [if_neg hab]
        exact .inl (h.tally other hother)
    by_cases hend : published.endOfLifetime = true
    · rw [if_pos hend]
      refine abandoned_deleteSubscription config hwf h.noRequests hunique
        fun other hother => ?_
      refine (htally other hother).imp id ?_
      rintro ⟨rfl, rfl, -⟩
      obtain ⟨-, _, _, _, hspent, -⟩ := h.tally sub hsub
      exact ⟨rfl, hsame.subscriptionID.trans hspent.subscriptionID⟩
    · rw [if_neg hend]
      refine ⟨hwf, h.noRequests, hunique, fun other hother => ?_⟩
      exact (htally other hother).resolve_right fun hno => hend hno.2.2

omit [Inhabited V] in
theorem processDelayedCallbacks_frame (ds : List Delayed) (hqueue : sv.responseQueue = [])
    (h : processDelayedCallbacks ds sv = .ok (sv', outputs)) :
    sv'.serverSubscriptions = sv.serverSubscriptions ∧ sv'.nextAddr = sv.nextAddr ∧
      sv'.responseQueue = [] := by
  induction ds generalizing sv outputs with
  | nil =>
    cases h
    exact ⟨rfl, rfl, hqueue⟩
  | cons d ds ih =>
    have hround : ∀ {sv₁ outputs₁}, runDelayed { sv with delayedCallbacks := ds } d =
        .ok (sv₁, outputs₁) → sv₁.serverSubscriptions = sv.serverSubscriptions ∧
          sv₁.nextAddr = sv.nextAddr ∧ sv₁.responseQueue = [] := by
      intro sv₁ outputs₁ hrun
      cases d with
      | answerPublishRequestsNoSubscription =>
        have hskip : sv.clock > sv.validTill ∨ sv.serverSubscriptions ≠ [] ∨
            sv.responseQueue = [] := .inr (.inr hqueue)
        rw [runDelayed, answerPublishRequestsNoSubscription, if_pos hskip] at hrun
        cases hrun
        exact ⟨rfl, rfl, hqueue⟩
      | removeSecureChannelCallback c =>
        cases hrun
        exact ⟨rfl, rfl, hqueue⟩
    rw [processDelayedCallbacks] at h
    cases hrun : runDelayed { sv with delayedCallbacks := ds } d with
    | error breakdown =>
      rw [hrun] at h
      cases h
    | ok p =>
      obtain ⟨sv₁, outputs₁⟩ := p
      rw [hrun] at h
      dsimp only at h
      obtain ⟨hsubs, hnext, hqueue₁⟩ := hround hrun
      cases hrest : processDelayedCallbacks ds sv₁ with
      | error breakdown =>
        rw [hrest] at h
        cases h
      | ok q =>
        rw [hrest] at h
        cases h
        obtain ⟨hsubs', hnext', hqueue'⟩ := ih hqueue₁ hrest
        exact ⟨hsubs'.trans hsubs, hnext'.trans hnext, hqueue'⟩

omit [Inhabited V] in
theorem removeSecureChannel_frame (sv : Server V) (c : Nat) (alloc : Bool) :
    (removeSecureChannel sv c alloc).serverSubscriptions = sv.serverSubscriptions ∧
      (removeSecureChannel sv c alloc).nextAddr = sv.nextAddr ∧
      (removeSecureChannel sv c alloc).responseQueue = sv.responseQueue := by
  unfold removeSecureChannel
  split
  · exact ⟨rfl, rfl, rfl⟩
  · exact ⟨rfl, rfl, rfl⟩

theorem Abandoned.step (h : Abandoned a start n sv) (hcounts : start.Counts) {e : Event V}
    (hconnected : Connected a sv e)
    (hstep : Subscriptions.step config sv enc e = .ok (sv', outputs)) :
    Abandoned a start (n + if e.isCallback a then 1 else 0) sv' := by
  obtain ⟨hserver, hchannel⟩ := hconnected
  cases e with
  | sample b m alloc value => exact h.sample hstep
  | publishCallback b turns =>
    have hpair := Except.ok.inj hstep
    have hsv : (Subscriptions.publish config sv b turns).1 = sv' := congrArg Prod.fst hpair
    have hcounted : Abandoned a start (if b = a then n + 1 else n)
        (Subscriptions.publish config sv b turns).1 :=
      h.publish hcounts turns fun hab => hchannel (beq_iff_eq.mpr hab)
    rw [hsv] at hcounted
    by_cases hab : b = a
    · rw [if_pos hab] at hcounted
      rw [if_pos (show Event.isCallback a (.publishCallback b turns : Event V) = true from
        beq_iff_eq.mpr hab)]
      exact hcounted
    · rw [if_neg hab] at hcounted
      rw [if_neg (show ¬ Event.isCallback a (.publishCallback b turns : Event V) = true from
        fun heq => hab (beq_iff_eq.mp heq))]
      exact hcounted
  | tick elapsed =>
    cases hstep
    exact h.congr rfl (Nat.le_refl _) rfl
  | openChannel =>
    cases hstep
    exact h.congr rfl (Nat.le_succ _) rfl
  | closeChannel c alloc =>
    cases hstep
    obtain ⟨hsubs, hnext, hqueue⟩ := removeSecureChannel_frame sv c alloc
    exact h.congr hsubs (Nat.le_of_eq hnext.symm) hqueue
  | delayedCallbacks =>
    obtain ⟨hsubs, hnext, hqueue⟩ := processDelayedCallbacks_frame _ h.noRequests hstep
    exact h.congr hsubs (Nat.le_of_eq hnext.symm) (hqueue.trans h.noRequests.symm)
  | publish => exact hserver.elim
  | republish => exact hserver.elim
  | createSubscription => exact hserver.elim
  | createMonitoredItem | deleteSubscriptions | activateSession => exact hserver.elim

theorem Abandoned.run (hcounts : start.Counts) {events : List (Event V)}
    {log : List (List (Output V))} (h : Abandoned a start n sv)
    (hconnected :
      Runs.Guarded (fun sv e => Subscriptions.step config sv enc e) (Connected a) sv events)
    (hrun : Runs.run (fun sv e => Subscriptions.step config sv enc e) sv events = .ok (sv', log)) :
    Abandoned a start (n + events.countP (Event.isCallback a)) sv' := by
  induction events generalizing n sv log with
  | nil =>
    cases hrun
    exact h
  | cons e events ih =>
    obtain ⟨hguard, hguards⟩ := hconnected
    rw [Runs.run] at hrun
    cases hstep : Subscriptions.step config sv enc e with
    | error breakdown =>
      simp only [hstep] at hrun
      cases hrun
    | ok p =>
      obtain ⟨sv₁, outputs⟩ := p
      simp only [hstep] at hrun hguards
      cases hrest : Runs.run (fun sv e => Subscriptions.step config sv enc e) sv₁ events with
      | error breakdown =>
        rw [hrest] at hrun
        cases hrun
      | ok q =>
        rw [hrest] at hrun
        cases hrun
        have hnext := ih (h.step hcounts hguard hstep) hguards hrest
        rw [List.countP_cons, Nat.add_comm (List.countP _ events), ← Nat.add_assoc]
        exact hnext

/-- A subscription whose session has a channel whenever the subscription publishes, but hears
nothing from the client and has no publish requests, is deleted at the latest by its publish
callback number `maxKeepAliveCount + lifeTimeCount + 2`, in every run from every state reached. -/
theorem deleted_of_connected (config : Config) (enc : Encoder V) (timeout clock : Int)
    {past future : List (Event V)} {sv sv' : Server V} {replies replies' : List (List (Output V))}
    {a : Nat} {sub : Subscription V}
    (hpast :
      Runs.run (fun sv => Subscriptions.step config sv enc) (Server.init timeout clock) past =
        .ok (sv, replies))
    (hsub : subscriptionAt sv a = some sub) (hqueue : sv.responseQueue = [])
    (hunique : ∀ other ∈ sv.serverSubscriptions,
      other.subscriptionID = sub.subscriptionID → other.addr = a)
    (hcounts : sub.Counts)
    (hconnected : Runs.Guarded (fun sv => Subscriptions.step config sv enc) (Connected a) sv future)
    (hfuture : Runs.run (fun sv => Subscriptions.step config sv enc) sv future =
      .ok (sv', replies'))
    (hlong : sub.patience ≤ future.countP (Event.isCallback a)) :
    subscriptionAt sv' a = none := by
  have hwf : WellFormed sv :=
    Runs.invariant_of_guarded (fun _ _ _ _ hwf _ hstep => WellFormed.step hwf hstep) past
      (Server.init timeout clock) sv replies (wellFormed_init timeout clock)
      (Runs.guarded_true _ past) hpast
  have habandoned : Abandoned a sub 0 sv := by
    refine ⟨hwf, hqueue, hunique, fun sub' hsub' => ?_⟩
    rw [hsub] at hsub'
    cases hsub'
    exact tally_zero sub
  have hlast := habandoned.run hcounts hconnected hfuture
  rw [Nat.zero_add] at hlast
  cases hsub' : subscriptionAt sv' a with
  | none => rfl
  | some sub' => exact absurd (hlast.tally sub' hsub').lt_patience (Nat.not_lt.mpr hlong)

instance decidableFromServer : DecidablePred (Event.FromServer : Event V → Prop)
  | .sample .. | .publishCallback .. | .tick _ | .openChannel | .closeChannel .. |
    .delayedCallbacks => isTrue trivial
  | .publish .. | .republish .. | .createSubscription .. | .createMonitoredItem .. |
    .deleteSubscriptions .. | .activateSession .. => isFalse id

instance decidableConnected (a : Nat) (sv : Server V) (e : Event V) :
    Decidable (Connected a sv e) :=
  inferInstanceAs (Decidable (_ ∧ _))

/-- A subscription that is given up at once: one callback for the keep-alive, one that finds it
late, and four to the end of its lifetime. -/
theorem deleted_of_connected_atOnce :
    ∃ sv replies,
      Runs.run (fun sv => Subscriptions.step standardConfig sv byteEncoder)
        (Server.init 100 0 : Server Nat) [.createSubscription ⟨true, 3, 1, 0⟩ true] =
          .ok (sv, replies) ∧
        ∃ sv' replies',
          Runs.run (fun sv => Subscriptions.step standardConfig sv byteEncoder) sv
            (List.replicate 6 (.publishCallback 1 granted)) = .ok (sv', replies') ∧
          subscriptionAt sv' 1 = none := by
  have hreaches : Runs.Reaches (fun sv => Subscriptions.step standardConfig sv byteEncoder)
      (Server.init 100 0 : Server Nat) [.createSubscription ⟨true, 3, 1, 0⟩ true]
      fun sv _ => sv.serverSubscriptions = [newSubscription standardConfig ⟨true, 3, 1, 0⟩ 1 1] ∧
        sv.responseQueue = [] ∧
        Runs.Guarded (fun sv => Subscriptions.step standardConfig sv byteEncoder) (Connected 1) sv
          (List.replicate 6 (.publishCallback 1 granted)) ∧
        Runs.Reaches (fun sv => Subscriptions.step standardConfig sv byteEncoder) sv
          (List.replicate 6 (.publishCallback 1 granted)) fun _ _ => True := by decide +kernel
  obtain ⟨sv, replies, hpast, hsubs, hqueue, hconnected, sv', replies', hfuture, -⟩ := hreaches
  have hsub : subscriptionAt sv 1 = some (newSubscription standardConfig ⟨true, 3, 1, 0⟩ 1 1) := by
    rw [subscriptionAt, hsubs]
    decide
  refine ⟨sv, replies, hpast, sv', replies', hfuture, ?_⟩
  refine deleted_of_connected standardConfig byteEncoder 100 0 hpast hsub hqueue ?_ ?_ hconnected
    hfuture ?_
  · rw [hsubs]
    decide
  · exact ⟨by decide, by decide⟩
  · decide

/-- Once its channel is gone the same subscription outlives its callbacks: the callback returns
before it counts the lifetime. -/
theorem disconnected_stays :
    Runs.Reaches (fun sv => Subscriptions.step standardConfig sv byteEncoder)
      (Server.init 100 0 : Server Nat)
      [.createSubscription ⟨true, 3, 1, 0⟩ true, .closeChannel 0 true, .delayedCallbacks]
      fun sv _ => sv.responseQueue = [] ∧ sv.channel = none ∧
        (subscriptionAt sv 1).map Subscription.patience = some 6 ∧
        Runs.Reaches (fun sv => Subscriptions.step standardConfig sv byteEncoder) sv
          (List.replicate 6 (.publishCallback 1 granted)) fun sv' _ =>
            (subscriptionAt sv' 1).isSome := by decide +kernel

end FactoryThing.Subscriptions
