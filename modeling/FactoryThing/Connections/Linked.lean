import FactoryThing.Connections.Upkeep
import FactoryThing.Lib.Partners

/-!
# Channels and connections point at each other

A channel and its connection point at each other until one of them goes away, and then neither does.
There is one exception. A client may ask for a new channel on the channel it has: the connection
gets the new channel, while the old one keeps pointing at the connection.
-/

namespace FactoryThing.Connections

open Sessions SecureChannel

variable {cm cm' : SecureChannelManager} {config : Config} {maxSecureChannels : UInt16}

/-- `channel->connection` is `k` exactly when `k->channel` is that channel. -/
def Linked (cm : SecureChannelManager) : Prop :=
  Partners.Mutual cm.connectionOf cm.channelOf

theorem linked_init (config : Config) (clock : Int) (maxSecureChannels : UInt16)
    (maxSecurityTokenLifetime : UInt32) :
    Linked (SecureChannelManager.init config clock maxSecureChannels maxSecurityTokenLifetime) :=
  fun _ _ => ⟨nofun, nofun⟩

theorem Upkeep.linked_iff (h : Upkeep cm cm') : Linked cm' ↔ Linked cm := by
  unfold Linked
  rw [h.connectionOf, h.channelOf]

theorem channelOf_detach (cm : SecureChannelManager) (k : Nat) :
    (detachSecureChannel cm k).channelOf = Function.update cm.channelOf k none := by
  have hsame : ∀ cm : SecureChannelManager,
      (cm.modifyConnection k fun conn => { conn with channel := none }).channelOf =
        Function.update cm.channelOf k none := by
    intro cm
    rw [channelOf_modifyConnection]
    cases cm.connectionAt k <;> rfl
  unfold detachSecureChannel
  rw [hsame]
  split
  · rfl
  · split <;> rfl

theorem connectionOf_detach (h : Linked cm) (k : Nat) :
    (detachSecureChannel cm k).connectionOf =
      match cm.channelOf k with
      | none => cm.connectionOf
      | some c => Function.update cm.connectionOf c none := by
  unfold detachSecureChannel
  cases hk : cm.channelOf k with
  | none => rfl
  | some c =>
    have hc : cm.connectionOf c = some k := (h c k).mpr hk
    dsimp only
    rw [if_pos hc]
    show (cm.modifyChannel c fun ch => { ch with connection := none }).connectionOf = _
    rw [connectionOf_modifyChannel]
    cases cm.channelAt c <;> rfl

theorem Linked.detach (h : Linked cm) (k : Nat) : Linked (detachSecureChannel cm k) := by
  unfold Linked
  rw [channelOf_detach, connectionOf_detach h]
  cases hk : cm.channelOf k with
  | none =>
    rw [Function.update_eq_self_iff.mpr hk.symm]
    exact h
  | some c => exact Partners.Mutual.part h ((h c k).mpr hk)

theorem server_detach (cm : SecureChannelManager) (k : Nat) :
    (detachSecureChannel cm k).server = cm.server := by
  unfold detachSecureChannel
  split
  · rfl
  · split <;> rfl

theorem Memory.detach (h : Memory cm) (k : Nat) : Memory (detachSecureChannel cm k) := by
  unfold detachSecureChannel
  split
  · exact h.modifyConnection k _
  · split
    · exact (h.modifyChannel _ _).modifyConnection k _
    · exact h.modifyConnection k _

theorem Sound.detach (h : Sound cm) (k : Nat) : Sound (detachSecureChannel cm k) := by
  refine ⟨h.toMemory.detach k, ?_⟩
  rw [server_detach]
  exact h.wellLinked

/-! ## Freeing -/

theorem Linked.freeConnection (h : Linked cm) {k : Nat} (hk : cm.channelOf k = none) :
    Linked { cm with connectionAt := Function.update cm.connectionAt k none } := by
  have hsame : SecureChannelManager.channelOf
      { cm with connectionAt := Function.update cm.connectionAt k none } = cm.channelOf := by
    funext l
    by_cases hl : l = k
    · subst hl
      simpa [SecureChannelManager.channelOf] using hk.symm
    · simp [SecureChannelManager.channelOf, hl]
  intro c l
  rw [hsame]
  exact h c l

theorem linked_removeConnection (h : Linked cm) (k : Nat) : Linked (step cm (.remove k)) := by
  refine (h.detach k).freeConnection ?_
  rw [channelOf_detach]
  exact Function.update_self k none cm.channelOf

theorem Linked.deleteMembersCleanup (h : Linked cm) (c : Nat) :
    Linked (deleteMembersCleanup cm c) := by
  have hfree : ∀ cm : SecureChannelManager, Linked cm → cm.connectionOf c = none → ∀ sv,
      Linked { cm with server := sv, channelAt := Function.update cm.channelAt c none } := by
    intro cm h hc sv
    have hsame : SecureChannelManager.connectionOf
        { cm with server := sv, channelAt := Function.update cm.channelAt c none } =
          cm.connectionOf := by
      funext d
      by_cases hd : d = c
      · subst hd
        simpa [SecureChannelManager.connectionOf] using hc.symm
      · simp [SecureChannelManager.connectionOf, hd]
    intro d l
    rw [hsame]
    exact h d l
  unfold Connections.deleteMembersCleanup
  cases hc : cm.connectionOf c with
  | none => exact hfree cm h hc _
  | some k =>
    refine hfree _ (h.detach k) ?_ _
    rw [connectionOf_detach h, (h c k).mp hc]
    exact Function.update_self c none cm.connectionOf

theorem server_deleteMembersCleanup (cm : SecureChannelManager) (c : Nat) :
    (deleteMembersCleanup cm c).server = removeSecureChannelCallback cm.server c := by
  unfold deleteMembersCleanup
  cases cm.connectionOf c with
  | none => rfl
  | some k =>
    show removeSecureChannelCallback (detachSecureChannel cm k).server c = _
    rw [server_detach]

theorem channelLive_removeSecureChannelCallback (sv : Server) (c d : Nat) :
    channelLive (removeSecureChannelCallback sv c) d =
      if d = c then false else channelLive sv d := by
  obtain ⟨-, -, hchannels, -⟩ := detachAll_eq ((sv.channelAt c).map Channel.sessions |>.getD []) sv
  unfold removeSecureChannelCallback channelLive
  by_cases hd : d = c
  · simp [hd]
  · simp [hd, hchannels]

theorem Memory.deleteMembersCleanup (h : Memory cm) (c : Nat) :
    Memory (deleteMembersCleanup cm c) := by
  have hfree : ∀ cm : SecureChannelManager, Memory cm →
      Memory { cm with
        server := removeSecureChannelCallback cm.server c
        channelAt := Function.update cm.channelAt c none } := by
    intro cm h
    refine ⟨fun d => ?_, h.freshConnection⟩
    dsimp only
    rw [channelLive_removeSecureChannelCallback]
    by_cases hd : d = c
    · simp [hd]
    · simpa [hd] using h.live d
  unfold Connections.deleteMembersCleanup
  split
  · exact hfree cm h
  · exact hfree _ (h.detach _)

theorem Linked.runCallback (h : Linked cm) (d : Delayed) : Linked (runCallback cm d) := by
  cases d with
  | removeSessionCallback s => exact fun c k => h c k
  | removeSecureChannelCallback c => exact h.deleteMembersCleanup c

theorem Memory.runCallback (h : Memory cm) (d : Delayed) : Memory (runCallback cm d) := by
  cases d with
  | removeSessionCallback s =>
    have hlive := (sessionWork_removeSessionCallback cm.server s).channelLive
    exact ⟨fun c => (h.live c).trans (hlive c).symm, h.freshConnection⟩
  | removeSecureChannelCallback c => exact h.deleteMembersCleanup c

theorem server_runCallback (cm : SecureChannelManager) (d : Delayed) :
    (runCallback cm d).server = runDelayed cm.server d := by
  cases d with
  | removeSessionCallback s => rfl
  | removeSecureChannelCallback c => exact server_deleteMembersCleanup cm c

theorem server_runCallbacks (ds : List Delayed) :
    ∀ cm, (runCallbacks ds cm).server = processDelayedCallbacks ds cm.server := by
  induction ds with
  | nil => exact fun _ => rfl
  | cons d ds ih =>
    intro cm
    rw [runCallbacks, ih, server_runCallback]
    rfl

theorem Linked.runCallbacks (ds : List Delayed) :
    ∀ {cm}, Linked cm → Linked (runCallbacks ds cm) := by
  induction ds with
  | nil => exact fun h c k => h c k
  | cons d ds ih =>
    intro cm h
    refine ih (Linked.runCallback ?_ d)
    exact fun c k => h c k

theorem Memory.runCallbacks (ds : List Delayed) :
    ∀ {cm}, Memory cm → Memory (runCallbacks ds cm) := by
  induction ds with
  | nil => exact fun h => ⟨h.live, h.freshConnection⟩
  | cons d ds ih =>
    intro cm h
    refine ih (Memory.runCallback ?_ d)
    exact ⟨h.live, h.freshConnection⟩

theorem Sound.processDelayed (h : Sound cm) :
    Sound (runCallbacks cm.server.delayedCallbacks cm) := by
  refine ⟨h.toMemory.runCallbacks _, ?_⟩
  rw [server_runCallbacks]
  exact h.wellLinked.processDelayedCallbacks _ rfl

/-- A purge makes room exactly if some channel has no session. -/
def HasRoom (cm : SecureChannelManager) : Prop :=
  cm.currentChannelCount < cm.maxSecureChannels.toUInt32 ∨
    ∃ c ∈ cm.server.channels, entries cm.server c = []

/-- The conditions `UA_SecureChannelManager_open` makes. -/
def Opens (cm : SecureChannelManager) (request : OpenSecureChannelRequest) (alloc : OpenAlloc) :
    Prop :=
  request.securityMode = securityModeNone ∧ HasRoom cm ∧ alloc.entry = true

/-- If the counters of `cm` are right, `cm₁` has room for another channel. -/
def Roomy (cm cm₁ : SecureChannelManager) : Prop :=
  ∀ config maxSecureChannels, Counts config maxSecureChannels cm →
    cm₁.server.channels.length < maxSecureChannels.toNat

theorem purge_iff (cm : SecureChannelManager) (alloc : Bool) :
    (purgeFirstChannelWithoutSession cm alloc).2 = true ↔
      ∃ c ∈ cm.server.channels, entries cm.server c = [] := by
  unfold purgeFirstChannelWithoutSession
  split
  · next hfind =>
    refine iff_of_false nofun fun hex => ?_
    obtain ⟨c, hc, hempty⟩ := hex
    have hnot := List.find?_eq_none.mp hfind c hc
    simp [hempty] at hnot
  · next channel hfind =>
    refine iff_of_true rfl ⟨channel, List.mem_of_find?_eq_some hfind, ?_⟩
    simpa using List.find?_some hfind

theorem length_purge (h : Counts config maxSecureChannels cm)
    (hpurged : (purgeFirstChannelWithoutSession cm true).2 = true) :
    (purgeFirstChannelWithoutSession cm true).1.server.channels.length <
      maxSecureChannels.toNat := by
  have hbound := h.bound
  unfold purgeFirstChannelWithoutSession at hpurged ⊢
  split at hpurged
  · cases hpurged
  · next channel hfind =>
    have hmem := List.mem_of_find?_eq_some hfind
    have hlength := List.length_erase_of_mem hmem
    have hpos := List.length_pos_of_mem hmem
    simp only [removeChannel, if_true, removeSecureChannel_of_mem hmem]
    omega

theorem managerOpen_cases (cm : SecureChannelManager) (k : Nat)
    (request : OpenSecureChannelRequest) (alloc : OpenAlloc) :
    ∃ cm₁, Upkeep cm cm₁ ∧ cm₁.connectionAt = cm.connectionAt ∧
      ((Opens cm request alloc ∧ (alloc.delayed = true → Roomy cm cm₁) ∧
          (managerOpen cm k request alloc).1 = addChannel cm₁ k request.requestedLifetime) ∨
        (¬ Opens cm request alloc ∧ (managerOpen cm k request alloc).1 = cm₁)) := by
  unfold managerOpen
  by_cases hmode : request.securityMode = securityModeNone
  · rw [if_neg (not_not_intro hmode)]
    by_cases hfull : cm.currentChannelCount ≥ cm.maxSecureChannels.toUInt32
    · have hroom : HasRoom cm ↔ (purgeFirstChannelWithoutSession cm alloc.delayed).2 = true := by
        rw [purge_iff]
        exact or_iff_right (UInt32.not_lt.mpr hfull)
      have hconnections : (purgeFirstChannelWithoutSession cm alloc.delayed).1.connectionAt =
          cm.connectionAt := by
        unfold purgeFirstChannelWithoutSession removeChannel
        split
        · rfl
        · split <;> rfl
      rw [if_pos hfull]
      dsimp only
      refine ⟨_, upkeep_purge cm alloc.delayed, hconnections, ?_⟩
      by_cases halloc : (purgeFirstChannelWithoutSession cm alloc.delayed).2 = true ∧ alloc.entry
      · rw [if_pos halloc]
        refine Or.inl ⟨⟨hmode, hroom.mpr halloc.1, halloc.2⟩, fun hdelayed => ?_, rfl⟩
        rw [hdelayed] at halloc ⊢
        exact fun _ _ h => length_purge h halloc.1
      · rw [if_neg halloc]
        exact Or.inr ⟨fun h => halloc ⟨hroom.mp h.2.1, h.2.2⟩, rfl⟩
    · rw [if_neg hfull]
      dsimp only
      refine ⟨cm, Upkeep.refl cm, rfl, ?_⟩
      by_cases halloc : alloc.entry = true
      · rw [if_pos ⟨rfl, halloc⟩]
        have hlt := UInt32.not_le.mp hfull
        refine Or.inl ⟨⟨hmode, Or.inl hlt, halloc⟩, fun _ config maxSecureChannels h => ?_, rfl⟩
        rw [UInt32.lt_iff_toNat_lt, h.count, h.max_eq] at hlt
        exact hlt
      · rw [if_neg fun h => halloc h.2]
        exact Or.inr ⟨fun h => halloc h.2.2, rfl⟩
  · rw [if_pos hmode]
    exact ⟨cm, Upkeep.refl cm, rfl, Or.inr ⟨fun h => hmode h.1, rfl⟩⟩

theorem addChannel_eq {k : Nat} (hk : (cm.connectionAt k).isSome = true)
    (requestedLifetime : UInt32) :
    (addChannel cm k requestedLifetime).connectionOf =
        Function.update cm.connectionOf cm.server.nextAddr (some k) ∧
      (addChannel cm k requestedLifetime).channelOf =
        Function.update cm.channelOf k (some cm.server.nextAddr) := by
  have hnew : (newChannel cm requestedLifetime).connectionOf cm.server.nextAddr = none := by
    simp [newChannel, SecureChannelManager.connectionOf]
  unfold addChannel attachSecureChannel
  rw [if_pos hnew]
  constructor
  · show (SecureChannelManager.modifyChannel _ _ _).connectionOf = _
    rw [connectionOf_modifyChannel]
    funext c
    by_cases hc : c = cm.server.nextAddr
    · simp [hc, newChannel]
    · simp [hc, newChannel, SecureChannelManager.connectionOf]
  · obtain ⟨conn, hconn⟩ := Option.isSome_iff_exists.mp hk
    rw [channelOf_modifyConnection]
    show Function.update cm.channelOf k (((cm.connectionAt k).map _).bind _) = _
    rw [hconn]
    rfl

theorem Sound.addChannel (h : Sound cm) (k : Nat) (requestedLifetime : UInt32) :
    Sound (addChannel cm k requestedLifetime) := by
  have hnew : Sound (newChannel cm requestedLifetime) := by
    refine ⟨⟨fun c => ?_, h.freshConnection⟩, h.wellLinked.openChannel _⟩
    have hlive := h.live c
    unfold newChannel openChannel channelLive at *
    by_cases hc : c = cm.server.nextAddr
    · simp [hc]
    · simpa [hc] using hlive
  unfold Connections.addChannel attachSecureChannel
  split
  · exact ⟨(hnew.toMemory.modifyChannel _ _).modifyConnection k _, hnew.wellLinked⟩
  · exact hnew

theorem linked_addChannel_iff (hsound : Sound cm) (h : Linked cm) {k : Nat}
    (hk : (cm.connectionAt k).isSome = true) (requestedLifetime : UInt32) :
    Linked (addChannel cm k requestedLifetime) ↔ cm.channelOf k = none := by
  have hfree : cm.connectionOf cm.server.nextAddr = none := by
    have hlive := hsound.live cm.server.nextAddr
    rw [(hsound.wellLinked.fresh _ (Nat.le_refl _)).2] at hlive
    unfold SecureChannelManager.connectionOf
    rw [Option.isSome_eq_false_iff.mp hlive |> Option.isNone_iff_eq_none.mp]
    rfl
  obtain ⟨hconnectionOf, hchannelOf⟩ := addChannel_eq hk requestedLifetime
  unfold Linked
  rw [hconnectionOf, hchannelOf]
  exact Partners.Mutual.join_iff h hfree

def AddsChannel (cm : SecureChannelManager) (k : Nat) (channelId : UInt32)
    (request : Option OpenSecureChannelRequest) (alloc : OpenAlloc) : Prop :=
  ∃ r, request = some r ∧ acceptsOPN cm k channelId = true ∧ r.requestType = requestTypeIssue ∧
    Opens cm r alloc

theorem isSome_of_acceptsOPN {k : Nat} {channelId : UInt32}
    (h : acceptsOPN cm k channelId = true) : (cm.connectionAt k).isSome = true := by
  unfold acceptsOPN at h
  cases hk : cm.connectionAt k with
  | none => rw [hk] at h; cases h
  | some conn => rfl

theorem processOPN_cases (cm : SecureChannelManager) (k : Nat) (channelId : UInt32)
    (request : Option OpenSecureChannelRequest) (alloc : OpenAlloc) (sent : Bool) :
    (¬ AddsChannel cm k channelId request alloc ∧
        Upkeep cm (processOPN cm k channelId request alloc sent)) ∨
      (AddsChannel cm k channelId request alloc ∧
        ∃ cm₁ requestedLifetime, Upkeep cm cm₁ ∧ (cm₁.connectionAt k).isSome = true ∧
          (alloc.delayed = true → Roomy cm cm₁) ∧
          Upkeep (addChannel cm₁ k requestedLifetime)
            (processOPN cm k channelId request alloc sent)) := by
  unfold processOPN
  cases request with
  | none =>
    refine Or.inl ⟨fun h => ?_, upkeep_closeConnection cm k⟩
    obtain ⟨r, hr, -⟩ := h
    cases hr
  | some r =>
    dsimp only
    by_cases haccepts : acceptsOPN cm k channelId = true
    · rw [if_pos haccepts]
      have hclose : ∀ cm' : SecureChannelManager, Upkeep cm'
          (if cm'.channelOf k = none ∨ ¬ sent = true then closeConnection cm' k else cm') := by
        intro cm'
        split
        · exact upkeep_closeConnection cm' k
        · exact Upkeep.refl cm'
      by_cases hissue : r.requestType = requestTypeIssue
      · have hservice : serviceOpenSecureChannel cm k r alloc = managerOpen cm k r alloc :=
          if_pos hissue
        rw [hservice]
        obtain ⟨cm₁, hupkeep, hsame, ⟨hopens, hroomy, heq⟩ | ⟨hopens, heq⟩⟩ :=
          managerOpen_cases cm k r alloc
        · rw [heq]
          refine Or.inr ⟨⟨r, rfl, haccepts, hissue, hopens⟩, cm₁, r.requestedLifetime, hupkeep, ?_,
            hroomy, hclose _⟩
          rw [hsame]
          exact isSome_of_acceptsOPN haccepts
        · rw [heq]
          refine Or.inl ⟨fun h => ?_, hupkeep.trans (hclose cm₁)⟩
          obtain ⟨r', hr', -, -, hopens'⟩ := h
          cases hr'
          exact hopens hopens'
      · have hservice : serviceOpenSecureChannel cm k r alloc = managerRenew cm k r :=
          if_neg hissue
        rw [hservice]
        refine Or.inl ⟨fun h => ?_, (upkeep_managerRenew cm k r).trans (hclose _)⟩
        obtain ⟨r', hr', -, hissue', -⟩ := h
        cases hr'
        exact hissue hissue'
    · rw [if_neg haccepts]
      refine Or.inl ⟨fun h => ?_, upkeep_closeConnection cm k⟩
      obtain ⟨r', -, haccepts', -⟩ := h
      exact haccepts haccepts'

theorem Sound.processOPN (h : Sound cm) (k : Nat) (channelId : UInt32)
    (request : Option OpenSecureChannelRequest) (alloc : OpenAlloc) (sent : Bool) :
    Sound (processOPN cm k channelId request alloc sent) := by
  obtain ⟨-, hupkeep⟩ | ⟨-, cm₁, requestedLifetime, hbefore, -, -, hafter⟩ :=
    processOPN_cases cm k channelId request alloc sent
  · exact hupkeep.sound h
  · exact hafter.sound ((hbefore.sound h).addChannel k requestedLifetime)

theorem linked_processOPN_iff (hsound : Sound cm) (h : Linked cm) (k : Nat) (channelId : UInt32)
    (request : Option OpenSecureChannelRequest) (alloc : OpenAlloc) (sent : Bool) :
    Linked (processOPN cm k channelId request alloc sent) ↔
      (AddsChannel cm k channelId request alloc → cm.channelOf k = none) := by
  obtain ⟨hnot, hupkeep⟩ | ⟨hadds, cm₁, requestedLifetime, hbefore, hk, -, hafter⟩ :=
    processOPN_cases cm k channelId request alloc sent
  · rw [hupkeep.linked_iff]
    exact iff_of_true h fun hadds => absurd hadds hnot
  · rw [hafter.linked_iff,
      linked_addChannel_iff (hbefore.sound hsound) (hbefore.linked_iff.mpr h) hk, hbefore.channelOf]
    exact ⟨fun hnone _ => hnone, fun himp => himp hadds⟩

/-- The event does not open a channel on a connection that has one. -/
def OpensOnce (cm : SecureChannelManager) : Event → Prop
  | .openRequestOn channel request alloc _ =>
      ∀ k channelId, cm.connectionOf channel = some k → cm.channelIdOf channel = some channelId →
        AddsChannel cm k channelId request alloc → cm.channelOf k = none
  | _ => True

theorem Upkeep.step {e : Event} (h : Upkeep cm (step cm e)) (hsound : Sound cm)
    (hlinked : Linked cm) (honce : OpensOnce cm e) : Sound (Connections.step cm e) ∧
      (Linked (Connections.step cm e) ↔ OpensOnce cm e) :=
  ⟨h.sound hsound, iff_of_true (h.linked_iff.mpr hlinked) honce⟩

theorem upkeep_cleanup (hsound : Sound cm) (allocSession allocChannel : Nat → Bool) :
    Upkeep cm (step cm (.cleanup allocSession allocChannel)) := by
  have hwork := sessionWork_cleanupTimedOut hsound.wellLinked.sessions_nodup allocSession
  refine (upkeep_server cm (fun h => h.cleanupTimedOut allocSession) hwork).trans ?_
  refine upkeep_cleanupChannels ?_ allocChannel
  dsimp only
  rw [hwork.channels]
  exact hsound.wellLinked.channels_nodup

theorem upkeep_serviceRequest (cm : SecureChannelManager) (c : Nat) (request : Option Request)
    (env : Environment) : Upkeep cm (step cm (.serviceRequestOn c request env)) := by
  unfold step
  dsimp only
  split
  · next hlive =>
    exact upkeep_server cm (fun h => h.processMSG hlive request env)
      (sessionWork_processMSG cm.server c request env)
  · exact Upkeep.refl cm

theorem upkeep_advance (cm : SecureChannelManager) (duration : Nat) :
    Upkeep cm (step cm (.advance duration)) := by
  refine upkeep_server cm (fun h => ?_)
    ⟨rfl, rfl, fun _ => rfl, Nat.le_refl _, fun h => ⟨h.count, h.bound⟩⟩
  exact h.congr (fun _ => rfl) (fun _ => rfl) (fun _ => rfl) (fun _ => rfl) rfl rfl rfl rfl

theorem upkeep_hello (cm : SecureChannelManager) (k : Nat) :
    Upkeep cm (step cm (.hello k)) := by
  unfold step
  dsimp only
  split
  · exact upkeep_modifyConnection cm k fun _ => rfl
  · exact Upkeep.refl cm

theorem upkeep_closeRequest (cm : SecureChannelManager) (c : Nat) (alloc : Bool) :
    Upkeep cm (step cm (.closeRequestOn c alloc)) := by
  unfold step
  dsimp only
  split
  · exact Upkeep.refl cm
  · exact upkeep_managerClose cm _ alloc

theorem upkeep_connect (hsound : Sound cm) : Upkeep cm (step cm .connect) := by
  have hfresh := hsound.freshConnection cm.nextConnection (Nat.le_refl _)
  refine ⟨rfl, ?_, fun h => ?_, fun h => h.congr rfl rfl rfl⟩
  · funext k
    unfold step SecureChannelManager.channelOf
    by_cases hk : k = cm.nextConnection
    · simp [hk, hfresh]
    · simp [hk]
  · refine ⟨⟨h.live, fun k hk => ?_⟩, h.wellLinked⟩
    have hle : cm.nextConnection + 1 ≤ k := hk
    have hne : k ≠ cm.nextConnection := by omega
    simpa [step, hne] using h.freshConnection k (by omega)

theorem Sound.removeConnection (h : Sound cm) (k : Nat) :
    Sound (Connections.step cm (.remove k)) := by
  have hdetached := h.detach k
  refine ⟨⟨hdetached.live, fun l hl => ?_⟩, hdetached.wellLinked⟩
  unfold Connections.step
  dsimp only
  by_cases hlk : l = k
  · simp [hlk]
  · simpa [hlk] using hdetached.freshConnection l hl

theorem linked_step_iff (cm : SecureChannelManager) (e : Event) (hsound : Sound cm)
    (h : Linked cm) : Sound (step cm e) ∧ (Linked (step cm e) ↔ OpensOnce cm e) := by
  cases e with
  | advance duration => exact (upkeep_advance cm duration).step hsound h trivial
  | connect => exact (upkeep_connect hsound).step hsound h trivial
  | hello k => exact (upkeep_hello cm k).step hsound h trivial
  | openRequest k channelId request alloc sent =>
    unfold step
    dsimp only
    split
    · next hnone =>
      refine ⟨hsound.processOPN k channelId request alloc sent, ?_⟩
      rw [linked_processOPN_iff hsound h]
      exact iff_of_true (fun _ => hnone) trivial
    · exact ⟨hsound, iff_of_true h trivial⟩
  | openRequestOn c request alloc sent =>
    unfold step OpensOnce
    dsimp only
    split
    · next k channelId hc hid =>
      refine ⟨hsound.processOPN k channelId request alloc sent, ?_⟩
      rw [linked_processOPN_iff hsound h, hc, hid]
      constructor
      · intro himp k' channelId' hk' hid'
        cases hk'
        cases hid'
        exact himp
      · exact fun hall => hall k channelId rfl rfl
    · next hnone =>
      exact ⟨hsound, iff_of_true h fun k channelId hk hid => absurd hid (hnone k channelId hk)⟩
  | closeRequestOn c alloc => exact (upkeep_closeRequest cm c alloc).step hsound h trivial
  | serviceRequestOn c request env =>
    exact (upkeep_serviceRequest cm c request env).step hsound h trivial
  | nextTokenOn c => exact (upkeep_revolveChannel cm c).step hsound h trivial
  | cleanup allocSession allocChannel =>
    exact (upkeep_cleanup hsound allocSession allocChannel).step hsound h trivial
  | processDelayed => exact ⟨hsound.processDelayed, iff_of_true (h.runCallbacks _) trivial⟩
  | close k => exact (upkeep_closeConnection cm k).step hsound h trivial
  | detach k => exact ⟨hsound.detach k, iff_of_true (h.detach k) trivial⟩
  | remove k =>
    exact ⟨hsound.removeConnection k, iff_of_true (linked_removeConnection h k) trivial⟩

/-- In all states of a run channels and connections are linked, exactly if no OPN message of the run
opens a channel on a connection that has one. -/
theorem linked_iff_opensOnce (config : Config) (clock : Int) (maxSecureChannels : UInt16)
    (maxSecurityTokenLifetime : UInt32) (events : List Event) :
    (∀ cm ∈ Runs.states (Runs.total step)
        (SecureChannelManager.init config clock maxSecureChannels maxSecurityTokenLifetime) events,
      Linked cm) ↔
    Runs.Guarded (Runs.total step) OpensOnce
      (SecureChannelManager.init config clock maxSecureChannels maxSecurityTokenLifetime) events :=
  Runs.states_iff_guarded Sound Linked linked_step_iff events _
    (sound_init config clock maxSecureChannels maxSecurityTokenLifetime)
    (linked_init config clock maxSecureChannels maxSecurityTokenLifetime)

/-- A client opens a channel and then, on this channel, another one. The first channel goes on
pointing at the connection, which has the second one, also when the connection is gone. -/
def secondIssue : List Event :=
  [.connect, .hello 1, .openRequest 1 0 (some ⟨0, 1, 600000⟩) ⟨true, true⟩ true,
    .openRequestOn 1 (some ⟨0, 1, 600000⟩) ⟨true, true⟩ true, .remove 1]

theorem secondIssue_dangles :
    let init := SecureChannelManager.init ⟨100, 3600000⟩ 0 100 600000
    (¬ ∀ cm ∈ Runs.states (Runs.total step) init secondIssue, Linked cm) ∧
      (secondIssue.foldl step init).connectionOf 1 = some 1 ∧
        (secondIssue.foldl step init).connectionAt 1 = none := by
  refine ⟨fun h => ?_, by decide, by decide⟩
  have hlinked := h _ (Runs.foldl_mem_states _ secondIssue) 1 1
  exact absurd (hlinked.mp (by decide)) (by decide)

end FactoryThing.Connections
