import FactoryThing.Connections.Linked

/-!
# The books of sessions and channels

As long as no allocation fails, the session lists of the channels, the lists of the two managers and
their counters agree in every state of the server, and the counters stay within their bounds. The
one allocation this depends on is that of the delayed callback for a purged channel: a purge counts
as a success without it.
-/

namespace FactoryThing.Connections

open Sessions SecureChannel

variable {cm cm' : SecureChannelManager} {config : Config} {maxSecureChannels : UInt16}

/-- All allocations made for the event succeed. -/
def Event.Allocates : Event → Prop
  | .openRequest _ _ _ alloc _ | .openRequestOn _ _ alloc _ =>
      alloc.delayed = true ∧ alloc.entry = true
  | .closeRequestOn _ alloc => alloc = true
  | .serviceRequestOn _ _ env =>
      env.allocSession = true ∧ env.allocEntry = true ∧ env.allocDelayed = true
  | .cleanup allocSession allocChannel =>
      (∀ s, allocSession s = true) ∧ ∀ c, allocChannel c = true
  | _ => True

/-- The books are in order: a session has the channel in whose list it occurs once, and the counters
are the lengths of the lists. -/
structure Bookkept (config : Config) (maxSecureChannels : UInt16) (cm : SecureChannelManager) :
    Prop where
  occurs_once : ∀ s c, chan cm.server s = some c ↔ (entries cm.server c).count s = 1
  sessionCount : cm.server.currentSessionCount.toNat = cm.server.sessions.length
  sessionBound : cm.server.currentSessionCount ≤ config.maxSessions
  channelCount : cm.currentChannelCount.toNat = cm.server.channels.length
  channelBound : cm.currentChannelCount ≤ maxSecureChannels.toUInt32

theorem occurs_once {sv : Server} (h : WellLinked sv) (s c : Nat) :
    chan sv s = some c ↔ (entries sv c).count s = 1 := by
  rw [← h.mem_entries_iff]
  constructor
  · exact List.count_eq_one_of_mem (h.entries_nodup c)
  · intro hcount
    apply List.count_pos_iff.mp
    omega

theorem bookkept (hsound : Sound cm) (h : Counts config maxSecureChannels cm) :
    Bookkept config maxSecureChannels cm where
  occurs_once := occurs_once hsound.wellLinked
  sessionCount := h.sessions.count
  sessionBound := by
    rw [UInt32.le_iff_toNat_le, h.sessions.count, ← h.config_eq]
    exact h.sessions.bound
  channelCount := h.count
  channelBound := by
    rw [UInt32.le_iff_toNat_le, h.count]
    exact h.bound

theorem Counts.detach (h : Counts config maxSecureChannels cm) (k : Nat) :
    Counts config maxSecureChannels (detachSecureChannel cm k) := by
  refine h.congr (server_detach cm k) ?_ ?_
  · unfold detachSecureChannel
    split
    · rfl
    · split <;> rfl
  · unfold detachSecureChannel
    split
    · rfl
    · split <;> rfl

theorem sessionWork_detachAll (ss : List Nat) : ∀ sv : Server,
    SessionWork sv
      (ss.foldl (fun sv s => sv.modifySession s fun ses => { ses with channel := none }) sv) := by
  induction ss with
  | nil => exact SessionWork.refl
  | cons s ss ih => exact fun sv => (sessionWork_modifySession sv s _).trans (ih _)

theorem Counts.removeSecureChannelCallback (h : Counts config maxSecureChannels cm) (c : Nat)
    (hserver : cm'.server = removeSecureChannelCallback cm.server c)
    (hmax : cm'.maxSecureChannels = cm.maxSecureChannels)
    (hcount : cm'.currentChannelCount = cm.currentChannelCount) :
    Counts config maxSecureChannels cm' := by
  have hwork := sessionWork_detachAll ((cm.server.channelAt c).map Channel.sessions |>.getD [])
    cm.server
  have hcounted := hwork.counted h.sessions
  have hchannels : (Sessions.removeSecureChannelCallback cm.server c).channels =
      cm.server.channels := hwork.channels
  refine ⟨?_, hmax.trans h.max_eq, ?_, ?_, ?_⟩
  · rw [hserver]
    exact hwork.config.trans h.config_eq
  · rw [hserver]
    exact ⟨hcounted.count, hcounted.bound⟩
  · rw [hserver, hcount, hchannels]
    exact h.count
  · rw [hserver, hchannels]
    exact h.bound

theorem Counts.deleteMembersCleanup (h : Counts config maxSecureChannels cm) (c : Nat) :
    Counts config maxSecureChannels (deleteMembersCleanup cm c) := by
  unfold Connections.deleteMembersCleanup
  split
  · exact h.removeSecureChannelCallback c rfl rfl rfl
  · exact (h.detach _).removeSecureChannelCallback c rfl rfl rfl

theorem Counts.runCallback (h : Counts config maxSecureChannels cm) (d : Delayed) :
    Counts config maxSecureChannels (runCallback cm d) := by
  cases d with
  | removeSessionCallback s =>
    have hwork := sessionWork_removeSessionCallback cm.server s
    refine ⟨hwork.config.trans h.config_eq, h.max_eq, hwork.counted h.sessions, ?_, ?_⟩
    · exact h.count.trans (congrArg List.length hwork.channels.symm)
    · exact hwork.channels.symm ▸ h.bound
  | removeSecureChannelCallback c => exact h.deleteMembersCleanup c

theorem Counts.runCallbacks (ds : List Delayed) : ∀ {cm}, Counts config maxSecureChannels cm →
    Counts config maxSecureChannels (runCallbacks ds cm) := by
  have htaken : ∀ {cm : SecureChannelManager} (ds : List Delayed),
      Counts config maxSecureChannels cm →
        Counts config maxSecureChannels { cm with server.delayedCallbacks := ds } :=
    fun _ h => ⟨h.config_eq, h.max_eq, ⟨h.sessions.count, h.sessions.bound⟩, h.count, h.bound⟩
  induction ds with
  | nil => exact fun h => htaken [] h
  | cons d ds ih => exact fun h => ih ((htaken ds h).runCallback d)

theorem Counts.addChannel (h : Counts config maxSecureChannels cm)
    (hroom : cm.server.channels.length < maxSecureChannels.toNat) (k : Nat)
    (requestedLifetime : UInt32) :
    Counts config maxSecureChannels (addChannel cm k requestedLifetime) := by
  have hnew : Counts config maxSecureChannels (newChannel cm requestedLifetime) := by
    refine ⟨h.config_eq, h.max_eq, ⟨h.sessions.count, h.sessions.bound⟩, ?_, hroom⟩
    have hmax := maxSecureChannels.toNat_lt
    have hcount := h.count
    have hone : (1 : UInt32).toNat = 1 := rfl
    show (cm.currentChannelCount + 1).toNat = cm.server.channels.length + 1
    rw [UInt32.toNat_add, hone, Nat.mod_eq_of_lt (by omega), hcount]
  unfold Connections.addChannel attachSecureChannel
  split
  · exact hnew.congr rfl rfl rfl
  · exact hnew

theorem Counts.processOPN (h : Counts config maxSecureChannels cm) (k : Nat) (channelId : UInt32)
    (request : Option OpenSecureChannelRequest) {alloc : OpenAlloc} (halloc : alloc.delayed = true)
    (sent : Bool) :
    Counts config maxSecureChannels (processOPN cm k channelId request alloc sent) := by
  obtain ⟨-, hupkeep⟩ | ⟨-, cm₁, requestedLifetime, hbefore, -, hroomy, hafter⟩ :=
    processOPN_cases cm k channelId request alloc sent
  · exact hupkeep.counts h
  · exact hafter.counts ((hbefore.counts h).addChannel (hroomy halloc _ _ h) k requestedLifetime)

theorem counts_step (hsound : Sound cm) (h : Counts config maxSecureChannels cm) {e : Event}
    (halloc : e.Allocates) : Sound (step cm e) ∧ Counts config maxSecureChannels (step cm e) := by
  have hupkeep : Upkeep cm (step cm e) →
      Sound (step cm e) ∧ Counts config maxSecureChannels (step cm e) :=
    fun hup => ⟨hup.sound hsound, hup.counts h⟩
  cases e with
  | advance duration => exact hupkeep (upkeep_advance cm duration)
  | connect => exact hupkeep (upkeep_connect hsound)
  | hello k => exact hupkeep (upkeep_hello cm k)
  | openRequest k channelId request alloc sent =>
    unfold step
    dsimp only
    split
    · exact ⟨hsound.processOPN k channelId request alloc sent,
        h.processOPN k channelId request halloc.1 sent⟩
    · exact ⟨hsound, h⟩
  | openRequestOn c request alloc sent =>
    unfold step
    dsimp only
    split
    · next k channelId _ _ =>
      exact ⟨hsound.processOPN k channelId request alloc sent,
        h.processOPN k channelId request halloc.1 sent⟩
    · exact ⟨hsound, h⟩
  | closeRequestOn c alloc => exact hupkeep (upkeep_closeRequest cm c alloc)
  | serviceRequestOn c request env => exact hupkeep (upkeep_serviceRequest cm c request env)
  | nextTokenOn c => exact hupkeep (upkeep_revolveChannel cm c)
  | cleanup allocSession allocChannel =>
    exact hupkeep (upkeep_cleanup hsound allocSession allocChannel)
  | processDelayed => exact ⟨hsound.processDelayed, h.runCallbacks _⟩
  | close k => exact hupkeep (upkeep_closeConnection cm k)
  | detach k => exact ⟨hsound.detach k, h.detach k⟩
  | remove k => exact ⟨hsound.removeConnection k, (h.detach k).congr rfl rfl rfl⟩

/-- In every state a server comes to while its allocations succeed, the books are in order. -/
theorem bookkept_run (config : Config) (clock : Int) (maxSecureChannels : UInt16)
    (maxSecurityTokenLifetime : UInt32) (events : List Event)
    (halloc : ∀ e ∈ events, e.Allocates) :
    Bookkept config maxSecureChannels (events.foldl step
      (SecureChannelManager.init config clock maxSecureChannels maxSecurityTokenLifetime)) := by
  obtain ⟨hsound, hcounts⟩ := List.foldlRecOn (motive := fun cm =>
      Sound cm ∧ Counts config maxSecureChannels cm) events step
    ⟨sound_init config clock maxSecureChannels maxSecurityTokenLifetime,
      counts_init config clock maxSecureChannels maxSecurityTokenLifetime⟩
    fun cm h e he => counts_step h.1 h.2 (halloc e he)
  exact bookkept hsound hcounts

/-- A client creates and activates a session, opens a channel on another connection, takes the
session there and closes the first channel; the clean-up job frees it. -/
def movedSession : List Event :=
  let token : NodeId := ⟨1, .numeric 7⟩
  let env : Environment := .obliging ⟨1, .numeric 6⟩ token
  let opens : Option OpenSecureChannelRequest := some ⟨requestTypeIssue, securityModeNone, 600000⟩
  [.connect, .hello 1, .openRequest 1 0 opens ⟨true, true⟩ true,
    .serviceRequestOn 1 (some ⟨.createSession, token, 1000⟩) env,
    .serviceRequestOn 1 (some ⟨.activateSession, token, 0⟩) env,
    .connect, .hello 2, .openRequest 2 0 opens ⟨true, true⟩ true,
    .serviceRequestOn 3 (some ⟨.activateSession, token, 0⟩) env,
    .closeRequestOn 1 true, .processDelayed]

theorem bookkept_movedSession :
    Bookkept ⟨100, 3600000⟩ 100
      (movedSession.foldl step (SecureChannelManager.init ⟨100, 3600000⟩ 0 100 600000)) := by
  refine bookkept_run ⟨100, 3600000⟩ 0 100 600000 movedSession ?_
  simp [movedSession, Event.Allocates, Environment.obliging]

end FactoryThing.Connections
