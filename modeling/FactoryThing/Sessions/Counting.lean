import FactoryThing.Sessions.Attachment

/-!
# How many sessions there are

Whatever the session manager does, `currentSessionCount` stays the length of its list and within
`maxSessions`, and the channels stay the ones they were.
-/

namespace FactoryThing.Sessions

variable {sv sv' sv'' : Server}

/-- `currentSessionCount` is right and not above the maximum. -/
structure Counted (sv : Server) : Prop where
  count : sv.currentSessionCount.toNat = sv.sessions.length
  bound : sv.sessions.length ≤ sv.config.maxSessions.toNat

theorem counted_init (config : Config) (clock : Int) : Counted (Server.init config clock) :=
  ⟨rfl, Nat.zero_le _⟩

/-- What work on the sessions of a server may change. -/
structure SessionWork (sv sv' : Server) : Prop where
  config : sv'.config = sv.config
  channels : sv'.channels = sv.channels
  channelIds : ∀ c, (sv'.channelAt c).map Channel.channelId = (sv.channelAt c).map Channel.channelId
  nextAddr : sv.nextAddr ≤ sv'.nextAddr
  counted : Counted sv → Counted sv'

theorem SessionWork.refl (sv : Server) : SessionWork sv sv :=
  ⟨rfl, rfl, fun _ => rfl, Nat.le_refl _, id⟩

theorem SessionWork.trans (h : SessionWork sv sv') (h' : SessionWork sv' sv'') :
    SessionWork sv sv'' where
  config := h'.config.trans h.config
  channels := h'.channels.trans h.channels
  channelIds c := (h'.channelIds c).trans (h.channelIds c)
  nextAddr := Nat.le_trans h.nextAddr h'.nextAddr
  counted hc := h'.counted (h.counted hc)

theorem SessionWork.channelLive (h : SessionWork sv sv') (c : Nat) :
    channelLive sv' c = channelLive sv c := by
  have hc := congrArg Option.isSome (h.channelIds c)
  simpa [Sessions.channelLive] using hc

theorem sessionWork_modifySession (sv : Server) (s : Nat) (f : Session → Session) :
    SessionWork sv (sv.modifySession s f) :=
  ⟨rfl, rfl, fun _ => rfl, Nat.le_refl _, fun h => ⟨h.count, h.bound⟩⟩

theorem sessionWork_modifyChannel (sv : Server) (c : Nat) (f : List Nat → List Nat) :
    SessionWork sv (sv.modifyChannel c f) := by
  refine ⟨rfl, rfl, fun d => ?_, Nat.le_refl _, fun h => ⟨h.count, h.bound⟩⟩
  unfold Server.modifyChannel
  by_cases hd : d = c
  · subst hd
    cases sv.channelAt d <;> simp
  · simp [hd]

theorem sessionWork_attachSession (sv : Server) (c s : Nat) (alloc : Bool) :
    SessionWork sv (attachSession sv c s alloc) := by
  unfold attachSession
  split
  · split
    · exact SessionWork.refl sv
    · split
      · exact SessionWork.refl sv
      · exact (sessionWork_modifySession sv s _).trans (sessionWork_modifyChannel _ c _)
  · exact SessionWork.refl sv

theorem sessionWork_detachSession (sv : Server) (c s : Nat) :
    SessionWork sv (detachSession sv c s) :=
  (sessionWork_modifySession sv s _).trans (sessionWork_modifyChannel _ c _)

theorem sessionWork_updateLifetime (sv : Server) (s : Nat) :
    SessionWork sv (updateLifetime sv s) :=
  sessionWork_modifySession sv s _

theorem sessionWork_removeSession {s : Nat} (hs : s ∈ sv.sessions) (alloc : Bool) :
    SessionWork sv (removeSession sv s alloc).1 := by
  unfold removeSession
  split
  · refine ⟨rfl, rfl, fun _ => rfl, Nat.le_refl _, fun h => ?_⟩
    have hlength := List.length_erase_of_mem hs
    have hpos := List.length_pos_of_mem hs
    have hcount := h.count
    have hone : (1 : UInt32) ≤ sv.currentSessionCount := by
      rw [UInt32.le_iff_toNat_le, hcount]
      exact hpos
    constructor
    · show (sv.currentSessionCount - 1).toNat = (sv.sessions.erase s).length
      rw [UInt32.toNat_sub_of_le _ _ hone, hlength, hcount]
      rfl
    · show (sv.sessions.erase s).length ≤ sv.config.maxSessions.toNat
      have hbound := h.bound
      omega
  · exact sessionWork_modifySession sv s _

theorem sessionWork_sessionManagerRemoveSession (sv : Server) (token : NodeId) (alloc : Bool) :
    SessionWork sv (sessionManagerRemoveSession sv token alloc).1 := by
  unfold sessionManagerRemoveSession
  split
  · exact SessionWork.refl sv
  · rename_i s hfind
    exact sessionWork_removeSession (List.mem_of_find?_eq_some hfind) alloc

theorem sessionWork_createSession (sv : Server) (requestedSessionTimeout : Rat)
    (sessionId token : NodeId) (alloc : Bool) :
    SessionWork sv (createSession sv requestedSessionTimeout sessionId token alloc).1 := by
  unfold createSession
  split
  · exact SessionWork.refl sv
  · rename_i hroom
    split
    · refine SessionWork.trans ?_ (sessionWork_updateLifetime _ _)
      refine ⟨rfl, rfl, fun _ => rfl, Nat.le_succ _, fun h => ?_⟩
      have hlt : sv.currentSessionCount.toNat < sv.config.maxSessions.toNat := by
        simpa [UInt32.le_iff_toNat_le] using hroom
      have hmax := sv.config.maxSessions.toNat_lt
      have hcount := h.count
      constructor
      · show (sv.currentSessionCount + 1).toNat = sv.sessions.length + 1
        have hone : (1 : UInt32).toNat = 1 := rfl
        rw [UInt32.toNat_add, hone, Nat.mod_eq_of_lt (by omega), hcount]
      · show sv.sessions.length + 1 ≤ sv.config.maxSessions.toNat
        omega
    · exact SessionWork.refl sv

theorem sessionWork_cleanupTimedOut (hnodup : sv.sessions.Nodup) (alloc : Nat → Bool) :
    SessionWork sv (cleanupTimedOut sv alloc) := by
  suffices hloop : ∀ (ss : List Nat) (sv : Server), ss.Nodup → (∀ s ∈ ss, s ∈ sv.sessions) →
      SessionWork sv (ss.foldl
        (fun sv s => if timedOut sv s then (removeSession sv s (alloc s)).1 else sv) sv) from
    hloop sv.sessions sv hnodup fun _ => id
  intro ss
  induction ss with
  | nil => exact fun sv _ _ => SessionWork.refl sv
  | cons s ss ih =>
    intro sv hnodup hmem
    obtain ⟨hnot, hnodup⟩ := List.nodup_cons.mp hnodup
    rw [List.foldl_cons]
    split
    · refine (sessionWork_removeSession (hmem s List.mem_cons_self) (alloc s)).trans ?_
      refine ih _ hnodup fun t ht => ?_
      have hne : t ≠ s := fun heq => hnot (heq ▸ ht)
      exact mem_removeSession hne (hmem t (List.mem_cons_of_mem s ht))
    · exact ih sv hnodup fun t ht => hmem t (List.mem_cons_of_mem s ht)

theorem sessionWork_serviceCreateSession (sv : Server) (c : Nat) (request : Request)
    (env : Environment) : SessionWork sv (serviceCreateSession sv c request env).1 := by
  unfold serviceCreateSession
  split
  · exact SessionWork.refl sv
  · split
    · exact SessionWork.refl sv
    · have hcreate := sessionWork_createSession sv request.requestedSessionTimeout env.sessionId
        env.token env.allocSession
      split
      · rename_i heq
        rw [heq] at hcreate
        exact hcreate
      · rename_i heq
        rw [heq] at hcreate
        split
        · split
          · exact hcreate
          · exact hcreate.trans (sessionWork_sessionManagerRemoveSession _ _ _)
        · exact hcreate

theorem sessionWork_serviceActivateSession (sv : Server) (c s : Nat) (env : Environment) :
    SessionWork sv (serviceActivateSession sv c s env).1 := by
  unfold serviceActivateSession
  split
  · exact SessionWork.refl sv
  · split
    · exact SessionWork.refl sv
    · refine SessionWork.trans ?_ (sessionWork_updateLifetime _ s)
      refine SessionWork.trans ?_ (sessionWork_modifySession _ s _)
      refine SessionWork.trans ?_ (sessionWork_attachSession _ c s _)
      split
      · exact SessionWork.refl sv
      · split
        · exact sessionWork_detachSession sv _ s
        · exact SessionWork.refl sv

theorem sessionWork_serviceCloseSession (sv : Server) (s : Nat) (env : Environment) :
    SessionWork sv (serviceCloseSession sv s env).1 := by
  unfold serviceCloseSession
  split
  · exact SessionWork.refl sv
  · exact sessionWork_sessionManagerRemoveSession sv _ _

theorem sessionWork_callService (sv : Server) (requestType : RequestType) (s : Nat)
    (env : Environment) : SessionWork sv (callService sv requestType s env) := by
  unfold callService
  split
  · exact sessionWork_serviceCloseSession sv s env
  · exact SessionWork.refl sv

theorem sessionWork_serveRequest (sv : Server) (c : Nat) (request : Request) (env : Environment) :
    SessionWork sv (serveRequest sv c request env).1 := by
  unfold serveRequest
  split
  · split <;> exact SessionWork.refl sv
  · split
    · exact SessionWork.refl sv
    · split
      · exact sessionWork_sessionManagerRemoveSession sv _ _
      · split
        · exact SessionWork.refl sv
        · exact (sessionWork_updateLifetime sv _).trans (sessionWork_callService _ _ _ env)

theorem sessionWork_processMSG (sv : Server) (c : Nat) (request : Option Request)
    (env : Environment) : SessionWork sv (processMSG sv c request env).1 := by
  unfold processMSG
  split
  · exact SessionWork.refl sv
  · split
    · exact sessionWork_serviceCreateSession sv c _ env
    · split
      · exact SessionWork.refl sv
      · exact sessionWork_serviceActivateSession sv c _ env
    · exact sessionWork_serveRequest sv c _ env

theorem sessionWork_removeSessionCallback (sv : Server) (s : Nat) :
    SessionWork sv (removeSessionCallback sv s) := by
  unfold removeSessionCallback
  have hfree : ∀ sv : Server,
      SessionWork sv { sv with sessionAt := Function.update sv.sessionAt s none } :=
    fun _ => ⟨rfl, rfl, fun _ => rfl, Nat.le_refl _, fun h => ⟨h.count, h.bound⟩⟩
  split
  · exact hfree sv
  · exact (sessionWork_detachSession sv _ s).trans (hfree _)

end FactoryThing.Sessions
