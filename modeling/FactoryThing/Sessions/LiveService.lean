import FactoryThing.Sessions.Attachment

/-!
# Only a live session gets service

A service that requires a session runs with a session of the arriving channel only, since a session
found by the manager alone is attached elsewhere. What is missing is the check of the timeout: the
manager makes it, the lookup on the channel does not. `AttachedLive` says which messages this
matters for.
-/

namespace FactoryThing.Sessions

variable {sv : Server} {c s : Nat} {token : NodeId}

/-- The token names the session, which is activated, not timed out and attached to the channel. -/
def Entitled (sv : Server) (c : Nat) (token : NodeId) (s : Nat) : Prop :=
  ∃ ses, sv.sessionAt s = some ses ∧ nodeIdEqual ses.authenticationToken token = true ∧
    ses.activated = true ∧ sv.clock ≤ ses.validTill ∧ ses.channel = some c

/-- The lifetime of the session is longer in `sv'` than in `sv`. -/
def Extended (sv sv' : Server) (s : Nat) : Prop :=
  ∃ ses ses', sv.sessionAt s = some ses ∧ sv'.sessionAt s = some ses' ∧
    ses.validTill < ses'.validTill

/-- Processing the message runs a service that requires a session for an entitled session only,
and extends the lifetime of an entitled session only (activating a session aside). -/
def ServesLive (sv : Server) (c : Nat) (request : Request) (env : Environment) : Prop :=
  (request.requestType.requiresSession = true →
    ∀ s, (processMSG sv c (some request) env).2 = .served (some s) →
      Entitled sv c request.authenticationToken s) ∧
  (request.requestType ≠ .activateSession →
    ∀ s, Extended sv (processMSG sv c (some request) env).1 s →
      Entitled sv c request.authenticationToken s)

/-- The condition on a message: if a session attached to the channel has the token, it is not timed
out, and activated where the service does not check that itself. The exceptions are a session the
service refuses as not activated, and one with so short a timeout that nothing is extended. -/
def AttachedLive (sv : Server) (c : Nat) (request : Request) : Prop :=
  request.requestType ≠ .createSession → request.requestType ≠ .activateSession →
    ∀ s ses, secureChannelGetSession sv c request.authenticationToken = some s →
      sv.sessionAt s = some ses →
      if request.requestType.requiresSession then ses.activated = true → sv.clock ≤ ses.validTill
      else (ses.activated = true ∧ sv.clock ≤ ses.validTill) ∨
        sv.clock + ⌊ses.timeout * 10000⌋ ≤ ses.validTill

theorem hasToken_iff : hasToken sv token s = true ↔
    ∃ ses, sv.sessionAt s = some ses ∧ nodeIdEqual ses.authenticationToken token = true := by
  unfold hasToken
  cases sv.sessionAt s <;> simp

theorem secureChannelGetSession_spec (h : WellLinked sv)
    (hfind : secureChannelGetSession sv c token = some s) :
    ∃ ses, sv.sessionAt s = some ses ∧ ses.channel = some c ∧
      nodeIdEqual ses.authenticationToken token = true := by
  unfold secureChannelGetSession at hfind
  cases hc : sv.channelAt c with
  | none => rw [hc] at hfind; cases hfind
  | some ch =>
    rw [hc] at hfind
    have hmem : s ∈ entries sv c := by
      simpa [entries, hc] using List.mem_of_find?_eq_some hfind
    obtain ⟨ses, hses, htoken⟩ := hasToken_iff.1 (List.find?_some hfind)
    have hchan := (h.mem_entries_iff s c).1 hmem
    exact ⟨ses, hses, by simpa [chan, hses] using hchan, htoken⟩

theorem sessionManagerGetSession_spec (h : WellLinked sv)
    (hnone : secureChannelGetSession sv c token = none)
    (hfind : sessionManagerGetSession sv token = some s) {ses : Session}
    (hses : sv.sessionAt s = some ses) : ses.channel ≠ some c := by
  intro hchannel
  have htoken : hasToken sv token s = true := by
    unfold sessionManagerGetSession at hfind
    split at hfind
    · cases hfind
    · rename_i t ht
      split at hfind
      · cases hfind
      · cases hfind
        exact List.find?_some ht
  have hmem : s ∈ entries sv c := (h.mem_entries_iff s c).2 (by simp [chan, hses, hchannel])
  unfold secureChannelGetSession at hnone
  cases hc : sv.channelAt c with
  | none => simp [entries, hc] at hmem
  | some ch =>
    rw [hc] at hnone
    have hs := List.find?_eq_none.1 hnone s (by simpa [entries, hc] using hmem)
    exact hs htoken

def SameLifetimes (sv sv' : Server) : Prop :=
  ∀ s, (sv'.sessionAt s).map Session.validTill = (sv.sessionAt s).map Session.validTill

theorem SameLifetimes.not_extended {sv' : Server} (h : SameLifetimes sv sv') (s : Nat) :
    ¬ Extended sv sv' s := by
  rintro ⟨ses, ses', hses, hses', hlt⟩
  have hs := h s
  rw [hses, hses'] at hs
  simp only [Option.map_some, Option.some.injEq] at hs
  omega

theorem sameLifetimes_modifySession (sv : Server) (s : Nat) {f : Session → Session}
    (hf : ∀ ses, (f ses).validTill = ses.validTill) :
    SameLifetimes sv (sv.modifySession s f) := by
  intro t
  unfold Server.modifySession
  by_cases ht : t = s
  · subst ht
    cases sv.sessionAt t <;> simp [hf]
  · simp [ht]

theorem sameLifetimes_removeSession (sv : Server) (s : Nat) (alloc : Bool) :
    SameLifetimes sv (removeSession sv s alloc).1 := by
  have h := sameLifetimes_modifySession sv s (f := fun ses => { ses with activated := false })
    fun _ => rfl
  unfold removeSession
  split <;> exact h

theorem sameLifetimes_sessionManagerRemoveSession (sv : Server) (token : NodeId) (alloc : Bool) :
    SameLifetimes sv (sessionManagerRemoveSession sv token alloc).1 := by
  unfold sessionManagerRemoveSession
  split
  · exact fun _ => rfl
  · exact sameLifetimes_removeSession sv _ alloc

theorem sameLifetimes_callService (sv : Server) (requestType : RequestType) (s : Nat)
    (env : Environment) : SameLifetimes sv (callService sv requestType s env) := by
  unfold callService
  split
  · unfold serviceCloseSession
    split
    · exact fun _ => rfl
    · exact sameLifetimes_sessionManagerRemoveSession _ _ _
  · exact fun _ => rfl

theorem serviceCreateSession_not_extended (h : WellLinked sv) (c : Nat) (request : Request)
    (env : Environment) (s : Nat) :
    ¬ Extended sv (serviceCreateSession sv c request env).1 s := by
  have hcreated : ∀ sv₁ r, createSession sv request.requestedSessionTimeout env.sessionId
      env.token env.allocSession = (sv₁, r) → ∀ ses, sv.sessionAt s = some ses →
        sv₁.sessionAt s = some ses := by
    intro sv₁ r heq ses hses
    have hold : s ≠ sv.nextAddr := by
      rintro rfl
      have := (h.fresh sv.nextAddr le_rfl).1
      simp [live, hses] at this
    unfold createSession at heq
    split at heq
    · cases heq; exact hses
    · split at heq
      · cases heq
        simp [updateLifetime, Server.modifySession, hold, hses]
      · cases heq; exact hses
  rintro ⟨ses, ses', hses, hses', hlt⟩
  have hsame : (((serviceCreateSession sv c request env).1).sessionAt s).map Session.validTill =
      some ses.validTill := by
    unfold serviceCreateSession
    split
    · simp [hses]
    · split
      · simp [hses]
      · split
        · rename_i sv₁ status heq
          simp [hcreated sv₁ _ heq ses hses]
        · rename_i sv₁ newSession heq
          have hkept := hcreated sv₁ _ heq ses hses
          split
          · split
            · simp [hkept]
            · rw [sameLifetimes_sessionManagerRemoveSession sv₁ _ _ s, hkept]
              rfl
          · simp [hkept]
  rw [hses'] at hsame
  simp only [Option.map_some, Option.some.injEq] at hsame
  omega

theorem serveRequest_unattached (h : WellLinked sv) {request : Request} (env : Environment)
    (hnone : secureChannelGetSession sv c request.authenticationToken = none) :
    (∀ s, (serveRequest sv c request env).2 ≠ .served (some s)) ∧
      SameLifetimes sv (serveRequest sv c request env).1 := by
  unfold serveRequest findSession
  rw [hnone]
  split
  · split <;> exact ⟨by simp, fun _ => rfl⟩
  · rename_i s hfind
    split
    · exact ⟨by simp, fun _ => rfl⟩
    · rename_i ses hses
      have hchannel := sessionManagerGetSession_spec h hnone hfind hses
      split
      · exact ⟨by simp, sameLifetimes_sessionManagerRemoveSession _ _ _⟩
      · exact ⟨by simp, fun _ => rfl⟩

theorem serveRequest_attached (h : WellLinked sv) {request : Request} (env : Environment)
    {ses : Session} (hfind : secureChannelGetSession sv c request.authenticationToken = some s)
    (hses : sv.sessionAt s = some ses) :
    if request.requestType.requiresSession ∧ ¬ ses.activated then
      (∀ t, (serveRequest sv c request env).2 ≠ .served (some t)) ∧
        SameLifetimes sv (serveRequest sv c request env).1
    else
      (serveRequest sv c request env).2 = .served (some s) ∧
        ∀ t, Extended sv (serveRequest sv c request env).1 t ↔
          t = s ∧ ses.validTill < sv.clock + ⌊ses.timeout * 10000⌋ := by
  obtain ⟨ses', hses', hchannel, -⟩ := secureChannelGetSession_spec h hfind
  rw [hses, Option.some.injEq] at hses'
  subst hses'
  unfold serveRequest findSession
  rw [hfind]
  dsimp only
  rw [hses]
  dsimp only
  split
  · exact ⟨by simp, sameLifetimes_sessionManagerRemoveSession _ _ _⟩
  · rw [if_neg (by simp [hchannel])]
    refine ⟨rfl, fun t => ?_⟩
    have hcall := sameLifetimes_callService (updateLifetime sv s) request.requestType s env t
    constructor
    · rintro ⟨old, new, hold, hnew, hlt⟩
      rw [hnew] at hcall
      by_cases ht : t = s
      · subst ht
        rw [hses, Option.some.injEq] at hold
        subst hold
        have hvalid : new.validTill = sv.clock + ⌊ses.timeout * 10000⌋ := by
          simpa [updateLifetime, Server.modifySession, hses] using hcall
        exact ⟨rfl, hvalid ▸ hlt⟩
      · have hvalid : new.validTill = old.validTill := by
          simpa [updateLifetime, Server.modifySession, ht, hold] using hcall
        omega
    · rintro ⟨rfl, hlt⟩
      have hvalid : ((callService (updateLifetime sv t) request.requestType t env).sessionAt t).map
          Session.validTill = some (sv.clock + ⌊ses.timeout * 10000⌋) := by
        rw [hcall]
        simp [updateLifetime, Server.modifySession, hses]
      obtain ⟨new, hnew, hnewValid⟩ := Option.map_eq_some_iff.1 hvalid
      exact ⟨ses, new, hses, hnew, by omega⟩

theorem processMSG_serveRequest {request : Request} (env : Environment)
    (hcreate : request.requestType ≠ .createSession)
    (hactivate : request.requestType ≠ .activateSession) :
    processMSG sv c (some request) env = serveRequest sv c request env := by
  unfold processMSG
  dsimp only
  split
  · contradiction
  · contradiction
  · rfl

theorem servesLive_iff (h : WellLinked sv) (c : Nat) (request : Request) (env : Environment) :
    ServesLive sv c request env ↔ AttachedLive sv c request := by
  by_cases hcreate : request.requestType = .createSession
  · constructor
    · exact fun _ hne _ => absurd hcreate hne
    · intro _
      refine ⟨fun hrequires => ?_, fun _ s hext => ?_⟩
      · rw [hcreate] at hrequires
        cases hrequires
      unfold processMSG at hext
      dsimp only at hext
      rw [hcreate] at hext
      exact absurd hext (serviceCreateSession_not_extended h c request env s)
  by_cases hactivate : request.requestType = .activateSession
  · constructor
    · exact fun _ _ hne => absurd hactivate hne
    · intro _
      refine ⟨fun _ s hserved => ?_, fun hne => absurd hactivate hne⟩
      unfold processMSG at hserved
      dsimp only at hserved
      rw [hactivate] at hserved
      dsimp only at hserved
      split at hserved <;> cases hserved
  unfold ServesLive AttachedLive
  rw [processMSG_serveRequest env hcreate hactivate]
  cases hfind : secureChannelGetSession sv c request.authenticationToken with
  | none =>
    obtain ⟨hserved, hsame⟩ := serveRequest_unattached h env hfind
    constructor
    · intro _ _ _ s ses hs
      cases hs
    · exact fun _ => ⟨fun _ s hs => absurd hs (hserved s),
        fun _ s hext => absurd hext (hsame.not_extended s)⟩
  | some s =>
    obtain ⟨ses, hses, hchannel, htoken⟩ := secureChannelGetSession_spec h hfind
    have hentitled : Entitled sv c request.authenticationToken s ↔
        ses.activated = true ∧ sv.clock ≤ ses.validTill := by
      constructor
      · rintro ⟨ses', hses', -, hactivated, hvalid, -⟩
        rw [hses, Option.some.injEq] at hses'
        exact hses' ▸ ⟨hactivated, hvalid⟩
      · exact fun ⟨hactivated, hvalid⟩ => ⟨ses, hses, htoken, hactivated, hvalid, hchannel⟩
    have hspec := serveRequest_attached h env hfind hses
    split at hspec
    · rename_i hrefused
      obtain ⟨hserved, hsame⟩ := hspec
      constructor
      · rintro - - - s' ses' hs' hses'
        cases hs'
        rw [hses, Option.some.injEq] at hses'
        subst hses'
        rw [if_pos hrefused.1]
        exact fun hactivated => absurd hactivated hrefused.2
      · exact fun _ => ⟨fun _ s hs => absurd hs (hserved s),
          fun _ s hext => absurd hext (hsame.not_extended s)⟩
    · rename_i hrun
      obtain ⟨hserved, hext⟩ := hspec
      constructor
      · rintro ⟨hserve, hextend⟩ - - s' ses' hs' hses'
        cases hs'
        rw [hses, Option.some.injEq] at hses'
        subst hses'
        split
        · rename_i hrequires
          exact fun _ => (hentitled.1 (hserve hrequires s hserved)).2
        · by_cases hlt : ses.validTill < sv.clock + ⌊ses.timeout * 10000⌋
          · exact .inl (hentitled.1 (hextend hactivate s ((hext s).2 ⟨rfl, hlt⟩)))
          · exact .inr (Int.not_lt.1 hlt)
      · intro hattached
        have hlive := hattached hcreate hactivate s ses rfl hses
        constructor
        · intro hrequires s' hs'
          rw [hserved] at hs'
          cases hs'
          rw [if_pos hrequires] at hlive
          have hactivated : ses.activated = true := by
            by_contra hnot
            exact hrun ⟨hrequires, hnot⟩
          exact hentitled.2 ⟨hactivated, hlive hactivated⟩
        · intro _ t ht
          obtain ⟨rfl, hlt⟩ := (hext t).1 ht
          split at hlive
          · rename_i hrequires
            have hactivated : ses.activated = true := by
              by_contra hnot
              exact hrun ⟨hrequires, hnot⟩
            exact hentitled.2 ⟨hactivated, hlive hactivated⟩
          · rcases hlive with hok | hle
            · exact hentitled.2 hok
            · omega

/-- In every state of every run, a message is served to a live session only and extends the
lifetime of a live session only, exactly if the session its token names on the channel is live. -/
theorem run_servesLive_iff (config : Config) (clock : Int) (events : List Event) (c : Nat)
    (request : Request) (env : Environment) :
    ServesLive (events.foldl step (Server.init config clock)) c request env ↔
      AttachedLive (events.foldl step (Server.init config clock)) c request :=
  servesLive_iff (wellLinked_run config clock events) c request env

/-- A client opens a channel, creates and activates a session of one second, and reads two seconds
later, before the housekeeping job has looked at its sessions. -/
def lateRead : List Event :=
  let token : NodeId := ⟨1, .numeric 7⟩
  let env : Environment :=
    { sessionId := ⟨1, .numeric 6⟩, token := token, activateSession := StatusCode.good
      copyEndpoints := StatusCode.good, copyResponse := StatusCode.good
      allocSession := true, allocEntry := true, allocDelayed := true }
  [.open 1, .message 1 (some ⟨.createSession, token, 1000⟩) env,
    .message 1 (some ⟨.activateSession, token, 0⟩) env, .advance 20000000]

/-- In the state after `lateRead` a Read request is served to a session that has timed out. -/
theorem lateRead_served :
    ¬ ∀ (config : Config) (clock : Int) (events : List Event) (c : Nat) (request : Request)
      (env : Environment), request.requestType.requiresSession = true → ∀ s,
      (processMSG (events.foldl step (Server.init config clock)) c (some request) env).2 =
        .served (some s) →
      Entitled (events.foldl step (Server.init config clock)) c request.authenticationToken s := by
  intro h
  have hserved := h ⟨100, 3600000⟩ 0 lateRead 1 ⟨.read, ⟨1, .numeric 7⟩, 0⟩
    (.obliging ⟨0, .numeric 0⟩ ⟨0, .numeric 0⟩) rfl 2 (by decide +kernel)
  obtain ⟨ses, hses, -, -, hvalid, -⟩ := hserved
  have hlate : ((lateRead.foldl step (Server.init ⟨100, 3600000⟩ 0)).sessionAt 2).map
      Session.validTill = some 10000000 := by decide +kernel
  rw [hses] at hlate
  simp only [Option.map_some, Option.some.injEq] at hlate
  rw [hlate] at hvalid
  revert hvalid
  decide +kernel

end FactoryThing.Sessions
