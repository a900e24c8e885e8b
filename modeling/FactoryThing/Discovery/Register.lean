import FactoryThing.Encoding.Values
import FactoryThing.Lib.Runs
import Mathlib.Data.List.Nodup

/-!
# The register of servers

`process_RegisterServer` and `UA_Discovery_cleanupTimedOut`
(`src/server/ua_services_discovery.c:317-552`), built with semaphore files and without multicast.
The callback of the application sees the requests and does not change the register.
-/

namespace FactoryThing.Discovery

/-- `UA_RegisteredServer`. -/
structure RegisteredServer where
  serverUri : UaString
  productUri : UaString
  serverNames : List LocalizedText
  serverType : UInt32
  gatewayServerUri : UaString
  discoveryUrls : List UaString
  semaphoreFilePath : UaString
  isOnline : Bool
  deriving DecidableEq

/-- The memory of a `UA_RegisteredServer` that is all zero. -/
def RegisteredServer.zero : RegisteredServer :=
  ⟨.null, .null, [], 0, .null, [], .null, false⟩

/-- `registeredServer_list_entry`. -/
structure RegisteredEntry where
  registeredServer : RegisteredServer
  lastSeen : Int
  deriving DecidableEq

/-- `registeredServers` and `registeredServersSize` of the server. -/
structure Register where
  registeredServers : List RegisteredEntry
  registeredServersSize : Nat
  deriving DecidableEq

def Register.empty : Register := ⟨[], 0⟩

/-- An extension object of `discoveryConfiguration`: a decoded `UA_MdnsDiscoveryConfiguration`, or
another one. -/
inductive DiscoveryConfiguration where
  | mdns (mdnsServerName : UaString)
  | other
  deriving DecidableEq

/-- What an operation meets: the time, the files, the memory it asks for and what `UA_copy` answers.
`pathGranted` goes by the number of the path that is copied. -/
structure Surroundings where
  nowMonotonic : Int
  access : UaString → Bool
  resultsGranted : Bool
  pathGranted : Nat → Bool
  entryGranted : Bool
  copyStatus : StatusCode

/-- The response to a RegisterServer or a RegisterServer2 request. -/
structure RegisterReply where
  serviceResult : StatusCode
  configurationResults : List StatusCode
  deriving DecidableEq

/-- The entry with an URI (`:329-337`). -/
def Register.find (register : Register) (serverUri : UaString) : Option Nat :=
  register.registeredServers.findIdx? fun current =>
    stringEqual current.registeredServer.serverUri serverUri

/-- `mdnsServerName` (`:341-373`); `none` for `NULL`. -/
def mdnsServerName (requestServer : RegisteredServer)
    (discoveryConfiguration : List DiscoveryConfiguration) : Option UaString :=
  let configured := discoveryConfiguration.findSome? fun object =>
    match object with
    | .mdns name => some name
    | .other => none
  match configured with
  | some name => some name
  | none => requestServer.serverNames.head?.map (·.text)

/-- The results of the configurations (`:354-365`); the first mDNS configuration is the one. -/
def configurationResults (mdnsConfig : Bool) : List DiscoveryConfiguration → List StatusCode
  | [] => []
  | .mdns _ :: rest =>
      (if mdnsConfig then StatusCode.badNotSupported else StatusCode.good) ::
        configurationResults true rest
  | .other :: rest => StatusCode.badNotSupported :: configurationResults mdnsConfig rest

/-- A path is copied and the file looked for (`:382-391`, `:505-518`). A copy that gets no memory is
written to `NULL`. -/
def accessible (surroundings : Surroundings) (n : Nat) (path : UaString) : Except Fault Bool :=
  if surroundings.pathGranted n then .ok (surroundings.access path) else .error Fault.nullDeref

/-- Whether the semaphore file of a request is missing. -/
def semaphoreMissing (surroundings : Surroundings) (requestServer : RegisteredServer) :
    Except Fault Bool :=
  if requestServer.semaphoreFilePath.length > 0 then do
    return !(← accessible surroundings 0 requestServer.semaphoreFilePath)
  else return false

/-- `UA_RegisteredServer_copy`: the destination is zero when it fails. -/
def registeredServerCopy (surroundings : Surroundings) (src : RegisteredServer) :
    RegisteredServer :=
  if surroundings.copyStatus = StatusCode.good then src else RegisteredServer.zero

/-- A server that shuts down (`:412-440`). -/
def Register.unregister (register : Register) (serverUri : UaString) : StatusCode × Register :=
  match register.find serverUri with
  | none => (StatusCode.badNotFound, register)
  | some i =>
      (StatusCode.good,
        { registeredServers := register.registeredServers.eraseIdx i
          registeredServersSize := register.registeredServersSize - 1 })

/-- A server that is online (`:442-474`). The status of the copy is not looked at. -/
def Register.register (surroundings : Surroundings) (register : Register)
    (requestServer : RegisteredServer) : StatusCode × Register :=
  let entry : RegisteredEntry :=
    ⟨registeredServerCopy surroundings requestServer, surroundings.nowMonotonic⟩
  match register.find requestServer.serverUri with
  | none =>
      if surroundings.entryGranted then
        (StatusCode.good,
          { registeredServers := entry :: register.registeredServers
            registeredServersSize := register.registeredServersSize + 1 })
      else (StatusCode.badOutOfMemory, register)
  | some i =>
      (StatusCode.good,
        { register with registeredServers := register.registeredServers.set i entry })

/-- `process_RegisterServer` (`:318-470`). -/
def processRegisterServer (surroundings : Surroundings) (register : Register)
    (requestServer : RegisteredServer) (discoveryConfiguration : List DiscoveryConfiguration) :
    Except Fault (Register × RegisterReply) :=
  if discoveryConfiguration ≠ [] ∧ !surroundings.resultsGranted then
    return (register, ⟨StatusCode.badOutOfMemory, []⟩)
  else
    let results := configurationResults false discoveryConfiguration
    if mdnsServerName requestServer discoveryConfiguration = none then
      return (register, ⟨StatusCode.badServerNameMissing, results⟩)
    else if requestServer.discoveryUrls = [] then
      return (register, ⟨StatusCode.badDiscoveryUrlMissing, results⟩)
    else do
      if ← semaphoreMissing surroundings requestServer then
        return (register, ⟨StatusCode.badSempahoreFileMissing, results⟩)
      else
        let (serviceResult, register) :=
          if requestServer.isOnline then register.register surroundings requestServer
          else register.unregister requestServer.serverUri
        return (register, ⟨serviceResult, results⟩)

def secToDateTime : Int := 10000000

/-- The loop over the entries (`:500-551`); `n` paths have been copied. -/
def cleanupLoop (surroundings : Surroundings) (discoveryCleanupTimeout : UInt32) (timedOut : Int) :
    Nat → List RegisteredEntry → Nat → Except Fault Register
  | _, [], registeredServersSize => return ⟨[], registeredServersSize⟩
  | n, current :: rest, registeredServersSize => do
    let path := current.registeredServer.semaphoreFilePath
    let (semaphoreDeleted, n) ←
      if path.length > 0 then do
        let found ← accessible surroundings n path
        pure (!found, n + 1)
      else pure (false, n)
    if semaphoreDeleted ∨ (discoveryCleanupTimeout ≠ 0 ∧ current.lastSeen < timedOut) then
      cleanupLoop surroundings discoveryCleanupTimeout timedOut n rest (registeredServersSize - 1)
    else do
      let kept ← cleanupLoop surroundings discoveryCleanupTimeout timedOut n rest
        registeredServersSize
      return { kept with registeredServers := current :: kept.registeredServers }

/-- `UA_Discovery_cleanupTimedOut`. -/
def cleanupTimedOut (surroundings : Surroundings) (discoveryCleanupTimeout : UInt32)
    (register : Register) : Except Fault Register :=
  let timedOut :=
    if discoveryCleanupTimeout ≠ 0 then
      surroundings.nowMonotonic - discoveryCleanupTimeout.toNat * secToDateTime
    else surroundings.nowMonotonic
  cleanupLoop surroundings discoveryCleanupTimeout timedOut 0 register.registeredServers
    register.registeredServersSize

/-- What changes the register. -/
inductive RegisterEvent where
  /-- `Service_RegisterServer` -/
  | registerServer (requestServer : RegisteredServer)
  /-- `Service_RegisterServer2` -/
  | registerServer2 (requestServer : RegisteredServer)
      (discoveryConfiguration : List DiscoveryConfiguration)
  /-- the clean-up of the server, with the timeout it is configured with -/
  | cleanup (discoveryCleanupTimeout : UInt32)

abbrev Happening := Surroundings × RegisterEvent

/-- One request or clean-up. -/
def stepRegister (register : Register) (happening : Happening) :
    Except Fault (Register × Option RegisterReply) :=
  let (surroundings, event) := happening
  match event with
  | .registerServer requestServer =>
      (processRegisterServer surroundings register requestServer []).map (Prod.map id some)
  | .registerServer2 requestServer configuration =>
      (processRegisterServer surroundings register requestServer configuration).map
        (Prod.map id some)
  | .cleanup timeout =>
      (cleanupTimedOut surroundings timeout register).map fun register => (register, none)

def RegisteredEntry.uri (entry : RegisteredEntry) : List UInt8 :=
  entry.registeredServer.serverUri.items

/-- There is one entry at most for each URI, and they are counted. -/
structure Register.Consistent (register : Register) : Prop where
  size : register.registeredServersSize = register.registeredServers.length
  unique : (register.registeredServers.map RegisteredEntry.uri).Nodup

/-- A request passes the checks of the service. -/
structure Admitted (surroundings : Surroundings) (requestServer : RegisteredServer)
    (discoveryConfiguration : List DiscoveryConfiguration) : Prop where
  results : discoveryConfiguration ≠ [] → surroundings.resultsGranted = true
  name : mdnsServerName requestServer discoveryConfiguration ≠ none
  urls : requestServer.discoveryUrls ≠ []
  semaphore : requestServer.semaphoreFilePath.length > 0 →
    surroundings.access requestServer.semaphoreFilePath = true

/-- An entry is past its timeout, or its semaphore file is gone. -/
def Expired (surroundings : Surroundings) (discoveryCleanupTimeout : UInt32)
    (entry : RegisteredEntry) : Prop :=
  (entry.registeredServer.semaphoreFilePath.length > 0 ∧
      surroundings.access entry.registeredServer.semaphoreFilePath = false) ∨
    (discoveryCleanupTimeout ≠ 0 ∧
      entry.lastSeen + discoveryCleanupTimeout.toNat * secToDateTime < surroundings.nowMonotonic)

instance (surroundings : Surroundings) (timeout : UInt32) :
    DecidablePred (Expired surroundings timeout) :=
  fun _ => inferInstanceAs (Decidable (_ ∨ _))

variable {surroundings : Surroundings} {register register' : Register}
  {requestServer : RegisteredServer} {configuration : List DiscoveryConfiguration}
  {reply : RegisterReply}

theorem semaphoreMissing_ok {missing : Bool}
    (h : semaphoreMissing surroundings requestServer = .ok missing) :
    missing = true ↔ ¬ (requestServer.semaphoreFilePath.length > 0 →
      surroundings.access requestServer.semaphoreFilePath = true) := by
  unfold semaphoreMissing at h
  by_cases hpath : requestServer.semaphoreFilePath.length > 0
  · rw [if_pos hpath, accessible] at h
    by_cases hgranted : surroundings.pathGranted 0 = true
    · rw [if_pos hgranted] at h
      cases h
      rw [Bool.not_eq_true', Classical.not_imp, Bool.not_eq_true]
      exact (and_iff_right hpath).symm
    · rw [if_neg hgranted] at h
      cases h
  · rw [if_neg hpath] at h
    cases h
    exact ⟨nofun, fun hno => absurd (fun hlength => absurd hlength hpath) hno⟩

theorem processRegisterServer_cases
    (h : processRegisterServer surroundings register requestServer configuration =
      .ok (register', reply)) :
    (¬ Admitted surroundings requestServer configuration ∧ register' = register) ∨
    (Admitted surroundings requestServer configuration ∧ requestServer.isOnline = true ∧
      register' = (register.register surroundings requestServer).2) ∨
    (Admitted surroundings requestServer configuration ∧ requestServer.isOnline = false ∧
      register' = (register.unregister requestServer.serverUri).2) := by
  unfold processRegisterServer at h
  split at h
  · rename_i hresults
    cases h
    refine .inl ⟨fun hadmitted => ?_, rfl⟩
    rw [hadmitted.results hresults.1] at hresults
    exact absurd hresults.2 (by decide)
  rename_i hresults
  split at h
  · rename_i hname
    cases h
    exact .inl ⟨fun hadmitted => hadmitted.name hname, rfl⟩
  rename_i hname
  split at h
  · rename_i hurls
    cases h
    exact .inl ⟨fun hadmitted => hadmitted.urls hurls, rfl⟩
  rename_i hurls
  cases hmissing : semaphoreMissing surroundings requestServer with
  | error f =>
    rw [hmissing] at h
    cases h
  | ok missing =>
    have hiff := semaphoreMissing_ok hmissing
    rw [hmissing] at h
    cases missing with
    | true =>
      cases h
      exact .inl ⟨fun hadmitted => hiff.mp rfl hadmitted.semaphore, rfl⟩
    | false =>
      have hadmitted : Admitted surroundings requestServer configuration := by
        refine ⟨fun hne => ?_, hname, hurls, ?_⟩
        · by_contra hrefused
          exact hresults ⟨hne, by rw [Bool.eq_false_iff.mpr hrefused]; rfl⟩
        · by_contra hno
          exact absurd (hiff.mpr hno) (by decide)
      cases honline : requestServer.isOnline with
      | true =>
        rw [honline] at h
        cases h
        exact .inr (.inl ⟨hadmitted, rfl, rfl⟩)
      | false =>
        rw [honline] at h
        cases h
        exact .inr (.inr ⟨hadmitted, rfl, rfl⟩)

/-- The entries for other servers. -/
def Register.others (register : Register) (serverUri : UaString) : List RegisteredEntry :=
  register.registeredServers.filter fun entry =>
    !stringEqual entry.registeredServer.serverUri serverUri

theorem eraseP_eq_filter {β : Type} [BEq β] [LawfulBEq β] {key : RegisteredEntry → β} {b : β}
    {entries : List RegisteredEntry} (h : (entries.map key).Nodup) :
    entries.eraseP (fun e => key e == b) = entries.filter fun e => !(key e == b) := by
  induction entries with
  | nil => rfl
  | cons e entries ih =>
    rw [List.map_cons, List.nodup_cons] at h
    by_cases hkey : (key e == b) = true
    · have hall : ∀ x ∈ entries, (!(key x == b)) = true := by
        intro x hx
        rw [Bool.not_eq_true', beq_eq_false_iff_ne]
        rintro rfl
        exact h.1 (eq_of_beq hkey ▸ List.mem_map_of_mem hx)
      rw [List.eraseP_cons_of_pos (p := fun e => key e == b) hkey,
        List.filter_cons_of_neg (by rw [hkey]; decide), List.filter_eq_self.mpr hall]
    · rw [List.eraseP_cons_of_neg (p := fun e => key e == b) hkey,
        List.filter_cons_of_pos (by rw [Bool.eq_false_iff.mpr hkey]; rfl), ih h.2]

theorem Register.Consistent.registeredServers_unregister (h : register.Consistent)
    (serverUri : UaString) :
    (register.unregister serverUri).2.registeredServers = register.others serverUri := by
  have herase : register.registeredServers.eraseP
      (fun entry => stringEqual entry.registeredServer.serverUri serverUri) =
        register.others serverUri := eraseP_eq_filter (b := serverUri.items) h.unique
  rw [← herase, List.eraseP_eq_eraseIdx, Register.unregister]
  unfold Register.find
  split
  · rename_i hnone
    rw [hnone]
  · rename_i i hi
    rw [hi]

theorem Register.Consistent.unregistered (h : register.Consistent) (serverUri : UaString) :
    (register.unregister serverUri).2.Consistent := by
  refine ⟨?_, ?_⟩
  · unfold Register.unregister
    cases hfind : register.find serverUri with
    | none => exact h.size
    | some i =>
      have hlt : i < register.registeredServers.length :=
        (List.findIdx?_eq_some_iff_findIdx_eq.mp hfind).1
      rw [List.length_eraseIdx_of_lt hlt, h.size]
  · rw [h.registeredServers_unregister]
    exact h.unique.sublist (List.filter_sublist.map _)

theorem set_of_getElem? {β : Type} {xs : List β} {i : Nat} {x : β} (h : xs[i]? = some x) :
    xs.set i x = xs := by
  obtain ⟨hlt, rfl⟩ := List.getElem?_eq_some_iff.mp h
  exact List.set_getElem_self hlt

theorem Register.Consistent.registered (h : register.Consistent)
    (hcopy : surroundings.copyStatus = StatusCode.good) (requestServer : RegisteredServer) :
    (register.register surroundings requestServer).2.Consistent := by
  unfold Register.register registeredServerCopy
  rw [if_pos hcopy]
  cases hfind : register.find requestServer.serverUri with
  | none =>
    have hnone := List.findIdx?_eq_none_iff.mp hfind
    dsimp only
    split
    · refine ⟨by rw [List.length_cons, h.size], ?_⟩
      rw [List.map_cons, List.nodup_cons]
      refine ⟨fun hmem => ?_, h.unique⟩
      obtain ⟨entry, hentry, huri⟩ := List.mem_map.mp hmem
      exact absurd (beq_of_eq huri) (Bool.eq_false_iff.mp (hnone entry hentry))
    · exact h
  | some i =>
    obtain ⟨hlt, huri, -⟩ := List.findIdx?_eq_some_iff_getElem.mp hfind
    refine ⟨by rw [List.length_set]; exact h.size, ?_⟩
    have hsame : (register.registeredServers.map RegisteredEntry.uri)[i]? =
        some requestServer.serverUri.items := by
      rw [List.getElem?_map, List.getElem?_eq_getElem hlt]
      exact congrArg some (eq_of_beq huri)
    rw [List.map_set, RegisteredEntry.uri]
    rw [set_of_getElem? hsame]
    exact h.unique

variable {timeout : UInt32} {r : Option RegisterReply}

theorem cleanupLoop_cons {timedOut : Int} {n size : Nat} {current : RegisteredEntry}
    {rest : List RegisteredEntry}
    (htimedOut : timeout ≠ 0 → timedOut = surroundings.nowMonotonic - timeout.toNat * secToDateTime)
    (h : cleanupLoop surroundings timeout timedOut n (current :: rest) size = .ok register') :
    ∃ n', (Expired surroundings timeout current ∧
        cleanupLoop surroundings timeout timedOut n' rest (size - 1) = .ok register') ∨
      (¬ Expired surroundings timeout current ∧
        ∃ kept, cleanupLoop surroundings timeout timedOut n' rest size = .ok kept ∧
          register' = { kept with registeredServers := current :: kept.registeredServers }) := by
  have hlate : (timeout ≠ 0 ∧ current.lastSeen < timedOut) ↔ (timeout ≠ 0 ∧
      current.lastSeen + timeout.toNat * secToDateTime < surroundings.nowMonotonic) := by
    refine and_congr_right fun hne => ?_
    rw [htimedOut hne]
    omega
  -- the rest of the round, once it is known whether the semaphore file is gone
  have hround : ∀ {semaphoreDeleted : Bool} {n' : Nat},
      (semaphoreDeleted = true ↔ current.registeredServer.semaphoreFilePath.length > 0 ∧
        surroundings.access current.registeredServer.semaphoreFilePath = false) →
      (if semaphoreDeleted ∨ (timeout ≠ 0 ∧ current.lastSeen < timedOut) then
          cleanupLoop surroundings timeout timedOut n' rest (size - 1)
        else do
          let kept ← cleanupLoop surroundings timeout timedOut n' rest size
          return { kept with registeredServers := current :: kept.registeredServers }) =
        .ok register' →
      (Expired surroundings timeout current ∧
        cleanupLoop surroundings timeout timedOut n' rest (size - 1) = .ok register') ∨
      (¬ Expired surroundings timeout current ∧
        ∃ kept, cleanupLoop surroundings timeout timedOut n' rest size = .ok kept ∧
          register' = { kept with registeredServers := current :: kept.registeredServers }) := by
    intro semaphoreDeleted n' hdeleted hrun
    have hexpired : (semaphoreDeleted ∨ (timeout ≠ 0 ∧ current.lastSeen < timedOut)) ↔
        Expired surroundings timeout current := or_congr hdeleted hlate
    split at hrun
    · rename_i hyes
      exact .inl ⟨hexpired.mp hyes, hrun⟩
    · rename_i hno
      refine .inr ⟨fun hyes => hno (hexpired.mpr hyes), ?_⟩
      cases hkept : cleanupLoop surroundings timeout timedOut n' rest size with
      | error f =>
        rw [hkept] at hrun
        cases hrun
      | ok kept =>
        rw [hkept] at hrun
        cases hrun
        exact ⟨kept, rfl, rfl⟩
  rw [cleanupLoop] at h
  by_cases hpath : current.registeredServer.semaphoreFilePath.length > 0
  · rw [if_pos hpath, accessible] at h
    by_cases hgranted : surroundings.pathGranted n = true
    · rw [if_pos hgranted] at h
      refine ⟨n + 1, hround ?_ h⟩
      rw [Bool.not_eq_true']
      exact (and_iff_right hpath).symm
    · rw [if_neg hgranted] at h
      cases h
  · rw [if_neg hpath] at h
    refine ⟨n, hround ?_ h⟩
    exact ⟨nofun, fun hdeleted => absurd hdeleted.1 hpath⟩

theorem cleanupLoop_ok {timedOut : Int} {n size k : Nat} {entries : List RegisteredEntry}
    (htimedOut : timeout ≠ 0 → timedOut = surroundings.nowMonotonic - timeout.toNat * secToDateTime)
    (hsize : size = entries.length + k)
    (h : cleanupLoop surroundings timeout timedOut n entries size = .ok register') :
    register'.registeredServers = entries.filter (fun e => ¬ Expired surroundings timeout e) ∧
      register'.registeredServersSize = register'.registeredServers.length + k := by
  induction entries generalizing n size k register' with
  | nil =>
    cases h
    exact ⟨rfl, hsize⟩
  | cons current rest ih =>
    rw [List.length_cons] at hsize
    obtain ⟨n', ⟨hexpired, hrest⟩ | ⟨hstays, kept, hrest, rfl⟩⟩ := cleanupLoop_cons htimedOut h
    · rw [List.filter_cons_of_neg (by rw [decide_eq_true_eq, not_not]; exact hexpired)]
      exact ih (by omega) hrest
    · obtain ⟨hkept, hcount⟩ := ih (k := k + 1) (by omega) hrest
      rw [List.filter_cons_of_pos (by rw [decide_eq_true_eq]; exact hstays)]
      refine ⟨congrArg (current :: ·) hkept, ?_⟩
      rw [List.length_cons]
      dsimp only
      omega

theorem Register.Consistent.cleanedUp (h : register.Consistent)
    (hrun : cleanupTimedOut surroundings timeout register = .ok register') :
    register'.registeredServers =
        register.registeredServers.filter (fun e => ¬ Expired surroundings timeout e) ∧
      register'.Consistent := by
  obtain ⟨hkept, hcount⟩ := cleanupLoop_ok (k := 0) (fun hne => if_pos hne) h.size hrun
  refine ⟨hkept, hcount, ?_⟩
  rw [hkept]
  exact h.unique.sublist (List.filter_sublist.map _)

/-- What an offline request does: the named entry is removed if the request is admitted. -/
def OfflineEffect (surroundings : Surroundings) (register : Register)
    (requestServer : RegisteredServer) (configuration : List DiscoveryConfiguration)
    (register' : Register) : Prop :=
  requestServer.isOnline = false →
    (Admitted surroundings requestServer configuration →
      register'.registeredServers = register.others requestServer.serverUri) ∧
    (¬ Admitted surroundings requestServer configuration → register' = register)

/-- What an event may remove: the entry it names, or what has expired. -/
def Effect (register : Register) : Happening → Register → Prop
  | (surroundings, .registerServer requestServer), register' =>
      OfflineEffect surroundings register requestServer [] register'
  | (surroundings, .registerServer2 requestServer configuration), register' =>
      OfflineEffect surroundings register requestServer configuration register'
  | (surroundings, .cleanup timeout), register' =>
      register'.registeredServers =
        register.registeredServers.filter fun e => ¬ Expired surroundings timeout e

/-- The copy of an online request into its entry gets the memory it needs. -/
def Copies (_register : Register) : Happening → Prop
  | (surroundings, .registerServer requestServer) =>
      requestServer.isOnline = true → surroundings.copyStatus = StatusCode.good
  | (surroundings, .registerServer2 requestServer _) =>
      requestServer.isOnline = true → surroundings.copyStatus = StatusCode.good
  | (_, .cleanup _) => True

theorem processRegisterServer_consistent (h : register.Consistent)
    (hcopy : requestServer.isOnline = true → surroundings.copyStatus = StatusCode.good)
    (hrun : processRegisterServer surroundings register requestServer configuration =
      .ok (register', reply)) : register'.Consistent := by
  obtain ⟨-, rfl⟩ | ⟨-, honline, rfl⟩ | ⟨-, -, rfl⟩ := processRegisterServer_cases hrun
  · exact h
  · exact h.registered (hcopy honline) requestServer
  · exact h.unregistered requestServer.serverUri

theorem processRegisterServer_offline (h : register.Consistent)
    (hrun : processRegisterServer surroundings register requestServer configuration =
      .ok (register', reply)) :
    OfflineEffect surroundings register requestServer configuration register' := by
  intro hoffline
  obtain ⟨hrefused, rfl⟩ | ⟨-, honline, -⟩ | ⟨hadmitted, -, rfl⟩ := processRegisterServer_cases hrun
  · exact ⟨fun hadmitted => absurd hadmitted hrefused, fun _ => rfl⟩
  · rw [honline] at hoffline
    cases hoffline
  · exact ⟨fun _ => h.registeredServers_unregister requestServer.serverUri,
      fun hrefused => absurd hadmitted hrefused⟩

theorem process_of_map {r : Option RegisterReply}
    (h : (processRegisterServer surroundings register requestServer configuration).map
      (Prod.map id some) = .ok (register', r)) :
    ∃ reply, processRegisterServer surroundings register requestServer configuration =
      .ok (register', reply) := by
  cases hrun : processRegisterServer surroundings register requestServer configuration with
  | error f =>
    rw [hrun] at h
    cases h
  | ok p =>
    rw [hrun] at h
    cases h
    exact ⟨p.2, rfl⟩

theorem cleanup_of_map
    (h : stepRegister register (surroundings, .cleanup timeout) = .ok (register', r)) :
    cleanupTimedOut surroundings timeout register = .ok register' := by
  cases hrun : cleanupTimedOut surroundings timeout register with
  | error f =>
    rw [stepRegister, hrun] at h
    cases h
  | ok register₁ =>
    rw [stepRegister, hrun] at h
    cases h
    rfl

theorem stepRegister_consistent {happening : Happening} (h : register.Consistent)
    (hcopy : Copies register happening)
    (hstep : stepRegister register happening = .ok (register', r)) : register'.Consistent := by
  obtain ⟨surroundings, event⟩ := happening
  cases event with
  | registerServer requestServer =>
    obtain ⟨reply, hrun⟩ := process_of_map hstep
    exact processRegisterServer_consistent h hcopy hrun
  | registerServer2 requestServer configuration =>
    obtain ⟨reply, hrun⟩ := process_of_map hstep
    exact processRegisterServer_consistent h hcopy hrun
  | cleanup timeout => exact (h.cleanedUp (cleanup_of_map hstep)).2

theorem stepRegister_effect {happening : Happening} (h : register.Consistent)
    (hstep : stepRegister register happening = .ok (register', r)) :
    Effect register happening register' := by
  obtain ⟨surroundings, event⟩ := happening
  cases event with
  | registerServer requestServer =>
    obtain ⟨reply, hrun⟩ := process_of_map hstep
    exact processRegisterServer_offline h hrun
  | registerServer2 requestServer configuration =>
    obtain ⟨reply, hrun⟩ := process_of_map hstep
    exact processRegisterServer_offline h hrun
  | cleanup timeout => exact (h.cleanedUp (cleanup_of_map hstep)).1

theorem consistent_empty : Register.empty.Consistent := ⟨rfl, List.nodup_nil⟩

/-- In every run the register is consistent, and every next event removes just what it should. -/
theorem register_of_run {happenings : List Happening} {replies : List (Option RegisterReply)}
    (hcopies : Runs.Guarded stepRegister Copies Register.empty happenings)
    (hrun : Runs.run stepRegister Register.empty happenings = .ok (register, replies)) :
    register.Consistent ∧
      ∀ happening register' r, stepRegister register happening = .ok (register', r) →
        Effect register happening register' := by
  have hconsistent : register.Consistent :=
    Runs.invariant_of_guarded
      (fun _ _ _ _ hinv hcopy hstep => stepRegister_consistent hinv hcopy hstep)
      happenings Register.empty register replies consistent_empty hcopies hrun
  exact ⟨hconsistent, fun _ _ _ hstep => stepRegister_effect hconsistent hstep⟩

def plentifulSurroundings : Surroundings :=
  ⟨0, fun _ => true, true, fun _ => true, true, StatusCode.good⟩

/-- A server with a name and an URL, without semaphore file. -/
def pumpServer : RegisteredServer :=
  ⟨.mem [112], .null, [⟨.null, .mem [112]⟩], 0, .null, [.mem [117]], .null, true⟩

def pumpRegister : Register := ⟨[⟨pumpServer, 0⟩], 1⟩

def valveServer : RegisteredServer := { pumpServer with serverUri := .mem [118] }

/-- The valve has registered at the start and the pump 50 seconds later. -/
def valveAndPump : Register := ⟨[⟨pumpServer, 500000000⟩, ⟨valveServer, 0⟩], 2⟩

/-- A clean-up after 70 seconds, with a timeout of a minute, removes the valve. -/
theorem valve_cleanedUp :
    valveAndPump.Consistent ∧
      Effect valveAndPump ({ plentifulSurroundings with nowMonotonic := 700000000 }, .cleanup 60)
        ⟨[⟨pumpServer, 500000000⟩], 1⟩ := by
  have hcopies : Runs.Guarded stepRegister Copies Register.empty
      [(plentifulSurroundings, .registerServer valveServer),
        ({ plentifulSurroundings with nowMonotonic := 500000000 }, .registerServer pumpServer)] :=
    ⟨fun _ => rfl, fun _ => rfl, trivial⟩
  obtain ⟨hconsistent, heffect⟩ := register_of_run hcopies
    (show _ = Except.ok (valveAndPump, _) from rfl)
  exact ⟨hconsistent, heffect _ _ none rfl⟩

/-- A server that shuts down and gives no URL stays in the register. -/
theorem pumpServer_stays :
    ∃ register register' r,
      Runs.run stepRegister Register.empty [(plentifulSurroundings, .registerServer pumpServer)] =
        .ok (register, [some ⟨StatusCode.good, []⟩]) ∧
      stepRegister register (plentifulSurroundings,
        .registerServer { pumpServer with isOnline := false, discoveryUrls := [] }) =
          .ok (register', r) ∧
      register'.registeredServers ≠ register.others pumpServer.serverUri :=
  ⟨pumpRegister, pumpRegister, some ⟨StatusCode.badDiscoveryUrlMissing, []⟩, rfl, rfl, by decide⟩

end FactoryThing.Discovery
