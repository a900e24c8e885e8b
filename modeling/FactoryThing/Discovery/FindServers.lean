import FactoryThing.Discovery.Register
import FactoryThing.Lib.Stateful
import Mathlib.Data.List.Count
import Mathlib.Data.List.Perm.Subperm

/-!
# Finding servers

`Service_FindServers` (`src/server/ua_services_discovery.c:18-229`). The array of the entries that
were asked for has one place for each registered server, and it is filled by a loop over the URIs of
the request.
-/

namespace FactoryThing.Discovery

open Stateful

/-! ## Descriptions -/

/-- `UA_ApplicationDescription`. -/
structure ApplicationDescription where
  applicationUri : UaString
  productUri : UaString
  applicationName : LocalizedText
  applicationType : UInt32
  gatewayServerUri : UaString
  discoveryProfileUri : UaString
  discoveryUrls : List UaString
  deriving DecidableEq

/-- `UA_APPLICATIONTYPE_SERVER` and `UA_APPLICATIONTYPE_DISCOVERYSERVER`. -/
def applicationTypeServer : UInt32 := 0
def applicationTypeDiscoveryServer : UInt32 := 3

/-- The server: its own description, the URLs of its network layers and the register. -/
structure DiscoveryServer where
  applicationDescription : ApplicationDescription
  networkLayers : List UaString
  register : Register

structure FindServersRequest where
  serverUris : List UaString
  localeIds : List UaString

/-- How the calls of `UA_malloc` and `UA_copy` are answered, by their number. -/
structure Memory where
  alloc : Nat → Bool
  copyStatus : Nat → StatusCode

structure Memory.Plentiful (memory : Memory) : Prop where
  alloc : ∀ n, memory.alloc n = true
  copyStatus : ∀ n, memory.copyStatus n = StatusCode.good

/-- The state counts the calls that have been answered. -/
abbrev FindM := StateT Nat (Except Fault)

section Service

variable (memory : Memory)

/-- `UA_malloc`. -/
def allocate : FindM Bool := do
  let n ← get
  set (n + 1)
  return memory.alloc n

/-- `UA_copy`; the destination is zero when it fails. -/
def copyOrZero {β : Type} (zero src : β) : FindM (StatusCode × β) := do
  let n ← get
  set (n + 1)
  let retval := memory.copyStatus n
  return (retval, if retval = StatusCode.good then src else zero)

/-- A loop of copies that collects the status. -/
def copyStrings : List UaString → FindM (StatusCode × List UaString)
  | [] => return (StatusCode.good, [])
  | src :: rest => do
    let (retval, dst) ← copyOrZero memory .null src
    let (retval', dsts) ← copyStrings rest
    return (retval ||| retval', dst :: dsts)

/-- The name for the first locale there is one for, or the first name (`:30-51`). -/
def selectName (request : FindServersRequest) (registeredServer : RegisteredServer) :
    Option LocalizedText :=
  let requested := request.localeIds.findSome? fun locale =>
    registeredServer.serverNames.find? fun name => stringEqual locale name.locale
  match requested with
  | some name => some name
  | none => registeredServer.serverNames.head?

/-- The name in the description, if there is one. -/
def copyName : Option LocalizedText → FindM (StatusCode × LocalizedText)
  | some name => copyOrZero memory ⟨.null, .null⟩ name
  | none => return (StatusCode.good, ⟨.null, .null⟩)

/-- `setApplicationDescriptionFromRegisteredServer` (`:18-68`). -/
def setApplicationDescriptionFromRegisteredServer (request : FindServersRequest)
    (registeredServer : RegisteredServer) : FindM (StatusCode × ApplicationDescription) := do
  let (uriStatus, applicationUri) ← copyOrZero memory .null registeredServer.serverUri
  let (productStatus, productUri) ← copyOrZero memory .null registeredServer.productUri
  let (nameStatus, applicationName) ← copyName memory (selectName request registeredServer)
  let (gatewayStatus, gatewayServerUri) ← copyOrZero memory .null registeredServer.gatewayServerUri
  let retval := uriStatus ||| productStatus ||| nameStatus ||| gatewayStatus
  let target : ApplicationDescription :=
    ⟨applicationUri, productUri, applicationName, registeredServer.serverType, gatewayServerUri,
      .null, []⟩
  if registeredServer.discoveryUrls = [] then return (retval, target)
  else
    if ← allocate memory then
      let (urlStatus, discoveryUrls) ← copyStrings memory registeredServer.discoveryUrls
      return (retval ||| urlStatus, { target with discoveryUrls := discoveryUrls })
    else return (StatusCode.badOutOfMemory, target)

/-- `setApplicationDescriptionFromServer` (`:71-101`). The status of the copied URLs is not looked
at. -/
def setApplicationDescriptionFromServer (server : DiscoveryServer) :
    FindM (StatusCode × ApplicationDescription) := do
  let zero : ApplicationDescription := ⟨.null, .null, ⟨.null, .null⟩, 0, .null, .null, []⟩
  let (result, target) ← copyOrZero memory zero server.applicationDescription
  if result ≠ StatusCode.good then return (result, target)
  else
    let applicationType :=
      if target.applicationType = applicationTypeDiscoveryServer then applicationTypeServer
      else target.applicationType
    if ← allocate memory then
      let (_, urls) ← copyStrings memory server.networkLayers
      return (StatusCode.good,
        { target with
          applicationType := applicationType
          discoveryUrls := target.discoveryUrls ++ urls })
    else return (StatusCode.badOutOfMemory, { target with applicationType := applicationType })

/-- A pointer to an entry of the register: the entry, and its place in the list. -/
abbrev EntryPointer := RegisteredEntry × Nat

/-- Which server an entry of the response is about. -/
inductive FoundServer where
  | self
  | registered (entry : EntryPointer)
  deriving DecidableEq

/-- `UA_FindServersResponse`; every description stands with the server it was made from. -/
structure FindServersResponse where
  serviceResult : StatusCode
  servers : List (FoundServer × ApplicationDescription)

/-- The entries of the register, as the loops go over them. -/
def Register.pointers (register : Register) : List EntryPointer :=
  register.registeredServers.zipIdx

/-- The first entry with an URI (`:144-149`). -/
def Register.lookup (register : Register) (serverUri : UaString) : Option EntryPointer :=
  register.pointers.find? fun current =>
    stringEqual current.1.registeredServer.serverUri serverUri

/-- The loop over the URIs of the request (`:139-151`), with the array of `fsfpSize` places. -/
def filterServers (server : DiscoveryServer) (fsfpSize : Nat) :
    List UaString → Bool → List EntryPointer → Except Fault (Bool × List EntryPointer)
  | [], addSelf, foundServerFilteredPointer => return (addSelf, foundServerFilteredPointer)
  | serverUri :: rest, addSelf, foundServerFilteredPointer =>
    if !addSelf && stringEqual serverUri server.applicationDescription.applicationUri then
      filterServers server fsfpSize rest true foundServerFilteredPointer
    else
      match server.register.lookup serverUri with
      | none => filterServers server fsfpSize rest addSelf foundServerFilteredPointer
      | some current =>
          if foundServerFilteredPointer.length < fsfpSize then
            filterServers server fsfpSize rest addSelf (foundServerFilteredPointer ++ [current])
          else throw Fault.outOfBounds

/-- The descriptions of registered servers (`:196-219`), from `currentIndex` on in an array of
`foundServersSize` places. -/
def describeRegistered (request : FindServersRequest) (foundServersSize : Nat) :
    List EntryPointer → Nat →
      FindM (Except StatusCode (List (FoundServer × ApplicationDescription)))
  | [], _ => return .ok []
  | current :: rest, currentIndex =>
    if currentIndex ≥ foundServersSize then throw Fault.outOfBounds
    else do
      let (serviceResult, target) ←
        setApplicationDescriptionFromRegisteredServer memory request current.1.registeredServer
      if serviceResult ≠ StatusCode.good then return .error serviceResult
      else
        match ← describeRegistered request foundServersSize rest (currentIndex + 1) with
        | .error serviceResult => return .error serviceResult
        | .ok servers => return .ok ((.registered current, target) :: servers)

/-- The descriptions of the servers that were found (`:175-224`). -/
def describeServers (server : DiscoveryServer) (request : FindServersRequest)
    (foundServersSize : Nat) (addSelf : Bool) (found : List EntryPointer) :
    FindM FindServersResponse := do
  if foundServersSize = 0 then return ⟨StatusCode.good, []⟩
  else if ← allocate memory then
    if addSelf then
      let (serviceResult, target) ← setApplicationDescriptionFromServer memory server
      if serviceResult ≠ StatusCode.good then return ⟨serviceResult, []⟩
      else
        match ← describeRegistered memory request foundServersSize found 1 with
        | .error serviceResult => return ⟨serviceResult, []⟩
        | .ok servers => return ⟨StatusCode.good, (.self, target) :: servers⟩
    else
      match ← describeRegistered memory request foundServersSize found 0 with
      | .error serviceResult => return ⟨serviceResult, []⟩
      | .ok servers => return ⟨StatusCode.good, servers⟩
  else return ⟨StatusCode.badOutOfMemory, []⟩

/-- `Service_FindServers`. -/
def findServers (server : DiscoveryServer) (request : FindServersRequest) :
    FindM FindServersResponse := do
  if request.serverUris ≠ [] then
    if ← allocate memory then
      let (addSelf, found) ←
        filterServers server server.register.registeredServersSize request.serverUris false []
      let foundServersSize := if addSelf then found.length + 1 else found.length
      describeServers memory server request foundServersSize addSelf found
    else return ⟨StatusCode.badOutOfMemory, []⟩
  else
    describeServers memory server request (1 + server.register.registeredServersSize) true
      server.register.pointers

end Service

/-! ## Descriptions are made -/

variable {memory : Memory}

/-- A status that is good when there is memory for everything. -/
def GoodIfPlentiful {β : Type} (memory : Memory) (r : StatusCode × β) : Prop :=
  memory.Plentiful → r.1 = StatusCode.good

theorem gives_allocate (memory : Memory) :
    Gives (allocate memory) fun granted => memory.Plentiful → granted = true :=
  fun n => ⟨_, _, rfl, fun h => h.alloc n⟩

theorem gives_copyOrZero {β : Type} (zero src : β) :
    Gives (copyOrZero memory zero src) (GoodIfPlentiful memory) :=
  fun n => ⟨_, _, rfl, fun h => h.copyStatus n⟩

theorem gives_copyName (name : Option LocalizedText) :
    Gives (copyName memory name) (GoodIfPlentiful memory) := by
  cases name with
  | some name => exact gives_copyOrZero _ _
  | none => exact gives_pure fun _ => rfl

theorem good_or {a b : StatusCode} (ha : a = StatusCode.good) (hb : b = StatusCode.good) :
    a ||| b = StatusCode.good := by
  rw [ha, hb]
  rfl

theorem gives_copyStrings (urls : List UaString) :
    Gives (copyStrings memory urls) (GoodIfPlentiful memory) := by
  induction urls with
  | nil => exact gives_pure fun _ => rfl
  | cons url rest ih =>
    refine (gives_copyOrZero _ _).bind fun first hfirst => ?_
    refine ih.bind fun others hothers => ?_
    exact gives_pure fun h => good_or (hfirst h) (hothers h)

theorem gives_setFromRegisteredServer (request : FindServersRequest)
    (registeredServer : RegisteredServer) :
    Gives (setApplicationDescriptionFromRegisteredServer memory request registeredServer)
      (GoodIfPlentiful memory) := by
  refine (gives_copyOrZero _ _).bind fun uri huri => ?_
  refine (gives_copyOrZero _ _).bind fun product hproduct => ?_
  refine (gives_copyName _).bind fun name hname => ?_
  refine (gives_copyOrZero _ _).bind fun gateway hgateway => ?_
  have hgood : memory.Plentiful → uri.1 ||| product.1 ||| name.1 ||| gateway.1 = StatusCode.good :=
    fun h => good_or (good_or (good_or (huri h) (hproduct h)) (hname h)) (hgateway h)
  dsimp only
  split
  · exact gives_pure hgood
  · refine (gives_allocate memory).bind fun granted hgranted => ?_
    split
    · refine (gives_copyStrings _).bind fun urls hurls => ?_
      exact gives_pure fun h => good_or (hgood h) (hurls h)
    · rename_i hrefused
      exact gives_pure fun h => absurd (hgranted h) hrefused

theorem gives_setFromServer (server : DiscoveryServer) :
    Gives (setApplicationDescriptionFromServer memory server) (GoodIfPlentiful memory) := by
  refine (gives_copyOrZero _ _).bind fun copied hcopied => ?_
  dsimp only
  split
  · exact gives_pure hcopied
  · refine (gives_allocate memory).bind fun granted hgranted => ?_
    split
    · refine (gives_copyStrings _).bind fun urls _ => ?_
      exact gives_pure fun _ => rfl
    · rename_i hrefused
      exact gives_pure fun h => absurd (hgranted h) hrefused

/-- Servers are described, or the status is bad; it is not when there is memory. -/
structure Describes (memory : Memory) (found : List FoundServer)
    (r : Except StatusCode (List (FoundServer × ApplicationDescription))) : Prop where
  bad : ∀ retval, r = .error retval → retval ≠ StatusCode.good ∧ ¬ memory.Plentiful
  servers : ∀ servers, r = .ok servers → servers.map Prod.fst = found

theorem gives_describeRegistered (request : FindServersRequest) {foundServersSize : Nat}
    (pointers : List EntryPointer) {currentIndex : Nat}
    (h : currentIndex + pointers.length ≤ foundServersSize) :
    Gives (describeRegistered memory request foundServersSize pointers currentIndex)
      (Describes memory (pointers.map FoundServer.registered)) := by
  induction pointers generalizing currentIndex with
  | nil =>
    refine gives_pure ⟨nofun, ?_⟩
    rintro _ ⟨⟩
    rfl
  | cons current rest ih =>
    rw [List.length_cons] at h
    rw [describeRegistered, if_neg (by omega)]
    refine (gives_setFromRegisteredServer request current.1.registeredServer).bind
      fun described hdescribed => ?_
    dsimp only
    split
    · rename_i hbad
      refine gives_pure ⟨?_, nofun⟩
      rintro _ ⟨⟩
      exact ⟨hbad, fun hplenty => hbad (hdescribed hplenty)⟩
    · refine (ih (by omega)).bind fun r hr => ?_
      split
      · rename_i retval
        refine gives_pure ⟨?_, nofun⟩
        rintro _ ⟨⟩
        exact hr.bad retval rfl
      · rename_i servers
        refine gives_pure ⟨nofun, ?_⟩
        rintro _ ⟨⟩
        exact congrArg (FoundServer.registered current :: ·) (hr.servers servers rfl)

/-- The response lists the servers if its status is good, which it is when there is memory. -/
structure Lists (memory : Memory) (found : List FoundServer) (response : FindServersResponse) :
    Prop where
  good : memory.Plentiful → response.serviceResult = StatusCode.good
  servers : response.serviceResult = StatusCode.good → response.servers.map Prod.fst = found

theorem gives_refused {found : List FoundServer} {retval : StatusCode}
    (hbad : retval ≠ StatusCode.good) (hmemory : ¬ memory.Plentiful) :
    Gives (pure ⟨retval, []⟩ : FindM FindServersResponse) (Lists memory found) :=
  gives_pure ⟨fun hplenty => absurd hplenty hmemory, fun hgood => absurd hgood hbad⟩

theorem gives_describeServers (server : DiscoveryServer) (request : FindServersRequest)
    {foundServersSize : Nat} {addSelf : Bool} (found : List EntryPointer)
    (h : foundServersSize = if addSelf then found.length + 1 else found.length) :
    Gives (describeServers memory server request foundServersSize addSelf found)
      (Lists memory ((if addSelf then [.self] else []) ++ found.map FoundServer.registered)) := by
  have hnomem : StatusCode.badOutOfMemory ≠ StatusCode.good := by decide
  unfold describeServers
  by_cases hzero : foundServersSize = 0
  · rw [if_pos hzero]
    refine gives_pure ⟨fun _ => rfl, fun _ => ?_⟩
    cases addSelf with
    | true =>
      rw [if_pos rfl] at h
      omega
    | false =>
      have hnil : found = [] := List.length_eq_zero_iff.mp (h.symm.trans hzero)
      rw [hnil]
      rfl
  rw [if_neg hzero]
  refine (gives_allocate memory).bind fun granted hgranted => ?_
  cases granted with
  | false => exact gives_refused hnomem fun hplenty => absurd (hgranted hplenty) (by decide)
  | true =>
    cases addSelf with
    | true =>
      refine (gives_setFromServer server).bind fun own hown => ?_
      dsimp only
      split
      · rename_i hbad
        exact gives_refused hbad fun hplenty => hbad (hown hplenty)
      · rw [if_pos rfl] at h
        refine (gives_describeRegistered request found (by omega)).bind fun r hr => ?_
        split
        · rename_i retval
          obtain ⟨hbad, hmemory⟩ := hr.bad retval rfl
          exact gives_refused hbad hmemory
        · rename_i servers
          refine gives_pure ⟨fun _ => rfl, fun _ => ?_⟩
          exact congrArg (FoundServer.self :: ·) (hr.servers servers rfl)
    | false =>
      rw [if_neg (by decide)] at h
      refine (gives_describeRegistered request found (by omega)).bind fun r hr => ?_
      split
      · rename_i retval
        obtain ⟨hbad, hmemory⟩ := hr.bad retval rfl
        exact gives_refused hbad hmemory
      · rename_i servers
        refine gives_pure ⟨fun _ => rfl, fun _ => ?_⟩
        exact hr.servers servers rfl

variable {server : DiscoveryServer} {request : FindServersRequest} {uris : List UaString}
  {p : EntryPointer}

def pointerUri (p : EntryPointer) : UaString := p.1.registeredServer.serverUri

def DiscoveryServer.uri (server : DiscoveryServer) : UaString :=
  server.applicationDescription.applicationUri

/-- The entries the loop finds, with no regard to the size of the array. -/
def hits (server : DiscoveryServer) : List UaString → Bool → List EntryPointer
  | [], _ => []
  | serverUri :: rest, addSelf =>
    if !addSelf && stringEqual serverUri server.uri then hits server rest true
    else (server.register.lookup serverUri).toList ++ hits server rest addSelf

theorem filterServers_eq {fsfpSize : Nat} (uris : List UaString) (addSelf : Bool)
    {found : List EntryPointer} (hle : found.length ≤ fsfpSize) :
    filterServers server fsfpSize uris addSelf found =
      if found.length + (hits server uris addSelf).length ≤ fsfpSize then
        .ok (addSelf || uris.any fun uri => stringEqual uri server.uri,
          found ++ hits server uris addSelf)
      else .error Fault.outOfBounds := by
  induction uris generalizing addSelf found with
  | nil =>
    rw [filterServers, hits, if_pos (by rw [List.length_nil]; exact hle), List.append_nil,
      List.any_nil, Bool.or_false]
    rfl
  | cons uri rest ih =>
    rw [filterServers, hits, List.any_cons]
    cases hown : !addSelf && stringEqual uri server.uri with
    | true =>
      have hboth := Bool.and_eq_true_iff.mp hown
      rw [if_pos (show (!addSelf && stringEqual uri server.applicationDescription.applicationUri) =
          true from hown), if_pos rfl, ih true hle, hboth.2, Bool.true_or, Bool.or_true]
    | false =>
      have hany : (addSelf || (stringEqual uri server.uri ||
          rest.any fun uri => stringEqual uri server.uri)) =
            (addSelf || rest.any fun uri => stringEqual uri server.uri) := by
        cases addSelf with
        | true => rfl
        | false =>
          have hno : stringEqual uri server.uri = false := hown
          rw [hno, Bool.false_or]
      rw [if_neg (show ¬ (!addSelf && stringEqual uri
          server.applicationDescription.applicationUri) = true from Bool.eq_false_iff.mp hown),
        if_neg Bool.false_ne_true, hany]
      cases hlookup : server.register.lookup uri with
      | none => exact ih addSelf hle
      | some current =>
        dsimp only
        rw [Option.toList_some, List.length_append, List.length_singleton]
        by_cases hlt : found.length < fsfpSize
        · rw [if_pos hlt, ih addSelf (by rw [List.length_append, List.length_singleton]; exact hlt),
            List.length_append, List.length_singleton, List.append_assoc, Nat.add_assoc]
        · rw [if_neg hlt, if_neg (by omega)]
          rfl

theorem lookup_congr {uri uri' : UaString} (h : stringEqual uri uri' = true) :
    server.register.lookup uri = server.register.lookup uri' := by
  have hitems : uri.items = uri'.items := eq_of_beq h
  unfold Register.lookup stringEqual
  rw [hitems]

theorem equal_of_lookup {uri : UaString} (h : server.register.lookup uri = some p) :
    stringEqual (pointerUri p) uri = true :=
  List.find?_some
    (p := fun current : EntryPointer => stringEqual current.1.registeredServer.serverUri uri) h

theorem lookup_iff (hfirst : server.register.lookup (pointerUri p) = some p) (uri : UaString) :
    server.register.lookup uri = some p ↔ stringEqual (pointerUri p) uri = true :=
  ⟨equal_of_lookup, fun h => (lookup_congr h).symm.trans hfirst⟩

theorem count_hits (uris : List UaString) (addSelf : Bool) (p : EntryPointer) :
    (hits server uris addSelf).count p +
        (if addSelf = false ∧ (uris.any fun uri => stringEqual uri server.uri) = true ∧
            server.register.lookup server.uri = some p then 1 else 0) =
      uris.countP fun uri => server.register.lookup uri = some p := by
  induction uris generalizing addSelf with
  | nil =>
    rw [if_neg fun h => absurd h.2.1 (by rw [List.any_nil]; decide)]
    rfl
  | cons uri rest ih =>
    rw [hits, List.any_cons, List.countP_cons]
    cases hown : !addSelf && stringEqual uri server.uri with
    | true =>
      obtain ⟨hself, hequal⟩ := Bool.and_eq_true_iff.mp hown
      have hrest := ih true
      rw [if_neg fun h => absurd h.1 (by decide), Nat.add_zero] at hrest
      rw [if_pos rfl, hrest, hequal, Bool.true_or, lookup_congr hequal]
      have hfalse : addSelf = false := by
        cases addSelf with
        | true => cases hself
        | false => rfl
      by_cases hlookup : server.register.lookup server.uri = some p
      · rw [if_pos ⟨hfalse, rfl, hlookup⟩, if_pos (decide_eq_true hlookup)]
      · rw [if_neg fun h => hlookup h.2.2, if_neg (by rw [decide_eq_true_eq]; exact hlookup)]
    | false =>
      have hhead : (server.register.lookup uri).toList.count p =
          if decide (server.register.lookup uri = some p) = true then 1 else 0 := by
        cases server.register.lookup uri with
        | none => rfl
        | some current =>
          rw [Option.toList_some, List.count_singleton]
          by_cases hsame : current = p
          · rw [if_pos (beq_iff_eq.mpr hsame), if_pos (decide_eq_true (congrArg some hsame))]
          · rw [if_neg fun heq => hsame (beq_iff_eq.mp heq),
              if_neg fun heq => hsame (Option.some.inj (of_decide_eq_true heq))]
      have hany : (addSelf = false ∧ (stringEqual uri server.uri ||
            rest.any fun uri => stringEqual uri server.uri) = true ∧
            server.register.lookup server.uri = some p) ↔
          (addSelf = false ∧ (rest.any fun uri => stringEqual uri server.uri) = true ∧
            server.register.lookup server.uri = some p) := by
        refine and_congr_right fun hfalse => ?_
        rw [hfalse] at hown
        have hno : stringEqual uri server.uri = false := hown
        rw [hno, Bool.false_or]
      rw [if_neg Bool.false_ne_true, List.count_append, hhead, if_congr hany rfl rfl, Nat.add_assoc,
        ih addSelf, Nat.add_comm]

theorem mem_pointers_of_mem_hits {addSelf : Bool} (h : p ∈ hits server uris addSelf) :
    p ∈ server.register.pointers ∧ ∃ uri ∈ uris, stringEqual (pointerUri p) uri = true := by
  induction uris generalizing addSelf with
  | nil => cases h
  | cons uri rest ih =>
    rw [hits] at h
    split at h
    · obtain ⟨hmem, uri', huri', hequal⟩ := ih h
      exact ⟨hmem, uri', List.mem_cons_of_mem _ huri', hequal⟩
    · rcases List.mem_append.mp h with hhead | hrest
      · rw [Option.mem_toList] at hhead
        exact ⟨List.mem_of_find?_eq_some hhead, uri, List.mem_cons_self, equal_of_lookup hhead⟩
      · obtain ⟨hmem, uri', huri', hequal⟩ := ih hrest
        exact ⟨hmem, uri', List.mem_cons_of_mem _ huri', hequal⟩

/-! ## The buffers -/

/-- The server is one of those that were asked for: all of them if there are no URIs. -/
def Matches (server : DiscoveryServer) (request : FindServersRequest) : FoundServer → Prop
  | .self =>
      request.serverUris = [] ∨
        (request.serverUris.any fun uri => stringEqual uri server.uri) = true
  | .registered p =>
      p ∈ server.register.pointers ∧
        (request.serverUris = [] ∨
          ∃ uri ∈ request.serverUris, stringEqual (pointerUri p) uri = true)

/-- No write is outside of an array, every server that matches is exactly once in a response with a
good status, and there is such a response when there is memory. -/
def FindServersFits (server : DiscoveryServer) (request : FindServersRequest) : Prop :=
  ∀ memory n, ∃ response n', (findServers memory server request).run n = .ok (response, n') ∧
    (response.serviceResult = StatusCode.good →
      ∀ found, Matches server request found → (response.servers.map Prod.fst).count found = 1) ∧
    (memory.Plentiful → response.serviceResult = StatusCode.good)

/-- The request asks once for each entry it matches, or twice if that has the URI of the server
itself, and it matches no entry that stands behind another one with its URI. -/
def AskedOnce (server : DiscoveryServer) (request : FindServersRequest) : Prop :=
  ∀ p ∈ server.register.pointers,
    (∃ uri ∈ request.serverUris, stringEqual (pointerUri p) uri = true) →
      server.register.lookup (pointerUri p) = some p ∧
        (request.serverUris.countP fun uri => stringEqual (pointerUri p) uri) =
          if stringEqual (pointerUri p) server.uri then 2 else 1

theorem stringEqual_comm (a b : UaString) : stringEqual a b = stringEqual b a :=
  Bool.eq_iff_iff.mpr ⟨fun h => beq_of_eq (eq_of_beq h).symm, fun h => beq_of_eq (eq_of_beq h).symm⟩

theorem stringEqual_trans {a b c : UaString} (hab : stringEqual a b = true)
    (hbc : stringEqual b c = true) : stringEqual a c = true :=
  beq_of_eq ((eq_of_beq hab).trans (eq_of_beq hbc))

theorem count_hits_eq_one_iff
    (hmatch : ∃ uri ∈ uris, stringEqual (pointerUri p) uri = true) :
    (hits server uris false).count p = 1 ↔
      server.register.lookup (pointerUri p) = some p ∧
        (uris.countP fun uri => stringEqual (pointerUri p) uri) =
          if stringEqual (pointerUri p) server.uri then 2 else 1 := by
  have hcount := @count_hits server uris false p
  by_cases hfirst : server.register.lookup (pointerUri p) = some p
  · have hall : (uris.countP fun uri => server.register.lookup uri = some p) =
        uris.countP fun uri => stringEqual (pointerUri p) uri := by
      refine List.countP_congr fun uri _ => ?_
      rw [decide_eq_true_eq]
      exact lookup_iff hfirst uri
    rw [hall] at hcount
    rw [and_iff_right hfirst]
    by_cases hown : stringEqual (pointerUri p) server.uri = true
    · have hany : (uris.any fun uri => stringEqual uri server.uri) = true := by
        obtain ⟨uri, huri, hequal⟩ := hmatch
        rw [stringEqual_comm] at hequal
        exact List.any_eq_true.mpr ⟨uri, huri, stringEqual_trans hequal hown⟩
      rw [if_pos ⟨rfl, hany, (lookup_iff hfirst _).mpr hown⟩] at hcount
      rw [if_pos hown]
      omega
    · rw [if_neg fun h => hown ((lookup_iff hfirst _).mp h.2.2), Nat.add_zero] at hcount
      rw [if_neg hown, hcount]
  · have hnone : (uris.countP fun uri => server.register.lookup uri = some p) = 0 := by
      refine List.countP_eq_zero.mpr fun uri _ hlookup => hfirst ?_
      rw [decide_eq_true_eq] at hlookup
      rw [lookup_congr (equal_of_lookup hlookup), hlookup]
    constructor
    · intro hone
      omega
    · exact fun h => absurd h.1 hfirst

/-- What a request asks for: the server itself, and entries of the register. -/
def foundServers (server : DiscoveryServer) (request : FindServersRequest) : List FoundServer :=
  if request.serverUris = [] then .self :: server.register.pointers.map .registered
  else
    (if request.serverUris.any fun uri => stringEqual uri server.uri then [.self] else []) ++
      (hits server request.serverUris false).map .registered

theorem registered_injective : Function.Injective FoundServer.registered :=
  fun _ _ h => FoundServer.registered.inj h

theorem count_registered (servers : List EntryPointer) (p : EntryPointer) :
    (servers.map FoundServer.registered).count (.registered p) = servers.count p :=
  List.count_map_of_injective servers _ registered_injective p

theorem count_self_registered (servers : List EntryPointer) :
    (servers.map FoundServer.registered).count .self = 0 := by
  refine List.count_eq_zero.mpr fun h => ?_
  obtain ⟨_, _, hself⟩ := List.mem_map.mp h
  cases hself

theorem nodup_pointers (register : Register) : register.pointers.Nodup := by
  refine List.Nodup.of_map Prod.snd ?_
  rw [Register.pointers, List.zipIdx_map_snd]
  exact List.nodup_range'

theorem count_foundServers_iff :
    (∀ found, Matches server request found → (foundServers server request).count found = 1) ↔
      AskedOnce server request := by
  unfold foundServers
  by_cases hall : request.serverUris = []
  · rw [if_pos hall]
    refine iff_of_true ?_ ?_
    · rintro (_ | p) hmatch
      · rw [List.count_cons_self, count_self_registered]
      · have hne : FoundServer.self ≠ .registered p := nofun
        rw [List.count_cons_of_ne hne, count_registered]
        exact List.count_eq_one_of_mem (nodup_pointers _) hmatch.1
    · rintro p - ⟨uri, huri, -⟩
      rw [hall] at huri
      cases huri
  rw [if_neg hall]
  have hself : ∀ p, ((if request.serverUris.any fun uri => stringEqual uri server.uri then
      [FoundServer.self] else []) : List FoundServer).count (.registered p) = 0 := by
    intro p
    split
    · rfl
    · rfl
  constructor
  · intro h p hp hmatch
    have hone := h (.registered p) ⟨hp, .inr hmatch⟩
    rw [List.count_append, hself, Nat.zero_add, count_registered] at hone
    exact (count_hits_eq_one_iff hmatch).mp hone
  · intro hasked found hmatch
    cases found with
    | self =>
      rw [List.count_append, count_self_registered, if_pos (hmatch.resolve_left hall)]
      rfl
    | registered p =>
      rw [List.count_append, hself, Nat.zero_add, count_registered]
      have hmatch' := hmatch.2.resolve_left hall
      exact (count_hits_eq_one_iff hmatch').mpr (hasked p hmatch.1 hmatch')

theorem AskedOnce.length_hits_le (h : AskedOnce server request) :
    (hits server request.serverUris false).length ≤ server.register.registeredServers.length := by
  have hnodup : (hits server request.serverUris false).Nodup := by
    refine List.nodup_iff_count_le_one.mpr fun p => ?_
    by_cases hmem : p ∈ hits server request.serverUris false
    · obtain ⟨hp, hmatch⟩ := mem_pointers_of_mem_hits hmem
      exact Nat.le_of_eq ((count_hits_eq_one_iff hmatch).mpr (h p hp hmatch))
    · rw [List.count_eq_zero.mpr hmem]
      exact Nat.zero_le 1
  have hsub : hits server request.serverUris false ⊆ server.register.pointers :=
    fun _ hp => (mem_pointers_of_mem_hits hp).1
  have hle := (hnodup.subperm hsub).length_le
  rwa [Register.pointers, List.length_zipIdx] at hle

theorem gives_findServers (memory : Memory)
    (hsize : server.register.registeredServersSize = server.register.registeredServers.length)
    (hfits : (hits server request.serverUris false).length ≤
      server.register.registeredServersSize) :
    Gives (findServers memory server request) (Lists memory (foundServers server request)) := by
  unfold findServers foundServers
  by_cases hall : request.serverUris = []
  · rw [if_neg (not_not.mpr hall), if_pos hall]
    refine gives_describeServers server request server.register.pointers ?_
    rw [if_pos rfl, Register.pointers, List.length_zipIdx, hsize, Nat.add_comm]
  · rw [if_pos hall, if_neg hall]
    refine (gives_allocate memory).bind fun granted hgranted => ?_
    cases granted with
    | false => exact gives_refused (by decide) fun hplenty => absurd (hgranted hplenty) (by decide)
    | true =>
      have hfilter : Gives
          (liftM (filterServers server server.register.registeredServersSize request.serverUris
            false []) : FindM (Bool × List EntryPointer))
          fun r => r = (request.serverUris.any fun uri => stringEqual uri server.uri,
            hits server request.serverUris false) := by
        rw [filterServers_eq request.serverUris false (Nat.zero_le _), List.length_nil,
          Nat.zero_add, if_pos hfits]
        exact fun n => ⟨_, _, rfl, rfl⟩
      refine hfilter.bind fun r hr => ?_
      subst hr
      exact gives_describeServers server request _ rfl

theorem findServers_outside {memory : Memory} {n : Nat} (hmemory : memory.alloc n = true)
    (hsome : request.serverUris ≠ [])
    (hmany : server.register.registeredServersSize <
      (hits server request.serverUris false).length) :
    (findServers memory server request).run n = .error Fault.outOfBounds := by
  have hallocate : (allocate memory).run n = .ok (true, n + 1) := hmemory ▸ rfl
  unfold findServers
  rw [if_pos hsome, run_bind_of_ok hallocate, if_pos rfl]
  refine run_bind_error ?_
  rw [filterServers_eq request.serverUris false (Nat.zero_le _), List.length_nil, Nat.zero_add,
    if_neg (Nat.not_le.mpr hmany)]
  rfl

def plentifulMemory : Memory := ⟨fun _ => true, fun _ => StatusCode.good⟩

theorem plentiful_plentifulMemory : plentifulMemory.Plentiful := ⟨fun _ => rfl, fun _ => rfl⟩

/-- The buffers fit if and only if the request asks once for each server it matches. -/
theorem findServersFits_iff (server : DiscoveryServer) (request : FindServersRequest)
    (hsize : server.register.registeredServersSize = server.register.registeredServers.length) :
    FindServersFits server request ↔ AskedOnce server request := by
  constructor
  · intro h
    obtain ⟨response, n', hrun, hcount, hgood⟩ := h plentifulMemory 0
    have hfits : (hits server request.serverUris false).length ≤
        server.register.registeredServersSize := by
      refine Nat.le_of_not_lt fun hmany => ?_
      have hsome : request.serverUris ≠ [] := by
        intro hnil
        rw [hnil] at hmany
        exact Nat.not_lt_zero _ hmany
      have herror := hrun.symm.trans (findServers_outside rfl hsome hmany)
      cases herror
    obtain ⟨response', n'', hrun', hlists⟩ :=
      @gives_findServers server request plentifulMemory hsize hfits 0
    have hsame := hrun.symm.trans hrun'
    cases hsame
    have hok := hgood plentiful_plentifulMemory
    rw [hlists.servers hok] at hcount
    exact count_foundServers_iff.mp (hcount hok)
  · intro hasked memory n
    have hfits := hasked.length_hits_le
    rw [← hsize] at hfits
    obtain ⟨response, n', hrun, hlists⟩ := gives_findServers memory hsize hfits n
    refine ⟨response, n', hrun, fun hok => ?_, hlists.good⟩
    rw [hlists.servers hok]
    exact count_foundServers_iff.mpr hasked

def pumpDirectory : DiscoveryServer :=
  ⟨⟨.mem [115], .null, ⟨.null, .null⟩, 0, .null, .null, []⟩, [], pumpRegister⟩

/-- Two servers and the directory itself, each asked for once, and one that is not known. -/
theorem valveAndPump_askedOnce :
    FindServersFits { pumpDirectory with register := valveAndPump }
      ⟨[pumpServer.serverUri, .mem [119], .mem [115], valveServer.serverUri], []⟩ := by
  refine (findServersFits_iff _ _ rfl).mpr ?_
  unfold AskedOnce
  decide

/-- The one server, asked for twice: the second write is outside of the array. -/
theorem pump_askedTwice :
    ¬ FindServersFits pumpDirectory ⟨[pumpServer.serverUri, pumpServer.serverUri], []⟩ := by
  intro h
  obtain ⟨response, n', hrun, -⟩ := h plentifulMemory 0
  have herror := hrun.symm.trans (findServers_outside rfl (List.cons_ne_nil _ _) (by decide))
  cases herror

end FactoryThing.Discovery
