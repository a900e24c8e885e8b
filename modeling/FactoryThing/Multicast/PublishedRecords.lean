import FactoryThing.Discovery.EndpointUrl
import FactoryThing.Discovery.Register
import FactoryThing.Multicast.Records
import FactoryThing.Multicast.ServiceDomain

/-!
# Published records

How a discovery server publishes the servers that register with it, and withdraws them
(`src/server/ua_services_discovery_multicast.c:90-109`, `:206-240` and `:368-561`,
`src/server/ua_services_discovery.c:397-410`), with the records that the mDNS daemon keeps
(`deps/mdnsd/libmdnsd/mdnsd.c`). A record that is withdrawn is dropped while it is still probed for,
and otherwise stays with a ttl of 0 until the daemon has sent it. Memory is at hand; what a TXT
record says is left out.
-/

namespace FactoryThing.Multicast

open FormattedText Discovery

/-- `QTYPE_PTR` and the others. -/
inductive RecordType where
  | ptr
  | srv
  | txt
  | a
  deriving DecidableEq

/-- `struct mdns_record`; `address` is the data of an A record. -/
structure MdnsRecord where
  name : Text
  type : RecordType
  ttl : UInt64
  unique : Nat
  rdname : Option Text
  port : UInt16
  address : List UInt8
  deriving DecidableEq

/-- `published` of `struct mdns_daemon`, and `mdnsMainSrvAdded` of the server. -/
structure Publisher where
  mdnsMainSrvAdded : Bool
  published : Int → List MdnsRecord

/-- Nothing is published. -/
def Publisher.init : Publisher := ⟨false, fun _ => []⟩

/-- `_namehash(host) % SPRIME`. The hash is the same as that of the list of servers. -/
def chainOf (host : Text) : Int := (mdnsHashRecord host).tmod 108

/-- A new record in front of its chain (`mdnsd.c:1094-1122`). -/
def Publisher.push (s : Publisher) (r : MdnsRecord) : Publisher :=
  { s with published :=
      Function.update s.published (chainOf r.name) (r :: s.published (chainOf r.name)) }

/-- `mdnsd_done` (`mdnsd.c:1132-1152`): what becomes of the record. -/
def mdnsdDone (r : MdnsRecord) : Option MdnsRecord :=
  if r.unique ≠ 0 ∧ r.unique < 5 then none else some { r with ttl := 0 }

/-- The first record that is looked for is done with. -/
def doneFirst (wanted : MdnsRecord → Bool) : List MdnsRecord → List MdnsRecord
  | [] => []
  | r :: rest => if wanted r then (mdnsdDone r).toList ++ rest else r :: doneFirst wanted rest

/-- What the daemon does with a record: nothing, a round of probing (`mdnsd.c:879-912`), the sending
of a record without ttl (`:557-569`, `:845-846`), the end of it in a conflict (`:403-407`). -/
inductive DaemonActivity where
  | idle
  | probed
  | sent
  | conflict
  deriving DecidableEq

/-- What the daemon does to a record. -/
def serviceRecord (activity : DaemonActivity) (r : MdnsRecord) : Option MdnsRecord :=
  match activity with
  | .idle => some r
  | .probed => some (if r.unique ≠ 0 ∧ r.unique < 5 then { r with unique := r.unique + 1 } else r)
  | .sent => if r.ttl = 0 then none else some r
  | .conflict => if r.unique ≠ 0 then mdnsdDone r else some r

/-- The records of a chain, from the `n`-th on. -/
def serviceChain (activity : Nat → DaemonActivity) : Nat → List MdnsRecord → List MdnsRecord
  | _, [] => []
  | n, r :: rest => (serviceRecord (activity n) r).toList ++ serviceChain activity (n + 1) rest

/-- A turn of the daemon over all records. -/
def Publisher.service (s : Publisher) (activity : Int → Nat → DaemonActivity) : Publisher :=
  { s with published := fun k => serviceChain (activity k) 0 (s.published k) }

/-! ## The records of a server -/

/-- `_opcua-tcp._tcp.local.` -/
def opcuaDomain : Text := ascii "_opcua-tcp._tcp.local."

/-- `fullServiceDomain`, as the functions that get it read it. -/
def fullServiceDomain (servername hostname : Text) : Except Fault Text :=
  match createFullServiceDomain (List.replicate 87 0) 87 servername hostname with
  | .ok out => .ok (upToNul out)
  | .error _ => .error Fault.outOfBounds

def localDomain (hostname : Text) : Except Fault Text :=
  match createLocalDomain (List.replicate 65 0) hostname with
  | .ok out => .ok (upToNul out)
  | .error _ => .error Fault.outOfBounds

def MdnsRecord.pointsTo (rdname : Text) (r : MdnsRecord) : Bool :=
  r.type = .ptr && r.rdname = some rdname

/-- `mdns_find_record` for `_opcua-tcp._tcp.local.` (`src/server/ua_mdns.c:354-369`). -/
def Publisher.hasPointer (s : Publisher) (rdname : Text) : Bool :=
  (s.published (chainOf opcuaDomain)).any (MdnsRecord.pointsTo rdname)

/-- `UA_Discovery_recordExists` (`:368-380`). -/
def Publisher.recordExists (s : Publisher) (domain : Text) (port : UInt16) : Bool :=
  (s.published (chainOf domain)).any fun r => r.type = .srv && (port = 0 || r.port = port)

/-- `mdns_set_address_record`, for the addresses of the interfaces
(`src/server/ua_mdns.c:371-383`, `:454-495`). -/
def Publisher.setAddressRecord (s : Publisher) (domain host : Text)
    (addresses : List (List UInt8)) :
    Publisher :=
  addresses.foldl (fun s address =>
    (s.push ⟨domain, .a, 600, 0, none, 0, address⟩).push ⟨host, .a, 600, 0, none, 0, address⟩) s

/-- The records of `UA_Discovery_addRecord` (`:442-497`). -/
def Publisher.publish (s : Publisher) (domain host : Text) (port : UInt16) (createTxt : Bool)
    (addresses : List (List UInt8)) : Publisher :=
  if s.recordExists domain port then s
  else
    let s := if s.hasPointer domain then s
      else s.push ⟨opcuaDomain, .ptr, 600, 0, some domain, 0, []⟩
    let s := s.push ⟨domain, .srv, 600, 1, some host, port, []⟩
    let s := s.setAddressRecord domain host addresses
    if createTxt then s.push ⟨domain, .txt, 600, 1, none, 0, []⟩ else s

/-- `_services._dns-sd._udp.local. PTR _opcua-tcp._tcp.local` -/
def mainSrvRecord : MdnsRecord :=
  ⟨ascii "_services._dns-sd._udp.local.", .ptr, 600, 0, some opcuaDomain, 0, []⟩

/-- The record of all services (`:442-449`). -/
def Publisher.addMainSrv (s : Publisher) : Publisher :=
  if s.mdnsMainSrvAdded then s
  else { s.push mainSrvRecord with mdnsMainSrvAdded := true }

/-- `UA_Discovery_addRecord` (`:417-500`). -/
def Publisher.addRecord (s : Publisher) (servername hostname : Text) (port : UInt16)
    (createTxt : Bool) (addresses : List (List UInt8)) : Except Fault (StatusCode × Publisher) :=
  if hostname.length = 0 ∨ servername.length = 0 then return (StatusCode.badOutOfRange, s)
  else do
    let s := s.addMainSrv
    let domain ← fullServiceDomain servername hostname
    let host ← localDomain hostname
    return (StatusCode.good, s.publish domain host port createTxt addresses)

/-- What the loop in `UA_Discovery_removeRecord` does with a record (`:548-558`). -/
def removeIn (port : UInt16) (removeTxt : Bool) (r : MdnsRecord) : Option MdnsRecord :=
  if (removeTxt && (r.type = .txt || r.type = .a)) || r.port = port then mdnsdDone r else some r

/-- The PTR record to a domain is done with (`:527-536`). -/
def Publisher.donePointer (s : Publisher) (domain : Text) : Publisher :=
  { s with
    published := Function.update s.published (chainOf opcuaDomain)
      (doneFirst (MdnsRecord.pointsTo domain) (s.published (chainOf opcuaDomain))) }

/-- The records of a domain with a port are withdrawn. -/
def Publisher.removeInChain (s : Publisher) (domain : Text) (port : UInt16) (removeTxt : Bool) :
    Publisher :=
  { s with
    published := Function.update s.published (chainOf domain)
      ((s.published (chainOf domain)).filterMap (removeIn port removeTxt)) }

/-- `UA_Discovery_removeRecord` (`:503-561`). -/
def Publisher.removeRecord (s : Publisher) (servername hostname : Text) (port : UInt16)
    (removeTxt : Bool) : Except Fault (StatusCode × Publisher) :=
  if hostname.length = 0 ∨ servername.length = 0 then return (StatusCode.badOutOfRange, s)
  else do
    let domain ← fullServiceDomain servername hostname
    if s.hasPointer domain = false then return (StatusCode.badNotFound, s)
    else
      let s := s.donePointer domain
      if s.published (chainOf domain) = [] then return (StatusCode.badNotFound, s)
      else return (StatusCode.good, s.removeInChain domain port removeTxt)

/-- The host name and the port of an URL (`:211-222`), which is left out if it is not valid. -/
def hostAndPort (discoveryUrl : UaString) : Except Fault (Option (Text × UInt16)) :=
  match parseEndpointUrl discoveryUrl with
  | .error _ => .error Fault.outOfBounds
  | .ok (retval, parts) =>
      if retval ≠ StatusCode.good then .ok none
      else
        let hostname := match parts.hostname with
          | none => []
          | some slice => (discoveryUrl.items.drop slice.start).take slice.length
        .ok (some (hostname, parts.port.getD 4840))

/-- `UA_Discovery_update_MdnsForDiscoveryUrl` (`:206-240`). -/
def Publisher.updateMdnsForDiscoveryUrl (s : Publisher) (serverName : Text)
    (discoveryUrl : UaString)
    (isOnline updateTxt : Bool) (addresses : List (List UInt8)) : Except Fault Publisher := do
  match ← hostAndPort discoveryUrl with
  | none => return s
  | some (hostname, port) =>
      let (_, s) ←
        if isOnline then s.addRecord serverName hostname port updateTxt addresses
        else s.removeRecord serverName hostname port updateTxt
      return s

/-- The loop over the URLs of a request (`src/server/ua_services_discovery.c:400-408`), from the
`i`-th on. -/
def Publisher.updateMdns (s : Publisher) (serverName : Text) (discoveryUrlsSize : Nat)
    (isOnline : Bool) (addresses : Nat → List (List UInt8)) :
    Nat → List UaString → Except Fault Publisher
  | _, [] => return s
  | i, discoveryUrl :: rest => do
    let updateTxt := (isOnline && i == 0) || (!isOnline && i == discoveryUrlsSize)
    let s ← s.updateMdnsForDiscoveryUrl serverName discoveryUrl isOnline updateTxt (addresses i)
    s.updateMdns serverName discoveryUrlsSize isOnline addresses (i + 1) rest

/-- The register of a discovery server with multicast, and what it publishes. -/
structure DiscoveryServer where
  register : Register
  publisher : Publisher

/-- `process_RegisterServer` of a discovery server with multicast. -/
def DiscoveryServer.processRegisterServer (server : DiscoveryServer) (surroundings : Surroundings)
    (addresses : Nat → List (List UInt8)) (requestServer : RegisteredServer)
    (discoveryConfiguration : List DiscoveryConfiguration) :
    Except Fault (DiscoveryServer × RegisterReply) :=
  if discoveryConfiguration ≠ [] ∧ !surroundings.resultsGranted then
    return (server, ⟨StatusCode.badOutOfMemory, []⟩)
  else
    let results := configurationResults false discoveryConfiguration
    match mdnsServerName requestServer discoveryConfiguration with
    | none => return (server, ⟨StatusCode.badServerNameMissing, results⟩)
    | some serverName =>
      if requestServer.discoveryUrls = [] then
        return (server, ⟨StatusCode.badDiscoveryUrlMissing, results⟩)
      else do
        if ← semaphoreMissing surroundings requestServer then
          return (server, ⟨StatusCode.badSempahoreFileMissing, results⟩)
        else
          let publisher ← server.publisher.updateMdns serverName.items
            requestServer.discoveryUrls.length requestServer.isOnline addresses 0
            requestServer.discoveryUrls
          let (serviceResult, register) :=
            if requestServer.isOnline then server.register.register surroundings requestServer
            else server.register.unregister requestServer.serverUri
          return (⟨register, publisher⟩, ⟨serviceResult, results⟩)

/-- What changes the records that are published. -/
inductive DiscoveryEvent where
  /-- a network layer of the server itself is published (`:90-109`) -/
  | networkLayer (appName : Text) (discoveryUrl : UaString) (addresses : List (List UInt8))
  /-- `Service_RegisterServer`, with an empty list, and `Service_RegisterServer2` -/
  | registerServer (surroundings : Surroundings) (addresses : Nat → List (List UInt8))
      (requestServer : RegisteredServer) (discoveryConfiguration : List DiscoveryConfiguration)
  /-- the daemon sends and receives -/
  | daemon (activity : Int → Nat → DaemonActivity)

/-- One event of the server or of the daemon. -/
def stepDiscovery (server : DiscoveryServer) : DiscoveryEvent →
    Except Fault (DiscoveryServer × Option RegisterReply)
  | .networkLayer appName discoveryUrl addresses => do
    let publisher ←
      server.publisher.updateMdnsForDiscoveryUrl appName discoveryUrl true true addresses
    return ({ server with publisher := publisher }, none)
  | .registerServer surroundings addresses requestServer configuration => do
    let (server, reply) ←
      server.processRegisterServer surroundings addresses requestServer configuration
    return (server, some reply)
  | .daemon activity =>
      return ({ server with publisher := server.publisher.service activity }, none)

/-- A server without registered servers. -/
def DiscoveryServer.init : DiscoveryServer := ⟨Register.empty, Publisher.init⟩

end FactoryThing.Multicast
