import FactoryThing.Lib.FormattedText

/-!
# Servers on the network

What a discovery server keeps of the mDNS records it receives (`src/server/ua_mdns.c:43-292`): a
list of entries, newest first, and a hash table of chains of pointers to them. Memory is at hand;
callbacks, times and messages are left out. Texts have no NUL.
-/

namespace FactoryThing.Multicast

open FormattedText

/-- `r->known.srv`, or what `txt2sd` and `xht_get` make of `r->rdata`. -/
inductive ResourceData where
  | srv (name : Text) (port : UInt16)
  | txt (path caps : Option Text)
  | other
  deriving DecidableEq

/-- `struct resource`. -/
structure Resource where
  name : Text
  clazz : UInt16
  ttl : UInt32
  data : ResourceData
  deriving DecidableEq

/-- `UA_ServerOnNetwork`. -/
structure ServerOnNetwork where
  recordId : UInt32
  serverName : Text
  discoveryUrl : Text
  serverCapabilities : List Text
  deriving DecidableEq

/-- `serverOnNetwork_list_entry`; `record` is the name of the record it was made for. -/
structure ListEntry where
  record : Text
  pathTmp : Option Text
  txtSet : Bool
  srvSet : Bool
  serverOnNetwork : ServerOnNetwork
  deriving DecidableEq

/-- `strlen(path) > 1`. -/
def usablePath (path : Option Text) : Option Text := path.filter fun path => path.length > 1

/-- `setTxt` (`:163-209`). -/
def setTxt (path caps : Option Text) (entry : ListEntry) : ListEntry :=
  let entry := { entry with txtSet := true }
  let entry :=
    match usablePath path with
    | none => entry
    | some path =>
        if entry.srvSet = false then { entry with pathTmp := some path }
        else { entry with
          serverOnNetwork.discoveryUrl := entry.serverOnNetwork.discoveryUrl ++ path }
  match caps.filter fun caps => caps.length > 0 with
  | none => entry
  | some caps => { entry with serverOnNetwork.serverCapabilities := caps.splitOn 44 }

/-- The URL of an SRV record (`:218-229`); a dot at the end of the name is left out. -/
def srvUrl (name : Text) (port : UInt16) : Text :=
  let srvName := if name.getLast? = some 46 then name.dropLast else name
  ascii "opc.tcp://" ++ srvName ++ ascii ":" ++ decimal port.toNat

/-- `setSrv` (`:212-236`). `pathTmp` is freed, but not reset. -/
def setSrv (name : Text) (port : UInt16) (entry : ListEntry) : ListEntry :=
  let entry := { entry with srvSet := true }
  let entry := { entry with serverOnNetwork.discoveryUrl := srvUrl name port }
  match entry.pathTmp with
  | none => entry
  | some path =>
      { entry with serverOnNetwork.discoveryUrl := entry.serverOnNetwork.discoveryUrl ++ path }

/-- The end of `mdns_record_received` (`:278-286`). -/
def addResource (data : ResourceData) (entry : ListEntry) : ListEntry :=
  if entry.txtSet && entry.srvSet then entry
  else
    match data with
    | .txt path caps => if entry.txtSet = false then setTxt path caps entry else entry
    | .srv name port => if entry.srvSet = false then setSrv name port entry else entry
    | .other => entry

theorem addResource_txt (path caps : Option Text) (entry : ListEntry) :
    addResource (.txt path caps) entry =
      if entry.txtSet = false then setTxt path caps entry else entry := by
  unfold addResource
  cases entry.txtSet with
  | false => rfl
  | true => exact ite_self _

theorem addResource_srv (name : Text) (port : UInt16) (entry : ListEntry) :
    addResource (.srv name port) entry =
      if entry.srvSet = false then setSrv name port entry else entry := by
  unfold addResource
  cases entry.srvSet with
  | false =>
    rw [Bool.and_false]
    rfl
  | true => exact ite_self _

/-- Where `strstr` finds the needle. -/
def strstr (needle : Text) : Text → Option Nat
  | [] => if needle = [] then some 0 else none
  | c :: s => if needle.isPrefixOf (c :: s) then some 0 else (strstr needle s).map (· + 1)

/-- `strncmp(a, b, min(a length, b length)) == 0`. -/
def sameOverShorter (a b : Text) : Bool :=
  let maxLen := if b.length > a.length then a.length else b.length
  a.take maxLen = b.take maxLen

/-- One round of the hash (`:52-58`); `unsigned long` has 64 bits. -/
def hashStep (h : UInt64) (c : UInt8) : UInt64 :=
  let h := (h <<< 4) + c.toUInt64
  let g := h &&& 0xF0000000
  let h := if g ≠ 0 then h ^^^ (g >>> 24) else h
  h &&& ~~~g

/-- `mdns_hash_record` (`:48-60`). -/
def mdnsHashRecord (s : Text) : Int := (s.foldl hashStep 0).toUInt32.toInt32.toInt

/-- `mdns_hash_record(record) % SERVER_ON_NETWORK_HASH_PRIME`. -/
def hashIdx (record : Text) : Int := (mdnsHashRecord record).tmod 1009

/-- The fields of `UA_Server` (`src/server/ua_server_internal.h:158-163`). Entries are kept with
their addresses; `created` is the address of the next one. -/
structure MdnsServer where
  serverOnNetwork : List (Nat × ListEntry)
  serverOnNetworkSize : UInt64
  recordIdCounter : UInt32
  serverOnNetworkHash : Int → List Nat
  created : Nat

/-- `src/server/ua_server.c:333-338`. -/
def MdnsServer.init : MdnsServer := ⟨[], 0, 0, fun _ => [], 0⟩

/-- `hash_entry->entry`. -/
def MdnsServer.entryAt (server : MdnsServer) (address : Nat) : Option ListEntry :=
  (server.serverOnNetwork.find? fun e => e.1 = address).map Prod.snd

/-- The loop over a chain in `mdns_record_add_or_get` (`:68-79`). -/
def MdnsServer.lookup (server : MdnsServer) (record serverName : Text) : Option Nat :=
  (server.serverOnNetworkHash (hashIdx record)).find? fun address =>
    match server.entryAt address with
    | none => false
    | some entry => sameOverShorter entry.serverOnNetwork.serverName serverName

/-- The new entry of `mdns_record_add_or_get` (`:86-111`). -/
def MdnsServer.create (server : MdnsServer) (record serverName : Text) : MdnsServer where
  serverOnNetwork :=
    (server.created, ⟨record, none, false, false, ⟨server.recordIdCounter, serverName, [], []⟩⟩) ::
      server.serverOnNetwork
  serverOnNetworkSize := server.serverOnNetworkSize
  recordIdCounter := server.recordIdCounter + 1
  serverOnNetworkHash := Function.update server.serverOnNetworkHash (hashIdx record)
    (server.created :: server.serverOnNetworkHash (hashIdx record))
  created := server.created + 1

theorem MdnsServer.create_hash (server : MdnsServer) (record serverName : Text) (i : Int) :
    (server.create record serverName).serverOnNetworkHash i =
      if i = hashIdx record then server.created :: server.serverOnNetworkHash i
      else server.serverOnNetworkHash i := by
  by_cases hi : i = hashIdx record
  · rw [if_pos hi, hi]
    exact Function.update_self _ _ _
  · rw [if_neg hi]
    exact Function.update_of_ne hi _ _

/-- `mdns_record_remove` (`:114-151`). -/
def MdnsServer.remove (server : MdnsServer) (record : Text) (address : Nat) : MdnsServer :=
  { server with
    serverOnNetwork := server.serverOnNetwork.filter fun e => e.1 ≠ address
    serverOnNetworkSize := server.serverOnNetworkSize - 1
    serverOnNetworkHash := Function.update server.serverOnNetworkHash (hashIdx record)
      ((server.serverOnNetworkHash (hashIdx record)).erase address) }

theorem MdnsServer.remove_hash (server : MdnsServer) (record : Text) (address : Nat) (i : Int) :
    (server.remove record address).serverOnNetworkHash i =
      if i = hashIdx record then (server.serverOnNetworkHash i).erase address
      else server.serverOnNetworkHash i := by
  by_cases hi : i = hashIdx record
  · rw [if_pos hi, hi]
    exact Function.update_self _ _ _
  · rw [if_neg hi]
    exact Function.update_of_ne hi _ _

/-- A write to the entry at an address. -/
def MdnsServer.modify (server : MdnsServer) (address : Nat) (change : ListEntry → ListEntry) :
    MdnsServer :=
  { server with serverOnNetwork :=
      server.serverOnNetwork.map fun e => if e.1 = address then (e.1, change e.2) else e }

/-- The name of a server (`:254-262`), if the record is one of OPC UA. -/
def serverNameOf (record : Text) : Option Text :=
  match strstr (ascii "_opcua-tcp._tcp.") record with
  | none => none
  | some servernameLen => if servernameLen = 0 then none else some (record.take (servernameLen - 1))

/-- The records that are looked at (`:243-246`). -/
def Resource.relevant (r : Resource) : Bool :=
  (r.clazz = 1 || r.clazz = 1 + 32768) && r.data ≠ .other

/-- The entry of a record (`:265-287`). -/
def MdnsServer.receiveFor (server : MdnsServer) (r : Resource) (serverName : Text) : MdnsServer :=
  match server.lookup r.name serverName with
  | some address =>
      if r.ttl = 0 then server.remove r.name address
      else server.modify address (addResource r.data)
  | none =>
      if r.ttl > 0 then
        (server.create r.name serverName).modify server.created (addResource r.data)
      else server

/-- `mdns_record_received` (`:240-292`). -/
def MdnsServer.recordReceived (server : MdnsServer) (r : Resource) : MdnsServer :=
  if r.relevant then
    match serverNameOf r.name with
    | none => server
    | some serverName => server.receiveFor r serverName
  else server

def MdnsServer.run (server : MdnsServer) (records : List Resource) : MdnsServer :=
  records.foldl MdnsServer.recordReceived server

end FactoryThing.Multicast
