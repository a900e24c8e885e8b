import FactoryThing.Lib.FormattedText
import FactoryThing.Lib.Trace

/-!
# Publishing over TCP

The TCP publisher (`mqtt/client-tcp.c`, `mqtt/client-trans-tcp.cpp`) with the calls that it makes to
the system, without what it prints. `tcp_publish` sends on the `sock` of `client-tcp.c`; connecting
again after a single shot sets only the `tcpsock` of `client-trans-tcp.cpp`.
-/

namespace FactoryThing.Bridge

open FormattedText Trace

/-- A text in memory, as `const char*`. -/
structure CString where
  text : Text
  noNul : 0 ∉ text
  short : text.length < 2 ^ 63

/-- What `write` or `send` does with a number of bytes: it fails, or accepts some of them. -/
structure Device where
  accepts : Nat → Option Nat
  accepts_le : ∀ count n, accepts count = some n → n ≤ count

/-- The conversion to `int`. -/
def toInt (n : Int) : Int := n.bmod (2 ^ 32)

/-- The conversion of an `int` to `size_t`. -/
def ofInt (len : Int) : Nat := (len % 2 ^ 64).toNat

/-- The `ssize_t` of a call. -/
def Device.result (d : Device) (count : Nat) : Int :=
  match d.accepts count with
  | none => -1
  | some n => n

/-- What `tcp_open` gets: `rc` when it has looked for an address of one of the two families, and
what `socket` and `connect` return. -/
structure Opening where
  rc : Int
  socket : Option Nat
  connected : Bool
  deriving DecidableEq

/-- The system calls of a message. -/
inductive SystemCall where
  | socket (fd : Nat)
  | connect (fd : Nat) (connected : Bool)
  | setsockopt (fd : Nat)
  | send (fd : Int) (buf : List UInt8) (count : Nat)
  | shutdown (fd : Int)
  | recv (fd : Int)
  | close (fd : Int)
  deriving DecidableEq

/-- `sock` of `client-tcp.c`, `tcpsock` of `client-trans-tcp.cpp`, and the calls so far. -/
structure TcpState where
  sock : Int
  tcpsock : Int
  calls : List SystemCall
  deriving DecidableEq

/-- No socket has been opened. -/
def TcpState.init : TcpState := ⟨0, -1, []⟩

def TcpState.call (s : TcpState) (calls : List SystemCall) : TcpState :=
  { s with calls := s.calls ++ calls }

/-- `tcp_open` (`client-trans-tcp.cpp:131-223`). -/
def tcpOpen (o : Opening) (s : TcpState) : Int × TcpState :=
  let s := { s with tcpsock := -1 }
  if o.rc = 0 then
    match o.socket with
    | none => (o.rc, s)
    | some fd =>
      let s := { s with tcpsock := fd }
      -- That `connect` has failed is not looked at.
      (fd, s.call [.socket fd, .connect fd o.connected, .setsockopt fd, .setsockopt fd,
        .setsockopt fd])
  else (o.rc, s)

/-- `tcp_close` (`client-trans-tcp.cpp:225-234`). -/
def tcpClose (sock : Int) (s : TcpState) : TcpState :=
  s.call [.shutdown sock, .recv sock, .close sock]

/-- `tcp_sendPacketBuffer` (`client-trans-tcp.cpp:90-102`). -/
def tcpSendPacketBuffer (singleshot : Bool) (sock : Int) (buf : List UInt8) (len : Int) (d : Device)
    (o : Opening) (s : TcpState) : Int × TcpState :=
  let s := s.call [.send sock buf (ofInt len)]
  let rc := toInt (d.result (ofInt len))
  if singleshot then
    let s := s.call [.close sock]
    (rc, (tcpOpen o s).2)
  else (rc, s)

/-- `tcp_connect` (`client-tcp.c:32-43`). -/
def tcpConnect (o : Opening) (s : TcpState) : Int × TcpState :=
  let (sock, s) := tcpOpen o s
  let s := { s with sock }
  if sock < 0 then (sock, s) else (0, s)

/-- A call of `tcp_publish`, with what the system does. -/
structure TcpMessage where
  value : CString
  device : Device
  opening : Opening

/-- `tcp_publish` (`client-tcp.c:45-62`). -/
def tcpPublish (singleshot : Bool) (m : TcpMessage) (s : TcpState) : Int × TcpState :=
  tcpSendPacketBuffer singleshot s.sock m.value.text (toInt m.value.text.length) m.device
    m.opening s

/-- The first loop of `tcp_main` (`:74-76`), each round with the `beStop` behind it. -/
def connectLoop : List (Opening × Bool) → TcpState → Option TcpState
  | [], _ => none
  | (o, beStop) :: rest, s =>
    let (rc, s) := tcpConnect o s
    if beStop = false ∧ rc < 0 then connectLoop rest s else some s

/-- The members of the configuration that are read. -/
structure TcpConfig where
  tcpEnable : Bool
  singleshot : Bool

def publishAll (singleshot : Bool) (ms : List TcpMessage) (s : TcpState) : TcpState :=
  ms.foldl (fun s m => (tcpPublish singleshot m s).2) s

/-- `tcp_main` (`:64-88`) and the messages that are published while it waits for `beStop`; `none`
when it is still connecting. -/
def tcpMain (config : TcpConfig) (attempts : List (Opening × Bool)) (ms : List TcpMessage) :
    Option TcpState :=
  if config.tcpEnable then
    (connectLoop attempts TcpState.init).map fun s =>
      let s := publishAll config.singleshot ms s
      tcpClose s.sock s
  else some (publishAll config.singleshot ms TcpState.init)

inductive Phase where
  | fresh
  | live
  | gone
  deriving DecidableEq

def SystemCall.phase (fd : Int) (p : Phase) : SystemCall → Phase
  | .socket fd' => if (fd' : Int) = fd then .live else p
  | .close fd' => if fd' = fd then .gone else p
  | _ => p

def phaseAfter (calls : List SystemCall) (fd : Int) : Phase :=
  calls.foldl (SystemCall.phase fd) .fresh

def SystemCall.connection (current : Option Int) : SystemCall → Option Int
  | .connect fd true => some fd
  | .close fd => if current = some fd then none else current
  | _ => current

/-- The descriptor of the most recent successful connect, as long as it is not closed. -/
def connectionAfter (calls : List SystemCall) : Option Int :=
  calls.foldl SystemCall.connection none

/-- The descriptor that a call is made on. -/
def SystemCall.uses : SystemCall → Option Int
  | .socket _ => none
  | .connect fd _ => some fd
  | .setsockopt fd => some fd
  | .send fd _ _ => some fd
  | .shutdown fd => some fd
  | .recv fd => some fd
  | .close fd => some fd

/-- The messages go out on the descriptor of the most recent successful connect. -/
def SystemCall.OnConnection (past : List SystemCall) (c : SystemCall) : Prop :=
  ∀ fd buf count, c = .send fd buf count → connectionAfter past = some fd

/-- No descriptor is used, or closed, after it was closed. -/
def SystemCall.NotAfterClose (past : List SystemCall) (c : SystemCall) : Prop :=
  ∀ fd, c.uses = some fd → phaseAfter past fd ≠ .gone

/-- All of it, and at the end no descriptor is left open. -/
structure UsesLive (calls : List SystemCall) : Prop where
  onConnection : Always SystemCall.OnConnection [] calls
  notAfterClose : Always SystemCall.NotAfterClose [] calls
  closed : ∀ fd, phaseAfter calls fd ≠ .live

/-- `tcp_open` gets the descriptor. -/
def Opening.Opens (o : Opening) (r : Int) : Prop := o.rc = 0 ∧ o.socket.map Nat.cast = some r

/-- And `connect` succeeds. -/
def Opening.Connects (o : Opening) (r : Int) : Prop := o.Opens r ∧ o.connected = true

/-- What `tcp_open` returns. -/
def Opening.result (o : Opening) : Int :=
  if o.rc = 0 then (o.socket.map Nat.cast).getD 0 else o.rc

/-- The calls of `tcp_open`. -/
def Opening.calls (o : Opening) : List SystemCall :=
  if o.rc = 0 then
    match o.socket with
    | none => []
    | some fd => [.socket fd, .connect fd o.connected, .setsockopt fd, .setsockopt fd,
        .setsockopt fd]
  else []

def TcpMessage.calls (singleshot : Bool) (sock : Int) (m : TcpMessage) : List SystemCall :=
  .send sock m.value.text (ofInt (toInt m.value.text.length)) ::
    if singleshot then .close sock :: m.opening.calls else []

def closing (sock : Int) : List SystemCall := [.shutdown sock, .recv sock, .close sock]

@[simp] theorem TcpState.call_calls (s : TcpState) (calls : List SystemCall) :
    (s.call calls).calls = s.calls ++ calls := rfl

@[simp] theorem TcpState.call_sock (s : TcpState) (calls : List SystemCall) :
    (s.call calls).sock = s.sock := rfl

theorem tcpOpen_eq (o : Opening) (s : TcpState) :
    (tcpOpen o s).1 = o.result ∧ (tcpOpen o s).2.calls = s.calls ++ o.calls ∧
      (tcpOpen o s).2.sock = s.sock := by
  rcases o with ⟨rc, socket, connected⟩
  by_cases hrc : rc = 0
  · cases socket <;> simp [tcpOpen, Opening.result, Opening.calls, hrc]
  · simp [tcpOpen, Opening.result, Opening.calls, hrc]

theorem tcpConnect_eq (o : Opening) (s : TcpState) :
    ((tcpConnect o s).1 < 0 ↔ o.result < 0) ∧ (tcpConnect o s).2.calls = s.calls ++ o.calls ∧
      (tcpConnect o s).2.sock = o.result := by
  rcases tcpOpen_eq o s with ⟨hresult, hcalls, -⟩
  by_cases hneg : o.result < 0 <;> simp [tcpConnect, hresult, hcalls, hneg]

theorem tcpPublish_eq (singleshot : Bool) (m : TcpMessage) (s : TcpState) :
    (tcpPublish singleshot m s).2.calls = s.calls ++ m.calls singleshot s.sock ∧
      (tcpPublish singleshot m s).2.sock = s.sock := by
  cases singleshot
  · simp [tcpPublish, tcpSendPacketBuffer, TcpMessage.calls]
  · simp [tcpPublish, tcpSendPacketBuffer, TcpMessage.calls, tcpOpen_eq]

theorem publishAll_eq (singleshot : Bool) (ms : List TcpMessage) (s : TcpState) :
    (publishAll singleshot ms s).calls = s.calls ++
      ms.flatMap (TcpMessage.calls singleshot s.sock) ∧
      (publishAll singleshot ms s).sock = s.sock := by
  induction ms generalizing s with
  | nil => simp [publishAll]
  | cons m ms ih =>
    rcases tcpPublish_eq singleshot m s with ⟨hcalls, hsock⟩
    rcases ih (tcpPublish singleshot m s).2 with ⟨ihcalls, ihsock⟩
    simp only [publishAll, List.foldl_cons] at ihcalls ihsock ⊢
    simp [ihcalls, ihsock, hcalls, hsock]

def lastAttempt (attempts : List (Opening × Bool)) : Option Opening :=
  (attempts.find? fun a => a.2 || decide (0 ≤ a.1.result)).map Prod.fst

variable {o : Opening} {past : List SystemCall} {sock : Int} {rest : List SystemCall} {r : Int}
  {connection : Option Int} {ms : List TcpMessage} {singleshot : Bool}

theorem Opening.calls_of_neg (h : o.result < 0) : o.calls = [] := by
  rcases o with ⟨rc, _ | fd, connected⟩ <;> by_cases hrc : rc = 0 <;>
    simp_all [Opening.result, Opening.calls]
  omega

theorem connectLoop_eq (attempts : List (Opening × Bool)) (s : TcpState) :
    (connectLoop attempts s).map (fun s => (s.sock, s.calls)) =
      (lastAttempt attempts).map fun o => (o.result, s.calls ++ o.calls) := by
  induction attempts generalizing s with
  | nil => rfl
  | cons a attempts ih =>
    rcases a with ⟨o, beStop⟩
    rcases tcpConnect_eq o s with ⟨hneg, hcalls, hsock⟩
    simp only [connectLoop, hneg, lastAttempt, List.find?_cons]
    by_cases hgo : beStop = false ∧ o.result < 0
    · rw [if_pos hgo, ih, hcalls, Opening.calls_of_neg hgo.2]
      simp [hgo.1, Int.not_le.mpr hgo.2, lastAttempt]
    · rw [if_neg hgo]
      have hends : (beStop || decide (0 ≤ o.result)) = true := by
        cases beStop <;> simp_all
      simp [hends, hcalls, hsock]

/-! ## What the calls do to the descriptors -/

theorem phaseAfter_append (past calls : List SystemCall) (fd : Int) :
    phaseAfter (past ++ calls) fd = calls.foldl (SystemCall.phase fd) (phaseAfter past fd) := by
  simp [phaseAfter, List.foldl_append]

theorem connectionAfter_append (past calls : List SystemCall) :
    connectionAfter (past ++ calls) =
      calls.foldl SystemCall.connection (connectionAfter past) := by
  simp [connectionAfter, List.foldl_append]

/-- What is still to be called is right behind what has been. -/
structure RightBehind (past calls : List SystemCall) : Prop where
  onConnection : Always SystemCall.OnConnection past calls
  notAfterClose : Always SystemCall.NotAfterClose past calls
  closed : ∀ fd, phaseAfter (past ++ calls) fd ≠ .live

theorem usesLive_iff {calls : List SystemCall} : UsesLive calls ↔ RightBehind [] calls :=
  ⟨fun h => ⟨h.1, h.2, h.3⟩, fun h => ⟨h.1, h.2, h.3⟩⟩

theorem rightBehind_cons {calls : List SystemCall} {c : SystemCall} :
    RightBehind past (c :: calls) ↔
      c.OnConnection past ∧ c.NotAfterClose past ∧ RightBehind (past ++ [c]) calls := by
  constructor
  · intro h
    rcases h with ⟨honConnection, hnotAfterClose, hclosed⟩
    rw [always_cons] at honConnection hnotAfterClose
    exact ⟨honConnection.1, hnotAfterClose.1, honConnection.2, hnotAfterClose.2,
      by simpa using hclosed⟩
  · intro h
    rcases h with ⟨hfirst, huse, honConnection, hnotAfterClose, hclosed⟩
    exact ⟨by simp [hfirst, honConnection], by simp [huse, hnotAfterClose], by simpa using hclosed⟩

/-- The process has just this descriptor open, and `connection` is that of the last connect. -/
structure Holds (r : Int) (connection : Option Int) (past : List SystemCall) : Prop where
  connection_eq : connectionAfter past = connection
  live : phaseAfter past r = .live
  others : ∀ fd, fd ≠ r → phaseAfter past fd ≠ .live

theorem closing_right_iff :
    RightBehind past (closing sock) ↔
      phaseAfter past sock ≠ .gone ∧ ∀ fd, fd ≠ sock → phaseAfter past fd ≠ .live := by
  have hclosed : (∀ fd, phaseAfter (past ++ closing sock) fd ≠ .live) ↔
      ∀ fd, fd ≠ sock → phaseAfter past fd ≠ .live := by
    refine forall_congr' fun fd => ?_
    by_cases hfd : sock = fd
    · simp [phaseAfter_append, closing, SystemCall.phase, hfd]
    · simp [phaseAfter_append, closing, SystemCall.phase, hfd, Ne.symm hfd]
  constructor
  · intro h
    refine ⟨?_, hclosed.mp h.closed⟩
    exact ((always_cons ..).mp h.notAfterClose).1 sock rfl
  · intro h
    refine ⟨?_, ?_, hclosed.mpr h.2⟩
    · simp [closing, SystemCall.OnConnection]
    · simp [closing, SystemCall.NotAfterClose, SystemCall.uses, phaseAfter_append,
        SystemCall.phase, h.1]

theorem opening_right_iff :
    RightBehind past (o.calls ++ rest) ↔ RightBehind (past ++ o.calls) rest := by
  rcases o with ⟨rc, _ | fd, connected⟩ <;> by_cases hrc : rc = 0 <;>
    simp [Opening.calls, hrc, rightBehind_cons, SystemCall.OnConnection, SystemCall.NotAfterClose,
      SystemCall.uses, phaseAfter_append, SystemCall.phase]

theorem phaseAfter_opening {fd : Int} :
    phaseAfter (past ++ o.calls) fd = .live ↔ o.Opens fd ∨ phaseAfter past fd = .live := by
  rcases o with ⟨rc, _ | n, connected⟩ <;> by_cases hrc : rc = 0 <;>
    simp [phaseAfter_append, Opening.calls, Opening.Opens, hrc, SystemCall.phase]
  by_cases hfd : (n : Int) = fd <;> simp [hfd]

theorem phaseAfter_opening_gone {fd : Int} (h : ¬ o.Opens fd) :
    phaseAfter (past ++ o.calls) fd = phaseAfter past fd := by
  rcases o with ⟨rc, _ | n, connected⟩ <;> by_cases hrc : rc = 0 <;>
    simp_all [phaseAfter_append, Opening.calls, Opening.Opens, SystemCall.phase]

theorem connectionAfter_opening (h : o.Opens r) :
    connectionAfter (past ++ o.calls) =
      if o.connected then some r else connectionAfter past := by
  rcases o with ⟨rc, socket, connected⟩
  rcases h with ⟨rfl, hr⟩
  rcases Option.map_eq_some_iff.mp hr with ⟨n, rfl, rfl⟩
  cases connected <;> simp [connectionAfter_append, Opening.calls, SystemCall.connection]

theorem Opening.Opens.unique {r' : Int} (h : o.Opens r) (h' : o.Opens r') : r = r' :=
  Option.some.inj (h.2.symm.trans h'.2)

theorem Opening.Opens.holds (h : o.Opens r) (hnone : ∀ fd, phaseAfter past fd ≠ .live)
    (hconnection : connectionAfter past = none) :
    Holds r (if o.connected then some r else none) (past ++ o.calls) where
  connection_eq := by rw [connectionAfter_opening h, hconnection]
  live := phaseAfter_opening.mpr (.inl h)
  others := by
    intro fd hfd hlive
    rcases phaseAfter_opening.mp hlive with hopens | hlive
    · exact hfd (hopens.unique h)
    · exact hnone fd hlive

theorem Holds.send_iff (h : Holds r connection past) {buf : List UInt8} {count : Nat} :
    RightBehind past (.send r buf count :: rest) ↔
      connection = some r ∧ RightBehind (past ++ [.send r buf count]) rest := by
  simp [rightBehind_cons, SystemCall.OnConnection, SystemCall.NotAfterClose, SystemCall.uses,
    h.live, h.connection_eq]

theorem Holds.send (h : Holds r connection past) (buf : List UInt8) (count : Nat) :
    Holds r connection (past ++ [.send r buf count]) where
  connection_eq := by simpa [connectionAfter_append, SystemCall.connection] using h.connection_eq
  live := by simpa [phaseAfter_append, SystemCall.phase] using h.live
  others := by simpa [phaseAfter_append, SystemCall.phase] using h.others

theorem Holds.close_iff (h : Holds r connection past) :
    RightBehind past (.close r :: rest) ↔ RightBehind (past ++ [.close r]) rest := by
  simp [rightBehind_cons, SystemCall.OnConnection, SystemCall.NotAfterClose, SystemCall.uses,
    h.live]

theorem Holds.closed (h : Holds r (some r) past) :
    (∀ fd, phaseAfter (past ++ [.close r]) fd ≠ .live) ∧
      phaseAfter (past ++ [.close r]) r = .gone ∧ connectionAfter (past ++ [.close r]) = none := by
  refine ⟨fun fd => ?_, ?_, ?_⟩
  · by_cases hfd : r = fd
    · simp [phaseAfter_append, SystemCall.phase, hfd]
    · simpa [phaseAfter_append, SystemCall.phase, hfd] using h.others fd (Ne.symm hfd)
  · simp [phaseAfter_append, SystemCall.phase]
  · simp [connectionAfter_append, SystemCall.connection, h.connection_eq]

theorem Holds.closing_right (h : Holds r connection past) : RightBehind past (closing r) :=
  closing_right_iff.mpr ⟨by simp [h.live], h.others⟩

/-- What is called for the messages, and for the end of `tcp_main`. -/
def restCalls (singleshot : Bool) (sock : Int) (ms : List TcpMessage) : List SystemCall :=
  ms.flatMap (TcpMessage.calls singleshot sock) ++ closing sock

theorem restCalls_wrong (h : phaseAfter past sock = .gone) :
    ¬ RightBehind past (restCalls singleshot sock ms) := by
  intro hright
  cases ms with
  | nil => exact (closing_right_iff.mp hright).1 h
  | cons m ms => exact (rightBehind_cons.mp hright).2.1 sock rfl h

theorem Holds.restCalls_off (h : Holds r connection past) (ms : List TcpMessage) :
    RightBehind past (restCalls false r ms) ↔ ms = [] ∨ connection = some r := by
  induction ms generalizing past with
  | nil => simpa [restCalls] using h.closing_right
  | cons m ms ih =>
    simp only [restCalls, List.flatMap_cons, TcpMessage.calls, List.cons_append]
    rw [h.send_iff]
    have hrest := ih (h.send m.value.text (ofInt (toInt m.value.text.length)))
    tauto

/-- After each message the descriptor with the number of `sock` is got again, and connected if
another message follows. -/
def Reconnects (r : Int) : List Opening → Prop
  | [] => True
  | [o] => o.Opens r
  | o :: o' :: os => o.Connects r ∧ Reconnects r (o' :: os)

theorem reconnects_cons {os : List Opening} :
    Reconnects r (o :: os) ↔ o.Opens r ∧ (os = [] ∨ (o.connected = true ∧ Reconnects r os)) := by
  cases os <;> simp [Reconnects, Opening.Connects, and_assoc]

theorem Holds.restCalls_on (h : Holds r connection past) (ms : List TcpMessage) :
    RightBehind past (restCalls true r ms) ↔
      ms = [] ∨ (connection = some r ∧ Reconnects r (ms.map TcpMessage.opening)) := by
  induction ms generalizing connection past with
  | nil => simpa [restCalls] using h.closing_right
  | cons m ms ih =>
    simp only [restCalls, List.flatMap_cons, TcpMessage.calls, List.cons_append, if_true,
      List.append_assoc]
    have hsent := h.send m.value.text (ofInt (toInt m.value.text.length))
    rw [h.send_iff, hsent.close_iff, opening_right_iff, ← restCalls]
    simp only [List.map_cons, reconnects_cons, List.map_eq_nil_iff, reduceCtorEq, false_or]
    refine and_congr_right fun hconnection => ?_
    rw [hconnection] at hsent
    rcases hsent.closed with ⟨hnone, hgone, hlost⟩
    by_cases hopens : m.opening.Opens r
    · rw [ih (hopens.holds hnone hlost)]
      cases m.opening.connected <;> simp [hopens]
    · have hwrong := @restCalls_wrong _ _ ms true
        ((phaseAfter_opening_gone hopens).trans hgone)
      exact iff_of_false hwrong fun hreconnects => hopens hreconnects.1

theorem Holds.restCalls_iff (h : Holds r connection past) (ms : List TcpMessage) :
    RightBehind past (restCalls singleshot r ms) ↔
      ms = [] ∨ (connection = some r ∧
        (singleshot = true → Reconnects r (ms.map TcpMessage.opening))) := by
  cases singleshot
  · simp [h.restCalls_off]
  · simp [h.restCalls_on]

theorem Opening.Opens.result (h : o.Opens r) : o.result = r := by
  rcases h with ⟨hrc, hsocket⟩
  simp [Opening.result, hrc, hsocket]

theorem Opening.calls_of_not_opens (h : ∀ r, ¬ o.Opens r) : o.calls = [] := by
  rcases o with ⟨rc, _ | fd, connected⟩ <;> by_cases hrc : rc = 0 <;>
    simp_all [Opening.Opens, Opening.calls]

theorem message_wrong {m : TcpMessage} : ¬ RightBehind [] (m.calls singleshot sock ++ rest) := by
  intro hright
  have hconnection := (rightBehind_cons.mp hright).1 sock _ _ rfl
  simp [connectionAfter] at hconnection

theorem restCalls_unconnected : RightBehind [] (restCalls singleshot sock ms) ↔ ms = [] := by
  cases ms with
  | nil => simp [restCalls, closing_right_iff, phaseAfter]
  | cons m ms => simpa [restCalls] using message_wrong

theorem Opening.restCalls_iff :
    RightBehind [] (o.calls ++ restCalls singleshot o.result ms) ↔
      ms = [] ∨ ∃ r, o.Connects r ∧
        (singleshot = true → Reconnects r (ms.map TcpMessage.opening)) := by
  by_cases hopens : ∃ r, o.Opens r
  · rcases hopens with ⟨r, hopens⟩
    have hholds : Holds r _ ([] ++ o.calls) := hopens.holds (by simp [phaseAfter]) rfl
    rw [opening_right_iff, hopens.result, hholds.restCalls_iff]
    refine or_congr_right ⟨?_, ?_⟩
    · intro h
      refine ⟨r, ⟨hopens, ?_⟩, h.2⟩
      by_contra hconnected
      simp [hconnected] at h
    · intro h
      rcases h with ⟨r', hconnects, hreconnects⟩
      rw [hopens.unique hconnects.1]
      exact ⟨by simp [hconnects.2], hreconnects⟩
  · rw [not_exists] at hopens
    rw [Opening.calls_of_not_opens hopens, List.nil_append, restCalls_unconnected]
    simp [Opening.Connects, hopens]

/-- The messages go out on the live socket, and every descriptor is closed once, exactly when
nothing is published, or when the last attempt to connect has succeeded and, with single shots, the
number of its descriptor comes back each time. -/
theorem tcpMain_usesLive_iff {config : TcpConfig} {attempts : List (Opening × Bool)}
    {ms : List TcpMessage} {s : TcpState} (h : tcpMain config attempts ms = some s) :
    UsesLive s.calls ↔
      ms = [] ∨ (config.tcpEnable = true ∧ ∃ o, lastAttempt attempts = some o ∧ ∃ r, o.Connects r ∧
        (config.singleshot = true → Reconnects r (ms.map TcpMessage.opening))) := by
  rw [usesLive_iff]
  by_cases henable : config.tcpEnable = true
  · simp only [tcpMain, henable, if_true, Option.map_eq_some_iff] at h
    rcases h with ⟨s₀, hloop, rfl⟩
    have heq := connectLoop_eq attempts TcpState.init
    rw [hloop, Option.map_some] at heq
    rcases Option.map_eq_some_iff.mp heq.symm with ⟨o, hlast, hstart⟩
    rcases Prod.mk.inj hstart with ⟨hsock, hcalls⟩
    rcases publishAll_eq config.singleshot ms s₀ with ⟨hpublished, hsame⟩
    have hrun : (tcpClose (publishAll config.singleshot ms s₀).sock
        (publishAll config.singleshot ms s₀)).calls =
        o.calls ++ restCalls config.singleshot o.result ms := by
      simp [tcpClose, hpublished, hsame, ← hsock, ← hcalls, TcpState.init, restCalls, closing]
    rw [hrun, Opening.restCalls_iff]
    simp [henable, hlast]
  · simp only [tcpMain, henable] at h
    cases h
    rw [(publishAll_eq config.singleshot ms TcpState.init).1]
    cases ms with
    | nil => simpa [TcpState.init] using RightBehind.mk (by simp) (by simp) (by simp [phaseAfter])
    | cons m ms => simpa [TcpState.init, henable] using message_wrong

/-- A message with the value `on`. -/
def message (opening : Opening) : TcpMessage :=
  ⟨⟨ascii "on", by decide, by decide⟩, ⟨some, by simp⟩, opening⟩

def connectedTo (fd : Nat) : Opening := ⟨0, some fd, true⟩

/-- The number of the socket comes back after both messages. -/
theorem tcpMain_sameNumber :
    ∃ s, tcpMain ⟨true, true⟩ [(⟨-2, none, false⟩, false), (connectedTo 5, false)]
        [message (connectedTo 5), message (connectedTo 5)] = some s ∧ UsesLive s.calls :=
  ⟨_, rfl, (@tcpMain_usesLive_iff ⟨true, true⟩
    [(⟨-2, none, false⟩, false), (connectedTo 5, false)]
    [message (connectedTo 5), message (connectedTo 5)] _ rfl).mpr
    (.inr ⟨rfl, connectedTo 5, rfl, 5, ⟨⟨rfl, rfl⟩, rfl⟩,
      fun _ => ⟨⟨⟨rfl, rfl⟩, rfl⟩, ⟨rfl, rfl⟩⟩⟩)⟩

/-- After the first message another number is got: the second one is sent on the closed one. -/
theorem tcpMain_otherNumber :
    ¬ ∀ config attempts ms s, tcpMain config attempts ms = some s → UsesLive s.calls := by
  intro h
  have hright := h ⟨true, true⟩ [(connectedTo 5, false)]
    [message (connectedTo 6), message (connectedTo 7)] _ rfl
  have hsecond := hright.notAfterClose
    ((connectedTo 5).calls ++ (message (connectedTo 6)).calls true 5)
    (.send 5 (ascii "on") (ofInt (toInt 2)))
      (SystemCall.close 5 :: ((connectedTo 7).calls ++ closing 5)) rfl
  exact hsecond 5 rfl rfl

end FactoryThing.Bridge
