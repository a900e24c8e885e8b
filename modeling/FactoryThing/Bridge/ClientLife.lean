import FactoryThing.Bridge.Monitoring
import FactoryThing.Lib.Runs
import FactoryThing.Lib.Trace

/-!
# The client of the bridge

What becomes of the OPC UA client in `main` (`mqtt/client-main.cpp:44-112`) and in the threads of
`opcua_poll_group` (`mqtt/client-monitoring.cpp:199-395`), with every call that takes it. The
threads take turns, one such call at a time. `opcua_server_connect`
(`mqtt/client-connection.c:23-52`) deletes the client that it could not connect: the loop of `main`
makes a new one, the loop of a poll group goes on with the deleted one.
-/

namespace FactoryThing.Bridge

open FormattedText Trace Runs

/-- `getMonitorMode` (`client-config.cpp:460-469`). -/
def getMonitorMode (method : Text) : Mode := if isKey method "event" then .event else .poll

/-- The members of the configuration that are read here. -/
structure ClientConfig where
  asycRequestSupported : Bool
  method : Text
  groups : List Group

/-- The groups of a mode that are enabled. -/
def ClientConfig.enabled (config : ClientConfig) (mode : Mode) : List Group :=
  config.groups.filter fun g => getMonitorMode g.method = mode ∧ g.enable = some true

/-- The calls that take the client. -/
inductive ClientCall where
  | create (client : Nat)
  | use (client : Option Nat)
  | delete (client : Option Nat)
  deriving DecidableEq

/-- Where `opcua_server_connect` is: at `UA_Client_getEndpoints`, at `UA_Client_connect`, or at
`UA_Client_delete` behind one that has failed. -/
inductive ConnectAt where
  | getEndpoints
  | connect
  | delete
  deriving DecidableEq

/-- A step of `opcua_server_connect`: the call, and where it is then, or whether it has
connected. -/
def opcuaServerConnect (client : Option Nat) : ConnectAt → Bool → ClientCall × (ConnectAt ⊕ Bool)
  | .getEndpoints, true => (.use client, .inl .connect)
  | .getEndpoints, false => (.use client, .inl .delete)
  | .connect, true => (.use client, .inr true)
  | .connect, false => (.use client, .inl .delete)
  | .delete, _ => (.delete client, .inr false)

/-- Where `opcua_server_browse` is: at `UA_Client_Service_browse`, or at
`UA_Client_forEachChildNodeCall`. Whatever comes of them, it returns good. -/
inductive BrowseAt where
  | browse
  | children
  deriving DecidableEq

/-- Where `main` is. -/
inductive MainAt where
  | create
  | connecting (c : ConnectAt)
  | browsing (b : BrowseAt)
  | test (good : Bool)
  | monitor
  | threads
  | publishing
  | request
  | disconnect
  | delete
  | ended
  | exited
  deriving DecidableEq

/-- Where `opcua_poll_group` is, with the nodes that are left of the round. -/
inductive PollAt where
  | reading (left : Nat)
  | connecting (c : ConnectAt) (left : Nat)
  | browsing (b : BrowseAt) (left : Nat)
  | finished
  deriving DecidableEq

/-- A thread of `opcua_poll_group`: its `client`, and the number of nodes of its group. -/
structure PollThread where
  client : Option Nat
  nodes : Nat
  at_ : PollAt
  deriving DecidableEq

/-- The process. `client` is the one of `main` and of the configuration; `toStart` are the groups
that `opcua_poll` has still to start a thread for. -/
structure Process where
  beStop : Bool
  created : Nat
  client : Option Nat
  main : MainAt
  toStart : List Group
  threads : List PollThread
  calls : List ClientCall

/-- The process before `main` is run. -/
def Process.init : Process := ⟨false, 0, none, .create, [], [], []⟩

/-- One step of a run: the signal, a step of `main`, another thread, or a step of a thread. `ok` is
how `UA_Client_getEndpoints`, `UA_Client_connect` or `UA_Client_readValueAttribute` ends if it is
called. -/
inductive Turn where
  | signal
  | main (ok : Bool)
  | start
  | thread (i : Nat) (ok : Bool)
  deriving DecidableEq

/-- `main`. -/
def mainStep (config : ClientConfig) (p : Process) (ok : Bool) : Option Process :=
  match p.main with
  | .create => some { p with
      client := some p.created
      created := p.created + 1
      calls := p.calls ++ [.create p.created]
      main := .connecting .getEndpoints }
  | .connecting c =>
      let (call, next) := opcuaServerConnect p.client c ok
      some { p with
        calls := p.calls ++ [call]
        main := match next with
          | .inl c => .connecting c
          | .inr true => .browsing .browse
          | .inr false => .test false }
  | .browsing .browse => some { p with
      calls := p.calls ++ [.use p.client]
      main := .browsing .children }
  | .browsing .children => some { p with
      calls := p.calls ++ [.use p.client]
      main := .test true }
  | .test good =>
      some { p with main := if p.beStop = false ∧ good = false then .create else .monitor }
  | .monitor =>
      let discarded := config.asycRequestSupported = false ∧ getMonitorMode config.method = .poll
      let items := (config.enabled .event).flatMap Group.nodes
      some { p with
        -- `UA_Client_Subscriptions_new`, and `UA_Client_Subscriptions_addMonitoredItem` for the
        -- items.
        calls := p.calls ++ if discarded then [] else
          .use p.client :: items.map fun _ => .use p.client
        main := .threads }
  | .threads =>
      let discarded := config.asycRequestSupported = false ∧ getMonitorMode config.method = .event
      some { p with
        toStart := if discarded then [] else config.enabled .poll
        main := .publishing }
  | .publishing => some { p with main := if p.beStop then .disconnect else .request }
  | .request =>
      let polls := config.asycRequestSupported = false ∧ isKey config.method "poll"
      some { p with
        calls := p.calls ++ if polls then [] else [.use p.client]
        main := .publishing }
  | .disconnect => some { p with calls := p.calls ++ [.use p.client], main := .delete }
  | .delete => some { p with calls := p.calls ++ [.delete p.client], main := .ended }
  | .ended => some { p with main := .exited }
  | .exited => none

/-- `opcua_poll_group`: the call if there is one, and where it is then. -/
def threadStep (beStop ok : Bool) (t : PollThread) : Option (List ClientCall × PollAt) :=
  match t.at_ with
  | .reading (left + 1) =>
      some ([.use t.client], if ok then .reading left else .connecting .getEndpoints left)
  | .connecting c left =>
      let (call, next) := opcuaServerConnect t.client c ok
      some ([call], match next with
        | .inl c => .connecting c left
        | .inr true => .browsing .browse left
        | .inr false => .connecting .getEndpoints left)
  | .browsing .browse left => some ([.use t.client], .browsing .children left)
  | .browsing .children left => some ([.use t.client], .reading left)
  | .reading 0 => some ([], if beStop then .finished else .reading t.nodes)
  | .finished => none

/-- A step of the process, `none` when there is no such step. -/
def takeTurn (config : ClientConfig) (p : Process) : Turn → Option Process
  | .signal => if p.main = .exited then none else some { p with beStop := true }
  | .main ok => mainStep config p ok
  | .start =>
      match p.toStart with
      | [] => none
      | g :: rest =>
          if p.main = .exited then none
          else some { p with
            toStart := rest
            threads := p.threads ++ [⟨p.client, g.nodes.length, .reading g.nodes.length⟩] }
  | .thread i ok =>
      if p.main = .exited then none
      else do
        let t ← p.threads[i]?
        let (calls, at_) ← threadStep p.beStop ok t
        some { p with
          calls := p.calls ++ calls
          threads := p.threads.set i { t with at_ } }

/-- One step of a run. -/
def step (config : ClientConfig) (p : Process) (turn : Turn) : Except Unit (Process × Unit) :=
  match takeTurn config p turn with
  | none => .error ()
  | some p' => .ok (p', ())

/-- The client has been created and not been deleted. -/
def Live (c : Nat) (calls : List ClientCall) : Prop :=
  .create c ∈ calls ∧ .delete (some c) ∉ calls

/-- A call that takes a client takes one that is live. -/
def ClientCall.OnLive (past : List ClientCall) : ClientCall → Prop
  | .create _ => True
  | .use client => ∃ c, client = some c ∧ Live c past
  | .delete client => ∃ c, client = some c ∧ Live c past

/-- All calls are made on live clients, and no client is deleted twice. -/
structure UsesLiveClient (calls : List ClientCall) : Prop where
  live : Always ClientCall.OnLive [] calls
  once : ∀ c, calls.count (.delete (some c)) ≤ 1

def PollAt.calls : PollAt → Bool
  | .reading 0 => false
  | .finished => false
  | _ => true

/-- The call is the deletion of the client. -/
def PollAt.deletes : PollAt → Bool
  | .connecting .delete _ => true
  | _ => false

/-- What keeps the client: `main` does not leave its loop with the one that could not be connected,
no poll group comes to delete it, and none makes a call once `main` has deleted it. -/
def KeepsClient (p : Process) : Turn → Prop
  | .signal => True
  | .main _ => ¬ (p.main = .test false ∧ p.beStop = true)
  | .start => True
  | .thread i _ =>
      ∀ t ∈ p.threads[i]?, t.at_.calls = true →
        p.main ≠ .ended ∧ t.at_.deletes = false

instance (p : Process) : DecidablePred (KeepsClient p)
  | .signal => isTrue trivial
  | .main _ => inferInstanceAs (Decidable (¬ (p.main = .test false ∧ p.beStop = true)))
  | .start => isTrue trivial
  | .thread i _ => inferInstanceAs (Decidable (∀ t ∈ p.threads[i]?, t.at_.calls = true →
      p.main ≠ .ended ∧ t.at_.deletes = false))

variable {calls new past : List ClientCall} {c : Nat} {p p' : Process} {config : ClientConfig}
  {ok : Bool}

theorem always_onLive_append :
    Always ClientCall.OnLive [] (calls ++ new) ↔
      Always ClientCall.OnLive [] calls ∧ Always ClientCall.OnLive calls new := by
  simpa using always_append [] calls new

theorem count_delete_le (h : Always ClientCall.OnLive past calls) (c : Nat)
    (hpast : past.count (.delete (some c)) ≤ 1) : (past ++ calls).count (.delete (some c)) ≤ 1 := by
  induction calls generalizing past with
  | nil => simpa using hpast
  | cons call calls ih =>
    rw [always_cons] at h
    rw [List.append_cons]
    refine ih h.2 ?_
    by_cases hcall : call = .delete (some c)
    · subst hcall
      rcases h.1 with ⟨c', hc', hlive⟩
      cases hc'
      simp [List.count_eq_zero.mpr hlive.2]
    · simpa [List.count_cons, hcall] using hpast

theorem usesLiveClient_iff : UsesLiveClient calls ↔ Always ClientCall.OnLive [] calls :=
  ⟨fun h => h.live, fun h => ⟨h, fun c => by simpa using count_delete_le h c (by simp)⟩⟩

theorem Live.append_uses {client : Option Nat} (h : Live c past)
    (hnew : ∀ call ∈ new, call = .use client) : Live c (past ++ new) := by
  refine ⟨List.mem_append_left _ h.1, fun hmem => ?_⟩
  rcases List.mem_append.mp hmem with hmem | hmem
  · exact h.2 hmem
  · cases hnew _ hmem

theorem Live.always_uses (h : Live c past) (hnew : ∀ call ∈ new, call = .use (some c)) :
    Always ClientCall.OnLive past new := by
  induction new generalizing past with
  | nil => simp
  | cons call new ih =>
    have hcall := hnew call (by simp)
    have hrest : ∀ call ∈ new, call = .use (some c) := fun x hx => hnew x (by simp [hx])
    rw [always_cons]
    refine ⟨hcall ▸ ⟨c, rfl, h⟩, ih (h.append_uses (by simpa using hcall)) hrest⟩

/-- `main` has a client. -/
def MainAt.holds : MainAt → Bool
  | .create => false
  | .test false => false
  | .ended => false
  | .exited => false
  | _ => true

/-- `main` has not started the other threads. -/
def MainAt.starting : MainAt → Bool
  | .create => true
  | .connecting _ => true
  | .browsing _ => true
  | .test _ => true
  | .monitor => true
  | .threads => true
  | _ => false

/-- What holds as long as the client is kept. -/
structure Kept (p : Process) : Prop where
  right : Always ClientCall.OnLive [] p.calls
  createdBelow : ∀ c, .create c ∈ p.calls → c < p.created
  deletedBelow : ∀ c, .delete (some c) ∈ p.calls → c < p.created
  live : p.main.holds = true → ∃ c, p.client = some c ∧ Live c p.calls
  gone : p.main = .test false ∨ p.main = .ended →
    ∃ c, p.client = some c ∧ .delete (some c) ∈ p.calls
  same : ∀ t ∈ p.threads, t.client = p.client
  none : p.main.starting = true → p.threads = [] ∧ p.toStart = []

theorem Kept.init : Kept Process.init := by
  constructor <;> simp [Process.init, MainAt.holds]

theorem Kept.uses (h : Kept p) (hholds : p.main.holds = true) (hcalls : p'.calls = p.calls ++ new)
    (hnew : ∀ call ∈ new, call = .use p.client) (hcreated : p'.created = p.created)
    (hclient : p'.client = p.client) (hmain : p'.main.holds = true)
    (hsame : ∀ t ∈ p'.threads, t.client = p.client)
    (hnone : p'.main.starting = true → p'.threads = [] ∧ p'.toStart = []) : Kept p' := by
  rcases h.live hholds with ⟨c, hc, hlive⟩
  have hnotCreate : ∀ c', .create c' ∉ new := fun c' hmem => by cases hnew _ hmem
  have hnotDelete : ∀ c', .delete c' ∉ new := fun c' hmem => by cases hnew _ hmem
  constructor
  case right =>
    rw [hcalls, always_onLive_append]
    exact ⟨h.right, hlive.always_uses (hc ▸ hnew)⟩
  case createdBelow => simpa [hcalls, hnotCreate, hcreated] using h.createdBelow
  case deletedBelow => simpa [hcalls, hnotDelete, hcreated] using h.deletedBelow
  case live => exact fun _ => ⟨c, hclient.trans hc, hcalls ▸ hlive.append_uses hnew⟩
  case gone => intro hgone; rcases hgone with hgone | hgone <;> simp [hgone, MainAt.holds] at hmain
  case same => exact fun t ht => (hsame t ht).trans hclient.symm
  case none => exact hnone

theorem Kept.deletes (h : Kept p) (hholds : p.main.holds = true)
    (hcalls : p'.calls = p.calls ++ [.delete p.client]) (hcreated : p'.created = p.created)
    (hclient : p'.client = p.client) (hmain : p'.main = .test false ∨ p'.main = .ended)
    (hthreads : p'.threads = p.threads)
    (hnone : p'.main.starting = true → p'.threads = [] ∧ p'.toStart = []) : Kept p' := by
  rcases h.live hholds with ⟨c, hc, hlive⟩
  constructor
  case right =>
    rw [hcalls, always_onLive_append]
    exact ⟨h.right, by simpa [ClientCall.OnLive] using ⟨c, hc, hlive⟩⟩
  case createdBelow => simpa [hcalls, hcreated] using h.createdBelow
  case deletedBelow =>
    intro c' hmem
    rw [hcreated]
    rw [hcalls, hc] at hmem
    rcases List.mem_append.mp hmem with hmem | hmem
    · exact h.deletedBelow c' hmem
    · cases List.mem_singleton.mp hmem
      exact h.createdBelow c hlive.1
  case live =>
    intro hholds'
    rcases hmain with hmain | hmain <;> simp [hmain, MainAt.holds] at hholds'
  case gone => exact fun _ => ⟨c, hclient.trans hc, by simp [hcalls, hc]⟩
  case same => exact fun t ht => (h.same t (hthreads ▸ ht)).trans hclient.symm
  case none => exact hnone

theorem Kept.moves (h : Kept p) {m : MainAt} (hholds : m.holds = true → p.main.holds = true)
    (hgone : m = .test false ∨ m = .ended → p.main = .test false ∨ p.main = .ended)
    (hnone : m.starting = true → p.main.starting = true) : Kept { p with main := m } where
  right := h.right
  createdBelow := h.createdBelow
  deletedBelow := h.deletedBelow
  live := fun hm => h.live (hholds hm)
  gone := fun hm => h.gone (hgone hm)
  same := h.same
  none := fun hm => h.none (hnone hm)

theorem Kept.creates (h : Kept p) (hmain : p.main = .create) :
    Kept { p with
      client := some p.created
      created := p.created + 1
      calls := p.calls ++ [.create p.created]
      main := .connecting .getEndpoints } := by
  have hnone := h.none (by rw [hmain]; rfl)
  constructor
  case right =>
    rw [always_onLive_append]
    exact ⟨h.right, by simp [ClientCall.OnLive]⟩
  case createdBelow =>
    intro c hmem
    rcases List.mem_append.mp hmem with hmem | hmem
    · exact Nat.lt_succ_of_lt (h.createdBelow c hmem)
    · cases List.mem_singleton.mp hmem
      exact Nat.lt_succ_self _
  case deletedBelow =>
    intro c hmem
    exact Nat.lt_succ_of_lt (h.deletedBelow c (by simpa using hmem))
  case live =>
    refine fun _ => ⟨p.created, rfl, by simp, fun hmem => ?_⟩
    exact Nat.lt_irrefl _ (h.deletedBelow _ (by simpa using hmem))
  case gone => simp
  case same => simp [hnone.1]
  case none => exact fun _ => hnone

theorem Kept.main (h : Kept p) (hguard : ¬ (p.main = .test false ∧ p.beStop = true))
    (hstep : mainStep config p ok = some p') : Kept p' := by
  unfold mainStep at hstep
  cases hmain : p.main with
  | create =>
    simp only [hmain, Option.some.injEq] at hstep
    exact hstep ▸ h.creates hmain
  | connecting c =>
    have hnone := h.none (by rw [hmain]; rfl)
    have hholds : p.main.holds = true := by rw [hmain]; rfl
    simp only [hmain, Option.some.injEq] at hstep
    subst hstep
    cases c with
    | getEndpoints | connect =>
      cases ok <;> exact h.uses hholds rfl (by simp [opcuaServerConnect]) rfl rfl rfl h.same
        fun _ => hnone
    | delete => exact h.deletes hholds rfl rfl rfl (.inl rfl) rfl fun _ => hnone
  | browsing b =>
    have hnone := h.none (by rw [hmain]; rfl)
    have hholds : p.main.holds = true := by rw [hmain]; rfl
    cases b <;>
    · simp only [hmain, Option.some.injEq] at hstep
      subst hstep
      exact h.uses hholds rfl (by simp) rfl rfl rfl h.same fun _ => hnone
  | test good =>
    simp only [hmain, Option.some.injEq] at hstep
    subst hstep
    cases good with
    | true =>
      rw [if_neg (by simp)]
      exact h.moves (by simp [hmain, MainAt.holds]) (by simp) (by simp [hmain, MainAt.starting])
    | false =>
      have hgo : p.beStop = false := by simpa [hmain] using hguard
      rw [if_pos ⟨hgo, rfl⟩]
      exact h.moves (by simp [MainAt.holds]) (by simp) (by simp [hmain, MainAt.starting])
  | monitor =>
    have hnone := h.none (by rw [hmain]; rfl)
    simp only [hmain, Option.some.injEq] at hstep
    subst hstep
    refine h.uses (by rw [hmain]; rfl) rfl ?_ rfl rfl rfl h.same fun _ => hnone
    intro call hcall
    split at hcall
    · simp at hcall
    · rcases List.mem_cons.mp hcall with hcall | hcall
      · exact hcall
      · rcases List.mem_map.mp hcall with ⟨_, _, hcall⟩
        exact hcall.symm
  | threads =>
    have hnone := h.none (by rw [hmain]; rfl)
    simp only [hmain, Option.some.injEq] at hstep
    subst hstep
    exact @Kept.uses [] _ _ h (by rw [hmain]; rfl) (by simp) (by simp) rfl rfl rfl h.same
      (by simp [MainAt.starting])
  | publishing =>
    simp only [hmain, Option.some.injEq] at hstep
    subst hstep
    refine h.moves (by simp [hmain, MainAt.holds]) ?_ ?_ <;> cases p.beStop <;>
      simp [MainAt.starting]
  | request =>
    simp only [hmain, Option.some.injEq] at hstep
    subst hstep
    refine h.uses (by rw [hmain]; rfl) rfl ?_ rfl rfl rfl h.same (by simp [MainAt.starting])
    intro call hcall
    split at hcall <;> simp at hcall
    exact hcall
  | disconnect =>
    simp only [hmain, Option.some.injEq] at hstep
    subst hstep
    exact h.uses (by rw [hmain]; rfl) rfl (by simp) rfl rfl rfl h.same (by simp [MainAt.starting])
  | delete =>
    simp only [hmain, Option.some.injEq] at hstep
    subst hstep
    exact h.deletes (by rw [hmain]; rfl) rfl rfl rfl (.inr rfl) rfl (by simp [MainAt.starting])
  | ended =>
    simp only [hmain, Option.some.injEq] at hstep
    subst hstep
    exact h.moves (by simp [MainAt.holds]) (by simp) (by simp [MainAt.starting])
  | exited => simp [hmain] at hstep

theorem threadStep_calls {beStop : Bool} {t : PollThread} {at_ : PollAt}
    (h : threadStep beStop ok t = some (calls, at_)) :
    (t.at_.calls = false ∧ calls = []) ∨
      (t.at_.calls = true ∧ t.at_.deletes = false ∧ calls = [.use t.client]) ∨
      (t.at_.calls = true ∧ t.at_.deletes = true ∧ calls = [.delete t.client]) := by
  rcases t with ⟨client, nodes, at'⟩
  rcases at' with (_ | left) | ⟨c, left⟩ | ⟨b, left⟩ | _
  · simp only [threadStep, Option.some.injEq, Prod.mk.injEq] at h
    exact .inl ⟨rfl, h.1.symm⟩
  · simp only [threadStep, Option.some.injEq, Prod.mk.injEq] at h
    exact .inr (.inl ⟨rfl, rfl, h.1.symm⟩)
  · cases c <;> cases ok <;>
      simp [threadStep, opcuaServerConnect, PollAt.calls, PollAt.deletes] at h ⊢ <;> exact h.1.symm
  · cases b <;> simp [threadStep, PollAt.calls, PollAt.deletes] at h ⊢ <;> exact h.1.symm
  · simp [threadStep] at h

theorem takeTurn_thread {i : Nat} (h : takeTurn config p (.thread i ok) = some p') :
    p.main ≠ .exited ∧ ∃ t calls at_, p.threads[i]? = some t ∧
      threadStep p.beStop ok t = some (calls, at_) ∧
      p' = { p with calls := p.calls ++ calls, threads := p.threads.set i { t with at_ } } := by
  simp only [takeTurn, Option.ite_none_left_eq_some, Option.bind_eq_bind,
    Option.bind_eq_some_iff] at h
  rcases h with ⟨hexited, t, ht, ⟨calls, at_⟩, hstep, h⟩
  exact ⟨hexited, t, calls, at_, ht, hstep, (Option.some.inj h).symm⟩

theorem Kept.holds_of_thread (h : Kept p) {t : PollThread} (ht : t ∈ p.threads)
    (hended : p.main ≠ .ended) (hexited : p.main ≠ .exited) :
    p.main.holds = true ∧ p.main.starting = false := by
  have hstarted : p.main.starting = false := by
    by_contra hstarting
    rw [(h.none (by simpa using hstarting)).1] at ht
    cases ht
  cases hmain : p.main <;> simp_all [MainAt.holds, MainAt.starting]

theorem Kept.turn {config : ClientConfig} {p p' : Process} {turn : Turn} (h : Kept p)
    (hguard : KeepsClient p turn) (hstep : takeTurn config p turn = some p') : Kept p' := by
  cases turn with
  | signal =>
    simp only [takeTurn, Option.ite_none_left_eq_some, Option.some.injEq] at hstep
    exact hstep.2 ▸ ⟨h.right, h.createdBelow, h.deletedBelow, h.live, h.gone, h.same, h.none⟩
  | main ok => exact h.main hguard hstep
  | start =>
    cases htoStart : p.toStart with
    | nil => simp [takeTurn, htoStart] at hstep
    | cons g rest =>
      simp only [takeTurn, htoStart, Option.ite_none_left_eq_some, Option.some.injEq] at hstep
      rcases hstep with ⟨-, rfl⟩
      refine ⟨h.right, h.createdBelow, h.deletedBelow, h.live, h.gone, ?_, ?_⟩
      · intro t ht
        rcases List.mem_append.mp ht with ht | ht
        · exact h.same t ht
        · rw [List.mem_singleton.mp ht]
      · intro hstarting
        have hnone := (h.none hstarting).2
        rw [htoStart] at hnone
        cases hnone
  | thread i ok =>
    rcases takeTurn_thread hstep with ⟨hexited, t, calls, at_, ht, hthread, rfl⟩
    have hmem : t ∈ p.threads := List.mem_of_getElem? ht
    have hsame : ∀ t' ∈ p.threads.set i { t with at_ }, t'.client = p.client := by
      intro t' ht'
      rcases List.mem_or_eq_of_mem_set ht' with ht' | rfl
      · exact h.same t' ht'
      · exact h.same t hmem
    have hguard := hguard t ht
    rcases threadStep_calls hthread with ⟨-, rfl⟩ | ⟨hcalls, -, rfl⟩ | ⟨hcalls, hdeletes, -⟩
    · refine ⟨by simpa using h.right, by simpa using h.createdBelow, by simpa using h.deletedBelow,
        by simpa using h.live, by simpa using h.gone, hsame, ?_⟩
      intro hstarting
      rw [(h.none hstarting).1] at hmem
      cases hmem
    · rcases h.holds_of_thread hmem (hguard hcalls).1 hexited with ⟨hholds, hstarted⟩
      exact h.uses hholds rfl (by simp [h.same t hmem]) rfl rfl hholds hsame
        fun hstarting => by simp [hstarted] at hstarting
    · simp [(hguard hcalls).2] at hdeletes

/-- `main` is behind its loop, and has not deleted the client yet. -/
def MainAt.late : MainAt → Bool
  | .monitor => true
  | .threads => true
  | .publishing => true
  | .request => true
  | .disconnect => true
  | .delete => true
  | _ => false

/-- A call was wrong, or `main` will come to delete a client that is deleted. -/
def Lost (p : Process) : Prop :=
  ¬ Always ClientCall.OnLive [] p.calls ∨
    (p.main.late = true ∧ ∃ c, p.client = some c ∧ .delete (some c) ∈ p.calls)

theorem Lost.append (h : Lost p) (hcalls : p'.calls = p.calls ++ new)
    (hlate : p.main.late = true → p'.main.late = true) (hclient : p'.client = p.client) :
    Lost p' := by
  rcases h with hwrong | ⟨hmain, c, hc, hmem⟩
  · refine .inl fun hright => hwrong ?_
    rw [hcalls, always_onLive_append] at hright
    exact hright.1
  · exact .inr ⟨hlate hmain, c, hclient.trans hc, by simp [hcalls, hmem]⟩

theorem lost_of_gone {p p' : Process} {c : Nat} {call : ClientCall}
    (hgone : .delete (some c) ∈ p.calls) (hcalls : p'.calls = p.calls ++ [call])
    (hcall : call = .use (some c) ∨ call = .delete (some c)) : Lost p' := by
  refine .inl fun hright => ?_
  rw [hcalls, always_onLive_append, always_cons] at hright
  rcases hcall with rfl | rfl <;>
  · rcases hright.2.1 with ⟨c', hc', hlive⟩
    cases hc'
    exact hlive.2 hgone

theorem mainStep_calls (h : mainStep config p ok = some p') : ∃ new, p'.calls = p.calls ++ new := by
  unfold mainStep at h
  cases hmain : p.main with
  | browsing b => cases b <;> simp only [hmain, Option.some.injEq] at h <;> exact h ▸ ⟨_, rfl⟩
  | exited => simp [hmain] at h
  | test good => simp only [hmain, Option.some.injEq] at h; exact h ▸ ⟨[], by simp⟩
  | threads => simp only [hmain, Option.some.injEq] at h; exact h ▸ ⟨[], by simp⟩
  | publishing | ended => simp only [hmain, Option.some.injEq] at h; exact h ▸ ⟨[], by simp⟩
  | _ => simp only [hmain, Option.some.injEq] at h; exact h ▸ ⟨_, rfl⟩

theorem mainStep_late (h : mainStep config p ok = some p') (hlate : p.main.late = true) :
    p'.client = p.client ∧
      (p'.main.late = true ∨ p'.calls = p.calls ++ [.delete p.client]) := by
  unfold mainStep at h
  cases hmain : p.main with
  | publishing =>
    simp only [hmain, Option.some.injEq] at h
    subst h
    cases p.beStop <;> simp [MainAt.late]
  | monitor => simp only [hmain, Option.some.injEq] at h; simp [← h, MainAt.late]
  | threads => simp only [hmain, Option.some.injEq] at h; simp [← h, MainAt.late]
  | request | disconnect => simp only [hmain, Option.some.injEq] at h; simp [← h, MainAt.late]
  | delete => simp only [hmain, Option.some.injEq] at h; simp [← h]
  | _ => simp [hmain, MainAt.late] at hlate

theorem Lost.turn {config : ClientConfig} {p p' : Process} {turn : Turn} (h : Lost p)
    (hstep : takeTurn config p turn = some p') : Lost p' := by
  cases turn with
  | signal =>
    simp only [takeTurn, Option.ite_none_left_eq_some, Option.some.injEq] at hstep
    rcases hstep with ⟨-, rfl⟩
    exact @Lost.append [] _ _ h (by simp) id rfl
  | main ok =>
    rcases mainStep_calls hstep with ⟨new, hcalls⟩
    rcases h with hwrong | ⟨hlate, c, hc, hmem⟩
    · refine .inl fun hright => hwrong ?_
      rw [hcalls, always_onLive_append] at hright
      exact hright.1
    · rcases mainStep_late hstep hlate with ⟨hclient, hlate' | hdelete⟩
      · exact .inr ⟨hlate', c, hclient.trans hc, by simp [hcalls, hmem]⟩
      · exact lost_of_gone hmem hdelete (.inr (by rw [hc]))
  | start =>
    cases htoStart : p.toStart with
    | nil => simp [takeTurn, htoStart] at hstep
    | cons g rest =>
      simp only [takeTurn, htoStart, Option.ite_none_left_eq_some, Option.some.injEq] at hstep
      rcases hstep with ⟨-, rfl⟩
      exact @Lost.append [] _ _ h (by simp) id rfl
  | thread i ok =>
    rcases takeTurn_thread hstep with ⟨-, t, calls, at_, -, -, rfl⟩
    exact h.append rfl id rfl

theorem Kept.lost {turn : Turn} (h : Kept p) (hguard : ¬ KeepsClient p turn)
    (hstep : takeTurn config p turn = some p') : Lost p' := by
  cases turn with
  | signal => exact absurd trivial hguard
  | main ok =>
    rcases not_not.mp hguard with ⟨hmain, hstop⟩
    rcases h.gone (.inl hmain) with ⟨c, hc, hmem⟩
    simp only [takeTurn, mainStep, hmain, hstop, Option.some.injEq] at hstep
    subst hstep
    exact .inr ⟨rfl, c, hc, hmem⟩
  | start => exact absurd trivial hguard
  | thread i ok =>
    rcases takeTurn_thread hstep with ⟨hexited, t, calls, at_, ht, hthread, rfl⟩
    have hmem : t ∈ p.threads := List.mem_of_getElem? ht
    have hbad : t.at_.calls = true ∧
        (p.main ≠ .ended → t.at_.deletes = true) := by
      by_contra hgood
      refine hguard fun t' ht' hcalls => ?_
      cases Option.some.inj (ht.symm.trans ht')
      simpa [hcalls] using hgood
    have hsame := h.same t hmem
    by_cases hended : p.main = .ended
    · rcases h.gone (.inr hended) with ⟨c, hc, hgone⟩
      rcases threadStep_calls hthread with ⟨hnone, -⟩ | ⟨-, -, rfl⟩ | ⟨-, -, rfl⟩
      · simp [hnone] at hbad
      · exact lost_of_gone hgone rfl (.inl (by rw [hsame, hc]))
      · exact lost_of_gone hgone rfl (.inr (by rw [hsame, hc]))
    · have hdeletes := hbad.2 hended
      rcases h.holds_of_thread hmem hended hexited with ⟨hholds, hstarted⟩
      rcases h.live hholds with ⟨c, hc, -⟩
      rcases threadStep_calls hthread with ⟨hnone, -⟩ | ⟨-, hnot, -⟩ | ⟨-, -, rfl⟩
      · simp [hnone] at hbad
      · simp [hnot] at hdeletes
      · refine .inr ⟨?_, c, hc, by simp [hsame, hc]⟩
        cases hmain : p.main <;> simp_all [MainAt.holds, MainAt.starting, MainAt.late]

/-- The client that is used is created and not deleted in every run in which it is kept, and when
`main` has exited it was used so only if it was kept. -/
theorem usesLiveClient_of_run {config : ClientConfig} {turns : List Turn} {p : Process}
    {replies : List Unit} (h : run (step config) Process.init turns = .ok (p, replies)) :
    (Guarded (step config) KeepsClient Process.init turns → UsesLiveClient p.calls) ∧
      (p.main = .exited → UsesLiveClient p.calls →
        Guarded (step config) KeepsClient Process.init turns) := by
  have hok : ∀ {p p' : Process} {turn : Turn} {r : Unit}, step config p turn = .ok (p', r) →
      takeTurn config p turn = some p' := by
    intro p p' turn r hstep
    unfold step at hstep
    split at hstep
    · cases hstep
    · cases hstep
      assumption
  have hkeep : ∀ p turn p' r, Kept p → KeepsClient p turn → step config p turn = .ok (p', r) →
      Kept p' := fun _ _ _ _ hkept hguard hstep => hkept.turn hguard (hok hstep)
  constructor
  · intro hguarded
    exact usesLiveClient_iff.mpr
      (invariant_of_guarded hkeep turns _ p replies Kept.init hguarded h).right
  · intro hexited hlive
    by_contra hnot
    have hlost := lost_of_not_guarded hkeep
      (fun _ _ _ _ hkept hguard hstep => hkept.lost hguard (hok hstep))
      (fun _ _ _ _ hlost hstep => hlost.turn (hok hstep)) turns _ p replies Kept.init hnot h
    rcases hlost with hwrong | ⟨hlate, -⟩
    · exact hwrong hlive.live
    · simp [hexited, MainAt.late] at hlate

def onePollGroup : ClientConfig where
  asycRequestSupported := false
  method := ascii "poll"
  groups := [⟨ascii "g", ascii "poll", 1000, none, none, true, none, false, some true,
    [(0, ⟨ascii "i=1", ascii "t", ascii "a"⟩)]⟩]

/-- `main` connects with its second client, and stops; the thread of the group, which has connected
again after a read that failed, has ended before. -/
theorem usesLiveClient_secondClient :
    ∃ p replies, run (step onePollGroup) Process.init
        [.main true, .main false, .main true, .main true, .main true, .main true, .main true,
          .main true, .main true, .main true, .main true, .main true, .start, .thread 0 false,
          .thread 0 true, .thread 0 true, .thread 0 true, .thread 0 true, .signal, .thread 0 true,
          .main true, .main true, .main true, .main true] = .ok (p, replies) ∧
      UsesLiveClient p.calls :=
  ⟨_, _, rfl, (@usesLiveClient_of_run onePollGroup
    [.main true, .main false, .main true, .main true, .main true, .main true, .main true,
      .main true, .main true, .main true, .main true, .main true, .start, .thread 0 false,
      .thread 0 true, .thread 0 true, .thread 0 true, .thread 0 true, .signal, .thread 0 true,
      .main true, .main true, .main true, .main true] _ _ rfl).1 (by decide)⟩

/-- The stop flag is raised while `main` tries to connect, and that fails: the deleted client is
disconnected and deleted. -/
theorem usesLiveClient_stopped :
    ¬ ∀ config turns p replies, run (step config) Process.init turns = .ok (p, replies) →
      UsesLiveClient p.calls := by
  intro h
  have hlive :=
    (h onePollGroup [.main true, .signal, .main false, .main true, .main true, .main true,
    .main true, .main true, .main true, .main true] _ _ rfl).once 0
  revert hlive
  decide

end FactoryThing.Bridge
