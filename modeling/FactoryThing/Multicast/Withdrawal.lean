import FactoryThing.Multicast.PublishedRecords
import Mathlib.Data.List.Sublists
import Mathlib.Tactic.ByContra

/-!
# Servers that go offline

What is left of the records of a server after a request that withdraws it, in every run of requests
and of the daemon. A record is reached by way of an URL of the request if it is in the chain of the
service domain and has the port of the URL, which TXT and A records never have.
-/

namespace FactoryThing.Multicast

open Discovery FormattedText

/-- The records of a chain that are not withdrawn. -/
def Publisher.live (s : Publisher) (k : Int) : List MdnsRecord :=
  (s.published k).filter fun r => r.ttl ≠ 0

def MdnsRecord.serviceDomain (r : MdnsRecord) : Option Text :=
  match r.type with
  | .ptr => if r.name = opcuaDomain then r.rdname else none
  | .srv | .txt | .a => some r.name

/-- The service domain of an URL, and its port. -/
def serviceOf (serverName : Text) (discoveryUrl : UaString) : Option (Text × UInt16) :=
  match hostAndPort discoveryUrl with
  | .ok (some (hostname, port)) =>
      if hostname.length = 0 ∨ serverName.length = 0 then none
      else
        match fullServiceDomain serverName hostname with
        | .ok domain => some (domain, port)
        | .error _ => none
  | _ => none

def servicesOf (serverName : Text) (discoveryUrls : List UaString) : List (Text × UInt16) :=
  discoveryUrls.filterMap (serviceOf serverName)

def Own (services : List (Text × UInt16)) (r : MdnsRecord) : Prop :=
  ∃ e ∈ services, r.serviceDomain = some e.1

def Other (services : List (Text × UInt16)) (r : MdnsRecord) : Prop :=
  ∃ domain ∈ r.serviceDomain, serviceSuffix <:+ domain ∧ ∀ e ∈ services, e.1 ≠ domain

instance (services : List (Text × UInt16)) : DecidablePred (Own services) :=
  fun _ => inferInstanceAs (Decidable (∃ _ ∈ _, _))

instance (services : List (Text × UInt16)) : DecidablePred (Other services) := fun r =>
  match h : r.serviceDomain with
  | none => isFalse fun ⟨_, hdomain, _⟩ => by
      rw [h] at hdomain
      cases hdomain
  | some domain =>
      decidable_of_iff (serviceSuffix <:+ domain ∧ ∀ e ∈ services, e.1 ≠ domain)
        ⟨fun hother => ⟨domain, h, hother⟩, fun ⟨_, hdomain, hother⟩ => by
          rw [h] at hdomain
          cases hdomain
          exact hother⟩

/-- Nothing of the services remains, and all records for other service domains are as before. -/
def WithdrawnCompletely (services : List (Text × UInt16)) (s s' : Publisher) : Prop :=
  (∀ k, ∀ r ∈ s'.live k, ¬ Own services r) ∧
    ∀ k, (s'.live k).filter (Other services) = (s.live k).filter (Other services)

/-- An URL leads to a record: there is a PTR record to its service domain, and the record is in the
chain of the domain and has the port. -/
def LeadsTo (s : Publisher) (k : Int) (r : MdnsRecord) (e : Text × UInt16) : Prop :=
  s.hasPointer e.1 = true ∧ chainOf e.1 = k ∧ r.port = e.2

instance (s : Publisher) (k : Int) (r : MdnsRecord) : DecidablePred (LeadsTo s k r) :=
  fun _ => inferInstanceAs (Decidable (_ ∧ _))

/-- The URLs lead to all SRV, TXT and A records of the services, and to none of another service
domain. -/
structure LeadsToOwn (services : List (Text × UInt16)) (s : Publisher) : Prop where
  own : ∀ k, ∀ r ∈ s.live k, r.type ≠ .ptr → Own services r → ∃ e ∈ services, LeadsTo s k r e
  other : ∀ k, ∀ r ∈ s.live k, Other services r → ∀ e ∈ services, ¬ LeadsTo s k r e

/-- A record without what the daemon changes. -/
def MdnsRecord.outline (r : MdnsRecord) : MdnsRecord :=
  { r with ttl := 0, unique := if r.unique = 0 then 0 else 1 }

theorem outline_eq {r r' : MdnsRecord} (h : r.outline = r'.outline) :
    r.name = r'.name ∧ r.type = r'.type ∧ (r.unique = 0 → r'.unique = 0) := by
  obtain ⟨hname, htype, -, hunique, -⟩ := MdnsRecord.mk.inj h
  refine ⟨hname, htype, fun hzero => ?_⟩
  by_contra hne
  rw [if_pos hzero, if_neg hne] at hunique
  cases hunique

/-- Records have been dropped or changed by the daemon. -/
def Thinned (chain' chain : List MdnsRecord) : Prop :=
  (chain'.map MdnsRecord.outline).Sublist (chain.map MdnsRecord.outline)

theorem Thinned.refl (chain : List MdnsRecord) : Thinned chain chain := List.Sublist.refl _

/-- A record that keeps its outline, or is dropped. -/
def KeepsOutline (change : MdnsRecord → Option MdnsRecord) : Prop :=
  ∀ r r', change r = some r' → r'.outline = r.outline

theorem Thinned.cons {chain' chain : List MdnsRecord} (h : Thinned chain' chain)
    {change : MdnsRecord → Option MdnsRecord} (hkeeps : KeepsOutline change) (r : MdnsRecord) :
    Thinned ((change r).toList ++ chain') (r :: chain) := by
  cases hr : change r with
  | none => exact List.Sublist.cons _ h
  | some r' =>
    show List.Sublist (r'.outline :: _) (r.outline :: _)
    rw [hkeeps r r' hr]
    exact List.Sublist.cons_cons _ h

theorem keepsOutline_mdnsdDone : KeepsOutline mdnsdDone := by
  intro r r' h
  unfold mdnsdDone at h
  split at h
  · cases h
  · cases h
    rfl

theorem keepsOutline_removeIn (port : UInt16) (removeTxt : Bool) :
    KeepsOutline (removeIn port removeTxt) := by
  intro r r' h
  unfold removeIn at h
  split at h
  · exact keepsOutline_mdnsdDone r r' h
  · cases h
    rfl

theorem keepsOutline_serviceRecord (activity : DaemonActivity) :
    KeepsOutline (serviceRecord activity) := by
  intro r r' h
  unfold serviceRecord at h
  cases activity with
  | idle =>
    cases h
    rfl
  | probed =>
    cases h
    split
    · rename_i hprobing
      unfold MdnsRecord.outline
      rw [if_neg hprobing.1, if_neg (Nat.succ_ne_zero _)]
    · rfl
  | sent =>
    dsimp only at h
    split at h
    · cases h
    · cases h
      rfl
  | conflict =>
    dsimp only at h
    split at h
    · exact keepsOutline_mdnsdDone r r' h
    · cases h
      rfl

theorem thinned_filterMap {change : MdnsRecord → Option MdnsRecord} (hkeeps : KeepsOutline change)
    (chain : List MdnsRecord) : Thinned (chain.filterMap change) chain := by
  induction chain with
  | nil => exact Thinned.refl []
  | cons r rest ih =>
    have h := ih.cons hkeeps r
    rw [List.filterMap_cons]
    cases hr : change r with
    | none => rwa [hr] at h
    | some r' => rwa [hr] at h

theorem thinned_doneFirst (wanted : MdnsRecord → Bool) (chain : List MdnsRecord) :
    Thinned (doneFirst wanted chain) chain := by
  induction chain with
  | nil => exact Thinned.refl []
  | cons r rest ih =>
    unfold doneFirst
    split
    · exact (Thinned.refl rest).cons keepsOutline_mdnsdDone r
    · exact List.Sublist.cons_cons _ ih

theorem thinned_serviceChain (activity : Nat → DaemonActivity) (n : Nat) (chain : List MdnsRecord) :
    Thinned (serviceChain activity n chain) chain := by
  induction chain generalizing n with
  | nil => exact Thinned.refl []
  | cons r rest ih => exact (ih (n + 1)).cons (keepsOutline_serviceRecord (activity n)) r

/-- Records are in the chains of their names. PTR records are shared, and there is one at most to
each domain in a chain. -/
structure Tidy (s : Publisher) : Prop where
  placed : ∀ k, ∀ r ∈ s.published k, chainOf r.name = k
  shared : ∀ k, ∀ r ∈ s.published k, r.type = .ptr → r.unique = 0
  onePointer : ∀ k domain, (s.published k).countP (MdnsRecord.pointsTo domain) ≤ 1
  fresh : s.mdnsMainSrvAdded = false → ∀ k, s.published k = []

theorem tidy_init : Tidy .init where
  placed := nofun
  shared := nofun
  onePointer _ _ := Nat.zero_le 1
  fresh _ _ := rfl

variable {s s' : Publisher}

theorem Thinned.exists {chain' chain : List MdnsRecord} (h : Thinned chain' chain) {r' : MdnsRecord}
    (hr' : r' ∈ chain') : ∃ r ∈ chain, r.outline = r'.outline :=
  List.mem_map.mp (h.subset (List.mem_map_of_mem hr'))

theorem countP_pointsTo_map (domain : Text) (chain : List MdnsRecord) :
    (chain.map MdnsRecord.outline).countP (MdnsRecord.pointsTo domain) =
      chain.countP (MdnsRecord.pointsTo domain) := by
  rw [List.countP_map]
  rfl

theorem Tidy.thin (h : Tidy s) (hthin : ∀ k, Thinned (s'.published k) (s.published k))
    (hadded : s'.mdnsMainSrvAdded = s.mdnsMainSrvAdded) : Tidy s' := by
  constructor
  · intro k r' hr'
    obtain ⟨r, hr, hsame⟩ := (hthin k).exists hr'
    rw [← (outline_eq hsame).1]
    exact h.placed k r hr
  · intro k r' hr' htype
    obtain ⟨r, hr, hsame⟩ := (hthin k).exists hr'
    obtain ⟨-, htypes, hunique⟩ := outline_eq hsame
    exact hunique (h.shared k r hr (htypes.trans htype))
  · intro k domain
    have hcount := (hthin k).countP_le (p := MdnsRecord.pointsTo domain)
    rw [countP_pointsTo_map, countP_pointsTo_map] at hcount
    exact hcount.trans (h.onePointer k domain)
  · intro hnot k
    have hnil := h.fresh (hadded ▸ hnot) k
    have hthin := hthin k
    rw [hnil] at hthin
    exact List.map_eq_nil_iff.mp (List.sublist_nil.mp hthin)

theorem Tidy.service (h : Tidy s) (activity : Int → Nat → DaemonActivity) :
    Tidy (s.service activity) :=
  h.thin (fun k => thinned_serviceChain (activity k) 0 (s.published k)) rfl

theorem update_chain (published : Int → List MdnsRecord) (k k' : Int) (chain : List MdnsRecord) :
    Function.update published k chain k' = if k' = k then chain else published k' :=
  Function.update_apply published k chain k'

theorem Tidy.donePointer (h : Tidy s) (domain : Text) : Tidy (s.donePointer domain) := by
  refine h.thin (fun k => ?_) rfl
  unfold Publisher.donePointer
  dsimp only
  rw [update_chain]
  split
  · rename_i hk
    rw [hk]
    exact thinned_doneFirst _ _
  · exact Thinned.refl _

theorem Tidy.removeInChain (h : Tidy s) (domain : Text) (port : UInt16) (removeTxt : Bool) :
    Tidy (s.removeInChain domain port removeTxt) := by
  refine h.thin (fun k => ?_) rfl
  unfold Publisher.removeInChain
  dsimp only
  rw [update_chain]
  split
  · rename_i hk
    rw [hk]
    exact thinned_filterMap (keepsOutline_removeIn port removeTxt) _
  · exact Thinned.refl _

theorem push_published (s : Publisher) (r : MdnsRecord) (k : Int) :
    (s.push r).published k =
      if k = chainOf r.name then r :: s.published k else s.published k := by
  unfold Publisher.push
  dsimp only
  rw [update_chain]
  split
  · rename_i hk
    rw [hk]
  · rfl

theorem Tidy.push (h : Tidy s) {r : MdnsRecord} (hadded : s.mdnsMainSrvAdded = true)
    (hshared : r.type = .ptr → r.unique = 0)
    (hpointer : ∀ domain, r.pointsTo domain = true →
      (s.published (chainOf r.name)).countP (MdnsRecord.pointsTo domain) = 0) :
        Tidy (s.push r) := by
  constructor
  · intro k r' hr'
    rw [push_published] at hr'
    split at hr'
    · rename_i hk
      obtain rfl | hr' := List.mem_cons.mp hr'
      · exact hk.symm
      · exact h.placed k r' hr'
    · exact h.placed k r' hr'
  · intro k r' hr' htype
    rw [push_published] at hr'
    split at hr'
    · obtain rfl | hr' := List.mem_cons.mp hr'
      · exact hshared htype
      · exact h.shared k r' hr' htype
    · exact h.shared k r' hr' htype
  · intro k domain
    rw [push_published]
    split
    · rename_i hk
      rw [List.countP_cons, hk]
      split
      · rename_i hpoints
        rw [hpointer domain hpoints]
      · exact h.onePointer _ domain
    · exact h.onePointer k domain
  · intro hnot
    rw [show (s.push r).mdnsMainSrvAdded = s.mdnsMainSrvAdded from rfl, hadded] at hnot
    cases hnot

theorem Tidy.push_of_ne (h : Tidy s) {r : MdnsRecord} (hadded : s.mdnsMainSrvAdded = true)
    (htype : r.type ≠ .ptr) : Tidy (s.push r) := by
  refine h.push hadded (fun hptr => absurd hptr htype) fun domain hpoints => ?_
  unfold MdnsRecord.pointsTo at hpoints
  rw [decide_eq_false htype, Bool.false_and] at hpoints
  cases hpoints

theorem Tidy.addMainSrv (h : Tidy s) :
    Tidy s.addMainSrv ∧ s.addMainSrv.mdnsMainSrvAdded = true := by
  unfold Publisher.addMainSrv
  split
  · rename_i hadded
    exact ⟨h, hadded⟩
  · rename_i hnot
    have hnil := h.fresh (Bool.not_eq_true _ ▸ hnot)
    have hflagged : Tidy { s with mdnsMainSrvAdded := true } :=
      ⟨h.placed, h.shared, h.onePointer, nofun⟩
    have hshared : mainSrvRecord.type = .ptr → mainSrvRecord.unique = 0 := fun _ => rfl
    generalize mainSrvRecord = r at hshared
    refine ⟨hflagged.push rfl hshared fun domain _ => ?_, rfl⟩
    rw [hnil]
    rfl

theorem Tidy.setAddressRecord (h : Tidy s) (hadded : s.mdnsMainSrvAdded = true) (domain host : Text)
    (addresses : List (List UInt8)) : Tidy (s.setAddressRecord domain host addresses) ∧
      (s.setAddressRecord domain host addresses).mdnsMainSrvAdded = true := by
  induction addresses generalizing s with
  | nil => exact ⟨h, hadded⟩
  | cons address addresses ih =>
    exact ih ((h.push_of_ne hadded (by simp)).push_of_ne hadded (by simp)) hadded

theorem Tidy.publish (h : Tidy s) (hadded : s.mdnsMainSrvAdded = true) (domain host : Text)
    (port : UInt16) (createTxt : Bool) (addresses : List (List UInt8)) :
    Tidy (s.publish domain host port createTxt addresses) := by
  have hpointer : ∀ s' : Publisher, s' = (if s.hasPointer domain then s
      else s.push ⟨opcuaDomain, .ptr, 600, 0, some domain, 0, []⟩) →
        Tidy s' ∧ s'.mdnsMainSrvAdded = true := by
    rintro s' rfl
    split
    · exact ⟨h, hadded⟩
    · rename_i hnot
      refine ⟨h.push hadded (fun _ => rfl) fun domain' hpoints => ?_, hadded⟩
      cases of_decide_eq_true ((Bool.and_eq_true_iff.mp hpoints).2)
      rw [List.countP_eq_zero]
      intro r hr hr'
      exact hnot (List.any_eq_true.mpr ⟨r, hr, hr'⟩)
  unfold Publisher.publish
  split
  · exact h
  · dsimp only
    obtain ⟨htidy, hadded⟩ := hpointer _ rfl
    have hsrv : (⟨domain, .srv, 600, 1, some host, port, []⟩ : MdnsRecord).type ≠ .ptr := by simp
    have hpushed := htidy.push_of_ne hadded hsrv
    obtain ⟨htidy, hadded⟩ := hpushed.setAddressRecord hadded domain host addresses
    split
    · exact htidy.push_of_ne hadded (by simp)
    · exact htidy

variable {hostname : Text} {retval : StatusCode} {servername serverName : Text} {e : Text × UInt16}

theorem Tidy.addRecord (h : Tidy s) {port : UInt16} {createTxt : Bool}
    {addresses : List (List UInt8)}
    (hok : s.addRecord servername hostname port createTxt addresses = .ok (retval, s')) :
    Tidy s' := by
  unfold Publisher.addRecord at hok
  split at hok
  · cases hok
    exact h
  · cases hdomain : fullServiceDomain servername hostname with
    | error fault =>
      rw [hdomain] at hok
      cases hok
    | ok domain =>
      rw [hdomain] at hok
      cases hhost : localDomain hostname with
      | error fault =>
        rw [hhost] at hok
        cases hok
      | ok host =>
        rw [hhost] at hok
        cases hok
        exact h.addMainSrv.1.publish h.addMainSrv.2 _ _ _ _ _

theorem Tidy.removeRecord (h : Tidy s) {port : UInt16} {removeTxt : Bool}
    (hok : s.removeRecord servername hostname port removeTxt = .ok (retval, s')) : Tidy s' := by
  unfold Publisher.removeRecord at hok
  split at hok
  · cases hok
    exact h
  · cases hdomain : fullServiceDomain servername hostname with
    | error fault =>
      rw [hdomain] at hok
      cases hok
    | ok domain =>
      rw [hdomain] at hok
      simp only [bind, Except.bind] at hok
      split at hok
      · cases hok
        exact h
      · split at hok
        · cases hok
          exact h.donePointer domain
        · cases hok
          exact (h.donePointer domain).removeInChain domain port removeTxt

theorem Tidy.updateMdnsForDiscoveryUrl (h : Tidy s) {serverName : Text} {discoveryUrl : UaString}
    {isOnline updateTxt : Bool} {addresses : List (List UInt8)}
    (hok : s.updateMdnsForDiscoveryUrl serverName discoveryUrl isOnline updateTxt addresses =
      .ok s') : Tidy s' := by
  unfold Publisher.updateMdnsForDiscoveryUrl at hok
  cases hurl : hostAndPort discoveryUrl with
  | error fault =>
    rw [hurl] at hok
    cases hok
  | ok parts =>
    rw [hurl] at hok
    simp only [bind, Except.bind] at hok
    split at hok
    · cases hok
      exact h
    · rename_i hostname port
      cases isOnline with
      | true =>
        cases hadd : s.addRecord serverName hostname port updateTxt addresses with
        | error fault =>
          rw [if_pos rfl, hadd] at hok
          cases hok
        | ok result =>
          rw [if_pos rfl, hadd] at hok
          cases hok
          exact h.addRecord hadd
      | false =>
        cases hremove : s.removeRecord serverName hostname port updateTxt with
        | error fault =>
          rw [if_neg nofun, hremove] at hok
          cases hok
        | ok result =>
          rw [if_neg nofun, hremove] at hok
          cases hok
          exact h.removeRecord hremove

theorem Tidy.updateMdns {discoveryUrlsSize : Nat} {isOnline : Bool}
    {addresses : Nat → List (List UInt8)} {i : Nat} {discoveryUrls : List UaString} (h : Tidy s)
    (hok : s.updateMdns serverName discoveryUrlsSize isOnline addresses i discoveryUrls = .ok s') :
    Tidy s' := by
  induction discoveryUrls generalizing s i with
  | nil =>
    cases hok
    exact h
  | cons discoveryUrl rest ih =>
    unfold Publisher.updateMdns at hok
    simp only [bind, Except.bind] at hok
    split at hok
    · cases hok
    · rename_i s₁ hfirst
      exact ih (h.updateMdnsForDiscoveryUrl hfirst) hok

/-! ## What a withdrawal reaches -/

/-- A record is withdrawn by way of an URL: as the PTR record to the service domain, or because the
URL leads to it. -/
def Hit (s : Publisher) (k : Int) (r : MdnsRecord) (e : Text × UInt16) : Prop :=
  s.hasPointer e.1 = true ∧
    (k = chainOf opcuaDomain ∧ r.pointsTo e.1 = true ∨ chainOf e.1 = k ∧ r.port = e.2)

instance (s : Publisher) (k : Int) (r : MdnsRecord) : DecidablePred (Hit s k r) :=
  fun _ => inferInstanceAs (Decidable (_ ∧ _))

theorem live_mdnsdDone (r : MdnsRecord) :
    (mdnsdDone r).toList.filter (fun r => r.ttl ≠ 0) = [] := by
  unfold mdnsdDone
  split <;> rfl

theorem live_doneFirst {wanted : MdnsRecord → Bool} {chain : List MdnsRecord}
    (hone : chain.countP wanted ≤ 1) :
    (doneFirst wanted chain).filter (fun r => r.ttl ≠ 0) =
      (chain.filter fun r => r.ttl ≠ 0).filter fun r => !wanted r := by
  induction chain with
  | nil => rfl
  | cons r rest ih =>
    rw [List.countP_cons] at hone
    unfold doneFirst
    by_cases hwanted : wanted r = true
    · rw [if_pos hwanted] at hone ⊢
      have hnone : rest.countP wanted = 0 := by omega
      have hrest : (rest.filter fun r => r.ttl ≠ 0).filter (fun r => !wanted r) =
          rest.filter fun r => r.ttl ≠ 0 := by
        rw [List.filter_eq_self]
        intro r' hr'
        have hnot := List.countP_eq_zero.mp hnone r' (List.mem_filter.mp hr').1
        rw [Bool.eq_false_iff.mpr hnot]
        rfl
      rw [List.filter_append, live_mdnsdDone, List.nil_append, List.filter_cons]
      split
      · rw [List.filter_cons_of_neg (by simp [hwanted]), hrest]
      · exact hrest.symm
    · rw [if_neg hwanted] at hone ⊢
      rw [List.filter_cons, List.filter_cons, ih hone]
      split
      · rw [List.filter_cons_of_pos (by simp [hwanted])]
      · rfl

theorem live_filterMap (port : UInt16) (chain : List MdnsRecord) :
    (chain.filterMap (removeIn port false)).filter (fun r => r.ttl ≠ 0) =
      (chain.filter fun r => r.ttl ≠ 0).filter fun r => r.port ≠ port := by
  induction chain with
  | nil => rfl
  | cons r rest ih =>
    have hchange : removeIn port false r = if r.port = port then mdnsdDone r else some r := by
      simp [removeIn]
    rw [List.filterMap_cons, hchange]
    by_cases hport : r.port = port
    · have hkept : (List.filter (fun r => r.ttl ≠ 0) (r :: rest)).filter (fun r => r.port ≠ port) =
          (rest.filter fun r => r.ttl ≠ 0).filter fun r => r.port ≠ port := by
        rw [List.filter_cons]
        split
        · rw [List.filter_cons_of_neg (by simp [hport])]
        · rfl
      rw [if_pos hport, hkept, ← ih]
      unfold mdnsdDone
      split
      · rename_i hdone
        split at hdone
        · rfl
        · cases hdone
      · rename_i r' hdone
        split at hdone
        · cases hdone
        · cases hdone
          rfl
    · rw [if_neg hport, List.filter_cons, List.filter_cons, ih]
      split
      · rw [List.filter_cons_of_pos (by simp [hport])]
      · rfl

theorem Tidy.live_donePointer (h : Tidy s) (domain : Text) (k : Int) :
    (s.donePointer domain).live k =
      (s.live k).filter fun r => ¬ (k = chainOf opcuaDomain ∧ r.pointsTo domain = true) := by
  unfold Publisher.live Publisher.donePointer
  dsimp only
  rw [update_chain]
  by_cases hk : k = chainOf opcuaDomain
  · rw [if_pos hk, live_doneFirst (h.onePointer _ domain), hk]
    simp
  · rw [if_neg hk]
    simp [hk]

theorem live_removeInChain (s : Publisher) (domain : Text) (port : UInt16) (k : Int) :
    (s.removeInChain domain port false).live k =
      (s.live k).filter fun r => ¬ (chainOf domain = k ∧ r.port = port) := by
  unfold Publisher.live Publisher.removeInChain
  dsimp only
  rw [update_chain]
  by_cases hk : k = chainOf domain
  · rw [if_pos hk, live_filterMap, hk]
    simp
  · rw [if_neg hk]
    simp [Ne.symm hk]

theorem any_mdnsdDone {r : MdnsRecord} (hshared : r.type = .ptr → r.unique = 0) (domain : Text) :
    (mdnsdDone r).toList.any (MdnsRecord.pointsTo domain) = r.pointsTo domain := by
  unfold mdnsdDone
  split
  · rename_i hprobing
    have htype : ¬ r.type = .ptr := fun htype => hprobing.1 (hshared htype)
    unfold MdnsRecord.pointsTo
    rw [decide_eq_false htype]
    rfl
  · exact Bool.or_false _

theorem any_doneFirst {chain : List MdnsRecord} (hshared : ∀ r ∈ chain, r.type = .ptr →
    r.unique = 0)
    (wanted : MdnsRecord → Bool) (domain : Text) :
    (doneFirst wanted chain).any (MdnsRecord.pointsTo domain) =
      chain.any (MdnsRecord.pointsTo domain) := by
  induction chain with
  | nil => rfl
  | cons r rest ih =>
    obtain ⟨hr, hrest⟩ := List.forall_mem_cons.mp hshared
    unfold doneFirst
    split
    · rw [List.any_append, any_mdnsdDone hr, List.any_cons]
    · rw [List.any_cons, List.any_cons, ih hrest]

theorem any_filterMap {chain : List MdnsRecord} (hshared : ∀ r ∈ chain, r.type = .ptr →
    r.unique = 0)
    (port : UInt16) (removeTxt : Bool) (domain : Text) :
    (chain.filterMap (removeIn port removeTxt)).any (MdnsRecord.pointsTo domain) =
      chain.any (MdnsRecord.pointsTo domain) := by
  induction chain with
  | nil => rfl
  | cons r rest ih =>
    obtain ⟨hr, hrest⟩ := List.forall_mem_cons.mp hshared
    have hchange : (removeIn port removeTxt r).toList.any (MdnsRecord.pointsTo domain) =
        r.pointsTo domain := by
      unfold removeIn
      split
      · exact any_mdnsdDone hr domain
      · exact Bool.or_false _
    have hcons : (r :: rest).filterMap (removeIn port removeTxt) =
        (removeIn port removeTxt r).toList ++ rest.filterMap (removeIn port removeTxt) := by
      rw [List.filterMap_cons]
      cases removeIn port removeTxt r <;> rfl
    rw [hcons, List.any_append, hchange, ih hrest, List.any_cons]

theorem Tidy.hasPointer_donePointer (h : Tidy s) (domain domain' : Text) :
    (s.donePointer domain).hasPointer domain' = s.hasPointer domain' := by
  unfold Publisher.hasPointer Publisher.donePointer
  dsimp only
  rw [Function.update_self]
  exact any_doneFirst (h.shared _) _ _

theorem Tidy.hasPointer_removeInChain (h : Tidy s) (domain : Text) (port : UInt16)
    (domain' : Text) :
    (s.removeInChain domain port false).hasPointer domain' = s.hasPointer domain' := by
  unfold Publisher.hasPointer Publisher.removeInChain
  dsimp only
  rw [update_chain]
  split
  · rename_i hk
    rw [hk]
    exact any_filterMap (h.shared _) _ _ _
  · rfl

theorem live_of_no_hit {services : List (Text × UInt16)}
    (hnone : ∀ e ∈ services, s.hasPointer e.1 = false) (k : Int) :
    s.live k = (s.live k).filter fun r => ¬ ∃ e ∈ services, Hit s k r e := by
  refine (List.filter_eq_self.mpr fun r _ => decide_eq_true ?_).symm
  rintro ⟨e, he, hpointer, -⟩
  rw [hnone e he] at hpointer
  cases hpointer

theorem Tidy.removeRecord_spec (h : Tidy s) {domain : Text} {port : UInt16}
    (hnames : ¬ (hostname.length = 0 ∨ servername.length = 0))
    (hdomain : fullServiceDomain servername hostname = .ok domain)
    (hok : s.removeRecord servername hostname port false = .ok (retval, s')) :
    (∀ domain', s'.hasPointer domain' = s.hasPointer domain') ∧
      ∀ k, s'.live k = (s.live k).filter fun r => ¬ ∃ e ∈ [(domain, port)], Hit s k r e := by
  unfold Publisher.removeRecord at hok
  rw [if_neg hnames, hdomain] at hok
  simp only [bind, Except.bind] at hok
  by_cases hpointer : s.hasPointer domain = false
  · rw [if_pos hpointer] at hok
    cases hok
    exact ⟨fun _ => rfl, live_of_no_hit fun e he => List.mem_singleton.mp he ▸ hpointer⟩
  · rw [if_neg hpointer] at hok
    have hdone := h.donePointer domain
    have hafter : ∀ domain', (s.donePointer domain).hasPointer domain' = s.hasPointer domain' :=
      h.hasPointer_donePointer domain
    have hlive : ∀ k, ((s.donePointer domain).removeInChain domain port false).live k =
        (s.live k).filter fun r => ¬ ∃ e ∈ [(domain, port)], Hit s k r e := by
      intro k
      rw [live_removeInChain, h.live_donePointer, List.filter_filter]
      refine List.filter_congr fun r _ => ?_
      have hhit : (∃ e ∈ [(domain, port)], Hit s k r e) ↔
          (k = chainOf opcuaDomain ∧ r.pointsTo domain = true ∨
            chainOf domain = k ∧ r.port = port) := by
        simp only [List.mem_singleton, exists_eq_left]
        exact and_iff_right (Bool.not_eq_false _ ▸ hpointer)
      rw [← Bool.decide_and, decide_eq_decide, hhit, not_or, and_comm]
    split at hok
    · rename_i hnil
      cases hok
      refine ⟨hafter, fun k => ?_⟩
      -- The chain of the domain is empty, so that the loop would not change anything.
      rw [← hlive k, live_removeInChain]
      refine (List.filter_eq_self.mpr fun r hr => decide_eq_true ?_).symm
      rintro ⟨rfl, -⟩
      unfold Publisher.live at hr
      rw [hnil] at hr
      cases hr
    · cases hok
      exact ⟨fun domain' =>
        (hdone.hasPointer_removeInChain domain port domain').trans (hafter domain'), hlive⟩

theorem Tidy.removeUrl (h : Tidy s) {discoveryUrl : UaString} {addresses : List (List UInt8)}
    (hok : s.updateMdnsForDiscoveryUrl serverName discoveryUrl false false addresses = .ok s') :
    (∀ domain, s'.hasPointer domain = s.hasPointer domain) ∧
      ∀ k, s'.live k =
        (s.live k).filter fun r => ¬ ∃ e ∈ (serviceOf serverName discoveryUrl).toList,
          Hit s k r e := by
  unfold Publisher.updateMdnsForDiscoveryUrl at hok
  cases hurl : hostAndPort discoveryUrl with
  | error fault =>
    rw [hurl] at hok
    cases hok
  | ok parts =>
    rw [hurl] at hok
    simp only [bind, Except.bind] at hok
    cases parts with
    | none =>
      have hservice : serviceOf serverName discoveryUrl = none := by
        unfold serviceOf
        rw [hurl]
      rw [hservice]
      cases hok
      exact ⟨fun _ => rfl, live_of_no_hit nofun⟩
    | some parts =>
      obtain ⟨hostname, port⟩ := parts
      dsimp only at hok
      rw [if_neg Bool.false_ne_true] at hok
      by_cases hnames : hostname.length = 0 ∨ serverName.length = 0
      · have hservice : serviceOf serverName discoveryUrl = none := by
          unfold serviceOf
          rw [hurl]
          exact if_pos hnames
        rw [hservice]
        unfold Publisher.removeRecord at hok
        rw [if_pos hnames] at hok
        cases hok
        exact ⟨fun _ => rfl, live_of_no_hit nofun⟩
      · cases hdomain : fullServiceDomain serverName hostname with
        | error fault =>
          unfold Publisher.removeRecord at hok
          rw [if_neg hnames, hdomain] at hok
          cases hok
        | ok domain =>
          have hservice : serviceOf serverName discoveryUrl = some (domain, port) := by
            unfold serviceOf
            rw [hurl]
            dsimp only
            rw [if_neg hnames, hdomain]
          rw [hservice]
          cases hremove : s.removeRecord serverName hostname port false with
          | error fault =>
            rw [hremove] at hok
            cases hok
          | ok result =>
            rw [hremove] at hok
            cases hok
            exact h.removeRecord_spec hnames hdomain hremove

theorem Tidy.removeUrls {addresses : Nat → List (List UInt8)} {size i : Nat}
    {discoveryUrls : List UaString} (h : Tidy s) (hsize : i + discoveryUrls.length ≤ size)
    (hok : s.updateMdns serverName size false addresses i discoveryUrls = .ok s') (k : Int) :
    s'.live k =
      (s.live k).filter fun r => ¬ ∃ e ∈ servicesOf serverName discoveryUrls, Hit s k r e := by
  induction discoveryUrls generalizing s i with
  | nil =>
    cases hok
    exact live_of_no_hit (fun _ (he : _ ∈ []) => nomatch he) k
  | cons discoveryUrl rest ih =>
    rw [List.length_cons] at hsize
    -- The index is never that behind the last one.
    have hupdate : ((false && i == 0) || (!false && i == size)) = false := by
      rw [Bool.false_and, Bool.false_or, Bool.not_false, Bool.true_and, beq_eq_false_iff_ne]
      omega
    unfold Publisher.updateMdns at hok
    rw [hupdate] at hok
    simp only [bind, Except.bind] at hok
    split at hok
    · cases hok
    · rename_i s₁ hfirst
      obtain ⟨hpointer, hlive⟩ := h.removeUrl hfirst
      rw [ih (h.updateMdnsForDiscoveryUrl hfirst) (by omega) hok, hlive, List.filter_filter]
      refine List.filter_congr fun r _ => ?_
      have hservices : servicesOf serverName (discoveryUrl :: rest) =
          (serviceOf serverName discoveryUrl).toList ++ servicesOf serverName rest := by
        unfold servicesOf
        rw [List.filterMap_cons]
        cases serviceOf serverName discoveryUrl <;> rfl
      have hsame : ∀ e, Hit s₁ k r e ↔ Hit s k r e := by
        intro e
        unfold Hit
        rw [hpointer]
      rw [← Bool.decide_and, decide_eq_decide, hservices]
      simp only [hsame, List.mem_append, or_and_right, exists_or, not_or]
      exact and_comm

variable {services : List (Text × UInt16)} {k : Int} {r : MdnsRecord}

theorem Tidy.hit_of_ptr (h : Tidy s) (hr : r ∈ s.live k) (htype : r.type = .ptr)
    (hown : Own services r) : ∃ e ∈ services, Hit s k r e := by
  obtain ⟨e, he, hdomain⟩ := hown
  have hmem : r ∈ s.published k := (List.mem_filter.mp hr).1
  unfold MdnsRecord.serviceDomain at hdomain
  rw [htype] at hdomain
  dsimp only at hdomain
  split at hdomain
  · rename_i hname
    have hk : k = chainOf opcuaDomain := by
      rw [← h.placed k r hmem, hname]
    have hpoints : r.pointsTo e.1 = true :=
      Bool.and_eq_true_iff.mpr ⟨decide_eq_true htype, decide_eq_true hdomain⟩
    exact ⟨e, he, List.any_eq_true.mpr ⟨r, hk ▸ hmem, hpoints⟩, Or.inl ⟨hk, hpoints⟩⟩
  · cases hdomain

theorem LeadsTo.hit (h : LeadsTo s k r e) : Hit s k r e := ⟨h.1, Or.inr h.2⟩

theorem Hit.leadsTo (h : Hit s k r e) (hnot : ¬ r.pointsTo e.1 = true) : LeadsTo s k r e :=
  ⟨h.1, h.2.resolve_left fun hpoints => hnot hpoints.2⟩

theorem not_pointsTo_of_ne (htype : r.type ≠ .ptr) (domain : Text) : ¬ r.pointsTo domain = true :=
  fun hpoints => htype (of_decide_eq_true (Bool.and_eq_true_iff.mp hpoints).1)

theorem Other.not_pointsTo (h : Other services r) (he : e ∈ services) :
    ¬ r.pointsTo e.1 = true := by
  intro hpoints
  obtain ⟨htype, hrdname⟩ := Bool.and_eq_true_iff.mp hpoints
  obtain ⟨domain, hdomain, -, hnone⟩ := h
  unfold MdnsRecord.serviceDomain at hdomain
  rw [of_decide_eq_true htype] at hdomain
  dsimp only at hdomain
  split at hdomain
  · rw [of_decide_eq_true hrdname] at hdomain
    exact hnone e he (Option.some.inj hdomain)
  · cases hdomain

theorem Tidy.withdrawnCompletely_iff (h : Tidy s)
    (hlive : ∀ k, s'.live k = (s.live k).filter fun r => ¬ ∃ e ∈ services, Hit s k r e) :
    WithdrawnCompletely services s s' ↔ LeadsToOwn services s := by
  have hmem : ∀ k r, r ∈ s'.live k ↔ r ∈ s.live k ∧ ¬ ∃ e ∈ services, Hit s k r e := by
    intro k r
    rw [hlive, List.mem_filter, decide_eq_true_eq]
  constructor
  · rintro ⟨hown, hother⟩
    constructor
    · intro k r hr htype hr'
      by_contra hnone
      refine hown k r ((hmem k r).mpr ⟨hr, ?_⟩) hr'
      rintro ⟨e, he, hhit⟩
      exact hnone ⟨e, he, hhit.leadsTo (not_pointsTo_of_ne htype e.1)⟩
    · intro k r hr hr' e he hleads
      have hbefore : r ∈ (s.live k).filter (Other services) :=
        List.mem_filter.mpr ⟨hr, decide_eq_true hr'⟩
      rw [← hother k] at hbefore
      exact ((hmem k r).mp (List.mem_filter.mp hbefore).1).2 ⟨e, he, hleads.hit⟩
  · intro hleads
    constructor
    · intro k r hr hown
      obtain ⟨hr, hnone⟩ := (hmem k r).mp hr
      by_cases htype : r.type = .ptr
      · exact hnone (h.hit_of_ptr hr htype hown)
      · obtain ⟨e, he, hleads⟩ := hleads.own k r hr htype hown
        exact hnone ⟨e, he, hleads.hit⟩
    · intro k
      rw [hlive, List.filter_filter]
      refine List.filter_congr fun r hr => ?_
      rw [← Bool.decide_and, decide_eq_decide]
      refine and_iff_left_of_imp fun hother => ?_
      rintro ⟨e, he, hhit⟩
      exact hleads.other k r hr hother e he (hhit.leadsTo (hother.not_pointsTo he))

variable {server server' : DiscoveryServer} {surroundings : Surroundings}
  {addresses : Nat → List (List UInt8)} {requestServer : RegisteredServer}
  {configuration : List DiscoveryConfiguration} {reply : RegisterReply}

theorem processRegisterServer_publisher
    (hok : server.processRegisterServer surroundings addresses requestServer configuration =
      .ok (server', reply)) :
    (¬ Admitted surroundings requestServer configuration ∧ server'.publisher = server.publisher) ∨
      ∃ serverName, mdnsServerName requestServer configuration = some serverName ∧
        server.publisher.updateMdns serverName.items requestServer.discoveryUrls.length
          requestServer.isOnline addresses 0 requestServer.discoveryUrls =
            .ok server'.publisher := by
  unfold DiscoveryServer.processRegisterServer at hok
  split at hok
  · rename_i hresults
    cases hok
    refine Or.inl ⟨fun hadmitted => ?_, rfl⟩
    have hgranted := hadmitted.results hresults.1
    rw [hgranted] at hresults
    cases hresults.2
  · dsimp only at hok
    cases hname : mdnsServerName requestServer configuration with
    | none =>
      rw [hname] at hok
      cases hok
      exact Or.inl ⟨fun hadmitted => hadmitted.name hname, rfl⟩
    | some serverName =>
      rw [hname] at hok
      dsimp only at hok
      split at hok
      · rename_i hurls
        cases hok
        exact Or.inl ⟨fun hadmitted => hadmitted.urls hurls, rfl⟩
      · cases hsemaphore : semaphoreMissing surroundings requestServer with
        | error fault =>
          rw [hsemaphore] at hok
          cases hok
        | ok missing =>
          rw [hsemaphore] at hok
          simp only [bind, Except.bind] at hok
          split at hok
          · rename_i hmissing
            cases hok
            refine Or.inl ⟨fun hadmitted => ?_, rfl⟩
            exact (semaphoreMissing_ok hsemaphore).mp hmissing hadmitted.semaphore
          · split at hok
            · cases hok
            · rename_i publisher hpublisher
              cases hok
              exact Or.inr ⟨serverName, rfl, hpublisher⟩

theorem tidy_step {event : DiscoveryEvent} {answer : Option RegisterReply}
    (h : Tidy server.publisher) (hstep : stepDiscovery server event = .ok (server', answer)) :
    Tidy server'.publisher := by
  cases event with
  | networkLayer appName discoveryUrl addresses =>
    unfold stepDiscovery at hstep
    simp only [bind, Except.bind] at hstep
    split at hstep
    · cases hstep
    · rename_i publisher hpublisher
      cases hstep
      exact h.updateMdnsForDiscoveryUrl hpublisher
  | registerServer surroundings addresses requestServer configuration =>
    unfold stepDiscovery at hstep
    simp only [bind, Except.bind] at hstep
    split at hstep
    · cases hstep
    · rename_i result hresult
      cases hstep
      obtain ⟨-, hsame⟩ | ⟨serverName, -, hpublisher⟩ := processRegisterServer_publisher hresult
      · rw [hsame]
        exact h
      · exact h.updateMdns hpublisher
  | daemon activity =>
    cases hstep
    exact h.service activity

theorem tidy_of_run {events : List DiscoveryEvent} {replies : List (Option RegisterReply)}
    (hrun : Runs.run stepDiscovery .init events = .ok (server, replies)) : Tidy server.publisher :=
  Runs.invariant_of_guarded (fun _ _ _ _ hinv _ hstep => tidy_step hinv hstep) events .init server
    replies tidy_init (Runs.guarded_true _ events) hrun

theorem Tidy.chain_bounds {k : Int} {r : MdnsRecord} (h : Tidy s) (hr : r ∈ s.live k) :
    k ∈ Finset.Ioo (-108) 108 := by
  obtain rfl := h.placed k r (List.mem_filter.mp hr).1
  exact Finset.mem_Ioo.mpr ⟨Int.lt_tmod_of_pos _ (by decide), Int.tmod_lt_of_pos _ (by decide)⟩

/-- In every run, a request that withdraws a server leaves nothing of its service domains, and the
records for other ones alone, just if its URLs lead to what is their own. -/
theorem withdrawnCompletely_of_run {events : List DiscoveryEvent}
    {replies : List (Option RegisterReply)} {answer : Option RegisterReply} {serverName : UaString}
    (hrun : Runs.run stepDiscovery .init events = .ok (server, replies))
    (hadmitted : Admitted surroundings requestServer configuration)
    (hname : mdnsServerName requestServer configuration = some serverName)
    (hoffline : requestServer.isOnline = false)
    (hstep : stepDiscovery server
      (.registerServer surroundings addresses requestServer configuration) =
        .ok (server', answer)) :
    WithdrawnCompletely (servicesOf serverName.items requestServer.discoveryUrls) server.publisher
        server'.publisher ↔
      LeadsToOwn (servicesOf serverName.items requestServer.discoveryUrls) server.publisher := by
  have htidy := tidy_of_run hrun
  unfold stepDiscovery at hstep
  simp only [bind, Except.bind] at hstep
  split at hstep
  · cases hstep
  · rename_i result hresult
    cases hstep
    obtain ⟨hnot, -⟩ | ⟨serverName', hname', hpublisher⟩ := processRegisterServer_publisher hresult
    · exact absurd hadmitted hnot
    · rw [hname] at hname'
      cases hname'
      rw [hoffline] at hpublisher
      exact htidy.withdrawnCompletely_iff fun k =>
        htidy.removeUrls (Nat.le_of_eq (Nat.zero_add _)) hpublisher k

def hostServer : RegisteredServer :=
  { pumpServer with discoveryUrls := [.mem (ascii "opc.tcp://host:4841")] }

def hostOnline : DiscoveryEvent := .registerServer plentifulSurroundings (fun _ => []) hostServer []

def hostOffline : DiscoveryEvent :=
  .registerServer plentifulSurroundings (fun _ => []) { hostServer with isOnline := false } []

/-- A server that gives port 0, as the TXT and A records do. -/
def portlessServer : RegisteredServer :=
  { pumpServer with discoveryUrls := [.mem (ascii "opc.tcp://plc:0")] }

def portlessOnline : DiscoveryEvent :=
  .registerServer plentifulSurroundings (fun _ => []) portlessServer []

def portlessOffline : DiscoveryEvent :=
  .registerServer plentifulSurroundings (fun _ => []) { portlessServer with isOnline := false } []

/-- Nothing of it remains, and the records of the other server do. -/
theorem portlessServer_withdrawn : ∃ server replies server' answer,
    Runs.run stepDiscovery .init [hostOnline, portlessOnline] = .ok (server, replies) ∧
      stepDiscovery server portlessOffline = .ok (server', answer) ∧
      WithdrawnCompletely (servicesOf (ascii "p") portlessServer.discoveryUrls) server.publisher
        server'.publisher := by
  have hreaches : Runs.Reaches stepDiscovery .init [hostOnline, portlessOnline] fun server _ =>
      (stepDiscovery server portlessOffline).isOk = true ∧ ∀ k ∈ Finset.Ioo (-108) 108,
        ∀ r ∈ server.publisher.live k,
          (r.type ≠ .ptr → Own (servicesOf (ascii "p") portlessServer.discoveryUrls) r →
            ∃ e ∈ servicesOf (ascii "p") portlessServer.discoveryUrls,
              LeadsTo server.publisher k r e) ∧
          (Other (servicesOf (ascii "p") portlessServer.discoveryUrls) r →
            ∀ e ∈ servicesOf (ascii "p") portlessServer.discoveryUrls,
              ¬ LeadsTo server.publisher k r e) := by
    decide +kernel
  obtain ⟨server, replies, hrun, hoffline, hleads⟩ := hreaches
  have htidy := tidy_of_run hrun
  cases hstep : stepDiscovery server portlessOffline with
  | error fault =>
    rw [hstep] at hoffline
    cases hoffline
  | ok result =>
    have hadmitted : Admitted plentifulSurroundings { portlessServer with isOnline := false } [] :=
      ⟨nofun, nofun, nofun, nofun⟩
    refine ⟨server, replies, result.1, result.2, hrun, hstep,
      (withdrawnCompletely_of_run hrun hadmitted rfl rfl hstep).mpr ⟨?_, ?_⟩⟩
    · exact fun k r hr => (hleads k (htidy.chain_bounds hr) r hr).1
    · exact fun k r hr => (hleads k (htidy.chain_bounds hr) r hr).2

/-- Its TXT record remains. -/
theorem hostServer_remains :
    Runs.Reaches stepDiscovery .init [hostOnline, hostOffline] fun server _ =>
    ∀ before, ¬ WithdrawnCompletely (servicesOf (ascii "p") hostServer.discoveryUrls) before
      server.publisher := by
  have hreaches : Runs.Reaches stepDiscovery .init [hostOnline, hostOffline] fun server _ =>
      ∃ r ∈ server.publisher.live (chainOf (ascii "p-host._opcua-tcp._tcp.local.")),
        Own (servicesOf (ascii "p") hostServer.discoveryUrls) r := by
    decide +kernel
  obtain ⟨server, replies, hrun, r, hr, hown⟩ := hreaches
  exact ⟨server, replies, hrun, fun _ hwithdrawn => hwithdrawn.1 _ r hr hown⟩

end FactoryThing.Multicast
