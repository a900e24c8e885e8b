import FactoryThing.Multicast.FindServersOnNetwork
import Mathlib.Data.Finset.Erase
import Mathlib.Data.Finset.Insert
import Mathlib.Data.List.Induction
import Mathlib.Data.List.Nodup
import Mathlib.Tactic.ByContra
import Mathlib.Tactic.IntervalCases

/-!
# The table of servers is keyed by name

Runs of received records (`src/server/ua_mdns.c:43-292`). Entries, chains and record ids stay
consistent in every run. The names are those that have been announced and not withdrawn as long as
no record finds the entry of a related name in its chain, or another marker in front of its own; the
size of the list is never counted up.
-/

namespace FactoryThing.Multicast

open FormattedText

variable {i a : Nat} {entry : ListEntry} {needle : Text} (ms : List Announcement)

theorem hashStep_bit (h : UInt64) (c : UInt8) (hi : 28 ≤ i) (hi' : i < 32) :
    (hashStep h c).toBitVec.getLsbD i = false := by
  have hmask : (0xF0000000 : UInt64).toBitVec.getLsbD i = true := by
    interval_cases i <;> decide
  have hshifted : (0xF0000000 : UInt64).toBitVec.getLsbD (24 + i) = false := by
    interval_cases i <;> decide
  unfold hashStep
  dsimp only
  generalize (h <<< 4) + c.toUInt64 = h
  have hxor : (if h &&& 0xF0000000 ≠ 0 then h ^^^ ((h &&& 0xF0000000) >>> 24) else h) =
      h ^^^ ((h &&& 0xF0000000) >>> 24) := by
    split
    · rfl
    · rename_i hzero
      rw [not_not.mp hzero]
      simp
  have hshift : ((h &&& 0xF0000000) >>> 24).toBitVec = (h &&& 0xF0000000).toBitVec >>> 24 := rfl
  rw [hxor, UInt64.toBitVec_and, UInt64.toBitVec_xor, UInt64.toBitVec_not, hshift,
    UInt64.toBitVec_and, BitVec.getLsbD_and, BitVec.getLsbD_xor, BitVec.getLsbD_not,
    BitVec.getLsbD_ushiftRight, BitVec.getLsbD_and, BitVec.getLsbD_and, hmask, hshifted]
  cases h.toBitVec.getLsbD i <;> simp

theorem toUInt32_hash_lt (s : Text) : (List.foldl hashStep 0 s).toUInt32.toNat < 2 ^ 28 := by
  have hbits : ∀ i, 28 ≤ i → i < 32 → (List.foldl hashStep 0 s).toBitVec.getLsbD i = false := by
    intro i hi hi'
    induction s using List.reverseRecOn with
    | nil => interval_cases i <;> decide
    | append_singleton s c ih =>
      rw [List.foldl_append]
      exact hashStep_bit _ c hi hi'
  refine Nat.lt_pow_two_of_testBit _ fun i hi => ?_
  have hwidth : (List.foldl hashStep 0 s).toUInt32.toBitVec =
      (List.foldl hashStep 0 s).toBitVec.setWidth 32 := rfl
  rw [← UInt32.toNat_toBitVec, BitVec.testBit_toNat, hwidth, BitVec.getLsbD_setWidth]
  by_cases hi' : i < 32
  · rw [hbits i hi hi', Bool.and_false]
  · simp [hi']

theorem hashIdx_bounds (record : Text) : 0 ≤ hashIdx record ∧ hashIdx record < 1009 := by
  have hlt := toUInt32_hash_lt record
  have hint : mdnsHashRecord record = ((List.foldl hashStep 0 record).toUInt32.toNat : Int) :=
    BitVec.toInt_eq_toNat_of_lt (by
      show 2 * (List.foldl hashStep 0 record).toUInt32.toNat < 2 ^ 32
      omega)
  unfold hashIdx
  exact ⟨Int.tmod_nonneg _ (by omega), Int.tmod_lt_of_pos _ (by decide)⟩

/-- Entries, chains and ids fit together. -/
structure Consistent (s : MdnsServer) : Prop where
  newestFirst : s.serverOnNetwork.Pairwise fun e e' => e'.1 < e.1
  below : ∀ e ∈ s.serverOnNetwork, e.1 < s.created
  chains : ∀ i a, a ∈ s.serverOnNetworkHash i ↔
    ∃ entry, (a, entry) ∈ s.serverOnNetwork ∧ hashIdx entry.record = i
  chainsNodup : ∀ i, (s.serverOnNetworkHash i).Nodup
  ids : ∀ e ∈ s.serverOnNetwork, e.2.serverOnNetwork.recordId = UInt32.ofNat e.1
  counter : s.recordIdCounter = UInt32.ofNat s.created
  size : s.serverOnNetworkSize + UInt64.ofNat s.created = UInt64.ofNat s.serverOnNetwork.length

variable {s : MdnsServer}

theorem consistent_init : Consistent .init where
  newestFirst := List.Pairwise.nil
  below := nofun
  chains _ _ := ⟨nofun, nofun⟩
  chainsNodup _ := List.nodup_nil
  ids := nofun
  counter := rfl
  size := rfl

theorem Consistent.nodup (h : Consistent s) : (s.serverOnNetwork.map Prod.fst).Nodup := by
  rw [List.Nodup, List.pairwise_map]
  exact h.newestFirst.imp fun hlt => Ne.symm (Nat.ne_of_lt hlt)

theorem Consistent.unique (h : Consistent s) {entry' : ListEntry}
    (hin : (a, entry) ∈ s.serverOnNetwork) (hin' : (a, entry') ∈ s.serverOnNetwork) :
    entry = entry' := by
  have hsame := List.inj_on_of_nodup_map h.nodup hin hin' rfl
  exact congrArg Prod.snd hsame

theorem Consistent.length_filter (h : Consistent s) (hin : (a, entry) ∈ s.serverOnNetwork) :
    (s.serverOnNetwork.filter fun e => e.1 ≠ a).length + 1 = s.serverOnNetwork.length := by
  have hcount : s.serverOnNetwork.countP (fun e => e.1 = a) = 1 := by
    have hone := List.count_eq_one_of_mem h.nodup (List.mem_map_of_mem hin)
    rw [List.count_eq_countP, List.countP_map] at hone
    rw [← hone]
    rfl
  have hsplit := List.length_eq_countP_add_countP (fun e : Nat × ListEntry => decide (e.1 = a))
    (l := s.serverOnNetwork)
  rw [hcount, List.countP_eq_length_filter] at hsplit
  rw [hsplit, Nat.add_comm]
  simp

theorem Consistent.entryAt_iff (h : Consistent s) :
    s.entryAt a = some entry ↔ (a, entry) ∈ s.serverOnNetwork := by
  unfold MdnsServer.entryAt
  constructor
  · intro hfind
    obtain ⟨e, hfound, rfl⟩ := Option.map_eq_some_iff.mp hfind
    have haddress := List.find?_some hfound
    rw [← of_decide_eq_true haddress]
    exact List.mem_of_find?_eq_some hfound
  · intro hin
    cases hfind : s.serverOnNetwork.find? fun e => e.1 = a with
    | none =>
      rw [List.find?_eq_none] at hfind
      exact absurd (decide_eq_true rfl) (hfind _ hin)
    | some e =>
      have haddress := List.find?_some hfind
      have hmem : (a, e.2) ∈ s.serverOnNetwork := by
        rw [← of_decide_eq_true haddress]
        exact List.mem_of_find?_eq_some hfind
      exact congrArg some (h.unique hmem hin)

theorem Consistent.of_lookup (h : Consistent s) {record serverName : Text}
    (hlookup : s.lookup record serverName = some a) :
    ∃ entry, (a, entry) ∈ s.serverOnNetwork ∧ hashIdx entry.record = hashIdx record ∧
      sameOverShorter entry.serverOnNetwork.serverName serverName = true := by
  obtain ⟨entry, hin, hidx⟩ := (h.chains _ a).mp (List.mem_of_find?_eq_some hlookup)
  have hsame := List.find?_some hlookup
  rw [h.entryAt_iff.mpr hin] at hsame
  exact ⟨entry, hin, hidx, hsame⟩

theorem Consistent.create (h : Consistent s) (record serverName : Text) :
    Consistent (s.create record serverName) := by
  have hfresh : ∀ i, s.created ∉ s.serverOnNetworkHash i := by
    intro i hin
    obtain ⟨entry, hin, -⟩ := (h.chains i _).mp hin
    exact Nat.lt_irrefl _ (h.below _ hin)
  constructor
  · exact List.pairwise_cons.mpr ⟨fun e he => h.below e he, h.newestFirst⟩
  · intro e he
    obtain rfl | he := List.mem_cons.mp he
    · exact Nat.lt_succ_self _
    · exact Nat.lt_succ_of_lt (h.below e he)
  · intro i a
    have hentries : (∃ entry, (a, entry) ∈ (s.create record serverName).serverOnNetwork ∧
        hashIdx entry.record = i) ↔ (a = s.created ∧ hashIdx record = i) ∨
          a ∈ s.serverOnNetworkHash i := by
      rw [h.chains i a]
      constructor
      · rintro ⟨entry, hin, hidx⟩
        obtain heq | hin := List.mem_cons.mp hin
        · cases heq
          exact Or.inl ⟨rfl, hidx⟩
        · exact Or.inr ⟨entry, hin, hidx⟩
      · rintro (⟨rfl, hidx⟩ | ⟨entry, hin, hidx⟩)
        · exact ⟨_, List.mem_cons_self, hidx⟩
        · exact ⟨entry, List.mem_cons_of_mem _ hin, hidx⟩
    rw [hentries, s.create_hash record serverName i]
    split
    · rename_i hi
      rw [List.mem_cons, and_iff_left hi.symm]
    · rename_i hi
      rw [or_iff_right fun heq => hi heq.2.symm]
  · intro i
    rw [s.create_hash record serverName i]
    split
    · exact List.nodup_cons.mpr ⟨hfresh i, h.chainsNodup i⟩
    · exact h.chainsNodup i
  · intro e he
    obtain rfl | he := List.mem_cons.mp he
    · exact h.counter
    · exact h.ids e he
  · show s.recordIdCounter + 1 = UInt32.ofNat (s.created + 1)
    rw [h.counter, UInt32.ofNat_add]
    rfl
  · show s.serverOnNetworkSize + UInt64.ofNat (s.created + 1) =
      UInt64.ofNat (s.serverOnNetwork.length + 1)
    rw [UInt64.ofNat_add, UInt64.ofNat_add, ← h.size, UInt64.add_assoc]

theorem Consistent.modify (h : Consistent s) (a : Nat) {change : ListEntry → ListEntry}
    (hrecord : ∀ entry, (change entry).record = entry.record)
    (hid : ∀ entry, (change entry).serverOnNetwork.recordId = entry.serverOnNetwork.recordId) :
    Consistent (s.modify a change) := by
  have hmem : ∀ e, e ∈ (s.modify a change).serverOnNetwork ↔
      ∃ e' ∈ s.serverOnNetwork, (if e'.1 = a then (e'.1, change e'.2) else e') = e := by
    intro e
    exact List.mem_map
  have hfst : ∀ e : Nat × ListEntry, (if e.1 = a then (e.1, change e.2) else e).1 = e.1 := by
    intro e
    split <;> rfl
  have hsame : ∀ e : Nat × ListEntry,
      (if e.1 = a then (e.1, change e.2) else e).2.record = e.2.record := by
    intro e
    split
    · exact hrecord e.2
    · rfl
  constructor
  · show List.Pairwise _ (s.serverOnNetwork.map _)
    rw [List.pairwise_map]
    exact h.newestFirst.imp fun hlt => by rw [hfst, hfst]; exact hlt
  · intro e he
    obtain ⟨e', he', rfl⟩ := (hmem e).mp he
    rw [hfst]
    exact h.below e' he'
  · intro i b
    refine (h.chains i b).trans ⟨?_, ?_⟩
    · rintro ⟨entry, hin, hidx⟩
      refine ⟨(if b = a then (b, change entry) else (b, entry)).2, ?_, ?_⟩
      · rw [hmem]
        refine ⟨(b, entry), hin, Prod.ext (hfst (b, entry)) rfl⟩
      · rw [hsame (b, entry)]
        exact hidx
    · rintro ⟨entry, hin, hidx⟩
      obtain ⟨e', he', heq⟩ := (hmem _).mp hin
      have hb : e'.1 = b := (hfst e').symm.trans (congrArg Prod.fst heq)
      have hrec : e'.2.record = entry.record :=
        (hsame e').symm.trans (congrArg (fun e => e.2.record) heq)
      exact ⟨e'.2, hb ▸ he', by rw [hrec]; exact hidx⟩
  · exact h.chainsNodup
  · intro e he
    obtain ⟨e', he', rfl⟩ := (hmem e).mp he
    rw [hfst, ← h.ids e' he']
    split
    · exact hid e'.2
    · rfl
  · exact h.counter
  · show _ = UInt64.ofNat (s.serverOnNetwork.map _).length
    rw [List.length_map]
    exact h.size

theorem Consistent.remove (h : Consistent s) {record : Text} (hin : (a, entry) ∈ s.serverOnNetwork)
    (hidx : hashIdx entry.record = hashIdx record) : Consistent (s.remove record a) := by
  have hmem : ∀ e, e ∈ (s.remove record a).serverOnNetwork ↔ e ∈ s.serverOnNetwork ∧ e.1 ≠ a := by
    intro e
    show e ∈ List.filter _ _ ↔ _
    rw [List.mem_filter, decide_eq_true_eq]
  constructor
  · exact h.newestFirst.sublist List.filter_sublist
  · exact fun e he => h.below e ((hmem e).mp he).1
  · intro i b
    have hentries : (∃ entry, (b, entry) ∈ (s.remove record a).serverOnNetwork ∧
        hashIdx entry.record = i) ↔ b ∈ s.serverOnNetworkHash i ∧ b ≠ a := by
      rw [h.chains i b]
      constructor
      · rintro ⟨entry, hin, hidx⟩
        exact ⟨⟨entry, ((hmem _).mp hin).1, hidx⟩, ((hmem _).mp hin).2⟩
      · rintro ⟨⟨entry, hin, hidx⟩, hne⟩
        exact ⟨entry, (hmem _).mpr ⟨hin, hne⟩, hidx⟩
    rw [hentries, s.remove_hash record a i]
    split
    · rw [(h.chainsNodup i).mem_erase_iff, and_comm]
    · rename_i hi
      refine (and_iff_left_of_imp fun hb heq => hi ?_).symm
      subst heq
      obtain ⟨entry', hin', hidx'⟩ := (h.chains i b).mp hb
      rw [h.unique hin hin', hidx'] at hidx
      exact hidx
  · intro i
    rw [s.remove_hash record a i]
    split
    · exact (h.chainsNodup i).erase a
    · exact h.chainsNodup i
  · exact fun e he => h.ids e ((hmem e).mp he).1
  · exact h.counter
  · have hlength := h.length_filter hin
    show s.serverOnNetworkSize - 1 + UInt64.ofNat s.created =
      UInt64.ofNat (s.serverOnNetwork.filter fun e => e.1 ≠ a).length
    have hsize := h.size
    rw [← hlength, UInt64.ofNat_add] at hsize
    generalize UInt64.ofNat (s.serverOnNetwork.filter fun e => e.1 ≠ a).length = left at hsize ⊢
    generalize UInt64.ofNat s.created = created at hsize ⊢
    have hsize : s.serverOnNetworkSize + created = left + 1 := hsize
    grind

theorem addResource_record (data : ResourceData) (entry : ListEntry) :
    (addResource data entry).record = entry.record ∧
      (addResource data entry).serverOnNetwork.recordId = entry.serverOnNetwork.recordId ∧
      (addResource data entry).serverOnNetwork.serverName = entry.serverOnNetwork.serverName := by
  have hsetTxt : ∀ path caps, (setTxt path caps entry).record = entry.record ∧
      (setTxt path caps entry).serverOnNetwork.recordId = entry.serverOnNetwork.recordId ∧
      (setTxt path caps entry).serverOnNetwork.serverName = entry.serverOnNetwork.serverName := by
    intro path caps
    unfold setTxt
    cases usablePath path <;> cases entry.srvSet <;> cases caps.filter fun caps =>
      caps.length > 0 <;>
      exact ⟨rfl, rfl, rfl⟩
  have hsetSrv : ∀ name port, (setSrv name port entry).record = entry.record ∧
      (setSrv name port entry).serverOnNetwork.recordId = entry.serverOnNetwork.recordId ∧
      (setSrv name port entry).serverOnNetwork.serverName = entry.serverOnNetwork.serverName := by
    intro name port
    unfold setSrv
    cases entry.pathTmp <;> exact ⟨rfl, rfl, rfl⟩
  cases data with
  | txt path caps =>
    rw [addResource_txt]
    split
    · exact hsetTxt path caps
    · exact ⟨rfl, rfl, rfl⟩
  | srv name port =>
    rw [addResource_srv]
    split
    · exact hsetSrv name port
    · exact ⟨rfl, rfl, rfl⟩
  | other =>
    unfold addResource
    rw [ite_self]
    exact ⟨rfl, rfl, rfl⟩

theorem Consistent.modifyResource (h : Consistent s) (a : Nat) (data : ResourceData) :
    Consistent (s.modify a (addResource data)) :=
  h.modify a (fun entry => (addResource_record data entry).1)
    fun entry => (addResource_record data entry).2.1

theorem Consistent.recordReceived (h : Consistent s) (r : Resource) :
    Consistent (s.recordReceived r) := by
  unfold MdnsServer.recordReceived
  split
  · split
    · exact h
    · rename_i serverName _
      unfold MdnsServer.receiveFor
      cases hlookup : s.lookup r.name serverName with
      | some a =>
        obtain ⟨entry, hin, hidx, -⟩ := h.of_lookup hlookup
        dsimp only
        split
        · exact h.remove hin hidx
        · exact h.modifyResource a r.data
      | none =>
        dsimp only
        split
        · exact (h.create r.name serverName).modifyResource _ r.data
        · exact h
  · exact h

theorem Consistent.run (h : Consistent s) (records : List Resource) :
    Consistent (s.run records) := by
  induction records generalizing s with
  | nil => exact h
  | cons r records ih => exact ih (h.recordReceived r)

/-- `._opcua-tcp._tcp.local.` -/
def serverSuffix : Text := ascii "._opcua-tcp._tcp.local."

/-- What `strstr` looks for. -/
def marker : Text := ascii "_opcua-tcp._tcp."

/-- An SRV or TXT record of a server; `flush` is the highest bit of its class. -/
structure Announcement where
  server : Text
  flush : Bool
  ttl : UInt32
  data : ResourceData
  known : data ≠ .other

def Announcement.resource (m : Announcement) : Resource :=
  ⟨m.server ++ serverSuffix, if m.flush then 1 + 32768 else 1, m.ttl, m.data⟩

def tableAfter (ms : List Announcement) : MdnsServer :=
  MdnsServer.init.run (ms.map Announcement.resource)

/-- The names that are announced and not withdrawn. -/
def announcedStep (names : Finset Text) (m : Announcement) : Finset Text :=
  if m.ttl = 0 then names.erase m.server else insert m.server names

def announced (ms : List Announcement) : Finset Text := ms.foldl announcedStep ∅

def entryName (e : Nat × ListEntry) : Text := e.2.serverOnNetwork.serverName

/-- The marker is found in front of where it belongs. -/
def EarlierMarker (server : Text) : Prop :=
  ∃ i ≤ server.length, marker <+: (server ++ serverSuffix).drop i

/-- The first entry of the chain whose name is related to that of the record has just this name. -/
def FindsOwn (s : MdnsServer) (m : Announcement) : Prop :=
  ∀ a entry, s.lookup m.resource.name m.server = some a → s.entryAt a = some entry →
    entry.serverOnNetwork.serverName = m.server

/-- The condition on a record and the table before it. -/
def StepGuard (s : MdnsServer) (m : Announcement) : Prop :=
  ¬ EarlierMarker m.server ∧ FindsOwn s m

/-- Each record of a run meets the condition. -/
def Guarded (ms : List Announcement) : Prop :=
  ∀ before m after, ms = before ++ m :: after → StepGuard (tableAfter before) m

instance (server : Text) : Decidable (EarlierMarker server) :=
  inferInstanceAs (Decidable (∃ i ≤ server.length, marker <+: (server ++ serverSuffix).drop i))

instance (s : MdnsServer) (m : Announcement) : Decidable (FindsOwn s m) :=
  decidable_of_iff (∀ entry ∈ (s.lookup m.resource.name m.server).bind s.entryAt,
      entry.serverOnNetwork.serverName = m.server) (by
    simp only [FindsOwn, Option.mem_def, Option.bind_eq_some_iff, forall_exists_index, and_imp]
    exact forall_comm)

instance (s : MdnsServer) (m : Announcement) : Decidable (StepGuard s m) :=
  inferInstanceAs (Decidable (¬ EarlierMarker m.server ∧ FindsOwn s m))

theorem relevant_resource (m : Announcement) : m.resource.relevant = true := by
  have hclass : m.resource.clazz = 1 ∨ m.resource.clazz = 32769 := by
    unfold Announcement.resource
    cases m.flush with
    | true => exact Or.inr rfl
    | false => exact Or.inl rfl
  have hdata : m.resource.data ≠ .other := m.known
  simp [Resource.relevant, hclass, hdata]

theorem strstr_eq_some {s : Text} (hne : needle ≠ []) (hat : needle <+: List.drop i s)
    (hbefore : ∀ j < i, ¬ needle <+: List.drop j s) : strstr needle s = some i := by
  induction s generalizing i with
  | nil =>
    rw [List.drop_nil] at hat
    exact absurd (List.prefix_nil.mp hat) hne
  | cons c s ih =>
    unfold strstr
    cases i with
    | zero => exact if_pos (List.isPrefixOf_iff_prefix.mpr hat)
    | succ i =>
      have hnot : ¬ needle.isPrefixOf (c :: s) = true := fun hstart =>
        hbefore 0 (Nat.zero_lt_succ i) (List.isPrefixOf_iff_prefix.mp hstart)
      rw [if_neg hnot, ih hat fun j hj => hbefore (j + 1) (Nat.succ_lt_succ hj)]
      rfl

theorem strstr_isSome {s : Text} (hne : needle ≠ []) (hat : needle <+: List.drop i s) :
    (strstr needle s).isSome = true := by
  induction s generalizing i with
  | nil =>
    rw [List.drop_nil] at hat
    exact absurd (List.prefix_nil.mp hat) hne
  | cons c s ih =>
    unfold strstr
    split
    · rfl
    · rename_i hnot
      cases i with
      | zero => exact absurd (List.isPrefixOf_iff_prefix.mpr hat) hnot
      | succ i =>
        rw [Option.isSome_map]
        exact ih hat

theorem strstr_eq_zero_iff {s : Text} (hne : needle ≠ []) :
    strstr needle s = some 0 ↔ needle <+: s := by
  cases s with
  | nil =>
    unfold strstr
    rw [if_neg hne, List.prefix_nil]
    exact iff_of_false nofun hne
  | cons c s =>
    unfold strstr
    rw [← List.isPrefixOf_iff_prefix]
    split
    · rename_i hprefix
      exact iff_of_true rfl hprefix
    · rename_i hnot
      refine iff_of_false (fun hmap => ?_) hnot
      obtain ⟨i, -, hi⟩ := Option.map_eq_some_iff.mp hmap
      exact Nat.succ_ne_zero i hi

theorem serverNameOf_resource {server : Text} (h : ¬ EarlierMarker server) :
    serverNameOf (server ++ serverSuffix) = some server := by
  have hdrop : (server ++ serverSuffix).drop (server.length + 1) = serverSuffix.drop 1 := by
    rw [← List.drop_drop, List.drop_left]
  have hat : marker <+: (server ++ serverSuffix).drop (server.length + 1) := by
    rw [hdrop]
    decide
  have hfound : strstr marker (server ++ serverSuffix) = some (server.length + 1) :=
    strstr_eq_some (by decide) hat fun j hj hprefix => h ⟨j, Nat.le_of_lt_succ hj, hprefix⟩
  unfold serverNameOf
  rw [show ascii "_opcua-tcp._tcp." = marker from rfl, hfound]
  dsimp only
  rw [if_neg (Nat.succ_ne_zero _), Nat.add_sub_cancel, List.take_left]

/-! ### Keys -/

/-- One entry for each name, in the chain of its name. -/
structure KeyedBy (s : MdnsServer) (names : Finset Text) : Prop where
  nodup : (s.serverOnNetwork.map entryName).Nodup
  mem_iff : ∀ name, name ∈ s.serverOnNetwork.map entryName ↔ name ∈ names
  records : ∀ e ∈ s.serverOnNetwork, e.2.record = entryName e ++ serverSuffix

theorem keyedBy_init : KeyedBy .init ∅ where
  nodup := List.nodup_nil
  mem_iff _ := iff_of_false List.not_mem_nil (Finset.notMem_empty _)
  records := nofun

variable {names : Finset Text} {m : Announcement}

theorem sameOverShorter_self (a : Text) : sameOverShorter a a = true := by
  exact decide_eq_true rfl

theorem KeyedBy.of_lookup_none (h : KeyedBy s names) (hc : Consistent s)
    (hlookup : s.lookup m.resource.name m.server = none) : m.server ∉ names := by
  rw [← h.mem_iff, List.mem_map]
  rintro ⟨⟨a, entry⟩, hin, hname⟩
  have hrecord := h.records _ hin
  rw [hname] at hrecord
  have hchain : a ∈ s.serverOnNetworkHash (hashIdx m.resource.name) :=
    (hc.chains _ a).mpr ⟨entry, hin, congrArg hashIdx hrecord⟩
  have hnone := List.find?_eq_none.mp hlookup a hchain
  rw [hc.entryAt_iff.mpr hin] at hnone
  refine hnone ?_
  show sameOverShorter entry.serverOnNetwork.serverName m.server = true
  rw [show entry.serverOnNetwork.serverName = m.server from hname]
  exact sameOverShorter_self _

theorem KeyedBy.name_iff (h : KeyedBy s names) (hc : Consistent s)
    (hin : (a, entry) ∈ s.serverOnNetwork) {e : Nat × ListEntry} (he : e ∈ s.serverOnNetwork) :
    e.1 = a ↔ entryName e = entryName (a, entry) := by
  constructor
  · rintro rfl
    exact congrArg (fun entry => entry.serverOnNetwork.serverName) (hc.unique he hin)
  · intro hname
    exact congrArg Prod.fst (List.inj_on_of_nodup_map h.nodup he hin hname)

/-- What is left behind a record, and the entries of other names. -/
def StepKeeps (s s' : MdnsServer) (names : Finset Text) (server : Text) : Prop :=
  KeyedBy s' names ∧
    ∀ e ∈ s.serverOnNetwork, entryName e ≠ server → e ∈ s'.serverOnNetwork

theorem KeyedBy.remove (h : KeyedBy s names) (hc : Consistent s)
    (hin : (a, entry) ∈ s.serverOnNetwork) (record : Text) :
    StepKeeps s (s.remove record a) (names.erase (entryName (a, entry)))
      (entryName (a, entry)) := by
  have hmem : ∀ e, e ∈ (s.remove record a).serverOnNetwork ↔
      e ∈ s.serverOnNetwork ∧ entryName e ≠ entryName (a, entry) := by
    intro e
    show e ∈ List.filter _ _ ↔ _
    rw [List.mem_filter, decide_eq_true_eq]
    exact and_congr_right fun he => not_congr (h.name_iff hc hin he)
  refine ⟨⟨?_, fun name => ?_, fun e he => h.records e ((hmem e).mp he).1⟩,
    fun e he hne => (hmem e).mpr ⟨he, hne⟩⟩
  · exact h.nodup.sublist (List.Sublist.map entryName List.filter_sublist)
  · rw [Finset.mem_erase, ← h.mem_iff, List.mem_map, List.mem_map]
    constructor
    · rintro ⟨e, he, rfl⟩
      exact ⟨((hmem e).mp he).2, e, ((hmem e).mp he).1, rfl⟩
    · rintro ⟨hne, e, he, rfl⟩
      exact ⟨e, (hmem e).mpr ⟨he, hne⟩, rfl⟩

theorem KeyedBy.modify (h : KeyedBy s names) (hc : Consistent s)
    (hin : (a, entry) ∈ s.serverOnNetwork) (data : ResourceData) :
    StepKeeps s (s.modify a (addResource data)) names (entryName (a, entry)) := by
  have hnames : (s.modify a (addResource data)).serverOnNetwork.map entryName =
      s.serverOnNetwork.map entryName := by
    show (s.serverOnNetwork.map _).map entryName = _
    rw [List.map_map]
    refine List.map_congr_left fun e _ => ?_
    show entryName (if e.1 = a then (e.1, addResource data e.2) else e) = entryName e
    split
    · exact (addResource_record data e.2).2.2
    · rfl
  refine ⟨⟨?_, ?_, fun e he => ?_⟩, fun e he hne => ?_⟩
  · rw [hnames]
    exact h.nodup
  · rw [hnames]
    exact h.mem_iff
  · obtain ⟨e', he', rfl⟩ := List.mem_map.mp he
    have hrecord := h.records e' he'
    split
    · obtain ⟨hrec, -, hname⟩ := addResource_record data e'.2
      exact hrec.trans (hrecord.trans (congrArg (· ++ serverSuffix) hname.symm))
    · exact hrecord
  · refine List.mem_map.mpr ⟨e, he, if_neg ?_⟩
    exact mt (h.name_iff hc hin he).mp hne

theorem create_modify (hc : Consistent s) (record serverName : Text) (data : ResourceData) :
    ((s.create record serverName).modify s.created (addResource data)).serverOnNetwork =
      (s.created, addResource data
        ⟨record, none, false, false, ⟨s.recordIdCounter, serverName, [], []⟩⟩) ::
        s.serverOnNetwork := by
  have hothers : s.serverOnNetwork.map (fun e =>
      if e.1 = s.created then (e.1, addResource data e.2) else e) = s.serverOnNetwork := by
    refine (List.map_congr_left fun e he => if_neg ?_).trans (List.map_id _)
    exact Nat.ne_of_lt (hc.below e he)
  unfold MdnsServer.modify MdnsServer.create
  dsimp only
  rw [List.map_cons, if_pos rfl, hothers]

theorem KeyedBy.create (h : KeyedBy s names) (hc : Consistent s) (hnot : m.server ∉ names) :
    StepKeeps s ((s.create m.resource.name m.server).modify s.created (addResource m.data))
      (insert m.server names) m.server := by
  obtain ⟨hrec, -, hname⟩ := addResource_record m.data
    ⟨m.resource.name, none, false, false, ⟨s.recordIdCounter, m.server, [], []⟩⟩
  have hlist := create_modify hc m.resource.name m.server m.data
  refine ⟨⟨?_, fun name => ?_, fun e he => ?_⟩, fun e he _ => ?_⟩
  · rw [hlist, List.map_cons, List.nodup_cons]
    refine ⟨?_, h.nodup⟩
    show (addResource _ _).serverOnNetwork.serverName ∉ _
    rw [hname, h.mem_iff]
    exact hnot
  · rw [hlist, List.map_cons, List.mem_cons, h.mem_iff, Finset.mem_insert]
    exact or_congr_left ⟨fun heq => heq.trans hname, fun heq => heq.trans hname.symm⟩
  · rw [hlist] at he
    obtain rfl | he := List.mem_cons.mp he
    · exact hrec.trans (congrArg (· ++ serverSuffix) hname.symm)
    · exact h.records e he
  · rw [hlist]
    exact List.mem_cons_of_mem _ he

theorem KeyedBy.step (h : KeyedBy s names) (hc : Consistent s) (hguard : StepGuard s m) :
    StepKeeps s (s.recordReceived m.resource) (announcedStep names m) m.server := by
  have hreceived : s.recordReceived m.resource = s.receiveFor m.resource m.server := by
    unfold MdnsServer.recordReceived
    rw [if_pos (relevant_resource m)]
    rw [show serverNameOf m.resource.name = some m.server from serverNameOf_resource hguard.1]
  rw [hreceived]
  unfold MdnsServer.receiveFor announcedStep
  cases hlookup : s.lookup m.resource.name m.server with
  | some a =>
    obtain ⟨entry, hin, -, -⟩ := hc.of_lookup hlookup
    have hname : entryName (a, entry) = m.server :=
      hguard.2 a entry hlookup (hc.entryAt_iff.mpr hin)
    have hmem : m.server ∈ names := by
      rw [← hname, ← h.mem_iff]
      exact List.mem_map_of_mem hin
    dsimp only
    by_cases httl : m.ttl = 0
    · rw [if_pos httl, if_pos (show m.resource.ttl = 0 from httl), ← hname]
      exact h.remove hc hin _
    · rw [if_neg httl, if_neg (show ¬ m.resource.ttl = 0 from httl), Finset.insert_eq_of_mem hmem,
        ← hname]
      exact h.modify hc hin m.data
  | none =>
    have hnot := h.of_lookup_none hc hlookup
    dsimp only
    by_cases httl : m.ttl = 0
    · have hzero : ¬ m.resource.ttl > 0 := by
        rw [show m.resource.ttl = 0 from httl]
        decide
      rw [if_pos httl, if_neg hzero, Finset.erase_eq_of_notMem hnot]
      exact ⟨h, fun e he _ => he⟩
    · have hpos : m.resource.ttl > 0 := UInt32.pos_iff_ne_zero.mpr httl
      rw [if_neg httl, if_pos hpos]
      exact h.create hc hnot

theorem tableAfter_append (m : Announcement) :
    tableAfter (ms ++ [m]) = (tableAfter ms).recordReceived m.resource := by
  unfold tableAfter MdnsServer.run
  rw [List.map_append, List.foldl_append]
  rfl

theorem announced_append (m : Announcement) :
    announced (ms ++ [m]) = announcedStep (announced ms) m := by
  unfold announced
  rw [List.foldl_append]
  rfl

theorem consistent_tableAfter : Consistent (tableAfter ms) :=
  consistent_init.run _

theorem Guarded.of_append {ms : List Announcement} {m : Announcement} (h : Guarded (ms ++ [m])) :
    Guarded ms ∧ StepGuard (tableAfter ms) m := by
  refine ⟨fun before m' after heq => ?_, h ms m [] rfl⟩
  exact h before m' (after ++ [m]) (by rw [heq, List.append_assoc, List.cons_append])

theorem Guarded.concat {ms : List Announcement} {m : Announcement} (h : Guarded ms)
    (hm : StepGuard (tableAfter ms) m) : Guarded (ms ++ [m]) := by
  intro before m' after heq
  rcases List.eq_nil_or_concat' after with rfl | ⟨after', last, rfl⟩
  · obtain ⟨rfl, hlast⟩ := List.append_inj' heq rfl
    cases hlast
    exact hm
  · rw [← List.cons_append, ← List.append_assoc] at heq
    exact h before m' after' (List.append_inj' heq rfl).1

theorem keyedBy_tableAfter {ms : List Announcement} (h : Guarded ms) :
    KeyedBy (tableAfter ms) (announced ms) := by
  induction ms using List.reverseRecOn with
  | nil => exact keyedBy_init
  | append_singleton ms m ih =>
    obtain ⟨hms, hguard⟩ := h.of_append
    rw [tableAfter_append, announced_append]
    exact ((ih hms).step (consistent_tableAfter ms) hguard).1

theorem serverNameOf_resource_eq_none_iff (server : Text) :
    serverNameOf (server ++ serverSuffix) = none ↔ marker <+: server ++ serverSuffix := by
  have hdrop : (server ++ serverSuffix).drop (server.length + 1) = serverSuffix.drop 1 := by
    rw [← List.drop_drop, List.drop_left]
  have hsome : (strstr marker (server ++ serverSuffix)).isSome = true :=
    strstr_isSome (by decide) (show marker <+: List.drop (server.length + 1) _ by
      rw [hdrop]
      decide)
  obtain ⟨i, hi⟩ := Option.isSome_iff_exists.mp hsome
  have hzero : strstr marker (server ++ serverSuffix) = some 0 ↔
    marker <+: server ++ serverSuffix :=
    strstr_eq_zero_iff (by decide)
  unfold serverNameOf
  rw [show ascii "_opcua-tcp._tcp." = marker from rfl, ← hzero, hi]
  dsimp only
  by_cases hfirst : i = 0
  · rw [if_pos hfirst, hfirst]
    exact iff_of_true rfl rfl
  · rw [if_neg hfirst]
    exact iff_of_false nofun fun heq => hfirst (Option.some.inj heq)

theorem created_recordReceived_eq_zero_iff (hc : Consistent s) (m : Announcement) :
    (s.recordReceived m.resource).created = 0 ↔
      s.created = 0 ∧ (m.ttl = 0 ∨ marker <+: m.server ++ serverSuffix) := by
  rw [← serverNameOf_resource_eq_none_iff]
  unfold MdnsServer.recordReceived
  rw [if_pos (relevant_resource m),
    show serverNameOf m.resource.name = serverNameOf (m.server ++ serverSuffix) from rfl]
  cases serverNameOf (m.server ++ serverSuffix) with
  | none => exact (and_iff_left (Or.inr rfl)).symm
  | some serverName =>
    rw [or_iff_left (Option.some_ne_none serverName)]
    dsimp only
    unfold MdnsServer.receiveFor
    cases hlookup : s.lookup m.resource.name serverName with
    | some a =>
      obtain ⟨entry, hin, -, -⟩ := hc.of_lookup hlookup
      have hpos : s.created ≠ 0 := Nat.ne_of_gt (Nat.zero_lt_of_lt (hc.below _ hin))
      dsimp only
      refine iff_of_false ?_ fun h => hpos h.1
      split
      · exact hpos
      · exact hpos
    | none =>
      dsimp only
      split
      · rename_i httl
        refine iff_of_false (Nat.succ_ne_zero _) fun h => ?_
        exact UInt32.pos_iff_ne_zero.mp httl h.2
      · rename_i httl
        have hzero : m.ttl = 0 := by
          by_contra hne
          exact httl (UInt32.pos_iff_ne_zero.mpr hne)
        exact (and_iff_left hzero).symm

theorem created_eq_zero_iff : (tableAfter ms).created = 0 ↔
    ∀ m ∈ ms, m.ttl = 0 ∨ marker <+: m.server ++ serverSuffix := by
  induction ms using List.reverseRecOn with
  | nil => exact iff_of_true rfl nofun
  | append_singleton ms m ih =>
    rw [tableAfter_append, created_recordReceived_eq_zero_iff (consistent_tableAfter ms), ih,
      List.forall_mem_append, List.forall_mem_singleton]

theorem size_iff {ms : List Announcement} (hcreated : (tableAfter ms).created < 2 ^ 32) :
    (tableAfter ms).serverOnNetworkSize =
        UInt64.ofNat (tableAfter ms).serverOnNetwork.length ↔
      (tableAfter ms).created = 0 := by
  have hsize := (consistent_tableAfter ms).size
  have hzero : UInt64.ofNat (tableAfter ms).created = 0 ↔ (tableAfter ms).created = 0 := by
    rw [← UInt64.toNat_inj, UInt64.toNat_ofNat',
      Nat.mod_eq_of_lt (Nat.lt_trans hcreated (by decide))]
    rfl
  rw [← hzero, ← hsize]
  generalize (tableAfter ms).serverOnNetworkSize = size
  generalize UInt64.ofNat (tableAfter ms).created = created
  constructor
  · intro h
    grind
  · intro h
    rw [h, UInt64.add_zero]

/-- Each entry is in one chain, that of the name of its record, and once. -/
def InOneChain (s : MdnsServer) : Prop :=
  ∀ e ∈ s.serverOnNetwork, ∀ i,
    (s.serverOnNetworkHash i).count e.1 = if i = hashIdx e.2.record then 1 else 0

/-- The list has just one entry for each name that is announced and not withdrawn, and the last
record has left the entries of all other names as they were. -/
def Keyed (ms : List Announcement) : Prop :=
  ((tableAfter ms).serverOnNetwork.map entryName).Nodup ∧
    (∀ name, name ∈ (tableAfter ms).serverOnNetwork.map entryName ↔ name ∈ announced ms) ∧
    ∀ before m, ms = before ++ [m] → ∀ e ∈ (tableAfter before).serverOnNetwork,
      entryName e ≠ m.server → e ∈ (tableAfter ms).serverOnNetwork

/-- Every run. -/
theorem table_spec (ms : List Announcement) (hcreated : (tableAfter ms).created < 2 ^ 32) :
    ((tableAfter ms).serverOnNetwork.map fun e => e.2.serverOnNetwork.recordId).Nodup ∧
      (∀ record, 0 ≤ hashIdx record ∧ hashIdx record < 1009) ∧
      InOneChain (tableAfter ms) ∧
      ((tableAfter ms).serverOnNetworkSize =
          UInt64.ofNat (tableAfter ms).serverOnNetwork.length ↔
        ∀ m ∈ ms, m.ttl = 0 ∨ marker <+: m.server ++ serverSuffix) ∧
      (Guarded ms → Keyed ms) := by
  have hc := consistent_tableAfter ms
  refine ⟨?_, hashIdx_bounds, fun e he i => ?_, ?_, fun hguarded => ?_⟩
  · refine List.Nodup.map_on (fun e he e' he' hid => ?_) hc.nodup.of_map
    rw [hc.ids e he, hc.ids e' he', ← UInt32.toNat_inj, UInt32.toNat_ofNat', UInt32.toNat_ofNat',
      Nat.mod_eq_of_lt (Nat.lt_trans (hc.below e he) hcreated),
      Nat.mod_eq_of_lt (Nat.lt_trans (hc.below e' he') hcreated)] at hid
    exact List.inj_on_of_nodup_map hc.nodup he he' hid
  · have hmem : e.1 ∈ (tableAfter ms).serverOnNetworkHash i ↔ i = hashIdx e.2.record := by
      rw [hc.chains i e.1]
      constructor
      · rintro ⟨entry, hin, rfl⟩
        rw [hc.unique hin he]
      · rintro rfl
        exact ⟨e.2, he, rfl⟩
    rw [(hc.chainsNodup i).count]
    exact if_congr hmem rfl rfl
  · rw [size_iff hcreated, created_eq_zero_iff]
  · have hkeyed := keyedBy_tableAfter hguarded
    refine ⟨hkeyed.nodup, hkeyed.mem_iff, ?_⟩
    rintro before m rfl e he hne
    obtain ⟨hbefore, hguard⟩ := hguarded.of_append
    rw [tableAfter_append]
    exact ((keyedBy_tableAfter hbefore).step (consistent_tableAfter before) hguard).2 e he hne

def srvOf (server : Text) : Announcement where
  server := server
  flush := true
  ttl := 120
  data := .srv server 4840
  known := nofun

/-- Of two servers the first one withdraws its record and comes back. -/
def comesAgain : List Announcement :=
  [srvOf (ascii "d"), srvOf (ascii "a"), { srvOf (ascii "d") with ttl := 0 }, srvOf (ascii "d")]

theorem guarded_comesAgain : Guarded comesAgain := by
  have hnil : Guarded [] := by
    intro before m after heq
    cases before <;> cases heq
  have hone : Guarded [srvOf (ascii "d")] := hnil.concat (by decide +kernel)
  have htwo := hone.concat (m := srvOf (ascii "a")) (by decide +kernel)
  have hthree := htwo.concat (m := { srvOf (ascii "d") with ttl := 0 }) (by decide +kernel)
  exact hthree.concat (m := srvOf (ascii "d")) (by decide +kernel)

theorem table_spec_comesAgain :
    ((tableAfter comesAgain).serverOnNetwork.map fun e => e.2.serverOnNetwork.recordId) = [2, 1] ∧
      Keyed comesAgain := by
  obtain ⟨-, -, -, -, hkeyed⟩ := table_spec comesAgain (by decide +kernel)
  exact ⟨by decide +kernel, hkeyed guarded_comesAgain⟩

/-- The names of two servers are in one chain, and one starts with the other. -/
def relatedServers : List Announcement := [srvOf (ascii "d"), srvOf (ascii "dzo")]

/-- The second one gets no entry, and the first one is not counted. -/
theorem relatedServers_one_entry :
    ¬ Keyed relatedServers ∧
      (tableAfter relatedServers).serverOnNetworkSize ≠
        UInt64.ofNat (tableAfter relatedServers).serverOnNetwork.length := by
  constructor
  · rintro ⟨-, hmem, -⟩
    have hentry := (hmem (ascii "dzo")).mpr (by decide +kernel)
    exact absurd hentry (by decide +kernel)
  · decide +kernel

/-- What the list holds after fewer than 2^32 entries have been created. -/
def networkTable (ms : List Announcement) (hcreated : (tableAfter ms).created < 2 ^ 32) :
    NetworkTable where
  records := (tableAfter ms).serverOnNetwork.map fun e => e.2.serverOnNetwork
  recordIdCounter := (tableAfter ms).recordIdCounter
  newestFirst := by
    have hc := consistent_tableAfter ms
    rw [List.pairwise_map]
    refine hc.newestFirst.imp_of_mem fun {e e'} he he' hlt => ?_
    rw [hc.ids e he, hc.ids e' he', UInt32.lt_iff_toNat_lt,
      UInt32.toNat_ofNat_of_lt' (Nat.lt_trans (hc.below e he) hcreated),
      UInt32.toNat_ofNat_of_lt' (Nat.lt_trans (hc.below e' he') hcreated)]
    exact hlt
  counted := by
    have hc := consistent_tableAfter ms
    intro r hr
    obtain ⟨e, he, rfl⟩ := List.mem_map.mp hr
    rw [hc.ids e he, hc.counter, UInt32.lt_iff_toNat_lt,
      UInt32.toNat_ofNat_of_lt' (Nat.lt_trans (hc.below e he) hcreated),
      UInt32.toNat_ofNat_of_lt' hcreated]
    exact hc.below e he

end FactoryThing.Multicast
