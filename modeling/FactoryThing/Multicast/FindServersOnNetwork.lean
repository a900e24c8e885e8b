import FactoryThing.Multicast.Records

/-!
# Finding servers on the network

`Service_FindServersOnNetwork` (`src/server/ua_services_discovery_multicast.c:142-204`) and the
pages that a client gets from it. A record is taken if each of its capabilities equals each string
of the filter, and a page holds the newest records, so that nothing follows it.
-/

namespace FactoryThing.Multicast

open FormattedText

/-- The list of servers and the counter of record ids: the newest one comes first, and all ids have
been counted. -/
structure NetworkTable where
  records : List ServerOnNetwork
  recordIdCounter : UInt32
  newestFirst : records.Pairwise fun r s => s.recordId < r.recordId
  counted : ∀ r ∈ records, r.recordId < recordIdCounter

/-- `UA_FindServersOnNetworkRequest`. -/
structure FindServersOnNetworkRequest where
  startingRecordId : UInt32
  maxRecordsToReturn : UInt32
  serverCapabilityFilter : List Text
  deriving DecidableEq

/-- `filterServerRecord` (`:143-153`). -/
def filterServerRecord (serverCapabilityFilter : List Text) (current : ServerOnNetwork) : Bool :=
  serverCapabilityFilter.all fun wanted =>
    current.serverCapabilities.all fun capability => wanted = capability

/-- The number of records that are returned at most (`:163-167`). -/
def recordCountOf (recordIdCounter : UInt32) (request : FindServersOnNetworkRequest) : UInt32 :=
  let recordCount :=
    if request.startingRecordId < recordIdCounter then recordIdCounter - request.startingRecordId
    else 0
  if request.maxRecordsToReturn ≠ 0 && request.maxRecordsToReturn < recordCount then
    request.maxRecordsToReturn
  else recordCount

/-- The loop over the records (`:178-189`), `filteredCount` of which have been taken. -/
def filtered (recordCount : UInt32) (request : FindServersOnNetworkRequest) :
    Nat → List ServerOnNetwork → List ServerOnNetwork
  | _, [] => []
  | filteredCount, current :: rest =>
      if filteredCount ≥ recordCount.toNat then []
      else if current.recordId < request.startingRecordId then
        filtered recordCount request filteredCount rest
      else if filterServerRecord request.serverCapabilityFilter current = false then
        filtered recordCount request filteredCount rest
      else current :: filtered recordCount request (filteredCount + 1) rest

/-- `Service_FindServersOnNetwork` (`:155-204`): the servers of the response. -/
def findServersOnNetwork (table : NetworkTable) (request : FindServersOnNetworkRequest) :
    List ServerOnNetwork :=
  let recordCount := recordCountOf table.recordIdCounter request
  if recordCount = 0 then []
  else (filtered recordCount request 0 table.records).reverse

/-- The calls of a client that goes on behind the last record until nothing is returned. -/
inductive Pages (table : NetworkTable) :
    FindServersOnNetworkRequest → List (List ServerOnNetwork) → Prop
  | done {request} (h : findServersOnNetwork table request = []) : Pages table request []
  | more {request page last pages} (h : findServersOnNetwork table request = page)
      (hlast : page.getLast? = some last)
      (hpages : Pages table { request with startingRecordId := last.recordId + 1 } pages) :
      Pages table request (page :: pages)

/-- The record has all capabilities of the filter. -/
def HasCapabilities (filter : List Text) (r : ServerOnNetwork) : Prop :=
  ∀ wanted ∈ filter, wanted ∈ r.serverCapabilities

instance (filter : List Text) (r : ServerOnNetwork) : Decidable (HasCapabilities filter r) :=
  inferInstanceAs (Decidable (∀ wanted ∈ filter, wanted ∈ r.serverCapabilities))

/-- The records that a request without a limit is for. -/
def matching (table : NetworkTable) (request : FindServersOnNetworkRequest) :
    List ServerOnNetwork :=
  table.records.filter fun r =>
    request.startingRecordId ≤ r.recordId && HasCapabilities request.serverCapabilityFilter r

/-- Without a limit all matching records are returned, in ascending order. -/
def FindsAll (table : NetworkTable) (request : FindServersOnNetworkRequest) : Prop :=
  let response := findServersOnNetwork table { request with maxRecordsToReturn := 0 }
  response.Pairwise (fun r s => r.recordId < s.recordId) ∧
    ∀ r, r ∈ response ↔ r ∈ matching table request

/-- The pages come to an end, and hold each matching record once. -/
def DeliversAll (table : NetworkTable) (request : FindServersOnNetworkRequest) : Prop :=
  ∃ pages, Pages table request pages ∧ pages.flatten.Perm (matching table request)

/-- A filter that means what it says: it is empty, or each record has capabilities, and only one if
it has all of the filter. -/
def FilterFits (table : NetworkTable) (request : FindServersOnNetworkRequest) : Prop :=
  request.serverCapabilityFilter = [] ∨
    ∀ r ∈ table.records, request.startingRecordId ≤ r.recordId →
      r.serverCapabilities ≠ [] ∧
        (HasCapabilities request.serverCapabilityFilter r →
          ∀ c ∈ r.serverCapabilities, ∀ c' ∈ r.serverCapabilities, c = c')

variable {table : NetworkTable} {request : FindServersOnNetworkRequest} {r : ServerOnNetwork}
  {filter : List Text}

/-! ## One call -/

/-- What the loop takes, if there is room. -/
def takes (request : FindServersOnNetworkRequest) (r : ServerOnNetwork) : Bool :=
  request.startingRecordId ≤ r.recordId && filterServerRecord request.serverCapabilityFilter r

/-- The records that are taken if there is no limit. -/
def taken (table : NetworkTable) (request : FindServersOnNetworkRequest) : List ServerOnNetwork :=
  table.records.filter (takes request)

theorem filtered_eq (recordCount : UInt32) (request : FindServersOnNetworkRequest)
    (filteredCount : Nat) (records : List ServerOnNetwork) :
    filtered recordCount request filteredCount records =
      (records.filter (takes request)).take (recordCount.toNat - filteredCount) := by
  induction records generalizing filteredCount with
  | nil => rw [filtered, List.filter_nil, List.take_nil]
  | cons current rest ih =>
    rw [filtered]
    by_cases hfull : filteredCount ≥ recordCount.toNat
    · rw [if_pos hfull, Nat.sub_eq_zero_of_le hfull, List.take_zero]
    rw [if_neg hfull]
    by_cases hold : current.recordId < request.startingRecordId
    · rw [if_pos hold, ih, List.filter_cons_of_neg]
      simp [takes, UInt32.not_le.mpr hold]
    rw [if_neg hold]
    by_cases hfilter : filterServerRecord request.serverCapabilityFilter current = false
    · rw [if_pos hfilter, ih, List.filter_cons_of_neg]
      simp [takes, hfilter]
    · have htakes : takes request current = true := by
        simp [takes, UInt32.not_lt.mp hold, Bool.not_eq_false _ ▸ hfilter]
      have hroom : recordCount.toNat - filteredCount =
          recordCount.toNat - (filteredCount + 1) + 1 := by omega
      rw [if_neg hfilter, ih, List.filter_cons_of_pos htakes, hroom, List.take_succ_cons]

theorem length_le_of_descending {ids : List Nat} {a b : Nat}
    (hids : ids.Pairwise fun m n => n < m) (hle : ∀ n ∈ ids, a ≤ n) (hlt : ∀ n ∈ ids, n < b) :
    ids.length ≤ b - a := by
  induction ids generalizing b with
  | nil => exact Nat.zero_le _
  | cons n ids ih =>
    obtain ⟨hfirst, hrest⟩ := List.pairwise_cons.mp hids
    obtain ⟨hn, hle⟩ := List.forall_mem_cons.mp hle
    have hlength := ih hrest hle hfirst
    have hb := hlt n List.mem_cons_self
    rw [List.length_cons]
    omega

theorem newestFirst_taken (table : NetworkTable) (request : FindServersOnNetworkRequest) :
    (taken table request).Pairwise fun r s => s.recordId < r.recordId :=
  table.newestFirst.sublist List.filter_sublist

theorem mem_taken : r ∈ taken table request ↔ r ∈ table.records ∧
    request.startingRecordId ≤ r.recordId ∧
      filterServerRecord request.serverCapabilityFilter r = true := by
  rw [taken, List.mem_filter, takes, Bool.and_eq_true, decide_eq_true_eq]

theorem length_taken_le (table : NetworkTable) (request : FindServersOnNetworkRequest) :
    (taken table request).length ≤
      table.recordIdCounter.toNat - request.startingRecordId.toNat := by
  have hids : ((taken table request).map fun r => r.recordId.toNat).Pairwise fun m n => n < m := by
    rw [List.pairwise_map]
    exact (newestFirst_taken table request).imp fun h => UInt32.lt_iff_toNat_lt.mp h
  rw [← List.length_map fun r : ServerOnNetwork => r.recordId.toNat]
  refine length_le_of_descending hids ?_ ?_
  · rintro _ hn
    obtain ⟨r, hr, rfl⟩ := List.mem_map.mp hn
    exact UInt32.le_iff_toNat_le.mp (mem_taken.mp hr).2.1
  · rintro _ hn
    obtain ⟨r, hr, rfl⟩ := List.mem_map.mp hn
    exact UInt32.lt_iff_toNat_lt.mp (table.counted r (mem_taken.mp hr).1)

/-- The newest records that are taken, as many as fit on a page. -/
def page (table : NetworkTable) (request : FindServersOnNetworkRequest) : List ServerOnNetwork :=
  if request.maxRecordsToReturn = 0 then taken table request
  else (taken table request).take request.maxRecordsToReturn.toNat

theorem take_recordCount (table : NetworkTable) (request : FindServersOnNetworkRequest) :
    (taken table request).take (recordCountOf table.recordIdCounter request).toNat =
      page table request := by
  have hlength := length_taken_le table request
  unfold recordCountOf
  generalize hleft : (if request.startingRecordId < table.recordIdCounter then
    table.recordIdCounter - request.startingRecordId else 0) = left
  have hfits : (taken table request).length ≤ left.toNat := by
    subst hleft
    by_cases hlt : request.startingRecordId < table.recordIdCounter
    · rwa [if_pos hlt, UInt32.toNat_sub_of_le _ _ (UInt32.le_of_lt hlt)]
    · have hle := UInt32.le_iff_toNat_le.mp (UInt32.not_lt.mp hlt)
      omega
  unfold page
  by_cases hmax : request.maxRecordsToReturn = 0
  · rw [if_pos hmax, if_neg (by simp [hmax]), List.take_of_length_le hfits]
  rw [if_neg hmax]
  by_cases hlt : request.maxRecordsToReturn < left
  · rw [if_pos (by simp [hmax, hlt])]
  · have hle := UInt32.le_iff_toNat_le.mp (UInt32.not_lt.mp hlt)
    rw [if_neg (by simp [hlt]), List.take_of_length_le hfits,
      List.take_of_length_le (Nat.le_trans hfits hle)]

theorem findServersOnNetwork_eq (table : NetworkTable) (request : FindServersOnNetworkRequest) :
    findServersOnNetwork table request = (page table request).reverse := by
  have hpage := take_recordCount table request
  unfold findServersOnNetwork
  by_cases hzero : recordCountOf table.recordIdCounter request = 0
  · rw [hzero] at hpage
    rw [if_pos hzero, ← hpage]
    rfl
  · rw [if_neg hzero, filtered_eq, Nat.sub_zero]
    exact congrArg List.reverse hpage

theorem filterServerRecord_iff (filter : List Text) (r : ServerOnNetwork) :
    (filterServerRecord filter r = true ↔ HasCapabilities filter r) ↔
      (filter = [] ∨ (r.serverCapabilities ≠ [] ∧ (HasCapabilities filter r →
        ∀ c ∈ r.serverCapabilities, ∀ c' ∈ r.serverCapabilities, c = c'))) := by
  have hiff : filterServerRecord filter r = true ↔
      ∀ wanted ∈ filter, ∀ capability ∈ r.serverCapabilities, wanted = capability := by
    simp [filterServerRecord]
  rw [hiff]
  constructor
  · intro h
    by_cases hnil : filter = []
    · exact Or.inl hnil
    obtain ⟨wanted, hwanted⟩ := List.exists_mem_of_ne_nil filter hnil
    refine Or.inr ⟨?_, fun hcaps c hc c' hc' => ?_⟩
    · intro hempty
      have hcaps : HasCapabilities filter r := h.mp (by rw [hempty]; exact fun _ _ => nofun)
      have hmem := hcaps wanted hwanted
      rw [hempty] at hmem
      cases hmem
    · have hall := h.mpr hcaps wanted hwanted
      exact (hall c hc).symm.trans (hall c' hc')
  · rintro (rfl | ⟨hne, hsame⟩)
    · exact iff_of_true nofun nofun
    · constructor
      · intro hall wanted hwanted
        obtain ⟨c, hc⟩ := List.exists_mem_of_ne_nil _ hne
        rw [hall wanted hwanted c hc]
        exact hc
      · intro hcaps wanted hwanted c hc
        exact hsame hcaps wanted (hcaps wanted hwanted) c hc

theorem mem_matching : r ∈ matching table request ↔ r ∈ table.records ∧
    request.startingRecordId ≤ r.recordId ∧ HasCapabilities request.serverCapabilityFilter r := by
  rw [matching, List.mem_filter, Bool.and_eq_true, decide_eq_true_eq, decide_eq_true_eq]

theorem mem_taken_iff_mem_matching :
    (∀ r, r ∈ taken table request ↔ r ∈ matching table request) ↔ FilterFits table request := by
  have hpoint : (∀ r, r ∈ taken table request ↔ r ∈ matching table request) ↔
      ∀ r ∈ table.records, request.startingRecordId ≤ r.recordId →
        (filterServerRecord request.serverCapabilityFilter r = true ↔
          HasCapabilities request.serverCapabilityFilter r) := by
    refine forall_congr' fun r => ?_
    rw [mem_taken, mem_matching]
    tauto
  rw [hpoint]
  unfold FilterFits
  simp only [filterServerRecord_iff]
  by_cases hnil : request.serverCapabilityFilter = []
  · exact iff_of_true (fun _ _ _ => Or.inl hnil) (Or.inl hnil)
  · simp only [hnil, false_or]

theorem findsAll_iff : FindsAll table request ↔ FilterFits table request := by
  have hresponse : findServersOnNetwork table { request with maxRecordsToReturn := 0 } =
      (taken table request).reverse := findServersOnNetwork_eq table _
  unfold FindsAll
  rw [hresponse, ← mem_taken_iff_mem_matching]
  refine (and_iff_right ?_).trans (forall_congr' fun r => by rw [List.mem_reverse])
  exact List.pairwise_reverse.mpr (newestFirst_taken table request)

theorem pages_unique {pages pages' : List (List ServerOnNetwork)} (h : Pages table request pages)
    (h' : Pages table request pages') : pages = pages' := by
  induction h generalizing pages' with
  | done hnil =>
    cases h' with
    | done => rfl
    | more hpage hlast =>
      rw [hnil] at hpage
      rw [← hpage] at hlast
      cases hlast
  | more hpage hlast hpages ih =>
    cases h' with
    | done hnil =>
      rw [hnil] at hpage
      rw [← hpage] at hlast
      cases hlast
    | more hpage' hlast' hpages' =>
      obtain rfl := hpage.symm.trans hpage'
      obtain rfl := Option.some.inj (hlast.symm.trans hlast')
      rw [ih hpages']

theorem page_behind {newest : ServerOnNetwork} {rest : List ServerOnNetwork}
    (h : taken table request = newest :: rest) :
    page table { request with startingRecordId := newest.recordId + 1 } = [] := by
  have hnil : taken table { request with startingRecordId := newest.recordId + 1 } = [] := by
    rw [List.eq_nil_iff_forall_not_mem]
    intro r hr
    obtain ⟨hmem, hle, hfilter⟩ := mem_taken.mp hr
    have hnewest : newest ∈ taken table request := h ▸ List.mem_cons_self
    have hcounted := UInt32.lt_iff_toNat_lt.mp (table.counted newest (mem_taken.mp hnewest).1)
    have hnext : (newest.recordId + 1).toNat = newest.recordId.toNat + 1 := by
      have hlt := table.recordIdCounter.toNat_lt
      rw [UInt32.toNat_add]
      exact Nat.mod_eq_of_lt (by have : (1 : UInt32).toNat = 1 := rfl; omega)
    have hbeyond : newest.recordId.toNat < r.recordId.toNat := by
      have hle' := UInt32.le_iff_toNat_le.mp hle
      dsimp only at hle'
      omega
    have hstart : request.startingRecordId ≤ r.recordId := by
      have hfirst := UInt32.le_iff_toNat_le.mp (mem_taken.mp hnewest).2.1
      rw [UInt32.le_iff_toNat_le]
      omega
    have hin : r ∈ newest :: rest := h ▸ mem_taken.mpr ⟨hmem, hstart, hfilter⟩
    have hsorted := newestFirst_taken table request
    rw [h] at hsorted
    obtain rfl | hin := List.mem_cons.mp hin
    · exact Nat.lt_irrefl _ hbeyond
    · have hlt := UInt32.lt_iff_toNat_lt.mp ((List.pairwise_cons.mp hsorted).1 r hin)
      omega
  unfold page
  rw [hnil, List.take_nil, ite_self]

theorem pages_page (table : NetworkTable) (request : FindServersOnNetworkRequest) :
    Pages table request
      (if page table request = [] then [] else [(page table request).reverse]) := by
  have hcall := findServersOnNetwork_eq table request
  cases hpage : page table request with
  | nil =>
    rw [hpage] at hcall
    rw [if_pos rfl]
    exact .done hcall
  | cons newest rest =>
    have htaken : ∃ rest', taken table request = newest :: rest' := by
      unfold page at hpage
      split at hpage
      · exact ⟨rest, hpage⟩
      · cases htaken : taken table request with
        | nil =>
          rw [htaken, List.take_nil] at hpage
          cases hpage
        | cons first rest' =>
          rw [htaken] at hpage
          have hhead := congrArg List.head? hpage
          rw [List.head?_take] at hhead
          split at hhead
          · cases hhead
          · cases hhead
            exact ⟨rest', rfl⟩
    obtain ⟨rest', htaken⟩ := htaken
    rw [hpage] at hcall
    rw [if_neg (List.cons_ne_nil _ _)]
    refine .more hcall (by rw [List.getLast?_reverse]; rfl) (.done ?_)
    rw [findServersOnNetwork_eq, page_behind htaken]
    rfl

theorem deliversAll_iff (hfits : FilterFits table request)
    (hlimit : request.maxRecordsToReturn ≠ 0) :
    DeliversAll table request ↔
      (matching table request).length ≤ request.maxRecordsToReturn.toNat := by
  have htaken : taken table request = matching table request := by
    refine List.filter_congr fun r hr => ?_
    have hiff := mem_taken_iff_mem_matching.mpr hfits r
    rw [taken, matching, List.mem_filter, List.mem_filter] at hiff
    rw [Bool.eq_iff_iff]
    exact ⟨fun h => (hiff.mp ⟨hr, h⟩).2, fun h => (hiff.mpr ⟨hr, h⟩).2⟩
  have hpage : page table request =
      (matching table request).take request.maxRecordsToReturn.toNat := by
    rw [page, if_neg hlimit, htaken]
  have hflatten : (if page table request = [] then [] else [(page table request).reverse]).flatten =
      (page table request).reverse := by
    split
    · rename_i hnil
      rw [hnil]
      rfl
    · exact List.flatten_singleton
  constructor
  · rintro ⟨pages, hpages, hperm⟩
    rw [pages_unique hpages (pages_page table request), hflatten] at hperm
    have hlength := hperm.length_eq
    rw [List.length_reverse, hpage, List.length_take] at hlength
    omega
  · intro hle
    refine ⟨_, pages_page table request, ?_⟩
    rw [hflatten, hpage, List.take_of_length_le hle]
    exact List.reverse_perm _

/-- All matching records are found, and delivered page by page, just if the filter means what it
says and all of them fit on a page. -/
theorem findsAll_and_deliversAll_iff (table : NetworkTable)
    (request : FindServersOnNetworkRequest) :
    FindsAll table request ∧ (request.maxRecordsToReturn ≠ 0 → DeliversAll table request) ↔
      FilterFits table request ∧ (request.maxRecordsToReturn ≠ 0 →
        (matching table request).length ≤ request.maxRecordsToReturn.toNat) := by
  rw [findsAll_iff]
  exact and_congr_right fun hfits => forall_congr' fun hlimit => deliversAll_iff hfits hlimit

/-- Two servers, neither of which has announced capabilities. -/
def twoServers : NetworkTable where
  records := [⟨1, ascii "b", ascii "opc.tcp://b:4840", []⟩,
    ⟨0, ascii "a", ascii "opc.tcp://a:4840", []⟩]
  recordIdCounter := 2
  newestFirst := by decide
  counted := by decide

/-- Servers without capabilities pass every filter, and of two pages the first one is left out. -/
theorem twoServers_missed :
    ¬ FindsAll twoServers ⟨0, 0, [ascii "DA"]⟩ ∧ ¬ DeliversAll twoServers ⟨0, 1, []⟩ := by
  constructor
  · rintro ⟨-, hmem⟩
    have hfound := (hmem ⟨0, ascii "a", ascii "opc.tcp://a:4840", []⟩).mp (by decide)
    exact absurd hfound (by decide)
  · exact mt (deliversAll_iff (Or.inl rfl) (by decide)).mp (by decide)

end FactoryThing.Multicast
