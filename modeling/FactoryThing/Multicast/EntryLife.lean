import FactoryThing.Multicast.Records
import Mathlib.Algebra.Order.Group.Multiset
import Mathlib.Data.List.Induction
import Mathlib.Data.Multiset.Range
import Mathlib.Tactic.Abel
import Mathlib.Tactic.ByContra

/-!
# The memory of an entry

`setTxt`, `setSrv`, `mdns_append_path_to_url` and `mdns_record_remove`
(`src/server/ua_mdns.c:114-236`) with the blocks that they allocate for the path, the URL and the
capabilities, and release. A path that is appended to a URL leaves the block of the URL behind, and
`setSrv` releases the cached path without resetting the pointer to it.
-/

namespace FactoryThing.Multicast

open FormattedText

/-- The next block, and the blocks that have been released, as often as they have been. -/
structure Ledger where
  next : Nat
  released : Multiset Nat

/-- `UA_malloc`. -/
def Ledger.allocate (l : Ledger) : Ledger := { l with next := l.next + 1 }

/-- `UA_free`. -/
def Ledger.release (l : Ledger) (block : Nat) : Ledger :=
  { l with released := block ::ₘ l.released }

/-- `UA_free` of a pointer that may be `NULL`. -/
def Ledger.releaseIf (l : Ledger) : Option (Nat × Text) → Ledger
  | none => l
  | some block => l.release block.1

abbrev Owned := Nat × Text

/-- The pointers of an entry, with what they point to. -/
structure EntryMemory where
  pathTmp : Option Owned
  discoveryUrl : Option Owned
  serverCapabilities : Option (Nat × List Owned)
  txtSet : Bool
  srvSet : Bool

def EntryMemory.fresh : EntryMemory := ⟨none, none, none, false, false⟩

/-- `mdns_append_path_to_url` (`:153-161`): the old block is neither used nor released. -/
def appendPathToUrl (l : Ledger) (url : Option Owned) (path : Text) : Ledger × Option Owned :=
  (l.allocate, some (l.next, (url.elim [] Prod.snd) ++ path))

/-- The path of a TXT record (`:170-179`). -/
def setPath (path : Option Text) (l : Ledger) (entry : EntryMemory) : Ledger × EntryMemory :=
  match usablePath path with
  | none => (l, entry)
  | some path =>
      if entry.srvSet = false then (l.allocate, { entry with pathTmp := some (l.next, path) })
      else
        let (l, url) := appendPathToUrl l entry.discoveryUrl path
        (l, { entry with discoveryUrl := url })

/-- The copies of a list of texts. -/
def copyAll (l : Ledger) : List Text → Ledger × List Owned
  | [] => (l, [])
  | text :: texts =>
      let (l', blocks) := copyAll l.allocate texts
      (l', (l.next, text) :: blocks)

/-- The capabilities of a TXT record (`:181-207`). -/
def setCaps (caps : Option Text) (l : Ledger) (entry : EntryMemory) : Ledger × EntryMemory :=
  match caps.filter fun caps => caps.length > 0 with
  | none => (l, entry)
  | some caps =>
      let (l', strings) := copyAll l.allocate (caps.splitOn 44)
      (l', { entry with serverCapabilities := some (l.next, strings) })

/-- `setTxt` (`:163-209`). -/
def setTxtMemory (path caps : Option Text) (l : Ledger) (entry : EntryMemory) :
    Ledger × EntryMemory :=
  let (l, entry) := setPath path l { entry with txtSet := true }
  setCaps caps l entry

/-- The URL of an SRV record (`:222-229`): `newUrl` is copied and released. -/
def setUrl (name : Text) (port : UInt16) (l : Ledger) (entry : EntryMemory) :
    Ledger × EntryMemory :=
  (l.allocate.allocate.release l.next,
    { entry with discoveryUrl := some (l.next + 1, srvUrl name port) })

/-- The cached path (`:231-234`). -/
def appendCached (l : Ledger) (entry : EntryMemory) : Ledger × EntryMemory :=
  match entry.pathTmp with
  | none => (l, entry)
  | some path =>
      let (l, url) := appendPathToUrl l entry.discoveryUrl path.2
      (l.release path.1, { entry with discoveryUrl := url })

/-- `setSrv` (`:212-236`). -/
def setSrvMemory (name : Text) (port : UInt16) (l : Ledger) (entry : EntryMemory) :
    Ledger × EntryMemory :=
  let (l, entry) := setUrl name port l { entry with srvSet := true }
  appendCached l entry

/-- `UA_Array_delete`, without the array. -/
def Ledger.releaseAll (l : Ledger) : List Owned → Ledger
  | [] => l
  | block :: blocks => (l.release block.1).releaseAll blocks

def Ledger.releaseCaps (l : Ledger) : Option (Nat × List Owned) → Ledger
  | none => l
  | some (array, strings) => (l.releaseAll strings).release array

/-- `UA_ServerOnNetwork_deleteMembers` and the cached path (`mdns_record_remove`, `:138-142`). -/
def releaseEntry (l : Ledger) (entry : EntryMemory) : Ledger :=
  ((l.releaseIf entry.discoveryUrl).releaseCaps entry.serverCapabilities).releaseIf entry.pathTmp

inductive RecordKind where
  | srv
  | txt
  deriving DecidableEq

structure ServerRecords where
  name : Text
  port : UInt16
  path : Option Text
  caps : Option Text

variable (r : ServerRecords)

/-- One more record (`mdns_record_received`, `:278-286`). -/
def receiveRecord (s : Ledger × EntryMemory) (kind : RecordKind) : Ledger × EntryMemory :=
  if s.2.txtSet && s.2.srvSet then s
  else
    match kind with
    | .txt => if s.2.txtSet = false then setTxtMemory r.path r.caps s.1 s.2 else s
    | .srv => if s.2.srvSet = false then setSrvMemory r.name r.port s.1 s.2 else s

/-- The life of an entry up to its removal. -/
def life (records : List RecordKind) : Ledger × EntryMemory :=
  records.foldl (receiveRecord r) (⟨0, 0⟩, .fresh)

/-- The text of a URL, and the capabilities. -/
def EntryMemory.contents (entry : EntryMemory) : Option Text × Option (List Text) :=
  (entry.discoveryUrl.map Prod.snd, entry.serverCapabilities.map fun caps => caps.2.map Prod.snd)

def Complete (records : List RecordKind) : Prop := .srv ∈ records ∧ .txt ∈ records

/-- Each block that has been allocated is released once. -/
def Ledger.ReleasedOnce (l : Ledger) : Prop := l.released = Multiset.range l.next

/-- The block of a pointer that may be `NULL`. -/
def blockOf (owned : Option Owned) : Multiset Nat := owned.elim 0 fun block => {block.1}

def blocksOfCaps (caps : Option (Nat × List Owned)) : Multiset Nat :=
  caps.elim 0 fun caps => caps.1 ::ₘ Multiset.ofList (caps.2.map Prod.fst)

@[simp] theorem blocksOfCaps_none : blocksOfCaps none = 0 := rfl

@[simp] theorem blocksOfCaps_some (array : Nat) (strings : List Owned) :
    blocksOfCaps (some (array, strings)) = array ::ₘ Multiset.ofList (strings.map Prod.fst) := rfl

/-- The blocks that are released with an entry. -/
def EntryMemory.blocks (entry : EntryMemory) : Multiset Nat :=
  blockOf entry.discoveryUrl + blocksOfCaps entry.serverCapabilities + blockOf entry.pathTmp

/-- All blocks have been released, or will be. -/
def Balanced (s : Ledger × EntryMemory) : Prop :=
  s.1.released + s.2.blocks = Multiset.range s.1.next

def Leaks (s : Ledger × EntryMemory) : Prop :=
  ∃ block < s.1.next, block ∉ s.1.released + s.2.blocks

theorem Leaks.not_balanced {s : Ledger × EntryMemory} (h : Leaks s) : ¬ Balanced s := by
  obtain ⟨block, hlt, hnot⟩ := h
  intro hbalanced
  rw [hbalanced] at hnot
  exact hnot (Multiset.mem_range.mpr hlt)

theorem releaseIf_eq (l : Ledger) (owned : Option Owned) :
    l.releaseIf owned = ⟨l.next, l.released + blockOf owned⟩ := by
  cases owned with
  | none => exact congrArg (Ledger.mk l.next) (Multiset.add_zero _).symm
  | some block =>
    exact congrArg (Ledger.mk l.next)
      ((Multiset.singleton_add block.1 l.released).symm.trans (Multiset.add_comm _ _))

theorem releaseAll_eq (l : Ledger) (blocks : List Owned) :
    l.releaseAll blocks = ⟨l.next, l.released + Multiset.ofList (blocks.map Prod.fst)⟩ := by
  induction blocks generalizing l with
  | nil => exact congrArg (Ledger.mk l.next) (Multiset.add_zero _).symm
  | cons block blocks ih =>
    rw [Ledger.releaseAll, ih, List.map_cons, ← Multiset.cons_coe, Multiset.add_cons]
    exact congrArg (Ledger.mk l.next) (Multiset.cons_add _ _ _)

theorem releaseCaps_eq (l : Ledger) (caps : Option (Nat × List Owned)) :
    l.releaseCaps caps = ⟨l.next, l.released + blocksOfCaps caps⟩ := by
  cases caps with
  | none => exact congrArg (Ledger.mk l.next) (Multiset.add_zero _).symm
  | some caps =>
    show (l.releaseAll caps.2).release caps.1 = _
    rw [releaseAll_eq]
    exact congrArg (Ledger.mk l.next) (Multiset.add_cons _ _ _).symm

theorem releasedOnce_releaseEntry (s : Ledger × EntryMemory) :
    (releaseEntry s.1 s.2).ReleasedOnce ↔ Balanced s := by
  unfold releaseEntry Ledger.ReleasedOnce Balanced EntryMemory.blocks
  rw [releaseIf_eq, releaseCaps_eq, releaseIf_eq]
  rw [Multiset.add_assoc, Multiset.add_assoc, Multiset.add_assoc]

/-! ## The steps -/

variable {l : Ledger} {entry : EntryMemory}

theorem copyAll_spec (l : Ledger) (texts : List Text) :
    (copyAll l texts).1.released = l.released ∧
      (copyAll l texts).2.map Prod.snd = texts ∧
      Multiset.range l.next + Multiset.ofList ((copyAll l texts).2.map Prod.fst) =
        Multiset.range (copyAll l texts).1.next := by
  induction texts generalizing l with
  | nil => exact ⟨rfl, rfl, Multiset.add_zero _⟩
  | cons text texts ih =>
    obtain ⟨hreleased, htexts, hrange⟩ := ih l.allocate
    refine ⟨hreleased, congrArg (text :: ·) htexts, ?_⟩
    refine Eq.trans ?_ hrange
    show _ + Multiset.ofList (l.next :: _) = Multiset.range (l.next + 1) + _
    rw [Multiset.range_succ, ← Multiset.cons_coe, Multiset.add_cons, Multiset.cons_add]

theorem Leaks.mono {s s' : Ledger × EntryMemory} (h : Leaks s) (hnext : s.1.next ≤ s'.1.next)
    (hold : ∀ block ∈ s'.1.released + s'.2.blocks, block < s.1.next →
      block ∈ s.1.released + s.2.blocks) : Leaks s' := by
  obtain ⟨block, hlt, hnot⟩ := h
  exact ⟨block, Nat.lt_of_lt_of_le hlt hnext, fun hin => hnot (hold block hin hlt)⟩

theorem mem_blocks {block : Nat} : block ∈ entry.blocks ↔
    block ∈ blockOf entry.discoveryUrl ∨ block ∈ blocksOfCaps entry.serverCapabilities ∨
      block ∈ blockOf entry.pathTmp := by
  rw [EntryMemory.blocks, Multiset.mem_add, Multiset.mem_add, or_assoc]

theorem balanced_cache (h : Balanced (l, entry)) (htmp : entry.pathTmp = none) (path : Text) :
    Balanced (l.allocate, { entry with pathTmp := some (l.next, path) }) := by
  unfold Balanced EntryMemory.blocks at h ⊢
  rw [htmp] at h
  show l.released + (_ + {l.next}) = Multiset.range (l.next + 1)
  rw [Multiset.range_succ, ← h, ← Multiset.add_assoc, Multiset.add_comm _ {l.next},
    Multiset.singleton_add]
  exact congrArg (l.next ::ₘ ·) (congrArg (l.released + ·) (Multiset.add_zero _).symm)

theorem leaks_append {url : Owned} (h : Balanced (l, entry)) (hurl : entry.discoveryUrl = some url)
    (text : Text) : Leaks (l.allocate, { entry with discoveryUrl := some (l.next, text) }) := by
  unfold Balanced EntryMemory.blocks at h
  rw [hurl] at h
  have hsplit : Multiset.range l.next = url.1 ::ₘ (l.released +
      (blocksOfCaps entry.serverCapabilities + blockOf entry.pathTmp)) := by
    rw [← h]
    show l.released + ({url.1} + _ + _) = _
    rw [Multiset.add_assoc {url.1}, Multiset.singleton_add, Multiset.add_cons]
  have hnodup := Multiset.nodup_range l.next
  have hlt : url.1 < l.next := by
    rw [← Multiset.mem_range, hsplit]
    exact Multiset.mem_cons_self _ _
  rw [hsplit, Multiset.nodup_cons, Multiset.mem_add, Multiset.mem_add] at hnodup
  refine ⟨url.1, Nat.lt_succ_of_lt hlt, fun hin => ?_⟩
  obtain hin | hin := Multiset.mem_add.mp hin
  · exact hnodup.1 (Or.inl hin)
  obtain hin | hin := mem_blocks.mp hin
  · exact Nat.ne_of_lt hlt (Multiset.mem_singleton.mp hin)
  · exact hnodup.1 (Or.inr hin)

theorem balanced_setUrl (h : Balanced (l, entry)) (hurl : entry.discoveryUrl = none) (name : Text)
    (port : UInt16) : Balanced (setUrl name port l entry) := by
  unfold Balanced EntryMemory.blocks at h ⊢
  rw [hurl] at h
  show (l.next ::ₘ l.released) + ({l.next + 1} + _ + _) = Multiset.range (l.next + 1 + 1)
  rw [Multiset.range_succ, Multiset.range_succ, ← h, Multiset.add_assoc {l.next + 1},
    Multiset.singleton_add, Multiset.add_cons, Multiset.cons_add, Multiset.add_assoc]
  exact congrArg (fun blocks => (l.next + 1) ::ₘ l.next ::ₘ (l.released + blocks))
    (Multiset.zero_add _).symm

theorem leaks_appendCached {url path : Owned} (h : Balanced (l, entry))
    (hurl : entry.discoveryUrl = some url) (htmp : entry.pathTmp = some path) :
    Leaks (appendCached l entry) := by
  have hleaks := leaks_append h hurl (url.2 ++ path.2)
  have hcached : appendCached l entry = (l.allocate.release path.1,
      { entry with discoveryUrl := some (l.next, url.2 ++ path.2) }) := by
    unfold appendCached appendPathToUrl
    rw [htmp, hurl]
    rfl
  rw [hcached]
  refine hleaks.mono (Nat.le_refl _) fun block hin _ => ?_
  obtain hin | hin := Multiset.mem_add.mp hin
  · obtain rfl | hin := Multiset.mem_cons.mp hin
    · refine Multiset.mem_add.mpr (Or.inr (mem_blocks.mpr (Or.inr (Or.inr ?_))))
      rw [htmp]
      exact Multiset.mem_singleton_self _
    · exact Multiset.mem_add.mpr (Or.inl hin)
  · exact Multiset.mem_add.mpr (Or.inr hin)

/-- The capabilities of a TXT record, if there are any. -/
def capsOf (caps : Option Text) : Option (List Text) :=
  (caps.filter fun caps => caps.length > 0).map (·.splitOn 44)

theorem setCaps_spec (caps : Option Text) (hcaps : entry.serverCapabilities = none) :
    ∃ l' new, setCaps caps l entry = (l', { entry with serverCapabilities := new }) ∧
      l'.released = l.released ∧ new.map (fun new => new.2.map Prod.snd) = capsOf caps ∧
      Multiset.range l'.next = Multiset.range l.next + blocksOfCaps new := by
  unfold setCaps capsOf
  cases caps.filter fun caps => caps.length > 0 with
  | none =>
    refine ⟨l, none, ?_, rfl, rfl, (Multiset.add_zero _).symm⟩
    rw [← hcaps]
  | some caps =>
    obtain ⟨hreleased, htexts, hrange⟩ := copyAll_spec l.allocate (caps.splitOn 44)
    refine ⟨_, _, rfl, hreleased, congrArg some htexts, hrange.symm.trans ?_⟩
    rw [blocksOfCaps_some, Multiset.add_cons, ← Multiset.cons_add, ← Multiset.range_succ]
    rfl

theorem balanced_setCaps (h : Balanced (l, entry)) (hcaps : entry.serverCapabilities = none)
    (caps : Option Text) : Balanced (setCaps caps l entry) := by
  obtain ⟨l', new, hset, hreleased, -, hrange⟩ := setCaps_spec (l := l) caps hcaps
  rw [hset]
  unfold Balanced EntryMemory.blocks at h ⊢
  rw [hcaps, blocksOfCaps_none] at h
  rw [hreleased, hrange, ← h]
  abel

theorem leaks_setCaps (h : Leaks (l, entry)) (hcaps : entry.serverCapabilities = none)
    (caps : Option Text) : Leaks (setCaps caps l entry) := by
  obtain ⟨l', new, hset, hreleased, -, hrange⟩ := setCaps_spec (l := l) caps hcaps
  have hnew : ∀ block ∈ blocksOfCaps new, ¬ block < l.next := by
    intro block hin hlt
    have hnodup := Multiset.nodup_range l'.next
    rw [hrange, Multiset.nodup_add] at hnodup
    exact Multiset.disjoint_left.mp hnodup.2.2 (Multiset.mem_range.mpr hlt) hin
  have hnext : l.next ≤ l'.next := by
    rw [← Multiset.range_subset, hrange]
    exact fun block hin => Multiset.mem_add.mpr (Or.inl hin)
  rw [hset]
  refine h.mono hnext fun block hin hlt => ?_
  obtain hin | hin := Multiset.mem_add.mp hin
  · rw [hreleased] at hin
    exact Multiset.mem_add.mpr (Or.inl hin)
  · refine Multiset.mem_add.mpr (Or.inr (mem_blocks.mpr ?_))
    obtain hin | hin | hin := mem_blocks.mp hin
    · exact Or.inl hin
    · exact absurd hlt (hnew block hin)
    · exact Or.inr (Or.inr hin)

theorem receiveRecord_txt (r : ServerRecords) (s : Ledger × EntryMemory) : receiveRecord r s .txt =
    if s.2.txtSet = false then setTxtMemory r.path r.caps s.1 s.2 else s := by
  unfold receiveRecord
  cases htxt : s.2.txtSet with
  | false => rfl
  | true => exact ite_self _

theorem receiveRecord_srv (r : ServerRecords) (s : Ledger × EntryMemory) : receiveRecord r s .srv =
    if s.2.srvSet = false then setSrvMemory r.name r.port s.1 s.2 else s := by
  unfold receiveRecord
  cases hsrv : s.2.srvSet with
  | false =>
    rw [Bool.and_false]
    rfl
  | true => exact ite_self _

/-- The text of the URL after some records. -/
def urlAfter (records : List RecordKind) : Option Text :=
  if .srv ∈ records then
    some (srvUrl r.name r.port ++ if .txt ∈ records then (usablePath r.path).getD [] else [])
  else none

/-- An entry after some records: its flags, its texts, and who owns its memory. -/
structure LifeInvariant (records : List RecordKind) (s : Ledger × EntryMemory) : Prop where
  txtSet : s.2.txtSet = decide (.txt ∈ records)
  srvSet : s.2.srvSet = decide (.srv ∈ records)
  url : s.2.discoveryUrl.map Prod.snd = urlAfter r records
  caps : s.2.serverCapabilities.map (fun caps => caps.2.map Prod.snd) =
    if .txt ∈ records then capsOf r.caps else none
  cached : .srv ∉ records → s.2.pathTmp.map Prod.snd =
    if .txt ∈ records then usablePath r.path else none
  uncached : .txt ∉ records → s.2.pathTmp = none
  balanced : ¬ (Complete records ∧ (usablePath r.path).isSome = true) → Balanced s
  leaks : Complete records ∧ (usablePath r.path).isSome = true → Leaks s

theorem lifeInvariant_nil : LifeInvariant r [] (⟨0, 0⟩, .fresh) where
  txtSet := rfl
  srvSet := rfl
  url := rfl
  caps := rfl
  cached _ := rfl
  uncached _ := rfl
  balanced _ := rfl
  leaks h := absurd h.1.1 List.not_mem_nil

theorem LifeInvariant.of_mem {records : List RecordKind} {s : Ledger × EntryMemory}
    {kind : RecordKind} (h : LifeInvariant r records s) (hmem : kind ∈ records) :
    LifeInvariant r (records ++ [kind]) s := by
  have hiff : ∀ kind', kind' ∈ records ++ [kind] ↔ kind' ∈ records := by
    intro kind'
    rw [List.mem_append, List.mem_singleton]
    exact ⟨fun h => h.elim id fun heq => heq ▸ hmem, Or.inl⟩
  have hcomplete : Complete (records ++ [kind]) ↔ Complete records :=
    and_congr (hiff _) (hiff _)
  obtain ⟨h1, h2, h3, h4, h5, h6, h7, h8⟩ := h
  unfold urlAfter at h3
  constructor
  · simpa only [hiff] using h1
  · simpa only [hiff] using h2
  · unfold urlAfter
    simpa only [hiff] using h3
  · simpa only [hiff] using h4
  · simpa only [hiff] using h5
  · simpa only [hiff] using h6
  · simpa only [hcomplete] using h7
  · simpa only [hcomplete] using h8

section Steps

variable {r} {records : List RecordKind}

theorem urlAfter_of_not_mem (hnot : .txt ∉ records) :
    urlAfter r records = if .srv ∈ records then some (srvUrl r.name r.port) else none := by
  rw [urlAfter, if_neg hnot, List.append_nil]

theorem urlAfter_append_txt : urlAfter r (records ++ [.txt]) =
    if .srv ∈ records then some
      (srvUrl r.name r.port ++ (usablePath r.path).getD []) else none := by
  simp [urlAfter]

theorem lifeInvariant_setCaps (htxt : entry.txtSet = true)
    (hsrv : entry.srvSet = decide (.srv ∈ records)) (hcaps : entry.serverCapabilities = none)
    (hurl : entry.discoveryUrl.map Prod.snd = urlAfter r (records ++ [.txt]))
    (hcached : .srv ∉ records → entry.pathTmp.map Prod.snd = usablePath r.path)
    (hbalanced : ¬ (.srv ∈ records ∧ (usablePath r.path).isSome = true) → Balanced (l, entry))
    (hleaks : .srv ∈ records ∧ (usablePath r.path).isSome = true → Leaks (l, entry)) :
    LifeInvariant r (records ++ [.txt]) (setCaps r.caps l entry) := by
  have hmem : .txt ∈ records ++ [.txt] := List.mem_append_right _ (List.mem_singleton_self _)
  have hother : .srv ∈ records ++ [.txt] ↔ .srv ∈ records := by simp
  have hcomplete : Complete (records ++ [.txt]) ↔ .srv ∈ records := by
    rw [Complete, hother]
    exact and_iff_left hmem
  obtain ⟨l', new, hset, hreleased, htexts, -⟩ := setCaps_spec (l := l) r.caps hcaps
  constructor
  · rw [hset, decide_eq_true hmem]
    exact htxt
  · rw [hset, hsrv]
    simp only [hother]
  · rw [hset]
    exact hurl
  · rw [hset, if_pos hmem]
    exact htexts
  · intro hnot
    rw [hset, if_pos hmem]
    exact hcached (mt hother.mpr hnot)
  · exact fun hnot => absurd hmem hnot
  · intro hnot
    rw [hcomplete] at hnot
    exact balanced_setCaps (hbalanced hnot) hcaps r.caps
  · intro hboth
    rw [hcomplete] at hboth
    exact leaks_setCaps (hleaks hboth) hcaps r.caps

theorem LifeInvariant.setTxt (h : LifeInvariant r records (l, entry)) (hnot : .txt ∉ records) :
    LifeInvariant r (records ++ [.txt]) (setTxtMemory r.path r.caps l entry) := by
  have hbalanced : Balanced (l, entry) := h.balanced fun hboth => hnot hboth.1.2
  have htmp : entry.pathTmp = none := h.uncached hnot
  have hcaps : entry.serverCapabilities = none := by
    have htexts := h.caps
    rw [if_neg hnot] at htexts
    exact Option.map_eq_none_iff.mp htexts
  have hurl := h.url
  rw [urlAfter_of_not_mem hnot] at hurl
  unfold setTxtMemory setPath
  cases hpath : usablePath r.path with
  | none =>
    refine lifeInvariant_setCaps rfl h.srvSet hcaps ?_ ?_ (fun _ => hbalanced) ?_
    · rw [urlAfter_append_txt, hpath, Option.getD_none, List.append_nil]
      exact hurl
    · intro _
      rw [hpath]
      exact congrArg (Option.map Prod.snd) htmp
    · rintro ⟨-, hsome⟩
      rw [hpath] at hsome
      cases hsome
  | some path =>
    have hsome : (usablePath r.path).isSome = true := by rw [hpath]; rfl
    by_cases hsrv : .srv ∈ records
    · have hset : entry.srvSet = true := h.srvSet.trans (decide_eq_true hsrv)
      rw [if_pos hsrv] at hurl
      obtain ⟨url, hblock, htext⟩ := Option.map_eq_some_iff.mp hurl
      have hleaks := leaks_append hbalanced hblock (url.2 ++ path)
      dsimp only
      rw [if_neg (by rw [hset]; nofun), appendPathToUrl, hblock]
      refine lifeInvariant_setCaps rfl h.srvSet hcaps ?_ (absurd hsrv) ?_ fun _ => hleaks
      · rw [urlAfter_append_txt, if_pos hsrv, hpath, ← htext]
        rfl
      · exact fun hnot => absurd ⟨hsrv, hsome⟩ hnot
    · have hset : entry.srvSet = false := h.srvSet.trans (decide_eq_false hsrv)
      rw [if_neg hsrv] at hurl
      dsimp only
      rw [if_pos hset]
      refine lifeInvariant_setCaps rfl h.srvSet hcaps ?_ (fun _ => hpath.symm) (fun _ => ?_) ?_
      · rw [urlAfter_append_txt, if_neg hsrv]
        exact hurl
      · exact balanced_cache hbalanced htmp path
      · exact fun hboth => absurd hboth.1 hsrv

theorem LifeInvariant.setSrv (h : LifeInvariant r records (l, entry)) (hnot : .srv ∉ records) :
    LifeInvariant r (records ++ [.srv]) (setSrvMemory r.name r.port l entry) := by
  have hmem : .srv ∈ records ++ [.srv] := List.mem_append_right _ (List.mem_singleton_self _)
  have hother : .txt ∈ records ++ [.srv] ↔ .txt ∈ records := by simp
  have hcomplete : Complete (records ++ [.srv]) ↔ .txt ∈ records := by
    rw [Complete, hother]
    exact and_iff_right hmem
  have hbalanced : Balanced (l, entry) := h.balanced fun hboth => hnot hboth.1.1
  have hurl : entry.discoveryUrl = none := by
    have htext := h.url
    rw [urlAfter, if_neg hnot] at htext
    exact Option.map_eq_none_iff.mp htext
  have hcached := h.cached hnot
  have hflagged : Balanced (l, { entry with srvSet := true }) := hbalanced
  have hnew : Balanced (setUrl r.name r.port l { entry with srvSet := true }) :=
    balanced_setUrl hflagged hurl r.name r.port
  cases htmp : entry.pathTmp with
  | none =>
    have hsame : setSrvMemory r.name r.port l entry =
        setUrl r.name r.port l { entry with srvSet := true } := by
      unfold setSrvMemory appendCached setUrl
      dsimp only
      rw [htmp]
    rw [htmp] at hcached
    have hunusable : .txt ∈ records → usablePath r.path = none := fun htxt => by
      rw [if_pos htxt] at hcached
      exact hcached.symm
    rw [hsame]
    constructor
    · exact h.txtSet.trans (by simp only [hother])
    · exact (decide_eq_true hmem).symm
    · rw [urlAfter, if_pos hmem]
      by_cases htxt : .txt ∈ records
      · rw [if_pos (hother.mpr htxt), hunusable htxt, Option.getD_none, List.append_nil]
        rfl
      · rw [if_neg (mt hother.mp htxt), List.append_nil]
        rfl
    · exact h.caps.trans (by simp only [hother])
    · exact absurd hmem
    · exact fun _ => htmp
    · exact fun _ => hnew
    · rintro ⟨hboth, hsome⟩
      rw [hunusable (hcomplete.mp hboth)] at hsome
      cases hsome
  | some path =>
    have htxt : .txt ∈ records := by
      rw [htmp] at hcached
      by_contra hnone
      rw [if_neg hnone] at hcached
      cases hcached
    rw [htmp, if_pos htxt] at hcached
    have hleaks : Leaks (setSrvMemory r.name r.port l entry) := leaks_appendCached hnew rfl htmp
    have hresult : ∃ l' block, setSrvMemory r.name r.port l entry = (l', { entry with
        srvSet := true, discoveryUrl := some (block, srvUrl r.name r.port ++ path.2) }) := by
      unfold setSrvMemory appendCached setUrl
      dsimp only
      rw [htmp]
      exact ⟨_, _, rfl⟩
    obtain ⟨l', block, hresult⟩ := hresult
    rw [hresult] at hleaks
    rw [hresult]
    constructor
    · exact h.txtSet.trans (by simp only [hother])
    · exact (decide_eq_true hmem).symm
    · rw [urlAfter, if_pos hmem, if_pos (hother.mpr htxt), ← hcached]
      rfl
    · exact h.caps.trans (by simp only [hother])
    · exact absurd hmem
    · exact fun hnone => absurd (hother.mpr htxt) hnone
    · refine fun hnone => absurd ⟨hcomplete.mpr htxt, ?_⟩ hnone
      rw [← hcached]
      rfl
    · exact fun _ => hleaks

theorem LifeInvariant.receive {s : Ledger × EntryMemory} (h : LifeInvariant r records s)
    (kind : RecordKind) : LifeInvariant r (records ++ [kind]) (receiveRecord r s kind) := by
  by_cases hmem : kind ∈ records
  · have hsame : receiveRecord r s kind = s := by
      cases kind with
      | txt => rw [receiveRecord_txt, h.txtSet, decide_eq_true hmem, if_neg nofun]
      | srv => rw [receiveRecord_srv, h.srvSet, decide_eq_true hmem, if_neg nofun]
    rw [hsame]
    exact h.of_mem r hmem
  · cases kind with
    | txt =>
      rw [receiveRecord_txt, if_pos (h.txtSet.trans (decide_eq_false hmem))]
      exact LifeInvariant.setTxt h hmem
    | srv =>
      rw [receiveRecord_srv, if_pos (h.srvSet.trans (decide_eq_false hmem))]
      exact LifeInvariant.setSrv h hmem

theorem lifeInvariant (r : ServerRecords) (records : List RecordKind) :
    LifeInvariant r records (life r records) := by
  induction records using List.reverseRecOn with
  | nil => exact lifeInvariant_nil r
  | append_singleton records kind ih =>
    rw [life, List.foldl_append]
    exact ih.receive kind

end Steps

/-- The contents are those of the list of servers: blocks are forgotten. -/
def EntryMemory.erase (record : Text) (recordId : UInt32) (serverName : Text)
    (entry : EntryMemory) :
    ListEntry where
  record := record
  pathTmp := entry.pathTmp.map Prod.snd
  txtSet := entry.txtSet
  srvSet := entry.srvSet
  serverOnNetwork :=
    ⟨recordId, serverName, entry.discoveryUrl.elim [] Prod.snd,
      entry.serverCapabilities.elim [] fun caps => caps.2.map Prod.snd⟩

def ServerRecords.data (r : ServerRecords) : RecordKind → ResourceData
  | .srv => .srv r.name r.port
  | .txt => .txt r.path r.caps

theorem erase_setTxtMemory (r : ServerRecords) (record : Text) (recordId : UInt32)
    (serverName : Text) : (setTxtMemory r.path r.caps l entry).2.erase record recordId serverName =
      setTxt r.path r.caps (entry.erase record recordId serverName) := by
  have htexts : ∀ (l : Ledger) (texts : List Text), (copyAll l texts).2.map Prod.snd = texts :=
    fun l texts => (copyAll_spec l texts).2.1
  unfold setTxtMemory setPath setCaps setTxt appendPathToUrl EntryMemory.erase
  dsimp only
  cases usablePath r.path with
  | none =>
    cases r.caps.filter fun caps => caps.length > 0 with
    | none => rfl
    | some caps => simp [htexts]
  | some path =>
    cases hsrv : entry.srvSet <;> cases r.caps.filter fun caps => caps.length > 0 <;>
      simp [htexts]

theorem erase_setSrvMemory (r : ServerRecords) (record : Text) (recordId : UInt32)
    (serverName : Text) : (setSrvMemory r.name r.port l entry).2.erase record recordId serverName =
      setSrv r.name r.port (entry.erase record recordId serverName) := by
  unfold setSrvMemory setUrl appendCached setSrv appendPathToUrl EntryMemory.erase
  dsimp only
  cases entry.pathTmp <;> rfl

theorem erase_receiveRecord (r : ServerRecords) (s : Ledger × EntryMemory) (kind : RecordKind)
    (record : Text) (recordId : UInt32) (serverName : Text) :
    (receiveRecord r s kind).2.erase record recordId serverName =
      addResource (r.data kind) (s.2.erase record recordId serverName) := by
  cases kind with
  | txt =>
    rw [receiveRecord_txt, ServerRecords.data, addResource_txt, ← erase_setTxtMemory (l := s.1),
      apply_ite fun s : Ledger × EntryMemory => s.2.erase record recordId serverName]
    rfl
  | srv =>
    rw [receiveRecord_srv, ServerRecords.data, addResource_srv, ← erase_setSrvMemory (l := s.1),
      apply_ite fun s : Ledger × EntryMemory => s.2.erase record recordId serverName]
    rfl

/-- The order of the records does not matter to the URL and the capabilities. Each block is released
once, except where a path has been joined to the URL. -/
theorem life_spec (r : ServerRecords) :
    (∀ records records', Complete records → Complete records' →
        (life r records).2.contents = (life r records').2.contents) ∧
      ∀ records, (releaseEntry (life r records).1 (life r records).2).ReleasedOnce ↔
        ¬ (Complete records ∧ (usablePath r.path).isSome = true) := by
  constructor
  · intro records records' hcomplete hcomplete'
    have h := lifeInvariant r records
    have h' := lifeInvariant r records'
    unfold EntryMemory.contents
    rw [h.url, h'.url, h.caps, h'.caps, urlAfter, urlAfter, if_pos hcomplete.1, if_pos hcomplete.2,
      if_pos hcomplete'.1, if_pos hcomplete'.2, if_pos hcomplete.2, if_pos hcomplete'.2]
  · intro records
    rw [releasedOnce_releaseEntry]
    exact ⟨fun hbalanced hboth => ((lifeInvariant r records).leaks hboth).not_balanced hbalanced,
      (lifeInvariant r records).balanced⟩

def pathServer : ServerRecords := ⟨ascii "host.", 4840, some (ascii "/ua"), some (ascii "LDS,DA")⟩

/-- With the TXT record first the cached path is released twice. -/
theorem pathServer_released_twice :
    ¬ (releaseEntry (life pathServer [.txt, .srv]).1
      (life pathServer [.txt, .srv]).2).ReleasedOnce := by
  unfold Ledger.ReleasedOnce
  decide +kernel

end FactoryThing.Multicast
