import FactoryThing.Nodesets.Passes
import Mathlib.Data.List.Forall2

/-!
# The numbers of the documents

The documents in the order and with the indices that `assignUniqueNsIds` gives them, and what the
linking makes of them when every URI that is referenced is that of one document.
-/

namespace FactoryThing.Nodesets

open MostFrequent SequentialRenaming PreProcessDocument

/-! ## Numbers -/

def numberFrom : Int → List PreProcessDocument → List (PreProcessDocument × Int)
  | _, [] => []
  | nsidx, doc :: docs => (doc, nsidx + 1) :: numberFrom (nsidx + 1) docs

/-- The documents in their new order, with their new indices. -/
def numbered (docs : List PreProcessDocument) : List (PreProcessDocument × Int) :=
  (docs.filter fun doc => doc.getNamespaceId = 0).map (·, 0) ++
    numberFrom 1 (docs.filter fun doc => doc.getNamespaceId ≠ 0)

def assigned (p : PreProcessDocument × Int) : PreProcessDocument :=
  p.1.reassignNamespaceId p.1.getNamespaceId p.2

variable {docs : List PreProcessDocument} {p : PreProcessDocument × Int}

theorem map_fst_numberFrom (nsidx : Int) (docs : List PreProcessDocument) :
    (numberFrom nsidx docs).map Prod.fst = docs := by
  induction docs generalizing nsidx with
  | nil => rfl
  | cons doc docs ih => rw [numberFrom, List.map_cons, ih]

theorem lt_of_mem_numberFrom {nsidx : Int} (h : p ∈ numberFrom nsidx docs) : nsidx < p.2 := by
  induction docs generalizing nsidx with
  | nil => cases h
  | cons doc docs ih =>
    obtain rfl | h := List.mem_cons.mp h
    · exact Int.lt_succ nsidx
    · exact Int.lt_trans (Int.lt_succ nsidx) (ih h)

theorem nodup_map_snd_numberFrom (nsidx : Int) (docs : List PreProcessDocument) :
    ((numberFrom nsidx docs).map Prod.snd).Nodup := by
  induction docs generalizing nsidx with
  | nil => exact List.nodup_nil
  | cons doc docs ih =>
    refine List.nodup_cons.mpr ⟨fun hmem => ?_, ih (nsidx + 1)⟩
    obtain ⟨p, hp, heq⟩ := List.mem_map.mp hmem
    exact absurd heq (Int.ne_of_gt (lt_of_mem_numberFrom hp))

theorem map_fst_numbered (docs : List PreProcessDocument) :
    (numbered docs).map Prod.fst = docs.filter (fun doc => doc.getNamespaceId = 0) ++
      docs.filter fun doc => doc.getNamespaceId ≠ 0 := by
  rw [numbered, List.map_append, List.map_map, map_fst_numberFrom]
  exact congrArg (· ++ _) (List.map_id _)

theorem perm_map_fst_numbered (docs : List PreProcessDocument) :
    ((numbered docs).map Prod.fst).Perm docs := by
  rw [map_fst_numbered]
  have h := List.filter_append_perm (fun doc => decide (doc.getNamespaceId = 0)) docs
  simpa only [decide_not] using h

theorem mem_of_mem_numbered (h : p ∈ numbered docs) : p.1 ∈ docs :=
  (perm_map_fst_numbered docs).mem_iff.mp (List.mem_map_of_mem h)

theorem index_of_mem_numbered (h : p ∈ numbered docs) :
    p.1.getNamespaceId = 0 ∧ p.2 = 0 ∨ p.1.getNamespaceId ≠ 0 ∧ 1 < p.2 := by
  obtain h | h := List.mem_append.mp h
  · obtain ⟨doc, hdoc, rfl⟩ := List.mem_map.mp h
    exact .inl ⟨of_decide_eq_true (List.mem_filter.mp hdoc).2, rfl⟩
  · have hdoc : p.1 ∈ docs.filter fun doc => doc.getNamespaceId ≠ 0 := by
      rw [← map_fst_numberFrom 1 (docs.filter _)]
      exact List.mem_map_of_mem h
    exact .inr ⟨of_decide_eq_true (List.mem_filter.mp hdoc).2, lt_of_mem_numberFrom h⟩

theorem nodup_map_snd_numbered_iff (docs : List PreProcessDocument) :
    ((numbered docs).map Prod.snd).Nodup ↔
      (docs.filter fun doc => doc.getNamespaceId = 0).length ≤ 1 := by
  have hzeros : ((docs.filter fun doc => doc.getNamespaceId = 0).map (·, (0 : Int))).map Prod.snd =
      List.replicate (docs.filter fun doc => doc.getNamespaceId = 0).length 0 := by
    rw [List.map_map, ← List.map_const]
    rfl
  rw [numbered, List.map_append, hzeros, List.nodup_append', List.nodup_replicate]
  refine ⟨fun h => h.1, fun h => ⟨h, nodup_map_snd_numberFrom _ _, ?_⟩⟩
  intro n hzero hmem
  obtain rfl := List.eq_of_mem_replicate hzero
  obtain ⟨p, hp, heq⟩ := List.mem_map.mp hmem
  have hlt := lt_of_mem_numberFrom hp
  omega

theorem reassignNamespaceId_self (doc : PreProcessDocument) (n : Int) :
    doc.reassignNamespaceId n n = doc := by
  have hpass : ∀ e : Entry, (if e.id.ns = n then e.reassign n n else e) = e := fun e =>
    pass_self (r := (n, n)) rfl
  have hrefs : ∀ (nodes refs : List Entry), nodes.foldl (fun refs nd =>
      if nd.id.ns = n then
        refs.map fun refNd =>
          if refNd.id.ns = n ∧ refNd.id.eq nd.id then refNd.reassign n n else refNd
      else refs) refs = refs := by
    intro nodes
    induction nodes with
    | nil => intro refs; rfl
    | cons nd nodes ih =>
      intro refs
      simp only [OpcuaNodeId.eq_eq_true, and_true, hpass, List.map_id', ite_self] at ih ⊢
      exact ih refs
  have haliases : doc.aliases.map (replaceNs n n) = doc.aliases := by
    rw [show replaceNs n n = id from funext fun text => replaceNs_self n text, List.map_id]
  rw [reassignNamespaceId, haliases, hrefs, List.map_congr_left fun e _ => hpass e, List.map_id']

theorem assignFrom_eq (nsidx : Int) (docs : List PreProcessDocument) :
    assignFrom nsidx docs = (numberFrom nsidx docs).map assigned := by
  induction docs generalizing nsidx with
  | nil => rfl
  | cons doc docs ih => rw [assignFrom, numberFrom, List.map_cons, ih, assigned]

theorem assignUniqueNsIds_eq (docs : List PreProcessDocument) :
    assignUniqueNsIds docs = (numbered docs).map assigned := by
  rw [assignUniqueNsIds, numbered, List.map_append, assignFrom_eq, List.map_map]
  congr 1
  conv_lhs => rw [← List.map_id (docs.filter _)]
  refine List.map_congr_left fun doc hdoc => ?_
  have hzero : doc.getNamespaceId = 0 := of_decide_eq_true (List.mem_filter.mp hdoc).2
  show doc = doc.reassignNamespaceId doc.getNamespaceId 0
  rw [hzero, reassignNamespaceId_self]

theorem getNamespaceId_assigned (h : p ∈ numbered docs) : (assigned p).getNamespaceId = p.2 := by
  obtain ⟨hzero, hindex⟩ | ⟨hne, -⟩ := index_of_mem_numbered h
  · rw [assigned, hzero, hindex, reassignNamespaceId_self, hzero]
  · exact getNamespaceId_reassignNamespaceId p.1 p.2 hne

theorem referencedNodes_assigned (h : p ∈ numbered docs) :
    (assigned p).referencedNodes =
      p.1.referencedNodes.map (Entry.pass (p.1.getNamespaceId, p.2)) := by
  obtain ⟨hzero, hindex⟩ | ⟨hne, -⟩ := index_of_mem_numbered h
  · have hid : Entry.pass (p.1.getNamespaceId, p.2) = id :=
      funext fun e => pass_self (hzero.trans hindex.symm)
    rw [hid, List.map_id, assigned, hzero, hindex, reassignNamespaceId_self]
  · exact referencedNodes_reassignNamespaceId p.1 p.2 (p.1.exists_own hne)

/-- Every URI that is referenced is that of exactly one document. The one of a document is what it
calls 1 (open62541_XMLPreprocessor.py:306-319). -/
def Resolvable (docs : List PreProcessDocument) : Prop :=
  ∀ doc ∈ docs, ∀ ref ∈ doc.referencedNodes, ref.id.ns ≠ 0 →
    docs.countP (fun tgt =>
      tgt.getReferencedNamespaceUri 1 = doc.getReferencedNamespaceUri ref.id.ns) = 1

instance (docs : List PreProcessDocument) : Decidable (Resolvable docs) :=
  inferInstanceAs (Decidable (∀ doc ∈ docs, ∀ ref ∈ doc.referencedNodes, _ → _))

/-- The document with the URI that an index of another document denotes. -/
def lookUp (docs : List PreProcessDocument) (doc : PreProcessDocument) (d : Int) :
    Option (PreProcessDocument × Int) :=
  (numbered docs).find? fun q => q.1.getReferencedNamespaceUri 1 = doc.getReferencedNamespaceUri d

/-- The new index of what an index of a document denotes. -/
def target (docs : List PreProcessDocument) (doc : PreProcessDocument) (d : Int) : Int :=
  ((lookUp docs doc d).map Prod.snd).getD 0

theorem getReferencedNamespaceUri_one (doc : PreProcessDocument) :
    ∃ uri, doc.getReferencedNamespaceUri 1 = some uri := by
  rw [getReferencedNamespaceUri]
  split
  next el _ => exact ⟨el.2, rfl⟩
  next =>
    split
    next h => exact ⟨doc.referencedNamesSpaceUris[0], List.getElem?_eq_getElem h.1⟩
    next => exact ⟨[], rfl⟩

theorem Resolvable.lookUp (h : Resolvable docs) {doc : PreProcessDocument} (hdoc : doc ∈ docs)
    {ref : Entry} (href : ref ∈ doc.referencedNodes) (hns : ref.id.ns ≠ 0) :
    ∃ q ∈ numbered docs, Nodesets.lookUp docs doc ref.id.ns = some q ∧
      q.1.getReferencedNamespaceUri 1 = doc.getReferencedNamespaceUri ref.id.ns ∧
      ∀ r ∈ numbered docs,
        r.1.getReferencedNamespaceUri 1 = doc.getReferencedNamespaceUri ref.id.ns → r = q := by
  have hcount := h doc hdoc ref href hns
  rw [← (perm_map_fst_numbered docs).countP_eq, List.countP_map, List.countP_eq_length_filter,
    List.length_eq_one_iff] at hcount
  obtain ⟨q, hq⟩ := hcount
  have hmem : ∀ r, r ∈ numbered docs ∧
      r.1.getReferencedNamespaceUri 1 = doc.getReferencedNamespaceUri ref.id.ns ↔ r = q := by
    intro r
    have := congrArg (r ∈ ·) hq
    simpa using this
  obtain ⟨hqmem, hquri⟩ := (hmem q).mpr rfl
  refine ⟨q, hqmem, ?_, hquri, fun r hr huri => (hmem r).mp ⟨hr, huri⟩⟩
  obtain ⟨r, hr⟩ : ∃ r, Nodesets.lookUp docs doc ref.id.ns = some r :=
    Option.isSome_iff_exists.mp (List.find?_isSome.mpr ⟨q, hqmem, decide_eq_true hquri⟩)
  have hfound := hr
  have huri := List.find?_some hfound
  rw [hr, (hmem r).mp ⟨List.mem_of_find?_eq_some hr, of_decide_eq_true huri⟩]

end FactoryThing.Nodesets
