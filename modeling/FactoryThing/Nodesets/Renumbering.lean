import FactoryThing.Nodesets.Numbering

/-!
# Renumbering as a substitution

The preprocessor gives every namespace one index in all documents. It replaces the indices one after
the other in the texts, and that is the substitution it is meant to be just if no index that has
been put in is replaced again and the texts have the index in one place only.
-/

namespace FactoryThing.Nodesets

open MostFrequent SequentialRenaming PreProcessDocument

/-! ## What is linked -/

variable {docs : List PreProcessDocument} {p : PreProcessDocument × Int}

/-- The indices of other documents that a document refers to. -/
def foreign (p : PreProcessDocument × Int) : List Int :=
  p.1.getNamespaceDependencies.filter fun d => d ≠ 0 ∧ d ≠ p.2 ∧ d ≠ p.1.getNamespaceId

def steps (docs : List PreProcessDocument) (p : PreProcessDocument × Int) : List (Int × Int) :=
  (foreign p).map fun d => (d, target docs p.1 d)

/-- The reference that the preprocessor makes of one. -/
def finalReference (docs : List PreProcessDocument) (p : PreProcessDocument × Int) (ref : Entry) :
    Entry :=
  (ref.pass (p.1.getNamespaceId, p.2)).passes (steps docs p)

/-- The document that the preprocessor makes of one. -/
def final (docs : List PreProcessDocument) (p : PreProcessDocument × Int) : PreProcessDocument :=
  { assigned p with referencedNodes := p.1.referencedNodes.map (finalReference docs p) }

theorem mem_foreign {d : Int} :
    d ∈ foreign p ↔ (∃ ref ∈ p.1.referencedNodes, ref.id.ns = d) ∧
      d ≠ 0 ∧ d ≠ p.2 ∧ d ≠ p.1.getNamespaceId := by
  rw [foreign, List.mem_filter, getNamespaceDependencies, mem_firsts, List.mem_map,
    decide_eq_true_iff]

theorem nodup_steps (docs : List PreProcessDocument) (p : PreProcessDocument × Int) :
    ((steps docs p).map Prod.fst).Nodup := by
  rw [steps, List.map_map]
  exact (List.map_id (foreign p)).symm ▸ (nodup_firsts _).filter _

theorem dependencies_assigned (h : p ∈ numbered docs) :
    ((assigned p).getNamespaceDependencies.filter fun d => d ≠ p.2 ∧ d ≠ 0) = foreign p := by
  rw [foreign, getNamespaceDependencies, getNamespaceDependencies, referencedNodes_assigned h,
    filter_firsts, filter_firsts, List.map_map]
  refine congrArg firsts ?_
  induction p.1.referencedNodes with
  | nil => rfl
  | cons ref refs ih =>
    have hns : (ref.pass (p.1.getNamespaceId, p.2)).id.ns =
        rename (p.1.getNamespaceId, p.2) ref.id.ns := congrArg OpcuaNodeId.ns (id_pass ref _)
    rw [List.map_cons, List.map_cons, List.filter_cons, List.filter_cons, ih, Function.comp_apply,
      hns]
    by_cases hown : ref.id.ns = p.1.getNamespaceId
    · have hrename : rename (p.1.getNamespaceId, p.2) ref.id.ns = p.2 := if_pos hown
      rw [hrename]
      simp [hown]
    · rw [rename_of_ne (r := (p.1.getNamespaceId, p.2)) hown]
      simp [hown, and_comm]

theorem foldlM_linkDependency {nsid : Int} {newIds : Int → Int} {deps : List Int}
    {doc : PreProcessDocument}
    (h : ∀ d ∈ deps, d ≠ nsid → d ≠ 0 → ∃ uri tgt, doc.getReferencedNamespaceUri d = some uri ∧
      docs.find? (fun tgt => tgt.getReferencedNamespaceUri 1 = some uri) = some tgt ∧
      tgt.getNamespaceId = newIds d) :
    deps.foldlM (linkDependency docs nsid) (doc, []) =
      some ({ doc with
        referencedNodes := doc.referencedNodes.map
          (Entry.passes ((deps.filter fun d => d ≠ nsid ∧ d ≠ 0).map fun d => (d, newIds d))) },
        []) := by
  induction deps generalizing doc with
  | nil =>
    have hid : Entry.passes [] = id := rfl
    simp [hid]
  | cons d deps ih =>
    obtain ⟨hd, hdeps⟩ := List.forall_mem_cons.mp h
    rw [List.foldlM_cons]
    by_cases hne : d ≠ nsid ∧ d ≠ 0
    · obtain ⟨uri, tgt, huri, hfind, hid⟩ := hd hne.1 hne.2
      have hstep : linkDependency docs nsid (doc, []) d =
          some (doc.reassignReferencedNamespaceId d (newIds d), []) := by
        rw [linkDependency, if_pos hne, huri, Option.bind_eq_bind, Option.bind_some, hfind, ← hid]
        rfl
      rw [hstep, Option.bind_eq_bind, Option.bind_some,
        @ih (doc.reassignReferencedNamespaceId d (newIds d)) hdeps,
        List.filter_cons, if_pos (decide_eq_true hne), List.map_cons]
      congr 3
      rw [reassignReferencedNamespaceId, List.map_map]
      rfl
    · have hstep : linkDependency docs nsid (doc, []) d = some (doc, []) := if_neg hne
      rw [hstep, Option.bind_eq_bind, Option.bind_some, ih hdeps, List.filter_cons,
        if_neg (by simpa using hne)]

theorem linkDocument_assigned (hresolvable : Resolvable docs) (h : p ∈ numbered docs) :
    linkDocument (assignUniqueNsIds docs) (assigned p) = some (final docs p, []) := by
  rw [linkDocument, getNamespaceId_assigned h]
  have hfound : ∀ d ∈ (assigned p).getNamespaceDependencies, d ≠ p.2 → d ≠ 0 →
      ∃ uri tgt, (assigned p).getReferencedNamespaceUri d = some uri ∧
        (assignUniqueNsIds docs).find? (fun tgt => tgt.getReferencedNamespaceUri 1 = some uri) =
          some tgt ∧
        tgt.getNamespaceId = target docs p.1 d := by
    intro d hd hindex hzero
    have hforeign : d ∈ foreign p := by
      rw [← dependencies_assigned h]
      exact List.mem_filter.mpr ⟨hd, decide_eq_true ⟨hindex, hzero⟩⟩
    obtain ⟨⟨ref, href, rfl⟩, -⟩ := mem_foreign.mp hforeign
    obtain ⟨q, hq, hfind, huri, -⟩ := hresolvable.lookUp (mem_of_mem_numbered h) href hzero
    obtain ⟨uri, hone⟩ := getReferencedNamespaceUri_one q.1
    refine ⟨uri, assigned q, huri.symm.trans hone, ?_, ?_⟩
    · rw [assignUniqueNsIds_eq, List.find?_map]
      rw [lookUp, ← huri, hone] at hfind
      exact congrArg (Option.map assigned) hfind
    · rw [getNamespaceId_assigned hq, target, hfind]
      rfl
  rw [foldlM_linkDependency hfound, dependencies_assigned h, referencedNodes_assigned h,
    List.map_map]
  rfl

theorem mapM_eq_some {α β : Type} {f : α → Option β} {g : α → β} {l : List α}
    (h : ∀ x ∈ l, f x = some (g x)) : l.mapM f = some (l.map g) := by
  induction l with
  | nil => rfl
  | cons x l ih =>
    obtain ⟨hx, hl⟩ := List.forall_mem_cons.mp h
    rw [List.mapM_cons, hx, ih hl]
    rfl

theorem preprocess_eq (hresolvable : Resolvable docs) :
    preprocess docs = some ((numbered docs).map (final docs)) := by
  have hlinked : (assignUniqueNsIds docs).mapM (linkDocument (assignUniqueNsIds docs)) =
      some ((numbered docs).map fun p => (final docs p, [])) := by
    conv_lhs => rw [assignUniqueNsIds_eq]
    rw [List.mapM_map]
    exact mapM_eq_some fun p hp =>
      (assignUniqueNsIds_eq docs) ▸ linkDocument_assigned hresolvable hp
  have hquiet : ∀ (tgts : List PreProcessDocument) (ps : List (PreProcessDocument × Int)),
      (ps.map fun p => (final docs p, ([] : List Int))).forM
        (fun linked => linked.2.forM (revertToStochastic tgts linked.1)) = some () := by
    intro tgts ps
    induction ps with
    | nil => rfl
    | cons p ps ih => exact ih
  rw [preprocess, linkDependantModels, hlinked, Option.bind_eq_bind, Option.bind_some]
  show (_ >>= fun _ => _) = _
  rw [hquiet, List.map_map]
  rfl

/-- An entry keeps its identifier under an index, in the node id and in the text. -/
def Keeps (e e' : Entry) (n : Int) : Prop :=
  e'.id = { e.id with ns := n } ∧ OpcuaNodeId.read e'.text = some e'.id

/-- Every node of a document keeps its identifier, those of its own namespace under the new index,
and every reference is to the same node, in the document with the URI that its index denoted. -/
structure DocumentRenumbered (pairs : List (PreProcessDocument × PreProcessDocument))
    (doc doc' : PreProcessDocument) : Prop where
  nodes : doc.containedNodes.Forall₂ (fun nd nd' => Keeps nd nd'
    (if nd.id.ns = doc.getNamespaceId then doc'.getNamespaceId else nd.id.ns)) doc'.containedNodes
  references : doc.referencedNodes.Forall₂ (fun ref ref' => ∃ n, Keeps ref ref' n ∧
    if ref.id.ns = 0 then n = 0
    else ∃ q ∈ pairs, q.1.getReferencedNamespaceUri 1 =
      doc.getReferencedNamespaceUri ref.id.ns ∧ q.2.getNamespaceId = n) doc'.referencedNodes

/-- The documents have indices of their own, and all of them mean what they meant before. -/
structure Renumbered (docs docs' : List PreProcessDocument) : Prop where
  nodup : (docs'.map getNamespaceId).Nodup
  documents : docs.Forall₂ (DocumentRenumbered (docs.zip docs')) docs'

/-- The text of an entry names the same identifier with another index when its index is replaced
wherever it stands in the text. -/
def Renames (e : Entry) (n : Int) : Prop :=
  OpcuaNodeId.read (replaceNs e.id.ns n e.text) = some { e.id with ns := n }

instance (e : Entry) (n : Int) : Decidable (Renames e n) := inferInstanceAs (Decidable (_ = _))

/-- The indices of the documents can be replaced one after the other. -/
structure Substitutable (docs : List PreProcessDocument) : Prop where
  /-- One document at most takes part in the namespace 0. -/
  zero : (docs.filter fun doc => doc.getNamespaceId = 0).length ≤ 1
  /-- The own index stands in the text of a node in front of the identifier only. -/
  nodes : ∀ p ∈ numbered docs, ∀ nd ∈ p.1.containedNodes,
    nd.id.ns = p.1.getNamespaceId → Renames nd p.2
  /-- So does the index in the text of a reference. -/
  references : ∀ p ∈ numbered docs, ∀ ref ∈ p.1.referencedNodes,
    ref.id.ns ≠ 0 → Renames ref (target docs p.1 ref.id.ns)
  /-- The own index and the new one are not used for another namespace. -/
  own : ∀ p ∈ numbered docs, ∀ ref ∈ p.1.referencedNodes,
    ref.id.ns ≠ 0 → ref.id.ns = p.1.getNamespaceId ∨ ref.id.ns = p.2 →
      target docs p.1 ref.id.ns = p.2
  /-- No index that is put in for another namespace is replaced afterwards. -/
  captures : ∀ p ∈ numbered docs, NoCapture (steps docs p)

theorem keeps_reassign_iff {e : Entry} {n k : Int} :
    Keeps e (e.reassign e.id.ns n) k ↔ n = k ∧ Renames e n := by
  constructor
  · rintro ⟨hid, hread⟩
    exact ⟨congrArg OpcuaNodeId.ns hid, hread⟩
  · rintro ⟨rfl, hread⟩
    exact ⟨rfl, hread⟩

/-- The documents as `analyze` makes them: the node ids are those of the texts. -/
def AsRead (doc : PreProcessDocument) : Prop :=
  (∀ nd ∈ doc.containedNodes, OpcuaNodeId.read nd.text = some nd.id) ∧
    ∀ ref ∈ doc.referencedNodes, OpcuaNodeId.read ref.text = some ref.id

variable {ref : Entry}

theorem finalReference_own (h : ref.id.ns = p.1.getNamespaceId ∨ ref.id.ns = p.2) :
    finalReference docs p ref = ref.reassign ref.id.ns p.2 := by
  have hpass : ref.pass (p.1.getNamespaceId, p.2) = ref.reassign ref.id.ns p.2 := by
    by_cases hown : ref.id.ns = p.1.getNamespaceId
    · rw [pass_of_eq (r := (p.1.getNamespaceId, p.2)) hown, hown]
    · rw [pass_of_ne (r := (p.1.getNamespaceId, p.2)) hown, ← h.resolve_left hown,
        reassign_self]
  rw [finalReference, hpass]
  refine passes_of_fixed fun step hstep heq => ?_
  obtain ⟨d, hd, rfl⟩ := List.mem_map.mp hstep
  exact absurd heq.symm (mem_foreign.mp hd).2.2.1

theorem finalReference_zero (hp : p ∈ numbered docs) (h : ref.id.ns = 0) :
    finalReference docs p ref = ref := by
  have hpass : ref.pass (p.1.getNamespaceId, p.2) = ref := by
    obtain ⟨hzero, hindex⟩ | ⟨hne, -⟩ := index_of_mem_numbered hp
    · exact pass_self (hzero.trans hindex.symm)
    · exact pass_of_ne fun heq => hne (heq.symm.trans h)
  rw [finalReference, hpass]
  refine passes_of_fixed fun step hstep heq => ?_
  obtain ⟨d, hd, rfl⟩ := List.mem_map.mp hstep
  exact absurd (heq.symm.trans h) (mem_foreign.mp hd).2.1

theorem finalReference_foreign (h : ref.id.ns ∈ foreign p) :
    finalReference docs p ref = ref.passes (steps docs p) := by
  rw [finalReference, pass_of_ne (mem_foreign.mp h).2.2.2]

/-- The new index of a reference as it is meant. -/
def meant (docs : List PreProcessDocument) (p : PreProcessDocument × Int) (ref : Entry) : Int :=
  if ref.id.ns = 0 then 0 else target docs p.1 ref.id.ns

theorem keeps_finalReference_iff (hp : p ∈ numbered docs) (hread : AsRead p.1) :
    (∀ ref ∈ p.1.referencedNodes, Keeps ref (finalReference docs p ref) (meant docs p ref)) ↔
      (∀ ref ∈ p.1.referencedNodes, ref.id.ns ≠ 0 → Renames ref (target docs p.1 ref.id.ns)) ∧
      (∀ ref ∈ p.1.referencedNodes, ref.id.ns ≠ 0 →
        ref.id.ns = p.1.getNamespaceId ∨ ref.id.ns = p.2 → target docs p.1 ref.id.ns = p.2) ∧
      NoCapture (steps docs p) := by
  have hown : ∀ ref ∈ p.1.referencedNodes, ref.id.ns ≠ 0 →
      ref.id.ns = p.1.getNamespaceId ∨ ref.id.ns = p.2 →
      (Keeps ref (finalReference docs p ref) (meant docs p ref) ↔
        p.2 = target docs p.1 ref.id.ns ∧ Renames ref p.2) := by
    intro ref _ hzero hindex
    rw [finalReference_own hindex, meant, if_neg hzero, keeps_reassign_iff]
  have hforeign : NoCapture (steps docs p) → ∀ ref, ref.id.ns ∈ foreign p →
      (Keeps ref (finalReference docs p ref) (meant docs p ref) ↔
        Renames ref (target docs p.1 ref.id.ns)) := by
    intro hfree ref hmem
    have hstep : (ref.id.ns, target docs p.1 ref.id.ns) ∈ steps docs p :=
      List.mem_map_of_mem hmem
    rw [finalReference_foreign hmem, passes_eq (nodup_steps docs p) hfree hstep rfl, meant,
      if_neg (mem_foreign.mp hmem).2.1, keeps_reassign_iff]
    exact and_iff_right rfl
  constructor
  · intro hkeeps
    have hfree : NoCapture (steps docs p) := by
      refine (renameAll_iff (nodup_steps docs p)).mp fun step hstep => ?_
      obtain ⟨d, hd, rfl⟩ := List.mem_map.mp hstep
      obtain ⟨⟨ref, href, rfl⟩, hzero, -⟩ := mem_foreign.mp hd
      have hid := (hkeeps ref href).1
      rw [finalReference_foreign hd, id_passes, meant, if_neg hzero] at hid
      exact congrArg OpcuaNodeId.ns hid
    refine ⟨fun ref href hzero => ?_, fun ref href hzero hindex => ?_, hfree⟩
    · by_cases hindex : ref.id.ns = p.1.getNamespaceId ∨ ref.id.ns = p.2
      · obtain ⟨heq, hrenames⟩ := (hown ref href hzero hindex).mp (hkeeps ref href)
        exact heq ▸ hrenames
      · rw [not_or] at hindex
        exact (hforeign hfree ref (mem_foreign.mpr
          ⟨⟨ref, href, rfl⟩, hzero, hindex.2, hindex.1⟩)).mp (hkeeps ref href)
    · exact ((hown ref href hzero hindex).mp (hkeeps ref href)).1.symm
  · rintro ⟨hrenames, htarget, hfree⟩ ref href
    by_cases hzero : ref.id.ns = 0
    · rw [finalReference_zero hp hzero, meant, if_pos hzero, Keeps, ← hzero]
      exact ⟨rfl, hread.2 ref href⟩
    · by_cases hindex : ref.id.ns = p.1.getNamespaceId ∨ ref.id.ns = p.2
      · have heq := htarget ref href hzero hindex
        exact (hown ref href hzero hindex).mpr ⟨heq.symm, heq ▸ hrenames ref href hzero⟩
      · rw [not_or] at hindex
        exact (hforeign hfree ref (mem_foreign.mpr
          ⟨⟨ref, href, rfl⟩, hzero, hindex.2, hindex.1⟩)).mpr (hrenames ref href hzero)

theorem forall_of_mapM_eq_some {α β : Type} {f : α → Option β} {P : β → Prop} {l : List α}
    {l' : List β} (h : l.mapM f = some l') (hf : ∀ x y, f x = some y → P y) : ∀ y ∈ l', P y := by
  induction l generalizing l' with
  | nil =>
    cases h
    exact fun y hy => nomatch hy
  | cons x l ih =>
    rw [List.mapM_cons] at h
    obtain ⟨y, hy, h⟩ := Option.bind_eq_some_iff.mp h
    obtain ⟨rest, hrest, h⟩ := Option.bind_eq_some_iff.mp h
    cases h
    exact List.forall_mem_cons.mpr ⟨hf x y hy, ih hrest⟩

theorem asRead_of_analyze {nodeset : Nodeset} {doc : PreProcessDocument}
    (h : nodeset.analyze = some doc) : AsRead doc := by
  have hread : ∀ text e, Entry.read text = some e → OpcuaNodeId.read e.text = some e.id := by
    intro text e he
    obtain ⟨id, hid, rfl⟩ := Option.map_eq_some_iff.mp he
    exact hid
  obtain ⟨nodes, hnodes, h⟩ := Option.bind_eq_some_iff.mp h
  obtain ⟨refs, hrefs, h⟩ := Option.bind_eq_some_iff.mp h
  cases h
  exact ⟨forall_of_mapM_eq_some hnodes hread, forall_of_mapM_eq_some hrefs hread⟩

theorem getNamespaceId_final (h : p ∈ numbered docs) : (final docs p).getNamespaceId = p.2 :=
  getNamespaceId_assigned h

theorem keeps_nodes_iff (hread : AsRead p.1) :
    (∀ nd ∈ p.1.containedNodes, Keeps nd (nd.pass (p.1.getNamespaceId, p.2))
      (if nd.id.ns = p.1.getNamespaceId then p.2 else nd.id.ns)) ↔
      ∀ nd ∈ p.1.containedNodes, nd.id.ns = p.1.getNamespaceId → Renames nd p.2 := by
  refine forall₂_congr fun nd hnd => ?_
  by_cases hns : nd.id.ns = p.1.getNamespaceId
  · rw [if_pos hns, pass_of_eq (r := (p.1.getNamespaceId, p.2)) hns, ← hns, keeps_reassign_iff]
    exact ⟨fun hrenames _ => hrenames.2, fun hrenames => ⟨rfl, hrenames rfl⟩⟩
  · rw [if_neg hns, pass_of_ne (r := (p.1.getNamespaceId, p.2)) hns]
    exact iff_of_true ⟨rfl, hread.1 nd hnd⟩ fun heq => absurd heq hns

theorem forall₂_map_iff {α β : Type} {R : α → β → Prop} {f : α → β} {l : List α} :
    l.Forall₂ R (l.map f) ↔ ∀ x ∈ l, R x (f x) := by
  rw [List.forall₂_map_right_iff, List.forall₂_same]

theorem exists_pair_iff (hresolvable : Resolvable docs) (h : p ∈ numbered docs)
    (href : ref ∈ p.1.referencedNodes) (n : Int) :
    (if ref.id.ns = 0 then n = 0
      else ∃ q ∈ (numbered docs).map fun q => (q.1, final docs q),
        q.1.getReferencedNamespaceUri 1 = p.1.getReferencedNamespaceUri ref.id.ns ∧
          q.2.getNamespaceId = n) ↔ n = meant docs p ref := by
  rw [meant]
  by_cases hzero : ref.id.ns = 0
  · rw [if_pos hzero, if_pos hzero]
  · rw [if_neg hzero, if_neg hzero]
    obtain ⟨q, hq, hfind, huri, hunique⟩ := hresolvable.lookUp (mem_of_mem_numbered h) href hzero
    have htarget : target docs p.1 ref.id.ns = q.2 := by
      rw [target, hfind]
      rfl
    rw [htarget]
    constructor
    · rintro ⟨r, hr, hruri, rfl⟩
      obtain ⟨s, hs, rfl⟩ := List.mem_map.mp hr
      exact (getNamespaceId_final hs).trans (congrArg Prod.snd (hunique s hs hruri))
    · rintro rfl
      exact ⟨_, List.mem_map_of_mem hq, huri, getNamespaceId_final hq⟩

theorem documentRenumbered_final_iff (hresolvable : Resolvable docs) (h : p ∈ numbered docs)
    (hread : AsRead p.1) :
    DocumentRenumbered ((numbered docs).map fun q => (q.1, final docs q)) p.1 (final docs p) ↔
      (∀ nd ∈ p.1.containedNodes, nd.id.ns = p.1.getNamespaceId → Renames nd p.2) ∧
      ∀ ref ∈ p.1.referencedNodes, Keeps ref (finalReference docs p ref) (meant docs p ref) := by
  have hreferences : (∀ ref ∈ p.1.referencedNodes, ∃ n, Keeps ref (finalReference docs p ref) n ∧
      if ref.id.ns = 0 then n = 0
      else ∃ q ∈ (numbered docs).map fun q => (q.1, final docs q),
        q.1.getReferencedNamespaceUri 1 = p.1.getReferencedNamespaceUri ref.id.ns ∧
          q.2.getNamespaceId = n) ↔
      ∀ ref ∈ p.1.referencedNodes, Keeps ref (finalReference docs p ref) (meant docs p ref) := by
    refine forall₂_congr fun ref href => ?_
    simp only [exists_pair_iff hresolvable h href, exists_eq_right]
  refine Iff.trans ⟨fun hdoc => And.intro hdoc.nodes hdoc.references,
    fun hdoc => ⟨hdoc.1, hdoc.2⟩⟩ (and_congr ?_ (forall₂_map_iff.trans hreferences))
  rw [getNamespaceId_final h]
  exact forall₂_map_iff.trans (keeps_nodes_iff hread)

/-- The documents in the order of the result. -/
def reordered (docs : List PreProcessDocument) : List PreProcessDocument :=
  docs.filter (fun doc => doc.getNamespaceId = 0) ++ docs.filter fun doc => doc.getNamespaceId ≠ 0

/-- The preprocessor renumbers the documents just if their indices can be replaced in turn. -/
theorem preprocess_renumbered_iff {nodesets : List Nodeset} {docs : List PreProcessDocument}
    (hread : nodesets.mapM Nodeset.analyze = some docs) (hresolvable : Resolvable docs) :
    (∃ docs', preprocess docs = some docs' ∧ Renumbered (reordered docs) docs') ↔
      Substitutable docs := by
  have hasRead : ∀ doc ∈ docs, AsRead doc :=
    forall_of_mapM_eq_some hread fun _ _ => asRead_of_analyze
  have hnodup : (((numbered docs).map (final docs)).map getNamespaceId).Nodup ↔
      (docs.filter fun doc => doc.getNamespaceId = 0).length ≤ 1 := by
    rw [← nodup_map_snd_numbered_iff, List.map_map]
    exact iff_of_eq (congrArg List.Nodup
      (List.map_congr_left fun p hp => getNamespaceId_final hp))
  have hdocuments : (reordered docs).Forall₂
      (DocumentRenumbered ((reordered docs).zip ((numbered docs).map (final docs))))
      ((numbered docs).map (final docs)) ↔
      ∀ p ∈ numbered docs,
        (∀ nd ∈ p.1.containedNodes, nd.id.ns = p.1.getNamespaceId → Renames nd p.2) ∧
        (∀ ref ∈ p.1.referencedNodes, ref.id.ns ≠ 0 → Renames ref (target docs p.1 ref.id.ns)) ∧
        (∀ ref ∈ p.1.referencedNodes, ref.id.ns ≠ 0 →
          ref.id.ns = p.1.getNamespaceId ∨ ref.id.ns = p.2 → target docs p.1 ref.id.ns = p.2) ∧
        NoCapture (steps docs p) := by
    rw [reordered, ← map_fst_numbered, List.zip_map', List.forall₂_map_left_iff, forall₂_map_iff]
    refine forall₂_congr fun p hp => ?_
    have hp' := hasRead p.1 (mem_of_mem_numbered hp)
    rw [documentRenumbered_final_iff hresolvable hp hp', keeps_finalReference_iff hp hp']
  rw [preprocess_eq hresolvable]
  constructor
  · rintro ⟨docs', heq, hrenumbered⟩
    cases heq
    have hall := hdocuments.mp hrenumbered.documents
    exact ⟨hnodup.mp hrenumbered.nodup, fun p hp => (hall p hp).1, fun p hp => (hall p hp).2.1,
      fun p hp => (hall p hp).2.2.1, fun p hp => (hall p hp).2.2.2⟩
  · intro h
    exact ⟨_, rfl, hnodup.mpr h.zero, hdocuments.mpr fun p hp =>
      ⟨h.nodes p hp, h.references p hp, h.own p hp, h.captures p hp⟩⟩

/-- A model with the namespace `A` and one node. -/
def baseModel : Nodeset where
  aliases := []
  nodeIds := [nsText 1 ++ [';', 'i', '=', '5']]
  references := []
  namespaceOrder := [(1, ['A'])]
  referencedNamesSpaceUris := []

/-- A model with the namespace `B` that calls the other one 2 and refers to its node. -/
def dependentModel : Nodeset where
  aliases := []
  nodeIds := [nsText 1 ++ [';', 'i', '=', '1']]
  references := [nsText 2 ++ [';', 'i', '=', '5'], nsText 1 ++ [';', 'i', '=', '1']]
  namespaceOrder := [(1, ['B']), (2, ['A'])]
  referencedNamesSpaceUris := []

/-- The reference to the other model is linked when that one comes first. -/
theorem preprocess_renumbered_base_first :
    ∃ docs, [baseModel, dependentModel].mapM Nodeset.analyze = some docs ∧
      ∃ docs', preprocess docs = some docs' ∧ Renumbered (reordered docs) docs' := by
  obtain ⟨docs, hdocs⟩ : ∃ docs, [baseModel, dependentModel].mapM Nodeset.analyze = some docs :=
    ⟨_, rfl⟩
  refine ⟨docs, hdocs, (preprocess_renumbered_iff hdocs ?_).mpr ?_⟩
  · cases hdocs
    decide
  · cases hdocs
    exact ⟨by decide, by decide, by decide, by decide, by decide⟩

/-- When it comes last, its index is given to the model that refers to it, and the reference is
taken for one within this model. -/
theorem preprocess_not_renumbered_base_last :
    ¬ ∀ (nodesets : List Nodeset) (docs : List PreProcessDocument),
      nodesets.mapM Nodeset.analyze = some docs → Resolvable docs →
        ∃ docs', preprocess docs = some docs' ∧ Renumbered (reordered docs) docs' := by
  intro hclaim
  obtain ⟨docs, hdocs⟩ : ∃ docs, [dependentModel, baseModel].mapM Nodeset.analyze = some docs :=
    ⟨_, rfl⟩
  have hresolvable : Resolvable docs := by
    cases hdocs
    decide
  obtain ⟨docs', hdocs', hrenumbered⟩ := hclaim _ docs hdocs hresolvable
  cases hdocs
  cases hdocs'
  obtain _ | ⟨hdoc, -⟩ := hrenumbered.documents
  obtain _ | ⟨⟨n, hkeeps, hn⟩, -⟩ := hdoc.references
  have hindex : n = 2 := (congrArg OpcuaNodeId.ns hkeeps.1).symm
  subst hindex
  revert hn
  decide

end FactoryThing.Nodesets
