import FactoryThing.Nodesets.Preprocessor

/-!
# Passes over the entries of a document

Every r of the preprocessor goes once over the entries and gives those with one index another
one. Several passes after each other change the indices as the renamings of `SequentialRenaming` do.
-/

namespace FactoryThing.Nodesets

open MostFrequent SequentialRenaming TextReplacement

def Entry.pass (r : Int × Int) (e : Entry) : Entry :=
  if e.id.ns = r.1 then e.reassign r.1 r.2 else e

def Entry.passes (steps : List (Int × Int)) (e : Entry) : Entry :=
  steps.foldl (fun e r => e.pass r) e

variable {e : Entry} {r : Int × Int} {steps : List (Int × Int)}

@[simp] theorem replaceNs_self (n : Int) (text : Str) : replaceNs n n text = text :=
  replaceAll_self (nsText_ne_nil n) text

@[simp] theorem reassign_self (e : Entry) : e.reassign e.id.ns e.id.ns = e := by
  rw [Entry.reassign, replaceNs_self]

@[simp] theorem passes_nil : e.passes [] = e := rfl

@[simp] theorem passes_cons : e.passes (r :: steps) = (e.pass r).passes steps := rfl

theorem pass_of_ne (h : e.id.ns ≠ r.1) : e.pass r = e := if_neg h

theorem pass_of_eq (h : e.id.ns = r.1) : e.pass r = e.reassign r.1 r.2 := if_pos h

theorem pass_self (h : r.1 = r.2) : e.pass r = e := by
  obtain ⟨x, y⟩ := r
  obtain rfl : x = y := h
  by_cases hx : e.id.ns = x
  · rw [pass_of_eq hx, ← hx, reassign_self]
  · exact pass_of_ne hx

theorem id_pass (e : Entry) (r : Int × Int) :
    (e.pass r).id = { e.id with ns := rename r e.id.ns } := by
  by_cases h : e.id.ns = r.1
  · rw [pass_of_eq h, rename, if_pos h]
    rfl
  · rw [pass_of_ne h, rename_of_ne h]

theorem id_passes (steps : List (Int × Int)) (e : Entry) :
    (e.passes steps).id = { e.id with ns := renameAll steps e.id.ns } := by
  induction steps generalizing e with
  | nil => rfl
  | cons r steps ih => rw [passes_cons, ih, id_pass, renameAll_cons]

theorem passes_of_fixed (h : ∀ r ∈ steps, e.id.ns = r.1 → r.2 = r.1) :
    e.passes steps = e := by
  induction steps with
  | nil => rfl
  | cons r steps ih =>
    obtain ⟨hstep, hsteps⟩ := List.forall_mem_cons.mp h
    have hpass : e.pass r = e := by
      by_cases heq : e.id.ns = r.1
      · exact pass_self (hstep heq).symm
      · exact pass_of_ne heq
    rw [passes_cons, hpass, ih hsteps]

theorem passes_eq (hnodup : (steps.map Prod.fst).Nodup) (hfree : NoCapture steps)
    (hmem : r ∈ steps) (hns : e.id.ns = r.1) :
    e.passes steps = e.reassign r.1 r.2 := by
  induction steps with
  | nil => cases hmem
  | cons first steps ih =>
    rw [List.map_cons, List.nodup_cons] at hnodup
    obtain ⟨hfirst, hfree⟩ := List.pairwise_cons.mp hfree
    obtain rfl | hmem := List.mem_cons.mp hmem
    · rw [passes_cons, pass_of_eq hns]
      exact passes_of_fixed fun later hlater heq => hfirst later hlater heq
    · have hne : e.id.ns ≠ first.1 := by
        rw [hns]
        intro heq
        exact hnodup.1 (heq ▸ List.mem_map_of_mem hmem)
      rw [passes_cons, pass_of_ne hne]
      exact ih hnodup.2 hfree hmem

namespace PreProcessDocument

variable (doc : PreProcessDocument)

@[simp] theorem getReferencedNamespaceUri_reassignNamespaceId (currentNsId newNsId nsId : Int) :
    (doc.reassignNamespaceId currentNsId newNsId).getReferencedNamespaceUri nsId =
      doc.getReferencedNamespaceUri nsId := rfl

@[simp] theorem getReferencedNamespaceUri_reassignReferencedNamespaceId
    (currentNsId newNsId nsId : Int) :
    (doc.reassignReferencedNamespaceId currentNsId newNsId).getReferencedNamespaceUri nsId =
      doc.getReferencedNamespaceUri nsId := rfl

theorem containedNodes_reassignNamespaceId (currentNsId newNsId : Int) :
    (doc.reassignNamespaceId currentNsId newNsId).containedNodes =
      doc.containedNodes.map (Entry.pass (currentNsId, newNsId)) := rfl

theorem exists_own (h : doc.getNamespaceId ≠ 0) :
    ∃ nd ∈ doc.containedNodes, nd.id.ns = doc.getNamespaceId := by
  have hne : doc.containedNodes.map (fun ndid => ndid.id.ns) ≠ [] := by
    intro hnil
    rw [getNamespaceId, hnil, mostFrequent_nil] at h
    exact h rfl
  obtain ⟨nd, hnd, hns⟩ := List.mem_map.mp (isMostFrequent_mostFrequent 0 hne).mem
  exact ⟨nd, hnd, hns⟩

theorem pass_pass (e : Entry) (x y : Int) : (e.pass (x, y)).pass (x, y) = e.pass (x, y) := by
  by_cases h : e.id.ns = x
  · by_cases hxy : x = y
    · rw [pass_self (r := (x, y)) hxy]
    · rw [pass_of_eq (r := (x, y)) h]
      exact pass_of_ne fun heq => hxy heq.symm
  · rw [pass_of_ne (r := (x, y)) h, pass_of_ne (r := (x, y)) h]

theorem referencedNodes_reassignNamespaceId {currentNsId : Int} (newNsId : Int)
    (h : ∃ nd ∈ doc.containedNodes, nd.id.ns = currentNsId) :
    (doc.reassignNamespaceId currentNsId newNsId).referencedNodes =
      doc.referencedNodes.map (Entry.pass (currentNsId, newNsId)) := by
  have hfold : ∀ (nodes : List Entry) (refs : List Entry),
      nodes.foldl (fun refs nd =>
        if nd.id.ns = currentNsId then
          refs.map fun refNd =>
            if refNd.id.ns = currentNsId ∧ refNd.id.eq nd.id then
              refNd.reassign currentNsId newNsId
            else refNd
        else refs) refs =
      if ∃ nd ∈ nodes, nd.id.ns = currentNsId then refs.map (Entry.pass (currentNsId, newNsId))
      else refs := by
    intro nodes
    induction nodes with
    | nil => simp
    | cons nd nodes ih =>
      intro refs
      simp only [OpcuaNodeId.eq_eq_true, and_true] at ih ⊢
      rw [List.foldl_cons, ih]
      have hmap : (refs.map fun refNd =>
          if refNd.id.ns = currentNsId then refNd.reassign currentNsId newNsId else refNd) =
          refs.map (Entry.pass (currentNsId, newNsId)) := rfl
      by_cases hnd : nd.id.ns = currentNsId
      · have hown : ∃ nd' ∈ nd :: nodes, nd'.id.ns = currentNsId := ⟨nd, List.mem_cons_self, hnd⟩
        rw [if_pos hnd, hmap, List.map_map, if_pos hown]
        split
        · exact List.map_congr_left fun e _ => pass_pass e _ _
        · rfl
      · have hiff : (∃ nd' ∈ nd :: nodes, nd'.id.ns = currentNsId) ↔
            ∃ nd' ∈ nodes, nd'.id.ns = currentNsId := by simp [hnd]
        rw [if_neg hnd]
        simp only [hiff]
  exact (hfold _ _).trans (if_pos h)

theorem getNamespaceId_reassignNamespaceId (newNsId : Int) (h : doc.getNamespaceId ≠ 0) :
    (doc.reassignNamespaceId doc.getNamespaceId newNsId).getNamespaceId = newNsId := by
  obtain ⟨nd, hnd, -⟩ := doc.exists_own h
  have hne : doc.containedNodes.map (fun ndid => ndid.id.ns) ≠ [] := fun hnil =>
    List.ne_nil_of_mem hnd (List.map_eq_nil_iff.mp hnil)
  have hrenamed := (isMostFrequent_mostFrequent 0 hne).rename newNsId
  have hmap : (doc.reassignNamespaceId doc.getNamespaceId newNsId).containedNodes.map
      (fun ndid => ndid.id.ns) =
      (doc.containedNodes.map fun ndid => ndid.id.ns).map
        (rename (doc.getNamespaceId, newNsId)) := by
    rw [containedNodes_reassignNamespaceId, List.map_map, List.map_map]
    exact List.map_congr_left fun nd _ => congrArg OpcuaNodeId.ns (id_pass nd _)
  rw [getNamespaceId, hmap]
  exact (isMostFrequent_mostFrequent 0 (mt List.map_eq_nil_iff.mp hne)).unique hrenamed

end PreProcessDocument

end FactoryThing.Nodesets
