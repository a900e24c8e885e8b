import FactoryThing.NodeStore.EditedNodes
import Mathlib.Data.Fintype.Basic

/-!
# Steps of edits

The invariant of the store and its threads holds in whole runs, as long as no entry is allocated at
the address of an entry from which a copy was made that is not yet stored.
-/

namespace FactoryThing.NodeStore

def EditPc.isFound {C : Type} : EditPc C → Bool
  | .found _ _ => true
  | .idle | .begun _ | .reading _ | .noCopy _ | .copied _ _ | .editing _ _ | .edited _ _
  | .replacing _ _ | .matched _ _ _ | .failed _ | .succeeded _ => false

namespace EditState

variable {α C T : Type} [DecidableEq T] {callback : C → α → StatusCode × α} {s s' : EditState α C T}
  {t u : T} {call : EditCall C} {copy entry oldEntry : Nat}

theorem Ok.goto (h : Ok callback s) (hstore : StoreOk s') (hframe : ∀ u, u ≠ t → Frame s s' u)
    (hthreads : s'.threads = s.threads) {pc : EditPc C} (hpc : ThreadOk callback s' t pc) :
    Ok callback (s'.goto t pc) := by
  refine ⟨⟨hstore.stored, hstore.retired, hstore.nodup, hstore.serials, hstore.unique⟩, fun u => ?_⟩
  show ThreadOk callback s' u (Function.update s'.threads t pc u)
  by_cases hu : u = t
  · rw [hu, Function.update_self]
    exact hpc
  · rw [Function.update_of_ne hu, hthreads]
    exact (h.2 u).frame (hframe u hu) rfl

theorem StoreOk.unlock (h : StoreOk s) (t : T) : StoreOk (s.unlock t) := by
  refine ⟨h.stored, ?_, ?_, h.serials, h.unique⟩
  · intro p hp
    obtain ⟨p', hp', rfl⟩ := List.mem_map.mp hp
    exact h.retired p' hp'
  · show ((s.retired.map _).map Prod.fst).Nodup
    rw [List.map_map]
    exact h.nodup

theorem frame_unlock (s : EditState α C T) (hu : u ≠ t) : Frame s (s.unlock t) u where
  readers hmem := List.mem_filter.mpr ⟨hmem, decide_eq_true hu⟩
  serials := Nat.le_refl _
  own _ _ he _ := he
  held a h := by
    obtain ⟨hmem, hpublic, hstored | ⟨p, hp, rfl, hwaited⟩⟩ := h
    · exact ⟨List.mem_filter.mpr ⟨hmem, decide_eq_true hu⟩, hpublic, Or.inl hstored⟩
    · exact ⟨List.mem_filter.mpr ⟨hmem, decide_eq_true hu⟩, hpublic,
        Or.inr ⟨_, List.mem_map_of_mem hp, rfl, List.mem_filter.mpr ⟨hwaited, decide_eq_true hu⟩⟩⟩
  old _ e' he' := Or.inl ⟨e', he', rfl, fun _ => rfl⟩

theorem Ok.finish (h : Ok callback s) (hstore : StoreOk s') (hframe : ∀ u, u ≠ t → Frame s s' u)
    (hthreads : s'.threads = s.threads) {retval : StatusCode} :
    Ok callback (s'.finish t call retval) := by
  have hok : Ok callback (s'.goto t .idle) := h.goto hstore hframe hthreads trivial
  exact ⟨⟨hok.1.stored, hok.1.retired, hok.1.nodup, hok.1.serials, hok.1.unique⟩, hok.2⟩

/-- What the next step of a thread can be. -/
inductive Next (callback : C → α → StatusCode × α) (s : EditState α C T) (t : T)
    (granted : Option Nat) : EditState α C T → Prop
  | lock {call : EditCall C} : s.threads t = .begun call →
      Next callback s t granted ((s.lock t).goto t (.reading call))
  | missing {call : EditCall C} : s.threads t = .reading call → s.stored = none →
      Next callback s t granted (s.goto t (.noCopy call))
  | lookup {call : EditCall C} {entry : Nat} : s.threads t = .reading call →
      s.stored = some entry → Next callback s t granted (s.goto t (.found call entry))
  | noMemory {call : EditCall C} {entry : Nat} : s.threads t = .found call entry →
      granted = none → Next callback s t granted (s.goto t (.noCopy call))
  | copy {call : EditCall C} {entry copy : Nat} {e : NodeEntry α T} :
      s.threads t = .found call entry → granted = some copy → s.heap entry = some e →
      s.heap copy = none →
      Next callback s t granted ((s.allocate t copy entry e).goto t (.copied call copy))
  | giveUp {call : EditCall C} : s.threads t = .noCopy call →
      Next callback s t granted ((s.unlock t).finish t call StatusCode.badOutOfMemory)
  | unlock {call : EditCall C} {copy : Nat} : s.threads t = .copied call copy →
      Next callback s t granted ((s.unlock t).goto t (.editing call copy))
  | refused {call : EditCall C} {copy : Nat} {e : NodeEntry α T} :
      s.threads t = .editing call copy → s.heap copy = some e →
      (callback call.edit e.node).1 ≠ StatusCode.good →
      Next callback s t granted ((s.put copy none).finish t call (callback call.edit e.node).1)
  | edit {call : EditCall C} {copy : Nat} {e : NodeEntry α T} {node : α} :
      s.threads t = .editing call copy → s.heap copy = some e →
      callback call.edit e.node = (StatusCode.good, node) →
      Next callback s t granted
        ((s.put copy (some { e with node := node })).goto t (.edited call copy))
  | relock {call : EditCall C} {copy : Nat} : s.threads t = .edited call copy →
      Next callback s t granted ((s.lock t).goto t (.replacing call copy))
  | unknown {call : EditCall C} {copy : Nat} : s.threads t = .replacing call copy →
      s.stored = none → Next callback s t granted (s.goto t (.failed call))
  | obsolete {call : EditCall C} {copy oldEntry : Nat} {e : NodeEntry α T} :
      s.threads t = .replacing call copy → s.stored = some oldEntry → s.heap copy = some e →
      some oldEntry ≠ e.orig →
      Next callback s t granted ((s.put copy none).goto t (.failed call))
  | current {call : EditCall C} {copy oldEntry : Nat} {e : NodeEntry α T} :
      s.threads t = .replacing call copy → s.stored = some oldEntry → s.heap copy = some e →
      some oldEntry = e.orig →
      Next callback s t granted (s.goto t (.matched call copy oldEntry))
  | replace {call : EditCall C} {copy oldEntry : Nat} {e : NodeEntry α T} :
      s.threads t = .matched call copy oldEntry → s.heap copy = some e →
      s.stored = some oldEntry →
      Next callback s t granted ((s.store call copy oldEntry e).goto t (.succeeded call))
  | replaced {call : EditCall C} {copy oldEntry : Nat} {e : NodeEntry α T} :
      s.threads t = .matched call copy oldEntry → s.heap copy = some e →
      s.stored ≠ some oldEntry →
      Next callback s t granted ((s.put copy none).goto t (.failed call))
  | retry {call : EditCall C} : s.threads t = .failed call →
      Next callback s t granted ((s.unlock t).goto t (.begun call))
  | succeed {call : EditCall C} : s.threads t = .succeeded call →
      Next callback s t granted ((s.unlock t).finish t call StatusCode.good)

theorem next_cases {granted : Option Nat} (hnext : s.next callback t granted = some s') :
    Next callback s t granted s' := by
  unfold next at hnext
  cases hpc : s.threads t with
  | idle => simp only [hpc, reduceCtorEq] at hnext
  | begun call =>
    simp only [hpc, Option.some.injEq] at hnext
    exact hnext ▸ Next.lock hpc
  | reading call =>
    simp only [hpc] at hnext
    split at hnext
    · exact Option.some.inj hnext ▸ Next.missing hpc ‹_›
    · exact Option.some.inj hnext ▸ Next.lookup hpc ‹_›
  | found call entry =>
    simp only [hpc] at hnext
    split at hnext
    · exact Option.some.inj hnext ▸ Next.noMemory hpc rfl
    · split at hnext
      · exact Option.some.inj hnext ▸ Next.copy hpc rfl ‹_› ‹_›
      · cases hnext
  | noCopy call =>
    simp only [hpc, Option.some.injEq] at hnext
    exact hnext ▸ Next.giveUp hpc
  | copied call copy =>
    simp only [hpc, Option.some.injEq] at hnext
    exact hnext ▸ Next.unlock hpc
  | editing call copy =>
    simp only [hpc] at hnext
    split at hnext
    · cases hnext
    · rename_i e he
      split at hnext
      · rename_i hgood
        exact Option.some.inj hnext ▸ Next.edit hpc he (Prod.ext hgood rfl)
      · rename_i hretval
        exact Option.some.inj hnext ▸ Next.refused hpc he hretval
  | edited call copy =>
    simp only [hpc, Option.some.injEq] at hnext
    exact hnext ▸ Next.relock hpc
  | replacing call copy =>
    simp only [hpc] at hnext
    split at hnext
    · exact Option.some.inj hnext ▸ Next.unknown hpc ‹_›
    · rename_i oldEntry e hstored he
      split at hnext
      · rename_i horig
        exact Option.some.inj hnext ▸ Next.obsolete hpc hstored he horig
      · rename_i horig
        exact Option.some.inj hnext ▸ Next.current hpc hstored he (not_not.mp horig)
    · cases hnext
  | matched call copy oldEntry =>
    simp only [hpc] at hnext
    split at hnext
    · cases hnext
    · rename_i e he
      split at hnext
      · exact Option.some.inj hnext ▸ Next.replace hpc he ‹_›
      · exact Option.some.inj hnext ▸ Next.replaced hpc he ‹_›
  | failed call =>
    simp only [hpc, Option.some.injEq] at hnext
    exact hnext ▸ Next.retry hpc
  | succeeded call =>
    simp only [hpc, Option.some.injEq] at hnext
    exact hnext ▸ Next.succeed hpc

/-- No thread has a copy of an entry that was at the address where a copy is allocated. -/
def FreshAddress (s : EditState α C T) : EditAction C T → Prop
  | .next t (some address) => (s.threads t).isFound = true →
      ∀ u, ∀ copy ∈ (s.threads u).copy?, ∀ e ∈ s.heap copy, e.orig ≠ some address
  | .next _ none | .call _ _ | .reclaim _ => True

instance [Fintype T] (s : EditState α C T) : DecidablePred (FreshAddress s)
  | .next _ (some _) => inferInstanceAs (Decidable (_ → _))
  | .next _ none | .call _ _ | .reclaim _ => isTrue trivial

theorem Ok.next (h : Ok callback s) {granted : Option Nat}
    (hfresh : FreshAddress s (.next t granted))
    (hnext : s.next callback t granted = some s') : Ok callback s' := by
  have hrefl : ∀ u, u ≠ t → Frame s s u := fun u _ => Frame.refl s u
  have hlock : ∀ u, u ≠ t → Frame s (s.lock t) u := fun u _ => frame_lock s t u
  have hunlock : ∀ u, u ≠ t → Frame s (s.unlock t) u := fun u hu => frame_unlock s hu
  have hnone : ∀ {e : NodeEntry α T} (e' : NodeEntry α T), none = some e' → e'.serial = e.serial :=
    fun _ h => nomatch h
  cases next_cases hnext with
  | lock hpc => exact h.goto (h.1.lock t) hlock rfl List.mem_cons_self
  | missing hpc hstored =>
    have hreader : t ∈ s.readers := h.own hpc
    exact h.goto h.1 hrefl rfl hreader
  | lookup hpc hstored =>
    obtain ⟨a, ha, hpublic⟩ := h.1.stored
    rw [hstored] at ha
    cases ha
    exact h.goto h.1 hrefl rfl ⟨h.own hpc, hpublic, Or.inl hstored⟩
  | noMemory hpc hgranted => exact h.goto h.1 hrefl rfl (h.own hpc).1
  | @copy call entry copy e hpc hgranted hentry hfree =>
    subst hgranted
    obtain ⟨hreader, ⟨e', he', hpublic⟩, -⟩ := h.own hpc
    rw [hentry] at he'
    cases he'
    exact h.goto (h.1.allocate hfree)
      (fun u _ => frame_allocate hfree (hfresh (congrArg EditPc.isFound hpc) u)) rfl
      ⟨hreader, CopyOk.allocate h.1 hentry hpublic hfree⟩
  | giveUp hpc => exact h.finish (h.1.unlock t) hunlock rfl
  | unlock hpc => exact h.goto (h.1.unlock t) hunlock rfl (h.own hpc).2
  | refused hpc he hretval =>
    have howner := CopyOk.owner (h.own hpc) he
    exact h.finish (h.1.put he howner hnone) (fun u hu => frame_put he howner hnone hu) rfl
  | @edit call copy e node hpc he hgood =>
    have howner := CopyOk.owner (h.own hpc) he
    have hserial : ∀ e', some { e with node := node } = some e' → e'.serial = e.serial :=
      fun _ heq => (congrArg NodeEntry.serial (Option.some.inj heq)).symm
    exact h.goto (h.1.put he howner hserial) (fun u hu => frame_put he howner hserial hu) rfl
      (CopyOk.put (h.own hpc) he hgood)
  | relock hpc =>
    exact h.goto (h.1.lock t) hlock rfl
      ⟨List.mem_cons_self, CopyOk.frame (h.own hpc) (frame_lock s t t) (congrArg EditPc.copy? hpc)⟩
  | unknown hpc hstored => exact h.goto h.1 hrefl rfl (h.own hpc).1
  | obsolete hpc hstored he horig =>
    have howner := (h.own hpc).2.owner he
    exact h.goto (h.1.put he howner hnone) (fun u hu => frame_put he howner hnone hu) rfl
      (h.own hpc).1
  | @current call copy oldEntry e hpc hstored he horig =>
    obtain ⟨hreader, hcopy⟩ := h.own hpc
    obtain ⟨a, ha, hpublic⟩ := h.1.stored
    rw [hstored] at ha
    cases ha
    exact h.goto h.1 hrefl rfl ⟨⟨hreader, hpublic, Or.inl hstored⟩, hcopy, e, he, horig.symm⟩
  | replace hpc he hstored =>
    obtain ⟨⟨hreader, -⟩, hcopy, -⟩ := h.own hpc
    have howner := hcopy.owner he
    exact h.goto (h.1.store he howner hstored) (fun u hu => frame_store he howner hstored hu) rfl
      hreader
  | replaced hpc he hstored =>
    obtain ⟨⟨hreader, -⟩, hcopy, -⟩ := h.own hpc
    have howner := hcopy.owner he
    exact h.goto (h.1.put he howner hnone) (fun u hu => frame_put he howner hnone hu) rfl hreader
  | retry hpc => exact h.goto (h.1.unlock t) hunlock rfl trivial
  | succeed hpc => exact h.finish (h.1.unlock t) hunlock rfl

theorem eq_of_begin {edit : C} (hbegin : s.begin t edit = some s') :
    s.threads t = .idle ∧
      s' = { s.goto t (.begun ⟨s.calls, edit⟩) with calls := s.calls + 1 } := by
  unfold begin at hbegin
  split at hbegin
  · exact ⟨‹_›, (Option.some.inj hbegin).symm⟩
  · cases hbegin

theorem Ok.begin (h : Ok callback s) {edit : C} (hbegin : s.begin t edit = some s') :
    Ok callback s' := by
  obtain ⟨-, rfl⟩ := eq_of_begin hbegin
  have hok : Ok callback (s.goto t (.begun ⟨s.calls, edit⟩)) :=
    h.goto h.1 (fun u _ => Frame.refl s u) rfl trivial
  exact ⟨⟨hok.1.stored, hok.1.retired, hok.1.nodup, hok.1.serials, hok.1.unique⟩, hok.2⟩

theorem step_cases {action : EditAction C T} {r : Unit}
    (hstep : step callback s action = .ok (s', r)) :
    (∃ t edit, action = .call t edit ∧ s.begin t edit = some s') ∨
      (∃ t granted, action = .next t granted ∧ s.next callback t granted = some s') ∨
      ∃ n, action = .reclaim n ∧ s.reclaim n = some s' := by
  unfold step at hstep
  cases action with
  | call t edit =>
    refine Or.inl ⟨t, edit, rfl, ?_⟩
    cases hafter : s.begin t edit <;> simp_all
  | next t granted =>
    refine Or.inr (Or.inl ⟨t, granted, rfl, ?_⟩)
    cases hafter : s.next callback t granted <;> simp_all
  | reclaim n =>
    refine Or.inr (Or.inr ⟨n, rfl, ?_⟩)
    cases hafter : s.reclaim n <;> simp_all

theorem Ok.step {action : EditAction C T} {r : Unit} (h : Ok callback s)
    (hfresh : FreshAddress s action) (hstep : step callback s action = .ok (s', r)) :
    Ok callback s' := by
  obtain ⟨t, edit, rfl, hbegin⟩ | ⟨t, granted, rfl, hnext⟩ | ⟨n, rfl, hreclaim⟩ := step_cases hstep
  · exact h.begin hbegin
  · exact h.next hfresh hnext
  · exact h.reclaim hreclaim

end EditState

end FactoryThing.NodeStore
