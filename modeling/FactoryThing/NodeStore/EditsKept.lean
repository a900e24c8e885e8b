import FactoryThing.NodeStore.EditLog
import FactoryThing.NodeStore.EditSteps

/-!
# No edit is lost

The threads do what calls do that apply their callbacks one at a time: a call is applied when its
copy is stored. This needs that addresses are not used again too early, which the read-side critical
sections of `UA_Server_editNode` do not ensure, as there is none from the copy to its replacement.
-/

namespace FactoryThing.NodeStore

/-- The call that a thread is in, and whether its copy has been stored. -/
def EditPc.status {C : Type} : EditPc C → Option (EditCall C × Bool)
  | .idle => none
  | .begun call | .reading call | .found call _ | .noCopy call | .copied call _ | .editing call _
  | .edited call _ | .replacing call _ | .matched call _ _ | .failed call => some (call, false)
  | .succeeded call => some (call, true)

namespace EditState

variable {α C T : Type} {callback : C → α → StatusCode × α} {s s' : EditState α C T} {t : T}
  {call : EditCall C} {copy entry oldEntry : Nat} {node first : α}

def version (s : EditState α C T) : Option (NodeEntry α T) := s.stored.bind s.heap

def storedNode (s : EditState α C T) : Option α := (version s).map NodeEntry.node

/-- What the calls look like from outside. -/
def log (s : EditState α C T) (node : α) : EditLog α C T :=
  ⟨node, EditPc.status ∘ s.threads, s.calls, s.applied, s.returned⟩

theorem StoreOk.version_eq (h : StoreOk s) :
    ∃ a e, s.stored = some a ∧ s.heap a = some e ∧ e.owner = none ∧ version s = some e := by
  obtain ⟨a, ha, e, he, hnone⟩ := h.stored
  exact ⟨a, e, ha, he, hnone, by rw [version, ha, Option.bind_some, he]⟩

theorem version_congr {a : Nat} (ha : s.stored = some a) (hstored : s'.stored = s.stored)
    (hheap : s'.heap a = s.heap a) : version s' = version s := by
  rw [version, version, hstored, ha, Option.bind_some, Option.bind_some, hheap]

theorem version_put (h : StoreOk s) {e : NodeEntry α T} (he : s.heap copy = some e)
    (howner : e.owner = some t) (x : Option (NodeEntry α T)) : version (s.put copy x) =
    version s := by
  obtain ⟨a, ha, hpublic⟩ := h.stored
  exact version_congr ha rfl ((heap_put s copy x a).trans (if_neg (hpublic.ne_of_owner he howner)))

theorem version_allocate (h : StoreOk s) {e : NodeEntry α T} (hfree : s.heap copy = none) :
    version (s.allocate t copy entry e) = version s := by
  obtain ⟨a, ha, e', he', -⟩ := h.stored
  refine version_congr ha rfl ((heap_put s copy _ a).trans (if_neg ?_))
  rintro rfl
  rw [hfree] at he'
  cases he'

theorem version_reclaim (h : StoreOk s) {n : Nat} (hreclaim : s.reclaim n = some s') :
    version s' = version s := by
  obtain ⟨address, hentry, rfl⟩ := eq_of_reclaim hreclaim
  obtain ⟨a, ha, -⟩ := h.stored
  refine version_congr ha rfl ((heap_put s address none a).trans (if_neg ?_))
  rintro rfl
  exact (h.retired _ (List.mem_of_getElem? hentry)).2 ha

theorem version_store (s : EditState α C T) (call : EditCall C) (copy oldEntry : Nat)
    (e : NodeEntry α T) :
    version (s.store call copy oldEntry e) = some { e with owner := none } :=
  (heap_put s copy _ copy).trans (if_pos rfl)

theorem storedNode_congr (hversion : version s' = version s) (hnode : storedNode s = some node) :
    storedNode s' = some node :=
  (congrArg (Option.map NodeEntry.node) hversion).trans hnode

theorem CopyOk.version_iff {edited : Bool} (hcopy : CopyOk callback s t call copy edited)
    (h : StoreOk s) {e : NodeEntry α T} (he : s.heap copy = some e) :
    (version s).map NodeEntry.serial = some e.origSerial ↔ s.stored = e.orig := by
  obtain ⟨b, e', hb, he', -, hversion⟩ := h.version_eq
  obtain ⟨e₀, a, he₀, -, horig, -, hunique, hsame⟩ := hcopy
  rw [he] at he₀
  cases he₀
  rw [hversion, Option.map_some, Option.some.injEq, hb, horig, Option.some.injEq]
  constructor
  · exact hunique b e' he'
  · rintro rfl
    exact (hsame e' he').2.1

/-! ## The calls -/

/-- The calls whose callbacks are applied, whether or not they have returned yet. -/
def Succeeds (s : EditState α C T) (call : EditCall C) : Prop :=
  (call, StatusCode.good) ∈ s.returned ∨ ∃ t, s.threads t = .succeeded call

/-- The node is the first one with the callbacks of the successful calls applied, each of them
once. -/
def EditsKept (callback : C → α → StatusCode × α) (first : α) (s : EditState α C T) : Prop :=
  ∃ order : List (EditCall C), (order.map EditCall.id).Nodup ∧
    (∀ call, call ∈ order ↔ Succeeds s call) ∧
    storedNode s = some (applyCalls callback first order)

theorem status_eq_done {pc : EditPc C} (h : pc.status = some (call, true)) : pc =
    .succeeded call := by
  cases pc <;> cases h
  rfl

theorem succeeds_log (call : EditCall C) : (log s node).Succeeds call ↔ Succeeds s call :=
  or_congr_right (exists_congr fun _ => ⟨status_eq_done, congrArg EditPc.status⟩)

theorem EditsKept.of_log (hnode : storedNode s = some node)
    (hlog : EditLog.Ok callback first (log s node)) : EditsKept callback first s := by
  refine ⟨s.applied, hlog.nodup, fun call => (hlog.applied call).trans (succeeds_log call), ?_⟩
  rw [hnode]
  exact congrArg some hlog.node

theorem pending_log {pc : EditPc C} (hpc : s.threads t = pc) :
    (log s node).pending t = pc.status :=
  congrArg EditPc.status hpc

/-- What holds in each state of a run in which no address is used again too early. -/
def Inv (callback : C → α → StatusCode × α) (first : α) (s : EditState α C T) : Prop :=
  Ok callback s ∧ ∃ node, storedNode s = some node ∧ EditLog.Ok callback first (log s node)

theorem Inv.init (address : Nat) (node : α) :
    Inv callback node (EditState.init address node : EditState α C T) := by
  refine ⟨Ok.init address node, node, ?_, ?_⟩
  · simp only [storedNode, version, EditState.init, Option.bind_some, Function.update_self,
      Option.map_some]
  · refine ⟨?_, ?_, ?_, fun call => iff_of_false List.not_mem_nil ?_, List.nodup_nil, rfl⟩
    · intro t p hp
      cases hp
    · intro t u p hp
      cases hp
    · intro p hp
      cases hp
    · rintro (hmem | ⟨t, ht⟩)
      · cases hmem
      · cases ht

variable [DecidableEq T]

theorem log_goto (s : EditState α C T) (t : T) (pc : EditPc C) (node : α) :
    log (s.goto t pc) node =
      { log s node with pending := Function.update (log s node).pending t pc.status } := by
  simp only [log, goto, Function.comp_update]

theorem log_goto_same {pc pc' : EditPc C} (hpc : s.threads t = pc')
    (hstatus : pc.status = pc'.status)
    (hlog : log s' node = log s node) : log (s'.goto t pc) node = log s node := by
  rw [log_goto, hlog, hstatus, ← pending_log hpc, Function.update_eq_self]

theorem log_finish (hlog : log s' node = log s node) (retval : StatusCode) :
    log (s'.finish t call retval) node =
      { log s node with
        pending := Function.update (log s node).pending t none
        returned := (call, retval) :: (log s node).returned } := by
  have hgoto := log_goto s' t .idle node
  rw [hlog] at hgoto
  exact congrArg (fun l : EditLog α C T => { l with returned := (call, retval) :: l.returned })
    hgoto

theorem Ok.log_next (h : Ok callback s) (hnode : storedNode s = some node) {granted : Option Nat}
    (hnext : s.next callback t granted = some s') :
    ∃ node', storedNode s' = some node' ∧
      (log s' node' = log s node ∨ EditLog.Step callback (log s node) (log s' node')) := by
  cases next_cases hnext with
  | lock hpc => exact ⟨node, hnode, Or.inl (log_goto_same hpc rfl rfl)⟩
  | missing hpc hstored => exact ⟨node, hnode, Or.inl (log_goto_same hpc rfl rfl)⟩
  | lookup hpc hstored => exact ⟨node, hnode, Or.inl (log_goto_same hpc rfl rfl)⟩
  | noMemory hpc hgranted => exact ⟨node, hnode, Or.inl (log_goto_same hpc rfl rfl)⟩
  | copy hpc hgranted hentry hfree =>
    refine ⟨node, ?_, Or.inl (log_goto_same hpc rfl rfl)⟩
    exact storedNode_congr (version_allocate h.1 hfree) hnode
  | giveUp hpc =>
    refine ⟨node, hnode, Or.inr ?_⟩
    rw [log_finish rfl]
    exact EditLog.Step.fail t _ _ (pending_log hpc) (by decide)
  | unlock hpc => exact ⟨node, hnode, Or.inl (log_goto_same hpc rfl rfl)⟩
  | refused hpc he hretval =>
    refine ⟨node, ?_, Or.inr ?_⟩
    · have howner := CopyOk.owner (h.own hpc) he
      exact storedNode_congr (version_put h.1 he howner none) hnode
    · rw [log_finish rfl]
      exact EditLog.Step.fail t _ _ (pending_log hpc) hretval
  | edit hpc he hgood =>
    refine ⟨node, ?_, Or.inl (log_goto_same hpc rfl rfl)⟩
    have howner := CopyOk.owner (h.own hpc) he
    exact storedNode_congr (version_put h.1 he howner _) hnode
  | relock hpc => exact ⟨node, hnode, Or.inl (log_goto_same hpc rfl rfl)⟩
  | unknown hpc hstored => exact ⟨node, hnode, Or.inl (log_goto_same hpc rfl rfl)⟩
  | obsolete hpc hstored he horig =>
    refine ⟨node, ?_, Or.inl (log_goto_same hpc rfl rfl)⟩
    have howner := (h.own hpc).2.owner he
    exact storedNode_congr (version_put h.1 he howner none) hnode
  | current hpc hstored he horig => exact ⟨node, hnode, Or.inl (log_goto_same hpc rfl rfl)⟩
  | @replace call copy oldEntry e hpc he hstored =>
    have hversion := version_store s call copy oldEntry e
    refine ⟨e.node, congrArg (Option.map NodeEntry.node) hversion, Or.inr ?_⟩
    obtain ⟨⟨-, ⟨old, hold, -⟩, -⟩, ⟨e₀, a, he₀, -, horig, -, -, hsame⟩, e₁, he₁, horig₁⟩ :=
      h.own hpc
    rw [he] at he₀ he₁
    cases he₀
    cases he₁
    rw [horig] at horig₁
    cases horig₁
    -- what is stored is still what the callback was given
    have hgood : callback call.edit old.node = (StatusCode.good, e.node) := (hsame old hold).2.2
    have hold' : storedNode s = some old.node := by
      rw [storedNode, version, hstored, Option.bind_some, hold, Option.map_some]
    rw [hnode] at hold'
    cases hold'
    have hlog : log ((s.store call copy oldEntry e).goto t (.succeeded call)) e.node =
        { log s old.node with
          node := e.node
          pending := Function.update (log s old.node).pending t (some (call, true))
          applied := (log s old.node).applied ++ [call] } := by
      rw [log_goto]
      rfl
    rw [hlog]
    exact EditLog.Step.apply t call e.node (pending_log hpc) hgood
  | replaced hpc he hstored =>
    refine ⟨node, ?_, Or.inl (log_goto_same hpc rfl rfl)⟩
    have howner := (h.own hpc).2.1.owner he
    exact storedNode_congr (version_put h.1 he howner none) hnode
  | retry hpc => exact ⟨node, hnode, Or.inl (log_goto_same hpc rfl rfl)⟩
  | succeed hpc =>
    refine ⟨node, hnode, Or.inr ?_⟩
    rw [log_finish rfl]
    exact EditLog.Step.finish t _ (pending_log hpc)

theorem Ok.log_step (h : Ok callback s) (hnode : storedNode s = some node)
    {action : EditAction C T} {r : Unit} (hstep : EditState.step callback s action = .ok (s', r)) :
    ∃ node', storedNode s' = some node' ∧
      (log s' node' = log s node ∨ EditLog.Step callback (log s node) (log s' node')) := by
  obtain ⟨t, edit, rfl, hbegin⟩ | ⟨t, granted, rfl, hnext⟩ | ⟨n, rfl, hreclaim⟩ := step_cases hstep
  · obtain ⟨hpc, rfl⟩ := eq_of_begin hbegin
    refine ⟨node, hnode, Or.inr ?_⟩
    have hlog : log { s.goto t (.begun ⟨s.calls, edit⟩) with calls := s.calls + 1 } node =
        { log s node with
          pending := Function.update (log s node).pending t
            (some (⟨(log s node).calls, edit⟩, false))
          calls := (log s node).calls + 1 } :=
      congrArg (fun l : EditLog α C T => { l with calls := l.calls + 1 })
        (log_goto s t (.begun ⟨s.calls, edit⟩) node)
    rw [hlog]
    exact EditLog.Step.begin t edit (pending_log hpc)
  · exact h.log_next hnode hnext
  · refine ⟨node, ?_, Or.inl ?_⟩
    · exact storedNode_congr (version_reclaim h.1 hreclaim) hnode
    · obtain ⟨address, -, rfl⟩ := eq_of_reclaim hreclaim
      rfl

/-- `UA_NodeStore_replace` goes on after the lookup, and stores the copy, exactly if the stored
version is the one that the copy was made from. Else it fails and leaves the stored version
alone. -/
structure ReplaceExact (callback : C → α → StatusCode × α) (s : EditState α C T) : Prop where
  compared : ∀ t call copy e granted s', s.threads t = .replacing call copy → s.heap copy = some e →
    s.next callback t granted = some s' →
    (s'.threads t = .failed call ↔ (version s).map NodeEntry.serial ≠ some e.origSerial) ∧
    s'.stored = s.stored ∧ version s' = version s
  exchanged : ∀ t call copy oldEntry e granted s', s.threads t = .matched call copy oldEntry →
    s.heap copy = some e → s.next callback t granted = some s' →
    (s'.threads t = .succeeded call ↔ (version s).map NodeEntry.serial = some e.origSerial) ∧
    (s'.threads t = .failed call ↔ (version s).map NodeEntry.serial ≠ some e.origSerial) ∧
    (s'.threads t = .succeeded call → version s' = some { e with owner := none }) ∧
    (s'.threads t = .failed call → s'.stored = s.stored ∧ version s' = version s)

theorem goto_self (s : EditState α C T) (t : T) (pc : EditPc C) : (s.goto t pc).threads t = pc :=
  Function.update_self _ _ _

theorem next_replacing (hpc : s.threads t = .replacing call copy)
    (hstored : s.stored = some oldEntry)
    {e : NodeEntry α T} (he : s.heap copy = some e) (granted : Option Nat) :
    s.next callback t granted =
      if some oldEntry ≠ e.orig then some ((s.put copy none).goto t (.failed call))
      else some (s.goto t (.matched call copy oldEntry)) := by
  simp only [next, hpc, hstored, he]

theorem next_matched (hpc : s.threads t = .matched call copy oldEntry) {e : NodeEntry α T}
    (he : s.heap copy = some e) (granted : Option Nat) :
    s.next callback t granted =
      if s.stored = some oldEntry then
        some ((s.store call copy oldEntry e).goto t (.succeeded call))
      else some ((s.put copy none).goto t (.failed call)) := by
  simp only [next, hpc, he]

theorem Ok.replaceExact (h : Ok callback s) : ReplaceExact callback s where
  compared t call copy e granted s' hpc he hnext := by
    obtain ⟨-, hcopy⟩ := h.own hpc
    obtain ⟨a, ha, -⟩ := h.1.stored
    rw [next_replacing hpc ha he] at hnext
    have hversion := (hcopy.version_iff h.1 he).ne
    rw [ha] at hversion
    split at hnext
    · rename_i horig
      cases hnext
      exact ⟨iff_of_true (goto_self _ t _) (hversion.mpr horig), rfl,
        version_put h.1 he (hcopy.owner he) none⟩
    · rename_i horig
      cases hnext
      refine ⟨iff_of_false (fun hfailed => ?_) (mt hversion.mp horig), rfl, rfl⟩
      cases (goto_self _ t _).symm.trans hfailed
  exchanged t call copy oldEntry e granted s' hpc he hnext := by
    obtain ⟨-, hcopy, e', he', horig⟩ := h.own hpc
    rw [he] at he'
    cases he'
    rw [next_matched hpc he] at hnext
    have hversion := hcopy.version_iff h.1 he
    rw [horig] at hversion
    split at hnext
    · rename_i hstored
      cases hnext
      have hpc' := goto_self (s.store call copy oldEntry e) t (.succeeded call)
      have hsame := hversion.mpr hstored
      refine ⟨iff_of_true hpc' hsame, iff_of_false (fun hfailed => ?_) (not_not_intro hsame),
        fun _ => version_store s call copy oldEntry e, fun hfailed => ?_⟩
      · cases hpc'.symm.trans hfailed
      · cases hpc'.symm.trans hfailed
    · rename_i hstored
      cases hnext
      have hpc' := goto_self (s.put copy none) t (.failed call)
      have hother := mt hversion.mp hstored
      refine ⟨iff_of_false (fun hsucceeded => ?_) hother, iff_of_true hpc' hother,
        fun hsucceeded => ?_, fun _ => ⟨rfl, version_put h.1 he (hcopy.owner he) none⟩⟩
      · cases hpc'.symm.trans hsucceeded
      · cases hpc'.symm.trans hsucceeded

theorem Inv.step (h : Inv callback first s) {action : EditAction C T} {r : Unit}
    (hfresh : FreshAddress s action) (hstep : EditState.step callback s action = .ok (s', r)) :
    Inv callback first s' := by
  obtain ⟨hok, node, hnode, hlog⟩ := h
  refine ⟨hok.step hfresh hstep, ?_⟩
  obtain ⟨node', hnode', hsame | happlied⟩ := hok.log_step hnode hstep
  · exact ⟨node', hnode', hsame ▸ hlog⟩
  · exact ⟨node', hnode', hlog.step happlied⟩

/-- Edits are not lost in runs in which nothing is allocated at the address of an entry as long as a
thread has a copy of this entry. -/
theorem edits_kept (address : Nat) (first : α) (actions : List (EditAction C T))
    (s : EditState α C T) (rs : List Unit)
    (hfresh : Runs.Guarded (EditState.step callback) FreshAddress (init address first) actions)
    (hrun : Runs.run (EditState.step callback) (init address first) actions = .ok (s, rs)) :
    EditsKept callback first s ∧ ReplaceExact callback s := by
  have hinv : Inv callback first s :=
    Runs.invariant_of_guarded (fun _ _ _ _ h hguard hstep => h.step hguard hstep) actions _ s rs
      (Inv.init address first) hfresh hrun
  obtain ⟨hok, node, hnode, hlog⟩ := hinv
  exact ⟨EditsKept.of_log hnode hlog, hok.replaceExact⟩

def increment (_ : Unit) (n : Nat) : StatusCode × Nat := (StatusCode.good, n + 1)

theorem applyCalls_increment (n : Nat) (calls : List (EditCall Unit)) :
    applyCalls increment n calls = n + calls.length := by
  induction calls generalizing n with
  | nil => rfl
  | cons call calls ih =>
    rw [List.length_cons, Nat.add_comm calls.length, ← Nat.add_assoc]
    exact ih (n + 1)

def callAndCopy (t : Bool) (copy : Nat) : List (EditAction Unit Bool) :=
  [.call t (), .next t none, .next t none, .next t (some copy)]

def goOn (t : Bool) (n : Nat) : List (EditAction Unit Bool) := List.replicate n (.next t none)

/-- One thread copies the node, and then the other one edits it, so that the first one tries
again. -/
def twoEdits : List (EditAction Unit Bool) :=
  callAndCopy false 1 ++ callAndCopy true 2 ++ goOn true 6 ++ goOn false 7 ++
    .next false (some 3) :: goOn false 6

theorem edits_kept_twoEdits :
    Runs.Reaches (EditState.step increment) (init 0 0) twoEdits fun s _ =>
      storedNode s = some 2 ∧ EditsKept increment 0 s ∧ ReplaceExact increment s := by
  obtain ⟨s, rs, hrun, hnode⟩ : Runs.Reaches (EditState.step increment) (init 0 0) twoEdits
      fun s _ => storedNode s = some 2 := by decide +kernel
  exact ⟨s, rs, hrun, hnode, edits_kept 0 0 twoEdits s rs (by decide +kernel) hrun⟩

/-- One thread copies the node. Then the other one edits it, the entry that was copied is freed, and
the other one edits the node again, with its copy at the address of this entry. Then the first one
goes on. -/
def addressUsedAgain : List (EditAction Unit Bool) :=
  callAndCopy false 1 ++ goOn false 2 ++ callAndCopy true 2 ++ goOn true 6 ++
    .reclaim 0 :: callAndCopy true 0 ++ goOn true 6 ++ goOn false 4

/-- Three calls succeed, but the node has been incremented once. -/
theorem edits_lost :
    Runs.Reaches (EditState.step increment) (init 0 0) addressUsedAgain fun s _ =>
      ¬ EditsKept increment 0 s := by
  obtain ⟨s, rs, hrun, hreturned, hnode⟩ : Runs.Reaches (EditState.step increment) (init 0 0)
      addressUsedAgain fun s _ =>
        s.returned = [(⟨0, ()⟩, StatusCode.good), (⟨2, ()⟩, StatusCode.good),
        (⟨1, ()⟩, StatusCode.good)] ∧ storedNode s = some 1 := by decide +kernel
  refine ⟨s, rs, hrun, fun ⟨order, _, horder, hkept⟩ => ?_⟩
  rw [hnode, applyCalls_increment, Option.some.injEq, Nat.zero_add] at hkept
  obtain ⟨call, rfl⟩ := List.length_eq_one_iff.mp hkept.symm
  have hmem : ∀ done, (done, StatusCode.good) ∈ s.returned → done = call :=
    fun done hdone => List.mem_singleton.mp ((horder done).mpr (Or.inl hdone))
  rw [hreturned] at hmem
  have hfirst := hmem ⟨0, ()⟩ (by decide)
  have hsecond := hmem ⟨1, ()⟩ (by decide)
  rw [← hsecond] at hfirst
  cases hfirst

end EditState

end FactoryThing.NodeStore
