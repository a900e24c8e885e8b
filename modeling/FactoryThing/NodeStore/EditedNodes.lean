import FactoryThing.NodeStore.Editing
import Mathlib.Data.List.Nodup
import Mathlib.Data.List.Perm.Basic

/-!
# Edits of one node

What the threads that edit a node rely on, and what the parts of a step leave alone: a copy belongs
to its thread, an entry that was found stays as long as the thread is in its critical section, and
at the address of the original of a copy there is no other entry.
-/

namespace FactoryThing.NodeStore

/-- The copy that a thread works on. -/
def EditPc.copy? {C : Type} : EditPc C → Option Nat
  | .copied _ copy | .editing _ copy | .edited _ copy | .replacing _ copy | .matched _ copy _ =>
      some copy
  | .idle | .begun _ | .reading _ | .found _ _ | .noCopy _ | .failed _ | .succeeded _ => none

namespace EditState

variable {α C T : Type} {callback : C → α → StatusCode × α} {s s' : EditState α C T} {t u : T}
  {call : EditCall C} {copy entry oldEntry : Nat}

/-! ## What threads rely on -/

/-- An entry that no thread has to itself. -/
def Public (s : EditState α C T) (address : Nat) : Prop :=
  ∃ e, s.heap address = some e ∧ e.owner = none

/-- An entry that is not freed as long as the thread is in its critical section. -/
def Held (s : EditState α C T) (t : T) (address : Nat) : Prop :=
  t ∈ s.readers ∧ Public s address ∧
    (s.stored = some address ∨ ∃ p ∈ s.retired, p.1 = address ∧ t ∈ p.2)

/-- A copy before the callback, and after it. -/
def Fits (callback : C → α → StatusCode × α) (call : EditCall C) (edited : Bool) (node copied : α) :
    Prop :=
  if edited then callback call.edit node = (StatusCode.good, copied) else copied = node

/-- The copy of a thread. What is at the address of its original is the original. -/
def CopyOk (callback : C → α → StatusCode × α) (s : EditState α C T) (t : T) (call : EditCall C)
    (copy : Nat) (edited : Bool) : Prop :=
  ∃ e a, s.heap copy = some e ∧ e.owner = some t ∧ e.orig = some a ∧ e.origSerial < s.serials ∧
    (∀ a' e', s.heap a' = some e' → e'.serial = e.origSerial → a' = a) ∧
    ∀ e', s.heap a = some e' → e'.owner = none ∧ e'.serial = e.origSerial ∧
      Fits callback call edited e'.node e.node

/-- What a thread may rely on, at each place of its call. -/
def ThreadOk (callback : C → α → StatusCode × α) (s : EditState α C T) (t : T) : EditPc C → Prop
  | .idle | .begun _ => True
  | .reading _ | .noCopy _ | .failed _ | .succeeded _ => t ∈ s.readers
  | .found _ entry => Held s t entry
  | .copied call copy => t ∈ s.readers ∧ CopyOk callback s t call copy false
  | .editing call copy => CopyOk callback s t call copy false
  | .edited call copy => CopyOk callback s t call copy true
  | .replacing call copy => t ∈ s.readers ∧ CopyOk callback s t call copy true
  | .matched call copy oldEntry => Held s t oldEntry ∧ CopyOk callback s t call copy true ∧
      ∃ e, s.heap copy = some e ∧ e.orig = some oldEntry

/-- What is stored, and what is waiting to be freed. -/
structure StoreOk (s : EditState α C T) : Prop where
  stored : ∃ a, s.stored = some a ∧ Public s a
  retired : ∀ p ∈ s.retired, Public s p.1 ∧ s.stored ≠ some p.1
  nodup : (s.retired.map Prod.fst).Nodup
  serials : ∀ a e, s.heap a = some e → e.serial < s.serials
  unique : ∀ a a' e e', s.heap a = some e → s.heap a' = some e' → e.serial = e'.serial → a = a'

/-- What a step of one thread leaves alone for another. -/
structure Frame (s s' : EditState α C T) (u : T) : Prop where
  readers : u ∈ s.readers → u ∈ s'.readers
  serials : s.serials ≤ s'.serials
  own : ∀ a e, s.heap a = some e → e.owner = some u → s'.heap a = some e
  held : ∀ a, Held s u a → Held s' u a
  old : ∀ a e', s'.heap a = some e' →
    (∃ e, s.heap a = some e ∧ e.serial = e'.serial ∧ (e.owner = none → e' = e)) ∨
      s.heap a = none ∧ e'.serial = s.serials ∧
        ∀ b ∈ (s.threads u).copy?, ∀ e ∈ s.heap b, e.orig ≠ some a

theorem CopyOk.frame {edited : Bool} (h : CopyOk callback s u call copy edited)
    (hframe : Frame s s' u) (hthread : (s.threads u).copy? = some copy) :
    CopyOk callback s' u call copy edited := by
  obtain ⟨e, a, hcopy, howner, horig, hserial, hunique, hsame⟩ := h
  refine ⟨e, a, hframe.own copy e hcopy howner, howner, horig,
    Nat.lt_of_lt_of_le hserial hframe.serials, fun a' e' he' heq => ?_, fun e' he' => ?_⟩
  · obtain ⟨e₀, he₀, hserials, -⟩ | ⟨-, hnew, -⟩ := hframe.old a' e' he'
    · exact hunique a' e₀ he₀ (hserials.trans heq)
    · rw [← heq, hnew] at hserial
      exact absurd hserial (Nat.lt_irrefl _)
  · obtain ⟨e₀, he₀, -, hpublic⟩ | ⟨-, -, hnone⟩ := hframe.old a e' he'
    · rw [hpublic (hsame e₀ he₀).1]
      exact hsame e₀ he₀
    · exact absurd horig (hnone copy hthread e hcopy)

theorem ThreadOk.frame {pc : EditPc C} (h : ThreadOk callback s u pc) (hframe : Frame s s' u)
    (hpc : (s.threads u).copy? = pc.copy?) : ThreadOk callback s' u pc := by
  cases pc with
  | idle => trivial
  | begun call => trivial
  | reading call => exact hframe.readers h
  | found call entry => exact hframe.held entry h
  | noCopy call => exact hframe.readers h
  | copied call copy => exact ⟨hframe.readers h.1, h.2.frame hframe hpc⟩
  | editing call copy => exact CopyOk.frame h hframe hpc
  | edited call copy => exact CopyOk.frame h hframe hpc
  | replacing call copy => exact ⟨hframe.readers h.1, h.2.frame hframe hpc⟩
  | matched call copy oldEntry =>
    obtain ⟨hheld, hcopy, e, he, horig⟩ := h
    have howner : e.owner = some u := by
      obtain ⟨e', -, he', howner, -⟩ := hcopy
      rw [he] at he'
      cases he'
      exact howner
    exact ⟨hframe.held oldEntry hheld, hcopy.frame hframe hpc, e, hframe.own copy e he howner,
      horig⟩
  | failed call => exact hframe.readers h
  | succeeded call => exact hframe.readers h

/-- The store is in order, and so is each thread. -/
def Ok (callback : C → α → StatusCode × α) (s : EditState α C T) : Prop :=
  StoreOk s ∧ ∀ u, ThreadOk callback s u (s.threads u)

theorem Ok.frame (h : Ok callback s) (hthreads : s'.threads = s.threads) (hstore : StoreOk s')
    (hframe : ∀ u, Frame s s' u) : Ok callback s' :=
  ⟨hstore, fun u => hthreads ▸ (h.2 u).frame (hframe u) rfl⟩

theorem Ok.own (h : Ok callback s) {pc : EditPc C} (hpc : s.threads t = pc) :
    ThreadOk callback s t pc :=
  hpc ▸ h.2 t

variable {e : NodeEntry α T} {a : Nat} {e' : NodeEntry α T} {n : Nat}

theorem CopyOk.owner {edited : Bool} (h : CopyOk callback s t call copy edited)
    (he : s.heap copy = some e) : e.owner = some t := by
  obtain ⟨e', -, he', howner, -⟩ := h
  rw [he] at he'
  cases he'
  exact howner

theorem Frame.refl (s : EditState α C T) (u : T) : Frame s s u where
  readers := id
  serials := Nat.le_refl _
  own _ _ he _ := he
  held _ := id
  old _ e' he' := Or.inl ⟨e', he', rfl, fun _ => rfl⟩

theorem StoreOk.lock (h : StoreOk s) (t : T) : StoreOk (s.lock t) :=
  ⟨h.stored, h.retired, h.nodup, h.serials, h.unique⟩

theorem frame_lock (s : EditState α C T) (t u : T) : Frame s (s.lock t) u where
  readers := List.mem_cons_of_mem t
  serials := Nat.le_refl _
  own _ _ he _ := he
  held _ h := ⟨List.mem_cons_of_mem t h.1, h.2⟩
  old _ e' he' := Or.inl ⟨e', he', rfl, fun _ => rfl⟩

theorem heap_put (s : EditState α C T) (address : Nat) (entry : Option (NodeEntry α T)) (a : Nat) :
    (s.put address entry).heap a = if a = address then entry else s.heap a :=
  Function.update_apply _ _ _ _

theorem Public.ne_of_owner {a : Nat} (h : Public s a) {e : NodeEntry α T}
    (he : s.heap copy = some e) (howner : e.owner = some t) : a ≠ copy := by
  rintro rfl
  obtain ⟨e', he', hnone⟩ := h
  rw [he] at he'
  cases he'
  rw [howner] at hnone
  cases hnone

theorem ne_of_owners (he' : s.heap a = some e') (hown : e'.owner = some u)
    (he : s.heap copy = some e) (howner : e.owner = some t) (hu : u ≠ t) : a ≠ copy := by
  rintro rfl
  rw [he] at he'
  cases he'
  rw [howner] at hown
  exact hu (Option.some.inj hown).symm

theorem Public.put (h : Public s a) (hne : a ≠ copy) (entry : Option (NodeEntry α T)) :
    Public (s.put copy entry) a := by
  obtain ⟨e, he, hnone⟩ := h
  exact ⟨e, (heap_put s copy entry a).trans ((if_neg hne).trans he), hnone⟩

theorem StoreOk.put (h : StoreOk s) (he : s.heap copy = some e) (howner : e.owner = some t)
    {entry : Option (NodeEntry α T)} (hentry : ∀ e', entry = some e' → e'.serial = e.serial) :
    StoreOk (s.put copy entry) := by
  have hold : ∀ a e', (s.put copy entry).heap a = some e' →
      ∃ e₀, s.heap a = some e₀ ∧ e₀.serial = e'.serial := by
    intro a e' he'
    rw [heap_put] at he'
    split at he'
    · rename_i ha
      exact ⟨e, ha ▸ he, (hentry e' he').symm⟩
    · exact ⟨e', he', rfl⟩
  constructor
  · obtain ⟨a, hstored, hpublic⟩ := h.stored
    exact ⟨a, hstored, hpublic.put (hpublic.ne_of_owner he howner) entry⟩
  · intro p hp
    obtain ⟨hpublic, hne⟩ := h.retired p hp
    exact ⟨hpublic.put (hpublic.ne_of_owner he howner) entry, hne⟩
  · exact h.nodup
  · intro a e' he'
    obtain ⟨e₀, he₀, hserial⟩ := hold a e' he'
    rw [← hserial]
    exact h.serials a e₀ he₀
  · intro a a' e₁ e₂ he₁ he₂ hserial
    obtain ⟨e₁', he₁', hserial₁⟩ := hold a e₁ he₁
    obtain ⟨e₂', he₂', hserial₂⟩ := hold a' e₂ he₂
    exact h.unique a a' e₁' e₂' he₁' he₂' (hserial₁.trans (hserial.trans hserial₂.symm))

theorem frame_put (he : s.heap copy = some e) (howner : e.owner = some t)
    {entry : Option (NodeEntry α T)} (hentry : ∀ e', entry = some e' → e'.serial = e.serial)
    (hu : u ≠ t) : Frame s (s.put copy entry) u where
  readers := id
  serials := Nat.le_refl _
  own a e' he' hown :=
    (heap_put s copy entry a).trans ((if_neg (ne_of_owners he' hown he howner hu)).trans he')
  held a h := ⟨h.1, h.2.1.put (h.2.1.ne_of_owner he howner) entry, h.2.2⟩
  old a e' he' := by
    rw [heap_put] at he'
    split at he'
    · rename_i ha
      refine Or.inl ⟨e, ha ▸ he, (hentry e' he').symm, fun hnone => ?_⟩
      rw [howner] at hnone
      cases hnone
    · exact Or.inl ⟨e', he', rfl, fun _ => rfl⟩

theorem Public.allocate (h : Public s a) (hfree : s.heap copy = none) :
    Public (s.allocate t copy entry e) a := by
  have hne : a ≠ copy := by
    rintro rfl
    obtain ⟨e', he', -⟩ := h
    rw [hfree] at he'
    cases he'
  exact h.put hne _

theorem heap_allocate (he' : (s.allocate t copy entry e).heap a = some e') :
    a = copy ∧ e' = ⟨some entry, e.node, s.serials, e.serial, some t⟩ ∨
      a ≠ copy ∧ s.heap a = some e' := by
  have hput := (heap_put s copy _ a).symm.trans he'
  split at hput
  · rename_i ha
    exact Or.inl ⟨ha, (Option.some.inj hput).symm⟩
  · rename_i ha
    exact Or.inr ⟨ha, hput⟩

theorem StoreOk.allocate (h : StoreOk s) (hfree : s.heap copy = none) :
    StoreOk (s.allocate t copy entry e) := by
  constructor
  · obtain ⟨a, hstored, hpublic⟩ := h.stored
    exact ⟨a, hstored, hpublic.allocate hfree⟩
  · exact fun p hp => ⟨(h.retired p hp).1.allocate hfree, (h.retired p hp).2⟩
  · exact h.nodup
  · intro a e' he'
    obtain ⟨-, rfl⟩ | ⟨-, hold⟩ := heap_allocate he'
    · exact Nat.lt_succ_self _
    · exact Nat.lt_succ_of_lt (h.serials a e' hold)
  · intro a a' e₁ e₂ he₁ he₂ hserial
    obtain ⟨rfl, rfl⟩ | ⟨-, hold₁⟩ := heap_allocate he₁ <;>
      obtain ⟨rfl, rfl⟩ | ⟨-, hold₂⟩ := heap_allocate he₂
    · rfl
    · exact absurd hserial.symm (Nat.ne_of_lt (h.serials a' e₂ hold₂))
    · exact absurd hserial (Nat.ne_of_lt (h.serials a e₁ hold₁))
    · exact h.unique a a' e₁ e₂ hold₁ hold₂ hserial

theorem frame_allocate (hfree : s.heap copy = none)
    (hfresh : ∀ b ∈ (s.threads u).copy?, ∀ e ∈ s.heap b, e.orig ≠ some copy) :
    Frame s (s.allocate t copy entry e) u where
  readers := id
  serials := Nat.le_succ _
  own a e' he' _ := by
    have hne : a ≠ copy := by
      rintro rfl
      rw [hfree] at he'
      cases he'
    exact (heap_put s copy _ a).trans ((if_neg hne).trans he')
  held a h := ⟨h.1, h.2.1.allocate hfree, h.2.2⟩
  old a e' he' := by
    obtain ⟨rfl, rfl⟩ | ⟨-, hold⟩ := heap_allocate he'
    · exact Or.inr ⟨hfree, rfl, hfresh⟩
    · exact Or.inl ⟨e', hold, rfl, fun _ => rfl⟩

theorem CopyOk.allocate (h : StoreOk s) (he : s.heap entry = some e) (hnone : e.owner = none)
    (hfree : s.heap copy = none) :
    CopyOk callback (s.allocate t copy entry e) t call copy false := by
  have hserial := h.serials entry e he
  have hcopy : (s.allocate t copy entry e).heap copy =
      some ⟨some entry, e.node, s.serials, e.serial, some t⟩ :=
    (heap_put s copy _ copy).trans (if_pos rfl)
  refine ⟨_, entry, hcopy, rfl, rfl, Nat.lt_succ_of_lt hserial, ?_, ?_⟩
  · intro a e' he' heq
    obtain ⟨-, rfl⟩ | ⟨-, hold⟩ := heap_allocate he'
    · exact absurd heq.symm (Nat.ne_of_lt hserial)
    · exact h.unique a entry e' e hold he heq
  · intro e' he'
    obtain ⟨rfl, -⟩ | ⟨-, hold⟩ := heap_allocate he'
    · rw [hfree] at he
      cases he
    · rw [he] at hold
      cases hold
      exact ⟨hnone, rfl, rfl⟩

theorem CopyOk.put {node : α} (h : CopyOk callback s t call copy false) (he : s.heap copy = some e)
    (hgood : callback call.edit e.node = (StatusCode.good, node)) :
    CopyOk callback (s.put copy (some { e with node := node })) t call copy true := by
  obtain ⟨e₀, a, he₀, howner, horig, hserial, hunique, hsame⟩ := h
  rw [he] at he₀
  cases he₀
  have hne : a ≠ copy := by
    rintro rfl
    rw [(hsame e he).1] at howner
    cases howner
  refine ⟨{ e with node := node }, a, (heap_put s copy _ copy).trans (if_pos rfl), howner, horig,
    hserial, ?_, ?_⟩
  · intro a' e' he' heq
    rw [heap_put] at he'
    split at he'
    · rename_i ha
      rw [ha]
      exact hunique copy e he ((congrArg NodeEntry.serial (Option.some.inj he')).trans heq)
    · exact hunique a' e' he' heq
  · intro e' he'
    rw [heap_put, if_neg hne] at he'
    obtain ⟨hnone, hsame, hnode⟩ := hsame e' he'
    refine ⟨hnone, hsame, ?_⟩
    rw [← (hnode : e.node = e'.node)]
    exact hgood

theorem heap_store (he : s.heap copy = some e)
    (he' : (s.store call copy oldEntry e).heap a = some e') :
    ∃ e₀, s.heap a = some e₀ ∧ e₀.serial = e'.serial ∧ (a ≠ copy → e' = e₀) := by
  have hput := (heap_put s copy _ a).symm.trans he'
  split at hput
  · rename_i ha
    rw [← Option.some.inj hput]
    exact ⟨e, ha ▸ he, rfl, fun hne => absurd ha hne⟩
  · exact ⟨e', hput, rfl, fun _ => rfl⟩

theorem Public.store (h : Public s a) : Public (s.store call copy oldEntry e) a := by
  by_cases ha : a = copy
  · exact ⟨{ e with owner := none }, (heap_put s copy _ a).trans (if_pos ha), rfl⟩
  · exact h.put ha _

theorem StoreOk.store (h : StoreOk s) (he : s.heap copy = some e) (howner : e.owner = some t)
    (hstored : s.stored = some oldEntry) : StoreOk (s.store call copy oldEntry e) := by
  obtain ⟨a, ha, hpublic⟩ := h.stored
  cases hstored.symm.trans ha
  have hnew : ∀ {a}, Public s a → (s.store call copy oldEntry e).stored ≠ some a :=
    fun hp heq => hp.ne_of_owner he howner (Option.some.inj heq).symm
  constructor
  · exact ⟨copy, rfl, { e with owner := none }, (heap_put s copy _ copy).trans (if_pos rfl), rfl⟩
  · intro p hp
    obtain rfl | hp := List.mem_cons.mp hp
    · exact ⟨hpublic.store, hnew hpublic⟩
    · exact ⟨(h.retired p hp).1.store, hnew (h.retired p hp).1⟩
  · refine List.nodup_cons.mpr ⟨fun hmem => ?_, h.nodup⟩
    obtain ⟨p, hp, heq⟩ := List.mem_map.mp hmem
    exact (h.retired p hp).2 (hstored.trans (congrArg some heq.symm))
  · intro a e' he'
    obtain ⟨e₀, he₀, hserial, -⟩ := heap_store he he'
    rw [← hserial]
    exact h.serials a e₀ he₀
  · intro a a' e₁ e₂ he₁ he₂ hserial
    obtain ⟨e₁', he₁', hserial₁, -⟩ := heap_store he he₁
    obtain ⟨e₂', he₂', hserial₂, -⟩ := heap_store he he₂
    exact h.unique a a' e₁' e₂' he₁' he₂' (hserial₁.trans (hserial.trans hserial₂.symm))

theorem frame_store (he : s.heap copy = some e) (howner : e.owner = some t)
    (hstored : s.stored = some oldEntry) (hu : u ≠ t) :
    Frame s (s.store call copy oldEntry e) u where
  readers := id
  serials := Nat.le_refl _
  own a e' he' hown :=
    (heap_put s copy _ a).trans ((if_neg (ne_of_owners he' hown he howner hu)).trans he')
  held a h := by
    refine ⟨h.1, h.2.1.store, Or.inr ?_⟩
    obtain ha | ⟨p, hp, hwaited⟩ := h.2.2
    · cases hstored.symm.trans ha
      exact ⟨(oldEntry, s.readers), List.mem_cons_self, rfl, h.1⟩
    · exact ⟨p, List.mem_cons_of_mem _ hp, hwaited⟩
  old a e' he' := by
    obtain ⟨e₀, he₀, hserial, hsame⟩ := heap_store he he'
    refine Or.inl ⟨e₀, he₀, hserial, fun hnone => hsame ?_⟩
    rintro rfl
    rw [he] at he₀
    cases he₀
    rw [howner] at hnone
    cases hnone

theorem eq_of_reclaim (hreclaim : s.reclaim n = some s') :
    ∃ address, s.retired[n]? = some (address, []) ∧
      s' = { s.put address none with retired := s.retired.eraseIdx n } := by
  unfold reclaim at hreclaim
  split at hreclaim
  · rename_i address hentry
    exact ⟨address, hentry, (Option.some.inj hreclaim).symm⟩
  · cases hreclaim

theorem retired_perm {p : Nat × List T} (hentry : s.retired[n]? = some p) :
    (p :: s.retired.eraseIdx n).Perm s.retired := by
  obtain ⟨hn, rfl⟩ := List.getElem?_eq_some_iff.mp hentry
  exact List.getElem_cons_eraseIdx_perm hn

theorem StoreOk.not_mem_eraseIdx (h : StoreOk s) {p : Nat × List T}
    (hentry : s.retired[n]? = some p) : p.1 ∉ (s.retired.eraseIdx n).map Prod.fst := by
  have hnodup := ((retired_perm hentry).map Prod.fst).nodup_iff.mpr h.nodup
  exact (List.nodup_cons.mp hnodup).1

theorem StoreOk.reclaim (h : StoreOk s) (hreclaim : s.reclaim n = some s') : StoreOk s' := by
  obtain ⟨address, hentry, rfl⟩ := eq_of_reclaim hreclaim
  have hmem := List.mem_of_getElem? hentry
  have hold : ∀ {a e}, (s.put address none).heap a = some e → s.heap a = some e := by
    intro a e he
    rw [heap_put] at he
    split at he
    · cases he
    · exact he
  constructor
  · obtain ⟨a, ha, hpublic⟩ := h.stored
    exact ⟨a, ha, hpublic.put (fun heq => (h.retired _ hmem).2 (ha.trans (congrArg some heq))) none⟩
  · intro p hp
    obtain ⟨hpublic, hne⟩ := h.retired p (List.mem_of_mem_eraseIdx hp)
    refine ⟨hpublic.put (fun heq => h.not_mem_eraseIdx hentry ?_) none, hne⟩
    exact List.mem_map.mpr ⟨p, hp, heq⟩
  · exact (List.nodup_cons.mp (((retired_perm hentry).map Prod.fst).nodup_iff.mpr h.nodup)).2
  · exact fun a e he => h.serials a e (hold he)
  · exact fun a a' e e' he he' => h.unique a a' e e' (hold he) (hold he')

theorem frame_reclaim (h : StoreOk s) (hreclaim : s.reclaim n = some s') (u : T) :
    Frame s s' u := by
  obtain ⟨address, hentry, rfl⟩ := eq_of_reclaim hreclaim
  have hmem := List.mem_of_getElem? hentry
  refine ⟨id, Nat.le_refl _, ?_, ?_, ?_⟩
  · intro a e he howner
    have hne := ((h.retired _ hmem).1.ne_of_owner he howner).symm
    exact (heap_put s address none a).trans ((if_neg hne).trans he)
  · rintro a ⟨hreader, hpublic, hwhy⟩
    -- the thread is waited for, so it is not this entry that is freed
    have hne : a ≠ address := by
      rintro rfl
      obtain hstored | ⟨p, hp, heq, hwaited⟩ := hwhy
      · exact (h.retired _ hmem).2 hstored
      · obtain rfl | hp := List.mem_cons.mp ((retired_perm hentry).mem_iff.mpr hp)
        · cases hwaited
        · exact h.not_mem_eraseIdx hentry (List.mem_map.mpr ⟨p, hp, heq⟩)
    refine ⟨hreader, hpublic.put hne none, hwhy.imp_right ?_⟩
    rintro ⟨p, hp, heq, hwaited⟩
    obtain rfl | hp := List.mem_cons.mp ((retired_perm hentry).mem_iff.mpr hp)
    · exact absurd heq.symm hne
    · exact ⟨p, hp, heq, hwaited⟩
  · intro a e' he'
    rw [show ({ s.put address none with retired := s.retired.eraseIdx n } :
      EditState α C T).heap a = _ from heap_put s address none a] at he'
    split at he'
    · cases he'
    · exact Or.inl ⟨e', he', rfl, fun _ => rfl⟩

theorem Ok.reclaim (h : Ok callback s) (hreclaim : s.reclaim n = some s') : Ok callback s' := by
  have hthreads : s'.threads = s.threads := by
    obtain ⟨address, -, rfl⟩ := eq_of_reclaim hreclaim
    rfl
  exact h.frame hthreads (h.1.reclaim hreclaim) fun u => frame_reclaim h.1 hreclaim u

theorem Ok.init (address : Nat) (node : α) :
    Ok callback (EditState.init address node : EditState α C T) := by
  have honly : ∀ a e, (EditState.init address node : EditState α C T).heap a = some e →
      a = address ∧ e.serial = 0 := by
    intro a e he
    simp only [EditState.init, Function.update_apply] at he
    split at he
    · exact ⟨‹_›, (congrArg NodeEntry.serial (Option.some.inj he)).symm⟩
    · cases he
  have hstored : Public (EditState.init address node : EditState α C T) address :=
    ⟨⟨none, node, 0, 0, none⟩, by simp only [EditState.init, Function.update_self], rfl⟩
  refine ⟨⟨⟨address, rfl, hstored⟩, (fun _ hp => nomatch hp), List.nodup_nil, fun a e he => ?_,
    fun a a' e e' he he' _ => ?_⟩, fun _ => trivial⟩
  · rw [(honly a e he).2]
    exact Nat.one_pos
  · exact (honly a e he).1.trans (honly a' e' he').1.symm

end EditState

end FactoryThing.NodeStore
