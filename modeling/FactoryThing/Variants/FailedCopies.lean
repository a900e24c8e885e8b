import FactoryThing.Variants.CleanUp

/-!
# All or nothing

A copy of a range is all or nothing for every pattern of failing allocations just if it is refused
at once or is one of the kinds that are cleaned up. For all others there is a single call whose
failure is enough.
-/

namespace FactoryThing.Variants

open RowMajor Stateful
open Encoding (int32Max)

variable {α : Type}

variable {r : StatusCode × Slot (UaVariant α)} {c : StatusCode × List (Slot α)} {items : List α}

/-- Variants and those inside of them: a type that is like a string has a pointer. -/
structure Typed (env : Elements α) (S : UaVariant α → Prop) : Prop where
  pointers : ∀ {v type}, S v → v.type = some type → isStringLike type = true →
    type.pointerFree = false
  inside : ∀ {v x}, S v → v.type = some (builtinType .variant) → x ∈ v.data.items →
    S (env.variant x)

/-- The elements that are Variants can be read as such, and an element that owns memory is not an
empty one. -/
structure Lawful (env : Elements α) (owns : α → Prop) : Prop where
  variant_ofVariant : ∀ w, env.variant (env.ofVariant w) = w
  ne_zero : ∀ type x, owns x → x ≠ env.zero type

section Inversion

variable {env : Elements α} {type : TypeDescription} {v : UaVariant α} {range : NumericRange}
  {s : Strides} {n n' : Nat}

theorem of_run_taken (htype : v.type = some type) (hstrides : copyStrides v range = .ok s)
    (halloc : env.alloc n = true) {fuel : Nat}
    (h : (variantCopyRange env (fuel + 1) v range).run n = .ok (r, n')) :
    s.block ≠ 0 ∧ ∃ c n1, (copyContents env fuel type v range s).run (n + 1) = .ok (c, n1) ∧
      (settleCopy env type v range s c).run n1 = .ok (r, n') := by
  rw [variantCopyRange_taken htype hstrides,
    run_bind_of_ok (show (malloc env).run n = .ok (env.alloc n, n + 1) from rfl), halloc,
    if_neg (by decide)] at h
  obtain ⟨-, h⟩ | ⟨hblock, h⟩ := run_ite_cases h
  · exact (run_throw_ok.mp h).elim
  · exact ⟨hblock, run_bind_ok.mp h⟩

theorem slots_of_written {slots : List (Slot α)}
    (hreleased : Slot.released ∉ slots.map (Slot.map fun _ => ()))
    (hunwritten : Slot.unwritten ∉ slots.map (Slot.map fun _ => ())) :
    ∃ items : List α, slots = items.map Slot.holds := by
  induction slots with
  | nil => exact ⟨[], rfl⟩
  | cons slot slots ih =>
    rw [List.map_cons, List.mem_cons, not_or] at hreleased hunwritten
    obtain ⟨items, rfl⟩ := ih hreleased.2 hunwritten.2
    cases slot with
    | unwritten => exact absurd rfl hunwritten.1
    | holds x => exact ⟨x :: items, rfl⟩
    | released => exact absurd rfl hreleased.1

theorem of_run_arrayDelete {size : Nat} {slots : List (Slot α)} {u : Unit}
    (h : (arrayDelete type size slots).run n = .ok (u, n')) : type.pointerFree = true ∨
      ∃ items : List α, slots = items.map Slot.holds ∧ size ≤ items.length := by
  obtain ⟨hfree, -⟩ | ⟨-, h⟩ := run_ite_cases h
  · exact .inl hfree
  obtain ⟨-, h⟩ | ⟨hreleased, h⟩ := run_ite_cases h
  · exact (run_throw_ok.mp h).elim
  obtain ⟨-, h⟩ | ⟨hwritten, -⟩ := run_ite_cases h
  · exact (run_throw_ok.mp h).elim
  rw [not_or] at hwritten
  obtain ⟨items, rfl⟩ := slots_of_written hreleased hwritten.2
  rw [List.length_map] at hwritten
  exact .inr ⟨items, rfl, Nat.not_lt.mp hwritten.1⟩

theorem slots_of_values {slots : List (Slot α)}
    (h : Slot.values slots = some items) : slots = items.map Slot.holds := by
  induction slots generalizing items with
  | nil => rw [← Option.some.inj h, List.map_nil]
  | cons slot slots ih =>
    cases slot with
    | unwritten | released => cases h
    | holds x =>
      obtain ⟨items', hitems, rfl⟩ := Option.map_eq_some_iff.mp h
      rw [ih hitems, List.map_cons]

theorem of_run_settleCopy
    (h : (settleCopy env type v range s c).run n = .ok (r, n')) :
    (c.1 ≠ StatusCode.good ∧ r = (c.1, .holds emptyVariant) ∧ (type.pointerFree = true ∨
      ∃ items : List α, c.2 = items.map Slot.holds ∧ s.total ≤ items.length)) ∨
    (c.1 = StatusCode.good ∧ ∃ items, c.2 = items.map Slot.holds ∧
      (copyRangeFinish env type v (thisRange v range) items).run n = .ok (r, n')) := by
  obtain ⟨hbad, h⟩ | ⟨hgood, h⟩ := run_ite_cases h
  · obtain ⟨u, n1, hdelete, h⟩ := run_bind_ok.mp h
    exact .inl ⟨hbad, (run_pure_ok.mp h).1, of_run_arrayDelete hdelete⟩
  · refine .inr ⟨not_not.mp hgood, ?_⟩
    split at h
    · exact (run_throw_ok.mp h).elim
    next items hitems => exact ⟨items, slots_of_values hitems, h⟩

theorem of_run_copyRangeFinish {thisrange : NumericRange}
    (h : (copyRangeFinish env type v thisrange items).run n = .ok (r, n')) :
    items ≠ [] ∧ ((r.1 = StatusCode.good ∧ ∃ dst, r.2 = .holds dst ∧ dst.data.items = items ∧
        (Undimensioned v ∨ env.alloc n = true)) ∨ r.2 = .released) := by
  obtain ⟨hscalar, h⟩ | ⟨hscalar, h⟩ := run_ite_cases h
  · split at h
    next x =>
      obtain ⟨rfl, rfl⟩ := run_pure_ok.mp h
      exact ⟨List.cons_ne_nil _ _, .inl ⟨rfl, _, rfl, rfl, .inl (.inl hscalar)⟩⟩
    · exact (run_throw_ok.mp h).elim
  · split at h
    · exact (run_throw_ok.mp h).elim
    next hne =>
      obtain ⟨hdims, h⟩ | ⟨hdims, h⟩ := run_ite_cases h
      · obtain ⟨⟨-, halloc⟩, h⟩ | ⟨-, h⟩ := run_ite_cases h
        · obtain ⟨rfl, rfl⟩ := run_pure_ok.mp h
          exact ⟨hne, .inl ⟨rfl, _, rfl, rfl, .inr halloc⟩⟩
        · obtain ⟨rfl, rfl⟩ := run_pure_ok.mp h
          exact ⟨hne, .inr rfl⟩
      · obtain ⟨rfl, rfl⟩ := run_pure_ok.mp h
        exact ⟨hne, .inl ⟨rfl, _, rfl, rfl, .inl (.inr (Nat.eq_zero_of_not_pos hdims))⟩⟩

theorem of_run_mapM {β : Type} {visit : Nat → RangeM β} {ps : List Nat} {ys : List β}
    (h : (ps.mapM visit).run n = .ok (ys, n')) :
    ∀ p ∈ ps, ∃ k y k', (visit p).run k = .ok (y, k') := by
  induction ps generalizing ys n n' with
  | nil => exact fun p hp => nomatch hp
  | cons p ps ih =>
    rw [List.mapM_cons] at h
    obtain ⟨y, n1, hy, h⟩ := run_bind_ok.mp h
    obtain ⟨zs, n2, hzs, -⟩ := run_bind_ok.mp h
    exact List.forall_mem_cons.mpr ⟨⟨n, y, n1, hy⟩, ih hzs⟩

theorem of_run_copyContents_whole (hnext : nextRange v range = []) {fuel : Nat}
    (h : (copyContents env fuel type v range s).run n = .ok (c, n')) :
    ∃ xs, Selects v.data.items (visited s) xs := by
  apply exists_selects
  unfold copyContents copyElements at h
  rw [if_pos (by rw [hnext]; rfl), visitBlocks_eq, visitBlocks_eq, ← visited] at h
  obtain ⟨-, h⟩ | ⟨-, h⟩ := run_ite_cases h
  · obtain ⟨ys, n1, hys, -⟩ := run_bind_ok.mp h
    intro i hi
    obtain ⟨k, x, k', hx⟩ := of_run_mapM hys i hi
    exact ⟨x, (of_run_readElement hx).1⟩
  · obtain ⟨ys, n1, hys, -⟩ := run_bind_ok.mp h
    intro i hi
    obtain ⟨k, y, k', hy⟩ := of_run_mapM hys i hi
    obtain ⟨x, k1, hx, -⟩ := run_bind_ok.mp hy
    exact ⟨x, (of_run_readElement hx).1⟩

end Inversion

section Failure

variable (env : Elements α) (owns : α → Prop) [DecidablePred owns]

/-- At most the call with one number fails. -/
def failsAt (call : Option Nat) : MemoryPattern owns where
  alloc n := decide (some n ≠ call)
  copyStatus n x :=
    if some n = call ∧ owns x then StatusCode.badOutOfMemory else StatusCode.good
  good_of_not_owns _ _ h := if_neg fun hand => h hand.2

/-- There is a Variant in the result, and with a good status it is complete. -/
def Held (depth : Nat) (v : UaVariant α) (range : NumericRange)
    (r : StatusCode × Slot (UaVariant α)) : Prop :=
  ∃ dst, r.2 = .holds dst ∧ (r.1 = StatusCode.good → IsCopy env depth v range dst)

/-- From the call with the number `n` on, the result is held whichever call fails. -/
def HeldFrom (n : Nat) (v : UaVariant α) (range : NumericRange) : Prop :=
  ∀ call : Option Nat, (∀ k ∈ call, n ≤ k) → ∃ depth, ∀ fuel ≥ depth, ∃ r n',
    (variantCopyRange (env.withMemory (failsAt owns call)) fuel v range).run n = .ok (r, n') ∧
      Held env fuel v range r

variable {env owns} {type : TypeDescription} {v : UaVariant α} {range : NumericRange}
  {s : Strides} {n : Nat}

theorem alloc_failsAt {call : Option Nat} (h : some n ≠ call) :
    (env.withMemory (failsAt owns call)).alloc n = true := decide_eq_true h

theorem alloc_failsAt_self : (env.withMemory (failsAt owns (some n))).alloc n = false :=
  decide_eq_false (not_not_intro rfl)

theorem copyStatus_failsAt {call : Option Nat} (h : some n ≠ call) (x : α) :
    (failsAt owns call).copyStatus n x = StatusCode.good :=
  if_neg fun hand => h hand.1

theorem sameBefore_failsAt (limit : Nat) :
    SameBefore limit (failsAt owns none) (failsAt owns (some limit)) := by
  have hne : ∀ n < limit, some n ≠ some limit := fun n hlt heq => hlt.ne (Option.some.inj heq)
  refine ⟨fun n hlt => ?_, fun n hlt x => ?_⟩
  · exact (decide_eq_true (Option.some_ne_none n)).trans (decide_eq_true (hne n hlt)).symm
  · rw [copyStatus_failsAt (Option.some_ne_none n), copyStatus_failsAt (hne n hlt)]

theorem HeldFrom.taken (h : HeldFrom env owns n v range) (htype : v.type = some type)
    (hstrides : copyStrides v range = .ok s) {call : Option Nat} (hcall : ∀ k ∈ call, n < k) :
    ∃ depth, ∀ fuel ≥ depth, s.block ≠ 0 ∧ ∃ c n1 r n',
      (copyContents (env.withMemory (failsAt owns call)) fuel type v range s).run (n + 1) =
          .ok (c, n1) ∧
        (settleCopy (env.withMemory (failsAt owns call)) type v range s c).run n1 = .ok (r, n') ∧
        Held env (fuel + 1) v range r := by
  obtain ⟨depth, hruns⟩ := h call fun k hk => (hcall k hk).le
  refine ⟨depth, fun fuel hfuel => ?_⟩
  obtain ⟨r, n', hrun, hheld⟩ := hruns (fuel + 1) (Nat.le_succ_of_le hfuel)
  have halloc : (env.withMemory (failsAt owns call)).alloc n = true :=
    alloc_failsAt fun heq => (hcall n (heq ▸ rfl)).false
  obtain ⟨hblock, c, n1, hcontents, hsettle⟩ := of_run_taken htype hstrides halloc hrun
  exact ⟨hblock, c, n1, r, n', hcontents, hsettle, hheld⟩

theorem HeldFrom.undimensioned (h : HeldFrom env owns n v range) (htype : v.type = some type)
    (hstrides : copyStrides v range = .ok s) {fuel n1 : Nat}
    (hcontents : (copyContents (env.withMemory (failsAt owns none)) fuel type v range s).run
      (n + 1) = .ok (c, n1)) (hgood : c.1 = StatusCode.good) : Undimensioned v := by
  have hlt : n < n1 :=
    (((sameBefore_failsAt n1).copyContents (Nat.le_refl fuel) type v range s) _ _ _ hcontents).1
  have hcall : ∀ k ∈ some n1, n < k := by
    rintro _ ⟨⟩
    exact hlt
  obtain ⟨depth, htaken⟩ := h.taken htype hstrides hcall
  obtain ⟨-, c', n1', r, n', hcontents', hsettle, dst, hdst, -⟩ :=
    htaken (max fuel depth) (Nat.le_max_right _ _)
  have hsame := (((sameBefore_failsAt n1).copyContents (Nat.le_max_left fuel depth) type v range s)
    _ _ _ hcontents).2 (Nat.le_refl n1)
  obtain ⟨rfl, rfl⟩ := Prod.mk.inj (Except.ok.inj (hsame.symm.trans hcontents'))
  obtain ⟨hbad, -⟩ | ⟨-, items, -, hfinish⟩ := of_run_settleCopy hsettle
  · exact absurd hgood hbad
  · obtain ⟨-, ⟨-, -, -, -, hdims | halloc⟩ | hreleased⟩ := of_run_copyRangeFinish hfinish
    · exact hdims
    · rw [alloc_failsAt_self] at halloc
      cases halloc
    · rw [hreleased] at hdst
      cases hdst

theorem selects_of_isCopy (hstrides : copyStrides v range = .ok s) (hnext : nextRange v range = [])
    {depth : Nat} {dst : UaVariant α} (h : IsCopy env depth v range dst) :
    dst.data.items.length = s.total ∧ Selects v.data.items (visited s) dst.data.items := by
  cases depth with
  | zero => exact h.elim
  | succ depth =>
    obtain ⟨type, s', -, hs, -, -, hlen, hcopies⟩ := h
    obtain rfl := Except.ok.inj (hstrides.symm.trans hs)
    refine ⟨hlen, selects_of_forall₂ (hcopies.imp ?_)⟩
    rintro i y ⟨x, hx, hy⟩
    rw [ElementCopy.eq_def, hnext] at hy
    rw [hx, show y = x from hy]

theorem selects_inj {ps : List Nat} {xs ys : List α} (hx : Selects items ps xs)
    (hy : Selects items ps ys) : xs = ys :=
  List.map_injective_iff.mpr (Option.some_injective α) (hx.trans hy.symm)

theorem exists_of_selects {ps : List Nat} {xs : List α} (h : Selects items ps xs) :
    ∀ i ∈ ps, ∃ x, items[i]? = some x := by
  intro i hi
  have hmem : items[i]? ∈ xs.map some := by
    rw [h]
    exact List.mem_map_of_mem hi
  obtain ⟨x, -, hx⟩ := List.mem_map.mp hmem
  exact ⟨x, hx.symm⟩

theorem mem_dropLast_of_selects {ps : List Nat} {xs : List α}
    (h : Selects items ps xs) {i : Nat} (hi : i ∈ ps.dropLast) {x : α} (hx : items[i]? = some x) :
    x ∈ xs.dropLast := by
  have hfront : xs.dropLast.map some = ps.dropLast.map (items[·]?) := by
    rw [List.map_dropLast, List.map_dropLast, h]
  have hmem : some x ∈ xs.dropLast.map some := by
    rw [hfront, ← hx]
    exact List.mem_map_of_mem hi
  obtain ⟨y, hy, heq⟩ := List.mem_map.mp hmem
  exact Option.some.inj heq ▸ hy

theorem exists_split_of_mem_dropLast {β : Type} {l : List β} {b : β} (h : b ∈ l.dropLast) :
    ∃ front back, l = front ++ b :: back ∧ back ≠ [] := by
  obtain ⟨front, back, heq⟩ := List.append_of_mem h
  have hne : l ≠ [] := by
    rintro rfl
    cases h
  refine ⟨front, back ++ [l.getLast hne], ?_, List.append_ne_nil_of_right_ne_nil _
    (List.cons_ne_nil _ _)⟩
  rw [← List.cons_append, ← List.append_assoc, ← heq, List.dropLast_append_getLast]

theorem copied_failsAt (type : TypeDescription) (n : Nat) (front : List α) {x : α} {back : List α}
    (howns : owns x) (hback : back ≠ []) :
    lastStatus (copied (env.withMemory (failsAt owns (some (n + front.length)))) type n
        (front ++ x :: back)) = StatusCode.good ∧
      (copied (env.withMemory (failsAt owns (some (n + front.length)))) type n
        (front ++ x :: back)).map Prod.snd = front ++ env.zero type :: back := by
  have hfront : copied (env.withMemory (failsAt owns (some (n + front.length)))) type n front =
      front.map fun x => (StatusCode.good, x) := by
    refine copied_of_good fun k y _ hlt _ => copyStatus_failsAt (fun heq => ?_) y
    exact hlt.ne (Option.some.inj heq)
  have hrest : copied (env.withMemory (failsAt owns (some (n + front.length)))) type
      (n + front.length + 1) back = back.map fun x => (StatusCode.good, x) := by
    refine copied_of_good fun k y hle _ _ => copyStatus_failsAt (fun heq => ?_) y
    exact Nat.ne_of_gt hle (Option.some.inj heq)
  have hx : (env.withMemory (failsAt owns (some (n + front.length)))).copyStatus
      (n + front.length) x = StatusCode.badOutOfMemory := if_pos ⟨rfl, howns⟩
  rw [copied_append, hfront, copied, hrest, hx, if_neg (by decide), lastStatus_append_cons]
  constructor
  · obtain ⟨y, back, rfl⟩ := List.exists_cons_of_ne_nil hback
    exact (lastStatus_append_cons [_] _ _).trans (lastStatus_of_good (y :: back))
  · rw [List.map_append, List.map_cons, List.map_map, List.map_map]
    simp only [Function.comp_def, List.map_id']
    rfl

theorem HeldFrom.whole (hlaw : Lawful env owns) (h : HeldFrom env owns n v range)
    (htype : v.type = some type) (hstrides : copyStrides v range = .ok s)
    (hnext : nextRange v range = []) : CleanUp env owns true v range := by
  have hnone : ∀ k ∈ none, n < k := nofun
  obtain ⟨fuel, htaken⟩ := h.taken htype hstrides hnone
  obtain ⟨hblock, c, n1, r, n', hcontents, hsettle, dst, hdst, hcopy⟩ :=
    htaken fuel (Nat.le_refl fuel)
  obtain ⟨xs, hxs⟩ := of_run_copyContents_whole hnext hcontents
  have hrun := @run_copyContents_whole _ (env.withMemory (failsAt owns none)) type v range s hnext
    xs hxs fuel (n + 1)
  have hcopied : copied (env.withMemory (failsAt owns none)) type (n + 1) xs =
      xs.map fun x => (StatusCode.good, x) :=
    copied_of_good fun k y _ _ _ => @copyStatus_failsAt _ owns _ k none (Option.some_ne_none k) y
  have hall : c = (StatusCode.good, xs.map Slot.holds) := by
    rw [hcontents, hcopied, lastStatus_of_good, List.map_map] at hrun
    by_cases hfree : type.pointerFree = true
    · rw [if_pos hfree] at hrun
      exact (Prod.mk.inj (Except.ok.inj hrun)).1
    · rw [if_neg hfree] at hrun
      exact (Prod.mk.inj (Except.ok.inj hrun)).1
  subst hall
  have hdims := h.undimensioned htype hstrides hcontents rfl
  obtain ⟨hbad, -⟩ | ⟨-, items, hitems, hfinish⟩ := of_run_settleCopy hsettle
  · exact absurd rfl hbad
  obtain ⟨hne, ⟨hgood, dst', hdst', rfl, -⟩ | hreleased⟩ := of_run_copyRangeFinish hfinish
  swap
  · rw [hreleased] at hdst
    cases hdst
  obtain rfl := Slot.holds.inj (hdst.symm.trans hdst')
  obtain ⟨hlen, hselects⟩ := selects_of_isCopy hstrides hnext (hcopy hgood)
  have hpositions : (visited s).length = s.total := by rw [← length_of_selects hselects, hlen]
  refine .whole htype hstrides hnext hdims ⟨hblock, ?_, fun i hi j hj => ?_⟩ ?_ ?_
  · refine ⟨s.total / s.block, ?_⟩
    rw [Nat.mul_comm, ← length_blocks (s.total / s.block) s.block s.stride s.first, ← visited,
      hpositions]
  · obtain ⟨x, hx⟩ := exists_of_selects hselects _ (mem_blocks.mpr ⟨i, hi, j, hj, rfl⟩)
    exact (List.getElem?_eq_some_iff.mp hx).1
  · rw [← hlen]
    exact (List.length_pos_iff.mpr hne).ne'
  · by_contra hboth
    rw [not_or] at hboth
    obtain ⟨hfree, hmemory⟩ := hboth
    refine hmemory fun i hi x hx howns => ?_
    obtain ⟨front, back, rfl, hback⟩ :=
      exists_split_of_mem_dropLast (mem_dropLast_of_selects hxs hi hx)
    obtain ⟨hlast, hzero⟩ := @copied_failsAt _ env owns _ type (n + 1) front x back howns hback
    have hcall : ∀ k ∈ some (n + 1 + front.length), n < k := by
      rintro _ ⟨⟩
      omega
    obtain ⟨fuel', htaken'⟩ := h.taken htype hstrides hcall
    obtain ⟨-, c', n1', r', n'', hcontents', hsettle', dst', hdst', hcopy'⟩ :=
      htaken' fuel' (Nat.le_refl fuel')
    have hrun' := @run_copyContents_whole _
      (env.withMemory (failsAt owns (some (n + 1 + front.length)))) type v range s hnext _ hxs
      fuel' (n + 1)
    rw [if_neg hfree, hlast, hcontents'] at hrun'
    obtain rfl := (Prod.mk.inj (Except.ok.inj hrun')).1
    obtain ⟨hbad, -⟩ | ⟨-, items', hitems', hfinish'⟩ := of_run_settleCopy hsettle'
    · exact hbad rfl
    obtain ⟨-, ⟨hgood', dst'', hdst'', rfl, -⟩ | hreleased⟩ := of_run_copyRangeFinish hfinish'
    · obtain rfl := Slot.holds.inj (hdst'.symm.trans hdst'')
      have hselects' := (selects_of_isCopy hstrides hnext (hcopy' hgood')).2
      have hwritten : dst'.data.items = front ++ env.zero type :: back := by
        rw [← hzero]
        refine List.map_injective_iff.mpr (fun _ _ => Slot.holds.inj) ?_
        rw [← hitems', List.map_map]
        rfl
      rw [hwritten] at hselects'
      have heq := List.append_cancel_left (selects_inj hxs hselects')
      exact hlaw.ne_zero type x howns (List.cons.inj heq).1
    · rw [hreleased] at hdst'
      cases hdst'

theorem HeldFrom.unsuited (h : HeldFrom env owns n v range) (htype : v.type = some type)
    (hstrides : copyStrides v range = .ok s) (hnext : nextRange v range ≠ [])
    (hvariant : type ≠ builtinType .variant)
    (hstring : isStringLike type = false ∨ (nextRange v range).length ≠ 1) :
    CleanUp env owns false v range := by
  have hnone : ∀ k ∈ none, n < k := nofun
  obtain ⟨fuel, htaken⟩ := h.taken htype hstrides hnone
  obtain ⟨hblock, c, n1, r, n', hcontents, hsettle, -⟩ := htaken fuel (Nat.le_refl fuel)
  rw [copyContents_nested hnext, if_pos ⟨hvariant, hstring⟩, nestedEach_of_bad (by decide)]
    at hcontents
  obtain ⟨rfl, rfl⟩ := run_pure_ok.mp hcontents
  refine .unsuited htype hstrides hnext hvariant hstring hblock ?_
  obtain ⟨-, -, hfree | ⟨items, hitems, hle⟩⟩ | ⟨hgood, -⟩ := of_run_settleCopy hsettle
  · exact .inl hfree
  · rw [List.map_eq_nil_iff.mp hitems.symm] at hle
    exact .inr (Nat.eq_zero_of_le_zero hle)
  · exact absurd hgood (show StatusCode.badIndexRangeNoData ≠ StatusCode.good by decide)

theorem copyStrides_error {retval : StatusCode} (h : copyStrides v range = .error retval) :
    retval ≠ StatusCode.good := by
  unfold copyStrides at h
  split at h
  · cases h
    decide
  · exact computeStrides_error h

theorem copyInside_failsAt {fuel n' : Nat} {next : NumericRange} {x : α}
    {r : StatusCode × Slot α}
    (h : (copyInside (env.withMemory (failsAt owns (some n))) fuel type next x).run n =
      .ok (r, n')) : r.1 ≠ StatusCode.good := by
  have hfails : (malloc (env.withMemory (failsAt owns (some n)))).run n = .ok (false, n + 1) := by
    show Except.ok ((env.withMemory (failsAt owns (some n))).alloc n, n + 1) = _
    rw [alloc_failsAt_self]
  obtain ⟨-, h⟩ | ⟨-, h⟩ := run_ite_cases h
  · cases next with
    | nil => exact (run_throw_ok.mp h).elim
    | cons dim next =>
      obtain ⟨r', n1, hsub, h⟩ := run_bind_ok.mp h
      obtain ⟨rfl, -⟩ := run_pure_ok.mp h
      show r'.1 ≠ StatusCode.good
      obtain ⟨-, hsub⟩ | ⟨-, hsub⟩ := run_ite_cases hsub
      · rw [(run_pure_ok.mp hsub).1]
        decide
      obtain ⟨-, hsub⟩ | ⟨-, hsub⟩ := run_ite_cases hsub
      · rw [(run_pure_ok.mp hsub).1]
        decide
      rw [run_bind_of_ok hfails, if_neg (by decide)] at hsub
      rw [(run_pure_ok.mp hsub).1]
      decide
  · obtain ⟨r', n1, hinner, h⟩ := run_bind_ok.mp h
    obtain ⟨rfl, -⟩ := run_pure_ok.mp h
    cases fuel with
    | zero => exact (run_throw_ok.mp hinner).elim
    | succ fuel =>
      cases htype : (env.variant x).type with
      | none =>
        have hinner : (variantCopyRange (env.withMemory (failsAt owns (some n))) (fuel + 1)
          (env.variant x) next).run n = _ := hinner
        rw [variantCopyRange_untyped htype] at hinner
        exact (run_throw_ok.mp hinner).elim
      | some t =>
        have hinner : (variantCopyRange (env.withMemory (failsAt owns (some n))) (fuel + 1)
          (env.variant x) next).run n = _ := hinner
        cases hstrides : copyStrides (env.variant x) next with
        | error retval =>
          rw [variantCopyRange_refused htype hstrides] at hinner
          rw [(run_pure_ok.mp hinner).1]
          exact copyStrides_error hstrides
        | ok s =>
          rw [variantCopyRange_taken htype hstrides, run_bind_of_ok hfails, if_pos rfl] at hinner
          rw [(run_pure_ok.mp hinner).1]
          exact show StatusCode.badOutOfMemory ≠ StatusCode.good by decide

theorem HeldFrom.single (h : HeldFrom env owns n v range) (htype : v.type = some type)
    (hstrides : copyStrides v range = .ok s) (hnext : nextRange v range ≠ [])
    (hkind : ¬ (type ≠ builtinType .variant ∧
      (isStringLike type = false ∨ (nextRange v range).length ≠ 1)))
    (hpointers : type.pointerFree = false) : ∃ i, visited s = [i] := by
  have hpointers : ¬ type.pointerFree = true := by rw [hpointers]; decide
  match hvisited : visited s with
  | [i] => exact ⟨i, rfl⟩
  | [] =>
    have hnone : ∀ k ∈ none, n < k := nofun
    obtain ⟨fuel, htaken⟩ := h.taken htype hstrides hnone
    obtain ⟨-, c, n1, r, n', hcontents, hsettle, -⟩ := htaken fuel (Nat.le_refl fuel)
    rw [copyContents_nested hnext, if_neg hkind, hvisited] at hcontents
    obtain ⟨rfl, rfl⟩ := run_pure_ok.mp hcontents
    obtain ⟨hbad, -⟩ | ⟨-, items, hitems, hfinish⟩ := of_run_settleCopy hsettle
    · exact absurd rfl hbad
    · exact absurd (List.map_eq_nil_iff.mp hitems.symm) (of_run_copyRangeFinish hfinish).1
  | i :: j :: ps =>
    have hcall : ∀ k ∈ some (n + 1), n < k := by
      rintro _ ⟨⟩
      exact Nat.lt_succ_self n
    obtain ⟨fuel, htaken⟩ := h.taken htype hstrides hcall
    obtain ⟨-, c, n1, r, n', hcontents, hsettle, -⟩ := htaken fuel (Nat.le_refl fuel)
    rw [copyContents_nested hnext, if_neg hkind, hvisited] at hcontents
    obtain ⟨⟨retval, y⟩, n2, hfirst, -⟩ := run_bind_ok.mp
      (show (_ >>= _ : RangeM _).run (n + 1) = _ from hcontents)
    obtain ⟨x, n3, hread, hinside⟩ := run_bind_ok.mp hfirst
    obtain ⟨-, rfl⟩ := of_run_readElement hread
    have hbad := copyInside_failsAt hinside
    rw [run_nestedEach_of_bad hfirst hbad] at hcontents
    obtain ⟨rfl, -⟩ := Prod.mk.inj (Except.ok.inj hcontents)
    obtain ⟨-, -, hfree | ⟨items, hitems, hle⟩⟩ | ⟨hgood, -⟩ := of_run_settleCopy hsettle
    · exact absurd hfree hpointers
    · have hlen := congrArg List.length hitems
      have hmany := congrArg List.length hvisited
      have hcount := Nat.div_mul_le_self s.total s.block
      rw [List.length_map] at hlen
      rw [visited, length_blocks] at hmany
      simp only [List.length_cons, List.length_nil] at hlen hmany
      omega
    · exact absurd hgood hbad

omit [DecidablePred owns] in
theorem of_run_copyContents_single {m : MemoryPattern owns} {i n1 fuel : Nat}
    (hnext : nextRange v range ≠ []) (hkind : ¬ (type ≠ builtinType .variant ∧
      (isStringLike type = false ∨ (nextRange v range).length ≠ 1)))
    (hsingle : visited s = [i])
    (h : (copyContents (env.withMemory m) fuel type v range s).run n = .ok (c, n1)) :
    ∃ x r, v.data.items[i]? = some x ∧
      (copyInside (env.withMemory m) fuel type (nextRange v range) x).run n = .ok (r, n1) ∧
      c = (r.1, [r.2]) := by
  rw [copyContents_nested hnext, if_neg hkind, hsingle, nestedEach_single] at h
  obtain ⟨r, n3, hvisit, hpure⟩ := run_bind_ok.mp h
  obtain ⟨x, n2, hread, hinside⟩ := run_bind_ok.mp hvisit
  obtain ⟨hx, rfl⟩ := of_run_readElement hread
  obtain ⟨rfl, rfl⟩ := run_pure_ok.mp hpure
  exact ⟨x, r, hx, hinside, rfl⟩

theorem HeldFrom.string (h : HeldFrom env owns n v range) (htype : v.type = some type)
    (hstrides : copyStrides v range = .ok s) (hpointers : type.pointerFree = false)
    (hstring : isStringLike type = true) {dim : RangeDimension}
    (hnext : nextRange v range = [dim]) :
    CleanUp env owns true v range := by
  have hne : nextRange v range ≠ [] := by
    rw [hnext]
    exact List.cons_ne_nil _ _
  have hkind : ¬ (type ≠ builtinType .variant ∧
      (isStringLike type = false ∨ (nextRange v range).length ≠ 1)) := by
    rw [hstring, hnext]
    rintro ⟨-, hno | hno⟩
    · cases hno
    · exact hno rfl
  obtain ⟨i, hsingle⟩ := h.single htype hstrides hne hkind hpointers
  have hnone : ∀ k ∈ none, n < k := nofun
  obtain ⟨fuel, htaken⟩ := h.taken htype hstrides hnone
  obtain ⟨-, c, n1, r, n', hcontents, hsettle, -⟩ := htaken fuel (Nat.le_refl fuel)
  obtain ⟨x, r', hread, hinside, rfl⟩ := of_run_copyContents_single hne hkind hsingle hcontents
  rw [copyInside.eq_def, if_pos hstring, hnext] at hinside
  obtain ⟨⟨retval, slot⟩, n2, hsub, hinside⟩ := run_bind_ok.mp hinside
  obtain ⟨rfl, rfl⟩ := run_pure_ok.mp hinside
  -- nothing has been written when the string is too short
  have hwritten : retval ≠ StatusCode.good → slot ≠ .unwritten := by
    rintro hbad rfl
    obtain ⟨-, -, hfree | ⟨items, hitems, -⟩⟩ | ⟨hgood, -⟩ := of_run_settleCopy hsettle
    · rw [hpointers] at hfree
      cases hfree
    · cases items with
      | nil => cases hitems
      | cons y items => cases (List.cons.inj hitems).1
    · exact hbad hgood
  obtain ⟨-, hsub⟩ | ⟨hmin, hsub⟩ := run_ite_cases hsub
  · obtain ⟨hpair, -⟩ := run_pure_ok.mp hsub
    obtain ⟨rfl, rfl⟩ := Prod.mk.inj hpair
    exact absurd rfl (hwritten (by decide))
  obtain ⟨-, hsub⟩ | ⟨hmax, hsub⟩ := run_ite_cases hsub
  · obtain ⟨hpair, -⟩ := run_pure_ok.mp hsub
    obtain ⟨rfl, rfl⟩ := Prod.mk.inj hpair
    exact absurd rfl (hwritten (by decide))
  have halloc : (malloc (env.withMemory (failsAt owns none))).run (n + 1) = .ok (true, n + 2) := by
    show Except.ok ((env.withMemory (failsAt owns none)).alloc (n + 1), n + 2) = _
    rw [alloc_failsAt (Option.some_ne_none _)]
  rw [run_bind_of_ok halloc, if_pos rfl] at hsub
  obtain ⟨hpair, -⟩ := run_pure_ok.mp hsub
  have hgood : retval = StatusCode.good := (Prod.mk.inj hpair).1
  exact .string htype hstrides hnext hstring (h.undimensioned htype hstrides hcontents hgood)
    hsingle hread (UInt32.not_lt.mp hmin) (Nat.not_le.mp hmax)

theorem isStringLike_variant : isStringLike (builtinType .variant) = false := by decide

omit [DecidablePred owns] in
theorem of_run_copyInside_variant {m : MemoryPattern owns} {n1 fuel : Nat} {next : NumericRange}
    {x : α} {r : StatusCode × Slot α}
    (h : (copyInside (env.withMemory m) fuel (builtinType .variant) next x).run n = .ok (r, n1)) :
    ∃ r', (variantCopyRange (env.withMemory m) fuel (env.variant x) next).run n = .ok (r', n1) ∧
      r = (r'.1, r'.2.map env.ofVariant) := by
  obtain ⟨r', n2, hrun, h⟩ := run_bind_ok.mp h
  obtain ⟨rfl, rfl⟩ := run_pure_ok.mp h
  exact ⟨r', hrun, rfl⟩

theorem HeldFrom.inner (hlaw : Lawful env owns) (h : HeldFrom env owns n v range)
    (htype : v.type = some (builtinType .variant)) (hstrides : copyStrides v range = .ok s)
    (hnext : nextRange v range ≠ []) {i : Nat} (hsingle : visited s = [i]) {x : α}
    (hread : v.data.items[i]? = some x) :
    HeldFrom env owns (n + 1) (env.variant x) (nextRange v range) := by
  intro call hcall
  obtain ⟨depth, htaken⟩ := h.taken htype hstrides hcall
  refine ⟨depth, fun fuel hfuel => ?_⟩
  obtain ⟨-, c, n1, r, n', hcontents, hsettle, dst, hdst, hcopy⟩ := htaken fuel hfuel
  obtain ⟨x', ri, hread', hinside, rfl⟩ :=
    of_run_copyContents_single hnext (fun hand => hand.1 rfl) hsingle hcontents
  obtain rfl := Option.some.inj (hread.symm.trans hread')
  obtain ⟨⟨retval, slot⟩, hrun, rfl⟩ := of_run_copyInside_variant hinside
  refine ⟨_, _, hrun, ?_⟩
  have hslot : ∀ {items : List α}, [slot.map env.ofVariant] = items.map Slot.holds →
      ∃ w, slot = .holds w ∧ items = [env.ofVariant w] := by
    intro items hitems
    cases items with
    | nil => cases hitems
    | cons y items =>
      obtain ⟨hy, hrest⟩ := List.cons.inj hitems
      cases slot with
      | unwritten | released => cases hy
      | holds w => exact ⟨w, rfl, by rw [List.map_eq_nil_iff.mp hrest.symm, Slot.holds.inj hy]⟩
  obtain ⟨hbad, -, hfree | ⟨items, hitems, -⟩⟩ | ⟨-, items, hitems, hfinish⟩ :=
    of_run_settleCopy hsettle
  · cases hfree
  · obtain ⟨w, rfl, -⟩ := hslot hitems
    exact ⟨w, rfl, fun hgood => absurd hgood hbad⟩
  · obtain ⟨w, rfl, rfl⟩ := hslot hitems
    obtain ⟨-, ⟨hgood, dst', hdst', hwritten, -⟩ | hreleased⟩ := of_run_copyRangeFinish hfinish
    · obtain rfl := Slot.holds.inj (hdst.symm.trans hdst')
      obtain ⟨type, s', htype', hs, -, -, -, hcopies⟩ := hcopy hgood
      obtain rfl := Option.some.inj (htype.symm.trans htype')
      obtain rfl := Except.ok.inj (hstrides.symm.trans hs)
      rw [hsingle, hwritten] at hcopies
      obtain ⟨⟨x', hx', helement⟩, -⟩ := List.forall₂_cons.mp hcopies
      obtain rfl := Option.some.inj (hread.symm.trans hx')
      unfold ElementCopy at helement
      split at helement
      next heq => exact absurd heq hnext
      next =>
        rw [if_neg (by rw [isStringLike_variant]; decide), hlaw.variant_ofVariant] at helement
        exact ⟨w, rfl, fun _ => helement⟩
    · rw [hreleased] at hdst
      cases hdst

theorem plentiful_failsAt_none : Plentiful (env.withMemory (failsAt owns none)) :=
  ⟨fun _ => alloc_failsAt (Option.some_ne_none _), fun k x =>
    @copyStatus_failsAt _ owns _ k none (Option.some_ne_none k) x⟩

theorem HeldFrom.nested (hlaw : Lawful env owns) (h : HeldFrom env owns n v range)
    (htype : v.type = some (builtinType .variant)) (hstrides : copyStrides v range = .ok s)
    (hnext : nextRange v range ≠ []) {i : Nat} (hsingle : visited s = [i]) {x : α}
    (hread : v.data.items[i]? = some x) {succeeds : Bool}
    (hinner : CleanUp env owns succeeds (env.variant x) (nextRange v range)) :
    CleanUp env owns succeeds v range := by
  refine .nested htype hstrides hnext ?_ hsingle hread hinner
  rintro rfl
  obtain ⟨depth, hruns⟩ := hinner.runsTo hlaw.variant_ofVariant
  have hnone : ∀ k ∈ none, n < k := nofun
  obtain ⟨depth', htaken⟩ := h.taken htype hstrides hnone
  obtain ⟨-, c, n1, r, n', hcontents, -⟩ := htaken (max depth depth') (Nat.le_max_right _ _)
  obtain ⟨x', ri, hread', hinside, rfl⟩ :=
    of_run_copyContents_single hnext (fun hand => hand.1 rfl) hsingle hcontents
  obtain rfl := Option.some.inj (hread.symm.trans hread')
  obtain ⟨r', hrun, rfl⟩ := of_run_copyInside_variant hinside
  obtain ⟨r'', n'', hrun', -, -, hplenty⟩ :=
    hruns _ (Nat.le_max_left depth depth') (failsAt owns none) (n + 1)
  obtain ⟨rfl, -⟩ := Prod.mk.inj (Except.ok.inj (hrun.symm.trans hrun'))
  exact h.undimensioned htype hstrides hcontents (hplenty plentiful_failsAt_none rfl)

/-- A copy that is held whichever call fails is of one of the kinds that are cleaned up. The
induction is on the fuel with which the copy returns when no call fails. -/
theorem HeldFrom.cleanUp (hlaw : Lawful env owns) {S : UaVariant α → Prop} (htyped : Typed env S)
    {depth : Nat} (hv : S v) (h : HeldFrom env owns n v range)
    (hreturns : ∀ fuel ≥ depth, ∃ r,
      (variantCopyRange (env.withMemory (failsAt owns none)) fuel v range).run n = .ok r) :
    ∃ succeeds, CleanUp env owns succeeds v range := by
  induction depth generalizing v range n with
  | zero =>
    obtain ⟨r, hrun⟩ := hreturns 0 (Nat.le_refl 0)
    exact (run_throw_ok.mp hrun).elim
  | succ depth ih =>
    obtain ⟨⟨r, n'⟩, hrun⟩ := hreturns (depth + 1) (Nat.le_refl _)
    cases htype : v.type with
    | none =>
      rw [variantCopyRange_untyped htype] at hrun
      exact (run_throw_ok.mp hrun).elim
    | some type =>
    cases hstrides : copyStrides v range with
    | error retval =>
      obtain ⟨least, hheld⟩ := h none nofun
      obtain ⟨r', n1, hrun', dst, hdst, -⟩ := hheld (least + 1) (Nat.le_succ least)
      rw [variantCopyRange_refused htype hstrides] at hrun'
      obtain ⟨rfl, -⟩ := run_pure_ok.mp hrun'
      cases hdst
    | ok s =>
    by_cases hnext : nextRange v range = []
    · exact ⟨true, h.whole hlaw htype hstrides hnext⟩
    by_cases hkind : type ≠ builtinType .variant ∧
        (isStringLike type = false ∨ (nextRange v range).length ≠ 1)
    · exact ⟨false, h.unsuited htype hstrides hnext hkind.1 hkind.2⟩
    by_cases hvariant : type = builtinType .variant
    · subst hvariant
      obtain ⟨i, hsingle⟩ := h.single htype hstrides hnext hkind rfl
      have hread : ∀ fuel ≥ depth, ∃ x r, v.data.items[i]? = some x ∧
          (variantCopyRange (env.withMemory (failsAt owns none)) fuel (env.variant x)
            (nextRange v range)).run (n + 1) = .ok r := by
        intro fuel hfuel
        obtain ⟨⟨r, n'⟩, hrun⟩ := hreturns (fuel + 1) (Nat.succ_le_succ hfuel)
        obtain ⟨-, c, n1, hcontents, -⟩ :=
          of_run_taken htype hstrides (alloc_failsAt (Option.some_ne_none n)) hrun
        obtain ⟨x, ri, hx, hinside, -⟩ := of_run_copyContents_single hnext hkind hsingle hcontents
        obtain ⟨r', hinner, -⟩ := of_run_copyInside_variant hinside
        exact ⟨x, _, hx, hinner⟩
      obtain ⟨x, -, hx, -⟩ := hread depth (Nat.le_refl depth)
      obtain ⟨succeeds, hinner⟩ := ih
        (htyped.inside hv htype (List.mem_of_getElem? hx))
        (h.inner hlaw htype hstrides hnext hsingle hx) fun fuel hfuel => by
          obtain ⟨x', r, hx', hrun⟩ := hread fuel hfuel
          obtain rfl := Option.some.inj (hx.symm.trans hx')
          exact ⟨r, hrun⟩
      exact ⟨succeeds, h.nested hlaw htype hstrides hnext hsingle hx hinner⟩
    · have hstring : isStringLike type = true ∧ (nextRange v range).length = 1 := by
        by_contra hno
        refine hkind ⟨hvariant, ?_⟩
        by_cases hs : isStringLike type = true
        · exact .inr fun hlen => hno ⟨hs, hlen⟩
        · exact .inl (Bool.eq_false_iff.mpr hs)
      obtain ⟨dim, hdim⟩ := List.length_eq_one_iff.mp hstring.2
      exact ⟨true, h.string htype hstrides (htyped.pointers hv htype hstring.1) hstring.1 hdim⟩

omit [DecidablePred owns] in
theorem slot_ne_unwritten (htype : v.type = some type) (hstrides : copyStrides v range = .ok s)
    {m : MemoryPattern owns} {fuel n' : Nat}
    (h : (variantCopyRange (env.withMemory m) (fuel + 1) v range).run n = .ok (r, n')) :
    r.2 ≠ .unwritten := by
  cases halloc : (env.withMemory m).alloc n with
  | false =>
    rw [variantCopyRange_taken htype hstrides,
      run_bind_of_ok (show (malloc (env.withMemory m)).run n = .ok (_, n + 1) from rfl), halloc,
      if_pos rfl] at h
    rw [(run_pure_ok.mp h).1]
    exact nofun
  | true =>
    obtain ⟨-, c, n1, -, hsettle⟩ := of_run_taken htype hstrides halloc h
    obtain ⟨-, rfl, -⟩ | ⟨-, items, -, hfinish⟩ := of_run_settleCopy hsettle
    · exact nofun
    · obtain ⟨-, ⟨-, dst, hdst, -⟩ | hreleased⟩ := of_run_copyRangeFinish hfinish
      · rw [hdst]
        exact nofun
      · rw [hreleased]
        exact nofun

end Failure

inductive DataForm where
  | null
  | sentinel
  | scalar
  | array

/-- An element that is a string or a Variant. -/
inductive Element where
  | string (s : UaString)
  | variant (type : Option TypeDescription) (form : DataForm) (items : List Element)
      (dims : CArray UInt32)

namespace Element

def toVariant : Element → UaVariant Element
  | variant type .sentinel _ dims => ⟨type, .sentinel, dims⟩
  | variant type .scalar (x :: _) dims => ⟨type, .scalar x, dims⟩
  | variant type .array (x :: xs) dims => ⟨type, .array (x :: xs) (List.cons_ne_nil x xs), dims⟩
  | variant type _ _ dims => ⟨type, .null, dims⟩
  | string _ => emptyVariant

def ofVariant (w : UaVariant Element) : Element :=
  match w.data with
  | .null => variant w.type .null [] w.arrayDimensions
  | .sentinel => variant w.type .sentinel [] w.arrayDimensions
  | .scalar x => variant w.type .scalar [x] w.arrayDimensions
  | .array items _ => variant w.type .array items w.arrayDimensions

def toString : Element → UaString
  | string s => s
  | variant _ _ _ _ => .null

/-- There is memory that belongs to the element. -/
def ownsMemory : Element → Bool
  | string (.mem _) => true
  | variant (some _) _ _ _ => true
  | _ => false

theorem toVariant_ofVariant (w : UaVariant Element) : (ofVariant w).toVariant = w := by
  obtain ⟨type, data, dims⟩ := w
  cases data with
  | null | sentinel => rfl
  | scalar x => rfl
  | array items hne =>
    cases items with
    | nil => exact absurd rfl hne
    | cons x xs => rfl

end Element

def stringElements : Elements Element where
  zero _ := .string .null
  zeroBytes _ _ x := x
  string := Element.toString
  ofString := Element.string
  variant := Element.toVariant
  ofVariant := Element.ofVariant
  byte b := .string (.mem [b])
  strayByte := .string .null
  viewAs _ _ xs := xs
  alloc _ := true
  copyStatus _ _ := StatusCode.good

theorem lawful_stringElements : Lawful stringElements (·.ownsMemory = true) := by
  refine ⟨Element.toVariant_ofVariant, ?_⟩
  rintro type _ howns rfl
  cases howns

def scalarString : UaVariant Element :=
  ⟨some (builtinType .string), .scalar (.string (.mem [97, 98])), .null⟩

theorem typed_scalarString : Typed stringElements (· = scalarString) := by
  refine ⟨?_, ?_⟩
  · rintro _ type rfl htype -
    obtain rfl := Option.some.inj htype
    rfl
  · rintro _ x rfl htype
    exact absurd htype (by decide)

def twoWords : UaVariant Element :=
  ⟨some (builtinType .string),
    .array [.string (.mem [97]), .string (.mem [98, 99, 100])] (by decide), .null⟩

end FactoryThing.Variants
