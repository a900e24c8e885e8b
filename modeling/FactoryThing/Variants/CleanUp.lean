import FactoryThing.Variants.CopyLoops

/-!
# When a failed copy can be cleaned up

`UA_Variant_copyRange` fills memory that has not been initialised, and after an error it releases
the elements without knowing how many of them have been written. What is copied without a remaining
range goes on after an error. So there are few kinds of copies during which memory may run out at
any time.
-/

namespace FactoryThing.Variants

open RowMajor Stateful
open Encoding (int32Max)

variable {α : Type}

section Copies

variable (env : Elements α)

/-- An element of the result is a copy of the element that is addressed, or of what the remaining
range addresses in it. -/
def ElementCopy (isCopy : UaVariant α → NumericRange → UaVariant α → Prop)
    (type : TypeDescription) (next : NumericRange) (x y : α) : Prop :=
  match next with
  | [] => y = x
  | dim :: _ =>
    if isStringLike type then
      dim.min ≤ dim.max ∧ dim.max.toNat < (env.string x).length ∧
        y = env.ofString (.mem (((env.string x).items.drop dim.min.toNat).take
          (dim.max - dim.min + 1).toNat))
    else isCopy (env.variant x) next (env.variant y)

/-- A Variant holds copies of all elements that a range addresses. `depth` bounds how deep Variants
are nested. -/
def IsCopy : Nat → UaVariant α → NumericRange → UaVariant α → Prop
  | 0, _, _, _ => False
  | depth + 1, v, range, dst =>
    ∃ type s, v.type = some type ∧ copyStrides v range = .ok s ∧ dst.type = some type ∧
      dst.data.isScalar = v.data.isScalar ∧ dst.data.items.length = s.total ∧
      List.Forall₂ (fun i y => ∃ x, v.data.items[i]? = some x ∧
        ElementCopy env (IsCopy depth) type (nextRange v range) x y) (visited s) dst.data.items

/-- The copy is complete, or there is an error and nothing in the result. -/
def AllOrNothing (depth : Nat) (v : UaVariant α) (range : NumericRange)
    (r : StatusCode × Slot (UaVariant α)) : Prop :=
  (r.1 = StatusCode.good ∧ ∃ dst, r.2 = .holds dst ∧ IsCopy env depth v range dst) ∨
    (r.1 ≠ StatusCode.good ∧ (r.2 = .unwritten ∨ r.2 = .holds emptyVariant))

/-- Whatever the memory answers, the call returns, and all or nothing has been copied. -/
def CopiesAllOrNothing (owns : α → Prop) (v : UaVariant α) (range : NumericRange) : Prop :=
  ∀ (m : MemoryPattern owns) (n : Nat), ∃ depth, ∀ fuel ≥ depth,
    ∃ r n', (variantCopyRange (env.withMemory m) fuel v range).run n = .ok (r, n') ∧
      AllOrNothing env fuel v range r

end Copies

/-- No array dimensions have to be copied at the end. -/
def Undimensioned (v : UaVariant α) : Prop :=
  v.data.isScalar = true ∨ v.arrayDimensions.length = 0

/-- The copies that are cleaned up after every failure. With the index `true` they may succeed. -/
inductive CleanUp (env : Elements α) (owns : α → Prop) : Bool → UaVariant α → NumericRange → Prop
  /-- No error but that of the last element is possible. -/
  | whole {v range type s} (htype : v.type = some type) (hstrides : copyStrides v range = .ok s)
      (hnext : nextRange v range = []) (hdims : Undimensioned v)
      (hinside : StaysInside v.data.items.length s) (htotal : s.total ≠ 0)
      (hmemory : type.pointerFree = true ∨
        ∀ i ∈ (visited s).dropLast, ∀ x, v.data.items[i]? = some x → ¬ owns x) :
      CleanUp env owns true v range
  /-- The remaining range is not for the type, and nothing is released. -/
  | unsuited {v range type s} (htype : v.type = some type) (hstrides : copyStrides v range = .ok s)
      (hnext : nextRange v range ≠ []) (hvariant : type ≠ builtinType .variant)
      (hstring : isStringLike type = false ∨ (nextRange v range).length ≠ 1) (hblock : s.block ≠ 0)
      (hfree : type.pointerFree = true ∨ s.total = 0) :
      CleanUp env owns false v range
  /-- A part of a single string. -/
  | string {v range type s dim i x} (htype : v.type = some type)
      (hstrides : copyStrides v range = .ok s) (hnext : nextRange v range = [dim])
      (hstring : isStringLike type = true) (hdims : Undimensioned v) (hsingle : visited s = [i])
      (hread : v.data.items[i]? = some x) (hmin : dim.min ≤ dim.max)
      (hmax : dim.max.toNat < (env.string x).length) :
      CleanUp env owns true v range
  /-- A part of a single Variant, the copy of which is cleaned up. -/
  | nested {succeeds v range s i x} (htype : v.type = some (builtinType .variant))
      (hstrides : copyStrides v range = .ok s) (hnext : nextRange v range ≠ [])
      (hdims : succeeds = true → Undimensioned v) (hsingle : visited s = [i])
      (hread : v.data.items[i]? = some x)
      (hinner : CleanUp env owns succeeds (env.variant x) (nextRange v range)) :
      CleanUp env owns succeeds v range

section Elements

variable {env : Elements α} {items : List α} {ps : List Nat} {xs : List α}

theorem exists_selects (h : ∀ i ∈ ps, ∃ x, items[i]? = some x) : ∃ xs, Selects items ps xs := by
  induction ps with
  | nil => exact ⟨[], rfl⟩
  | cons p ps ih =>
    obtain ⟨⟨x, hx⟩, hps⟩ := List.forall_mem_cons.mp h
    obtain ⟨xs, hxs⟩ := ih hps
    exact ⟨x :: xs, by rw [Selects, List.map_cons, List.map_cons, hx, hxs]⟩

variable {x : α} {n : Nat} {type : TypeDescription}

theorem selects_cons {p : Nat} :
    Selects items (p :: ps) (x :: xs) ↔ items[p]? = some x ∧ Selects items ps xs := by
  unfold Selects
  rw [List.map_cons, List.map_cons, List.cons_eq_cons]
  exact and_congr_left fun _ => eq_comm

theorem run_readElement {i : Nat} (h : items[i]? = some x) (n : Nat) :
    (readElement items i).run n = .ok (x, n) := by
  unfold readElement
  rw [h]
  rfl

theorem of_run_readElement {i n' : Nat} (h : (readElement items i).run n = .ok (x, n')) :
    items[i]? = some x ∧ n' = n := by
  unfold readElement at h
  split at h
  next y hy =>
    obtain ⟨rfl, rfl⟩ := run_pure_ok.mp h
    exact ⟨hy, rfl⟩
  · exact (run_throw_ok.mp h).elim

theorem run_readElements (h : Selects items ps xs) (n : Nat) :
    (ps.mapM (readElement items)).run n = .ok (xs, n) := by
  induction ps generalizing xs with
  | nil =>
    cases xs with
    | nil => rfl
    | cons x xs => cases h
  | cons p ps ih =>
    cases xs with
    | nil => cases h
    | cons x xs =>
      obtain ⟨hx, hxs⟩ := selects_cons.mp h
      rw [List.mapM_cons, run_bind_of_ok (run_readElement hx n), run_bind_of_ok (ih hxs)]
      rfl

/-- What `UA_copy` makes of elements one after the other, from the call with the number `n` on. -/
def copied (env : Elements α) (type : TypeDescription) : Nat → List α → List (StatusCode × α)
  | _, [] => []
  | n, x :: xs =>
    (env.copyStatus n x, if env.copyStatus n x = StatusCode.good then x else env.zero type) ::
      copied env type (n + 1) xs

theorem run_copies (h : Selects items ps xs) (n : Nat) :
    (ps.mapM fun i => readElement items i >>= copy env type).run n =
      .ok (copied env type n xs, n + xs.length) := by
  induction ps generalizing xs n with
  | nil =>
    cases xs with
    | nil => rfl
    | cons x xs => cases h
  | cons p ps ih =>
    cases xs with
    | nil => cases h
    | cons x xs =>
      obtain ⟨hx, hxs⟩ := selects_cons.mp h
      rw [List.mapM_cons, bind_assoc, run_bind_of_ok (run_readElement hx n),
        run_bind_of_ok (show (copy env type x).run n = .ok (_, n + 1) from rfl),
        run_bind_of_ok (ih hxs (n + 1)), List.length_cons, Nat.add_assoc, Nat.add_comm 1]
      rfl

theorem copied_append (type : TypeDescription) (n : Nat) (xs ys : List α) :
    copied env type n (xs ++ ys) = copied env type n xs ++ copied env type (n + xs.length) ys := by
  induction xs generalizing n with
  | nil => rfl
  | cons x xs ih =>
    rw [List.cons_append, copied, copied, ih, List.cons_append, List.length_cons, Nat.add_assoc,
      Nat.add_comm 1]

theorem copied_of_good
    (h : ∀ k x, n ≤ k → k < n + xs.length → x ∈ xs → env.copyStatus k x = StatusCode.good) :
    copied env type n xs = xs.map fun x => (StatusCode.good, x) := by
  induction xs generalizing n with
  | nil => rfl
  | cons x xs ih =>
    rw [List.length_cons] at h
    rw [copied, h n x (Nat.le_refl n) (by omega) List.mem_cons_self, if_pos rfl, List.map_cons,
      ih fun k y hk hlt hy => h k y (Nat.le_of_succ_le hk) (by omega) (List.mem_cons_of_mem x hy)]

theorem length_copied (type : TypeDescription) (n : Nat) (xs : List α) :
    (copied env type n xs).length = xs.length := by
  induction xs generalizing n with
  | nil => rfl
  | cons x xs ih => rw [copied, List.length_cons, ih, List.length_cons]

/-- The status that is left when all elements have been copied. -/
def lastStatus (ys : List (StatusCode × α)) : StatusCode :=
  (ys.map Prod.fst).getLastD StatusCode.good

theorem lastStatus_append_cons (ys zs : List (StatusCode × α)) (z : StatusCode × α) :
    lastStatus (ys ++ z :: zs) = lastStatus (z :: zs) := by
  rw [lastStatus, lastStatus, List.map_append, List.map_cons,
    List.getLastD_eq_getLast?, List.getLastD_eq_getLast?, List.getLast?_append_cons]

theorem lastStatus_of_good (xs : List α) :
    lastStatus (xs.map fun x => (StatusCode.good, x)) = StatusCode.good := by
  rw [lastStatus, List.map_map]
  induction xs using List.reverseRecOn with
  | nil => rfl
  | append_singleton xs x => simp

theorem copied_of_last_good (h : ∀ k, ∀ x ∈ xs.dropLast, env.copyStatus k x = StatusCode.good)
    (hlast : lastStatus (copied env type n xs) = StatusCode.good) :
    (copied env type n xs).map Prod.snd = xs := by
  induction xs using List.reverseRecOn generalizing n with
  | nil => rfl
  | append_singleton xs x =>
    rw [List.dropLast_concat] at h
    rw [copied_append, copied_of_good fun k y _ _ hy => h k y hy] at hlast ⊢
    rw [copied, copied, lastStatus_append_cons] at hlast
    have hlast : env.copyStatus (n + xs.length) x = StatusCode.good := hlast
    rw [copied, copied, if_pos hlast, List.map_append, List.map_map]
    simp

end Elements

section Parts

variable {env : Elements α} {type : TypeDescription} {v : UaVariant α} {range : NumericRange}
  {s : Strides} {i : Nat}

theorem total_of_single (h : visited s = [i]) : s.total = 1 := by
  have hlen := congrArg List.length h
  rw [visited, length_blocks, List.length_singleton] at hlen
  have hcount := Nat.eq_one_of_mul_eq_one_right hlen
  rw [Nat.eq_one_of_mul_eq_one_left hlen, Nat.div_one] at hcount
  exact hcount

theorem block_of_single (h : visited s = [i]) : s.block ≠ 0 := by
  intro hzero
  rw [visited, hzero, Nat.div_zero, blocks_zero] at h
  cases h

theorem total_of_scalar (hscalar : v.data.isScalar = true) (h : copyStrides v range = .ok s) :
    s.total = 1 := by
  unfold copyStrides thisRange at h
  rw [hscalar, if_neg (by simp)] at h
  simp only [if_true] at h
  obtain ⟨ds, total, st, -, hlen, htotal, -, rfl⟩ := computeStrides_ok h
  obtain ⟨d, rfl⟩ := List.length_eq_one_iff.mp hlen.symm
  rw [List.zip_cons_cons, List.zip_nil_left, rangeCount] at htotal
  split at htotal
  · cases htotal
  split at htotal
  · cases htotal
  exact (Except.ok.inj htotal).symm

theorem run_arrayDelete {size : Nat} {slots : List (Slot α)} (h : type.pointerFree = true ∨
    ∃ items : List α, slots = items.map Slot.holds ∧ size ≤ items.length) (n : Nat) :
    (arrayDelete type size slots).run n = .ok ((), n) := by
  unfold arrayDelete
  obtain hfree | ⟨items, rfl, hle⟩ := h
  · rw [if_pos hfree]
    rfl
  · split
    · rfl
    · rw [if_neg (by simp [Slot.map]), if_neg (by simp [Slot.map]; omega)]
      rfl

theorem run_copyRangeFinish (hdims : Undimensioned v) {items : List α} (hne : items ≠ [])
    (hscalar : v.data.isScalar = true → items.length = 1) (thisrange : NumericRange) (n : Nat) :
    ∃ dst, (copyRangeFinish env type v thisrange items).run n =
        .ok ((StatusCode.good, .holds dst), n) ∧
      dst.type = some type ∧ dst.data.isScalar = v.data.isScalar ∧ dst.data.items = items := by
  unfold copyRangeFinish
  cases hs : v.data.isScalar with
  | true =>
    obtain ⟨x, rfl⟩ := List.length_eq_one_iff.mp (hscalar hs)
    exact ⟨_, rfl, rfl, rfl, rfl⟩
  | false =>
    have hzero : ¬ v.arrayDimensions.length > 0 := by
      rw [hdims.resolve_left (by rw [hs]; decide)]
      exact Nat.lt_irrefl 0
    rw [if_neg (by decide), dif_neg hne, if_neg hzero]
    exact ⟨_, rfl, rfl, rfl, rfl⟩

variable (env)

/-- The copy is complete, or there is an error and the result has been emptied. -/
def Settled (depth : Nat) (v : UaVariant α) (range : NumericRange)
    (r : StatusCode × Slot (UaVariant α)) : Prop :=
  (r.1 = StatusCode.good ∧ ∃ dst, r.2 = .holds dst ∧ IsCopy env depth v range dst) ∨
    (r.1 ≠ StatusCode.good ∧ r.2 = .holds emptyVariant)

/-- The elements are all copied, or those that will be released are all initialised. -/
def ContentsSettled (depth : Nat) (type : TypeDescription) (v : UaVariant α) (range : NumericRange)
    (s : Strides) (c : StatusCode × List (Slot α)) : Prop :=
  (c.1 = StatusCode.good ∧ Undimensioned v ∧ ∃ items, c.2 = items.map Slot.holds ∧ items ≠ [] ∧
      items.length = s.total ∧
      List.Forall₂ (fun i y => ∃ x, v.data.items[i]? = some x ∧
        ElementCopy env (IsCopy env depth) type (nextRange v range) x y) (visited s) items) ∨
    (c.1 ≠ StatusCode.good ∧ (type.pointerFree = true ∨
      ∃ items : List α, c.2 = items.map Slot.holds ∧ s.total ≤ items.length))

variable {env}

theorem ContentsSettled.settles {owns : α → Prop} {m : MemoryPattern owns} {depth : Nat}
    {c : StatusCode × List (Slot α)}
    (h : ContentsSettled env depth type v range s c) (htype : v.type = some type)
    (hstrides : copyStrides v range = .ok s) (n : Nat) :
    ∃ r n', (settleCopy (env.withMemory m) type v range s c).run n = .ok (r, n') ∧
      Settled env (depth + 1) v range r ∧
      (c.1 = StatusCode.good ↔ r.1 = StatusCode.good) := by
  obtain ⟨retval, slots⟩ := c
  unfold settleCopy
  obtain ⟨rfl, hdims, items, rfl, hne, hlen, hcopies⟩ | ⟨hbad, hslots⟩ := h
  · have hscalar : v.data.isScalar = true → items.length = 1 := fun hs => by
      rw [hlen]
      exact total_of_scalar hs hstrides
    obtain ⟨dst, hrun, hdst, hsame, rfl⟩ :=
      @run_copyRangeFinish _ (env.withMemory m) type v hdims items hne hscalar
        (thisRange v range) n
    refine ⟨(StatusCode.good, .holds dst), n, ?_,
      .inl ⟨rfl, dst, rfl, type, s, htype, hstrides, hdst, hsame, hlen, hcopies⟩, Iff.rfl⟩
    rw [if_neg (not_not_intro rfl), values_map_holds]
    exact hrun
  · refine ⟨(retval, .holds emptyVariant), n, ?_, .inr ⟨hbad, rfl⟩, Iff.rfl⟩
    rw [if_pos hbad, run_bind_of_ok (run_arrayDelete hslots n)]
    rfl

theorem run_variantCopyRange (htype : v.type = some type) (hstrides : copyStrides v range = .ok s)
    (hblock : s.block ≠ 0) (fuel n : Nat) :
    (variantCopyRange env (fuel + 1) v range).run n =
      if env.alloc n = true then
        (copyContents env fuel type v range s >>= settleCopy env type v range s).run (n + 1)
      else .ok ((StatusCode.badOutOfMemory, .holds emptyVariant), n + 1) := by
  rw [variantCopyRange_taken htype hstrides,
    run_bind_of_ok (show (malloc env).run n = .ok (env.alloc n, n + 1) from rfl)]
  cases env.alloc n with
  | true => rw [if_neg (by decide), if_neg hblock, if_pos rfl]
  | false => rfl

end Parts

section CleanUp

variable {env : Elements α} {type : TypeDescription} {v : UaVariant α} {range : NumericRange}
  {s : Strides}

theorem forall₂_of_selects {items : List α} {ps : List Nat} {xs : List α}
    (h : Selects items ps xs) {P : α → α → Prop} (hP : ∀ x, P x x) :
    List.Forall₂ (fun i y => ∃ x, items[i]? = some x ∧ P x y) ps xs := by
  induction ps generalizing xs with
  | nil =>
    cases xs with
    | nil => exact .nil
    | cons x xs => cases h
  | cons p ps ih =>
    cases xs with
    | nil => cases h
    | cons x xs =>
      obtain ⟨hx, hxs⟩ := selects_cons.mp h
      exact .cons ⟨x, hx, hP x⟩ (ih hxs)

theorem forall_dropLast_of_selects {items : List α} {ps : List Nat} {xs : List α}
    (h : Selects items ps xs) {P : α → Prop}
    (hP : ∀ i ∈ ps.dropLast, ∀ x, items[i]? = some x → P x) : ∀ x ∈ xs.dropLast, P x := by
  intro x hx
  have hfront : xs.dropLast.map some = ps.dropLast.map (items[·]?) := by
    rw [List.map_dropLast, List.map_dropLast, h]
  obtain ⟨i, hi, heq⟩ := List.mem_map.mp (hfront ▸ List.mem_map_of_mem hx)
  exact hP i hi x heq

theorem run_copyContents_whole (hnext : nextRange v range = []) {xs : List α}
    (hxs : Selects v.data.items (visited s) xs) (fuel n : Nat) :
    (copyContents env fuel type v range s).run n =
      if type.pointerFree = true then .ok ((StatusCode.good, xs.map Slot.holds), n)
      else .ok ((lastStatus (copied env type n xs),
        (copied env type n xs).map fun y => Slot.holds y.2), n + xs.length) := by
  unfold copyContents copyElements
  rw [if_pos (by rw [hnext]; rfl), visitBlocks_eq, visitBlocks_eq, ← visited]
  by_cases hfree : type.pointerFree = true
  · rw [if_pos hfree, if_pos hfree, run_bind_of_ok (run_readElements hxs n)]
    rfl
  · rw [if_neg hfree, if_neg hfree]
    exact run_bind_of_ok (run_copies hxs n)

variable (env)

/-- What is copied of one element with a remaining range (`:631-637`). -/
def copyInside (fuel : Nat) (type : TypeDescription) (next : NumericRange) (src : α) :
    RangeM (StatusCode × Slot α) :=
  if isStringLike type then
    match next with
    | [] => throw RangeFault.outOfBounds
    | dim :: _ => do
      let (status, dst) ← copySubString env (env.string src) dim
      return (status, dst.map env.ofString)
  else do
    let (status, dst) ← variantCopyRange env fuel (env.variant src) next
    return (status, dst.map env.ofVariant)

variable {env}

theorem copyContents_nested (hnext : nextRange v range ≠ []) (fuel : Nat) :
    copyContents env fuel type v range s =
      nestedEach
        (fun i => readElement v.data.items i >>= copyInside env fuel type (nextRange v range))
        (visited s)
        (if type ≠ builtinType .variant ∧
            (isStringLike type = false ∨ (nextRange v range).length ≠ 1) then
          StatusCode.badIndexRangeNoData
        else StatusCode.good) := by
  unfold copyContents copyNested
  rw [if_neg (by rw [List.length_eq_zero_iff]; exact hnext), nestedBlocks_eq]
  rfl

theorem nestedEach_single {β : Type} (visit : Nat → RangeM (StatusCode × β)) (i : Nat) :
    nestedEach visit [i] StatusCode.good = visit i >>= fun r => pure (r.1, [r.2]) := by
  simp [nestedEach]

theorem run_nestedEach_of_bad {β : Type} {visit : Nat → RangeM (StatusCode × β)} {i n n' : Nat}
    {retval : StatusCode} {y : β} (h : (visit i).run n = .ok ((retval, y), n'))
    (hbad : retval ≠ StatusCode.good) (ps : List Nat) :
    (nestedEach visit (i :: ps) StatusCode.good).run n = .ok ((retval, [y]), n') := by
  rw [nestedEach, if_neg (not_not_intro rfl), run_bind_of_ok h]
  dsimp only
  rw [nestedEach_of_bad hbad]
  rfl

/-- What a copy of the kinds that are cleaned up does. -/
def RunsTo (env : Elements α) (owns : α → Prop) (succeeds : Bool) (v : UaVariant α)
    (range : NumericRange) (fuel : Nat) : Prop :=
  ∀ (m : MemoryPattern owns) (n : Nat), ∃ r n',
    (variantCopyRange (env.withMemory m) fuel v range).run n = .ok (r, n') ∧
      Settled env fuel v range r ∧ (r.1 = StatusCode.good → succeeds = true) ∧
      (Plentiful (env.withMemory m) → succeeds = true → r.1 = StatusCode.good)

theorem runsTo_of_contents {owns : α → Prop} {succeeds : Bool} {fuel : Nat}
    (htype : v.type = some type) (hstrides : copyStrides v range = .ok s) (hblock : s.block ≠ 0)
    (h : ∀ (m : MemoryPattern owns) (n : Nat), ∃ c n',
      (copyContents (env.withMemory m) fuel type v range s).run n = .ok (c, n') ∧
        ContentsSettled env fuel type v range s c ∧ (c.1 = StatusCode.good → succeeds = true) ∧
        (Plentiful (env.withMemory m) → succeeds = true → c.1 = StatusCode.good)) :
    RunsTo env owns succeeds v range (fuel + 1) := by
  intro m n
  obtain ⟨c, n1, hrun, hsettled, hsucceeds, hplenty⟩ := h m (n + 1)
  obtain ⟨r, n', hsettle, hr, hgood⟩ := @ContentsSettled.settles _ env type v range s _ m _ _
    hsettled htype hstrides n1
  cases halloc : (env.withMemory m).alloc n with
  | true =>
    refine ⟨r, n', ?_, hr, fun hr => hsucceeds (hgood.mpr hr),
      fun henv hs => hgood.mp (hplenty henv hs)⟩
    rw [run_variantCopyRange htype hstrides hblock, if_pos halloc, run_bind_of_ok hrun, hsettle]
  | false =>
    refine ⟨(StatusCode.badOutOfMemory, .holds emptyVariant), n + 1, ?_,
      .inr ⟨nofun, rfl⟩, nofun, fun henv => ?_⟩
    · rw [run_variantCopyRange htype hstrides hblock, if_neg (by rw [halloc]; decide)]
    · rw [henv.alloc] at halloc
      cases halloc

theorem runsTo_whole {owns : α → Prop} (htype : v.type = some type)
    (hstrides : copyStrides v range = .ok s) (hnext : nextRange v range = [])
    (hdims : Undimensioned v) (hinside : StaysInside v.data.items.length s) (htotal : s.total ≠ 0)
    (hmemory : type.pointerFree = true ∨
      ∀ i ∈ (visited s).dropLast, ∀ x, v.data.items[i]? = some x → ¬ owns x) (fuel : Nat) :
    RunsTo env owns true v range (fuel + 1) := by
  refine runsTo_of_contents htype hstrides hinside.block_ne_zero fun m n => ?_
  obtain ⟨xs, hxs⟩ := exists_selects fun i hi =>
    ⟨_, List.getElem?_eq_getElem (hinside.lt_of_mem_visited i hi)⟩
  have hlen : xs.length = s.total := by rw [length_of_selects hxs, hinside.length_visited]
  have hcomplete : ContentsSettled env fuel type v range s
      (StatusCode.good, xs.map Slot.holds) := by
    refine .inl ⟨rfl, hdims, xs, rfl, ?_, hlen, forall₂_of_selects hxs fun x => ?_⟩
    · rw [← List.length_pos_iff, hlen]
      exact Nat.pos_of_ne_zero htotal
    · rw [ElementCopy.eq_def, hnext]
  have hrun := @run_copyContents_whole _ (env.withMemory m) type v range s hnext xs hxs fuel n
  cases hfree : type.pointerFree with
  | true =>
    rw [if_pos hfree] at hrun
    exact ⟨_, _, hrun, hcomplete, fun _ => rfl, fun _ _ => rfl⟩
  | false =>
    rw [if_neg (by rw [hfree]; decide)] at hrun
    have hmemory := hmemory.resolve_left (by rw [hfree]; decide)
    have hslots : (copied (env.withMemory m) type n xs).map (fun y => Slot.holds y.2) =
        ((copied (env.withMemory m) type n xs).map Prod.snd).map Slot.holds := by
      rw [List.map_map]
      rfl
    rw [hslots] at hrun
    refine ⟨_, _, hrun, ?_, fun _ => rfl, fun henv _ => ?_⟩
    · by_cases hlast : lastStatus (copied (env.withMemory m) type n xs) = StatusCode.good
      · have hall := copied_of_last_good (fun k x hx => m.good_of_not_owns k x
          (forall_dropLast_of_selects hxs hmemory x hx)) hlast
        rw [hall, hlast]
        exact hcomplete
      · refine .inr ⟨hlast, .inr ⟨_, rfl, ?_⟩⟩
        rw [List.length_map, length_copied, hlen]
    · rw [copied_of_good fun k x _ _ _ => henv.copyStatus k x, lastStatus_of_good]

theorem runsTo_unsuited {owns : α → Prop} (htype : v.type = some type)
    (hstrides : copyStrides v range = .ok s) (hnext : nextRange v range ≠ [])
    (hvariant : type ≠ builtinType .variant)
    (hstring : isStringLike type = false ∨ (nextRange v range).length ≠ 1) (hblock : s.block ≠ 0)
    (hfree : type.pointerFree = true ∨ s.total = 0) (fuel : Nat) :
    RunsTo env owns false v range (fuel + 1) := by
  refine runsTo_of_contents htype hstrides hblock fun m n =>
    ⟨(StatusCode.badIndexRangeNoData, []), n, ?_, .inr ⟨nofun, ?_⟩, nofun, nofun⟩
  · rw [copyContents_nested hnext, if_pos ⟨hvariant, hstring⟩, nestedEach_of_bad (by decide)]
    rfl
  · exact hfree.imp_right fun hzero => ⟨[], rfl, by rw [hzero]; exact Nat.zero_le _⟩

theorem run_copyContents_single {i n : Nat} {x : α} (hnext : nextRange v range ≠ [])
    (hkind : type = builtinType .variant ∨ (isStringLike type = true ∧
      (nextRange v range).length = 1))
    (hsingle : visited s = [i]) (hread : v.data.items[i]? = some x) (fuel : Nat) :
    (copyContents env fuel type v range s).run n =
      (copyInside env fuel type (nextRange v range) x >>= fun r => pure (r.1, [r.2])).run n := by
  have hgood : ¬ (type ≠ builtinType .variant ∧
      (isStringLike type = false ∨ (nextRange v range).length ≠ 1)) := by
    rintro ⟨hvariant, hstring⟩
    obtain hv | ⟨hs, hlen⟩ := hkind
    · exact hvariant hv
    · obtain hs' | hlen' := hstring
      · rw [hs] at hs'
        cases hs'
      · exact hlen' hlen
  rw [copyContents_nested hnext, if_neg hgood, hsingle, nestedEach_single, bind_assoc,
    run_bind_of_ok (run_readElement hread n)]

theorem runsTo_string {owns : α → Prop} {dim : RangeDimension} {i : Nat} {x : α}
    (htype : v.type = some type) (hstrides : copyStrides v range = .ok s)
    (hnext : nextRange v range = [dim]) (hstring : isStringLike type = true)
    (hdims : Undimensioned v) (hsingle : visited s = [i]) (hread : v.data.items[i]? = some x)
    (hmin : dim.min ≤ dim.max) (hmax : dim.max.toNat < (env.string x).length) (fuel : Nat) :
    RunsTo env owns true v range (fuel + 1) := by
  refine runsTo_of_contents htype hstrides (block_of_single hsingle) fun m n => ?_
  have htotal := total_of_single hsingle
  have hrun := @run_copyContents_single _ (env.withMemory m) type v range s i n x
    (by rw [hnext]; exact List.cons_ne_nil _ _) (.inr ⟨hstring, by rw [hnext]; rfl⟩) hsingle hread
    fuel
  have hinside : copyInside (env.withMemory m) fuel type (nextRange v range) x =
      copySubString (env.withMemory m) (env.string x) dim >>= fun r =>
        pure (r.1, r.2.map env.ofString) := by
    rw [copyInside.eq_def, if_pos hstring, hnext]
    rfl
  have hsub : (copySubString (env.withMemory m) (env.string x) dim).run n =
      .ok (if m.alloc n = true then
          (StatusCode.good, .holds (.mem (((env.string x).items.drop dim.min.toNat).take
            (dim.max - dim.min + 1).toNat)))
        else (StatusCode.badOutOfMemory, .holds .null), n + 1) := by
    unfold copySubString
    rw [if_neg (UInt32.not_lt.mpr hmin), if_neg (Nat.not_le.mpr hmax),
      run_bind_of_ok (show (malloc (env.withMemory m)).run n = .ok (m.alloc n, n + 1) from rfl)]
    cases m.alloc n with
    | true | false => rfl
  rw [hinside, bind_assoc, run_bind_of_ok hsub] at hrun
  cases halloc : m.alloc n with
  | true =>
    rw [halloc] at hrun
    refine ⟨_, _, hrun, .inl ⟨rfl, hdims, [_], rfl, List.cons_ne_nil _ _, htotal.symm, ?_⟩,
      fun _ => rfl, fun _ _ => rfl⟩
    rw [hsingle]
    refine .cons ⟨x, hread, ?_⟩ .nil
    rw [ElementCopy.eq_def, hnext]
    dsimp only
    rw [if_pos hstring]
    exact ⟨hmin, hmax, rfl⟩
  | false =>
    rw [halloc] at hrun
    refine ⟨_, _, hrun, .inr ⟨nofun, .inr ⟨[_], rfl, htotal.le⟩⟩, nofun, fun henv => ?_⟩
    have halloc' : (env.withMemory m).alloc n = false := halloc
    rw [henv.alloc] at halloc'
    cases halloc'

theorem runsTo_nested {owns : α → Prop} {succeeds : Bool} {i : Nat} {x : α} {fuel : Nat}
    (hview : ∀ w, env.variant (env.ofVariant w) = w) (htype : v.type = some (builtinType .variant))
    (hstrides : copyStrides v range = .ok s) (hnext : nextRange v range ≠ [])
    (hdims : succeeds = true → Undimensioned v) (hsingle : visited s = [i])
    (hread : v.data.items[i]? = some x)
    (hinner : RunsTo env owns succeeds (env.variant x) (nextRange v range) fuel) :
    RunsTo env owns succeeds v range (fuel + 1) := by
  refine runsTo_of_contents htype hstrides (block_of_single hsingle) fun m n => ?_
  have htotal := total_of_single hsingle
  obtain ⟨r, n', hrun', hsettled, hsucceeds, hplenty⟩ := hinner m n
  have hrun := @run_copyContents_single _ (env.withMemory m) _ v range s i n x hnext (.inl rfl)
    hsingle hread fuel
  have hstring : isStringLike (builtinType .variant) = false := by decide
  have hinside : copyInside (env.withMemory m) fuel (builtinType .variant) (nextRange v range) x =
      variantCopyRange (env.withMemory m) fuel (env.variant x) (nextRange v range) >>= fun r =>
        pure (r.1, r.2.map env.ofVariant) := by
    rw [copyInside.eq_def, if_neg (by rw [hstring]; decide)]
    rfl
  rw [hinside, bind_assoc, run_bind_of_ok hrun'] at hrun
  obtain ⟨retval, slot⟩ := r
  refine ⟨_, _, hrun, ?_, hsucceeds, hplenty⟩
  obtain ⟨rfl, dst, rfl, hcopy⟩ | ⟨hbad, rfl⟩ := hsettled
  · refine .inl ⟨rfl, hdims (hsucceeds rfl), [_], rfl, List.cons_ne_nil _ _, htotal.symm, ?_⟩
    rw [hsingle]
    refine .cons ⟨x, hread, ?_⟩ .nil
    unfold ElementCopy
    split
    next heq => exact absurd heq hnext
    next =>
      rw [if_neg (by rw [hstring]; decide), hview]
      exact hcopy
  · exact .inr ⟨hbad, .inr ⟨[_], rfl, htotal.le⟩⟩

theorem forall_ge_succ {P : Nat → Prop} {k : Nat} (h : ∀ n ≥ k, P (n + 1)) : ∀ n ≥ k + 1, P n := by
  intro n hn
  obtain ⟨n, rfl⟩ := Nat.exists_eq_succ_of_ne_zero (Nat.ne_zero_of_lt hn)
  exact h n (Nat.le_of_succ_le_succ hn)

theorem CleanUp.runsTo {owns : α → Prop} {succeeds : Bool}
    (hview : ∀ w, env.variant (env.ofVariant w) = w) (h : CleanUp env owns succeeds v range) :
    ∃ depth, ∀ fuel ≥ depth, RunsTo env owns succeeds v range fuel := by
  induction h with
  | whole htype hstrides hnext hdims hinside htotal hmemory =>
    exact ⟨1, forall_ge_succ fun fuel _ =>
      runsTo_whole htype hstrides hnext hdims hinside htotal hmemory fuel⟩
  | unsuited htype hstrides hnext hvariant hstring hblock hfree =>
    exact ⟨1, forall_ge_succ fun fuel _ =>
      runsTo_unsuited htype hstrides hnext hvariant hstring hblock hfree fuel⟩
  | string htype hstrides hnext hstring hdims hsingle hread hmin hmax =>
    exact ⟨1, forall_ge_succ fun fuel _ =>
      runsTo_string htype hstrides hnext hstring hdims hsingle hread hmin hmax fuel⟩
  | nested htype hstrides hnext hdims hsingle hread hinner ih =>
    obtain ⟨depth, hruns⟩ := ih
    exact ⟨depth + 1, forall_ge_succ fun fuel hfuel =>
      runsTo_nested hview htype hstrides hnext hdims hsingle hread (hruns fuel hfuel)⟩

end CleanUp

end FactoryThing.Variants
