import Mathlib

/-!
# Boxes in row-major arrays

An array of several dimensions is stored row by row. A box takes a part of each dimension: `first`
is the least index and `extent` the number of indices out of `size`. The positions of its entries,
row by row, need not follow one another at one distance; when they do so without a gap the box is
called a run, and which boxes are runs is a matter of the extents.
-/

namespace RowMajor

structure Part where
  size : Nat
  first : Nat
  extent : Nat
  deriving DecidableEq

/-- The part is not empty and inside its dimension. -/
structure Part.Inside (p : Part) : Prop where
  extent_pos : 0 < p.extent
  le_size : p.first + p.extent ≤ p.size

instance (p : Part) : Decidable p.Inside :=
  decidable_of_iff (0 < p.extent ∧ p.first + p.extent ≤ p.size)
    ⟨fun h => ⟨h.1, h.2⟩, fun h => ⟨h.extent_pos, h.le_size⟩⟩

/-- Every index of the dimension belongs to the part. -/
def Part.Full (p : Part) : Prop := p.extent = p.size

instance (p : Part) : Decidable p.Full := inferInstanceAs (Decidable (_ = _))

def entries (box : List Part) : Nat := (box.map Part.size).prod

def volume (box : List Part) : Nat := (box.map Part.extent).prod

/-- The positions of the entries of a box, row by row. -/
def positions : List Part → List Nat
  | [] => [0]
  | p :: box =>
      (List.range p.extent).flatMap fun i =>
        (positions box).map fun k => (p.first + i) * entries box + k

/-- The position of the first entry of a box. -/
def offset : List Part → Nat
  | [] => 0
  | p :: box => p.first * entries box + offset box

def AllFull (box : List Part) : Prop := ∀ p ∈ box, p.Full

instance (box : List Part) : Decidable (AllFull box) :=
  inferInstanceAs (Decidable (∀ p ∈ box, p.Full))

/-- Behind the dimensions of which a single index is taken and one more, all are taken whole. -/
def IsRun : List Part → Prop
  | [] => True
  | p :: box => AllFull box ∨ (p.extent = 1 ∧ IsRun box)

instance decidableIsRun : (box : List Part) → Decidable (IsRun box)
  | [] => .isTrue trivial
  | p :: box =>
    have := decidableIsRun box
    inferInstanceAs (Decidable (AllFull box ∨ (p.extent = 1 ∧ IsRun box)))

/-- The parts in front of the last one that is not the whole dimension. -/
def outer : List Part → List Part
  | [] => []
  | p :: box => if AllFull box then [] else p :: outer box

/-- In front of the last partial dimension the box is a run. -/
def Evenly (box : List Part) : Prop := IsRun (outer box)

instance (box : List Part) : Decidable (Evenly box) := decidableIsRun (outer box)

/-- The positions of equal blocks at equal distances. -/
def blocks (count length distance start : Nat) : List Nat :=
  (List.range count).flatMap fun i => (List.range length).map fun j => start + i * distance + j

variable {p : Part} {box box' : List Part}

@[simp] theorem entries_cons : entries (p :: box) = p.size * entries box := by
  simp [entries]

@[simp] theorem entries_append : entries (box ++ box') = entries box * entries box' := by
  simp [entries]

@[simp] theorem volume_cons : volume (p :: box) = p.extent * volume box := by
  simp [volume]

@[simp] theorem volume_append : volume (box ++ box') = volume box * volume box' := by
  simp [volume]

theorem AllFull.of_cons (h : AllFull (p :: box)) : p.Full ∧ AllFull box :=
  ⟨h p List.mem_cons_self, fun q hq => h q (List.mem_cons_of_mem p hq)⟩

theorem length_flatMap_const {α β : Type} {l : List α} {f : α → List β} {n : Nat}
    (h : ∀ a, (f a).length = n) : (l.flatMap f).length = l.length * n := by
  induction l with
  | nil => simp
  | cons a l ih => rw [List.flatMap_cons, List.length_append, h, ih, List.length_cons, Nat.succ_mul,
      Nat.add_comm]

theorem length_positions : (positions box).length = volume box := by
  induction box with
  | nil => rfl
  | cons p box ih =>
    rw [positions, length_flatMap_const (n := volume box), List.length_range, volume_cons]
    intro i
    rw [List.length_map, ih]

theorem entries_pos (h : ∀ p ∈ box, p.Inside) : 0 < entries box := by
  induction box with
  | nil => decide
  | cons p box ih =>
    have hp := h p List.mem_cons_self
    refine Nat.mul_pos ?_ (ih fun q hq => h q (List.mem_cons_of_mem p hq))
    have hpos := hp.extent_pos
    have hle := hp.le_size
    omega

theorem volume_pos (h : ∀ p ∈ box, p.Inside) : 0 < volume box := by
  induction box with
  | nil => decide
  | cons p box ih =>
    exact Nat.mul_pos (h p List.mem_cons_self).extent_pos
      (ih fun q hq => h q (List.mem_cons_of_mem p hq))

theorem volume_le_entries (h : ∀ p ∈ box, p.Inside) : volume box ≤ entries box := by
  induction box with
  | nil => exact Nat.le_refl _
  | cons p box ih =>
    have hp := (h p List.mem_cons_self).le_size
    exact Nat.mul_le_mul (by omega) (ih fun q hq => h q (List.mem_cons_of_mem p hq))

theorem allFull_of_volume_eq (h : ∀ p ∈ box, p.Inside) (heq : volume box = entries box) :
    AllFull box := by
  induction box with
  | nil => exact fun p hp => nomatch hp
  | cons p box ih =>
    have hbox : ∀ q ∈ box, q.Inside := fun q hq => h q (List.mem_cons_of_mem p hq)
    have hp := h p List.mem_cons_self
    have hle : p.extent ≤ p.size := Nat.le_trans (Nat.le_add_left _ _) hp.le_size
    rw [volume_cons, entries_cons] at heq
    have hrest : volume box = entries box := by
      refine Nat.le_antisymm (volume_le_entries hbox) ?_
      by_contra hlt
      have hsmall : p.extent * volume box < p.extent * entries box :=
        Nat.mul_lt_mul_of_pos_left (Nat.not_le.mp hlt) hp.extent_pos
      have hbig := Nat.mul_le_mul_right (entries box) hle
      omega
    have hfull : p.extent = p.size := by
      rw [hrest] at heq
      exact Nat.eq_of_mul_eq_mul_right (entries_pos hbox) heq
    intro q hq
    obtain rfl | hq := List.mem_cons.mp hq
    · exact hfull
    · exact ih hbox hrest q hq

theorem AllFull.volume_eq (h : AllFull box) : volume box = entries box := by
  induction box with
  | nil => rfl
  | cons p box ih =>
    obtain ⟨hp, hbox⟩ := h.of_cons
    rw [volume_cons, entries_cons, ih hbox, hp]

theorem AllFull.offset_eq (h : AllFull box) (hinside : ∀ p ∈ box, p.Inside) : offset box = 0 := by
  induction box with
  | nil => rfl
  | cons p box ih =>
    obtain ⟨hp, hbox⟩ := h.of_cons
    have hle := (hinside p List.mem_cons_self).le_size
    have hfirst : p.first = 0 := by
      unfold Part.Full at hp
      omega
    rw [offset, ih hbox fun q hq => hinside q (List.mem_cons_of_mem p hq), hfirst, Nat.zero_mul]

/-! ## Positions -/

theorem positions_append (box box' : List Part) :
    positions (box ++ box') = (positions box).flatMap fun k =>
      (positions box').map fun k' => k * entries box' + k' := by
  induction box with
  | nil => simp [positions]
  | cons p box ih =>
    simp only [List.cons_append, positions, ih, List.flatMap_assoc, List.map_flatMap, List.map_map,
      List.flatMap_map, entries_append]
    refine List.flatMap_congr fun i _ => List.flatMap_congr fun k _ => List.map_congr_left ?_
    intro k' _
    simp only [Function.comp_apply, Nat.add_mul, Nat.mul_assoc, Nat.add_assoc]

theorem offset_append (box box' : List Part) :
    offset (box ++ box') = offset box * entries box' + offset box' := by
  induction box with
  | nil => simp [offset]
  | cons p box ih =>
    rw [List.cons_append, offset, ih, offset, entries_append, Nat.add_mul, Nat.mul_assoc,
      Nat.add_assoc]

theorem flatMap_range_mul (n k : Nat) :
    ((List.range n).flatMap fun i => (List.range k).map fun j => i * k + j) =
      List.range (n * k) := by
  induction n with
  | zero => simp
  | succ n ih =>
    rw [List.range_succ, List.flatMap_append, ih, List.flatMap_singleton, Nat.succ_mul,
      List.range_add]

theorem AllFull.positions_eq (h : AllFull box) (hinside : ∀ p ∈ box, p.Inside) :
    positions box = List.range (entries box) := by
  induction box with
  | nil => rfl
  | cons p box ih =>
    obtain ⟨hp, hbox⟩ := h.of_cons
    have hle := (hinside p List.mem_cons_self).le_size
    have hfirst : p.first = 0 := by
      unfold Part.Full at hp
      omega
    rw [positions, ih hbox fun q hq => hinside q (List.mem_cons_of_mem p hq), hfirst, entries_cons,
      ← hp, ← flatMap_range_mul]
    simp only [Nat.zero_add]

theorem head_positions (h : ∀ p ∈ box, p.Inside) : (positions box).head? = some (offset box) := by
  induction box with
  | nil => rfl
  | cons p box ih =>
    obtain ⟨n, hn⟩ := Nat.exists_eq_succ_of_ne_zero (h p List.mem_cons_self).extent_pos.ne'
    have hhead := ih fun q hq => h q (List.mem_cons_of_mem p hq)
    rw [positions, hn, List.range_succ_eq_map, List.flatMap_cons, List.head?_append,
      List.head?_map, hhead]
    simp [offset]

theorem flatMap_inj {α β : Type} {f g : α → List β} {n : Nat} {l : List α}
    (hf : ∀ a, (f a).length = n) (hg : ∀ a, (g a).length = n)
    (h : l.flatMap f = l.flatMap g) : ∀ a ∈ l, f a = g a := by
  induction l with
  | nil => exact fun a ha => nomatch ha
  | cons b l ih =>
    obtain ⟨hb, hl⟩ := List.append_inj h ((hf b).trans (hg b).symm)
    intro a ha
    obtain rfl | ha := List.mem_cons.mp ha
    · exact hb
    · exact ih hl a ha

theorem isRun_iff (h : ∀ p ∈ box, p.Inside) :
    positions box = (List.range (volume box)).map (fun k => offset box + k) ↔ IsRun box := by
  induction box with
  | nil => exact ⟨fun _ => trivial, fun _ => rfl⟩
  | cons p box ih =>
    have hbox : ∀ q ∈ box, q.Inside := fun q hq => h q (List.mem_cons_of_mem p hq)
    have hp := h p List.mem_cons_self
    have hsplit : (List.range (volume (p :: box))).map (fun k => offset (p :: box) + k) =
        (List.range p.extent).flatMap fun i => (List.range (volume box)).map fun k =>
          offset (p :: box) + (i * volume box + k) := by
      rw [volume_cons, ← flatMap_range_mul, List.map_flatMap]
      simp only [List.map_map, Function.comp_def]
    constructor
    · intro heq
      rw [hsplit, positions] at heq
      have hparts := @flatMap_inj _ _ _ _ (volume box) _
        (fun i => by rw [List.length_map, length_positions])
        (fun i => by rw [List.length_map, List.length_range]) heq
      have hrun : positions box = (List.range (volume box)).map fun k => offset box + k := by
        have hfirst := hparts 0 (List.mem_range.mpr hp.extent_pos)
        simp only [offset, Nat.add_zero, Nat.zero_mul, Nat.zero_add, Nat.add_assoc] at hfirst
        have hshift := List.map_injective_iff.mpr fun a b : Nat =>
          @Nat.add_left_cancel (p.first * entries box) a b
        apply hshift
        rw [hfirst, List.map_map]
        rfl
      by_cases hone : p.extent = 1
      · exact .inr ⟨hone, (ih hbox).mp hrun⟩
      · -- the second part starts right behind the first one
        refine .inl (allFull_of_volume_eq hbox ?_)
        have hpos := hp.extent_pos
        have hsecond := congrArg List.head? (hparts 1 (List.mem_range.mpr (by omega)))
        obtain ⟨n, hn⟩ := Nat.exists_eq_succ_of_ne_zero (volume_pos hbox).ne'
        rw [List.head?_map, head_positions hbox, hn, List.range_succ_eq_map] at hsecond
        simp only [Option.map_some, List.map_cons, List.head?_cons, Option.some.injEq, offset,
          Nat.add_mul, Nat.one_mul, Nat.add_zero] at hsecond
        omega
    · rintro (hfull | ⟨hone, hrun⟩)
      · rw [hsplit, positions, offset, hfull.volume_eq, hfull.offset_eq hbox,
          hfull.positions_eq hbox]
        refine List.flatMap_congr fun i _ => List.map_congr_left fun k _ => ?_
        rw [Nat.add_mul]
        omega
      · rw [hsplit, positions, hone, (ih hbox).mpr hrun]
        simp only [List.range_one, List.flatMap_singleton, List.map_map, offset]
        refine List.map_congr_left fun k _ => ?_
        simp only [Function.comp_apply, Nat.add_zero, Nat.zero_mul, Nat.zero_add, Nat.add_assoc]

theorem flatMap_left_inj {α β : Type} {f : α → List β} {n : Nat} {l l' : List α}
    (hf : ∀ a, (f a).length = n) (hinj : Function.Injective f) (hlen : l.length = l'.length)
    (h : l.flatMap f = l'.flatMap f) : l = l' := by
  induction l generalizing l' with
  | nil => exact (List.length_eq_zero_iff.mp hlen.symm).symm
  | cons a l ih =>
    cases l' with
    | nil => exact absurd hlen (Nat.succ_ne_zero _)
    | cons a' l' =>
      obtain ⟨ha, hl⟩ := List.append_inj h ((hf a).trans (hf a').symm)
      rw [hinj ha, ih (Nat.succ.inj hlen) hl]

theorem blocks_iff {outer inner : List Part} (h : ∀ p ∈ outer, p.Inside) (hp : p.Inside)
    (hinner : ∀ p ∈ inner, p.Inside) (hfull : AllFull inner) :
    positions (outer ++ p :: inner) = blocks (volume outer) (p.extent * entries inner)
      (p.size * entries inner) (offset (outer ++ p :: inner)) ↔ IsRun outer := by
  have hlast : ∀ q ∈ p :: inner, q.Inside := List.forall_mem_cons.mpr ⟨hp, hinner⟩
  let block (k : Nat) : List Nat := (List.range (p.extent * entries inner)).map fun j =>
    k * entries (p :: inner) + (offset (p :: inner) + j)
  have hpositions : positions (outer ++ p :: inner) = (positions outer).flatMap block := by
    have hrun := (isRun_iff hlast).mpr (.inl hfull)
    rw [positions_append, hrun, volume_cons, hfull.volume_eq]
    simp only [List.map_map, Function.comp_def, block]
  have hblocks : blocks (volume outer) (p.extent * entries inner) (p.size * entries inner)
      (offset (outer ++ p :: inner)) =
        ((List.range (volume outer)).map fun i => offset outer + i).flatMap block := by
    rw [blocks, List.flatMap_map]
    refine List.flatMap_congr fun i _ => List.map_congr_left fun j _ => ?_
    rw [offset_append, entries_cons, Nat.add_mul]
    omega
  rw [hpositions, hblocks, ← isRun_iff h]
  refine ⟨fun heq => ?_, fun heq => by rw [heq]⟩
  refine @flatMap_left_inj _ _ block (p.extent * entries inner) _ _ ?_ ?_ ?_ heq
  · intro k
    rw [List.length_map, List.length_range]
  · intro k k' hk
    obtain ⟨n, hn⟩ := Nat.exists_eq_succ_of_ne_zero
      (Nat.mul_pos hp.extent_pos (entries_pos hinner)).ne'
    have hhead := congrArg List.head? hk
    simp only [block, hn, List.range_succ_eq_map, List.map_cons, List.head?_cons,
      Option.some.injEq] at hhead
    exact Nat.eq_of_mul_eq_mul_right (entries_pos hlast) (by omega)
  · rw [length_positions, List.length_map, List.length_range]

theorem outer_cases (box : List Part) :
    AllFull box ∨ ∃ p inner, ¬ p.Full ∧ AllFull inner ∧ box = outer box ++ p :: inner := by
  induction box with
  | nil => exact .inl fun p hp => nomatch hp
  | cons p box ih =>
    by_cases hbox : AllFull box
    · by_cases hp : p.Full
      · exact .inl (List.forall_mem_cons.mpr ⟨hp, hbox⟩)
      · exact .inr ⟨p, box, hp, hbox, by rw [outer, if_pos hbox, List.nil_append]⟩
    · obtain ⟨q, inner, hq, hinner, heq⟩ := ih.resolve_left hbox
      refine .inr ⟨q, inner, hq, hinner, ?_⟩
      rw [outer, if_neg hbox, List.cons_append, ← heq]

theorem volume_split {o inner : List Part} (hinner : AllFull inner) :
    volume (o ++ p :: inner) = volume o * (p.extent * entries inner) := by
  rw [volume_append, volume_cons, hinner.volume_eq]

theorem AllFull.evenly (h : AllFull box) : Evenly box := by
  cases box with
  | nil => exact trivial
  | cons p box =>
    rw [Evenly, outer, if_pos h.of_cons.2]
    exact trivial

theorem lt_entries_of_mem_positions (h : ∀ p ∈ box, p.Inside) {k : Nat} (hk : k ∈ positions box) :
    k < entries box := by
  induction box generalizing k with
  | nil =>
    rw [positions, List.mem_singleton] at hk
    rw [hk]
    decide
  | cons p box ih =>
    obtain ⟨i, hi, hk⟩ := List.mem_flatMap.mp hk
    obtain ⟨j, hj, rfl⟩ := List.mem_map.mp hk
    have hlt := ih (fun q hq => h q (List.mem_cons_of_mem p hq)) hj
    have hle := (h p List.mem_cons_self).le_size
    have hi := List.mem_range.mp hi
    have hrow : (p.first + i + 1) * entries box ≤ p.size * entries box :=
      Nat.mul_le_mul_right _ (by omega)
    rw [Nat.succ_mul] at hrow
    rw [entries_cons]
    omega

theorem pairwise_positions (h : ∀ p ∈ box, p.Inside) : (positions box).Pairwise (· < ·) := by
  induction box with
  | nil => exact List.pairwise_singleton _ _
  | cons p box ih =>
    have hbox : ∀ q ∈ box, q.Inside := fun q hq => h q (List.mem_cons_of_mem p hq)
    rw [positions, List.pairwise_flatMap]
    constructor
    · intro i _
      exact List.pairwise_map.mpr ((ih hbox).imp fun hlt => Nat.add_lt_add_left hlt _)
    · refine List.pairwise_lt_range.imp fun {i j} hij => ?_
      intro x hx y hy
      obtain ⟨k, hk, rfl⟩ := List.mem_map.mp hx
      obtain ⟨l, -, rfl⟩ := List.mem_map.mp hy
      have hlt := lt_entries_of_mem_positions hbox hk
      have hrow : (p.first + i + 1) * entries box ≤ (p.first + j) * entries box :=
        Nat.mul_le_mul_right _ (by omega)
      rw [Nat.succ_mul] at hrow
      omega

theorem offset_lt_entries (h : ∀ p ∈ box, p.Inside) : offset box < entries box :=
  lt_entries_of_mem_positions h (List.mem_of_mem_head? (head_positions h))

theorem offset_add_volume_le (h : ∀ p ∈ box, p.Inside) :
    offset box + volume box ≤ entries box := by
  induction box with
  | nil => decide
  | cons p box ih =>
    obtain ⟨hp, hbox⟩ := List.forall_mem_cons.mp h
    have hrest := ih hbox
    obtain ⟨n, hn⟩ := Nat.exists_eq_succ_of_ne_zero hp.extent_pos.ne'
    have hsize : p.first + (n + 1) ≤ p.size := by
      rw [← Nat.succ_eq_add_one, ← hn]
      exact hp.le_size
    have hle := Nat.mul_le_mul_right (entries box) hsize
    have hrows : n * volume box ≤ n * entries box :=
      Nat.mul_le_mul_left n (volume_le_entries hbox)
    rw [offset, volume_cons, entries_cons, hn, Nat.succ_mul]
    rw [Nat.add_mul, Nat.succ_mul] at hle
    omega

def cell : List Nat → Nat → List Part
  | [], _ => []
  | n :: sizes, k => ⟨n, k / sizes.prod, 1⟩ :: cell sizes (k % sizes.prod)

theorem entries_cell (sizes : List Nat) (k : Nat) : entries (cell sizes k) = sizes.prod := by
  induction sizes generalizing k with
  | nil => rfl
  | cons n sizes ih => rw [cell, entries_cons, ih, List.prod_cons]

theorem volume_cell (sizes : List Nat) (k : Nat) : volume (cell sizes k) = 1 := by
  induction sizes generalizing k with
  | nil => rfl
  | cons n sizes ih => rw [cell, volume_cons, ih, Nat.mul_one]

theorem inside_cell {sizes : List Nat} {k : Nat} (hk : k < sizes.prod) :
    ∀ p ∈ cell sizes k, p.Inside := by
  induction sizes generalizing k with
  | nil => exact fun p hp => nomatch hp
  | cons n sizes ih =>
    have hpos : 0 < sizes.prod := Nat.pos_of_mul_pos_left (Nat.zero_lt_of_lt hk)
    refine List.forall_mem_cons.mpr ⟨⟨Nat.one_pos, ?_⟩, ih (Nat.mod_lt k hpos)⟩
    exact (Nat.div_lt_iff_lt_mul hpos).mpr hk

theorem offset_cell {sizes : List Nat} {k : Nat} (hk : k < sizes.prod) :
    offset (cell sizes k) = k := by
  induction sizes generalizing k with
  | nil => exact (Nat.lt_one_iff.mp hk).symm
  | cons n sizes ih =>
    rw [List.prod_cons] at hk
    have hpos : 0 < sizes.prod := Nat.pos_of_mul_pos_left (Nat.zero_lt_of_lt hk)
    rw [cell, offset, entries_cell, ih (Nat.mod_lt k hpos), Nat.mul_comm, Nat.div_add_mod]

theorem mem_blocks {count length distance start k : Nat} :
    k ∈ blocks count length distance start ↔
      ∃ i < count, ∃ j < length, start + i * distance + j = k := by
  simp only [blocks, List.mem_flatMap, List.mem_map, List.mem_range]

theorem blocks_succ (count length distance start : Nat) :
    blocks (count + 1) length distance start =
      ((List.range length).map fun j => start + j) ++
        blocks count length distance (start + distance) := by
  unfold blocks
  rw [List.range_succ_eq_map, List.flatMap_cons, List.flatMap_map]
  congr 1
  · simp only [Nat.zero_mul, Nat.add_zero]
  · refine List.flatMap_congr fun i _ => List.map_congr_left fun j _ => ?_
    rw [Nat.succ_mul]
    omega

theorem blocks_zero (length distance start : Nat) : blocks 0 length distance start = [] := rfl

theorem length_blocks (count length distance start : Nat) :
    (blocks count length distance start).length = count * length := by
  rw [blocks, length_flatMap_const fun i => by rw [List.length_map, List.length_range],
    List.length_range]

theorem blocks_one (length distance start : Nat) :
    blocks 1 length distance start = (List.range length).map fun j => start + j := by
  rw [blocks_succ, blocks_zero, List.append_nil]

theorem pairwise_blocks {length distance : Nat} (h : length ≤ distance) (count start : Nat) :
    (blocks count length distance start).Pairwise (· < ·) := by
  rw [blocks, List.pairwise_flatMap]
  constructor
  · intro i _
    exact List.pairwise_map.mpr (List.pairwise_lt_range.imp fun hlt => Nat.add_lt_add_left hlt _)
  · refine List.pairwise_lt_range.imp fun {i j} hij => ?_
    intro x hx y hy
    obtain ⟨k, hk, rfl⟩ := List.mem_map.mp hx
    obtain ⟨l, -, rfl⟩ := List.mem_map.mp hy
    have hk := List.mem_range.mp hk
    have hnext : (i + 1) * distance ≤ j * distance := Nat.mul_le_mul_right _ hij
    rw [Nat.succ_mul] at hnext
    omega

variable {α : Type}

/-- The array with the elements at some positions replaced one after the other. -/
def replaceAt : List α → List Nat → List α → List α
  | items, p :: ps, x :: xs => replaceAt (items.set p x) ps xs
  | items, _, _ => items

@[simp] theorem length_replaceAt (items : List α) (ps : List Nat) (xs : List α) :
    (replaceAt items ps xs).length = items.length := by
  induction ps generalizing items xs with
  | nil => rw [replaceAt]; exact fun _ _ _ _ h => nomatch h
  | cons p ps ih =>
    cases xs with
    | nil => rw [replaceAt]; exact fun _ _ _ _ _ h => nomatch h
    | cons x xs => rw [replaceAt, ih, List.length_set]

theorem replaceAt_nil (items xs : List α) : replaceAt items [] xs = items := by
  rw [replaceAt]
  exact fun _ _ _ _ h => nomatch h

theorem replaceAt_append (items : List α) (ps qs : List Nat) (xs ys : List α)
    (h : ps.length = xs.length) :
    replaceAt items (ps ++ qs) (xs ++ ys) = replaceAt (replaceAt items ps xs) qs ys := by
  induction ps generalizing items xs with
  | nil =>
    rw [List.length_eq_zero_iff.mp h.symm, List.nil_append, List.nil_append, replaceAt_nil]
  | cons p ps ih =>
    cases xs with
    | nil => exact absurd h (Nat.succ_ne_zero _)
    | cons x xs =>
      rw [List.cons_append, List.cons_append, replaceAt, ih _ _ (Nat.succ.inj h), replaceAt]

theorem getElem?_replaceAt_of_notMem {items : List α} {ps : List Nat} {xs : List α} {k : Nat}
    (hk : k ∉ ps) : (replaceAt items ps xs)[k]? = items[k]? := by
  induction ps generalizing items xs with
  | nil => rw [replaceAt_nil]
  | cons p ps ih =>
    rw [List.mem_cons, not_or] at hk
    obtain ⟨hne, hk⟩ := hk
    cases xs with
    | nil => rw [replaceAt]; exact fun _ _ _ _ _ h => nomatch h
    | cons x xs => rw [replaceAt, ih hk, List.getElem?_set_ne (Ne.symm hne)]

theorem getElem?_replaceAt {items : List α} {ps : List Nat} {xs : List α} (hnodup : ps.Nodup)
    (hlt : ∀ p ∈ ps, p < items.length) (hlen : ps.length = xs.length) {i : Nat}
    (hi : i < ps.length) : (replaceAt items ps xs)[ps[i]]? = xs[i]? := by
  induction ps generalizing items xs i with
  | nil => exact absurd hi (Nat.not_lt_zero i)
  | cons p ps ih =>
    obtain ⟨hp, hnodup⟩ := List.nodup_cons.mp hnodup
    cases xs with
    | nil => exact absurd hlen (Nat.succ_ne_zero _)
    | cons x xs =>
      rw [replaceAt]
      cases i with
      | zero =>
        rw [List.getElem_cons_zero, getElem?_replaceAt_of_notMem hp,
          List.getElem?_set_self (hlt p List.mem_cons_self), List.getElem?_cons_zero]
      | succ i =>
        refine ih hnodup (fun q hq => ?_) (Nat.succ.inj hlen) _
        rw [List.length_set]
        exact hlt q (List.mem_cons_of_mem p hq)

/-- After the replacements a place holds what came last. -/
theorem replaceAt_eq_iff {items xs zs : List α} {ps : List Nat} (hlt : ∀ p ∈ ps, p < items.length)
    (hlen : ps.length ≤ xs.length) :
    replaceAt items ps xs = zs ↔
      (∀ k p x, ps[k]? = some p → xs[k]? = some x → p ∉ ps.drop (k + 1) → zs[p]? = some x) ∧
        ∀ q, q ∉ ps → items[q]? = zs[q]? := by
  induction ps generalizing items xs with
  | nil =>
    rw [replaceAt_nil, List.ext_getElem?_iff]
    exact ⟨fun h => ⟨fun _ _ _ hp => absurd hp (by simp), fun q _ => h q⟩,
      fun h q => h.2 q List.not_mem_nil⟩
  | cons p ps ih =>
    cases xs with
    | nil => exact absurd hlen (Nat.not_succ_le_zero _)
    | cons x xs =>
      obtain ⟨hp, hlt⟩ := List.forall_mem_cons.mp hlt
      have hset : ∀ q ∈ ps, q < (items.set p x).length := by
        rw [List.length_set]
        exact hlt
      rw [replaceAt, ih hset (Nat.le_of_succ_le_succ hlen)]
      constructor
      · rintro ⟨hlast, hother⟩
        refine ⟨fun k q y hq hy hnot => ?_, fun q hq => ?_⟩
        · cases k with
          | zero =>
            obtain rfl := Option.some.inj hq
            obtain rfl := Option.some.inj hy
            rw [← hother _ hnot, List.getElem?_set_self hp]
          | succ k => exact hlast k q y hq hy hnot
        · obtain ⟨hne, hq⟩ := not_or.mp (mt List.mem_cons.mpr hq)
          rw [← hother q hq, List.getElem?_set_ne (Ne.symm hne)]
      · rintro ⟨hlast, hother⟩
        refine ⟨fun k q y hq hy hnot => hlast (k + 1) q y hq hy hnot, fun q hq => ?_⟩
        by_cases heq : q = p
        · subst heq
          rw [List.getElem?_set_self hp, hlast 0 q x rfl rfl hq]
        · rw [List.getElem?_set_ne (Ne.symm heq)]
          exact hother q (mt List.mem_cons.mp (not_or.mpr ⟨heq, hq⟩))

end RowMajor
