import Mathlib.Data.List.Nodup
import Mathlib.Data.List.Perm.Basic
import Mathlib.Data.List.Basic

/-!
# Linked lists whose links are written late

A list of nodes that others append to in two steps: first the node becomes the last one, later the
pointer of the node before it is set. In between the list is broken into segments. `Linked` says
that the pointers agree with the list but for the links that are still to be written, and the rules
say what each operation does to it.
-/

namespace LateLinks

variable {N : Type} [DecidableEq N]

/-- The element behind `a`. -/
def succ : List N → N → Option N
  | [], _ => none
  | x :: rest, a => if a = x then rest.head? else succ rest a

theorem succ_cons_self (x : N) (rest : List N) : succ (x :: rest) x = rest.head? := if_pos rfl

variable {a x : N} {l : List N} {b : N}

theorem succ_cons_of_ne (h : a ≠ x) (rest : List N) :
    succ (x :: rest) a = succ rest a := if_neg h

theorem succ_eq_none_of_not_mem (h : a ∉ l) : succ l a = none := by
  induction l with
  | nil => rfl
  | cons x rest ih =>
    rw [List.mem_cons, not_or] at h
    rw [succ_cons_of_ne h.1]
    exact ih h.2

theorem mem_of_succ (h : succ l a = some b) : a ∈ l := by
  by_contra hnot
  rw [succ_eq_none_of_not_mem hnot] at h
  cases h

theorem succ_append_singleton (hx : x ∉ l) (ha : a ∈ l) (hl : l.Nodup) :
    succ (l ++ [x]) a = if l.getLast? = some a then some x else succ l a := by
  induction l with
  | nil => cases ha
  | cons y rest ih =>
    obtain ⟨hy, hrest⟩ := List.nodup_cons.mp hl
    cases rest with
    | nil =>
      obtain rfl := List.mem_singleton.mp ha
      simp [succ]
    | cons z rest =>
      rw [List.getLast?_cons_cons]
      by_cases hay : a = y
      · subst hay
        have hlast : (z :: rest).getLast? ≠ some a := fun hlast =>
          hy (List.mem_of_getLast? hlast)
        rw [if_neg hlast]
        simp [succ]
      · have hmem : a ∈ z :: rest := (List.mem_cons.mp ha).resolve_left hay
        have hrec := ih (fun hmem => hx (List.mem_cons_of_mem _ hmem)) hmem hrest
        rw [List.cons_append, succ_cons_of_ne hay, hrec, succ_cons_of_ne hay]

theorem succ_last (hl : l.Nodup) (h : l.getLast? = some a) : succ l a = none := by
  induction l with
  | nil => cases h
  | cons y rest ih =>
    obtain ⟨hy, hrest⟩ := List.nodup_cons.mp hl
    cases rest with
    | nil =>
      obtain rfl := Option.some.inj h
      simp [succ]
    | cons z rest =>
      have hay : a ≠ y := fun heq => hy (heq ▸ List.mem_of_getLast? h)
      rw [succ_cons_of_ne hay]
      exact ih hrest h

/-- The pointers of the nodes agree with the list, but for the links that are still to be written,
which are pairs of neighbours. -/
structure Linked (next : N → Option N) (links : List (N × N)) (chain : List N) : Prop where
  nodup : chain.Nodup
  next_eq : ∀ a ∈ chain, next a = if a ∈ links.map Prod.fst then none else succ chain a
  succ_eq : ∀ p ∈ links, succ chain p.1 = some p.2
  links_nodup : (links.map Prod.fst).Nodup

variable {next : N → Option N} {links links' : List (N × N)} {chain : List N}

theorem Linked.perm (h : Linked next links chain) (hp : links.Perm links') :
    Linked next links' chain where
  nodup := h.nodup
  next_eq a ha := by
    have hmem : a ∈ links'.map Prod.fst ↔ a ∈ links.map Prod.fst := (hp.map Prod.fst).symm.mem_iff
    rw [h.next_eq a ha]
    exact if_congr hmem.symm rfl rfl
  succ_eq p hmem := h.succ_eq p (hp.mem_iff.mpr hmem)
  links_nodup := (hp.map Prod.fst).nodup_iff.mp h.links_nodup

theorem Linked.congr {next' : N → Option N} (h : Linked next links chain)
    (heq : ∀ a ∈ chain, next' a = next a) : Linked next' links chain where
  nodup := h.nodup
  next_eq a ha := (heq a ha).trans (h.next_eq a ha)
  succ_eq := h.succ_eq
  links_nodup := h.links_nodup

theorem Linked.of_next (h : Linked next links chain) (ha : a ∈ chain) (hnext : next a = some b) :
    a ∉ links.map Prod.fst ∧ succ chain a = some b := by
  have heq := h.next_eq a ha
  rw [hnext] at heq
  split at heq
  · cases heq
  · next hnot => exact ⟨hnot, heq.symm⟩

theorem Linked.next_of_nil (h : Linked next [] chain) (ha : a ∈ chain) : next a = succ chain a := by
  rw [h.next_eq a ha, List.map_nil, if_neg List.not_mem_nil]

theorem Linked.last_not_link (h : Linked next links chain) (ha : chain.getLast? = some a) :
    a ∉ links.map Prod.fst := by
  intro hmem
  obtain ⟨p, hp, rfl⟩ := List.mem_map.mp hmem
  have hsucc := h.succ_eq p hp
  rw [succ_last h.nodup ha] at hsucc
  cases hsucc

theorem Linked.push (h : Linked next links chain) (ha : chain.getLast? = some a) (hx : x ∉ chain) :
    Linked (Function.update next x none) ((a, x) :: links) (chain ++ [x]) := by
  have hmem : a ∈ chain := List.mem_of_getLast? ha
  have hlast := h.last_not_link ha
  refine ⟨?_, ?_, ?_, List.nodup_cons.mpr ⟨hlast, h.links_nodup⟩⟩
  · refine List.nodup_append.mpr ⟨h.nodup, List.nodup_singleton x, ?_⟩
    rintro y hy z hz rfl
    exact hx (List.mem_singleton.mp hz ▸ hy)
  · intro y hy
    rw [List.map_cons]
    rcases List.mem_append.mp hy with hold | hnew
    · have hyx : y ≠ x := fun heq => hx (heq ▸ hold)
      rw [Function.update_of_ne hyx, succ_append_singleton hx hold h.nodup]
      by_cases hya : y = a
      · subst hya
        rw [h.next_eq y hold, if_neg hlast, succ_last h.nodup ha, if_pos List.mem_cons_self]
      · have hlast' : ¬ chain.getLast? = some y := by
          rw [ha]
          exact fun heq => hya (Option.some.inj heq).symm
        rw [if_neg hlast', h.next_eq y hold]
        exact if_congr (by simp [hya]) rfl rfl
    · obtain rfl := List.mem_singleton.mp hnew
      rw [Function.update_self]
      have hsucc : succ (chain ++ [y]) y = none := by
        apply succ_last
        · refine List.nodup_append.mpr ⟨h.nodup, List.nodup_singleton y, ?_⟩
          rintro z hz w hw rfl
          exact hx (List.mem_singleton.mp hw ▸ hz)
        · exact List.getLast?_concat
      rw [hsucc, ite_self]
  · intro p hp
    rcases List.mem_cons.mp hp with rfl | hold
    · rw [succ_append_singleton hx hmem h.nodup, if_pos ha]
    · have hsucc := h.succ_eq p hold
      have hin := mem_of_succ hsucc
      have hne : ¬ chain.getLast? = some p.1 := by
        intro heq
        rw [succ_last h.nodup heq] at hsucc
        cases hsucc
      rw [succ_append_singleton hx hin h.nodup, if_neg hne]
      exact hsucc

theorem Linked.link (h : Linked next links chain) {p : N × N} (hp : p ∈ links) :
    Linked (Function.update next p.1 (some p.2)) (links.erase p) chain := by
  have hperm : links.Perm (p :: links.erase p) := List.perm_cons_erase hp
  have hfirst := h.perm hperm
  obtain ⟨hnot, hnodup⟩ := List.nodup_cons.mp hfirst.links_nodup
  refine ⟨h.nodup, ?_, fun q hq => h.succ_eq q (List.mem_of_mem_erase hq), hnodup⟩
  intro a ha
  by_cases hap : a = p.1
  · subst hap
    rw [Function.update_self, if_neg hnot]
    exact (h.succ_eq p hp).symm
  · rw [Function.update_of_ne hap, hfirst.next_eq a ha, List.map_cons]
    exact if_congr (by simp [hap]) rfl rfl

theorem Linked.pop {rest : List N} (h : Linked next links (a :: rest)) (hnext : next a = some b) :
    rest.head? = some b ∧ Linked next links rest := by
  obtain ⟨hnot, hsucc⟩ := h.of_next List.mem_cons_self hnext
  rw [succ_cons_self] at hsucc
  obtain ⟨ha, hrest⟩ := List.nodup_cons.mp h.nodup
  refine ⟨hsucc, hrest, ?_, ?_, h.links_nodup⟩
  · intro x hx
    have hxa : x ≠ a := fun heq => ha (heq ▸ hx)
    rw [h.next_eq x (List.mem_cons_of_mem a hx), succ_cons_of_ne hxa]
  · intro p hp
    have hpa : p.1 ≠ a := fun heq => hnot (heq ▸ List.mem_map_of_mem hp)
    have hold := h.succ_eq p hp
    rw [succ_cons_of_ne hpa] at hold
    exact hold

end LateLinks
