import FactoryThing.Lib.LateLinks
import Mathlib.Logic.Relation
import Mathlib.Tactic

/-!
# The queue of changes

The multi-producer single-consumer queue of `src/ua_timer.c:22-69`, access by access. A producer
takes two steps, the exchange of `changes_head` and the write of the link; the consumer takes one
step for every read or write of memory that the producers can see. Memory is sequentially
consistent. `C` is the type of the entries, known by their addresses: an address may be used again
once its entry has been dequeued.
-/

namespace FactoryThing.Timer.ChangeQueue

open LateLinks

variable {C : Type} [DecidableEq C]

/-- A `UA_RepeatedJob` in the queue, or `changes_stub`. -/
inductive Node (C : Type) where
  | stub
  | change (c : C)
  deriving DecidableEq

/-- Where the consumer is in `dequeueChange`; `tail` is its local variable. -/
inductive Consumer (C : Type) where
  /-- not in `dequeueChange` -/
  | idle
  /-- the stub has been skipped, `tail->next` is to be read (line 53) -/
  | skipped (tail : Node C)
  /-- `next` was `NULL`, `changes_head` is to be read (line 59) -/
  | checking (tail : Node C)
  /-- `tail` was the last node, `changes_stub` is to be set to `NULL` (line 36) -/
  | inserting (tail : Node C)
  /-- `changes_head` is to be exchanged for the stub (line 37) -/
  | exchanging (tail : Node C)
  /-- the link to the stub is to be written (line 39) -/
  | linking (tail prev : Node C)
  /-- `tail->next` is to be read again (line 63) -/
  | rereading (tail : Node C)
  deriving DecidableEq

/-- The memory of the queue and the threads that work on it. `pending` has the producers between
their two steps, each with its `prev` and `rj`. `exchanged` are the changes in the order in which
their producers exchanged `changes_head`, `returned` the nodes that `dequeueChange` has returned. -/
structure State (C : Type) where
  next : Node C → Option (Node C)
  head : Node C
  tail : Node C
  pending : List (Node C × Node C)
  consumer : Consumer C
  exchanged : List C
  returned : List (Node C)

/-- `UA_RepeatedJobsList_init` (`ua_timer.c:22-32`). -/
def State.init : State C where
  next := fun _ => none
  head := .stub
  tail := .stub
  pending := []
  consumer := .idle
  exchanged := []
  returned := []

namespace State

/-- The first step of a producer's `enqueueChange` (`ua_timer.c:36-37`). -/
def exchange (s : State C) (c : C) : State C :=
  { s with
    next := Function.update s.next (.change c) none
    head := .change c
    pending := (s.head, .change c) :: s.pending
    exchanged := s.exchanged ++ [c] }

/-- The second step: `prev->next.sle_next = rj` (`ua_timer.c:39`). -/
def link (s : State C) (p : Node C × Node C) : State C :=
  { s with next := Function.update s.next p.1 (some p.2), pending := s.pending.erase p }

/-- `changes_tail = next; return tail` (`ua_timer.c:55-58`, `64-67`). -/
def returnTail (s : State C) (tail next : Node C) : State C :=
  { s with tail := next, consumer := .idle, returned := s.returned ++ [tail] }

/-- Behind the stub: `tail` is returned when there is a node behind it (`ua_timer.c:55-58`). -/
def returnOrCheck (s : State C) (tail : Node C) : State C :=
  match s.next tail with
  | some next => s.returnTail tail next
  | none => { s with consumer := .checking tail }

/-- A step of the consumer, which calls `dequeueChange` over and over (`ua_timer.c:45-69`). -/
def consume (s : State C) : State C :=
  match s.consumer with
  | .idle =>
    if s.tail = .stub then
      match s.next s.tail with
      | none => s
      | some next => { s with tail := next, consumer := .skipped next }
    else s.returnOrCheck s.tail
  | .skipped tail => s.returnOrCheck tail
  | .checking tail =>
    if tail ≠ s.head then { s with consumer := .idle } else { s with consumer := .inserting tail }
  | .inserting tail =>
    { s with next := Function.update s.next .stub none, consumer := .exchanging tail }
  | .exchanging tail => { s with head := .stub, consumer := .linking tail s.head }
  | .linking tail prev =>
    { s with next := Function.update s.next prev (some .stub), consumer := .rereading tail }
  | .rereading tail =>
    match s.next tail with
    | some next => s.returnTail tail next
    | none => { s with consumer := .idle }

/-- The changes that wait to be dequeued. -/
def waiting (s : State C) : List C := s.exchanged.drop s.returned.length

/-- The entry is none of those that wait. -/
def Fresh (s : State C) (c : C) : Prop := c ∉ s.waiting

instance (s : State C) (c : C) : Decidable (s.Fresh c) :=
  inferInstanceAs (Decidable (c ∉ s.waiting))

end State

open State

/-- A step of a thread that adds, or of the loop that takes. -/
inductive Step : State C → State C → Prop where
  | exchange {s : State C} (c : C) (h : s.Fresh c) : Step s (s.exchange c)
  | link {s : State C} (p : Node C × Node C) (h : p ∈ s.pending) : Step s (s.link p)
  | consume {s : State C} : Step s s.consume

/-- A state that some interleaving of the threads ends in. -/
def Reachable (s : State C) : Prop := Relation.ReflTransGen Step State.init s

/-- The link that the consumer itself still has to write. -/
def Consumer.links : Consumer C → List (Node C × Node C)
  | .linking _ prev => [(prev, .stub)]
  | _ => []

/-- What the consumer's local variable stands for. -/
def Consumer.Placed (consumer : Consumer C) (s : State C) (chain : List (Node C)) : Prop :=
  match consumer with
  | .idle => True
  | .skipped tail => tail = s.tail ∧ tail ≠ .stub
  | .checking tail => tail = s.tail ∧ tail ≠ .stub
  | .inserting tail => tail = s.tail ∧ tail ≠ .stub ∧ .stub ∉ chain
  | .exchanging tail => tail = s.tail ∧ tail ≠ .stub ∧ .stub ∉ chain ∧ s.next .stub = none
  | .linking tail _ => tail = s.tail ∧ tail ≠ .stub
  | .rereading tail => tail = s.tail ∧ tail ≠ .stub

/-- The nodes from `changes_tail` to `changes_head` are a list whose links are written late. -/
structure Inv (s : State C) (chain : List (Node C)) : Prop where
  linked : Linked s.next (s.pending ++ s.consumer.links) chain
  first : chain.head? = some s.tail
  last : chain.getLast? = some s.head
  accounts : s.exchanged.map Node.change = s.returned ++ chain.filter (· ≠ .stub)
  placed : s.consumer.Placed s chain

theorem inv_init : Inv (State.init : State C) [.stub] where
  linked := ⟨List.nodup_singleton _, fun a ha => by
    obtain rfl := List.mem_singleton.mp ha
    rfl, fun p hp => (List.not_mem_nil hp).elim, List.nodup_nil⟩
  first := rfl
  last := rfl
  accounts := rfl
  placed := trivial

variable {s : State C} {chain : List (Node C)}

theorem Inv.waiting_eq (h : Inv s chain) :
    s.waiting.map Node.change = chain.filter (· ≠ .stub) := by
  unfold State.waiting
  rw [List.map_drop, h.accounts, List.drop_left]

theorem Inv.not_mem_of_fresh (h : Inv s chain) {c : C} (hfresh : s.Fresh c) :
    .change c ∉ chain := by
  intro hmem
  have hin : Node.change c ∈ s.waiting.map Node.change := by
    rw [h.waiting_eq]
    exact List.mem_filter.mpr ⟨hmem, by simp⟩
  obtain ⟨c', hc', heq⟩ := List.mem_map.mp hin
  exact hfresh (Node.change.inj heq ▸ hc')

theorem Inv.exchange (h : Inv s chain) {c : C} (hfresh : s.Fresh c) :
    Inv (s.exchange c) (chain ++ [.change c]) where
  linked := h.linked.push h.last (h.not_mem_of_fresh hfresh)
  first := by
    rw [List.head?_append, h.first]
    rfl
  last := List.getLast?_concat
  accounts := by
    show (s.exchanged ++ [c]).map Node.change = _
    rw [List.map_append, h.accounts, List.filter_append, List.append_assoc]
    rfl
  placed := by
    have hplaced := h.placed
    have hstub : Node.stub ∉ chain → Node.stub ∉ chain ++ [.change c] := by simp
    show s.consumer.Placed (s.exchange c) _
    unfold Consumer.Placed at hplaced ⊢
    split at hplaced
    · trivial
    · exact hplaced
    · exact hplaced
    · exact ⟨hplaced.1, hplaced.2.1, hstub hplaced.2.2⟩
    · refine ⟨hplaced.1, hplaced.2.1, hstub hplaced.2.2.1, ?_⟩
      show Function.update s.next (.change c) none .stub = none
      rw [Function.update_of_ne (by simp)]
      exact hplaced.2.2.2
    · exact hplaced
    · exact hplaced

theorem Inv.link (h : Inv s chain) {p : Node C × Node C} (hp : p ∈ s.pending) :
    Inv (s.link p) chain where
  linked := by
    have hlinked := h.linked.link (List.mem_append_left _ hp)
    rw [List.erase_append_left _ hp] at hlinked
    exact hlinked
  first := h.first
  last := h.last
  accounts := h.accounts
  placed := by
    have hplaced := h.placed
    show s.consumer.Placed (s.link p) _
    unfold Consumer.Placed at hplaced ⊢
    split at hplaced
    · trivial
    · exact hplaced
    · exact hplaced
    · exact hplaced
    · refine ⟨hplaced.1, hplaced.2.1, hplaced.2.2.1, ?_⟩
      have hmem := mem_of_succ (h.linked.succ_eq p (List.mem_append_left _ hp))
      have hne : Node.stub ≠ p.1 := fun heq => hplaced.2.2.1 (heq ▸ hmem)
      show Function.update s.next p.1 (some p.2) .stub = none
      rw [Function.update_of_ne hne]
      exact hplaced.2.2.2
    · exact hplaced
    · exact hplaced

theorem Inv.eq_cons (h : Inv s chain) : ∃ rest, chain = s.tail :: rest := by
  cases chain with
  | nil => cases h.first
  | cons a rest =>
    obtain rfl := Option.some.inj h.first
    exact ⟨rest, rfl⟩

theorem Inv.advance {rest : List (Node C)} (h : Inv s (s.tail :: rest)) {next : Node C}
    (hnext : s.next s.tail = some next) :
    rest.head? = some next ∧ rest.getLast? = some s.head ∧
      Linked s.next (s.pending ++ s.consumer.links) rest := by
  obtain ⟨hhead, hlinked⟩ := h.linked.pop hnext
  refine ⟨hhead, ?_, hlinked⟩
  have hlast := h.last
  cases rest with
  | nil => cases hhead
  | cons b rest =>
    exact hlast

theorem Inv.returnTail (h : Inv s chain) (hlinks : s.consumer.links = []) (htail : s.tail ≠ .stub)
    {next : Node C} (hnext : s.next s.tail = some next) :
    ∃ chain', Inv (s.returnTail s.tail next) chain' := by
  obtain ⟨rest, rfl⟩ := h.eq_cons
  obtain ⟨hfirst, hlast, hlinked⟩ := h.advance hnext
  rw [hlinks] at hlinked
  refine ⟨rest, hlinked, hfirst, hlast, ?_, trivial⟩
  have haccounts := h.accounts
  rw [List.filter_cons_of_pos (by simpa using htail)] at haccounts
  show s.exchanged.map Node.change = (s.returned ++ [s.tail]) ++ _
  rw [haccounts, List.append_assoc]
  rfl

theorem Inv.move (h : Inv s chain) (consumer : Consumer C)
    (hlinks : s.consumer.links = consumer.links)
    (hplaced : consumer.Placed { s with consumer := consumer } chain) :
    Inv { s with consumer := consumer } chain where
  linked := by
    have hlinked := h.linked
    rw [hlinks] at hlinked
    exact hlinked
  first := h.first
  last := h.last
  accounts := h.accounts
  placed := hplaced

theorem Inv.returnOrCheck (h : Inv s chain) (hlinks : s.consumer.links = [])
    (htail : s.tail ≠ .stub) : ∃ chain', Inv (s.returnOrCheck s.tail) chain' := by
  unfold State.returnOrCheck
  cases hnext : s.next s.tail with
  | some next => exact h.returnTail hlinks htail hnext
  | none => exact ⟨chain, h.move (.checking s.tail) hlinks ⟨rfl, htail⟩⟩

theorem Inv.consume (h : Inv s chain) : ∃ chain', Inv s.consume chain' := by
  have hplaced := h.placed
  unfold State.consume
  cases hconsumer : s.consumer with
  | idle =>
    have hlinks : s.consumer.links = [] := by rw [hconsumer]; rfl
    dsimp only
    by_cases htail : s.tail = .stub
    · rw [if_pos htail]
      cases hnext : s.next s.tail with
      | none => exact ⟨chain, h⟩
      | some next =>
        obtain ⟨rest, rfl⟩ := h.eq_cons
        obtain ⟨hfirst, hlast, hlinked⟩ := h.advance hnext
        rw [hlinks] at hlinked
        have hstub : Node.stub ∉ rest := fun hmem =>
          (List.nodup_cons.mp h.linked.nodup).1 (htail ▸ hmem)
        have hnextStub : next ≠ .stub := by
          rintro rfl
          exact hstub (List.mem_of_mem_head? hfirst)
        refine ⟨rest, hlinked, hfirst, hlast, ?_, rfl, hnextStub⟩
        have haccounts := h.accounts
        rw [List.filter_cons_of_neg (by simpa using htail)] at haccounts
        exact haccounts
    · rw [if_neg htail]
      exact h.returnOrCheck hlinks htail
  | skipped tail =>
    rw [hconsumer] at hplaced
    obtain ⟨rfl, htail⟩ := hplaced
    exact h.returnOrCheck (by rw [hconsumer]; rfl) htail
  | checking tail =>
    rw [hconsumer] at hplaced
    obtain ⟨rfl, htail⟩ := hplaced
    have hlinks : s.consumer.links = [] := by rw [hconsumer]; rfl
    dsimp only
    split
    · exact ⟨chain, h.move .idle hlinks trivial⟩
    · next hhead =>
      refine ⟨chain, h.move (.inserting s.tail) hlinks ⟨rfl, htail, ?_⟩⟩
      -- the last node is the first one, so there is no other
      obtain ⟨rest, rfl⟩ := h.eq_cons
      have hlast := h.last
      rw [← not_not.mp hhead] at hlast
      cases rest with
      | nil => exact fun hmem => htail (List.mem_singleton.mp hmem).symm
      | cons b rest =>
        rw [List.getLast?_cons_cons] at hlast
        exact absurd (List.mem_of_getLast? hlast) (List.nodup_cons.mp h.linked.nodup).1
  | inserting tail =>
    rw [hconsumer] at hplaced
    obtain ⟨rfl, htail, hstub⟩ := hplaced
    dsimp only
    refine ⟨chain, ?_, h.first, h.last, h.accounts, rfl, htail, hstub,
      Function.update_self Node.stub none s.next⟩
    have hlinked := h.linked
    rw [hconsumer] at hlinked
    apply hlinked.congr
    intro a ha
    have hne : a ≠ .stub := by
      rintro rfl
      exact hstub ha
    exact Function.update_of_ne hne _ _
  | exchanging tail =>
    rw [hconsumer] at hplaced
    obtain ⟨rfl, htail, hstub, hnone⟩ := hplaced
    have hlinked := h.linked.push h.last hstub
    have hsame : Function.update s.next .stub none = s.next := by
      rw [← hnone, Function.update_eq_self]
    rw [hsame, hconsumer] at hlinked
    refine ⟨chain ++ [.stub], ?_, ?_, List.getLast?_concat, ?_, rfl, htail⟩
    · apply hlinked.perm
      show (_ :: (s.pending ++ [])).Perm (s.pending ++ [_])
      rw [List.append_nil]
      exact (List.perm_append_singleton _ _).symm
    · rw [List.head?_append, h.first]
      rfl
    · rw [List.filter_append]
      show s.exchanged.map Node.change = s.returned ++ (_ ++ [])
      rw [List.append_nil]
      exact h.accounts
  | linking tail prev =>
    rw [hconsumer] at hplaced
    obtain ⟨rfl, htail⟩ := hplaced
    refine ⟨chain, ?_, h.first, h.last, h.accounts, rfl, htail⟩
    have hlinked := h.linked
    rw [hconsumer] at hlinked
    have hperm : (s.pending ++ [(prev, Node.stub)]).Perm ((prev, .stub) :: s.pending) :=
      List.perm_append_singleton _ _
    have hwritten := (hlinked.perm hperm).link List.mem_cons_self
    rw [List.erase_cons_head] at hwritten
    show Linked _ (s.pending ++ []) chain
    rw [List.append_nil]
    exact hwritten
  | rereading tail =>
    rw [hconsumer] at hplaced
    obtain ⟨rfl, htail⟩ := hplaced
    have hlinks : s.consumer.links = [] := by rw [hconsumer]; rfl
    dsimp only
    cases hnext : s.next s.tail with
    | some next => exact h.returnTail hlinks htail hnext
    | none => exact ⟨chain, h.move .idle hlinks trivial⟩

theorem Reachable.inv {s : State C} (h : Reachable s) : ∃ chain, Inv s chain := by
  induction h with
  | refl => exact ⟨_, inv_init⟩
  | tail _ hstep ih =>
    obtain ⟨chain, hinv⟩ := ih
    cases hstep with
    | exchange c hfresh => exact ⟨_, hinv.exchange hfresh⟩
    | link p hp => exact ⟨_, hinv.link hp⟩
    | consume => exact hinv.consume

/-! ## Whole calls -/

/-- The number of steps that the consumer is at most away from the end of its call. -/
def Consumer.rank : Consumer C → Nat
  | .idle => 0
  | .skipped _ => 6
  | .checking _ => 5
  | .inserting _ => 4
  | .exchanging _ => 3
  | .linking _ _ => 2
  | .rereading _ => 1

/-- The call in progress, with no producer in between; at most six steps are left of it. -/
def State.finish : Nat → State C → State C
  | 0, s => s
  | n + 1, s => if s.consumer = .idle then s else finish n s.consume

/-- A whole call of `dequeueChange` with no producer in between. -/
def State.dequeueChange (s : State C) : State C := s.consume.finish 6

omit [DecidableEq C] in
theorem rank_returnOrCheck (s : State C) (tail : Node C) :
    (s.returnOrCheck tail).consumer.rank ≤ 5 := by
  unfold State.returnOrCheck
  split
  · exact Nat.zero_le _
  · exact Nat.le_refl _

theorem rank_consume_lt (s : State C) (h : s.consumer ≠ .idle) :
    s.consume.consumer.rank < s.consumer.rank := by
  unfold State.consume
  cases hconsumer : s.consumer with
  | idle => exact absurd hconsumer h
  | skipped tail => exact Nat.lt_succ_of_le (rank_returnOrCheck s tail)
  | checking tail =>
    dsimp only
    split
    · exact Nat.succ_pos _
    · exact Nat.lt_succ_self _
  | inserting tail => exact Nat.lt_succ_self _
  | exchanging tail => exact Nat.lt_succ_self _
  | linking tail prev => exact Nat.lt_succ_self _
  | rereading tail =>
    dsimp only
    split
    · exact Nat.succ_pos _
    · exact Nat.succ_pos _

theorem idle_finish (n : Nat) (s : State C) (h : s.consumer.rank ≤ n) :
    (s.finish n).consumer = .idle := by
  induction n generalizing s with
  | zero =>
    unfold State.finish
    cases hconsumer : s.consumer with
    | idle => rfl
    | _ =>
      rw [hconsumer] at h
      exact absurd h (by simp [Consumer.rank])
  | succ n ih =>
    unfold State.finish
    split
    · next hidle => exact hidle
    · next hbusy => exact ih _ (Nat.le_of_lt_succ ((rank_consume_lt s hbusy).trans_le h))

omit [DecidableEq C] in
theorem rank_le (consumer : Consumer C) : consumer.rank ≤ 6 := by
  cases consumer with
  | _ => simp [Consumer.rank]

theorem consume_pending (s : State C) :
    s.consume.pending = s.pending ∧ s.consume.exchanged = s.exchanged := by
  have hcheck : ∀ tail, (s.returnOrCheck tail).pending = s.pending ∧
      (s.returnOrCheck tail).exchanged = s.exchanged := by
    intro tail
    unfold State.returnOrCheck
    split
    · exact ⟨rfl, rfl⟩
    · exact ⟨rfl, rfl⟩
  unfold State.consume
  cases s.consumer with
  | idle =>
    dsimp only
    split
    · split
      · exact ⟨rfl, rfl⟩
      · exact ⟨rfl, rfl⟩
    · exact hcheck _
  | skipped tail => exact hcheck tail
  | checking tail =>
    dsimp only
    split
    · exact ⟨rfl, rfl⟩
    · exact ⟨rfl, rfl⟩
  | inserting tail => exact ⟨rfl, rfl⟩
  | exchanging tail => exact ⟨rfl, rfl⟩
  | linking tail prev => exact ⟨rfl, rfl⟩
  | rereading tail =>
    dsimp only
    split
    · exact ⟨rfl, rfl⟩
    · exact ⟨rfl, rfl⟩

/-- A state without a producer between its steps, and with the consumer between two calls. -/
structure Quiet (s : State C) (chain : List (Node C)) : Prop where
  inv : Inv s chain
  idle : s.consumer = .idle
  pending : s.pending = []

theorem quiet_finish (n : Nat) (s : State C) (chain : List (Node C)) (h : Inv s chain)
    (hpending : s.pending = []) (hn : s.consumer.rank ≤ n) :
    (∃ chain', Quiet (s.finish n) chain') ∧ (s.finish n).exchanged = s.exchanged := by
  induction n generalizing s chain with
  | zero => exact ⟨⟨chain, h, idle_finish 0 s hn, hpending⟩, rfl⟩
  | succ n ih =>
    unfold State.finish
    split
    · next hidle => exact ⟨⟨chain, h, hidle, hpending⟩, rfl⟩
    · next hbusy =>
      obtain ⟨chain', hinv⟩ := h.consume
      obtain ⟨hpending', hexchanged⟩ := consume_pending s
      obtain ⟨hquiet, hrest⟩ := ih s.consume chain' hinv (hpending'.trans hpending)
        (Nat.le_of_lt_succ ((rank_consume_lt s hbusy).trans_le hn))
      exact ⟨hquiet, hrest.trans hexchanged⟩

theorem finish_of_idle (n : Nat) {s : State C} (h : s.consumer = .idle) : s.finish n = s := by
  cases n with
  | zero => rfl
  | succ n => exact if_pos h

theorem finish_of_busy (n : Nat) {s : State C} (h : s.consumer ≠ .idle) :
    s.finish (n + 1) = s.consume.finish n := if_neg h

theorem finish_checking (n : Nat) {s : State C} {c : C} (hhead : s.head = .change c)
    (hconsumer : s.consumer = .checking (.change c)) :
    (s.finish (n + 5)).returned = s.returned ++ [.change c] := by
  have hrun : s.consume.consume.consume.consume.consume.returned =
        s.returned ++ [.change c] ∧
      s.consume.consume.consume.consume.consume.consumer = .idle := by
    simp [State.consume, State.returnTail, hconsumer, hhead, Function.update]
  rw [finish_of_busy, finish_of_busy, finish_of_busy, finish_of_busy, finish_of_busy,
    finish_of_idle n hrun.2]
  · exact hrun.1
  all_goals simp [State.consume, hconsumer, hhead]

theorem finish_returnOrCheck (n : Nat) {s : State C} {c : C} {rest : List (Node C)}
    (hnext : s.next (.change c) = rest.head?)
    (hlast : (Node.change c :: rest).getLast? = some s.head) :
    ((s.returnOrCheck (.change c)).finish (n + 5)).returned = s.returned ++ [.change c] := by
  unfold State.returnOrCheck
  cases rest with
  | nil =>
    rw [hnext]
    exact finish_checking n (Option.some.inj hlast).symm rfl
  | cons m rest =>
    rw [hnext]
    exact congrArg State.returned (finish_of_idle _ rfl)

theorem Quiet.dequeueChange (h : Quiet s chain) :
    (∃ chain', Quiet s.dequeueChange chain') ∧ s.dequeueChange.exchanged = s.exchanged ∧
      s.dequeueChange.returned = s.returned ++ (chain.filter (· ≠ .stub)).take 1 := by
  obtain ⟨chain', hinv⟩ := h.inv.consume
  obtain ⟨hpending, hexchanged⟩ := consume_pending s
  obtain ⟨hquiet, hrest⟩ := quiet_finish 6 s.consume chain' hinv (hpending.trans h.pending)
    (rank_le _)
  refine ⟨hquiet, hrest.trans hexchanged, ?_⟩
  have hlinked := h.inv.linked
  have hlast := h.inv.last
  rw [h.pending, h.idle] at hlinked
  obtain ⟨rest, rfl⟩ := h.inv.eq_cons
  have hnext : s.next s.tail = rest.head? := by
    rw [hlinked.next_of_nil List.mem_cons_self, succ_cons_self]
  unfold State.dequeueChange State.consume
  rw [h.idle]
  dsimp only
  cases htail : s.tail with
  | stub =>
    rw [if_pos rfl, ← htail, hnext]
    cases rest with
    | nil =>
      dsimp only [List.head?_nil]
      rw [finish_of_idle 6 h.idle, htail]
      exact (List.append_nil _).symm
    | cons n rest =>
      obtain ⟨-, hlast', hlinked'⟩ := h.inv.advance hnext
      have hstub : n ≠ .stub := by
        rintro rfl
        exact (List.nodup_cons.mp h.inv.linked.nodup).1 (htail ▸ List.mem_cons_self)
      cases n with
      | stub => exact absurd rfl hstub
      | change c =>
        have hnext' : s.next (.change c) = rest.head? := by
          rw [h.pending, h.idle] at hlinked'
          rw [hlinked'.next_of_nil List.mem_cons_self, succ_cons_self]
        dsimp only [List.head?_cons]
        rw [finish_of_busy 5 (by simp)]
        have hskipped := finish_returnOrCheck 0
          (s := { s with tail := .change c, consumer := .skipped (.change c) }) hnext' hlast'
        rw [htail]
        exact hskipped
  | change c =>
    rw [if_neg (by simp)]
    rw [htail] at hnext hlast
    rw [finish_returnOrCheck 1 hnext hlast]
    rfl

theorem Quiet.dequeueAll (n : Nat) (h : Quiet s chain) :
    (State.dequeueChange^[n] s).returned =
      (s.exchanged.map Node.change).take (s.returned.length + n) := by
  induction n generalizing s chain with
  | zero =>
    rw [h.inv.accounts, Nat.add_zero, List.take_left]
    rfl
  | succ n ih =>
    obtain ⟨⟨chain', hquiet⟩, hexchanged, hreturned⟩ := h.dequeueChange
    rw [Function.iterate_succ_apply, ih hquiet, hexchanged, hreturned, h.inv.accounts,
      List.length_append]
    cases chain.filter (· ≠ .stub) with
    | nil => rw [List.take_of_length_le (by simp), List.take_of_length_le (by simp)]
    | cons node waiting =>
      rw [List.take_succ_cons, List.take_zero, List.length_singleton, Nat.add_assoc, Nat.add_comm 1]

/-- Whatever the interleaving, the changes that have been dequeued are the first ones in the order
of the exchanges, and the stub is not among them. Once all producers have written their links, the
call in progress and the calls after it return all the others. -/
theorem dequeued_in_order (s : State C) (h : Reachable s) :
    s.returned <+: s.exchanged.map Node.change ∧ Node.stub ∉ s.returned ∧
      (s.exchanged.Nodup → s.returned.Nodup) ∧
      (s.pending = [] → ∀ n, (State.dequeueChange^[n] (s.finish 6)).returned =
        (s.exchanged.map Node.change).take ((s.finish 6).returned.length + n)) := by
  obtain ⟨chain, hinv⟩ := h.inv
  have hpre : s.returned <+: s.exchanged.map Node.change := by
    rw [hinv.accounts]
    exact List.prefix_append _ _
  refine ⟨hpre, ?_, ?_, ?_⟩
  · intro hmem
    obtain ⟨c, -, hc⟩ := List.mem_map.mp (hpre.subset hmem)
    cases hc
  · intro hnodup
    exact (hnodup.map fun c c' heq => Node.change.inj heq).sublist hpre.sublist
  · intro hpending n
    obtain ⟨⟨chain', hquiet⟩, hexchanged⟩ := quiet_finish 6 s chain hinv hpending (rank_le _)
    rw [hquiet.dequeueAll n, hexchanged]

/-- A producer between its two steps, with the stub just skipped: nothing is dequeued until the
link is written. -/
theorem dequeued_in_order_late :
    let s : State Nat :=
      ((((State.init.exchange 1).consume.exchange 2).link (.stub, .change 1)).link
      (.change 1, .change 2)).consume
    s.returned <+: s.exchanged.map Node.change ∧ Node.stub ∉ s.returned ∧
      (s.exchanged.Nodup → s.returned.Nodup) ∧
      (s.pending = [] → ∀ n, (State.dequeueChange^[n] (s.finish 6)).returned =
        (s.exchanged.map Node.change).take ((s.finish 6).returned.length + n)) :=
  dequeued_in_order _ (((((((Relation.ReflTransGen.refl.tail (.exchange 1 (by decide))).tail
    .consume).tail (.exchange 2 (by decide))).tail (.link _ (by decide))).tail
    (.link _ (by decide))).tail .consume))

end FactoryThing.Timer.ChangeQueue
