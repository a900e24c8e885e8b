import Mathlib

/-!
# Decimal numerals

What a text begins with, up to the first character that is no longer wanted; and texts of bytes that
begin with digits, with the numbers that the digits denote.
-/

namespace LeadingRuns

variable {α : Type} {p : α → Bool} {c : α} {run run' rest rest' s : List α}

/-- The text does not begin with a character that is wanted. -/
def Ends (p : α → Bool) (rest : List α) : Prop := ∀ c ∈ rest.head?, p c = false

theorem ends_nil : Ends p [] := nofun

theorem ends_cons (h : p c = false) : Ends p (c :: s) := by
  rintro _ ⟨⟩
  exact h

theorem takeWhile_of_ends (h : Ends p rest) : rest.takeWhile p = [] := by
  cases rest with
  | nil => rfl
  | cons c s => exact List.takeWhile_cons_of_neg (Bool.eq_false_iff.mp (h c rfl))

theorem takeWhile_append (hrun : ∀ c ∈ run, p c = true) (hrest : Ends p rest) :
    (run ++ rest).takeWhile p = run := by
  rw [List.takeWhile_append_of_pos hrun, takeWhile_of_ends hrest, List.append_nil]

theorem ends_dropWhile (p : α → Bool) (s : List α) : Ends p (s.dropWhile p) := by
  intro c hc
  have hne : s.dropWhile p ≠ [] := by
    rintro hnil
    rw [hnil] at hc
    cases hc
  have hhead := List.head_dropWhile_not p hne
  rw [List.head?_eq_some_head hne] at hc
  cases hc
  exact hhead

theorem takeWhile_append_drop (p : α → Bool) (s : List α) :
    s.takeWhile p ++ s.drop (s.takeWhile p).length = s :=
  List.prefix_iff_eq_append.mp (List.takeWhile_prefix p)

theorem ends_drop (p : α → Bool) (s : List α) : Ends p (s.drop (s.takeWhile p).length) := by
  have hdrop : s.drop (s.takeWhile p).length = s.dropWhile p := by
    have hsame : s.takeWhile p ++ s.drop (s.takeWhile p).length =
        s.takeWhile p ++ s.dropWhile p := by
      rw [takeWhile_append_drop, List.takeWhile_append_dropWhile]
    exact List.append_cancel_left hsame
  rw [hdrop]
  exact ends_dropWhile p s

theorem split_unique (h : run ++ rest = run' ++ rest') (hrun : ∀ c ∈ run, p c = true)
    (hrun' : ∀ c ∈ run', p c = true) (hrest : Ends p rest) (hrest' : Ends p rest') :
    run = run' ∧ rest = rest' := by
  have hsame : run = run' := by
    rw [← takeWhile_append hrun hrest, h, takeWhile_append hrun' hrest']
  subst hsame
  exact ⟨rfl, List.append_cancel_left h⟩

end LeadingRuns

namespace DecimalNumerals

def IsDigit (c : UInt8) : Prop := 48 ≤ c ∧ c ≤ 57

instance : DecidablePred IsDigit := fun c => inferInstanceAs (Decidable (48 ≤ c ∧ c ≤ 57))

/-- The number with a digit put behind it. -/
def push (n : Nat) (c : UInt8) : Nat := n * 10 + (c.toNat - 48)

/-- The number with more digits put behind it. -/
def valueFrom (n : Nat) (ds : List UInt8) : Nat := ds.foldl push n

@[simp] theorem valueFrom_nil (n : Nat) : valueFrom n [] = n := rfl

@[simp] theorem valueFrom_cons (n : Nat) (c : UInt8) (ds : List UInt8) :
    valueFrom n (c :: ds) = valueFrom (push n c) ds := by
  unfold valueFrom
  rw [List.foldl_cons]

def value (ds : List UInt8) : Nat := valueFrom 0 ds

/-- A text of digits only, and at least one. -/
structure IsNumeral (ds : List UInt8) : Prop where
  nonempty : ds ≠ []
  digits : ∀ c ∈ ds, IsDigit c

theorem IsNumeral.of_all {ds : List UInt8} (h : ds ≠ [])
    (hall : (ds.all fun c => decide (IsDigit c)) = true) : IsNumeral ds :=
  ⟨h, fun c hc => of_decide_eq_true (List.all_eq_true.mp hall c hc)⟩

instance (ds : List UInt8) : Decidable (IsNumeral ds) :=
  decidable_of_iff (ds ≠ [] ∧ ∀ c ∈ ds, IsDigit c)
    ⟨fun h => ⟨h.1, h.2⟩, fun h => ⟨h.nonempty, h.digits⟩⟩

def leadingDigits (s : List UInt8) : List UInt8 := s.takeWhile fun c => IsDigit c

/-- A text that does not begin with a digit. -/
def Stops (s : List UInt8) : Prop := ∀ c ∈ s.head?, ¬ IsDigit c

variable {s ds ds' rest rest' : List UInt8} {c : UInt8}

theorem stops_nil : Stops [] := nofun

theorem stops_cons (h : ¬ IsDigit c) : Stops (c :: s) := by
  rintro _ ⟨⟩
  exact h

theorem Stops.ends (h : Stops s) : LeadingRuns.Ends (fun c => decide (IsDigit c)) s :=
  fun c hc => decide_eq_false (h c hc)

@[simp] theorem leadingDigits_nil : leadingDigits [] = [] := rfl

theorem leadingDigits_cons (h : IsDigit c) : leadingDigits (c :: s) = c :: leadingDigits s :=
  List.takeWhile_cons_of_pos (decide_eq_true h)

theorem leadingDigits_of_stops (h : Stops s) : leadingDigits s = [] :=
  LeadingRuns.takeWhile_of_ends h.ends

theorem digits_leadingDigits (s : List UInt8) : ∀ c ∈ leadingDigits s, IsDigit c := by
  intro c hc
  have hdigit := List.mem_takeWhile_imp hc
  exact of_decide_eq_true hdigit

theorem length_leadingDigits_le (s : List UInt8) : (leadingDigits s).length ≤ s.length :=
  (List.takeWhile_prefix _).length_le

theorem leadingDigits_append_drop (s : List UInt8) :
    leadingDigits s ++ s.drop (leadingDigits s).length = s :=
  LeadingRuns.takeWhile_append_drop _ s

theorem leadingDigits_append (hdigits : ∀ c ∈ ds, IsDigit c) (hstops : Stops rest) :
    leadingDigits (ds ++ rest) = ds :=
  LeadingRuns.takeWhile_append (fun c hc => decide_eq_true (hdigits c hc)) hstops.ends

theorem split_unique (h : ds ++ rest = ds' ++ rest') (hdigits : ∀ c ∈ ds, IsDigit c)
    (hdigits' : ∀ c ∈ ds', IsDigit c) (hstops : Stops rest) (hstops' : Stops rest') :
    ds = ds' ∧ rest = rest' :=
  LeadingRuns.split_unique h (fun c hc => decide_eq_true (hdigits c hc))
    (fun c hc => decide_eq_true (hdigits' c hc)) hstops.ends hstops'.ends

theorem push_mod (m n : Nat) (c : UInt8) : push (n % m) c % m = push n c % m := by
  rw [push, push, Nat.add_mod, Nat.mod_mul_mod, ← Nat.add_mod]

theorem valueFrom_mod (m n : Nat) (ds : List UInt8) :
    valueFrom (n % m) ds % m = valueFrom n ds % m := by
  induction ds generalizing n with
  | nil => exact Nat.mod_mod n m
  | cons c ds ih =>
    calc valueFrom (push (n % m) c) ds % m
        = valueFrom (push (n % m) c % m) ds % m := (ih _).symm
      _ = valueFrom (push n c % m) ds % m := by rw [push_mod]
      _ = valueFrom (push n c) ds % m := ih _

end DecimalNumerals
