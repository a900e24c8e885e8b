import FactoryThing.Lib.DecimalNumerals
import FactoryThing.Variants.RangeParser

/-!
# The grammar of index ranges

An index range is a list of dimensions between commas. A dimension is a number, or two numbers with
a colon in between. The parser takes just these lists; it computes the numbers modulo `2^32`, and
compares what it has computed.
-/

namespace FactoryThing.Variants

open DecimalNumerals Stateful

/-- A dimension as it is written: the digits of a number, or of two. -/
inductive DimensionText where
  | single (a : List UInt8)
  | pair (a b : List UInt8)
  deriving DecidableEq

namespace DimensionText

def text : DimensionText → List UInt8
  | single a => a
  | pair a b => a ++ 58 :: b

def Spelled : DimensionText → Prop
  | single a => IsNumeral a
  | pair a b => IsNumeral a ∧ IsNumeral b

def bounds : DimensionText → Nat × Nat
  | single a => (value a, value a)
  | pair a b => (value a, value b)

/-- No number is too large, and two numbers ascend. -/
def InGrammar : DimensionText → Prop
  | single a => value a ≤ uint32Max
  | pair a b => value a < value b ∧ value b ≤ uint32Max

def parsed (d : DimensionText) : RangeDimension :=
  ⟨UInt32.ofNat d.bounds.1, UInt32.ofNat d.bounds.2⟩

/-- Two numbers ascend modulo `2^32`. -/
def Ascends : DimensionText → Prop
  | single _ => True
  | pair a b => UInt32.ofNat (value a) < UInt32.ofNat (value b)

instance (d : DimensionText) : Decidable d.InGrammar := by
  cases d <;> unfold InGrammar <;> infer_instance

instance (d : DimensionText) : Decidable d.Ascends := by
  cases d <;> unfold Ascends <;> infer_instance

end DimensionText

def rangeTail (ds : List DimensionText) : List UInt8 := ds.flatMap fun d => 44 :: d.text

def rangeText : List DimensionText → List UInt8
  | [] => []
  | d :: ds => d.text ++ rangeTail ds

structure Spells (s : List UInt8) (ds : List DimensionText) : Prop where
  nonempty : ds ≠ []
  spelled : ∀ d ∈ ds, d.Spelled
  text : rangeText ds = s

/-- The text is the list of dimensions, and all of them are in the grammar. -/
structure Denotes (s : List UInt8) (ds : List DimensionText) : Prop extends Spells s ds where
  inGrammar : ∀ d ∈ ds, d.InGrammar

theorem DimensionText.InGrammar.bounds_le {d : DimensionText} (h : d.InGrammar) :
    d.bounds.1 ≤ uint32Max ∧ d.bounds.2 ≤ uint32Max := by
  cases d with
  | single a => exact ⟨h, h⟩
  | pair a b => exact ⟨Nat.le_of_lt (Nat.lt_of_lt_of_le h.1 h.2), h.2⟩

theorem toNat_ofNat_of_le {n : Nat} (h : n ≤ uint32Max) : (UInt32.ofNat n).toNat = n :=
  UInt32.toNat_ofNat_of_lt' (Nat.lt_succ_of_le h)

theorem DimensionText.InGrammar.toNat_parsed {d : DimensionText} (h : d.InGrammar) :
    (d.parsed.min.toNat, d.parsed.max.toNat) = d.bounds :=
  Prod.ext (toNat_ofNat_of_le h.bounds_le.1) (toNat_ofNat_of_le h.bounds_le.2)

theorem DimensionText.InGrammar.ascends {d : DimensionText} (h : d.InGrammar) : d.Ascends := by
  cases d with
  | single a => exact trivial
  | pair a b =>
    have hle : value a ≤ uint32Max := h.bounds_le.1
    rw [Ascends, UInt32.lt_iff_toNat_lt, toNat_ofNat_of_le hle, toNat_ofNat_of_le h.2]
    exact h.1

theorem readNumber_eq (s : List UInt8) (n : UInt32) :
    readNumber s n =
      (UInt32.ofNat (valueFrom n.toNat (leadingDigits s)), (leadingDigits s).length) := by
  induction s generalizing n with
  | nil => rw [leadingDigits_nil, valueFrom_nil, UInt32.ofNat_toNat, readNumber, List.length_nil]
  | cons c s ih =>
    rw [readNumber]
    by_cases hdigit : IsDigit c
    · have hno : ¬ (c < 48 ∨ c > 57) := fun hout => hout.elim
        (fun hlt => absurd hdigit.1 (UInt8.not_le.mpr hlt))
        fun hgt => absurd hdigit.2 (UInt8.not_le.mpr hgt)
      have hten : (10 : UInt32).toNat = 10 := rfl
      have hsub : (c - 48).toNat = c.toNat - 48 := UInt8.toNat_sub_of_le c 48 hdigit.1
      have hstep : (n * 10 + (c - 48).toUInt32).toNat = push n.toNat c % 2 ^ 32 := by
        rw [UInt32.toNat_add, UInt32.toNat_mul, UInt8.toNat_toUInt32, hsub, hten,
          Nat.mod_add_mod, push]
      rw [if_neg hno, ih, hstep, leadingDigits_cons hdigit, valueFrom_cons, List.length_cons]
      rw [Prod.mk.injEq]
      refine ⟨UInt32.toNat_inj.mp ?_, rfl⟩
      rw [UInt32.toNat_ofNat', UInt32.toNat_ofNat', valueFrom_mod]
    · have hout : c < 48 ∨ c > 57 := by
        by_contra hno
        rw [not_or, UInt8.not_lt, UInt8.not_lt] at hno
        exact hdigit hno
      have hnil : leadingDigits (c :: s) = [] := leadingDigits_of_stops (stops_cons hdigit)
      rw [if_pos hout, hnil, valueFrom_nil, UInt32.ofNat_toNat, List.length_nil]

/-- What follows a dimension that is taken: nothing, or a comma. -/
def Delimited (rest : List UInt8) : Prop := ∀ c ∈ rest.head?, c = 44

variable {rest rest' s : List UInt8} {d d' : DimensionText} {ds ds' : List DimensionText}

theorem delimited_rangeTail (ds : List DimensionText) : Delimited (rangeTail ds) := by
  cases ds with
  | nil => exact nofun
  | cons d ds =>
    rintro _ ⟨⟩
    rfl

theorem rangeTail_cons (d : DimensionText) (ds : List DimensionText) :
    rangeTail (d :: ds) = 44 :: rangeText (d :: ds) := rfl

theorem Delimited.stops (h : Delimited rest) : Stops rest := by
  intro c hc hdigit
  rw [h c hc] at hdigit
  exact absurd hdigit (by decide)

theorem stops_colon (t : List UInt8) : Stops (58 :: t) := stops_cons (by decide)

theorem readNumber_append {a : List UInt8} (hnumeral : IsNumeral a) (hstops : Stops rest) :
    readNumber (a ++ rest) 0 = (UInt32.ofNat (value a), a.length) := by
  rw [readNumber_eq, leadingDigits_append hnumeral.digits hstops]
  rfl

theorem readDimension_append (hspelled : d.Spelled) (hrest : Delimited rest) :
    readDimension (d.text ++ rest) =
      if d.Ascends then some (d.parsed, d.text.length) else none := by
  cases d with
  | single a =>
    have hpos : a.length ≠ 0 := fun hzero =>
      hspelled.nonempty (List.length_eq_zero_iff.mp hzero)
    have hnext : (a ++ rest)[a.length]? ≠ some 58 := by
      rw [List.getElem?_append_right (Nat.le_refl _), Nat.sub_self, ← List.head?_eq_getElem?]
      intro hcolon
      exact absurd (hrest 58 hcolon) (by decide)
    unfold readDimension
    rw [DimensionText.text, readNumber_append hspelled hrest.stops]
    dsimp only
    rw [if_neg hpos, if_pos (Or.inr hnext)]
    exact (if_pos trivial).symm
  | pair a b =>
    obtain ⟨ha, hb⟩ := hspelled
    have hpos : ∀ {x : List UInt8}, IsNumeral x → x.length ≠ 0 := fun hx hzero =>
      hx.nonempty (List.length_eq_zero_iff.mp hzero)
    have htext : (DimensionText.pair a b).text ++ rest = a ++ 58 :: (b ++ rest) := by
      rw [DimensionText.text, List.append_assoc, List.cons_append]
    have hlength : (DimensionText.pair a b).text.length = a.length + 1 + b.length := by
      rw [DimensionText.text, List.length_append, List.length_cons]
      omega
    have hcolon : ¬ ((a ++ 58 :: (b ++ rest)).length ≤ a.length + 1 ∨
        (a ++ 58 :: (b ++ rest))[a.length]? ≠ some 58) := by
      have hbpos := hpos hb
      rw [not_or, not_not, List.getElem?_append_right (Nat.le_refl _), Nat.sub_self,
        List.length_append, List.length_cons, List.length_append]
      exact ⟨by omega, rfl⟩
    have hdrop : (a ++ 58 :: (b ++ rest)).drop (a.length + 1) = b ++ rest := by
      rw [← List.drop_drop, List.drop_left]
      rfl
    unfold readDimension
    rw [htext, readNumber_append ha (stops_colon _)]
    dsimp only
    rw [if_neg (hpos ha), if_neg hcolon, hdrop, readNumber_append hb hrest.stops]
    rw [if_neg (hpos hb), hlength]
    by_cases hascends : (DimensionText.pair a b).Ascends
    · rw [if_neg (UInt32.not_le.mpr hascends), if_pos hascends]
      rfl
    · rw [if_pos (UInt32.not_lt.mp hascends), if_neg hascends]

theorem exists_dimension {dim : RangeDimension} {progress : Nat}
    (h : readDimension s = some (dim, progress)) (hrest : Delimited (s.drop progress)) :
    ∃ d : DimensionText, d.Spelled ∧ s = d.text ++ s.drop progress := by
  have hdigits := digits_leadingDigits s
  unfold readDimension at h
  rw [readNumber_eq] at h
  dsimp only at h
  split at h
  · cases h
  rename_i hpos
  have ha : IsNumeral (leadingDigits s) :=
    ⟨fun hnil => hpos (congrArg List.length hnil), hdigits⟩
  split at h
  · cases h
    exact ⟨.single (leadingDigits s), ha, (leadingDigits_append_drop s).symm⟩
  rename_i hcolon
  rw [not_or, not_not] at hcolon
  rw [readNumber_eq] at h
  split at h
  · cases h
  rename_i hpos'
  split at h
  · cases h
  cases h
  have hb : IsNumeral (leadingDigits (s.drop ((leadingDigits s).length + 1))) :=
    ⟨fun hnil => hpos' (congrArg List.length hnil), digits_leadingDigits _⟩
  refine ⟨.pair _ _, ⟨ha, hb⟩, ?_⟩
  obtain ⟨hlt, hget⟩ := List.getElem?_eq_some_iff.mp hcolon.2
  have hsplit : s.drop (leadingDigits s).length =
      58 :: s.drop ((leadingDigits s).length + 1) := by
    rw [List.drop_eq_getElem_cons hlt, hget]
  have hback : s.drop ((leadingDigits s).length + 1 +
      (leadingDigits (s.drop ((leadingDigits s).length + 1))).length) =
        (s.drop ((leadingDigits s).length + 1)).drop
          (leadingDigits (s.drop ((leadingDigits s).length + 1))).length := List.drop_drop.symm
  rw [hback, DimensionText.text, List.append_assoc, List.cons_append, leadingDigits_append_drop,
    ← hsplit, leadingDigits_append_drop]

theorem dimension_unique (h : d.text ++ rest = d'.text ++ rest') (hspelled : d.Spelled)
    (hspelled' : d'.Spelled) (hrest : Delimited rest) (hrest' : Delimited rest') :
    d = d' ∧ rest = rest' := by
  have hno : ∀ {t u : List UInt8}, Delimited t → t ≠ 58 :: u := by
    rintro _ u ht rfl
    exact absurd (ht 58 rfl) (by decide)
  cases d with
  | single a =>
    cases d' with
    | single a' =>
      obtain ⟨rfl, hrests⟩ := split_unique h hspelled.digits hspelled'.digits hrest.stops
        hrest'.stops
      exact ⟨rfl, hrests⟩
    | pair a' b' =>
      rw [DimensionText.text, DimensionText.text, List.append_assoc, List.cons_append] at h
      obtain ⟨-, hcolon⟩ := split_unique h hspelled.digits hspelled'.1.digits hrest.stops
        (stops_colon _)
      exact absurd hcolon (hno hrest)
  | pair a b =>
    cases d' with
    | single a' =>
      rw [DimensionText.text, DimensionText.text, List.append_assoc, List.cons_append] at h
      obtain ⟨-, hcolon⟩ := split_unique h hspelled.1.digits hspelled'.digits (stops_colon _)
        hrest'.stops
      exact absurd hcolon.symm (hno hrest')
    | pair a' b' =>
      rw [DimensionText.text, DimensionText.text, List.append_assoc, List.cons_append,
        List.append_assoc, List.cons_append] at h
      obtain ⟨rfl, hcolon⟩ := split_unique h hspelled.1.digits hspelled'.1.digits (stops_colon _)
        (stops_colon _)
      obtain ⟨rfl, hrests⟩ := split_unique (List.cons.inj hcolon).2 hspelled.2.digits
        hspelled'.2.digits hrest.stops hrest'.stops
      exact ⟨rfl, hrests⟩

theorem rangeTail_unique (h : rangeTail ds = rangeTail ds') (hspelled : ∀ d ∈ ds, d.Spelled)
    (hspelled' : ∀ d ∈ ds', d.Spelled) : ds = ds' := by
  induction ds generalizing ds' with
  | nil =>
    cases ds' with
    | nil => rfl
    | cons d' ds' => cases h
  | cons d ds ih =>
    cases ds' with
    | nil => cases h
    | cons d' ds' =>
      obtain ⟨hd, hds⟩ := List.forall_mem_cons.mp hspelled
      obtain ⟨hd', hds'⟩ := List.forall_mem_cons.mp hspelled'
      obtain ⟨rfl, htails⟩ := dimension_unique (List.cons.inj h).2 hd hd' (delimited_rangeTail ds)
        (delimited_rangeTail ds')
      rw [ih htails hds hds']

theorem Spells.unique (h : Spells s ds) (h' : Spells s ds') : ds = ds' := by
  obtain ⟨d, ds, rfl⟩ := List.exists_cons_of_ne_nil h.nonempty
  obtain ⟨d', ds', rfl⟩ := List.exists_cons_of_ne_nil h'.nonempty
  refine rangeTail_unique ?_ h.spelled h'.spelled
  rw [rangeTail_cons, rangeTail_cons, h.text, h'.text]

end FactoryThing.Variants
