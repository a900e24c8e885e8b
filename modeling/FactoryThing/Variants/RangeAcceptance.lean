import FactoryThing.Variants.RangeBytes
import FactoryThing.Variants.Slices

/-!
# What the range parser accepts

The parser accepts a list of dimensions that ascend modulo `2^32`, as long as there is memory. So it
accepts its grammar just where no number that is too large wraps around to one that fits.
-/

namespace FactoryThing.Variants

open DecimalNumerals Stateful

variable {α : Type} {env : Elements α} {s rest : List UInt8} {d : DimensionText}
  {ds : List DimensionText}

/-- The requests for memory from the clock `n` on are granted as far as `dims` more dimensions take
them: the array has room for `room` dimensions, and for two more after each request. -/
def Granted (env : Elements α) (n room dims : Nat) : Prop :=
  ∀ i, 2 * i + room < dims → env.alloc (n + i) = true

theorem run_growDimensions_full {idx dimensionsMax : Nat} (hfull : dimensionsMax ≤ idx) (n : Nat) :
    (growDimensions env idx dimensionsMax).run n =
      .ok (if env.alloc n then some (dimensionsMax + 2) else none, n + 1) := by
  have hmalloc : (malloc env).run n = .ok (env.alloc n, n + 1) := rfl
  rw [growDimensions, if_pos hfull, run_bind_of_ok hmalloc]
  cases env.alloc n with
  | false | true => rfl

variable (env) in
theorem run_growDimensions {idx dimensionsMax : Nat} (hroom : idx ≤ dimensionsMax)
    (hroom' : dimensionsMax ≤ idx + 1) (n : Nat) :
    ((growDimensions env idx dimensionsMax).run n = .ok (none, n + 1) ∧
      ∀ k, ¬ Granted env n (dimensionsMax - idx) (k + 1)) ∨
    ∃ dimensionsMax' n', (growDimensions env idx dimensionsMax).run n =
      .ok (some dimensionsMax', n') ∧ idx + 1 ≤ dimensionsMax' ∧ dimensionsMax' ≤ idx + 1 + 1 ∧
      ∀ k, Granted env n (dimensionsMax - idx) (k + 1) ↔
        Granted env n' (dimensionsMax' - (idx + 1)) k := by
  by_cases hfull : idx ≥ dimensionsMax
  · cases halloc : env.alloc n with
    | false =>
      refine .inl ⟨?_, fun k hgranted => ?_⟩
      · rw [run_growDimensions_full hfull, halloc]
        rfl
      · have htrue := hgranted 0 (by omega)
        rw [Nat.add_zero, halloc] at htrue
        cases htrue
    | true =>
      refine .inr ⟨dimensionsMax + 2, n + 1, ?_, by omega, by omega, fun k => ⟨?_, ?_⟩⟩
      · rw [run_growDimensions_full hfull, halloc]
        rfl
      · intro hgranted i hi
        rw [Nat.add_assoc, Nat.add_comm 1 i]
        exact hgranted (i + 1) (by omega)
      · intro hgranted i hi
        cases i with
        | zero => exact halloc
        | succ i =>
          rw [Nat.add_comm i 1, ← Nat.add_assoc]
          exact hgranted i (by omega)
  · refine .inr ⟨dimensionsMax, n, ?_, by omega, by omega, fun k => ⟨?_, ?_⟩⟩
    · rw [growDimensions, if_neg hfull]
      rfl
    · intro hgranted i hi
      exact hgranted i (by omega)
    · intro hgranted i hi
      exact hgranted i (by omega)

theorem Spells.readDimension (h : Spells s (d :: ds)) :
    Variants.readDimension s =
        (if d.Ascends then some (d.parsed, d.text.length) else none) ∧
      s.drop d.text.length = rangeTail ds := by
  have htext : s = d.text ++ rangeTail ds := h.text.symm
  rw [htext]
  exact ⟨readDimension_append (h.spelled d List.mem_cons_self) (delimited_rangeTail ds),
    List.drop_left⟩

theorem exists_ascends {dim : RangeDimension} {progress : Nat}
    (h : readDimension s = some (dim, progress)) (hrest : Delimited (s.drop progress)) :
    ∃ d : DimensionText, d.Spelled ∧ d.Ascends ∧ dim = d.parsed ∧
      s = d.text ++ s.drop progress := by
  obtain ⟨d, hspelled, htext⟩ := exists_dimension h hrest
  have hread := readDimension_append hspelled hrest
  rw [← htext, h] at hread
  by_cases hascends : d.Ascends
  · rw [if_pos hascends] at hread
    cases hread
    exact ⟨d, hspelled, hascends, rfl, htext⟩
  · rw [if_neg hascends] at hread
    cases hread

theorem spells_single (hspelled : d.Spelled) : Spells d.text [d] where
  nonempty := List.cons_ne_nil _ _
  spelled := List.forall_mem_singleton.mpr hspelled
  text := List.append_nil _

theorem Spells.cons (h : Spells rest ds) (hspelled : d.Spelled) :
    Spells (d.text ++ 44 :: rest) (d :: ds) where
  nonempty := List.cons_ne_nil _ _
  spelled := List.forall_mem_cons.mpr ⟨hspelled, h.spelled⟩
  text := by
    obtain ⟨d', ds, rfl⟩ := List.exists_cons_of_ne_nil h.nonempty
    rw [rangeText, rangeTail_cons, h.text]

theorem Spells.of_cons (h : Spells (d.text ++ 44 :: rest) ds) (hspelled : d.Spelled) :
    ∃ ds', ds = d :: ds' ∧ Spells rest ds' := by
  obtain ⟨d', ds, rfl⟩ := List.exists_cons_of_ne_nil h.nonempty
  obtain ⟨hspelled', hds⟩ := List.forall_mem_cons.mp h.spelled
  have hcomma : Delimited (44 :: rest) := by
    rintro _ ⟨⟩
    rfl
  obtain ⟨rfl, htail⟩ := dimension_unique h.text hspelled' hspelled (delimited_rangeTail ds) hcomma
  cases ds with
  | nil => cases htail
  | cons d'' ds => exact ⟨_, rfl, List.cons_ne_nil _ _, hds, (List.cons.inj htail).2⟩

/-- The text is a list of dimensions that ascend modulo `2^32`, and there is memory for them. -/
structure Accepted (env : Elements α) (n room : Nat) (s : List UInt8) (ds : List DimensionText) :
    Prop extends Spells s ds where
  ascends : ∀ d ∈ ds, d.Ascends
  granted : Granted env n room ds.length

theorem Accepted.readDimension {n room : Nat} (h : Accepted env n room s (d :: ds)) :
    Variants.readDimension s = some (d.parsed, d.text.length) ∧
      s.drop d.text.length = rangeTail ds := by
  obtain ⟨hread, hdrop⟩ := h.toSpells.readDimension
  rw [if_pos (h.ascends d List.mem_cons_self)] at hread
  exact ⟨hread, hdrop⟩

variable (env) in
theorem run_parseDimensions {fuel idx dimensionsMax : Nat} (hfuel : s.length < fuel)
    (hroom : idx ≤ dimensionsMax) (hroom' : dimensionsMax ≤ idx + 1) (n : Nat) :
    ∃ r n', (parseDimensions env fuel idx dimensionsMax s).run n = .ok (r, n') ∧
      ∀ dims, r = .ok dims ↔
        ∃ ds, Accepted env n (dimensionsMax - idx) s ds ∧ dims = ds.map DimensionText.parsed := by
  induction fuel generalizing idx dimensionsMax s n with
  | zero => exact absurd hfuel (Nat.not_lt_zero _)
  | succ fuel ih =>
    rw [parseDimensions]
    obtain ⟨hgrow, hrefused⟩ | ⟨dimensionsMax', n', hgrow, hle, hle', hgranted⟩ :=
      run_growDimensions env hroom hroom' n
    · refine ⟨_, _, run_bind_of_ok hgrow, fun dims => ⟨nofun, ?_⟩⟩
      rintro ⟨ds, haccepted, -⟩
      obtain ⟨d, ds, rfl⟩ := List.exists_cons_of_ne_nil haccepted.nonempty
      exact absurd haccepted.granted (hrefused _)
    rw [run_bind_of_ok hgrow]
    cases hdim : Variants.readDimension s with
    | none =>
      refine ⟨_, _, rfl, fun dims => ⟨nofun, ?_⟩⟩
      rintro ⟨ds, haccepted, -⟩
      obtain ⟨d, ds, rfl⟩ := List.exists_cons_of_ne_nil haccepted.nonempty
      rw [haccepted.readDimension.1] at hdim
      cases hdim
    | some taken =>
      obtain ⟨dim, progress⟩ := taken
      dsimp only
      -- the first dimension of an accepted text is the one that was read
      have hfirst : ∀ {d ds}, Accepted env n (dimensionsMax - idx) s (d :: ds) →
          s.drop progress = rangeTail ds := by
        intro d ds haccepted
        obtain ⟨hread, hdrop⟩ := haccepted.readDimension
        rw [hdim] at hread
        cases hread
        exact hdrop
      cases hdrop : s.drop progress with
      | nil =>
        obtain ⟨d, hspelled, hascends, rfl, htext⟩ :=
          exists_ascends hdim (by rw [hdrop]; exact nofun)
        rw [hdrop, List.append_nil] at htext
        have hspells : Spells s [d] := htext ▸ spells_single hspelled
        refine ⟨_, _, rfl, fun dims => ⟨?_, ?_⟩⟩
        · rintro ⟨⟩
          refine ⟨[d], ⟨hspells, List.forall_mem_singleton.mpr hascends, ?_⟩, rfl⟩
          exact (hgranted 0).mpr fun i hi => absurd hi (Nat.not_lt_zero _)
        · rintro ⟨ds, haccepted, rfl⟩
          rw [haccepted.toSpells.unique hspells]
          rfl
      | cons c rest =>
        dsimp only
        by_cases hcomma : c ≠ 44
        · rw [if_pos hcomma]
          refine ⟨_, _, rfl, fun dims => ⟨nofun, ?_⟩⟩
          rintro ⟨ds, haccepted, -⟩
          obtain ⟨d, ds, rfl⟩ := List.exists_cons_of_ne_nil haccepted.nonempty
          have htail := hdrop.symm.trans (hfirst haccepted)
          exact absurd (delimited_rangeTail ds c (htail ▸ rfl)) hcomma
        rw [if_neg hcomma]
        rw [not_not] at hcomma
        subst hcomma
        have hdelimited : Delimited (s.drop progress) := by
          rw [hdrop]
          rintro _ ⟨⟩
          rfl
        obtain ⟨d, hspelled, hascends, rfl, htext⟩ := exists_ascends hdim hdelimited
        rw [hdrop] at htext
        have hlength : rest.length < fuel := by
          have hcount := congrArg List.length htext
          rw [List.length_append, List.length_cons] at hcount
          omega
        obtain ⟨r, n'', hrun, hr⟩ := ih hlength hle hle' n'
        rw [run_bind_of_ok hrun]
        cases r with
        | error retval =>
          refine ⟨_, _, rfl, fun dims => ⟨nofun, ?_⟩⟩
          rintro ⟨ds, haccepted, -⟩
          obtain ⟨ds', rfl, hspells⟩ := (htext ▸ haccepted.toSpells).of_cons hspelled
          have herror := (hr (ds'.map DimensionText.parsed)).mpr
            ⟨ds', ⟨hspells, fun d hd => haccepted.ascends d (List.mem_cons_of_mem _ hd),
              (hgranted _).mp haccepted.granted⟩, rfl⟩
          cases herror
        | ok dims' =>
          refine ⟨_, _, rfl, fun dims => ⟨?_, ?_⟩⟩
          · rintro ⟨⟩
            obtain ⟨ds', haccepted, rfl⟩ := (hr dims').mp rfl
            exact ⟨d :: ds', ⟨htext ▸ haccepted.toSpells.cons hspelled,
              List.forall_mem_cons.mpr ⟨hascends, haccepted.ascends⟩,
              (hgranted _).mpr haccepted.granted⟩, rfl⟩
          · rintro ⟨ds, haccepted, rfl⟩
            obtain ⟨ds', rfl, hspells⟩ := (htext ▸ haccepted.toSpells).of_cons hspelled
            have hdims := (hr (ds'.map DimensionText.parsed)).mpr
              ⟨ds', ⟨hspells, fun d hd => haccepted.ascends d (List.mem_cons_of_mem _ hd),
                (hgranted _).mp haccepted.granted⟩, rfl⟩
            cases hdims
            rfl

def numbers (dim : RangeDimension) : Nat × Nat := (dim.min.toNat, dim.max.toNat)

/-- The parser accepts exactly its grammar: it returns, and has read no byte outside of the string;
the status is good just for a text in the grammar, and then the dimensions are those denoted. -/
def ParsesExactly (env : Elements α) (n : Nat) (str : UaString) : Prop :=
  ∃ r n', (numericRangeParseAt env str).run n = .ok (r, n') ∧
    (∀ retval, r = .error retval → retval ≠ StatusCode.good) ∧
    ((∃ dims, r = .ok dims) ↔ ∃ ds, Denotes str.items ds) ∧
    ∀ dims, r = .ok dims →
      ∃ ds, Denotes str.items ds ∧ dims.map numbers = ds.map DimensionText.bounds

theorem not_spells_nil : ¬ Spells [] ds := by
  intro h
  obtain ⟨d, ds, rfl⟩ := List.exists_cons_of_ne_nil h.nonempty
  have hspelled := h.spelled d List.mem_cons_self
  have htext : d.text = [] := (List.append_eq_nil_iff.mp h.text).1
  cases d with
  | single a => exact hspelled.nonempty htext
  | pair a b => exact hspelled.1.nonempty (List.append_eq_nil_iff.mp htext).1

theorem run_null (n : Nat) :
    (numericRangeParseAt env .null).run n =
      if env.alloc n then .error RangeFault.nullDeref
      else .ok (.error StatusCode.badOutOfMemory, n + 1) := by
  cases halloc : env.alloc n with
  | false =>
    have hgrow : (growDimensions env 0 0).run n = .ok (none, n + 1) := by
      rw [run_growDimensions_full (Nat.le_refl 0), halloc]
      rfl
    exact run_bind_of_ok hgrow
  | true =>
    have hgrow : (growDimensions env 0 0).run n = .ok (some 2, n + 1) := by
      rw [run_growDimensions_full (Nat.le_refl 0), halloc]
      rfl
    exact run_bind_of_ok hgrow

variable (env) in
theorem run_numericRangeParseAt {str : UaString} (hnull : str ≠ .null) (n : Nat) :
    ∃ r n', (numericRangeParseAt env str).run n = .ok (r, n') ∧
      (∀ retval, r = .error retval → retval ≠ StatusCode.good) ∧
      ∀ dims, r = .ok dims ↔
        ∃ ds, Accepted env n 0 str.items ds ∧ dims = ds.map DimensionText.parsed := by
  obtain ⟨r, n', hrun, hr⟩ := run_parseDimensions env (Nat.lt_succ_self str.items.length)
    (Nat.le_refl 0) (Nat.zero_le _) n
  obtain ⟨r', n'', hrun', hbad⟩ := gives_numericRangeParse str n
  have hsame := hrun.symm.trans hrun'
  cases hsame
  exact ⟨r, n', (numericRangeParseAt_eq hnull).symm ▸ hrun, hbad, hr⟩

/-- The parser accepts exactly its grammar if and only if the numbers of each list that ascends as
it is parsed are in the grammar as they are denoted, and there is memory for these lists alone. -/
theorem parsesExactly_iff (env : Elements α) (n : Nat) (str : UaString) :
    ParsesExactly env n str ↔
      (str = .null → env.alloc n = false) ∧
        ∀ ds, Spells str.items ds → (∀ d ∈ ds, d.Ascends) →
          ((∀ d ∈ ds, d.InGrammar) ↔ Granted env n 0 ds.length) := by
  by_cases hnull : str = .null
  · subst hnull
    rw [ParsesExactly, run_null]
    constructor
    · rintro ⟨r, n', hrun, -⟩
      refine ⟨fun _ => ?_, fun ds hspells => absurd hspells not_spells_nil⟩
      cases halloc : env.alloc n with
      | false => rfl
      | true =>
        rw [if_pos halloc] at hrun
        cases hrun
    · rintro ⟨halloc, -⟩
      rw [if_neg (Bool.eq_false_iff.mp (halloc rfl))]
      refine ⟨_, _, rfl, ?_, ⟨nofun, ?_⟩, nofun⟩
      · rintro _ ⟨⟩
        decide
      · rintro ⟨ds, hdenotes⟩
        exact absurd hdenotes.toSpells not_spells_nil
  obtain ⟨r, n', hrun, hbad, hr⟩ := run_numericRangeParseAt env hnull n
  constructor
  · rintro ⟨r', n'', hrun', -, hiff, -⟩
    have hsame := hrun.symm.trans hrun'
    cases hsame
    refine ⟨fun heq => absurd heq hnull, fun ds hspells hascends => ⟨fun hgrammar => ?_, ?_⟩⟩
    · obtain ⟨dims, rfl⟩ := hiff.mpr ⟨ds, hspells, hgrammar⟩
      obtain ⟨ds', haccepted, -⟩ := (hr dims).mp rfl
      exact haccepted.toSpells.unique hspells ▸ haccepted.granted
    · intro hgranted
      obtain ⟨ds', hdenotes⟩ := hiff.mp
        ⟨_, (hr (ds.map DimensionText.parsed)).mpr ⟨ds, ⟨hspells, hascends, hgranted⟩, rfl⟩⟩
      exact hdenotes.toSpells.unique hspells ▸ hdenotes.inGrammar
  · rintro ⟨-, hexact⟩
    have hdenoted : ∀ dims, r = .ok dims →
        ∃ ds, Denotes str.items ds ∧ dims.map numbers = ds.map DimensionText.bounds := by
      intro dims hdims
      obtain ⟨ds, haccepted, rfl⟩ := (hr dims).mp hdims
      have hgrammar := (hexact ds haccepted.toSpells haccepted.ascends).mpr haccepted.granted
      refine ⟨ds, ⟨haccepted.toSpells, hgrammar⟩, ?_⟩
      rw [List.map_map]
      exact List.map_congr_left fun d hd => (hgrammar d hd).toNat_parsed
    refine ⟨r, n', hrun, hbad, ⟨?_, ?_⟩, hdenoted⟩
    · rintro ⟨dims, hdims⟩
      obtain ⟨ds, hdenotes, -⟩ := hdenoted dims hdims
      exact ⟨ds, hdenotes⟩
    · rintro ⟨ds, hdenotes⟩
      have hascends : ∀ d ∈ ds, d.Ascends := fun d hd => (hdenotes.inGrammar d hd).ascends
      have hgranted := (hexact ds hdenotes.toSpells hascends).mp hdenotes.inGrammar
      exact ⟨_, (hr (ds.map DimensionText.parsed)).mpr
        ⟨ds, ⟨hdenotes.toSpells, hascends, hgranted⟩, rfl⟩⟩

/-- `4294967296`. -/
def largeIndex : List UInt8 := [52, 50, 57, 52, 57, 54, 55, 50, 57, 54]

theorem spells_largeIndex : Spells largeIndex [.single largeIndex] :=
  spells_single (d := .single largeIndex) (.of_all nofun rfl)

/-- The index `2^32` is taken for 0. -/
theorem largeIndex_wraps : ¬ ParsesExactly numberElements 0 (.mem largeIndex) := by
  have hnull : (.mem largeIndex : UaString) ≠ .null := nofun
  obtain ⟨r, n', hrun, -, hr⟩ := run_numericRangeParseAt numberElements hnull 0
  rintro ⟨r', n'', hrun', -, hiff, -⟩
  have hsame := hrun.symm.trans hrun'
  cases hsame
  have hgood : r = .ok [⟨0, 0⟩] := (hr _).mpr
    ⟨[.single largeIndex], ⟨spells_largeIndex, by decide,
      fun _ _ => plentiful_numberElements.1 _⟩, by decide⟩
  obtain ⟨ds, hdenotes⟩ := hiff.mp ⟨_, hgood⟩
  have hsingle := hdenotes.toSpells.unique spells_largeIndex
  subst hsingle
  exact absurd (hdenotes.inGrammar _ (List.mem_singleton.mpr rfl)) (by decide)

end FactoryThing.Variants
