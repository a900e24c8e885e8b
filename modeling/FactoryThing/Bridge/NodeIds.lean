import FactoryThing.Lib.DelimitedText
import FactoryThing.Lib.FormattedText
import FactoryThing.Types.NodeId

/-!
# NodeIds of the configuration

`getUA_NodeID` (`mqtt/client-nodeid.cpp`), with each access to an element of a vector. The text is
split at each ';', and each part at each '='. The loop over the elements of a part is bounded by the
number of the parts. What `atoi` gives for a number that is no `int` is not specified, and is a
parameter.
-/

namespace FactoryThing.Bridge

open FormattedText DelimitedText DecimalNumerals

def isSpace (c : UInt8) : Bool := c = 32 || (9 ≤ c && c ≤ 13)

def leadingInteger (s : Text) : Int :=
  let s := s.dropWhile isSpace
  if s.head? = some 45 then -(value (leadingDigits s.tail) : Int)
  else if s.head? = some 43 then value (leadingDigits s.tail)
  else value (leadingDigits s)

/-- `atoi`; `beyond` is what it gives for a number that is no `int`. -/
def atoi (beyond : Text → Int32) (s : Text) : Int32 :=
  let n := leadingInteger s
  if -2 ^ 31 ≤ n ∧ n < 2 ^ 31 then Int32.ofInt n else beyond s

/-- `UA_String_fromChars` (`src/ua_types.c:65-80`), with the memory at hand. -/
def stringFromChars (src : Text) : UaString := if src.length > 0 then .mem src else .sentinel

@[simp] theorem items_stringFromChars (src : Text) : (stringFromChars src).items = src := by
  cases src <;> rfl

/-- The loop over the elements of a part (`:56-72`), `n` more of them. Nothing comes of it if there
are not as many. -/
def scanElements (beyond : Text → Int32) : Nat → List Text → NodeId → Option NodeId
  | 0, _, ua => some ua
  | _ + 1, [], _ => none
  | n + 1, y :: rest, ua =>
      if y = ascii "ns" then
        match rest with
        | [] => none
        | v :: _ =>
            scanElements beyond n rest
              { ua with namespaceIndex := (atoi beyond v).toUInt32.toUInt16 }
      else if y = ascii "i" then
        match rest with
        | [] => none
        | v :: _ => some { ua with identifier := .numeric (atoi beyond v).toUInt32 }
      else if y = ascii "s" then
        match rest with
        | [] => none
        | v :: _ => some { ua with identifier := .string (stringFromChars v) }
      else scanElements beyond n rest ua

/-- The loop over the parts (`:53-73`). -/
def scanParts (beyond : Text → Int32) (size : Nat) : List Text → NodeId → Option NodeId
  | [], ua => some ua
  | x :: parts, ua => do
      let ua ← scanElements beyond size (split 61 x) ua
      scanParts beyond size parts ua

/-- `getUA_NodeID` (`:48-76`). -/
def getUA_NodeID (beyond : Text → Int32) (id : Text) (ua : NodeId) : Option NodeId :=
  scanParts beyond (split 59 id).length (split 59 id) ua

/-- `ns=N;`, or nothing. -/
def namespacePart : Option UInt16 → Text
  | none => []
  | some n => ascii "ns=" ++ decimal n.toNat ++ ascii ";"

/-- `[ns=N;]i=M`. -/
def numericText (ns : Option UInt16) (m : UInt32) : Text :=
  namespacePart ns ++ (ascii "i=" ++ decimal m.toNat)

/-- `[ns=N;]s=S`. -/
def stringText (ns : Option UInt16) (s : Text) : Text := namespacePart ns ++ (ascii "s=" ++ s)

/-- An element after which the rest of a part is not looked at. -/
def isIdentifierKey (y : Text) : Bool := y = ascii "i" || y = ascii "s"

/-- The elements of a part that are looked at, `n` at most, are there. -/
def ElementsInBounds (n : Nat) (elements : List Text) : Prop :=
  match (elements.take n).findIdx? isIdentifierKey with
  | some k => k + 1 < elements.length
  | none => n ≤ elements.length ∧
      ((elements.take n).getLast? = some (ascii "ns") → n < elements.length)

/-- Every part has enough elements for the number of the parts. -/
def InBounds (id : Text) : Prop :=
  ∀ x ∈ split 59 id, ElementsInBounds (split 59 id).length (split 61 x)

variable {beyond : Text → Int32} {ua ua' : NodeId} {n : Nat} {y v x s : Text}
  {rest elements parts : List Text}

theorem leadingInteger_of_isNumeral (h : IsNumeral s) : leadingInteger s = value s := by
  have hhead : ∀ c, s.head? = some c → isSpace c = false ∧ c ≠ 45 ∧ c ≠ 43 := by
    intro c hc
    have hdigit : IsDigit c := h.digits c (List.mem_of_mem_head? hc)
    have hne : ∀ {d : UInt8}, ¬ IsDigit d → c ≠ d := fun hd he => hd (he ▸ hdigit)
    have hle : ¬ c ≤ 13 :=
      UInt8.not_le.mpr (UInt8.lt_of_lt_of_le (show (13 : UInt8) < 48 by decide) hdigit.1)
    refine ⟨?_, hne (by decide), hne (by decide)⟩
    simp [isSpace, hne (show ¬ IsDigit 32 by decide), hle]
  have hspace : s.dropWhile isSpace = s := by
    cases s with
    | nil => rfl
    | cons c ds => exact List.dropWhile_cons_of_neg (Bool.eq_false_iff.mp (hhead c rfl).1)
  have hdigits : leadingDigits s = s :=
    List.takeWhile_eq_self_iff.mpr fun c hc => decide_eq_true (h.digits c hc)
  unfold leadingInteger
  rw [hspace, if_neg fun hc => (hhead _ hc).2.1 rfl, if_neg fun hc => (hhead _ hc).2.2 rfl, hdigits]

theorem atoi_decimal (beyond : Text → Int32) (m : Nat) : atoi beyond (decimal m) =
    if m < 2 ^ 31 then (UInt32.ofNat m).toInt32 else beyond (decimal m) := by
  obtain ⟨hnumeral, hvalue⟩ := decimal_spec m
  unfold atoi
  rw [leadingInteger_of_isNumeral hnumeral, hvalue]
  by_cases hm : m < 2 ^ 31
  · rw [if_pos hm, UInt32.toInt32_ofNat', ← Int32.ofInt_eq_ofNat]
    exact if_pos (by omega)
  · rw [if_neg hm]
    exact if_neg (by omega)

theorem atoi_namespaceIndex (beyond : Text → Int32) (ns : UInt16) :
    (atoi beyond (decimal ns.toNat)).toUInt32.toUInt16 = ns := by
  have hns : ns.toNat < 2 ^ 16 := ns.toNat_lt
  rw [atoi_decimal, if_pos (by omega), UInt32.toUInt32_toInt32, UInt32.toUInt16_ofNat',
    UInt16.ofNat_toNat]

theorem atoi_numeric_iff (beyond : Text → Int32) (m : UInt32) :
    (atoi beyond (decimal m.toNat)).toUInt32 = m ↔
      (m.toNat < 2 ^ 31 ∨ (beyond (decimal m.toNat)).toUInt32 = m) := by
  rw [atoi_decimal]
  by_cases hm : m.toNat < 2 ^ 31
  · rw [if_pos hm, UInt32.toUInt32_toInt32, UInt32.ofNat_toNat]
    exact iff_of_true rfl (Or.inl hm)
  · rw [if_neg hm]
    exact ⟨Or.inr, fun h => h.resolve_left hm⟩

theorem elementsInBounds_cons (hy : isIdentifierKey y = false)
    (hns : y = ascii "ns" → rest ≠ []) :
    ElementsInBounds (n + 1) (y :: rest) ↔ ElementsInBounds n rest := by
  unfold ElementsInBounds
  rw [List.take_succ_cons, List.findIdx?_cons, hy]
  cases hfind : (rest.take n).findIdx? isIdentifierKey with
  | some k => exact Nat.succ_lt_succ_iff
  | none =>
    refine and_congr Nat.succ_le_succ_iff ?_
    rw [List.length_cons, Nat.succ_lt_succ_iff]
    cases htake : rest.take n with
    | cons v vs => rw [List.getLast?_cons_cons]
    | nil =>
      -- Either no element is left to look at, or none is there.
      refine iff_of_true (fun hlast => ?_) nofun
      have hne : rest ≠ [] := hns (Option.some.inj hlast)
      obtain rfl | hnil := List.take_eq_nil_iff.mp htake
      · exact List.length_pos_iff.mpr hne
      · exact absurd hnil hne

theorem elementsInBounds_of_isIdentifierKey (hy : isIdentifierKey y = true) :
    ElementsInBounds (n + 1) (y :: rest) ↔ rest ≠ [] := by
  unfold ElementsInBounds
  rw [List.take_succ_cons, List.findIdx?_cons, hy]
  exact Nat.succ_lt_succ_iff.trans List.length_pos_iff

theorem scanElements_isSome_iff (beyond : Text → Int32) (n : Nat) (elements : List Text)
    (ua : NodeId) :
    (scanElements beyond n elements ua).isSome = true ↔ ElementsInBounds n elements := by
  induction n generalizing elements ua with
  | zero => exact iff_of_true rfl ⟨Nat.zero_le _, nofun⟩
  | succ n ih =>
    cases elements with
    | nil => exact iff_of_false nofun fun h => absurd h.1 (Nat.not_succ_le_zero n)
    | cons y rest =>
      unfold scanElements
      by_cases hns : y = ascii "ns"
      · subst hns
        cases rest with
        | nil =>
          refine iff_of_false nofun fun h => ?_
          unfold ElementsInBounds at h
          rw [List.take_succ_cons, List.take_nil] at h
          exact Nat.not_lt_zero n (Nat.lt_of_succ_lt_succ (h.2 rfl))
        | cons v vs =>
          rw [elementsInBounds_cons (by decide) fun _ => List.cons_ne_nil v vs]
          exact ih _ _
      · rw [if_neg hns]
        by_cases hi : y = ascii "i"
        · rw [if_pos hi, elementsInBounds_of_isIdentifierKey (by rw [hi]; decide)]
          cases rest <;> simp
        · rw [if_neg hi]
          by_cases hs : y = ascii "s"
          · rw [if_pos hs, elementsInBounds_of_isIdentifierKey (by rw [hs]; decide)]
            cases rest <;> simp
          · rw [if_neg hs, elementsInBounds_cons (by simp [isIdentifierKey, hi, hs])
              fun h => absurd h hns]
            exact ih _ _

theorem scanParts_isSome_iff (beyond : Text → Int32) (n : Nat) (parts : List Text) (ua : NodeId) :
    (scanParts beyond n parts ua).isSome = true ↔
      ∀ x ∈ parts, ElementsInBounds n (split 61 x) := by
  induction parts generalizing ua with
  | nil => exact iff_of_true rfl nofun
  | cons x parts ih =>
    rw [List.forall_mem_cons, ← scanElements_isSome_iff beyond n (split 61 x) ua]
    unfold scanParts
    cases scanElements beyond n (split 61 x) ua with
    | none => exact iff_of_false nofun fun h => absurd h.1 nofun
    | some ua' => exact (ih ua').trans (and_iff_right rfl).symm

def Plain (s : Text) : Prop := 59 ∉ s ∧ 61 ∉ s

/-- The string of a NodeId, if it has one, has no delimiter. -/
def PlainIdentifier (ua : NodeId) : Prop := ∀ s, ua.identifier = .string s → Plain s.items

theorem plain_split (hx : 59 ∉ x) (hv : v ∈ split 61 x) : Plain v :=
  ⟨fun hc => hx (mem_of_mem_split hv hc).1, not_mem_of_mem_split hv⟩

theorem plainIdentifier_string (h : Plain v) (index : UInt16) :
    PlainIdentifier ⟨index, .string (stringFromChars v)⟩ := by
  rintro _ ⟨⟩
  rwa [items_stringFromChars]

theorem scanElements_plain (hplain : ∀ v ∈ elements, Plain v) (hua : PlainIdentifier ua)
    (h : scanElements beyond n elements ua = some ua') : PlainIdentifier ua' := by
  induction n generalizing elements ua with
  | zero => exact Option.some.inj h ▸ hua
  | succ n ih =>
    cases elements with
    | nil => cases h
    | cons y rest =>
      have hrest : ∀ v ∈ rest, Plain v := (List.forall_mem_cons.mp hplain).2
      unfold scanElements at h
      split at h
      · cases rest with
        | nil => cases h
        | cons v vs =>
          have hindex : PlainIdentifier
              { ua with namespaceIndex := (atoi beyond v).toUInt32.toUInt16 } := hua
          exact ih hrest hindex h
      split at h
      · cases rest with
        | nil => cases h
        | cons v vs =>
          cases h
          exact nofun
      split at h
      · cases rest with
        | nil => cases h
        | cons v vs =>
          cases h
          exact plainIdentifier_string (hrest v List.mem_cons_self) _
      · exact ih hrest hua h

theorem scanElements_plain_of_string (hplain : ∀ v ∈ elements, Plain v)
    (hhead : elements.head? = some (ascii "s"))
    (h : scanElements beyond (n + 1) elements ua = some ua') : PlainIdentifier ua' := by
  cases elements with
  | nil => cases hhead
  | cons y rest =>
    cases hhead
    cases rest with
    | nil => cases h
    | cons v vs =>
      cases h
      exact plainIdentifier_string (hplain v (List.mem_cons_of_mem _ List.mem_cons_self)) _

theorem scanParts_plain (hparts : ∀ x ∈ parts, 59 ∉ x) (hua : PlainIdentifier ua)
    (h : scanParts beyond n parts ua = some ua') : PlainIdentifier ua' := by
  induction parts generalizing ua with
  | nil => exact Option.some.inj h ▸ hua
  | cons x parts ih =>
    obtain ⟨hx, hrest⟩ := List.forall_mem_cons.mp hparts
    obtain ⟨ua'', hfirst, hlast⟩ := Option.bind_eq_some_iff.mp h
    exact ih hrest (scanElements_plain (fun v => plain_split hx) hua hfirst) hlast

theorem scanParts_plain_of_string (hparts : ∀ x ∈ parts, 59 ∉ x) (hx : x ∈ parts)
    (hhead : (split 61 x).head? = some (ascii "s"))
    (h : scanParts beyond (n + 1) parts ua = some ua') : PlainIdentifier ua' := by
  induction parts generalizing ua with
  | nil => cases hx
  | cons first parts ih =>
    obtain ⟨hfirst, hrest⟩ := List.forall_mem_cons.mp hparts
    obtain ⟨ua'', hscan, hlast⟩ := Option.bind_eq_some_iff.mp h
    obtain rfl | hx := List.mem_cons.mp hx
    · exact scanParts_plain hrest
        (scanElements_plain_of_string (fun v => plain_split hfirst) hhead hscan) hlast
    · exact ih hrest hx hlast

theorem delim_not_mem_decimal (m : Nat) {c : UInt8} (hc : ¬ IsDigit c) : c ∉ decimal m :=
  fun hmem => hc ((decimal_spec m).1.digits c hmem)

theorem split_namespacePart (index : UInt16) (text : Text) :
    split 59 (namespacePart (some index) ++ text) =
      (ascii "ns=" ++ decimal index.toNat) :: split 59 text := by
  have hdelim : 59 ∉ ascii "ns=" ++ decimal index.toNat := fun h =>
    (List.mem_append.mp h).elim (by decide) (delim_not_mem_decimal _ (by decide))
  rw [← split_append_cons text hdelim]
  unfold namespacePart
  rw [List.append_assoc, List.append_assoc, List.append_assoc]
  rfl

theorem scanElements_of_ne (hns : y ≠ ascii "ns") (hi : y ≠ ascii "i") (hs : y ≠ ascii "s") :
    scanElements beyond (n + 1) (y :: rest) ua = scanElements beyond n rest ua := by
  exact (if_neg hns).trans ((if_neg hi).trans (if_neg hs))

theorem scanParts_singleton (beyond : Text → Int32) (n : Nat) (x : Text) (ua : NodeId) :
    scanParts beyond n [x] ua = scanElements beyond n (split 61 x) ua := by
  unfold scanParts
  cases scanElements beyond n (split 61 x) ua <;> rfl

theorem getUA_NodeID_of_single (beyond : Text → Int32) (ns : Option UInt16) (ua : NodeId)
    {text : Text} (hne : text ≠ []) (hdelim : 59 ∉ text) :
    ∃ n, getUA_NodeID beyond (namespacePart ns ++ text) ua =
      scanElements beyond (n + 1) (split 61 text)
        { ua with namespaceIndex := ns.getD ua.namespaceIndex } := by
  have hsplit : split 59 text = [text] := split_of_not_mem hne hdelim
  unfold getUA_NodeID
  cases ns with
  | none =>
    refine ⟨0, ?_⟩
    show scanParts beyond (split 59 text).length (split 59 text) ua = _
    rw [hsplit, scanParts_singleton]
    rfl
  | some index =>
    refine ⟨1, ?_⟩
    have hparts : split 59 (namespacePart (some index) ++ text) =
        [ascii "ns=" ++ decimal index.toNat, text] := by
      rw [split_namespacePart, hsplit]
    have helements : split 61 (ascii "ns=" ++ decimal index.toNat) =
        [ascii "ns", decimal index.toNat] := by
      rw [← split_of_not_mem (decimal_spec index.toNat).1.nonempty
        (delim_not_mem_decimal index.toNat (show ¬ IsDigit 61 by decide)),
        ← split_append_cons _ (show 61 ∉ ascii "ns" by decide)]
      rfl
    have hfirst : scanElements beyond 2 (split 61 (ascii "ns=" ++ decimal index.toNat)) ua =
        some { ua with namespaceIndex := index } := by
      have hkey : ∀ {key : Text}, (∃ c ∈ key, ¬ IsDigit c) → decimal index.toNat ≠ key := by
        rintro key ⟨c, hc, hdigit⟩ rfl
        exact delim_not_mem_decimal _ hdigit hc
      rw [helements]
      show scanElements beyond 1 [decimal index.toNat]
        { ua with namespaceIndex := (atoi beyond (decimal index.toNat)).toUInt32.toUInt16 } = _
      rw [scanElements_of_ne (hkey (by decide)) (hkey (by decide)) (hkey (by decide)),
        atoi_namespaceIndex]
      rfl
    rw [hparts]
    unfold scanParts
    rw [List.length_cons, List.length_singleton, hfirst]
    exact scanParts_singleton beyond 2 text _

theorem getD_eq_iff (ns : Option UInt16) (index : UInt16) :
    ns.getD index = ns.getD 0 ↔ (ns = none → index = 0) := by
  cases ns with
  | none => simp
  | some n => simp

theorem getUA_NodeID_numericText_iff (beyond : Text → Int32) (ua : NodeId) (ns : Option UInt16)
    (m : UInt32) :
    getUA_NodeID beyond (numericText ns m) ua = some ⟨ns.getD 0, .numeric m⟩ ↔
      (ns = none → ua.namespaceIndex = 0) ∧
        (m.toNat < 2 ^ 31 ∨ (beyond (decimal m.toNat)).toUInt32 = m) := by
  have hdigits : ∀ {c}, ¬ IsDigit c → c ∉ decimal m.toNat := delim_not_mem_decimal m.toNat
  have hdelim : 59 ∉ ascii "i=" ++ decimal m.toNat := fun h =>
    (List.mem_append.mp h).elim (by decide) (hdigits (by decide))
  have helements : split 61 (ascii "i=" ++ decimal m.toNat) = [ascii "i", decimal m.toNat] := by
    rw [← split_of_not_mem (decimal_spec m.toNat).1.nonempty
      (hdigits (show ¬ IsDigit 61 by decide)),
      ← split_append_cons _ (show 61 ∉ ascii "i" by decide)]
    rfl
  have hne : ascii "i=" ++ decimal m.toNat ≠ [] :=
    List.append_ne_nil_of_left_ne_nil (by decide) _
  obtain ⟨n, hget⟩ := getUA_NodeID_of_single beyond ns ua hne hdelim
  unfold numericText
  rw [hget, helements, ← getD_eq_iff, ← atoi_numeric_iff]
  show some (NodeId.mk _ (.numeric _)) = _ ↔ _
  rw [Option.some_inj, NodeId.mk.injEq, NodeIdentifier.numeric.injEq]

theorem exists_string_part (s : Text) :
    ∃ x ∈ split 59 (ascii "s=" ++ s), (split 61 x).head? = some (ascii "s") := by
  refine ⟨ascii "s=" ++ (split 59 s).headD [], ?_, ?_⟩
  · show _ ∈ split 59 (115 :: 61 :: s)
    rw [split_cons (by decide), split_cons (by decide)]
    exact List.mem_cons_self
  · have hsplit := split_append_cons ((split 59 s).headD []) (show 61 ∉ ascii "s" by decide)
    exact congrArg List.head? hsplit

theorem getUA_NodeID_stringText_plain {ns : Option UInt16}
    (h : getUA_NodeID beyond (stringText ns s) ua = some ua') : PlainIdentifier ua' := by
  have hpart : ∃ x ∈ split 59 (stringText ns s), (split 61 x).head? = some (ascii "s") := by
    cases ns with
    | none => exact exists_string_part s
    | some index =>
      obtain ⟨x, hx, hhead⟩ := exists_string_part s
      refine ⟨x, ?_, hhead⟩
      unfold stringText
      rw [split_namespacePart]
      exact List.mem_cons_of_mem _ hx
  obtain ⟨x, hx, hhead⟩ := hpart
  have hlength : (split 59 (stringText ns s)).length =
      (split 59 (stringText ns s)).length - 1 + 1 :=
    (Nat.sub_add_cancel (List.length_pos_of_mem hx)).symm
  unfold getUA_NodeID at h
  rw [hlength] at h
  exact scanParts_plain_of_string (fun _ => not_mem_of_mem_split) hx hhead h

theorem getUA_NodeID_stringText_iff (beyond : Text → Int32) (ua : NodeId) (ns : Option UInt16)
    (s : Text) :
    getUA_NodeID beyond (stringText ns s) ua = some ⟨ns.getD 0, .string (stringFromChars s)⟩ ↔
      (ns = none → ua.namespaceIndex = 0) ∧ s ≠ [] ∧ 61 ∉ s ∧ 59 ∉ s := by
  by_cases hplain : Plain s
  · have hdelim : 59 ∉ ascii "s=" ++ s := fun h =>
      (List.mem_append.mp h).elim (by decide) hplain.1
    have helements : split 61 (ascii "s=" ++ s) = ascii "s" :: split 61 s :=
      split_append_cons s (show 61 ∉ ascii "s" by decide)
    have hne : ascii "s=" ++ s ≠ [] := List.append_ne_nil_of_left_ne_nil (by decide) _
    obtain ⟨n, hget⟩ := getUA_NodeID_of_single beyond ns ua hne hdelim
    unfold stringText
    rw [hget, helements]
    by_cases hnil : s = []
    · subst hnil
      exact iff_of_false nofun fun h => h.2.1 rfl
    · rw [split_of_not_mem hnil hplain.2, ← getD_eq_iff]
      show some (NodeId.mk _ (.string _)) = _ ↔ _
      rw [Option.some_inj, NodeId.mk.injEq]
      exact and_congr_right' (iff_of_true rfl ⟨hnil, hplain.2, hplain.1⟩)
  · refine iff_of_false (fun h => ?_) fun h => hplain ⟨h.2.2.2, h.2.2.1⟩
    have hread := getUA_NodeID_stringText_plain h _ rfl
    rw [items_stringFromChars] at hread
    exact hplain hread

/-- The NodeIds that a text denotes are read, where the index of the namespace is there or has been
zero, the number is an `int` or has its bits kept by `atoi`, and the string is not empty and has no
delimiter. The elements that are looked at are there if the parts are long enough for their
number. -/
theorem getUA_NodeID_spec (beyond : Text → Int32) (ua : NodeId) :
    (∀ ns m, getUA_NodeID beyond (numericText ns m) ua = some ⟨ns.getD 0, .numeric m⟩ ↔
        (ns = none → ua.namespaceIndex = 0) ∧
          (m.toNat < 2 ^ 31 ∨ (beyond (decimal m.toNat)).toUInt32 = m)) ∧
      (∀ ns s, getUA_NodeID beyond (stringText ns s) ua =
          some ⟨ns.getD 0, .string (stringFromChars s)⟩ ↔
        (ns = none → ua.namespaceIndex = 0) ∧ s ≠ [] ∧ 61 ∉ s ∧ 59 ∉ s) ∧
      ∀ id, (getUA_NodeID beyond id ua).isSome = true ↔ InBounds id :=
  ⟨getUA_NodeID_numericText_iff beyond ua, getUA_NodeID_stringText_iff beyond ua,
    fun id => scanParts_isSome_iff beyond _ (split 59 id) ua⟩

/-- A string with an '=' is cut off there, and one with a ';' makes the loop leave the part in front
of it. -/
theorem getUA_NodeID_delimiters :
    getUA_NodeID (fun _ => 0) (stringText (some 2) (ascii "a=b")) ⟨0, .numeric 0⟩ ≠
        some ⟨2, .string (stringFromChars (ascii "a=b"))⟩ ∧
      (getUA_NodeID (fun _ => 0) (stringText (some 2) (ascii "a;b")) ⟨0, .numeric 0⟩).isSome =
        false := by
  decide +kernel

end FactoryThing.Bridge
