import FactoryThing.Variants.RangeBytes

/-!
# Endpoint URLs

`UA_parseEndpointUrl` (`src/ua_util.c:26-88`) with every byte it reads. What it returns are parts of
the string; the outputs that it does not set keep what they were.
-/

namespace FactoryThing.Discovery

open DecimalNumerals LeadingRuns Variants

/-- A part of the string: the offset of its first byte, and how many there are. -/
structure Slice where
  start : Nat
  length : Nat
  deriving DecidableEq

/-- What is set of `outHostname`, `outPort` and `outPath`. -/
structure UrlParts where
  hostname : Option Slice
  port : Option UInt16
  path : Option Slice
  deriving DecidableEq

/-- `strncmp` with a text that has no zero byte. -/
def startsWith (data : List UInt8) : List UInt8 → Nat → Except RangeFault Bool
  | [], _ => return true
  | p :: text, i => do
    if (← readByte data i) ≠ p then return false else startsWith data text (i + 1)

/-- A loop that goes on from `curr` until a byte stops it. -/
def scan (data : List UInt8) (goesOn : UInt8 → Bool) : Nat → Nat → Except RangeFault Nat
  | 0, curr => return curr
  | left + 1, curr => do
    if goesOn (← readByte data curr) then scan data goesOn left (curr + 1) else return curr

/-- `opc.tcp://` -/
def scheme : List UInt8 := [111, 112, 99, 46, 116, 99, 112, 58, 47, 47]

def inBrackets (c : UInt8) : Bool := c != 93

def inHost (c : UInt8) : Bool := c != 58 && c != 47

/-- Where the hostname ends (`:34-51`); `none` when its bracket is not closed. -/
def hostnameEnd (str : UaString) : Except RangeFault (Option Nat) := do
  -- '['
  if (← readByte str.items 10) = 91 then
    let curr ← scan str.items inBrackets (str.length - 10) 10
    if curr = str.length then return none else return some (curr + 1)
  else return some (← scan str.items inHost (str.length - 10) 10)

/-- The path (`:74-87`). The assertion is the bound of the read. -/
def parsePath (str : UaString) (curr : Nat) (parts : UrlParts) :
    Except RangeFault (StatusCode × UrlParts) := do
  if (← readByte str.items curr) ≠ 47 then return (StatusCode.badTcpEndpointUrlInvalid, parts)
  else if curr + 1 = str.length then return (StatusCode.good, parts)
  else
    let last ← readByte str.items (str.length - 1)
    let length := str.length - (curr + 1)
    let path := Slice.mk (curr + 1) (if last = 47 then length - 1 else length)
    return (StatusCode.good, { parts with path := some path })

/-- The port (`:59-72`), and what comes after it. -/
def parsePort (str : UaString) (curr : Nat) (parts : UrlParts) :
    Except RangeFault (StatusCode × UrlParts) := do
  -- ':'
  if (← readByte str.items curr) = 58 then
    if curr + 1 = str.length then return (StatusCode.badTcpEndpointUrlInvalid, parts)
    else
      let (largeNum, progress) ← readNumberAt str (curr + 1) (str.length - (curr + 1))
      if progress = 0 ∨ largeNum > 65535 then
        return (StatusCode.badTcpEndpointUrlInvalid, parts)
      else
        let withPort := { parts with port := some largeNum.toUInt16 }
        let curr := curr + 1 + progress
        if curr = str.length then return (StatusCode.good, withPort)
        else
          let c ← readByte str.items curr
          parsePath str curr (if c = 47 then withPort else parts)
  else parsePath str curr parts

/-- `UA_parseEndpointUrl` (`src/ua_util.c:27-88`). -/
def parseEndpointUrl (str : UaString) : Except RangeFault (StatusCode × UrlParts) := do
  let unset := UrlParts.mk none none none
  if str.length < 11 then return (StatusCode.badTcpEndpointUrlInvalid, unset)
  else if !(← startsWith str.items scheme 0) then
    return (StatusCode.badTcpEndpointUrlInvalid, unset)
  else
    match ← hostnameEnd str with
    | none => return (StatusCode.badTcpEndpointUrlInvalid, unset)
    | some curr =>
      let parts := { unset with hostname := some ⟨10, curr - 10⟩ }
      if curr = str.length then return (StatusCode.good, parts) else parsePort str curr parts

/-- A host: a text in brackets, or a run of other characters. A bracket in front is the first
kind. -/
inductive HostText where
  | bracketed (inner : List UInt8)
  | run (name : List UInt8)
  deriving DecidableEq

namespace HostText

def text : HostText → List UInt8
  | bracketed inner => 91 :: (inner ++ [93])
  | run name => name

/-- The brackets do not close before the end, and a run has neither ':' nor '/'. -/
def Spelled : HostText → Prop
  | bracketed inner => ∀ c ∈ inner, c ≠ 93
  | run name => (∀ c ∈ name, c ≠ 58 ∧ c ≠ 47) ∧ name.head? ≠ some 91

end HostText

/-- An endpoint URL: the digits of the port and the path are optional. -/
structure UrlText where
  host : HostText
  port : Option (List UInt8)
  path : Option (List UInt8)
  deriving DecidableEq

/-- A part that is optional, behind the character that announces it. -/
def announced (mark : UInt8) : Option (List UInt8) → List UInt8
  | none => []
  | some part => mark :: part

/-- The path without one slash at its end. -/
def withoutSlash (path : List UInt8) : List UInt8 :=
  if path.getLast? = some 47 then path.dropLast else path

namespace UrlText

def tail (url : UrlText) : List UInt8 := announced 58 url.port ++ announced 47 url.path

def text (url : UrlText) : List UInt8 := scheme ++ (url.host.text ++ url.tail)

/-- The parts are written as they should. -/
structure Spelled (url : UrlText) : Prop where
  host : url.host.Spelled
  port : ∀ digits ∈ url.port, IsNumeral digits

def hostSlice (url : UrlText) : Slice := ⟨scheme.length, url.host.text.length⟩

/-- Where the path is, without one slash at its end. An empty path is not set. -/
def pathSlice (url : UrlText) : Option Slice :=
  match url.path with
  | none => none
  | some path =>
    if path = [] then none
    else some ⟨(scheme ++ (url.host.text ++ announced 58 url.port)).length + 1,
      (withoutSlash path).length⟩

end UrlText

/-- The part is in the string, and these are its bytes. -/
def Slice.Cuts (slice : Slice) (items part : List UInt8) : Prop :=
  slice.start + slice.length ≤ items.length ∧
    (items.drop slice.start).take slice.length = part

variable {str : UaString} {items rest : List UInt8} {curr : Nat} {parts : UrlParts}

theorem ok_bind {ε α β : Type} (a : α) (f : α → Except ε β) : (Except.ok a >>= f) = f a := rfl

variable {c : UInt8} {path : Option (List UInt8)} {url : UrlText}

theorem readByte_of_drop (h : items.drop curr = c :: rest) : readByte items curr = .ok c := by
  have hget : items[curr]? = some c := by
    rw [← List.head?_drop, h, List.head?_cons]
  rw [readByte, hget]

theorem drop_succ_of_drop (h : items.drop curr = c :: rest) : items.drop (curr + 1) = rest := by
  rw [← List.drop_drop, h]
  rfl

theorem lt_of_drop (h : items.drop curr = c :: rest) : curr < items.length := by
  have hcount := congrArg List.length h
  rw [List.length_drop, List.length_cons] at hcount
  omega

theorem length_of_drop (h : items.drop curr = rest) (hle : curr ≤ items.length) :
    items.length = curr + rest.length := by
  rw [← h, List.length_drop]
  omega

theorem startsWith_eq {text : List UInt8} {i : Nat} (h : i + text.length ≤ items.length) :
    startsWith items text i = .ok (decide (text <+: items.drop i)) := by
  induction text generalizing i with
  | nil => exact congrArg Except.ok (decide_eq_true List.nil_prefix).symm
  | cons p text ih =>
    rw [List.length_cons] at h
    have hlt : i < items.length := by omega
    rw [startsWith, readByte_of_lt hlt, List.drop_eq_getElem_cons hlt]
    by_cases hp : items[i] = p
    · refine (if_neg (not_not.mpr hp)).trans ?_
      rw [ih (by omega)]
      refine congrArg Except.ok (decide_eq_decide.mpr ?_)
      rw [List.cons_prefix_cons]
      exact (and_iff_right hp.symm).symm
    · refine (if_pos hp).trans ?_
      refine congrArg Except.ok (decide_eq_false fun hprefix => ?_).symm
      exact hp (List.cons_prefix_cons.mp hprefix).1.symm

theorem scan_eq {goesOn : UInt8 → Bool} {left : Nat} (h : curr + left = items.length) :
    scan items goesOn left curr =
      .ok (curr + ((items.drop curr).takeWhile goesOn).length) := by
  induction left generalizing curr with
  | zero =>
    have hnil : items.drop curr = [] := List.drop_eq_nil_iff.mpr (by omega)
    rw [hnil]
    rfl
  | succ left ih =>
    have hlt : curr < items.length := by omega
    rw [scan, readByte_of_lt hlt, List.drop_eq_getElem_cons hlt]
    cases hgoes : goesOn items[curr] with
    | true =>
      refine (if_pos hgoes).trans ?_
      rw [ih (by omega), List.takeWhile_cons_of_pos hgoes, List.length_cons]
      refine congrArg Except.ok ?_
      omega
    | false =>
      refine (if_neg (Bool.eq_false_iff.mp hgoes)).trans ?_
      rw [List.takeWhile_cons_of_neg (Bool.eq_false_iff.mp hgoes)]
      rfl

def setPath (curr : Nat) (path : List UInt8) (parts : UrlParts) : UrlParts :=
  if path = [] then parts else { parts with path := some ⟨curr + 1, (withoutSlash path).length⟩ }

theorem length_withoutSlash (path : List UInt8) :
    (withoutSlash path).length =
      if path.getLast? = some 47 then path.length - 1 else path.length := by
  unfold withoutSlash
  split
  · exact List.length_dropLast
  · rfl

theorem parsePath_slash {path : List UInt8} (h : str.items.drop curr = 47 :: path) :
    parsePath str curr parts = .ok (StatusCode.good, setPath curr path parts) := by
  have hlength : str.length = curr + (path.length + 1) :=
    length_of_drop h (Nat.le_of_lt (lt_of_drop h))
  rw [parsePath, readByte_of_drop h, ok_bind, if_neg (not_not.mpr rfl)]
  by_cases hempty : path = []
  · rw [setPath, if_pos hempty]
    refine if_pos ?_
    rw [hlength, hempty, List.length_nil]
  · have hpos := List.length_pos_iff.mpr hempty
    have hlast : readByte str.items (str.length - 1) = .ok (path.getLast hempty) := by
      have hback : str.length - 1 = curr + 1 + (path.length - 1) := by omega
      have hdrop : str.items.drop (str.length - 1) = [path.getLast hempty] := by
        rw [hback, ← List.drop_drop, drop_succ_of_drop h, List.drop_length_sub_one hempty]
      exact readByte_of_drop hdrop
    refine (if_neg (by omega)).trans ?_
    rw [hlast, setPath, if_neg hempty, length_withoutSlash, List.getLast?_eq_some_getLast hempty]
    refine congrArg Except.ok ?_
    have hleft : str.length - (curr + 1) = path.length := by omega
    rw [hleft]
    by_cases hslash : path.getLast hempty = 47
    · rw [if_pos hslash, if_pos (congrArg some hslash)]
    · rw [if_neg hslash, if_neg fun heq => hslash (Option.some.inj heq)]

theorem parsePath_other (h : str.items.drop curr = c :: rest) (hc : c ≠ 47) :
    parsePath str curr parts = .ok (StatusCode.badTcpEndpointUrlInvalid, parts) := by
  rw [parsePath, readByte_of_drop h, ok_bind, if_pos hc]
  rfl

/-! ## After the host -/

/-- The end of the URL, with a port and a path. -/
def parseTail (str : UaString) (curr : Nat) (parts : UrlParts) :
    Except RangeFault (StatusCode × UrlParts) :=
  if curr = str.length then return (StatusCode.good, parts) else parsePort str curr parts

/-- The number of the port, as it is computed, fits. -/
def Fits (digits : List UInt8) : Prop := value digits % 2 ^ 32 ≤ 65535

instance (digits : List UInt8) : Decidable (Fits digits) :=
  inferInstanceAs (Decidable (_ ≤ _))

def parsedPort (digits : List UInt8) : UInt16 := (UInt32.ofNat (value digits)).toUInt16

/-- The digits are a port, and the path is what follows. -/
structure TailFits (rest : List UInt8) (port path : Option (List UInt8)) : Prop where
  numeral : ∀ digits ∈ port, IsNumeral digits
  fits : ∀ digits ∈ port, Fits digits
  text : announced 58 port ++ announced 47 path = rest

/-- The outputs for a port and a path that begin at an offset. -/
def tailParts (curr : Nat) (port path : Option (List UInt8)) (parts : UrlParts) : UrlParts :=
  let withPort :=
    match port with
    | none => parts
    | some digits => { parts with port := some (parsedPort digits) }
  match path with
  | none => withPort
  | some path => setPath (curr + (announced 58 port).length) path withPort

theorem stops_announced (path : Option (List UInt8)) : Stops (announced 47 path) := by
  cases path with
  | none => exact stops_nil
  | some path => exact stops_cons (by decide)

theorem fits_iff (digits : List UInt8) : ¬ UInt32.ofNat (value digits) > 65535 ↔ Fits digits := by
  rw [UInt32.not_lt, UInt32.le_iff_toNat_le, UInt32.toNat_ofNat']
  rfl

theorem readPort_eq {t : List UInt8} (h : str.items.drop curr = 58 :: t) :
    readNumberAt str (curr + 1) (str.length - (curr + 1)) =
      .ok (UInt32.ofNat (value (leadingDigits t)), (leadingDigits t).length) := by
  have hlt := lt_of_drop h
  have hnull : str ≠ .null := by
    rintro rfl
    exact Nat.not_lt_zero _ hlt
  have hle : curr + 1 ≤ str.length := hlt
  rw [readNumberAt_eq hnull (by omega), drop_succ_of_drop h, readNumber_eq]
  rfl

theorem parseTail_of_drop (h : str.items.drop curr = c :: rest) :
    parseTail str curr parts = parsePort str curr parts :=
  if_neg (Nat.ne_of_lt (lt_of_drop h))

theorem parsePort_other (h : str.items.drop curr = c :: rest) (hc : c ≠ 58) :
    parsePort str curr parts = parsePath str curr parts := by
  rw [parsePort, readByte_of_drop h, ok_bind, if_neg hc]

theorem parsePort_colon {t : List UInt8} (h : str.items.drop curr = 58 :: t) :
    parsePort str curr parts =
      if IsNumeral (leadingDigits t) ∧ Fits (leadingDigits t) then
        let withPort := { parts with port := some (parsedPort (leadingDigits t)) }
        match t.drop (leadingDigits t).length with
        | [] => .ok (StatusCode.good, withPort)
        | c :: _ =>
          parsePath str (curr + 1 + (leadingDigits t).length) (if c = 47 then withPort else parts)
      else .ok (StatusCode.badTcpEndpointUrlInvalid, parts) := by
  have hdigits := digits_leadingDigits t
  have hsucc := drop_succ_of_drop h
  have hlength : str.length = curr + (t.length + 1) :=
    length_of_drop h (Nat.le_of_lt (lt_of_drop h))
  rw [parsePort, readByte_of_drop h, ok_bind, if_pos rfl]
  by_cases hempty : t = []
  · have hno : ¬ (IsNumeral (leadingDigits t) ∧ Fits (leadingDigits t)) := by
      rintro ⟨hnumeral, -⟩
      rw [hempty] at hnumeral
      exact hnumeral.nonempty rfl
    rw [if_neg hno, if_pos (by rw [hlength, hempty, List.length_nil])]
    rfl
  have hpos := List.length_pos_iff.mpr hempty
  rw [if_neg (by omega), readPort_eq h, ok_bind]
  dsimp only
  by_cases hnumeral : IsNumeral (leadingDigits t) ∧ Fits (leadingDigits t)
  · have hfits : ¬ ((leadingDigits t).length = 0 ∨
        UInt32.ofNat (value (leadingDigits t)) > 65535) := by
      rw [not_or, fits_iff]
      exact ⟨fun hzero => hnumeral.1.nonempty (List.length_eq_zero_iff.mp hzero), hnumeral.2⟩
    have hafter : str.items.drop (curr + 1 + (leadingDigits t).length) =
        t.drop (leadingDigits t).length := by
      rw [← List.drop_drop, hsucc]
    rw [if_pos hnumeral, if_neg hfits]
    cases hrest : t.drop (leadingDigits t).length with
    | nil =>
      have hle : t.length ≤ (leadingDigits t).length := List.drop_eq_nil_iff.mp hrest
      have hle' := length_leadingDigits_le t
      rw [if_pos (by omega)]
      rfl
    | cons c rest =>
      have hlt : (leadingDigits t).length < t.length := lt_of_drop hrest
      rw [if_neg (by omega), readByte_of_drop (hafter.trans hrest), ok_bind]
      rfl
  · have hno : (leadingDigits t).length = 0 ∨ UInt32.ofNat (value (leadingDigits t)) > 65535 := by
      by_contra hneither
      rw [not_or, fits_iff] at hneither
      exact hnumeral ⟨⟨fun hnil => hneither.1 (congrArg List.length hnil), hdigits⟩, hneither.2⟩
    rw [if_neg hnumeral, if_pos hno]
    rfl

theorem parseTail_of_tailFits {port : Option (List UInt8)} (parts : UrlParts)
    (hle : curr ≤ str.length) (h : TailFits (str.items.drop curr) port path) :
    parseTail str curr parts = .ok (StatusCode.good, tailParts curr port path parts) := by
  have htext := h.text
  cases port with
  | none =>
    cases path with
    | none =>
      have hend : str.length ≤ curr := List.drop_eq_nil_iff.mp htext.symm
      exact if_pos (Nat.le_antisymm hle hend)
    | some path =>
      have hdrop : str.items.drop curr = 47 :: path := htext.symm
      rw [parseTail_of_drop hdrop, parsePort_other hdrop (by decide), parsePath_slash hdrop]
      rfl
  | some digits =>
    have hnumeral := h.numeral digits rfl
    have hdrop : str.items.drop curr = 58 :: (digits ++ announced 47 path) := htext.symm
    rw [parseTail_of_drop hdrop, parsePort_colon hdrop,
      leadingDigits_append hnumeral.digits (stops_announced path),
      if_pos ⟨hnumeral, h.fits digits rfl⟩, List.drop_left]
    cases path with
    | none => rfl
    | some path =>
      have hslash : str.items.drop (curr + 1 + digits.length) = 47 :: path := by
        rw [← List.drop_drop, drop_succ_of_drop hdrop, List.drop_left]
        rfl
      have hcurr : curr + (announced 58 (some digits)).length = curr + 1 + digits.length := by
        rw [announced, List.length_cons]
        omega
      rw [tailParts, hcurr]
      exact parsePath_slash hslash

theorem parsePath_cases (parts : UrlParts) (h : str.items.drop curr = c :: rest) :
    ∃ retval out, parsePath str curr parts = .ok (retval, out) ∧
      (retval = StatusCode.good → c = 47) := by
  by_cases hc : c = 47
  · subst hc
    exact ⟨_, _, parsePath_slash h, fun _ => rfl⟩
  · refine ⟨_, _, parsePath_other h hc, fun hgood => ?_⟩
    exact absurd hgood (by decide)

theorem exists_tailFits (parts : UrlParts) (hle : curr ≤ str.length) :
    ∃ retval out, parseTail str curr parts = .ok (retval, out) ∧
      (retval = StatusCode.good → ∃ port path, TailFits (str.items.drop curr) port path) := by
  cases hdrop : str.items.drop curr with
  | nil =>
    have hend : str.length ≤ curr := List.drop_eq_nil_iff.mp hdrop
    exact ⟨_, _, if_pos (Nat.le_antisymm hle hend), fun _ => ⟨none, none, nofun, nofun, rfl⟩⟩
  | cons c t =>
    rw [parseTail_of_drop hdrop]
    by_cases hcolon : c = 58
    · subst hcolon
      rw [parsePort_colon hdrop]
      by_cases hnumeral : IsNumeral (leadingDigits t) ∧ Fits (leadingDigits t)
      · rw [if_pos hnumeral]
        have hsplit := leadingDigits_append_drop t
        have htail : ∀ path, announced 47 path = t.drop (leadingDigits t).length →
            TailFits (58 :: t) (some (leadingDigits t)) path := by
          intro path hpath
          refine ⟨?_, ?_, ?_⟩
          · rintro _ ⟨⟩
            exact hnumeral.1
          · rintro _ ⟨⟩
            exact hnumeral.2
          · rw [hpath, announced, List.cons_append, hsplit]
        cases hrest : t.drop (leadingDigits t).length with
        | nil => exact ⟨_, _, rfl, fun _ => ⟨_, none, htail none hrest.symm⟩⟩
        | cons c rest =>
          have hafter : str.items.drop (curr + 1 + (leadingDigits t).length) = c :: rest := by
            rw [← List.drop_drop, drop_succ_of_drop hdrop, hrest]
          obtain ⟨retval, out, hpath, hgood⟩ := parsePath_cases
            (if c = 47 then { parts with port := some (parsedPort (leadingDigits t)) } else parts)
            hafter
          refine ⟨retval, out, hpath, fun heq => ⟨_, some rest, htail _ ?_⟩⟩
          rw [hrest, hgood heq]
          rfl
      · rw [if_neg hnumeral]
        refine ⟨_, _, rfl, fun hgood => ?_⟩
        exact absurd hgood (by decide)
    · rw [parsePort_other hdrop hcolon]
      obtain ⟨retval, out, hpath, hgood⟩ := parsePath_cases parts hdrop
      refine ⟨retval, out, hpath, fun heq => ⟨none, some t, nofun, nofun, ?_⟩⟩
      rw [hgood heq]
      rfl

variable {host host' : HostText}

theorem inBrackets_iff (c : UInt8) : inBrackets c = true ↔ c ≠ 93 := bne_iff_ne

theorem inHost_iff (c : UInt8) : inHost c = true ↔ c ≠ 58 ∧ c ≠ 47 := by
  rw [inHost, Bool.and_eq_true, bne_iff_ne, bne_iff_ne]

theorem ends_tail (url : UrlText) : Ends inHost url.tail := by
  unfold UrlText.tail
  cases url.port with
  | none =>
    cases url.path with
    | none => exact ends_nil
    | some path => exact ends_cons rfl
  | some digits => exact ends_cons rfl

theorem hostnameEnd_append (hspelled : host.Spelled) (hrest : Ends inHost rest)
    (hdrop : str.items.drop 10 = host.text ++ rest) (hle : 11 ≤ str.length) :
    hostnameEnd str = .ok (some (10 + host.text.length)) := by
  have hten : 10 + (str.length - 10) = str.items.length := by
    have hitems : str.items.length = str.length := rfl
    omega
  cases host with
  | bracketed inner =>
    have hbracket : str.items.drop 10 = 91 :: (inner ++ 93 :: rest) := by
      rw [hdrop, HostText.text, List.cons_append, List.append_assoc]
      rfl
    have hrun : (91 :: (inner ++ 93 :: rest)).takeWhile inBrackets = 91 :: inner := by
      rw [← List.cons_append]
      refine takeWhile_append ?_ (ends_cons rfl)
      exact List.forall_mem_cons.mpr ⟨rfl, fun c hc => (inBrackets_iff c).mpr (hspelled c hc)⟩
    have hlength : str.length = 10 + (inner.length + (rest.length + 1) + 1) := by
      have hcount := length_of_drop hbracket (Nat.le_of_lt (lt_of_drop hbracket))
      rw [List.length_cons, List.length_append, List.length_cons] at hcount
      exact hcount
    rw [hostnameEnd, readByte_of_drop hbracket, ok_bind, if_pos rfl, scan_eq hten, ok_bind,
      hbracket, hrun, List.length_cons, if_neg (by omega), HostText.text, List.length_cons,
      List.length_append, List.length_singleton]
    rfl
  | run name =>
    have hrun : (name ++ rest).takeWhile inHost = name :=
      takeWhile_append (fun c hc => (inHost_iff c).mpr (hspelled.1 c hc)) hrest
    have hfirst : ∃ c t, str.items.drop 10 = c :: t := by
      cases hitems : str.items.drop 10 with
      | nil =>
        have hshort : str.length ≤ 10 := List.drop_eq_nil_iff.mp hitems
        omega
      | cons c t => exact ⟨c, t, rfl⟩
    obtain ⟨c, t, hcons⟩ := hfirst
    have hc : c ≠ 91 := by
      rintro rfl
      have hhead : (name ++ rest).head? = some 91 := by
        rw [show name ++ rest = 91 :: t from hdrop.symm.trans hcons, List.head?_cons]
      cases name with
      | nil => exact absurd (hrest 91 hhead) (by decide)
      | cons x name => exact hspelled.2 hhead
    rw [hostnameEnd, readByte_of_drop hcons, ok_bind, if_neg hc, scan_eq hten, ok_bind, hdrop]
    exact congrArg (fun run : List UInt8 => Except.ok (some (10 + run.length))) hrun

theorem exists_host (hle : 11 ≤ str.length) :
    ∃ r, hostnameEnd str = .ok r ∧ ∀ curr, r = some curr →
      ∃ host : HostText, host.Spelled ∧ curr = 10 + host.text.length ∧ curr ≤ str.length ∧
        str.items.drop 10 = host.text ++ str.items.drop curr := by
  have hten : 10 + (str.length - 10) = str.items.length := by
    have hitems : str.items.length = str.length := rfl
    omega
  cases hitems : str.items.drop 10 with
  | nil =>
    have hshort : str.length ≤ 10 := List.drop_eq_nil_iff.mp hitems
    omega
  | cons c t =>
    have hlength : str.length = 10 + (t.length + 1) :=
      length_of_drop hitems (Nat.le_of_lt (lt_of_drop hitems))
    rw [hostnameEnd, readByte_of_drop hitems, ok_bind, scan_eq hten, ok_bind, scan_eq hten, ok_bind,
      hitems]
    by_cases hbracket : c = 91
    · subst hbracket
      rw [if_pos rfl]
      have hrun : (91 :: t).takeWhile inBrackets = 91 :: t.takeWhile inBrackets :=
        List.takeWhile_cons_of_pos rfl
      rw [hrun, List.length_cons]
      by_cases hend : 10 + ((t.takeWhile inBrackets).length + 1) = str.length
      · rw [if_pos hend]
        exact ⟨none, rfl, nofun⟩
      rw [if_neg hend]
      refine ⟨_, rfl, ?_⟩
      rintro _ ⟨⟩
      have hle' : (t.takeWhile inBrackets).length ≤ t.length := (List.takeWhile_prefix _).length_le
      have hclose : ∃ rest, t.drop (t.takeWhile inBrackets).length = 93 :: rest := by
        cases hrest : t.drop (t.takeWhile inBrackets).length with
        | nil =>
          have hshort : t.length ≤ _ := List.drop_eq_nil_iff.mp hrest
          omega
        | cons c rest =>
          have hstop := ends_drop inBrackets t c (by rw [hrest]; rfl)
          have hc : c = 93 := by
            by_contra hne
            rw [(inBrackets_iff c).mpr hne] at hstop
            cases hstop
          exact ⟨rest, by rw [hc]⟩
      obtain ⟨rest, hrest⟩ := hclose
      refine ⟨.bracketed (t.takeWhile inBrackets), ?_, ?_, by omega, ?_⟩
      · intro c hc
        exact (inBrackets_iff c).mp (List.mem_takeWhile_imp hc)
      · rw [HostText.text, List.length_cons, List.length_append, List.length_singleton]
        omega
      · have hdrop : str.items.drop (10 + ((t.takeWhile inBrackets).length + 1) + 1) = rest := by
          refine drop_succ_of_drop (c := 93) ?_
          rw [← List.drop_drop, hitems, List.drop_succ_cons, hrest]
        rw [hdrop, HostText.text, List.cons_append, List.append_assoc, List.singleton_append,
          ← hrest, takeWhile_append_drop]
    · rw [if_neg hbracket]
      refine ⟨_, rfl, ?_⟩
      rintro _ ⟨⟩
      have hle' : ((c :: t).takeWhile inHost).length ≤ t.length + 1 :=
        (List.takeWhile_prefix _).length_le
      refine ⟨.run ((c :: t).takeWhile inHost), ⟨?_, ?_⟩, rfl, by omega, ?_⟩
      · intro x hx
        exact (inHost_iff x).mp (List.mem_takeWhile_imp hx)
      · intro hhead
        cases hgoes : inHost c with
        | true =>
          rw [List.takeWhile_cons_of_pos hgoes] at hhead
          exact hbracket (Option.some.inj hhead)
        | false =>
          rw [List.takeWhile_cons_of_neg (Bool.eq_false_iff.mp hgoes)] at hhead
          cases hhead
      · rw [← List.drop_drop, hitems, HostText.text, takeWhile_append_drop]

theorem host_unique {rest' : List UInt8} (h : host.text ++ rest = host'.text ++ rest')
    (hspelled : host.Spelled) (hspelled' : host'.Spelled) (hrest : Ends inHost rest)
    (hrest' : Ends inHost rest') : host = host' ∧ rest = rest' := by
  have hmixed : ∀ {inner name t t' : List UInt8}, (HostText.run name).Spelled → Ends inHost t' →
      (HostText.bracketed inner).text ++ t ≠ (HostText.run name).text ++ t' := by
    intro inner name t t' hname ht' heq
    rw [HostText.text, HostText.text, List.cons_append] at heq
    cases name with
    | nil => exact absurd (ht' 91 (by rw [← List.nil_append t', ← heq]; rfl)) (by decide)
    | cons c name => exact hname.2 (congrArg some (List.cons.inj heq).1.symm)
  cases host with
  | bracketed inner =>
    cases host' with
    | bracketed inner' =>
      rw [HostText.text, HostText.text, List.cons_append, List.cons_append, List.append_assoc,
        List.append_assoc] at h
      obtain ⟨rfl, hclose⟩ := split_unique (List.cons.inj h).2
        (fun c hc => (inBrackets_iff c).mpr (hspelled c hc))
        (fun c hc => (inBrackets_iff c).mpr (hspelled' c hc)) (ends_cons rfl) (ends_cons rfl)
      exact ⟨rfl, (List.cons.inj hclose).2⟩
    | run name' => exact absurd h (hmixed hspelled' hrest')
  | run name =>
    cases host' with
    | bracketed inner' => exact absurd h.symm (hmixed hspelled hrest)
    | run name' =>
      obtain ⟨rfl, hrests⟩ := split_unique h (fun c hc => (inHost_iff c).mpr (hspelled.1 c hc))
        (fun c hc => (inHost_iff c).mpr (hspelled'.1 c hc)) hrest hrest'
      exact ⟨rfl, hrests⟩

theorem announced_unique {path' : Option (List UInt8)} {mark : UInt8}
    (h : announced mark path = announced mark path') : path = path' := by
  cases path with
  | none =>
    cases path' with
    | none => rfl
    | some path' => cases h
  | some path =>
    cases path' with
    | none => cases h
    | some path' => rw [(List.cons.inj h).2]

theorem announced_ne : announced 47 path ≠ 58 :: rest := by
  cases path with
  | none => exact nofun
  | some path => exact fun h => absurd (List.cons.inj h).1 (by decide)

theorem UrlText.unique {url' : UrlText} (h : url.text = url'.text) (hspelled : url.Spelled)
    (hspelled' : url'.Spelled) : url = url' := by
  obtain ⟨hhost, htail⟩ := host_unique (List.append_cancel_left h) hspelled.host hspelled'.host
    (ends_tail url) (ends_tail url')
  obtain ⟨host, port, path⟩ := url
  obtain ⟨host', port', path'⟩ := url'
  cases hhost
  have hports : announced 58 port ++ announced 47 path = announced 58 port' ++ announced 47 path' :=
    htail
  cases port with
  | none =>
    cases port' with
    | none => rw [announced_unique hports]
    | some digits' => exact absurd hports announced_ne
  | some digits =>
    cases port' with
    | none => exact absurd hports.symm announced_ne
    | some digits' =>
      obtain ⟨rfl, hpaths⟩ := split_unique (List.cons.inj hports).2
        (hspelled.port digits rfl).digits (hspelled'.port digits' rfl).digits
        (stops_announced path) (stops_announced path')
      rw [announced_unique hpaths]

def UrlText.parsed (url : UrlText) : UrlParts :=
  ⟨some url.hostSlice, url.port.map parsedPort, url.pathSlice⟩

theorem length_scheme : scheme.length = 10 := rfl

theorem drop_scheme (t : List UInt8) : (scheme ++ t).drop 10 = t := rfl

theorem tailParts_eq (url : UrlText) :
    tailParts (10 + url.host.text.length) url.port url.path ⟨some url.hostSlice, none, none⟩ =
      url.parsed := by
  obtain ⟨host, port, path⟩ := url
  have hstart : (scheme ++ (host.text ++ announced 58 port)).length + 1 =
      10 + host.text.length + (announced 58 port).length + 1 := by
    rw [List.length_append, List.length_append, length_scheme]
    omega
  unfold UrlText.parsed UrlText.pathSlice
  dsimp only
  rw [hstart]
  cases port with
  | none =>
    cases path with
    | none => rfl
    | some path =>
      unfold tailParts setPath
      dsimp only
      split
      · rfl
      · rfl
  | some digits =>
    cases path with
    | none => rfl
    | some path =>
      unfold tailParts setPath
      dsimp only
      split
      · rfl
      · rfl

theorem parseEndpointUrl_of_spelled (hspelled : url.Spelled)
    (hfits : ∀ digits ∈ url.port, Fits digits) (htext : url.text = str.items)
    (hle : 11 ≤ str.length) : parseEndpointUrl str = .ok (StatusCode.good, url.parsed) := by
  have hdrop : str.items.drop 10 = url.host.text ++ url.tail := by
    rw [← htext]
    exact drop_scheme _
  have hprefix : scheme <+: str.items.drop 0 := by
    rw [List.drop_zero, ← htext]
    exact List.prefix_append _ _
  have hlength : str.length = 10 + (url.host.text.length + url.tail.length) := by
    have hcount := length_of_drop hdrop (Nat.le_of_succ_le hle)
    rw [List.length_append] at hcount
    exact hcount
  have htail : TailFits (str.items.drop (10 + url.host.text.length)) url.port url.path := by
    refine ⟨hspelled.port, hfits, ?_⟩
    rw [← List.drop_drop, hdrop, List.drop_left]
    rfl
  have hrest := parseTail_of_tailFits ⟨some url.hostSlice, none, none⟩ (by omega) htail
  rw [parseEndpointUrl, if_neg (Nat.not_lt.mpr hle),
    startsWith_eq (by rw [length_scheme, Nat.zero_add]; exact Nat.le_of_succ_le hle), ok_bind,
    decide_eq_true hprefix, if_neg (by decide),
    hostnameEnd_append hspelled.host (ends_tail url) hdrop hle, ok_bind]
  dsimp only
  rw [Nat.add_sub_cancel_left, ← tailParts_eq]
  exact hrest

theorem exists_url (hle : 11 ≤ str.length) :
    ∃ retval out, parseEndpointUrl str = .ok (retval, out) ∧
      (retval = StatusCode.good → ∃ url : UrlText, url.Spelled ∧
        (∀ digits ∈ url.port, Fits digits) ∧ url.text = str.items) := by
  have hbad : StatusCode.badTcpEndpointUrlInvalid ≠ StatusCode.good := by decide
  rw [parseEndpointUrl, if_neg (Nat.not_lt.mpr hle),
    startsWith_eq (by rw [length_scheme, Nat.zero_add]; exact Nat.le_of_succ_le hle), ok_bind]
  by_cases hprefix : scheme <+: str.items.drop 0
  · rw [decide_eq_true hprefix, if_neg (by decide)]
    obtain ⟨r, hhost, hr⟩ := exists_host hle
    rw [hhost, ok_bind]
    cases r with
    | none => exact ⟨_, _, rfl, fun hgood => absurd hgood hbad⟩
    | some curr =>
      obtain ⟨host, hspelled, rfl, hcurr, hdrop⟩ := hr curr rfl
      obtain ⟨retval, out, hrest, hgood⟩ := exists_tailFits
        ⟨some ⟨10, 10 + host.text.length - 10⟩, none, none⟩ hcurr
      refine ⟨retval, out, hrest, fun heq => ?_⟩
      obtain ⟨port, path, htail⟩ := hgood heq
      refine ⟨⟨host, port, path⟩, ⟨hspelled, htail.numeral⟩, htail.fits, ?_⟩
      obtain ⟨t, ht⟩ := hprefix
      rw [List.drop_zero] at ht
      have hafter : str.items.drop 10 = t := by
        rw [← ht]
        exact drop_scheme t
      rw [UrlText.text, UrlText.tail, htail.text, ← hdrop, hafter, ht]
  · rw [decide_eq_false hprefix, if_pos (by decide)]
    exact ⟨_, _, rfl, fun hgood => absurd hgood hbad⟩

/-- The URL is written as it should, and its port is one. -/
structure UrlText.InGrammar (url : UrlText) : Prop extends url.Spelled where
  inRange : ∀ digits ∈ url.port, value digits ≤ 65535

/-- The outputs are the parts of the URL. -/
structure Returned (items : List UInt8) (url : UrlText) (out : UrlParts) : Prop where
  hostname : out.hostname = some url.hostSlice
  cutsHost : url.hostSlice.Cuts items url.host.text
  port : out.port.map UInt16.toNat = url.port.map value
  path : out.path = url.pathSlice
  cutsPath : ∀ slice ∈ url.pathSlice, ∃ path ∈ url.path, slice.Cuts items (withoutSlash path)

/-- The parser accepts exactly its grammar: it returns, and has read no byte outside of the string;
the status is good just for a URL of the grammar, and then its parts are returned. -/
def ParsesUrlExactly (str : UaString) : Prop :=
  ∃ retval out, parseEndpointUrl str = .ok (retval, out) ∧
    (retval = StatusCode.good ↔ ∃ url : UrlText, url.InGrammar ∧ url.text = str.items) ∧
    (retval = StatusCode.good →
      ∃ url : UrlText, url.InGrammar ∧ url.text = str.items ∧ Returned str.items url out)

theorem withoutSlash_prefix (path : List UInt8) : withoutSlash path <+: path := by
  unfold withoutSlash
  split
  · exact List.dropLast_prefix path
  · exact List.prefix_refl path

theorem cuts_of_prefix {slice : Slice} {part : List UInt8} (hle : slice.start ≤ items.length)
    (hstart : part <+: items.drop slice.start) (hlength : slice.length = part.length) :
    slice.Cuts items part := by
  obtain ⟨rest, hrest⟩ := hstart
  have hcount := length_of_drop hrest.symm hle
  rw [List.length_append] at hcount
  refine ⟨by omega, ?_⟩
  rw [← hrest, hlength, List.take_left]

theorem returned_parsed (htext : url.text = items)
    (hrange : ∀ digits ∈ url.port, value digits ≤ 65535) : Returned items url url.parsed where
  hostname := rfl
  cutsHost := by
    refine cuts_of_prefix ?_ ?_ rfl
    · rw [← htext, UrlText.text, List.length_append]
      exact Nat.le_add_right _ _
    · rw [← htext]
      exact List.prefix_append _ _
  port := by
    unfold UrlText.parsed
    rw [Option.map_map]
    refine Option.map_congr fun digits hdigits => ?_
    have hle := hrange digits hdigits
    have hnumber : (UInt32.ofNat (value digits)).toNat = value digits :=
      UInt32.toNat_ofNat_of_lt' (Nat.lt_of_le_of_lt hle (by decide))
    rw [Function.comp_apply, parsedPort, UInt32.toNat_toUInt16, hnumber]
    exact Nat.mod_eq_of_lt (Nat.lt_succ_of_le hle)
  path := rfl
  cutsPath := by
    intro slice hslice
    obtain ⟨host, port, path⟩ := url
    cases path with
    | none => cases hslice
    | some path =>
      unfold UrlText.pathSlice at hslice
      dsimp only at hslice
      by_cases hempty : path = []
      · rw [if_pos hempty] at hslice
        cases hslice
      rw [if_neg hempty] at hslice
      cases hslice
      have hitems : items = (scheme ++ (host.text ++ announced 58 port)) ++ 47 :: path := by
        rw [← htext, UrlText.text, UrlText.tail, List.append_assoc, List.append_assoc]
        rfl
      refine ⟨path, rfl, cuts_of_prefix ?_ ?_ rfl⟩
      · have hlength : items.length =
            (scheme ++ (host.text ++ announced 58 port)).length + (path.length + 1) := by
          rw [hitems, List.length_append, List.length_cons]
        rw [hlength]
        exact Nat.add_le_add_left (Nat.le_add_left _ _) _
      · rw [hitems, ← List.drop_drop, List.drop_left]
        exact withoutSlash_prefix path

/-- The parser accepts exactly its grammar if and only if no port wraps around to a number that is
one. -/
theorem parsesUrlExactly_iff (str : UaString) (hle : 11 ≤ str.length) :
    ParsesUrlExactly str ↔
      ∀ url : UrlText, url.Spelled → url.text = str.items →
        ∀ digits ∈ url.port, value digits % 2 ^ 32 ≤ 65535 → value digits ≤ 65535 := by
  constructor
  · rintro ⟨retval, out, hrun, hiff, -⟩ url hspelled htext digits hdigits hfits
    have hall : ∀ digits ∈ url.port, Fits digits := by
      intro other hother
      cases Option.mem_unique hother hdigits
      exact hfits
    have hsame := hrun.symm.trans (parseEndpointUrl_of_spelled hspelled hall htext hle)
    cases hsame
    obtain ⟨url', hgrammar, htext'⟩ := hiff.mp rfl
    cases UrlText.unique (htext.trans htext'.symm) hspelled hgrammar.toSpelled
    exact hgrammar.inRange digits hdigits
  · intro hexact
    obtain ⟨retval, out, hrun, hgood⟩ := exists_url hle
    refine ⟨retval, out, hrun, ⟨fun heq => ?_, ?_⟩, fun heq => ?_⟩
    · obtain ⟨url, hspelled, hfits, htext⟩ := hgood heq
      refine ⟨url, ⟨hspelled, fun digits hdigits => ?_⟩, htext⟩
      exact hexact url hspelled htext digits hdigits (hfits digits hdigits)
    · rintro ⟨url, hgrammar, htext⟩
      have hall : ∀ digits ∈ url.port, Fits digits := fun digits hdigits =>
        Nat.le_trans (Nat.mod_le _ _) (hgrammar.inRange digits hdigits)
      have hsame := hrun.symm.trans
        (parseEndpointUrl_of_spelled hgrammar.toSpelled hall htext hle)
      cases hsame
      rfl
    · obtain ⟨url, hspelled, hfits, htext⟩ := hgood heq
      have hrange : ∀ digits ∈ url.port, value digits ≤ 65535 := fun digits hdigits =>
        hexact url hspelled htext digits hdigits (hfits digits hdigits)
      have hsame := hrun.symm.trans (parseEndpointUrl_of_spelled hspelled hfits htext hle)
      cases hsame
      exact ⟨url, ⟨hspelled, hrange⟩, htext, returned_parsed htext hrange⟩

/-- `opc.tcp://[::1]:4840/line` -/
def lineUrl : UrlText :=
  ⟨.bracketed [58, 58, 49], some [52, 56, 52, 48], some [108, 105, 110, 101]⟩

theorem spelled_lineUrl : lineUrl.Spelled where
  host := by simp [lineUrl, HostText.Spelled]
  port := by
    rintro _ ⟨⟩
    exact .of_all nofun rfl

theorem lineUrl_exact : ParsesUrlExactly (.mem lineUrl.text) := by
  refine (parsesUrlExactly_iff (.mem lineUrl.text) (by decide)).mpr fun url hspelled htext => ?_
  cases UrlText.unique htext hspelled spelled_lineUrl
  rintro _ ⟨⟩ -
  decide

/-- `opc.tcp://a:4294967376`, with the port `2^32 + 80`. -/
def wrappedUrl : UrlText := ⟨.run [97], some [52, 50, 57, 52, 57, 54, 55, 51, 55, 54], none⟩

theorem spelled_wrappedUrl : wrappedUrl.Spelled where
  host := ⟨fun c hc => by
    obtain rfl := List.mem_singleton.mp hc
    exact ⟨by decide, by decide⟩, nofun⟩
  port := by
    rintro _ ⟨⟩
    exact .of_all nofun rfl

/-- The port is taken for 80. -/
theorem wrappedUrl_accepted : ¬ ParsesUrlExactly (.mem wrappedUrl.text) := by
  have hfits : ∀ digits ∈ wrappedUrl.port, Fits digits := by
    rintro _ ⟨⟩
    decide
  have hrun : parseEndpointUrl (.mem wrappedUrl.text) = .ok (StatusCode.good, wrappedUrl.parsed) :=
    parseEndpointUrl_of_spelled spelled_wrappedUrl hfits rfl (by decide)
  rintro ⟨retval, out, hrun', hiff, -⟩
  have hsame := hrun.symm.trans hrun'
  cases hsame
  obtain ⟨url, hgrammar, htext⟩ := hiff.mp rfl
  cases UrlText.unique htext hgrammar.toSpelled spelled_wrappedUrl
  exact absurd (hgrammar.inRange _ rfl) (by decide)

end FactoryThing.Discovery
