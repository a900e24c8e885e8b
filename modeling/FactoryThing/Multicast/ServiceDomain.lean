import Mathlib.Data.List.Basic
import Mathlib.Order.Basic

/-!
# Service domains

The names under which a server is published with multicast DNS
(`src/server/ua_services_discovery_multicast.c:330-366` and `:451-484`), built with every byte that
is read and written. The server name is cut off where both names are too long for a label; a server
name of 62 bytes is not, but read beyond its end.
-/

namespace FactoryThing.Multicast

/-- An access outside of a string or a buffer. -/
inductive MemoryFault where
  | read
  | write
  deriving DecidableEq

/-- `memcpy` of `n` bytes to a position of a buffer. -/
def memcpy (out : List UInt8) (pos : Nat) (src : List UInt8) (n : Nat) :
    Except MemoryFault (List UInt8) :=
  if src.length < n then .error .read
  else if out.length < pos + n then .error .write
  else .ok (out.take pos ++ (src.take n ++ out.drop (pos + n)))

theorem memcpy_append (text rest : List UInt8) {src : List UInt8} {n : Nat} (hsrc : n ≤ src.length)
    (hrest : n ≤ rest.length) :
    memcpy (text ++ rest) text.length src n = .ok ((text ++ src.take n) ++ rest.drop n) := by
  have hroom : ¬ (text ++ rest).length < text.length + n := by
    rw [List.length_append]
    omega
  unfold memcpy
  rw [if_neg (Nat.not_lt.mpr hsrc), if_neg hroom, List.take_left, List.append_assoc,
    ← List.drop_drop, List.drop_left]

/-- `._opcua-tcp._tcp.local.` -/
def serviceSuffix : List UInt8 :=
  [46, 95, 111, 112, 99, 117, 97, 45, 116, 99, 112, 46, 95, 116, 99, 112, 46, 108, 111, 99, 97,
    108, 46]

/-- How much of the server name and of the host name is used (`:335-350`). -/
def usedLengths (maxLen servernameLen hostnameLen : Nat) : Nat × Nat :=
  if hostnameLen + servernameLen + 1 > maxLen then
    if servernameLen + 2 > maxLen then (maxLen, 0)
    else (servernameLen, maxLen - servernameLen - 1)
  else (servernameLen, hostnameLen)

/-- The suffix and the terminating zero (`:362-364`). -/
def appendSuffix (out : List UInt8) (pos : Nat) : Except MemoryFault (List UInt8) := do
  let out ← memcpy out pos serviceSuffix 23
  memcpy out (pos + 23) [0] 1

/-- `createFullServiceDomain` (`:332-365`). -/
def createFullServiceDomain (out : List UInt8) (maxLen : Nat) (servername hostname : List UInt8) :
    Except MemoryFault (List UInt8) := do
  let (servernameLen, hostnameLen) :=
    usedLengths (maxLen - 24) servername.length hostname.length
  let out ← memcpy out 0 servername servernameLen
  if hostnameLen > 0 then
    let out ← memcpy out servernameLen [45] 1
    let out ← memcpy out (servernameLen + 1) hostname hostnameLen
    appendSuffix out (servernameLen + 1 + hostnameLen)
  else appendSuffix out servernameLen

/-- The local domain in `UA_Discovery_addRecord` (`:480-484`). -/
def createLocalDomain (out hostname : List UInt8) : Except MemoryFault (List UInt8) := do
  let maxHostnameLen := min hostname.length 63
  let out ← memcpy out 0 hostname maxHostnameLen
  let out ← memcpy out maxHostnameLen [46] 1
  memcpy out (maxHostnameLen + 1) [0] 1

/-- The first label: both names with a dash if they fit, otherwise a part of the server name, and
maybe a part of the host name. -/
def IsLabel (servername hostname label : List UInt8) : Prop :=
  if servername.length + 1 + hostname.length ≤ 63 then label = servername ++ 45 :: hostname
  else ∃ server, server ≠ [] ∧ server <+: servername ∧
    (label = server ∨ ∃ host, host ≠ [] ∧ host <+: hostname ∧ label = server ++ 45 :: host)

/-- A buffer of the same size that begins with a text and a zero. -/
def HoldsText (size : Nat) (text : List UInt8) (out : List UInt8) : Prop :=
  out.length = size ∧ text ++ [0] <+: out

/-- The name of a service is built within its bounds. -/
def WellBuilt (servername hostname out : List UInt8) : Prop :=
  ∃ label out', createFullServiceDomain out 87 servername hostname = .ok out' ∧
    label.length ≤ 63 ∧ IsLabel servername hostname label ∧
    HoldsText 87 (label ++ serviceSuffix) out'

/-- The local domain is built within its bounds. -/
def LocalWellBuilt (hostname out : List UInt8) : Prop :=
  ∃ out', createLocalDomain out hostname = .ok out' ∧
    HoldsText 65 (hostname.take 63 ++ [46]) out'

theorem appendSuffix_append (text rest : List UInt8) (hrest : 24 ≤ rest.length) :
    appendSuffix (text ++ rest) text.length =
      .ok ((text ++ serviceSuffix ++ [0]) ++ rest.drop 24) := by
  have hsuffix : memcpy (text ++ rest) text.length serviceSuffix 23 =
      .ok ((text ++ serviceSuffix) ++ rest.drop 23) :=
    memcpy_append text rest (by decide) (by omega)
  have hzero : memcpy ((text ++ serviceSuffix) ++ rest.drop 23)
      (text ++ serviceSuffix).length [0] 1 =
      .ok ((text ++ serviceSuffix ++ [0]) ++ (rest.drop 23).drop 1) :=
    memcpy_append (text ++ serviceSuffix) (rest.drop 23) (by decide)
      (by rw [List.length_drop]; omega)
  rw [List.length_append, List.drop_drop] at hzero
  unfold appendSuffix
  rw [hsuffix]
  exact hzero

theorem holdsText_append (text rest : List UInt8) {size : Nat}
    (hlength : (text ++ [0] ++ rest).length = size) : HoldsText size text (text ++ [0] ++ rest) :=
  ⟨hlength, List.prefix_append _ _⟩

theorem appendSuffix_holds {label out : List UInt8} (hlabel : label.length ≤ 63)
    (hout : out.length = 87) :
    ∃ out', appendSuffix (label ++ out.drop label.length) label.length = .ok out' ∧
      HoldsText 87 (label ++ serviceSuffix) out' := by
  have hdrop : (out.drop label.length).length = 87 - label.length := by
    rw [List.length_drop, hout]
  refine ⟨_, appendSuffix_append label (out.drop label.length) (by omega), holdsText_append _ _ ?_⟩
  have hsuffix : serviceSuffix.length = 23 := rfl
  simp only [List.length_append, List.length_drop, List.length_singleton, hsuffix, hout]
  omega

def labelOf (servername hostname : List UInt8) (servernameLen hostnameLen : Nat) : List UInt8 :=
  if hostnameLen > 0 then servername.take servernameLen ++ 45 :: hostname.take hostnameLen
  else servername.take servernameLen

theorem createFullServiceDomain_of_lengths {out servername hostname : List UInt8}
    {servernameLen hostnameLen : Nat} (hout : out.length = 87)
    (hlengths : usedLengths 63 servername.length hostname.length = (servernameLen, hostnameLen))
    (hserver : servernameLen ≤ servername.length) (hhost : hostnameLen ≤ hostname.length)
    (hfits : (labelOf servername hostname servernameLen hostnameLen).length ≤ 63) :
    ∃ out', createFullServiceDomain out 87 servername hostname = .ok out' ∧
      HoldsText 87 (labelOf servername hostname servernameLen hostnameLen ++ serviceSuffix)
        out' := by
  have htake : (servername.take servernameLen).length = servernameLen :=
    List.length_take_of_le hserver
  have hhosttake : (hostname.take hostnameLen).length = hostnameLen :=
    List.length_take_of_le hhost
  unfold labelOf at hfits ⊢
  unfold createFullServiceDomain
  simp only [show 87 - 24 = 63 from rfl, hlengths]
  by_cases hdash : hostnameLen > 0
  · rw [if_pos hdash] at hfits ⊢
    have hlen : (servername.take servernameLen ++ 45 :: hostname.take hostnameLen).length =
        servernameLen + 1 + hostnameLen := by
      rw [List.length_append, List.length_cons, htake, hhosttake]
      omega
    have hfirst : memcpy out 0 servername servernameLen =
        .ok (servername.take servernameLen ++ out.drop servernameLen) :=
      memcpy_append [] out hserver (by omega)
    have hsecond := memcpy_append (servername.take servernameLen) (out.drop servernameLen)
      (show 1 ≤ [(45 : UInt8)].length by decide) (by rw [List.length_drop]; omega)
    rw [htake, List.drop_drop] at hsecond
    have hthird := memcpy_append (servername.take servernameLen ++ [45])
      (out.drop (servernameLen + 1)) hhost (by rw [List.length_drop]; omega)
    rw [List.length_append, htake, List.drop_drop, List.length_singleton,
      List.append_assoc (servername.take servernameLen) [45] (hostname.take hostnameLen)] at hthird
    obtain ⟨out', hlast, hholds⟩ := appendSuffix_holds hfits hout
    rw [hlen] at hlast
    refine ⟨out', ?_, hholds⟩
    rw [hfirst]
    show (if hostnameLen > 0 then _ else _) = _
    rw [if_pos hdash]
    rw [hsecond]
    show (memcpy (servername.take servernameLen ++ [45] ++ out.drop (servernameLen + 1))
      (servernameLen + 1) hostname hostnameLen >>= _) = _
    rw [hthird]
    exact hlast
  · rw [if_neg hdash] at hfits ⊢
    rw [htake] at hfits
    have hfirst : memcpy out 0 servername servernameLen =
        .ok (servername.take servernameLen ++ out.drop servernameLen) :=
      memcpy_append [] out hserver (by omega)
    obtain ⟨out', hlast, hholds⟩ := appendSuffix_holds (le_of_eq_of_le htake hfits) hout
    rw [htake] at hlast
    refine ⟨out', ?_, hholds⟩
    rw [hfirst]
    show (if hostnameLen > 0 then _ else _) = _
    rw [if_neg hdash]
    exact hlast

theorem usedLengths_spec {servername hostname : List UInt8} (hserver : servername ≠ [])
    (hhost : hostname ≠ []) (hlength : servername.length ≠ 62) :
    ∃ servernameLen hostnameLen,
      usedLengths 63 servername.length hostname.length = (servernameLen, hostnameLen) ∧
        servernameLen ≤ servername.length ∧ hostnameLen ≤ hostname.length ∧
        (labelOf servername hostname servernameLen hostnameLen).length ≤ 63 ∧
        IsLabel servername hostname (labelOf servername hostname servernameLen hostnameLen) := by
  have hhostPos : 0 < hostname.length := List.length_pos_iff.mpr hhost
  unfold usedLengths IsLabel labelOf
  by_cases hfits : hostname.length + servername.length + 1 > 63
  · have hnot : ¬ servername.length + 1 + hostname.length ≤ 63 := by omega
    rw [if_pos hfits]
    by_cases hlong : servername.length + 2 > 63
    · rw [if_pos hlong]
      refine ⟨63, 0, rfl, by omega, Nat.zero_le _, ?_⟩
      rw [if_neg (Nat.lt_irrefl 0), if_neg hnot]
      refine ⟨List.length_take_le 63 servername, _, ?_, List.take_prefix 63 servername,
        Or.inl rfl⟩
      rw [← List.length_pos_iff, List.length_take]
      omega
    · rw [if_neg hlong]
      refine ⟨_, _, rfl, Nat.le_refl _, by omega, ?_⟩
      rw [if_pos (show 63 - servername.length - 1 > 0 by omega), List.take_length, if_neg hnot]
      refine ⟨?_, servername, hserver, List.prefix_refl servername,
        Or.inr ⟨_, ?_, List.take_prefix _ hostname, rfl⟩⟩
      · rw [List.length_append, List.length_cons, List.length_take]
        omega
      · rw [← List.length_pos_iff, List.length_take]
        omega
  · rw [if_neg hfits]
    refine ⟨_, _, rfl, Nat.le_refl _, Nat.le_refl _, ?_⟩
    rw [if_pos hhostPos, List.take_length, List.take_length,
      if_pos (show servername.length + 1 + hostname.length ≤ 63 by omega)]
    refine ⟨?_, rfl⟩
    rw [List.length_append, List.length_cons]
    omega

theorem createFullServiceDomain_of_length_eq {servername hostname : List UInt8} (out : List UInt8)
    (hlength : servername.length = 62) (hhost : hostname ≠ []) :
    createFullServiceDomain out 87 servername hostname = .error .read := by
  have hhostPos : 0 < hostname.length := List.length_pos_iff.mpr hhost
  have hlengths : usedLengths 63 servername.length hostname.length = (63, 0) := by
    unfold usedLengths
    rw [if_pos (by omega), if_pos (by omega)]
  have hread : memcpy out 0 servername 63 = .error .read := by
    unfold memcpy
    rw [if_pos (by omega)]
  unfold createFullServiceDomain
  simp only [show 87 - 24 = 63 from rfl, hlengths]
  rw [hread]
  rfl

theorem localWellBuilt {hostname out : List UInt8} (hout : out.length = 65) :
    LocalWellBuilt hostname out := by
  have htake : hostname.take (min hostname.length 63) = hostname.take 63 := by
    rw [Nat.min_comm, ← List.take_take, List.take_length]
  have hlen : (hostname.take 63).length = min hostname.length 63 := by
    rw [List.length_take, Nat.min_comm]
  have hfirst : memcpy out 0 hostname (min hostname.length 63) =
      .ok (hostname.take (min hostname.length 63) ++ out.drop (min hostname.length 63)) :=
    memcpy_append [] out (Nat.min_le_left _ _) (by omega)
  have hsecond := memcpy_append (hostname.take 63) (out.drop (min hostname.length 63))
    (show 1 ≤ [(46 : UInt8)].length by decide) (by rw [List.length_drop]; omega)
  rw [hlen, List.drop_drop] at hsecond
  have hthird := memcpy_append (hostname.take 63 ++ [46]) (out.drop (min hostname.length 63 + 1))
    (show 1 ≤ [(0 : UInt8)].length by decide) (by rw [List.length_drop]; omega)
  rw [List.length_append, hlen, List.drop_drop, List.length_singleton] at hthird
  refine ⟨_, ?_, holdsText_append (hostname.take 63 ++ [46])
    (out.drop (min hostname.length 63 + 1 + 1)) ?_⟩
  · show (memcpy out 0 hostname (min hostname.length 63) >>= _) = _
    rw [hfirst, htake]
    show (memcpy _ _ _ _ >>= _) = _
    rw [hsecond]
    exact hthird
  · simp only [List.length_append, hlen, List.length_singleton, List.length_drop]
    omega

/-- The names are built within their bounds, except for a server name of 62 bytes. -/
theorem wellBuilt_iff {servername hostname out out' : List UInt8} (hserver : servername ≠ [])
    (hhost : hostname ≠ []) (hout : out.length = 87) (hout' : out'.length = 65) :
    WellBuilt servername hostname out ∧ LocalWellBuilt hostname out' ↔ servername.length ≠ 62 := by
  constructor
  · rintro ⟨⟨label, built, hbuilt, -⟩, -⟩ hlength
    rw [createFullServiceDomain_of_length_eq out hlength hhost] at hbuilt
    cases hbuilt
  · intro hlength
    obtain ⟨servernameLen, hostnameLen, hlengths, hserverLen, hhostLen, hfits, hlabel⟩ :=
      usedLengths_spec hserver hhost hlength
    obtain ⟨built, hbuilt, hholds⟩ :=
      createFullServiceDomain_of_lengths hout hlengths hserverLen hhostLen hfits
    exact ⟨⟨_, built, hbuilt, hfits, hlabel, hholds⟩, localWellBuilt hout'⟩

/-- A server name of 61 bytes: one byte of the host name is used. -/
theorem wellBuilt_sixtyOne :
    WellBuilt (List.replicate 61 97) [98, 99] (List.replicate 87 0) ∧
      LocalWellBuilt [98, 99] (List.replicate 65 0) :=
  (wellBuilt_iff (by decide) (by decide) (List.length_replicate) (List.length_replicate)).mpr
    (by rw [List.length_replicate]; decide)

/-- With 62 bytes the zero behind the server name, or what else is there, is read as well. -/
theorem not_wellBuilt_sixtyTwo :
    ¬ WellBuilt (List.replicate 62 97) [98] (List.replicate 87 0) := by
  rintro ⟨label, built, hbuilt, -⟩
  have hfault : createFullServiceDomain (List.replicate 87 0) 87 (List.replicate 62 97) [98] =
      .error .read :=
    createFullServiceDomain_of_length_eq _ List.length_replicate (by decide)
  rw [hfault] at hbuilt
  cases hbuilt

end FactoryThing.Multicast
