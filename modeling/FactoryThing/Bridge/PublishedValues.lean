import FactoryThing.Bridge.BufferSafety

/-!
# What is published denotes what has been read

A poll round and the events of its nodes publish an entry for each node. The entry is the value that
has been read as long as the value fits into a signed number of its width and is not the empty
string, and what is behind a string in memory is a NUL.
-/

namespace FactoryThing.Bridge

open FormattedText

/-- Truth values, integers, and strings without a NUL. -/
def Scalar.Plain : Scalar → Prop
  | .string s => 0 ∉ s.bytes
  | .float _ | .double _ | .other => False
  | _ => True

/-- The JSON value that denotes a plain value. -/
def Scalar.denoted : Scalar → JsonScalar
  | .boolean b => .boolean b
  | .sByte n => .int n.toInt
  | .byte n => .int n.toNat
  | .int16 n => .int n.toInt
  | .uint16 n => .int n.toNat
  | .int32 n => .int n.toInt
  | .uint32 n => .int n.toNat
  | .int64 n => .int n.toInt
  | .uint64 n => .int n.toNat
  | .float bits => .double (.ofBits 8 23 bits.toNat)
  | .double bits => .double (.ofBits 11 52 bits.toNat)
  | .string s => .string s.bytes
  | .other => .string []

/-- The text of such a JSON value in the key-value format. -/
def JsonScalar.text : JsonScalar → Text
  | .boolean b => if b then ascii "true" else ascii "false"
  | .int n => signedDecimal n
  | .double v => fixedPoint v
  | .string s => ascii "\"" ++ s ++ ascii "\""

/-- The entry of a node in the key-value format. -/
def keyValOf (d : Node) (text : Text) : Text := d.aliasText ++ ascii "=" ++ text

/-- The fields of a round: an entry for each node and the time. -/
def expectedFields (nodes : List (Nat × Node)) (values : Nat → Scalar) (t : Int64) : Fields :=
  nodes.map (fun p => (p.2.aliasText, (values p.1).denoted)) ++ [(ascii "time", .int t.toInt)]

/-- The text of a round in the key-value format. -/
def expectedText (nodes : List (Nat × Node)) (values : Nat → Scalar) (t : Int64) : Text :=
  joined (nodes.map (fun p => keyValOf p.2 (values p.1).denoted.text) ++
    [ascii "time=" ++ decimal t.toUInt64.toNat])

/-- A write stays inside its buffer; what is read counts only by what is published. -/
def Access.WriteInside : Access → Prop
  | .write buffer text => text.length < buffer.size
  | .read _ _ => True
  | .unset => False

/-- The round in which all reads succeed publishes the entries, in its format, on each transport of
the group, and no write leaves its buffer. -/
def FaithfulRound (texts : Buffer → Text) (g : Group) (topic format : Text) (values : Nat → Scalar)
    (t : Int64) : Prop :=
  let outcome := opcuaPollGroup texts { g with format := some format }
    (fun i => some ⟨[values i]⟩) t
  (∀ a ∈ outcome.accesses, a.WriteInside) ∧
    outcome.published =
      if g.nodes = [] then []
      else publishTo g .poll (groupTopic texts topic) format (expectedFields g.nodes values t)
        lineBreak (expectedText g.nodes values t)

/-- The event of a node publishes the same entry. -/
def FaithfulEvent (texts : Buffer → Text) (g : Group) (topic format : Text) (d : Node)
    (value : Scalar) (t : Int64) : Prop :=
  let outcome := callback texts { g with format := some format } d (some ⟨[value]⟩) t
  (∀ a ∈ outcome.accesses, a.WriteInside) ∧
    outcome.published =
      publishTo g .event (groupTopic texts topic ++ ascii "/" ++ d.topic) format
        [(d.aliasText, value.denoted), (ascii "time", .int t.toInt)] (fun _ => [])
        (ascii "time=" ++ signedDecimal t.toInt ++ ascii ", " ++ keyValOf d value.denoted.text)

/-- The number is in the lower half of its range, or the string is not empty and followed by a
NUL. -/
def Scalar.Exact : Scalar → Prop
  | .uint32 n => n.toNat < 2 ^ 31
  | .uint64 n => n.toNat < 2 ^ 63
  | .string s => s.bytes ≠ [] ∧ upToNul s.behind = []
  | _ => True

def Scalar.json : Scalar → Option JsonScalar
  | .uint32 n => some (.int (wrap 32 n.toNat))
  | .uint64 n => some (.int (wrap 64 n.toNat))
  | .string s => if s.bytes.length ≠ 0 then some (.string s.printed) else none
  | .other => none
  | scalar => some scalar.denoted

theorem json_uint32 (n : UInt32) :
    (Scalar.uint32 n).json = some (.int (wrap 32 n.toNat)) := rfl

theorem json_uint64 (n : UInt64) :
    (Scalar.uint64 n).json = some (.int (wrap 64 n.toNat)) := rfl

theorem json_string (s : ReceivedString) :
    (Scalar.string s).json = if s.bytes.length ≠ 0 then some (.string s.printed) else none := rfl

theorem printed_of_plain {s : ReceivedString} (h : 0 ∉ s.bytes) :
    s.printed = s.bytes ++ upToNul s.behind := by
  rw [ReceivedString.printed, upToNul_of_not_mem]
  rw [List.mem_append, not_or]
  refine ⟨h, fun hin => ?_⟩
  have := List.mem_takeWhile_imp hin
  simp at this

theorem json_eq_denoted_iff {scalar : Scalar} (h : scalar.Plain) :
    scalar.json = some scalar.denoted ↔ scalar.Exact := by
  cases scalar with
  | string s =>
    by_cases hlength : s.bytes.length ≠ 0
    · have hne : s.bytes ≠ [] := fun hnil => hlength (by rw [hnil]; rfl)
      simp [json_string, Scalar.denoted, Scalar.Exact, hne, printed_of_plain h]
    · have hnil : s.bytes = [] := List.length_eq_zero_iff.mp (not_not.mp hlength)
      simp [json_string, Scalar.Exact, hnil]
  | uint32 n => simp [json_uint32, Scalar.denoted, Scalar.Exact, wrap_eq_iff]
  | uint64 n => simp [json_uint64, Scalar.denoted, Scalar.Exact, wrap_eq_iff]
  | float _ | double _ | other => exact h.elim
  | _ => exact iff_of_true rfl trivial

theorem text_of_exact {scalar : Scalar} (h : scalar.Plain) (hexact : scalar.Exact) :
    scalar.pollText = scalar.denoted.text ∧ scalar.eventText = scalar.denoted.text := by
  cases scalar with
  | string s =>
    have hlength : s.bytes.length ≠ 0 := fun hzero =>
      hexact.1 (List.length_eq_zero_iff.mp hzero)
    have hprinted : s.printed = s.bytes := by
      rw [printed_of_plain h, hexact.2, List.append_nil]
    simp [Scalar.pollText, Scalar.eventText, Scalar.text, Scalar.denoted, JsonScalar.text, hlength,
      hprinted]
  | uint32 n =>
    have hwrap : wrap 32 n.toNat = n.toNat := wrap_eq_iff.mpr hexact
    simp [Scalar.pollText, Scalar.eventText, Scalar.text, Scalar.denoted, JsonScalar.text, hwrap]
  | uint64 n =>
    have hwrap : wrap 64 n.toNat = n.toNat := wrap_eq_iff.mpr hexact
    have hsigned : signedDecimal n.toNat = decimal n.toNat := by
      simp [signedDecimal]
    simp [Scalar.pollText, Scalar.eventText, Scalar.text, Scalar.denoted, JsonScalar.text, hwrap,
      hsigned]
  | float _ | double _ | other => exact h.elim
  | _ => exact ⟨rfl, rfl⟩

theorem switchEntry_eq {value : Buffer} {uint64Text : UInt64 → Text} {scalar : Scalar}
    (h : scalar.Plain) (hroom : 0 < value.size) :
    ∃ accesses,
      switchEntry value uint64Text scalar =
        some ⟨scalar.json, scalar.text uint64Text, accesses⟩ ∧
      ((∀ a ∈ accesses, a.WriteInside) ↔ (scalar.text uint64Text).length < value.size) := by
  cases scalar with
  | string s =>
    by_cases hlength : s.bytes.length ≠ 0
    · refine ⟨_, by simp only [switchEntry, json_string, Scalar.text, if_pos hlength]; rfl, ?_⟩
      simp only [Scalar.text, if_pos hlength, List.forall_mem_cons, Access.WriteInside,
        ReceivedString.printing, true_and]
      constructor
      · rintro ⟨-, hquoted, -⟩
        exact hquoted
      · intro hquoted
        refine ⟨?_, hquoted, List.forall_mem_nil _⟩
        rw [List.length_append, List.length_append] at hquoted
        omega
    · refine ⟨[], by simp only [switchEntry, json_string, Scalar.text, if_neg hlength], ?_⟩
      simp only [Scalar.text, if_neg hlength]
      exact iff_of_true (List.forall_mem_nil _) hroom
  | float _ | double _ | other => exact h.elim
  | _ =>
    refine ⟨_, rfl, ?_⟩
    rw [List.forall_mem_singleton]
    exact Iff.rfl

def jsonField (values : Nat → Scalar) (p : Nat × Node) : Option (Text × JsonScalar) :=
  (values p.1).json.map fun json => (p.2.aliasText, json)

theorem addField_of_not_mem {fields : Fields} {key : Text} (h : key ∉ fields.map Prod.fst)
    (value : JsonScalar) : addField fields key value = fields ++ [(key, value)] := if_neg h

theorem pollNode_plain (d : Node) {scalar : Scalar} (h : scalar.Plain) (r : Round)
    (hnew : d.aliasText ∉ r.fields.map Prod.fst) :
    ∃ accesses,
      pollNode d (some ⟨[scalar]⟩) r =
        ⟨r.fields ++ (scalar.json.map fun json => (d.aliasText, json)).toList,
          r.keyVals ++ [keyValOf d scalar.pollText], r.accesses ++ accesses⟩ ∧
      ((∀ a ∈ accesses, a.WriteInside) ↔ d.aliasText.length + 1 + scalar.pollText.length < 32) := by
  obtain ⟨accesses, hentry, hinside⟩ := @switchEntry_eq .pollValue
    (fun n => signedDecimal (wrap 64 n.toNat)) scalar h (by decide)
  have hpoll : pollEntry scalar = some ⟨scalar.json, scalar.pollText, accesses⟩ := hentry
  refine ⟨accesses ++ [.write .pollKeyValue (keyValOf d scalar.pollText)], ?_, ?_⟩
  · unfold pollNode
    dsimp only
    rw [hpoll]
    cases scalar.json with
    | none => simp [keyValOf]
    | some json => simp [keyValOf, addField_of_not_mem hnew]
  · rw [List.forall_mem_append, List.forall_mem_singleton, hinside]
    have hlength : (keyValOf d scalar.pollText).length =
        d.aliasText.length + 1 + scalar.pollText.length := by
      rw [keyValOf, List.length_append, List.length_append]
      rfl
    constructor
    · rintro ⟨-, hlong⟩
      exact hlength ▸ hlong
    · intro hlong
      refine ⟨?_, show (keyValOf d scalar.pollText).length < 32 from hlength ▸ hlong⟩
      change scalar.pollText.length < 512
      omega

theorem pollNodes_plain (values : Nat → Scalar) (nodes : List (Nat × Node)) :
    ∀ r : Round, (∀ p ∈ nodes, (values p.1).Plain) →
      (nodes.map fun p => p.2.aliasText).Nodup →
      (∀ p ∈ nodes, p.2.aliasText ∉ r.fields.map Prod.fst) →
        ∃ accesses,
          pollNodes (fun i => some ⟨[values i]⟩) nodes r =
            ⟨r.fields ++ nodes.filterMap (jsonField values),
              r.keyVals ++ nodes.map (fun p => keyValOf p.2 (values p.1).pollText),
              r.accesses ++ accesses⟩ ∧
          ((∀ a ∈ accesses, a.WriteInside) ↔
            ∀ p ∈ nodes, p.2.aliasText.length + 1 + (values p.1).pollText.length < 32) := by
  induction nodes with
  | nil => exact fun r _ _ _ => ⟨[], by simp [pollNodes], by simp⟩
  | cons p nodes ih =>
    obtain ⟨i, d⟩ := p
    intro r hplain hnodup hnew
    obtain ⟨hfresh, hnodup⟩ := List.nodup_cons.mp hnodup
    obtain ⟨first, hnode, hfirst⟩ := pollNode_plain d (hplain _ List.mem_cons_self) r
      (hnew _ List.mem_cons_self)
    have hnew' : ∀ p ∈ nodes, p.2.aliasText ∉
        (r.fields ++ ((values i).json.map fun json => (d.aliasText, json)).toList).map
          Prod.fst := by
      intro p hp hin
      rw [List.map_append, List.mem_append] at hin
      obtain hin | hin := hin
      · exact hnew p (List.mem_cons_of_mem _ hp) hin
      · cases hjson : (values i).json with
        | none => simp [hjson] at hin
        | some json =>
          have heq : p.2.aliasText = d.aliasText := by simpa [hjson] using hin
          exact hfresh (List.mem_map.mpr ⟨p, hp, heq⟩)
    obtain ⟨rest, hnodes, hrest⟩ := ih
      ⟨r.fields ++ ((values i).json.map fun json => (d.aliasText, json)).toList,
        r.keyVals ++ [keyValOf d (values i).pollText], r.accesses ++ first⟩
      (fun p hp => hplain p (List.mem_cons_of_mem _ hp)) hnodup hnew'
    refine ⟨first ++ rest, ?_, ?_⟩
    · rw [pollNodes, hnode, hnodes]
      cases hjson : (values i).json with
      | none => simp [jsonField, hjson]
      | some json => simp [jsonField, hjson]
    · rw [List.forall_mem_append, List.forall_mem_cons, hfirst, hrest]

theorem filterMap_eq_map_iff {α β : Type} {f : α → Option β} {g : α → β} {l : List α} :
    l.filterMap f = l.map g ↔ ∀ a ∈ l, f a = some (g a) := by
  induction l with
  | nil => exact iff_of_true rfl nofun
  | cons a l ih =>
    rw [List.forall_mem_cons]
    cases hf : f a with
    | none =>
      refine iff_of_false (fun h => ?_) (fun h => nomatch h.1)
      rw [List.filterMap_cons_none hf] at h
      have hle := List.length_filterMap_le f l
      rw [h, List.length_map, List.length_cons] at hle
      omega
    | some b => rw [List.filterMap_cons_some hf, List.map_cons, List.cons.injEq, ih,
        Option.some.injEq]

theorem writeInside_append {l l' : List Access} :
    (∀ a ∈ l ++ l', a.WriteInside) ↔ (∀ a ∈ l, a.WriteInside) ∧ ∀ a ∈ l', a.WriteInside :=
  List.forall_mem_append

theorem time_inside (t : Int64) :
    (Access.write .pollTime (ascii "time=" ++ decimal t.toUInt64.toNat)).WriteInside := by
  have hdecimal := @length_decimal_le t.toUInt64.toNat 20 (by decide)
    (lt_of_lt_of_le t.toUInt64.toNat_lt (by decide))
  change (ascii "time=" ++ decimal t.toUInt64.toNat).length < 32
  rw [List.length_append, show (ascii "time=").length = 5 from rfl]
  omega

theorem publishTo_eq_nil {g : Group} {mode : Mode} {topic format keyVal : Text} {fields : Fields}
    {suffix : Transport → Text} :
    publishTo g mode topic format fields suffix keyVal = [] ↔ g.transports = [] :=
  List.map_eq_nil_iff

theorem publishTo_json_inj {g : Group} (hsends : g.transports ≠ []) {mode : Mode}
    {topic format keyVal keyVal' : Text} (hformat : getPayloadFormat format = .json)
    {fields fields' : Fields} {suffix : Transport → Text}
    (h : publishTo g mode topic format fields suffix keyVal =
      publishTo g mode topic format fields' suffix keyVal') : fields = fields' := by
  unfold publishTo at h
  rw [hformat] at h
  obtain ⟨transport, transports, hcons⟩ := List.exists_cons_of_ne_nil hsends
  rw [hcons, List.map_cons, List.map_cons, List.cons.injEq] at h
  cases h.1
  rfl

section

variable (texts : Buffer → Text) (g : Group) {topic : Text} (htopic : g.topic = some topic)
  (format : Text) (values : Nat → Scalar) (t : Int64)
  (hnodup : (g.nodes.map fun p => p.2.aliasText).Nodup)
  (htime : ∀ p ∈ g.nodes, p.2.aliasText ≠ ascii "time")
  (hplain : ∀ p ∈ g.nodes, (values p.1).Plain)

include htopic hnodup htime hplain

theorem opcuaPollGroup_plain :
    ∃ accesses,
      ((∀ a ∈ accesses, a.WriteInside) ↔ (groupTopic texts topic).length < 64 ∧
        ∀ p ∈ g.nodes, p.2.aliasText.length + 1 + (values p.1).pollText.length < 32) ∧
      opcuaPollGroup texts { g with format := some format } (fun i => some ⟨[values i]⟩) t =
        ⟨accesses,
          if g.nodes.filterMap (jsonField values) = [] then []
          else publishTo g .poll (groupTopic texts topic) format
            (g.nodes.filterMap (jsonField values) ++ [(ascii "time", .int t.toInt)]) lineBreak
            (joined (g.nodes.map (fun p => keyValOf p.2 (values p.1).pollText) ++
              [ascii "time=" ++ decimal t.toUInt64.toNat]))⟩ := by
  obtain ⟨accesses, hnodes, hinside⟩ := pollNodes_plain values g.nodes ⟨[], [], []⟩ hplain hnodup
    (fun _ _ => List.not_mem_nil)
  have hnew : ascii "time" ∉ (g.nodes.filterMap (jsonField values)).map Prod.fst := by
    intro hin
    obtain ⟨field, hfield, heq⟩ := List.mem_map.mp hin
    obtain ⟨p, hp, hjson⟩ := List.mem_filterMap.mp hfield
    obtain ⟨json, -, rfl⟩ := Option.map_eq_some_iff.mp hjson
    exact htime p hp heq
  have hbefore : (∀ a ∈ accesses ++ [.write .pollTopic (groupTopic texts topic)], a.WriteInside) ↔
      (groupTopic texts topic).length < 64 ∧
        ∀ p ∈ g.nodes, p.2.aliasText.length + 1 + (values p.1).pollText.length < 32 := by
    rw [writeInside_append, hinside, List.forall_mem_singleton, and_comm]
    exact Iff.rfl
  unfold opcuaPollGroup
  rw [hnodes, htopic]
  simp only [List.nil_append, readText, List.append_nil]
  split
  · exact ⟨_, hbefore, rfl⟩
  · refine ⟨_, ?_, by rw [addField_of_not_mem hnew]; rfl⟩
    rw [writeInside_append, hbefore, List.forall_mem_singleton]
    exact and_iff_left (time_inside t)

theorem exact_of_faithfulRound (hsends : g.transports ≠ [])
    (hformat : getPayloadFormat format = .json)
    (h : FaithfulRound texts g topic format values t) :
    (groupTopic texts topic).length < 64 ∧ ∀ p ∈ g.nodes, (values p.1).Exact ∧
      p.2.aliasText.length + 1 + (values p.1).denoted.text.length < 32 := by
  obtain ⟨accesses, hinside, hround⟩ :=
    opcuaPollGroup_plain texts g htopic format values t hnodup htime hplain
  obtain ⟨haccesses, hpublished⟩ := h
  rw [hround] at haccesses hpublished
  obtain ⟨hshort, hkeyVals⟩ := hinside.mp haccesses
  refine ⟨hshort, fun p hp => ?_⟩
  have hnodes : g.nodes ≠ [] := List.ne_nil_of_mem hp
  split at hpublished
  · exact absurd (publishTo_eq_nil.mp hpublished.symm) hsends
  · have hfields := List.append_cancel_right (publishTo_json_inj hsends hformat hpublished)
    have hfield := filterMap_eq_map_iff.mp hfields p hp
    obtain ⟨json, hjson, heq⟩ := Option.map_eq_some_iff.mp hfield
    have hexact := (json_eq_denoted_iff (hplain p hp)).mp
      (hjson.trans (congrArg some (Prod.mk.inj heq).2))
    refine ⟨hexact, ?_⟩
    rw [← (text_of_exact (hplain p hp) hexact).1]
    exact hkeyVals p hp

theorem faithfulRound_of_exact
    (h : (groupTopic texts topic).length < 64 ∧ ∀ p ∈ g.nodes, (values p.1).Exact ∧
      p.2.aliasText.length + 1 + (values p.1).denoted.text.length < 32) :
    FaithfulRound texts g topic format values t := by
  obtain ⟨accesses, hinside, hround⟩ :=
    opcuaPollGroup_plain texts g htopic format values t hnodup htime hplain
  have htext : ∀ p ∈ g.nodes, (values p.1).pollText = (values p.1).denoted.text :=
    fun p hp => (text_of_exact (hplain p hp) (h.2 p hp).1).1
  have hfields : g.nodes.filterMap (jsonField values) =
      g.nodes.map fun p => (p.2.aliasText, (values p.1).denoted) := by
    refine filterMap_eq_map_iff.mpr fun p hp => ?_
    rw [jsonField, (json_eq_denoted_iff (hplain p hp)).mpr (h.2 p hp).1]
    rfl
  unfold FaithfulRound
  rw [hround]
  refine ⟨hinside.mpr ⟨h.1, fun p hp => ?_⟩, ?_⟩
  · rw [htext p hp]
    exact (h.2 p hp).2
  · have hkeyVals : g.nodes.map (fun p => keyValOf p.2 (values p.1).pollText) =
        g.nodes.map fun p => keyValOf p.2 (values p.1).denoted.text :=
      List.map_congr_left fun p hp => by rw [htext p hp]
    dsimp only
    rw [hfields, hkeyVals]
    simp only [List.map_eq_nil_iff]
    rfl

end

def eventTopic (texts : Buffer → Text) (topic : Text) (d : Node) : Text :=
  groupTopic texts topic ++ ascii "/" ++ d.topic

theorem eventTopic_of_faithfulEvent {texts : Buffer → Text} {g : Group} {topic : Text}
    (htopic : g.topic = some topic) {format : Text} {d : Node} {value : Scalar} {t : Int64}
    (h : FaithfulEvent texts g topic format d value t) :
    (eventTopic texts topic d).length < 64 := by
  obtain ⟨haccesses, -⟩ := h
  have hin : .write .eventTopic (eventTopic texts topic d) ∈
      (callback texts { g with format := some format } d (some ⟨[value]⟩) t).accesses := by
    unfold callback
    dsimp only
    rw [htopic]
    split
    · simp [readText, eventTopic]
    · simp [readText, eventTopic]
  exact haccesses _ hin

theorem faithfulEvent_of_exact {texts : Buffer → Text} {g : Group} {topic : Text}
    (htopic : g.topic = some topic) (format : Text) {d : Node} {value : Scalar} (t : Int64)
    (htime : d.aliasText ≠ ascii "time") (hplain : value.Plain) (hexact : value.Exact)
    (hshort : d.aliasText.length + 1 + value.denoted.text.length < 32)
    (heventTopic : (eventTopic texts topic d).length < 64) :
    FaithfulEvent texts g topic format d value t := by
  obtain ⟨accesses, hentry, hinside⟩ := @switchEntry_eq .eventValue (fun n => decimal n.toNat) value
    hplain (by decide)
  have hjson := (json_eq_denoted_iff hplain).mpr hexact
  have htext : (value.text fun n => decimal n.toNat) = value.denoted.text :=
    (text_of_exact hplain hexact).2
  have hcallback : callbackEntry value =
    some ⟨some value.denoted, value.denoted.text, accesses⟩ := by
    rw [callbackEntry, hentry, hjson, htext]
  have hfields : addField (addField [] d.aliasText value.denoted) (ascii "time") (.int t.toInt) =
      [(d.aliasText, value.denoted), (ascii "time", .int t.toInt)] := by
    have hfirst : addField [] d.aliasText value.denoted = [(d.aliasText, value.denoted)] :=
      addField_of_not_mem List.not_mem_nil _
    rw [hfirst, addField_of_not_mem (by simpa using Ne.symm htime)]
    rfl
  have hlong : (signedDecimal t.toInt).length ≤ 20 :=
    @length_signedDecimal_le t.toInt 19 (by decide) (by
      have hlt := t.toInt_lt
      have hge := t.le_toInt
      omega)
  unfold FaithfulEvent callback
  dsimp only
  rw [hcallback, htopic]
  dsimp only [Option.getD_some, readText]
  rw [List.append_nil, List.append_nil, writeInside_append, writeInside_append, hinside, htext,
    List.forall_mem_singleton, List.forall_mem_singleton, hfields]
  refine ⟨⟨⟨?_, heventTopic⟩, ?_⟩, ?_⟩
  · change value.denoted.text.length < 32
    omega
  · change (ascii "time=" ++ signedDecimal t.toInt ++ ascii ", " ++ d.aliasText ++ ascii "=" ++
      value.denoted.text).length < 256
    simp only [List.length_append, show (ascii "time=").length = 5 from rfl,
      show (ascii ", ").length = 2 from rfl, show (ascii "=").length = 1 from rfl]
    omega
  · simp only [keyValOf, List.append_assoc]
    rfl

/-- In both formats a round and the events of a group publish exactly one entry for each node, which
denotes the plain value that is read, if and only if each value is printed as it is and is short
enough behind its alias, and the topics are short enough. -/
theorem published_iff (texts : Buffer → Text) (g : Group) {topic : Text}
    (htopic : g.topic = some topic) (hsends : g.transports ≠ []) (values : Nat → Scalar) (t : Int64)
    (hnodup : (g.nodes.map fun p => p.2.aliasText).Nodup)
    (htime : ∀ p ∈ g.nodes, p.2.aliasText ≠ ascii "time")
    (hplain : ∀ p ∈ g.nodes, (values p.1).Plain) :
    (∀ format, FaithfulRound texts g topic format values t ∧
        ∀ p ∈ g.nodes, FaithfulEvent texts g topic format p.2 (values p.1) t) ↔
      (groupTopic texts topic).length < 64 ∧ ∀ p ∈ g.nodes, (values p.1).Exact ∧
        p.2.aliasText.length + 1 + (values p.1).denoted.text.length < 32 ∧
        (eventTopic texts topic p.2).length < 64 := by
  constructor
  · intro h
    obtain ⟨hround, hevents⟩ := h (ascii "json")
    obtain ⟨hshort, hvalues⟩ := exact_of_faithfulRound texts g htopic (ascii "json") values t hnodup
      htime hplain hsends (by decide) hround
    refine ⟨hshort, fun p hp => ?_⟩
    exact ⟨(hvalues p hp).1, (hvalues p hp).2, eventTopic_of_faithfulEvent htopic (hevents p hp)⟩
  · rintro ⟨hshort, hvalues⟩ format
    refine ⟨faithfulRound_of_exact texts g htopic format values t hnodup htime hplain
      ⟨hshort, fun p hp => ⟨(hvalues p hp).1, (hvalues p hp).2.1⟩⟩, fun p hp => ?_⟩
    obtain ⟨hexact, htext, heventTopic⟩ := hvalues p hp
    exact faithfulEvent_of_exact htopic format t (htime p hp) (hplain p hp) hexact htext heventTopic

/-- A negative number is read from the node of the sensor. -/
theorem published_sensor :
    sensorGroup.topic = some (ascii "math") ∧
      ∀ format, FaithfulRound (fun _ => []) sensorGroup (ascii "math") format
          (fun _ => .int32 (-5)) 1000000 ∧
        ∀ p ∈ sensorGroup.nodes, FaithfulEvent (fun _ => []) sensorGroup (ascii "math") format p.2
          (.int32 (-5)) 1000000 :=
  ⟨rfl, (published_iff (fun _ => []) sensorGroup rfl (by decide) (fun _ => .int32 (-5)) 1000000
    (by decide) (by decide) (fun _ _ => trivial)).mpr
      ⟨by decide, fun p hp => by
        rw [List.mem_singleton.mp hp]
        exact ⟨trivial, by decide, by decide⟩⟩⟩

/-- The largest number of 32 bits is published as -1. -/
theorem unsigned_published_negative :
    (opcuaPollGroup (fun _ => []) sensorGroup (fun _ => some ⟨[.uint32 4294967295]⟩) 0).published =
        [⟨.mqtt, .poll, groupTopic (fun _ => []) (ascii "math"),
          .json [(ascii "min", .int (-1)), (ascii "time", .int 0)] []⟩] ∧
      ¬ ∀ format, FaithfulRound (fun _ => []) sensorGroup (ascii "math") format
        (fun _ => .uint32 4294967295) 0 := by
  refine ⟨by decide +kernel, fun h => ?_⟩
  exact absurd (h (ascii "json")).2 (by decide +kernel)

end FactoryThing.Bridge
