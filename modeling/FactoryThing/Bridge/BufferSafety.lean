import FactoryThing.Bridge.Monitoring

/-!
# Which texts fit into the buffers

The accesses of `load`, of `callback` and of `opcua_poll_group` stay inside their buffers exactly
for texts that are short enough and strings that are empty or contain a NUL: nothing in the program
looks at a length.
-/

namespace FactoryThing.Bridge

open FormattedText

variable (texts : Buffer → Text)

def AllInside (accesses : List Access) : Prop := ∀ a ∈ accesses, a.Inside

theorem allInside_nil : AllInside [] := nofun

theorem allInside_append {l l' : List Access} :
    AllInside (l ++ l') ↔ AllInside l ∧ AllInside l' := List.forall_mem_append

theorem allInside_cons {a : Access} {l : List Access} :
    AllInside (a :: l) ↔ a.Inside ∧ AllInside l := List.forall_mem_cons

theorem allInside_singleton {a : Access} : AllInside [a] ↔ a.Inside := List.forall_mem_singleton

theorem write_inside {buffer : Buffer} {text : Text} :
    (Access.write buffer text).Inside ↔ text.length < buffer.size := Iff.rfl

variable (c : JsonC)

/-- A text of the file is shorter than its field. -/
def ShortSetting (object : Json) (setting : String × Setting) : Prop :=
  match setting.2 with
  | .text field =>
      ∀ text, (object.get (ascii setting.1)).bind c.getString = some text →
        text.length < field.size
  | .number | .flag => True

/-- All texts of the objects of a section are shorter than their fields. -/
def ShortSection (json : Json) (key : String) (objects : List SettingsObject) : Prop :=
  ∀ o, json.get (ascii key) = some o → ∀ settings ∈ objects, ∀ object,
    o.get (ascii settings.key) = some object → ∀ setting ∈ settings.settings,
      ShortSetting c object setting

/-- The names of the folder and of the file are shorter than what they are copied to. -/
def ShortPaths (exe fn : Text) : Prop :=
  (folderOf exe).length < 128 ∧
    if fn.take 1 = ascii "/" then fn.length < 256
    else (folderOf exe).length + 1 + fn.length < 128

/-- All texts that `load` copies are shorter than their buffers. -/
def ShortConfiguration (exe fn : Text) (json : Json) : Prop :=
  ShortPaths exe fn ∧ ShortSection c json "device-configuration" deviceConfiguration ∧
    ShortSection c json "server-configuration" serverConfiguration

variable {c}

theorem allInside_copy {s : Settings} {buffer : Buffer} {text : Text} :
    AllInside (s.copy buffer text).accesses ↔ AllInside s.accesses ∧ text.length < buffer.size := by
  rw [Settings.copy, allInside_append, allInside_singleton, write_inside]

theorem loadSettings_inside (object : Json) (settings : List (String × Setting)) :
    ∀ {s s' : Settings}, loadSettings c object settings s = .ok s' →
      (AllInside s'.accesses ↔
        AllInside s.accesses ∧ ∀ setting ∈ settings, ShortSetting c object setting) := by
  induction settings with
  | nil =>
    intro s s' h
    cases h
    simp
  | cons setting settings ih =>
    obtain ⟨key, setting⟩ := setting
    intro s s' h
    rw [loadSettings] at h
    rw [List.forall_mem_cons, ShortSetting]
    cases hget : object.get (ascii key) with
    | none =>
      rw [hget] at h
      cases h
    | some v =>
      rw [hget] at h
      cases setting with
      | text field =>
        dsimp only at h ⊢
        unfold JsonC.needString at h
        cases hstring : c.getString v with
        | none =>
          rw [hstring] at h
          cases h
        | some text =>
          rw [hstring] at h
          rw [ih h, allInside_copy]
          simp [hstring, and_assoc]
      | number | flag => simp [ih h]

theorem loadObjects_inside (json : Json) (objects : List SettingsObject) :
    ∀ {s s' : Settings}, loadObjects c json objects s = .ok s' →
      (AllInside s'.accesses ↔
        AllInside s.accesses ∧ ∀ settings ∈ objects, ∀ object,
          json.get (ascii settings.key) = some object → ∀ setting ∈ settings.settings,
            ShortSetting c object setting) := by
  induction objects with
  | nil =>
    intro s s' h
    cases h
    simp
  | cons o objects ih =>
    intro s s' h
    rw [loadObjects] at h
    rw [List.forall_mem_cons]
    cases hget : json.get (ascii o.key) with
    | none =>
      rw [hget] at h
      cases h
    | some object =>
      rw [hget] at h
      dsimp only at h
      cases hsettings : loadSettings c object o.settings s with
      | error stop =>
        rw [hsettings] at h
        cases h
      | ok s₁ =>
        rw [hsettings] at h
        rw [ih h, loadSettings_inside object o.settings hsettings]
        simp [and_assoc]

theorem loadSection_inside {json : Json} {key : String} {objects : List SettingsObject}
    {s s' : Settings} (h : loadSection c json key objects s = .ok s') :
    AllInside s'.accesses ↔ AllInside s.accesses ∧ ShortSection c json key objects := by
  unfold loadSection at h
  unfold ShortSection
  cases hget : json.get (ascii key) with
  | none =>
    rw [hget] at h
    cases h
    simp
  | some o =>
    rw [hget] at h
    rw [loadObjects_inside o objects h]
    simp

theorem resolveFile_inside (exe fn : Text) (s : Settings) :
    AllInside (resolveFile exe fn s).accesses ↔ AllInside s.accesses ∧ ShortPaths exe fn := by
  unfold resolveFile ShortPaths
  dsimp only
  split
  · rw [allInside_copy, allInside_copy, and_assoc]
    rfl
  · rw [allInside_copy, allInside_copy, allInside_copy]
    have hlength : (folderOf exe ++ ascii "/" ++ fn).length =
        (folderOf exe).length + 1 + fn.length := by
      rw [List.length_append, List.length_append]
      rfl
    rw [hlength]
    simp only [Buffer.size]
    constructor
    · rintro ⟨⟨⟨h, h₁⟩, -⟩, h₂⟩
      exact ⟨h, h₁, h₂⟩
    · rintro ⟨h, h₁, h₂⟩
      exact ⟨⟨⟨h, h₁⟩, by omega⟩, h₂⟩

theorem load_inside {exe fn : Text} {json : Json} {cfg : Configuration}
    (h : load c exe fn (some json) = .ok cfg) :
    AllInside cfg.accesses ↔ ShortConfiguration c exe fn json := by
  unfold load at h
  dsimp only at h
  have hpaths := resolveFile_inside exe fn ⟨Function.update (fun _ => []) .configFile fn, []⟩
  generalize resolveFile exe fn ⟨Function.update (fun _ => []) .configFile fn, []⟩ = s₀ at h hpaths
  cases hdevice : loadSection c json "device-configuration" deviceConfiguration s₀ with
  | error stop =>
    rw [hdevice] at h
    cases h
  | ok s₁ =>
    rw [hdevice] at h
    cases hserver : loadSection c json "server-configuration" serverConfiguration s₁ with
    | error stop =>
      simp only [bind, Except.bind, hserver] at h
      cases h
    | ok s₂ =>
      simp only [bind, Except.bind, hserver] at h
      have haccesses : cfg.accesses = s₂.accesses := by
        split at h
        · cases h
        · split at h
          · cases h
          · cases h
            rfl
      rw [haccesses, loadSection_inside hserver, loadSection_inside hdevice, hpaths,
        ShortConfiguration, and_iff_right allInside_nil, and_assoc]

/-- The text of a value: digits, `%f`, or the string in quotes if it is not empty. -/
def Scalar.text (uint64Text : UInt64 → Text) : Scalar → Text
  | .boolean b => if b then ascii "true" else ascii "false"
  | .sByte n => signedDecimal n.toInt
  | .byte n => signedDecimal n.toNat
  | .int16 n => signedDecimal n.toInt
  | .uint16 n => signedDecimal n.toNat
  | .int32 n => signedDecimal n.toInt
  | .uint32 n => signedDecimal (wrap 32 n.toNat)
  | .int64 n => signedDecimal n.toInt
  | .uint64 n => uint64Text n
  | .float bits => fixedPoint (.ofBits 8 23 bits.toNat)
  | .double bits => fixedPoint (.ofBits 11 52 bits.toNat)
  | .string s => if s.bytes.length ≠ 0 then ascii "\"" ++ s.printed ++ ascii "\"" else []
  | .other => []

/-- The text of an event, which prints 64 unsigned bits as they are. -/
def Scalar.eventText : Scalar → Text := Scalar.text fun n => decimal n.toNat

/-- The text of a poll round, which takes them for a signed number. -/
def Scalar.pollText : Scalar → Text := Scalar.text fun n => signedDecimal (wrap 64 n.toNat)

/-- The value gets a JSON value: its type is supported and it is not the empty string. -/
def Scalar.hasEntry : Scalar → Bool
  | .string s => s.bytes.length ≠ 0
  | .other => false
  | _ => true

/-- A string is empty, or has a NUL among its bytes. -/
def Scalar.Readable : Scalar → Prop
  | .string s => s.bytes = [] ∨ 0 ∈ s.bytes
  | _ => True

theorem printing_inside (s : ReceivedString) : s.printing.Inside ↔ 0 ∈ s.bytes := by
  have hinside : s.printing.Inside ↔ s.printed.length + 1 ≤ s.bytes.length := Iff.rfl
  rw [hinside, ReceivedString.printed, upToNul]
  constructor
  · intro hlength
    by_contra hnul
    have hbytes : ∀ b ∈ s.bytes, decide (b ≠ 0) = true := by
      intro b hb
      simpa using ne_of_mem_of_not_mem hb hnul
    rw [List.takeWhile_append_of_pos hbytes, List.length_append] at hlength
    omega
  · intro hnul
    obtain ⟨before, after, hsplit⟩ := List.append_of_mem hnul
    rw [hsplit, List.append_assoc, List.takeWhile_append, List.length_append]
    have hle := (List.takeWhile_sublist (l := before) (p := fun b => decide (b ≠ 0))).length_le
    split
    · simp
    · simp only [List.length_cons]
      omega

theorem switchEntry_inside {value : Buffer} {uint64Text : UInt64 → Text} (scalar : Scalar)
    (hroom : 2 ≤ value.size) :
    AllInside ((switchEntry value uint64Text scalar).getD ⟨none, [], []⟩).accesses ↔
      scalar.Readable ∧ (scalar.text uint64Text).length < value.size := by
  cases scalar with
  | string s =>
    by_cases hlength : s.bytes.length ≠ 0
    · have hne : s.bytes ≠ [] := fun hnil => hlength (by rw [hnil]; rfl)
      have hquoted : (ascii "\"" ++ s.printed ++ ascii "\"").length = s.printed.length + 2 := by
        rw [List.length_append, List.length_append, Nat.add_right_comm, Nat.add_comm]
        rfl
      simp only [switchEntry, Scalar.text, Scalar.Readable, if_pos hlength, Option.getD_some,
        allInside_cons, printing_inside, hne, false_or, write_inside, hquoted]
      constructor
      · rintro ⟨hnul, -, -, h, -⟩
        exact ⟨hnul, h⟩
      · rintro ⟨hnul, h⟩
        exact ⟨hnul, by omega, hnul, h, allInside_nil⟩
    · have hnil : s.bytes = [] := List.length_eq_zero_iff.mp (not_not.mp hlength)
      have hentry : switchEntry value uint64Text (.string s) = some ⟨none, [], []⟩ :=
        if_neg hlength
      have htext : (Scalar.string s).text uint64Text = [] := if_neg hlength
      rw [hentry, htext]
      exact iff_of_true allInside_nil ⟨Or.inl hnil, (show 0 < value.size by omega)⟩
  | other =>
    refine iff_of_true allInside_nil ⟨trivial, ?_⟩
    exact (show 0 < value.size by omega)
  | _ =>
    simp only [switchEntry, Entry.plain, Option.getD_some, allInside_singleton, write_inside,
      Scalar.Readable, Scalar.text, true_and]

theorem switchEntry_entry (value : Buffer) (uint64Text : UInt64 → Text) (scalar : Scalar) :
    ((switchEntry value uint64Text scalar).getD ⟨none, [], []⟩).json.isSome = scalar.hasEntry ∧
      ((switchEntry value uint64Text scalar).getD ⟨none, [], []⟩).text =
        scalar.text uint64Text := by
  cases scalar with
  | string s =>
    by_cases hlength : s.bytes.length ≠ 0
    · simp [switchEntry, Scalar.hasEntry, Scalar.text, hlength]
    · simp [switchEntry, Scalar.hasEntry, Scalar.text, hlength]
  | _ => exact ⟨rfl, rfl⟩

theorem switchEntry_eq_none {value : Buffer} {uint64Text : UInt64 → Text} {scalar : Scalar} :
    switchEntry value uint64Text scalar = none ↔ scalar = .other := by
  cases scalar with
  | string s =>
    by_cases hlength : s.bytes.length ≠ 0
    · simp [switchEntry, hlength]
    · simp [switchEntry, hlength]
  | _ => simp [switchEntry]

/-! ## Events and rounds -/

theorem readText_inside {text : Option Text} : AllInside (readText text).2 ↔ text.isSome := by
  cases text with
  | none => exact iff_of_false (fun h => h .unset List.mem_cons_self) (by simp)
  | some text => exact iff_of_true allInside_nil rfl

theorem length_groupTopic (topic : Text) :
    (groupTopic texts topic).length =
      (texts .topicBase).length + (texts .deviceID).length + topic.length + 2 := by
  simp only [groupTopic, List.length_append, show (ascii "/").length = 1 from rfl]
  omega

/-- The value of an event has an element that can be read and fits, and so do the topic and, if
something is published, the payload. -/
def ShortEvent (texts : Buffer → Text) (g : Group) (d : Node) (data : Option Variant) (t : Int64) :
    Prop :=
  match data with
  | none => True
  | some ⟨[]⟩ => False
  | some ⟨scalar :: _⟩ =>
      (scalar.Readable ∧ scalar.eventText.length < 32) ∧
      (∃ topic, g.topic = some topic ∧ (texts .topicBase).length + (texts .deviceID).length +
        topic.length + d.topic.length + 3 < 64) ∧
      (scalar.hasEntry → g.format.isSome ∧
        8 + (signedDecimal t.toInt).length + d.aliasText.length + scalar.eventText.length < 256)

theorem callback_inside (g : Group) (d : Node) (data : Option Variant)
    (t : Int64) :
    AllInside (callback texts g d data t).accesses ↔ ShortEvent texts g d data t := by
  unfold callback ShortEvent
  cases data with
  | none => exact iff_of_true allInside_nil trivial
  | some val =>
    obtain ⟨elements⟩ := val
    cases elements with
    | nil => exact iff_of_false (fun h => h .unset List.mem_cons_self) id
    | cons scalar rest =>
      have hentry := @switchEntry_inside .eventValue (fun n => decimal n.toNat) scalar (by decide)
      obtain ⟨hjson, htext⟩ := switchEntry_entry .eventValue (fun n => decimal n.toNat) scalar
      have htopic : AllInside ((readText g.topic).2 ++
          [.write .eventTopic (groupTopic texts (readText g.topic).1 ++ ascii "/" ++ d.topic)]) ↔
          ∃ topic, g.topic = some topic ∧ (texts .topicBase).length + (texts .deviceID).length +
            topic.length + d.topic.length + 3 < 64 := by
        rw [allInside_append, readText_inside, allInside_singleton, write_inside]
        cases g.topic with
        | none => simp
        | some topic =>
          simp only [readText, List.length_append, length_groupTopic,
            show (ascii "/").length = 1 from rfl, Buffer.size, Option.isSome_some, true_and,
            Option.some.injEq, exists_eq_left']
          omega
      dsimp only
      change AllInside ((callbackEntry scalar).getD ⟨none, [], []⟩).accesses ↔ _ at hentry
      change ((callbackEntry scalar).getD ⟨none, [], []⟩).json.isSome = _ at hjson
      change ((callbackEntry scalar).getD ⟨none, [], []⟩).text = _ at htext
      generalize (callbackEntry scalar).getD ⟨none, [], []⟩ = entry at hentry hjson htext ⊢
      obtain ⟨json, text, accesses⟩ := entry
      dsimp only at hentry hjson htext ⊢
      subst htext
      have hbefore : AllInside (accesses ++ (readText g.topic).2 ++
          [.write .eventTopic (groupTopic texts (readText g.topic).1 ++ ascii "/" ++ d.topic)]) ↔
          (scalar.Readable ∧ scalar.eventText.length < 32) ∧ ∃ topic, g.topic = some topic ∧
            (texts .topicBase).length + (texts .deviceID).length + topic.length +
              d.topic.length + 3 < 64 := by
        rw [List.append_assoc, allInside_append, hentry, htopic]
        rfl
      rw [← hjson]
      cases json with
      | none =>
        dsimp only
        rw [hbefore]
        simp
      | some json =>
        have hpayload : (ascii "time=" ++ signedDecimal t.toInt ++ ascii ", " ++ d.aliasText ++
            ascii "=" ++ scalar.text fun n => decimal n.toNat).length =
              8 + (signedDecimal t.toInt).length + d.aliasText.length +
                scalar.eventText.length := by
          simp only [List.length_append, show (ascii "time=").length = 5 from rfl,
            show (ascii ", ").length = 2 from rfl, show (ascii "=").length = 1 from rfl,
            Scalar.eventText]
          omega
        dsimp only
        rw [allInside_append, allInside_append, hbefore, allInside_singleton, write_inside,
          hpayload, readText_inside]
        constructor
        · rintro ⟨⟨⟨hvalue, htopic'⟩, hlong⟩, hformat⟩
          exact ⟨hvalue, htopic', fun _ => ⟨hformat, hlong⟩⟩
        · rintro ⟨hvalue, htopic', hpublished⟩
          obtain ⟨hformat, hlong⟩ := hpublished rfl
          exact ⟨⟨⟨hvalue, htopic'⟩, hlong⟩, hformat⟩

/-- A node of a round has nothing to be printed, or its value can be read and fits behind its
alias. -/
def ShortRead (d : Node) (read : Option Variant) : Prop :=
  match read with
  | none => True
  | some ⟨[]⟩ => False
  | some ⟨scalar :: _⟩ =>
      scalar = .other ∨ scalar.Readable ∧ d.aliasText.length + 1 + scalar.pollText.length < 32

def readHasEntry : Option Variant → Bool
  | some ⟨scalar :: _⟩ => scalar.hasEntry
  | _ => false

theorem addField_ne_nil (fields : Fields) (key : Text) (value : JsonScalar) :
    addField fields key value ≠ [] := by
  unfold addField
  split
  · rename_i hin
    intro hnil
    rw [List.map_eq_nil_iff.mp hnil] at hin
    cases hin
  · simp

theorem pollNode_inside (d : Node) (read : Option Variant) (r : Round) :
    (AllInside (pollNode d read r).accesses ↔ AllInside r.accesses ∧ ShortRead d read) ∧
      ((pollNode d read r).fields = [] ↔ r.fields = [] ∧ readHasEntry read = false) := by
  unfold pollNode ShortRead readHasEntry
  cases read with
  | none => simp
  | some val =>
    obtain ⟨elements⟩ := val
    cases elements with
    | nil =>
      dsimp only
      rw [allInside_append, allInside_singleton, Access.Inside]
      simp
    | cons scalar rest =>
      dsimp only
      have hentry := @switchEntry_inside .pollValue
        (fun n => signedDecimal (wrap 64 n.toNat)) scalar (by decide)
      obtain ⟨hjson, htext⟩ := switchEntry_entry .pollValue
        (fun n => signedDecimal (wrap 64 n.toNat)) scalar
      have hnone := @switchEntry_eq_none .pollValue
        (fun n => signedDecimal (wrap 64 n.toNat)) scalar
      change AllInside ((pollEntry scalar).getD ⟨none, [], []⟩).accesses ↔ _ at hentry
      change ((pollEntry scalar).getD ⟨none, [], []⟩).json.isSome = _ at hjson
      change ((pollEntry scalar).getD ⟨none, [], []⟩).text = _ at htext
      change pollEntry scalar = none ↔ _ at hnone
      rw [← hnone, ← hjson]
      cases hcase : pollEntry scalar with
      | none => simp
      | some entry =>
        rw [hcase] at hentry htext
        obtain ⟨json, text, accesses⟩ := entry
        dsimp only [Option.getD_some] at hentry htext ⊢
        subst htext
        have hkeyVal : (d.aliasText ++ ascii "=" ++
            scalar.text fun n => signedDecimal (wrap 64 n.toNat)).length =
              d.aliasText.length + 1 + scalar.pollText.length := by
          simp only [List.length_append, show (ascii "=").length = 1 from rfl, Scalar.pollText]
        refine ⟨?_, ?_⟩
        · rw [allInside_append, allInside_append, hentry, allInside_singleton, write_inside,
            hkeyVal]
          simp only [Buffer.size, reduceCtorEq, false_or]
          constructor
          · rintro ⟨⟨hr, hreadable, -⟩, hlong⟩
            exact ⟨hr, hreadable, hlong⟩
          · rintro ⟨hr, hreadable, hlong⟩
            refine ⟨⟨hr, hreadable, ?_⟩, hlong⟩
            change scalar.pollText.length < 512
            omega
        · cases json with
          | none => simp
          | some json => simp [addField_ne_nil]

theorem pollNodes_inside (reads : Nat → Option Variant) (nodes : List (Nat × Node)) :
    ∀ r : Round, (AllInside (pollNodes reads nodes r).accesses ↔
        AllInside r.accesses ∧ ∀ p ∈ nodes, ShortRead p.2 (reads p.1)) ∧
      ((pollNodes reads nodes r).fields = [] ↔
        r.fields = [] ∧ ∀ p ∈ nodes, readHasEntry (reads p.1) = false) := by
  induction nodes with
  | nil => simp [pollNodes]
  | cons p nodes ih =>
    obtain ⟨i, d⟩ := p
    intro r
    obtain ⟨hinside, hfields⟩ := pollNode_inside d (reads i) r
    obtain ⟨hinside', hfields'⟩ := ih (pollNode d (reads i) r)
    rw [pollNodes, hinside', hfields', hinside, hfields]
    simp only [List.forall_mem_cons, and_assoc, and_self]

/-- The values of a round fit, the topic is set and fits, and the format is set if something is
published. -/
def ShortRound (texts : Buffer → Text) (g : Group) (reads : Nat → Option Variant) : Prop :=
  (∀ p ∈ g.nodes, ShortRead p.2 (reads p.1)) ∧
    (∃ topic, g.topic = some topic ∧
      (texts .topicBase).length + (texts .deviceID).length + topic.length + 2 < 64) ∧
    ((∃ p ∈ g.nodes, readHasEntry (reads p.1) = true) → g.format.isSome)

theorem opcuaPollGroup_inside (g : Group) (reads : Nat → Option Variant)
    (t : Int64) :
    AllInside (opcuaPollGroup texts g reads t).accesses ↔ ShortRound texts g reads := by
  obtain ⟨hinside, hfields⟩ := pollNodes_inside reads g.nodes ⟨[], [], []⟩
  rw [and_iff_right allInside_nil] at hinside
  rw [and_iff_right rfl] at hfields
  unfold opcuaPollGroup ShortRound
  dsimp only
  have htopic : AllInside ((pollNodes reads g.nodes ⟨[], [], []⟩).accesses ++
      (readText g.topic).2 ++ [.write .pollTopic (groupTopic texts (readText g.topic).1)]) ↔
      (∀ p ∈ g.nodes, ShortRead p.2 (reads p.1)) ∧ ∃ topic, g.topic = some topic ∧
        (texts .topicBase).length + (texts .deviceID).length + topic.length + 2 < 64 := by
    rw [allInside_append, allInside_append, hinside, readText_inside, allInside_singleton,
      write_inside, and_assoc]
    cases g.topic with
    | none => simp
    | some topic => simp [readText, length_groupTopic, Buffer.size]
  split
  · rename_i hnone
    have hquiet : ¬ ∃ p ∈ g.nodes, readHasEntry (reads p.1) = true := by
      rintro ⟨p, hp, hentry⟩
      rw [hfields.mp hnone p hp] at hentry
      cases hentry
    rw [htopic]
    simp [hquiet]
  · rename_i hsome
    have hentry : ∃ p ∈ g.nodes, readHasEntry (reads p.1) = true := by
      by_contra hquiet
      refine hsome (hfields.mpr fun p hp => ?_)
      exact Bool.eq_false_iff.mpr fun h => hquiet ⟨p, hp, h⟩
    have htime : (ascii "time=" ++ decimal t.toUInt64.toNat).length < Buffer.size .pollTime := by
      have hdecimal := @length_decimal_le t.toUInt64.toNat 20 (by decide)
        (lt_of_lt_of_le t.toUInt64.toNat_lt (by decide))
      rw [List.length_append, show (ascii "time=").length = 5 from rfl, Buffer.size]
      omega
    rw [allInside_append, allInside_append, htopic, allInside_singleton, write_inside,
      readText_inside, and_iff_left htime, and_assoc]
    simp [hentry]

/-- What happens is short enough for the buffers. -/
def Happening.Short (texts : Buffer → Text) : Happening → Prop
  | .event g d data t => ShortEvent texts g d data t
  | .round g reads _ => ShortRound texts g reads

theorem outcome_inside (h : Happening) :
    AllInside (h.outcome texts).accesses ↔ h.Short texts := by
  cases h with
  | event g d data t => exact callback_inside texts g d data t
  | round g reads t => exact opcuaPollGroup_inside texts g reads t

/-- After a load that comes to a good end, its accesses and those of all events and poll rounds stay
inside if and only if the texts of the file are shorter than their fields and everything that
happens is short enough. -/
theorem bridge_inside_iff (c : JsonC) (exe fn : Text) (json : Json) {cfg : Configuration}
    (hload : load c exe fn (some json) = .ok cfg) (happenings : List Happening) :
    (∀ a ∈ cfg.accesses ++ happenings.flatMap fun h => (h.outcome cfg.texts).accesses, a.Inside) ↔
      ShortConfiguration c exe fn json ∧ ∀ h ∈ happenings, h.Short cfg.texts := by
  rw [List.forall_mem_append]
  refine and_congr (load_inside hload) ?_
  constructor
  · intro hall h hin
    refine (outcome_inside cfg.texts h).mp fun a ha => ?_
    exact hall a (List.mem_flatMap.mpr ⟨h, hin, ha⟩)
  · intro hshort a ha
    obtain ⟨h, hin, ha⟩ := List.mem_flatMap.mp ha
    exact (outcome_inside cfg.texts h).mpr (hshort h hin) a ha

/-- The conversions as json-c makes them for values of their type. -/
def sampleC : JsonC where
  toJsonString _ := []
  getInt json := match json with
    | .int n => n
    | _ => 0
  getBoolean json := match json with
    | .boolean b => b
    | _ => false

/-- A configuration with a device and a group of one node. -/
def sensorConfiguration (deviceID : String) : Json :=
  .object
    [(ascii "device-configuration",
      .object [(ascii "Device", .object [(ascii "deviceID", .string (ascii deviceID))])]),
    (ascii "node-map", .array [.object
      [(ascii "name", .string (ascii "Math")), (ascii "method", .string (ascii "event")),
        (ascii "intervalUSec", .int 200), (ascii "topic", .string (ascii "math")),
        (ascii "format", .string (ascii "json")), (ascii "mqtt", .boolean true),
        (ascii "tcp", .boolean false), (ascii "nodes", .array [.object
          [(ascii "id", .string (ascii "ns=1;i=1456")), (ascii "topic", .string (ascii "min")),
            (ascii "alias", .string (ascii ""))]])]])]

def sensorNode : Node := ⟨ascii "ns=1;i=1456", ascii "min", ascii "min"⟩

def sensorGroup : Group :=
  ⟨ascii "Math", ascii "event", 200, some (ascii "math"), some (ascii "json"), true, none, false,
    none, [(0, sensorNode)]⟩

/-- The bridge in a folder, called with the name of a file next to it. -/
def loadSensor (deviceID : String) : Except Stop Configuration :=
  load sampleC (ascii "/opt/bridge") (ascii "c.json") (some (sensorConfiguration deviceID))

theorem bridge_inside_sensor :
    ∃ cfg, loadSensor "sensor0" = .ok cfg ∧ cfg.groups = [(0, sensorGroup)] ∧
      ∀ a ∈ cfg.accesses ++
        [Happening.event sensorGroup sensorNode (some ⟨[.int32 (-5)]⟩) 0].flatMap
        fun h => (h.outcome cfg.texts).accesses, a.Inside := by
  refine ⟨_, rfl, rfl, (bridge_inside_iff sampleC (ascii "/opt/bridge") (ascii "c.json")
    (sensorConfiguration "sensor0") rfl _).mpr ⟨⟨?_, ?_, ?_⟩, ?_⟩⟩
  · unfold ShortPaths
    decide
  · intro o ho settings hsettings object hobject setting hsetting
    cases ho
    cases List.mem_singleton.mp hsettings
    cases hobject
    cases List.mem_singleton.mp hsetting
    rintro text htext
    cases htext
    decide
  · intro o ho
    cases ho
  · intro h hin
    rw [List.mem_singleton.mp hin]
    exact ⟨⟨trivial, by decide⟩, ⟨ascii "math", rfl, by decide⟩, fun _ => ⟨rfl, by decide⟩⟩

/-- A string of two bytes is reported for the node: what is behind them is read. -/
theorem string_read_beyond :
    ∃ cfg, loadSensor "sensor0" = .ok cfg ∧ cfg.groups = [(0, sensorGroup)] ∧
      ¬ ∀ a ∈ (callback cfg.texts sensorGroup sensorNode
        (some ⟨[.string ⟨ascii "on", []⟩]⟩) 0).accesses, a.Inside := by
  refine ⟨_, rfl, rfl, fun h => ?_⟩
  exact absurd (h (.read 2 3) (by decide)) (by decide)

end FactoryThing.Bridge
