import FactoryThing.Bridge.Configuration

/-!
# Groups and their JSON objects

`make_group` (`mqtt/client-config.cpp:161-242`) with the value it returns, for objects whose members
have the types of `mqtt/config.json`. A member is taken for a field if its name is a prefix of the
name of the field, and the nodes of an array are read into one variable, so that an alias that is
left empty in front of its topic becomes the topic of the node before.
-/

namespace FactoryThing.Bridge

open FormattedText

variable {m : Text × MemberValue} {members : Members} {k : GroupKey} {items : List NodeObject}

inductive NodeKey where
  | id
  | topic
  | aliasText
  deriving DecidableEq

def NodeKey.name : NodeKey → String
  | id => "id"
  | topic => "topic"
  | aliasText => "alias"

/-- The field that a member is taken for. -/
def takenFor (name : Text) : Option NodeKey :=
  if isKey name "id" then some .id
  else if isKey name "topic" then some .topic
  else if isKey name "alias" then some .aliasText
  else none

/-- An object of the array of nodes: names and strings. -/
abbrev NodeObject := List (Text × List UInt8)

namespace NodeObject

def json (o : NodeObject) : Json := .object (o.map fun m => (m.1, .string m.2))

/-- The text of the member of just this name. -/
def member (o : NodeObject) (k : NodeKey) : Option Text :=
  (o.find? fun m => m.1 = ascii k.name).map fun m => upToNul m.2

/-- The node that an object describes. -/
def node (o : NodeObject) : Option Node := do
  let id ← o.member .id
  let topic ← o.member .topic
  let aliasText ← o.member .aliasText
  some ⟨id, topic, if aliasText = [] then topic else aliasText⟩

/-- The text of the last member that is taken for a field. -/
def lastTaken (k : NodeKey) : NodeObject → Option Text
  | [] => none
  | m :: o => (lastTaken k o).or (if takenFor m.1 = some k then some (upToNul m.2) else none)

/-- The last member that is taken for the alias: the members in front of it, and its text. -/
def lastAlias : NodeObject → Option (NodeObject × Text)
  | [] => none
  | m :: o =>
      match lastAlias o with
      | some (before, text) => some (m :: before, text)
      | none => if takenFor m.1 = some .aliasText then some ([], upToNul m.2) else none

/-- An alias, or what is there as a topic if it is empty: the last topic in front of it, or that of
the node before. -/
def aliasOr (previous : Option Text) (before : NodeObject) (text : Text) : Option Text :=
  if text = [] then (lastTaken .topic before).or previous else some text

/-- Where an alias is empty there is a topic. -/
def DefaultsSet (previous : Option Text) (o : NodeObject) : Prop :=
  ∀ before m after, o = before ++ m :: after → takenFor m.1 = some .aliasText →
    (aliasOr previous before (upToNul m.2)).isSome = true

/-- The members that are taken for the fields have the texts of the members of these names. -/
structure Right (previous : Option Text) (o : NodeObject) (n : Node) : Prop where
  defaults : DefaultsSet previous o
  id : lastTaken .id o = some n.id
  topic : lastTaken .topic o = some n.topic
  aliasText : ∃ before text, lastAlias o = some (before, text) ∧
    aliasOr previous before text = some n.aliasText

end NodeObject

open NodeObject

variable {c : JsonC} {n n' : PartialNode} {o : NodeObject} {previous : Option Text}

/-- The branch of the loop for a key of a node. -/
def setNodeField : NodeKey → Text → PartialNode → Except Stop PartialNode
  | .id, text, n => .ok { n with id := some text }
  | .topic, text, n => .ok { n with topic := some text }
  | .aliasText, text, n =>
      if text.length = 0 then do
        let topic ← needSet n.topic
        .ok { n with aliasText := some topic }
      else .ok { n with aliasText := some text }

theorem makeNode_cons (c : JsonC) (m : Text × List UInt8) (o : NodeObject) (n : PartialNode) :
    makeNode c ((m :: o).map fun m => (m.1, .string m.2)) n =
      match takenFor m.1 with
      | none => makeNode c (o.map fun m => (m.1, .string m.2)) n
      | some k => setNodeField k (upToNul m.2) n >>= makeNode c (o.map fun m =>
          (m.1, .string m.2)) := by
  rw [List.map_cons, makeNode]
  unfold takenFor
  by_cases hid : isKey m.1 "id" = true
  · rw [if_pos hid, if_pos hid]
    rfl
  rw [if_neg hid, if_neg hid]
  by_cases htopic : isKey m.1 "topic" = true
  · rw [if_pos htopic, if_pos htopic]
    rfl
  rw [if_neg htopic, if_neg htopic]
  by_cases halias : isKey m.1 "alias" = true
  · rw [if_pos halias, if_pos halias]
    show (if (upToNul m.2).length = 0 then _ else _) = _
    unfold setNodeField
    dsimp only
    split
    · cases n.topic <;> rfl
    · rfl
  · rw [if_neg halias, if_neg halias]

/-- The node after the members of an object. -/
def afterObject (o : NodeObject) (n : PartialNode) : PartialNode where
  id := (lastTaken .id o).or n.id
  topic := (lastTaken .topic o).or n.topic
  aliasText :=
    match lastAlias o with
    | none => n.aliasText
    | some (before, text) => aliasOr n.topic before text

/-- What is there as a topic behind a member. -/
def topicAfter (previous : Option Text) (m : Text × List UInt8) : Option Text :=
  (if takenFor m.1 = some .topic then some (upToNul m.2) else none).or previous

theorem aliasOr_cons (previous : Option Text) (m : Text × List UInt8) (before : NodeObject)
    (text : Text) : aliasOr previous (m :: before) text =
    aliasOr (topicAfter previous m) before text := by
  unfold aliasOr topicAfter
  rw [lastTaken, Option.or_assoc]

theorem defaultsSet_cons (previous : Option Text) (m : Text × List UInt8) (o : NodeObject) :
    DefaultsSet previous (m :: o) ↔
      (takenFor m.1 = some .aliasText → (aliasOr previous [] (upToNul m.2)).isSome = true) ∧
        DefaultsSet (topicAfter previous m) o := by
  constructor
  · intro h
    refine ⟨h [] m o rfl, fun before m' after ho htaken => ?_⟩
    rw [← aliasOr_cons]
    exact h (m :: before) m' after (by rw [ho, List.cons_append]) htaken
  · rintro ⟨hfirst, hrest⟩ before m' after ho htaken
    cases before with
    | nil =>
      cases ho
      exact hfirst htaken
    | cons m'' before =>
      cases ho
      rw [aliasOr_cons]
      exact hrest before m' after rfl htaken

theorem afterObject_cons (m : Text × List UInt8) (o : NodeObject) (n : PartialNode) :
    afterObject (m :: o) n =
      match takenFor m.1 with
      | none => afterObject o n
      | some .id => afterObject o { n with id := some (upToNul m.2) }
      | some .topic => afterObject o { n with topic := some (upToNul m.2) }
      | some .aliasText =>
          afterObject o { n with aliasText := aliasOr n.topic [] (upToNul m.2) } := by
  have halias : ∀ {before text}, aliasOr n.topic (m :: before) text =
      aliasOr (topicAfter n.topic m) before text := aliasOr_cons _ _ _ _
  unfold topicAfter at halias
  unfold afterObject
  rw [lastTaken, lastTaken, lastAlias]
  cases htaken : takenFor m.1 with
  | none =>
    rw [htaken] at halias
    cases lastAlias o <;> simp [halias]
  | some k =>
    rw [htaken] at halias
    cases k <;> cases lastAlias o <;> simp [halias]

theorem setNodeField_aliasText (text : Text) (n : PartialNode) :
    setNodeField .aliasText text n =
      match aliasOr n.topic [] text with
      | none => .error .undefined
      | some aliasText => .ok { n with aliasText := some aliasText } := by
  have hif : setNodeField .aliasText text n =
      if text.length = 0 then needSet n.topic >>= fun topic =>
        .ok { n with aliasText := some topic }
      else .ok { n with aliasText := some text } := rfl
  rw [hif]
  unfold aliasOr
  by_cases hempty : text = []
  · rw [if_pos hempty, if_pos (List.length_eq_zero_iff.mpr hempty)]
    cases n.topic <;> rfl
  · rw [if_neg hempty, if_neg (mt List.length_eq_zero_iff.mp hempty)]

theorem makeNode_of_defaultsSet (h : DefaultsSet n.topic o) :
    makeNode c (o.map fun m => (m.1, .string m.2)) n = .ok (afterObject o n) := by
  induction o generalizing n with
  | nil => rfl
  | cons m o ih =>
    rw [defaultsSet_cons] at h
    obtain ⟨hfirst, hrest⟩ := h
    rw [makeNode_cons, afterObject_cons]
    unfold topicAfter at hrest
    cases htaken : takenFor m.1 with
    | none =>
      rw [htaken] at hrest
      exact ih hrest
    | some k =>
      rw [htaken] at hrest
      cases k with
      | id | topic => exact ih hrest
      | aliasText =>
        obtain ⟨aliasText, halias⟩ := Option.isSome_iff_exists.mp (hfirst htaken)
        dsimp only
        rw [setNodeField_aliasText, halias]
        exact ih hrest

theorem makeNode_of_not_defaultsSet (h : ¬ DefaultsSet n.topic o) :
    makeNode c (o.map fun m => (m.1, .string m.2)) n = .error .undefined := by
  induction o generalizing n with
  | nil => exact absurd (by rintro (_ | _) <;> exact nofun) h
  | cons m o ih =>
    rw [defaultsSet_cons, not_and] at h
    rw [makeNode_cons]
    unfold topicAfter at h
    cases htaken : takenFor m.1 with
    | none =>
      rw [htaken] at h
      exact ih (h nofun)
    | some k =>
      rw [htaken] at h
      cases k with
      | id | topic => exact ih (h nofun)
      | aliasText =>
        dsimp only
        rw [setNodeField_aliasText]
        cases halias : aliasOr n.topic [] (upToNul m.2) with
        | none => rfl
        | some aliasText => exact ih (h fun _ => by rw [halias]; rfl)

theorem takenFor_name (k : NodeKey) : takenFor (ascii k.name) = some k := by
  cases k <;> decide

theorem lastTaken_isSome {k : NodeKey} {m : Text × List UInt8} (hm : m ∈ o)
    (htaken : takenFor m.1 = some k) : (lastTaken k o).isSome = true := by
  induction o with
  | nil => cases hm
  | cons m' o ih =>
    rw [lastTaken, Option.isSome_or, Bool.or_eq_true]
    obtain rfl | hm := List.mem_cons.mp hm
    · exact Or.inr (by rw [if_pos htaken]; rfl)
    · exact Or.inl (ih hm)

theorem lastAlias_isSome {m : Text × List UInt8} (hm : m ∈ o)
    (htaken : takenFor m.1 = some .aliasText) : (lastAlias o).isSome = true := by
  induction o with
  | nil => cases hm
  | cons m' o ih =>
    rw [lastAlias]
    cases hlast : lastAlias o with
    | some last => rfl
    | none =>
      obtain rfl | hm := List.mem_cons.mp hm
      · rw [if_pos htaken]
        rfl
      · have hsome := ih hm
        rw [hlast] at hsome
        cases hsome

theorem exists_of_member {k : NodeKey} {text : Text} (h : NodeObject.member o k = some text) :
    ∃ m ∈ o, takenFor m.1 = some k := by
  obtain ⟨m, hfind, -⟩ := Option.map_eq_some_iff.mp h
  have hname := List.find?_some hfind
  refine ⟨m, List.mem_of_find?_eq_some hfind, ?_⟩
  rw [of_decide_eq_true hname]
  exact takenFor_name k

theorem afterObject_eq_iff {d : Node} (hd : NodeObject.node o = some d) (n : PartialNode) :
    afterObject o n = ⟨some d.id, some d.topic, some d.aliasText⟩ ↔
      lastTaken .id o = some d.id ∧ lastTaken .topic o = some d.topic ∧
        ∃ before text, lastAlias o = some (before, text) ∧
          aliasOr n.topic before text = some d.aliasText := by
  obtain ⟨id, hid, hd⟩ := Option.bind_eq_some_iff.mp hd
  obtain ⟨topic, htopic, hd⟩ := Option.bind_eq_some_iff.mp hd
  obtain ⟨aliasText, halias, -⟩ := Option.bind_eq_some_iff.mp hd
  have htaken : ∀ {k text}, NodeObject.member o k = some text → ∀ previous : Option Text,
      (lastTaken k o).or previous = lastTaken k o := by
    intro k text hmember previous
    obtain ⟨m, hm, hkey⟩ := exists_of_member hmember
    obtain ⟨t, ht⟩ := Option.isSome_iff_exists.mp (lastTaken_isSome hm hkey)
    rw [ht, Option.some_or]
  obtain ⟨m, hm, hkey⟩ := exists_of_member halias
  obtain ⟨⟨before, text⟩, hlast⟩ := Option.isSome_iff_exists.mp (lastAlias_isSome hm hkey)
  unfold afterObject
  rw [htaken hid, htaken htopic, hlast, PartialNode.mk.injEq]
  refine and_congr_right' (and_congr_right' ⟨fun h => ⟨before, text, rfl, h⟩, ?_⟩)
  rintro ⟨_, _, ⟨⟩, h⟩
  exact h

/-- Each object describes its node, the first one with nothing in front of it. -/
def NodesRight : Option Text → List NodeObject → Prop
  | _, [] => True
  | previous, o :: items =>
      ∃ d, NodeObject.node o = some d ∧ Right previous o d ∧ NodesRight (some d.topic) items

/-- The entries of a map, from an index on, are the nodes of the objects. -/
def Describes (i : Nat) (items : List NodeObject) (entries : List (Nat × Node)) : Prop :=
  (items.zipIdx i).map (fun p => (p.2, NodeObject.node p.1)) = entries.map fun e => (e.1, some e.2)

theorem insertNew_of_fresh {nodes : List (Nat × Node)} {i : Nat} (hfresh : ∀ e ∈ nodes, e.1 < i)
    (d : Node) : insertNew nodes i d = nodes ++ [(i, d)] := by
  unfold insertNew
  rw [if_neg]
  rw [List.any_eq_true]
  rintro ⟨e, he, heq⟩
  exact Nat.ne_of_lt (hfresh e he) (of_decide_eq_true heq)

theorem prefix_insertNew {α : Type} (l : List (Nat × α)) (i : Nat) (a : α) :
    l <+: insertNew l i a := by
  unfold insertNew
  split
  · exact List.prefix_refl l
  · exact List.prefix_append l _

theorem makeNodes_cons (c : JsonC) (i : Nat) (o : NodeObject) (items : List Json) (n : PartialNode)
    (nodes : List (Nat × Node)) :
    makeNodes c i (o.json :: items) n nodes = (do
      let n ← makeNode c (o.map fun m => (m.1, .string m.2)) n
      let id ← needSet n.id
      let topic ← needSet n.topic
      let aliasText ← needSet n.aliasText
      makeNodes c (i + 1) items n (insertNew nodes i ⟨id, topic, aliasText⟩)) := rfl

theorem except_bind_ok {ε α β : Type} {x : Except ε α} {f : α → Except ε β} {b : β} :
    (x >>= f) = .ok b ↔ ∃ a, x = .ok a ∧ f a = .ok b := by
  cases x with
  | error e => exact iff_of_false nofun fun ⟨_, h, _⟩ => nomatch h
  | ok a => exact ⟨fun h => ⟨a, rfl, h⟩, fun ⟨_, rfl, h⟩ => h⟩

theorem needSet_ok {α : Type} {x : Option α} {a : α} : needSet x = .ok a ↔ x = some a := by
  cases x with
  | none => exact iff_of_false nofun nofun
  | some b => exact ⟨fun h => by cases h; rfl, fun h => by cases h; rfl⟩

theorem makeNodes_cons_ok {i : Nat} {items : List Json} {nodes entries : List (Nat × Node)} :
    makeNodes c i (o.json :: items) n nodes = .ok entries ↔
      DefaultsSet n.topic o ∧
        ∃ d : Node, afterObject o n = ⟨some d.id, some d.topic, some d.aliasText⟩ ∧
          makeNodes c (i + 1) items ⟨some d.id, some d.topic, some d.aliasText⟩
            (insertNew nodes i d) = .ok entries := by
  by_cases hdefaults : DefaultsSet n.topic o
  · rw [makeNodes_cons, makeNode_of_defaultsSet hdefaults]
    show (needSet (afterObject o n).id >>= _) = _ ↔ _
    simp only [except_bind_ok, needSet_ok]
    constructor
    · rintro ⟨id, hid, topic, htopic, aliasText, halias, hrest⟩
      have hafter : afterObject o n = ⟨some id, some topic, some aliasText⟩ := by
        rw [← hid, ← htopic, ← halias]
      refine ⟨hdefaults, ⟨id, topic, aliasText⟩, hafter, ?_⟩
      rw [← hafter]
      exact hrest
    · rintro ⟨-, d, hafter, hrest⟩
      rw [hafter]
      exact ⟨d.id, rfl, d.topic, rfl, d.aliasText, rfl, hrest⟩
  · rw [makeNodes_cons, makeNode_of_not_defaultsSet hdefaults]
    exact iff_of_false nofun fun h => hdefaults h.1

theorem prefix_of_makeNodes {i : Nat} {nodes entries : List (Nat × Node)}
    (h : makeNodes c i (items.map NodeObject.json) n nodes = .ok entries) : nodes <+: entries := by
  induction items generalizing i n nodes with
  | nil =>
    cases h
    exact List.prefix_refl _
  | cons o items ih =>
    rw [List.map_cons, makeNodes_cons_ok] at h
    obtain ⟨-, d, -, hrest⟩ := h
    exact (prefix_insertNew nodes i d).trans (ih hrest)

theorem describes_cons {i : Nat} {entry : Nat × Node}
    {entries : List (Nat × Node)} :
    Describes i (o :: items) (entry :: entries) ↔
      (entry.1 = i ∧ NodeObject.node o = some entry.2) ∧ Describes (i + 1) items entries := by
  unfold Describes
  rw [List.zipIdx_cons, List.map_cons, List.map_cons, List.cons.injEq, Prod.mk.injEq]
  exact and_congr_left' (and_congr_left' eq_comm)

theorem makeNodes_iff {i : Nat} {nodes : List (Nat × Node)}
    (hfresh : ∀ e ∈ nodes, e.1 < i) :
    (∃ entries, makeNodes c i (items.map NodeObject.json) n nodes = .ok (nodes ++ entries) ∧
        Describes i items entries) ↔ NodesRight n.topic items := by
  induction items generalizing i n nodes with
  | nil => exact iff_of_true ⟨[], by rw [List.append_nil]; rfl, rfl⟩ trivial
  | cons o items ih =>
    have hfresh' : ∀ d : Node, ∀ e ∈ nodes ++ [(i, d)], e.1 < i + 1 := by
      intro d e he
      obtain he | he := List.mem_append.mp he
      · exact Nat.lt_succ_of_lt (hfresh e he)
      · rw [List.mem_singleton.mp he]
        exact Nat.lt_succ_self i
    constructor
    · rintro ⟨entries, hmake, hdescribes⟩
      rw [List.map_cons, makeNodes_cons_ok] at hmake
      obtain ⟨hdefaults, d, hafter, hrest⟩ := hmake
      rw [insertNew_of_fresh hfresh] at hrest
      obtain ⟨rest, happend⟩ := prefix_of_makeNodes hrest
      rw [List.append_assoc] at happend
      obtain rfl : entries = (i, d) :: rest := (List.append_cancel_left happend).symm
      obtain ⟨⟨-, hnode⟩, hdescribes⟩ := describes_cons.mp hdescribes
      obtain ⟨hid, htopic, halias⟩ := (afterObject_eq_iff hnode n).mp hafter
      rw [List.append_cons nodes (i, d) rest] at hrest
      exact ⟨d, hnode, ⟨hdefaults, hid, htopic, halias⟩,
        (ih (n := ⟨some d.id, some d.topic, some d.aliasText⟩) (hfresh' d)).mp
          ⟨rest, hrest, hdescribes⟩⟩
    · rintro ⟨d, hnode, hright, hnodes⟩
      obtain ⟨rest, hrest, hdescribes⟩ :=
        (ih (n := ⟨some d.id, some d.topic, some d.aliasText⟩) (hfresh' d)).mpr hnodes
      refine ⟨(i, d) :: rest, ?_, describes_cons.mpr ⟨⟨rfl, hnode⟩, hdescribes⟩⟩
      rw [List.map_cons, makeNodes_cons_ok]
      refine ⟨hright.defaults, d, (afterObject_eq_iff hnode n).mpr
        ⟨hright.id, hright.topic, hright.aliasText⟩, ?_⟩
      rw [insertNew_of_fresh hfresh, List.append_cons nodes (i, d) rest]
      exact hrest

/-- The keys of a group. -/
inductive GroupKey where
  | name
  | method
  | intervalUSec
  | topic
  | format
  | mqtt
  | amqp
  | tcp
  | enable
  | nodes
  deriving DecidableEq

namespace GroupKey

def all : List GroupKey :=
  [name, method, intervalUSec, topic, format, mqtt, amqp, tcp, enable, nodes]

/-- The keys as they stand in the file. -/
def text : GroupKey → String
  | name => "name"
  | method => "method"
  | intervalUSec => "intervalUSec"
  | topic => "topic"
  | format => "format"
  | mqtt => "mqtt"
  | amqp => "amqp"
  | tcp => "tcp"
  | enable => "enable"
  | nodes => "nodes"

end GroupKey

/-- The field that a member is taken for. -/
def matchedKey (key : Text) : Option GroupKey := GroupKey.all.find? fun k => isKey key k.text

def known (key : Text) : Bool := GroupKey.all.any fun k => key = ascii k.text

inductive MemberValue where
  | string (bytes : List UInt8)
  | int (n : Int)
  | boolean (b : Bool)
  | nodes (items : List NodeObject)

def MemberValue.json : MemberValue → Json
  | string bytes => .string bytes
  | int n => .int n
  | boolean b => .boolean b
  | nodes items => .array (items.map NodeObject.json)

/-- The type that a member has in the configuration. -/
def GroupKey.Admits : GroupKey → MemberValue → Prop
  | .name, .string _ | .method, .string _ | .topic, .string _ | .format, .string _ => True
  | .intervalUSec, .int _ => True
  | .mqtt, .boolean _ | .amqp, .boolean _ | .tcp, .boolean _ | .enable, .boolean _ => True
  | .nodes, .nodes _ => True
  | _, _ => False

/-- An object of the array of groups. Other names than those of the fields go with any of the
types. -/
structure GroupObject where
  members : List (Text × MemberValue)
  distinct : (members.map Prod.fst).Nodup
  typed : ∀ m ∈ members, ∀ k : GroupKey, m.1 = ascii k.text → k.Admits m.2

/-- What a call comes to: the group, the names of the members that a field has been set from, and
the value that is returned. -/
structure GroupRun where
  group : PartialGroup
  sources : List Text
  status : Int

/-- The branch of the loop for a key of a group. -/
def setField (c : JsonC) (k : GroupKey) (val : Json) (g : PartialGroup) :
    Except Stop PartialGroup :=
  match k with
  | .name => do
      let text ← c.needString val
      .ok { g with name := some text }
  | .method => do
      let text ← c.needString val
      .ok { g with method := some text }
  | .intervalUSec => .ok { g with intervalUSec := some (c.getInt val) }
  | .topic => do
      let text ← c.needString val
      .ok { g with topic := some text }
  | .format => do
      let text ← c.needString val
      .ok { g with format := some text }
  | .mqtt => .ok { g with mqtt := some (c.getBoolean val) }
  | .amqp => .ok { g with amqp := some (c.getBoolean val) }
  | .tcp => .ok { g with tcp := some (c.getBoolean val) }
  | .enable => .ok { g with enable := some (c.getBoolean val) }
  | .nodes =>
      match val with
      | .array items => do
          let nodes ← makeNodes c 0 items ⟨none, none, none⟩ g.nodes
          .ok { g with nodes := nodes }
      | _ => .ok g

/-- `make_group` (`:161-242`) with the value that it returns. -/
def makeGroupRun (c : JsonC) : List (Text × Json) → PartialGroup → Except Stop GroupRun
  | [], g => .ok ⟨g, [], 0⟩
  | (key, val) :: fields, g =>
      match matchedKey key with
      | none => .ok ⟨g, [], -1⟩
      | some k => do
          let g ← setField c k val g
          let run ← makeGroupRun c fields g
          .ok { run with sources := key :: run.sources }

theorem makeGroup_eq (c : JsonC) (fields : List (Text × Json)) (g : PartialGroup) :
    makeGroup c fields g = (makeGroupRun c fields g).map GroupRun.group := by
  induction fields generalizing g with
  | nil => rfl
  | cons field fields ih =>
    obtain ⟨key, val⟩ := field
    have hrest : ∀ g, makeGroup c fields g =
        ((makeGroupRun c fields g >>= fun run =>
          .ok { run with sources := key :: run.sources }).map GroupRun.group) := by
      intro g
      rw [ih g]
      cases makeGroupRun c fields g <;> rfl
    have hnodes : (match val with
        | .array items => makeNodes c 0 items ⟨none, none, none⟩ g.nodes >>= fun nodes =>
            makeGroup c fields { g with nodes := nodes }
        | _ => makeGroup c fields g) =
          ((setField c .nodes val g >>= fun g => makeGroupRun c fields g >>= fun run =>
              .ok { run with sources := key :: run.sources }).map GroupRun.group) := by
      cases val with
      | array items =>
        show _ = (((makeNodes c 0 items ⟨none, none, none⟩ g.nodes >>= fun nodes => .ok _) >>=
          _ : Except Stop GroupRun).map _)
        dsimp only
        cases makeNodes c 0 items ⟨none, none, none⟩ g.nodes with
        | error e => rfl
        | ok nodes => exact hrest _
      | _ => exact hrest g
    have htext : ∀ set : Text → PartialGroup,
        (c.needString val >>= fun text => makeGroup c fields (set text)) =
          (((c.needString val >>= fun text => .ok (set text)) >>= fun g =>
            makeGroupRun c fields g >>= fun run =>
              .ok { run with sources := key :: run.sources }).map GroupRun.group) := by
      intro set
      cases c.needString val with
      | error e => rfl
      | ok text => exact hrest (set text)
    unfold makeGroup makeGroupRun matchedKey
    simp only [GroupKey.all, List.find?_cons, GroupKey.text, List.find?_nil]
    cases isKey key "name" with
    | true => exact htext _
    | false =>
    cases isKey key "method" with
    | true => exact htext _
    | false =>
    cases isKey key "intervalUSec" with
    | true => exact hrest _
    | false =>
    cases isKey key "topic" with
    | true => exact htext _
    | false =>
    cases isKey key "format" with
    | true => exact htext _
    | false =>
    cases isKey key "mqtt" with
    | true => exact hrest _
    | false =>
    cases isKey key "amqp" with
    | true => exact hrest _
    | false =>
    cases isKey key "tcp" with
    | true => exact hrest _
    | false =>
    cases isKey key "enable" with
    | true => exact hrest _
    | false =>
    cases isKey key "nodes" with
    | true => exact hnodes
    | false => rfl

/-! ### What an object says -/

inductive FieldValue where
  | text (t : Text)
  | number (n : Int)
  | flag (b : Bool)

/-- What a group has in a field, if it is set. -/
def PartialGroup.field (g : PartialGroup) : GroupKey → Option FieldValue
  | .name => g.name.map .text
  | .method => g.method.map .text
  | .intervalUSec => g.intervalUSec.map .number
  | .topic => g.topic.map .text
  | .format => g.format.map .text
  | .mqtt => g.mqtt.map .flag
  | .amqp => g.amqp.map .flag
  | .tcp => g.tcp.map .flag
  | .enable => g.enable.map .flag
  | .nodes => none

/-- What a member of an object puts into its field. -/
def MemberValue.field (c : JsonC) : MemberValue → Option FieldValue
  | string bytes => some (.text (upToNul bytes))
  | int n => some (.number (c.getInt (.int n)))
  | boolean b => some (.flag (c.getBoolean (.boolean b)))
  | nodes _ => none

abbrev Members := List (Text × MemberValue)

/-- The member of just the name of a field. -/
def memberOf (k : GroupKey) (members : Members) : Option MemberValue :=
  (members.find? fun m => m.1 = ascii k.text).map Prod.snd

def nodesOf (members : Members) : List NodeObject :=
  match memberOf .nodes members with
  | some (.nodes items) => items
  | _ => []

def Members.fields (members : Members) : List (Text × Json) := members.map fun m => (m.1, m.2.json)

def unsetGroup : PartialGroup := ⟨none, none, none, none, none, none, none, none, none, []⟩

/-- The group is what the members of the names of its fields say, the nodes are those of the objects
of the array, and with another member -1 is returned. -/
def Faithful (c : JsonC) (members : Members) : Prop :=
  ∃ run, makeGroupRun c (Members.fields members) unsetGroup = .ok run ∧
    run.status = (if members.all fun m => known m.1 then 0 else -1) ∧
    run.sources = (members.map Prod.fst).filter known ∧
    (∀ k, run.group.field k = (memberOf k members).bind (MemberValue.field c)) ∧
    Describes 0 (nodesOf members) run.group.nodes

/-- The members in front of the first one that is taken for no field. -/
def reached (members : Members) : Members := members.takeWhile fun m => (matchedKey m.1).isSome

def behind (members : Members) : Members := members.dropWhile fun m => (matchedKey m.1).isSome

/-- What is reached has the names of fields, what is behind has none of them, and the nodes are
right. -/
structure WellNamed (members : Members) : Prop where
  reached : ∀ m ∈ reached members, known m.1 = true
  behind : ∀ m ∈ behind members, known m.1 = false
  nodes : NodesRight none (nodesOf members)

theorem matchedKey_text (k : GroupKey) : matchedKey (ascii k.text) = some k := by
  cases k <;> decide

theorem exists_of_known {key : Text} (h : known key = true) : ∃ k : GroupKey, key =
    ascii k.text := by
  obtain ⟨k, -, hk⟩ := List.any_eq_true.mp h
  exact ⟨k, of_decide_eq_true hk⟩

theorem known_text (k : GroupKey) : known (ascii k.text) = true := by
  cases k <;> decide

theorem text_injective {k k' : GroupKey} (h : ascii k.text = ascii k'.text) : k = k' := by
  rw [← Option.some_inj, ← matchedKey_text k, h, matchedKey_text]

theorem makeGroupRun_cons_ok {g : PartialGroup}
    {run : GroupRun} (hkey : matchedKey m.1 = some k) :
    makeGroupRun c (Members.fields (m :: members)) g = .ok run ↔
      ∃ g' rest, setField c k m.2.json g = .ok g' ∧
        makeGroupRun c (Members.fields members) g' = .ok rest ∧
        run = { rest with sources := m.1 :: rest.sources } := by
  have hcons : makeGroupRun c (Members.fields (m :: members)) g =
      (setField c k m.2.json g >>= fun g =>
        makeGroupRun c (Members.fields members) g >>= fun run =>
          .ok { run with sources := m.1 :: run.sources }) := by
    show (match matchedKey m.1 with | none => _ | some k => _) = _
    rw [hkey]
    rfl
  rw [hcons, except_bind_ok]
  constructor
  · rintro ⟨g', hset, hbind⟩
    obtain ⟨rest, hrest, hrun⟩ := except_bind_ok.mp hbind
    exact ⟨g', rest, hset, hrest, (Except.ok.inj hrun).symm⟩
  · rintro ⟨g', rest, hset, hrest, rfl⟩
    exact ⟨g', hset, except_bind_ok.mpr ⟨rest, hrest, rfl⟩⟩

theorem makeGroupRun_cons_of_none (members : Members) (g : PartialGroup)
    (hkey : matchedKey m.1 = none) :
    makeGroupRun c (Members.fields (m :: members)) g = .ok ⟨g, [], -1⟩ := by
  show (match matchedKey m.1 with | none => _ | some k => _) = _
  rw [hkey]

theorem reached_cons_of_some (members : Members)
    (hkey : matchedKey m.1 = some k) : reached (m :: members) = m :: reached members :=
  List.takeWhile_cons_of_pos (by rw [hkey]; rfl)

theorem behind_cons_of_some (members : Members)
    (hkey : matchedKey m.1 = some k) : behind (m :: members) = behind members :=
  List.dropWhile_cons_of_pos (by rw [hkey]; rfl)

theorem reached_cons_of_none (members : Members)
    (hkey : matchedKey m.1 = none) : reached (m :: members) = [] :=
  List.takeWhile_cons_of_neg (by rw [hkey]; nofun)

theorem behind_cons_of_none (members : Members)
    (hkey : matchedKey m.1 = none) : behind (m :: members) = m :: members :=
  List.dropWhile_cons_of_neg (by rw [hkey]; nofun)

theorem sources_of_ok {g : PartialGroup} {run : GroupRun}
    (h : makeGroupRun c (Members.fields members) g = .ok run) :
    run.sources = (reached members).map Prod.fst ∧
      run.status = if behind members = [] then 0 else -1 := by
  induction members generalizing g run with
  | nil =>
    cases h
    exact ⟨rfl, rfl⟩
  | cons m members ih =>
    cases hkey : matchedKey m.1 with
    | none =>
      rw [makeGroupRun_cons_of_none members g hkey] at h
      cases h
      rw [reached_cons_of_none members hkey, behind_cons_of_none members hkey]
      exact ⟨rfl, (if_neg (List.cons_ne_nil m members)).symm⟩
    | some k =>
      obtain ⟨g', rest, -, hrest, rfl⟩ := (makeGroupRun_cons_ok hkey).mp h
      obtain ⟨hsources, hstatus⟩ := ih hrest
      rw [reached_cons_of_some members hkey, behind_cons_of_some members hkey]
      exact ⟨congrArg (m.1 :: ·) hsources, hstatus⟩

/-! ### The fields -/

theorem setField_scalar {v : MemberValue} (hk : k ≠ .nodes) (hv : k.Admits v)
    (g : PartialGroup) :
    ∃ g', setField c k v.json g = .ok g' ∧ g'.nodes = g.nodes ∧ (v.field c).isSome = true ∧
      ∀ k', g'.field k' = if k' = k then v.field c else g.field k' := by
  cases k <;> cases v <;> first
    | exact absurd rfl hk
    | exact hv.elim
    | exact ⟨_, rfl, rfl, rfl, fun k' => by cases k' <;> rfl⟩

theorem exists_nodes {v : MemberValue} (h : GroupKey.nodes.Admits v) : ∃ items, v =
    .nodes items := by
  cases v with
  | nodes items => exact ⟨items, rfl⟩
  | _ => exact h.elim

theorem setField_nodes {g g' : PartialGroup} :
    setField c .nodes (MemberValue.nodes items).json g = .ok g' ↔
      ∃ nodes, makeNodes c 0 (items.map NodeObject.json) ⟨none, none, none⟩ g.nodes = .ok nodes ∧
        g' = { g with nodes := nodes } := by
  show (makeNodes c 0 (items.map NodeObject.json) ⟨none, none, none⟩ g.nodes >>= _) = _ ↔ _
  rw [except_bind_ok]
  exact exists_congr fun nodes => and_congr_right'
    ⟨fun h => (Except.ok.inj h).symm, fun h => congrArg Except.ok h.symm⟩

theorem memberOf_cons (k : GroupKey) (m : Text × MemberValue) (members : Members) :
    memberOf k (m :: members) = if m.1 = ascii k.text then some m.2 else memberOf k members := by
  unfold memberOf
  rw [List.find?_cons]
  by_cases h : m.1 = ascii k.text
  · rw [if_pos h, decide_eq_true h]
    rfl
  · rw [if_neg h, decide_eq_false h]

theorem memberOf_eq_none
    (h : ascii k.text ∉ members.map Prod.fst) : memberOf k members = none := by
  unfold memberOf
  rw [Option.map_eq_none_iff, List.find?_eq_none]
  intro m hm heq
  exact h (of_decide_eq_true heq ▸ List.mem_map_of_mem hm)

/-- The nodes that are read are those of the member. -/
def NodesRead (c : JsonC) (members : Members) (before after : List (Nat × Node)) : Prop :=
  match memberOf .nodes members with
  | some (.nodes items) =>
      makeNodes c 0 (items.map NodeObject.json) ⟨none, none, none⟩ before = .ok after
  | _ => after = before

theorem nodesRead_unique {before after after' : List (Nat × Node)}
    (h : NodesRead c members before after) (h' : NodesRead c members before after') :
    after = after' := by
  unfold NodesRead at h h'
  cases hmember : memberOf .nodes members with
  | none =>
    rw [hmember] at h h'
    exact Eq.trans h (Eq.symm h')
  | some v =>
    rw [hmember] at h h'
    cases v with
    | nodes items => exact Except.ok.inj (Eq.trans (Eq.symm h) h')
    | _ => exact Eq.trans h (Eq.symm h')

theorem memberOf_cons_of_eq (members : Members)
    (hname : m.1 = ascii k.text) : memberOf k (m :: members) = some m.2 := by
  rw [memberOf_cons, if_pos hname]

theorem memberOf_cons_of_ne {k k' : GroupKey} (members : Members)
    (hname : m.1 = ascii k'.text) (hne : k ≠ k') :
    memberOf k (m :: members) = memberOf k members := by
  rw [memberOf_cons, if_neg]
  exact fun heq => hne (text_injective (heq.symm.trans hname))

theorem memberOf_reached_eq_none
    (h : ascii k.text ∉ members.map Prod.fst) : memberOf k (reached members) = none :=
  memberOf_eq_none fun hin => h (List.map_subset _ (List.takeWhile_subset _) hin)

theorem group_of_ok {g : PartialGroup} {run : GroupRun}
    (hdistinct : (members.map Prod.fst).Nodup)
    (htyped : ∀ m ∈ members, ∀ k : GroupKey, m.1 = ascii k.text → k.Admits m.2)
    (hknown : ∀ m ∈ reached members, known m.1 = true)
    (h : makeGroupRun c (Members.fields members) g = .ok run) :
    (∀ k, run.group.field k =
        ((memberOf k (reached members)).bind (MemberValue.field c)).or (g.field k)) ∧
      NodesRead c (reached members) g.nodes run.group.nodes := by
  induction members generalizing g run with
  | nil =>
    cases h
    exact ⟨fun k => rfl, rfl⟩
  | cons m members ih =>
    obtain ⟨hfresh, hdistinct⟩ := List.nodup_cons.mp hdistinct
    obtain ⟨hm, htyped⟩ := List.forall_mem_cons.mp htyped
    cases hkey : matchedKey m.1 with
    | none =>
      rw [makeGroupRun_cons_of_none members g hkey] at h
      cases h
      rw [reached_cons_of_none members hkey]
      exact ⟨fun k => rfl, rfl⟩
    | some k =>
      rw [reached_cons_of_some members hkey] at hknown ⊢
      obtain ⟨hkm, hknown⟩ := List.forall_mem_cons.mp hknown
      obtain ⟨k', hname⟩ := exists_of_known hkm
      obtain rfl : k' = k := by
        rw [hname, matchedKey_text] at hkey
        exact Option.some.inj hkey
      obtain ⟨g', rest, hset, hrest, rfl⟩ := (makeGroupRun_cons_ok hkey).mp h
      obtain ⟨hfields, hnodes⟩ := ih hdistinct htyped hknown hrest
      have hnone : memberOf k' (reached members) = none :=
        memberOf_reached_eq_none (hname ▸ hfresh)
      have hsame := memberOf_cons_of_eq (reached members) hname
      by_cases hk : k' = .nodes
      · subst hk
        obtain ⟨items, hitems⟩ := exists_nodes (hm _ hname)
        rw [hitems, setField_nodes] at hset
        obtain ⟨nodes, hmake, rfl⟩ := hset
        unfold NodesRead at hnodes ⊢
        rw [hnone] at hnodes
        rw [hsame, hitems]
        refine ⟨fun k => ?_, ?_⟩
        · rw [hfields]
          by_cases hk : k = .nodes
          · rw [hk, hnone, hsame, hitems]
            rfl
          · rw [memberOf_cons_of_ne (reached members) hname hk]
            cases k <;> rfl
        · dsimp only at hnodes ⊢
          rw [hnodes]
          exact hmake
      · obtain ⟨g'', hset', hsameNodes, hsome, hfield⟩ := setField_scalar hk (hm _ hname) g
        obtain rfl : g'' = g' := Except.ok.inj (hset'.symm.trans hset)
        refine ⟨fun k => ?_, ?_⟩
        · rw [hfields, hfield]
          by_cases hk : k = k'
          · obtain ⟨value, hvalue⟩ := Option.isSome_iff_exists.mp hsome
            rw [hk, if_pos rfl, hnone, hsame, Option.bind_none, Option.none_or, Option.bind_some,
              hvalue, Option.some_or]
          · rw [if_neg hk, memberOf_cons_of_ne (reached members) hname hk]
        · unfold NodesRead at hnodes ⊢
          rw [memberOf_cons_of_ne (reached members) hname (Ne.symm hk), ← hsameNodes]
          exact hnodes

theorem exists_ok {g : PartialGroup}
    (hdistinct : (members.map Prod.fst).Nodup)
    (htyped : ∀ m ∈ members, ∀ k : GroupKey, m.1 = ascii k.text → k.Admits m.2)
    (hknown : ∀ m ∈ reached members, known m.1 = true)
    (hnodes : ∃ after, NodesRead c (reached members) g.nodes after) :
    ∃ run, makeGroupRun c (Members.fields members) g = .ok run := by
  induction members generalizing g with
  | nil => exact ⟨_, rfl⟩
  | cons m members ih =>
    obtain ⟨hfresh, hdistinct⟩ := List.nodup_cons.mp hdistinct
    obtain ⟨hm, htyped⟩ := List.forall_mem_cons.mp htyped
    cases hkey : matchedKey m.1 with
    | none => exact ⟨_, makeGroupRun_cons_of_none members g hkey⟩
    | some k =>
      rw [reached_cons_of_some members hkey] at hknown hnodes
      obtain ⟨hkm, hknown⟩ := List.forall_mem_cons.mp hknown
      obtain ⟨k', hname⟩ := exists_of_known hkm
      obtain rfl : k' = k := by
        rw [hname, matchedKey_text] at hkey
        exact Option.some.inj hkey
      obtain ⟨after, hnodes⟩ := hnodes
      by_cases hk : k' = .nodes
      · subst hk
        obtain ⟨items, hitems⟩ := exists_nodes (hm _ hname)
        unfold NodesRead at hnodes
        rw [memberOf_cons_of_eq (reached members) hname, hitems] at hnodes
        have hset := setField_nodes.mpr ⟨after, hnodes, rfl⟩
        rw [← hitems] at hset
        have hrest : NodesRead c (reached members) after after := by
          unfold NodesRead
          rw [memberOf_reached_eq_none (hname ▸ hfresh)]
        obtain ⟨rest, hrun⟩ :=
          ih (g := { g with nodes := after }) hdistinct htyped hknown ⟨after, hrest⟩
        exact ⟨_, (makeGroupRun_cons_ok hkey).mpr ⟨_, rest, hset, hrun, rfl⟩⟩
      · obtain ⟨g', hset, hsameNodes, -, -⟩ := setField_scalar hk (hm _ hname) g
        have hrest : NodesRead c (reached members) g'.nodes after := by
          unfold NodesRead at hnodes ⊢
          rwa [memberOf_cons_of_ne (reached members) hname (Ne.symm hk), ← hsameNodes] at hnodes
        obtain ⟨rest, hrun⟩ := ih hdistinct htyped hknown ⟨after, hrest⟩
        exact ⟨_, (makeGroupRun_cons_ok hkey).mpr ⟨_, rest, hset, hrun, rfl⟩⟩

theorem reached_append_behind (members : Members) : reached members ++ behind members = members :=
  List.takeWhile_append_dropWhile

theorem names_reached_iff (members : Members) :
    (reached members).map Prod.fst = (members.map Prod.fst).filter known ↔
      (∀ m ∈ reached members, known m.1 = true) ∧ ∀ m ∈ behind members, known m.1 = false := by
  have hsplit : (members.map Prod.fst).filter known =
      ((reached members).map Prod.fst).filter known ++
        ((behind members).map Prod.fst).filter known := by
    rw [← List.filter_append, ← List.map_append, reached_append_behind]
  constructor
  · intro h
    have hreached : ∀ name ∈ (reached members).map Prod.fst, known name = true := by
      rw [h]
      exact fun name hname => (List.mem_filter.mp hname).2
    rw [hsplit, List.filter_eq_self.mpr hreached] at h
    have hbehind : ((behind members).map Prod.fst).filter known = [] :=
      List.self_eq_append_right.mp h
    rw [List.filter_eq_nil_iff] at hbehind
    exact ⟨fun m hm => hreached _ (List.mem_map_of_mem hm),
      fun m hm => Bool.eq_false_iff.mpr (hbehind _ (List.mem_map_of_mem hm))⟩
  · rintro ⟨hreached, hbehind⟩
    have hself : ((reached members).map Prod.fst).filter known = (reached members).map Prod.fst :=
      List.filter_eq_self.mpr fun name hname => by
        obtain ⟨m, hm, rfl⟩ := List.mem_map.mp hname
        exact hreached m hm
    have hnil : ((behind members).map Prod.fst).filter known = [] :=
      List.filter_eq_nil_iff.mpr fun name hname => by
        obtain ⟨m, hm, rfl⟩ := List.mem_map.mp hname
        exact Bool.eq_false_iff.mp (hbehind m hm)
    rw [hsplit, hself, hnil, List.append_nil]

theorem memberOf_reached (h : ∀ m ∈ behind members, known m.1 = false)
    (k : GroupKey) : memberOf k (reached members) = memberOf k members := by
  have hnone : (behind members).find? (fun m => m.1 = ascii k.text) = none := by
    rw [List.find?_eq_none]
    intro m hm heq
    have hknown := h m hm
    rw [of_decide_eq_true heq, known_text] at hknown
    cases hknown
  conv_rhs => rw [← reached_append_behind members]
  unfold memberOf
  rw [List.find?_append, hnone, Option.or_none]

theorem all_known_iff (hreached : ∀ m ∈ reached members, known m.1 = true)
    (hbehind : ∀ m ∈ behind members, known m.1 = false) :
    (members.all fun m => known m.1) = true ↔ behind members = [] := by
  rw [List.all_eq_true]
  constructor
  · intro h
    rw [List.eq_nil_iff_forall_not_mem]
    intro m hm
    have hin : m ∈ members := by
      rw [← reached_append_behind members]
      exact List.mem_append_right _ hm
    exact absurd (h m hin) (by rw [hbehind m hm]; nofun)
  · intro h m hm
    rw [← reached_append_behind members, h, List.append_nil] at hm
    exact hreached m hm

theorem nodesRead_iff {o : GroupObject} :
    (∃ entries, NodesRead c o.members [] entries ∧ Describes 0 (nodesOf o.members) entries) ↔
      NodesRight none (nodesOf o.members) := by
  unfold NodesRead nodesOf
  cases hmember : memberOf .nodes o.members with
  | none => exact iff_of_true ⟨[], rfl, rfl⟩ trivial
  | some v =>
    obtain ⟨m, hfind, rfl⟩ := Option.map_eq_some_iff.mp hmember
    have hname := List.find?_some hfind
    obtain ⟨items, hitems⟩ := exists_nodes
      (o.typed m (List.mem_of_find?_eq_some hfind) .nodes (of_decide_eq_true hname))
    rw [hitems]
    exact makeNodes_iff (n := ⟨none, none, none⟩) nofun

/-- A group is what its object says just where the names can be told apart: no name but those of the
fields is taken for one, none of them is behind another name, and the nodes are right. -/
theorem faithful_iff (c : JsonC) (o : GroupObject) : Faithful c o.members ↔
    WellNamed o.members := by
  constructor
  · rintro ⟨run, hrun, -, hsources, -, hdescribes⟩
    rw [(sources_of_ok hrun).1, names_reached_iff] at hsources
    obtain ⟨hreached, hbehind⟩ := hsources
    obtain ⟨-, hnodes⟩ := group_of_ok o.distinct o.typed hreached hrun
    unfold NodesRead at hnodes
    rw [memberOf_reached hbehind] at hnodes
    exact ⟨hreached, hbehind, nodesRead_iff.mp ⟨_, hnodes, hdescribes⟩⟩
  · rintro ⟨hreached, hbehind, hright⟩
    obtain ⟨entries, hread, hdescribes⟩ := (nodesRead_iff (c := c)).mpr hright
    have hread' : NodesRead c (reached o.members) unsetGroup.nodes entries := by
      unfold NodesRead at hread ⊢
      rwa [memberOf_reached hbehind]
    obtain ⟨run, hrun⟩ := exists_ok o.distinct o.typed hreached ⟨entries, hread'⟩
    obtain ⟨hfields, hnodes⟩ := group_of_ok o.distinct o.typed hreached hrun
    obtain ⟨hsources, hstatus⟩ := sources_of_ok hrun
    refine ⟨run, hrun, ?_, ?_, fun k => ?_, ?_⟩
    · rw [hstatus]
      exact if_congr (all_known_iff hreached hbehind).symm rfl rfl
    · rw [hsources]
      exact (names_reached_iff o.members).mpr ⟨hreached, hbehind⟩
    · have hunset : unsetGroup.field k = none := by cases k <;> rfl
      rw [hfields, memberOf_reached hbehind, hunset, Option.or_none]
    · rw [nodesRead_unique hnodes hread']
      exact hdescribes

def plainJsonC : JsonC := ⟨fun _ => [], fun _ => 0, fun _ => false⟩

/-- `{ "nam": "x" }`. -/
def shortName : GroupObject :=
  ⟨[(ascii "nam", .string (ascii "x"))], by decide, by
    intro m hm k hk
    rw [List.mem_singleton.mp hm] at hk
    exact absurd hk (by cases k <;> decide)⟩

/-- Two nodes, the second one with an empty alias in front of its topic. -/
def emptyAlias : GroupObject :=
  ⟨[(ascii "nodes", .nodes
      [[(ascii "id", ascii "1"), (ascii "topic", ascii "a"), (ascii "alias", [])],
        [(ascii "id", ascii "2"), (ascii "alias", []), (ascii "topic", ascii "b")]])], by decide, by
    intro m hm k hk
    rw [List.mem_singleton.mp hm] at hk ⊢
    cases k with
    | nodes => trivial
    | _ => exact absurd hk (by decide)⟩

/-- A proper part of a name is taken for it, and the alias becomes the topic of the node before. -/
theorem not_faithful_examples :
    ¬ Faithful plainJsonC shortName.members ∧ ¬ Faithful plainJsonC emptyAlias.members := by
  constructor
  · rintro ⟨run, hrun, hstatus, -⟩
    cases hrun
    exact absurd hstatus (by decide)
  · rintro ⟨run, hrun, -, -, -, hdescribes⟩
    cases hrun
    revert hdescribes
    unfold Describes
    decide

end FactoryThing.Bridge
