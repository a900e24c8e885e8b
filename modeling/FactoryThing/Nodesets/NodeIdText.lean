import FactoryThing.Lib.TextReplacement
import Mathlib.Data.List.DropRight

/-!
# Node ids of the nodeset compiler

The class `opcua_node_id_t` (ua_node_types.py:165-231) with the conversions of the language it rests
on. A node id is read from its text; the index of the namespace is written in front of the
identifier.
-/

namespace FactoryThing.Nodesets

open TextReplacement

abbrev Str := List Char

/-- The zeros of the decimal digits that `int` knows. -/
def decimalZeros : List Nat :=
  [0x30, 0x660, 0x6f0, 0x7c0, 0x966, 0x9e6, 0xa66, 0xae6, 0xb66, 0xbe6, 0xc66, 0xce6, 0xd66, 0xde6,
    0xe50, 0xed0, 0xf20, 0x1040, 0x1090, 0x17e0, 0x1810, 0x1946, 0x19d0, 0x1a80, 0x1a90, 0x1b50,
    0x1bb0, 0x1c40, 0x1c50, 0xa620, 0xa8d0, 0xa900, 0xa9d0, 0xa9f0, 0xaa50, 0xabf0, 0xff10, 0x104a0,
    0x10d30, 0x11066, 0x110f0, 0x11136, 0x111d0, 0x112f0, 0x11450, 0x114d0, 0x11650, 0x116c0,
    0x11730, 0x118e0, 0x11950, 0x11c50, 0x11d50, 0x11da0, 0x16a60, 0x16ac0, 0x16b50, 0x1d7ce,
    0x1d7d8, 0x1d7e2, 0x1d7ec, 0x1d7f6, 0x1e140, 0x1e2f0, 0x1e950, 0x1fbf0]

def decimalValue (c : Char) : Option Nat :=
  (decimalZeros.find? fun z => z ≤ c.toNat ∧ c.toNat < z + 10).map (c.toNat - ·)

def hexValue (c : Char) : Option Nat :=
  if 'a' ≤ c ∧ c ≤ 'f' then some (c.toNat - 'a'.toNat + 10)
  else if 'A' ≤ c ∧ c ≤ 'F' then some (c.toNat - 'A'.toNat + 10)
  else decimalValue c

/-- The white space that `int` strips. -/
def isSpace (c : Char) : Bool :=
  c.toNat ∈ [0x20, 0x85, 0xa0, 0x1680, 0x2028, 0x2029, 0x202f, 0x205f, 0x3000] ∨
    (9 ≤ c.toNat ∧ c.toNat ≤ 0xd) ∨ (0x1c ≤ c.toNat ∧ c.toNat ≤ 0x1f) ∨
    (0x2000 ≤ c.toNat ∧ c.toNat ≤ 0x200a)

/-- The digits behind the first one, with single underscores between them. -/
def digitsFrom (value : Char → Option Nat) (base : Nat) : Nat → Str → Option Nat
  | n, [] => some n
  | n, '_' :: c :: s => (value c).bind fun d => digitsFrom value base (n * base + d) s
  | n, c :: s => (value c).bind fun d => digitsFrom value base (n * base + d) s

def digits (value : Char → Option Nat) (base : Nat) : Str → Option Nat
  | [] => none
  | c :: s => (value c).bind fun d => digitsFrom value base d s

/-- The `int` of a text. -/
def pyInt (s : Str) : Option Int :=
  match (s.dropWhile isSpace).rdropWhile isSpace with
  | '-' :: s => (digits decimalValue 10 s).map fun n => -(n : Int)
  | '+' :: s => (digits decimalValue 10 s).map fun n => (n : Int)
  | s => (digits decimalValue 10 s).map fun n => (n : Int)

/-- The `int` of a text behind `0x` with the base 16. -/
def pyHex (s : Str) : Option Nat :=
  match s.rdropWhile isSpace with
  | '_' :: s => digits hexValue 16 s
  | s => digits hexValue 16 s

/-- The `str` of a number. -/
def str : Int → Str
  | .ofNat n => Nat.toDigits 10 n
  | .negSucc n => '-' :: Nat.toDigits 10 (n + 1)

/-- `opcua_node_id_t` (ua_node_types.py:165-178). The text `__mystrname__` is always the one that
`toString` makes of the other fields. -/
structure OpcuaNodeId where
  i : Option Int
  b : Option Str
  g : Option (List Nat)
  s : Option Str
  ns : Int
deriving DecidableEq

namespace OpcuaNodeId

/-- One part of the text (ua_node_types.py:187-201). -/
def readPart (id : OpcuaNodeId) (p : Str) : Option OpcuaNodeId :=
  if p.take 2 = ['n', 's'] then (pyInt (p.drop 3)).map fun n => { id with ns := n }
  else if p.take 2 = ['i', '='] then (pyInt (p.drop 2)).map fun n => { id with i := some n }
  else if p.take 2 = ['o', '='] then some { id with b := some (p.drop 2) }
  else if p.take 2 = ['g', '='] then
    (((p.drop 2).splitOn '-').mapM pyHex).map fun g => { id with g := some g }
  else if p.take 2 = ['s', '='] then some { id with s := some (p.drop 2) }
  else some id

/-- `__init__` (ua_node_types.py:180-203), or nothing when it raises an error. -/
def read (idstring : Str) : Option OpcuaNodeId :=
  (idstring.splitOn ';').foldlM readPart { i := none, b := none, g := none, s := none, ns := 0 }

/-- The text that `toString` makes (ua_node_types.py:205-223). -/
def mystrname (id : OpcuaNodeId) : Str :=
  let front : Str := if id.ns = 0 then [] else ['n', 's', '='] ++ str id.ns ++ [';']
  match id.i, id.g, id.b, id.s with
  | some i, _, _, _ => front ++ ['i', '='] ++ str i
  | none, some g, _, _ =>
    replaceAll ['g', '=', '-'] ['g', '=']
      (front ++ ['g', '='] ++ g.flatMap fun n => '-' :: Nat.toDigits 16 n)
  | none, none, some b, _ => front ++ ['b', '='] ++ b
  | none, none, none, some s => front ++ ['s', '='] ++ s
  | none, none, none, none => front

/-- What `toString` returns: nothing (ua_node_types.py:205-223). -/
def toString (_ : OpcuaNodeId) : Option Str := none

/-- `__eq__` of two node ids (ua_node_types.py:228-231). -/
def eq (id nodeId2 : OpcuaNodeId) : Bool := id.toString == nodeId2.toString

@[simp] theorem eq_eq_true (id nodeId2 : OpcuaNodeId) : id.eq nodeId2 = true := rfl

end OpcuaNodeId

def nsText (n : Int) : Str := ['n', 's', '='] ++ str n

theorem nsText_ne_nil (n : Int) : nsText n ≠ [] := List.cons_ne_nil _ _

end FactoryThing.Nodesets
