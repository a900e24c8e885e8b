import Mathlib

/-!
# The layout of records

Fields that are placed one behind the other, each at the next multiple of its alignment, and a
record that is closed at a multiple of the largest alignment in it. A record laid out in this way is
a field of other records again. Bytes are left over in front of fields and behind the last one; a
record is as large as its fields together just when there are none.
-/

namespace RecordLayout

/-- The next multiple of `align`. -/
def alignUp (n align : Nat) : Nat := (n + align - 1) / align * align

theorem le_alignUp (n : Nat) {align : Nat} (h : 0 < align) : n ≤ alignUp n align := by
  have hmod := Nat.mod_add_div' (n + align - 1) align
  have hlt := Nat.mod_lt (n + align - 1) h
  unfold alignUp
  omega

structure Field where
  size : Nat
  align : Nat
  size_pos : 0 < size
  align_pos : 0 < align
  deriving DecidableEq

/-- Where a field is placed when the bytes up to `pos` are taken. -/
def Field.offset (f : Field) (pos : Nat) : Nat := alignUp pos f.align

theorem Field.le_offset (f : Field) (pos : Nat) : pos ≤ f.offset pos := le_alignUp pos f.align_pos

/-- The offsets of the fields behind `pos`. -/
def offsets (pos : Nat) : List Field → List Nat
  | [] => []
  | f :: fs => f.offset pos :: offsets (f.offset pos + f.size) fs

/-- Where the last of the fields behind `pos` ends. -/
def endFrom (pos : Nat) : List Field → Nat
  | [] => pos
  | f :: fs => endFrom (f.offset pos + f.size) fs

/-- The bytes of the fields without those between them. -/
def payload (fs : List Field) : Nat := (fs.map Field.size).sum

@[simp] theorem payload_nil : payload [] = 0 := rfl

@[simp] theorem payload_cons (f : Field) (fs : List Field) :
    payload (f :: fs) = f.size + payload fs := by
  simp [payload]

theorem le_endFrom (pos : Nat) (fs : List Field) : pos + payload fs ≤ endFrom pos fs := by
  induction fs generalizing pos with
  | nil => simp [endFrom]
  | cons f fs ih =>
    have hrest := ih (f.offset pos + f.size)
    have hoffset := f.le_offset pos
    rw [endFrom, payload_cons]
    omega

/-- The largest alignment, of one byte at least. -/
def maxAlign : List Field → Nat
  | [] => 1
  | f :: fs => max f.align (maxAlign fs)

theorem maxAlign_pos (fs : List Field) : 0 < maxAlign fs := by
  cases fs with
  | nil => exact Nat.one_pos
  | cons f fs => exact Nat.lt_of_lt_of_le f.align_pos (Nat.le_max_left _ _)

/-- The size of the record of the fields. -/
def recordSize (fs : List Field) : Nat := alignUp (endFrom 0 fs) (maxAlign fs)

theorem endFrom_le_recordSize (fs : List Field) : endFrom 0 fs ≤ recordSize fs :=
  le_alignUp _ (maxAlign_pos fs)

theorem payload_le_recordSize (fs : List Field) : payload fs ≤ recordSize fs := by
  have hend := le_endFrom 0 fs
  have hsize := endFrom_le_recordSize fs
  omega

def record (f : Field) (fs : List Field) : Field where
  size := recordSize (f :: fs)
  align := maxAlign (f :: fs)
  size_pos := by
    have hsize := payload_le_recordSize (f :: fs)
    have hpos := f.size_pos
    rw [payload_cons] at hsize
    omega
  align_pos := maxAlign_pos _

/-- No byte is left over in front of a field. -/
def Contiguous (pos : Nat) : List Field → Prop
  | [] => True
  | f :: fs => f.offset pos = pos ∧ Contiguous (pos + f.size) fs

theorem Contiguous.endFrom_eq {pos : Nat} {fs : List Field} (h : Contiguous pos fs) :
    endFrom pos fs = pos + payload fs := by
  induction fs generalizing pos with
  | nil => simp [endFrom]
  | cons f fs ih =>
    obtain ⟨hoffset, hrest⟩ := h
    rw [endFrom, hoffset, ih hrest, payload_cons, Nat.add_assoc]

end RecordLayout
