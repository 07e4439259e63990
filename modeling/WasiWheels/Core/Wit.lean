import WasiWheels.Core.Bytes

/-! Interface types and where the canonical ABI puts their values: the alignment and size
of every type, and what is read and written at an address. -/

namespace WasiWheels

namespace Wit

inductive Width where
  | byte | half | single | double
  deriving DecidableEq, Repr

def Width.bytes : Width → Nat
  | .byte => 1
  | .half => 2
  | .single => 4
  | .double => 8

mutual

/-- A type, as far as its layout goes: a handle is a word of four bytes, a string a list
of bytes, and a case without a payload holds the empty record. -/
inductive Ty where
  | word (width : Width)
  | list (element : Ty)
  | record (fields : Tys)
  | variant (cases : Tys)

inductive Tys where
  | nil
  | cons (head : Ty) (tail : Tys)

end

def Tys.length : Tys → Nat
  | .nil => 0
  | .cons _ tail => tail.length + 1

/-- Where a list lies. -/
structure Span where
  ptr : BitVec 32
  len : BitVec 32
  deriving DecidableEq, Repr

/-- A value as it is passed, with its lists as spans, or with the lists themselves. -/
inductive Form where
  | spans | lists

mutual

def Data (form : Form) : Ty → Type
  | .word width => BitVec (8 * width.bytes)
  | .list element => match form with
    | .spans => Span
    | .lists => List (Data form element)
  | .record fields => Fields form fields
  | .variant cases => Case form cases

def Fields (form : Form) : Tys → Type
  | .nil => Unit
  | .cons head tail => Data form head × Fields form tail

def Case (form : Form) : Tys → Type
  | .nil => Empty
  | .cons head tail => Data form head ⊕ Case form tail

end

/-- The least multiple of `align` from `offset` on. -/
def alignTo (offset align : Nat) : Nat := (offset + align - 1) / align * align

/-- The bytes of a discriminant. -/
def discriminant (cases : Nat) : Nat := if cases ≤ 256 then 1 else if cases ≤ 65536 then 2 else 4

mutual

def Ty.align : Ty → Nat
  | .word width => width.bytes
  | .list _ => 4
  | .record fields => fields.align
  | .variant cases => max (discriminant cases.length) cases.align

def Tys.align : Tys → Nat
  | .nil => 1
  | .cons head tail => max head.align tail.align

end

mutual

def Ty.size : Ty → Nat
  | .word width => width.bytes
  | .list _ => 8
  | .record fields => alignTo (fields.finish 0) fields.align
  | .variant cases =>
    alignTo (alignTo (discriminant cases.length) cases.align + cases.widest) (max (discriminant cases.length) cases.align)

/-- Where the last field ends, when the first may begin at `offset`. -/
def Tys.finish : Tys → Nat → Nat
  | .nil, offset => offset
  | .cons head tail, offset => tail.finish (alignTo offset head.align + head.size)

def Tys.widest : Tys → Nat
  | .nil => 0
  | .cons head tail => max head.size tail.widest

end

/-- Where the payload of a variant begins. -/
def Tys.payload (cases : Tys) : Nat := alignTo (discriminant cases.length) cases.align

mutual

def get (memory : Memory) : (type : Ty) → Nat → Option (Data .spans type)
  | .word width, base => some (BitVec.ofNat (8 * width.bytes) (memory.load base width.bytes))
  | .list _, base => some ⟨BitVec.ofNat 32 (memory.load base 4), BitVec.ofNat 32 (memory.load (base + 4) 4)⟩
  | .record fields, base => getFields memory fields base 0
  | .variant cases, base =>
    getCase memory cases (memory.load base (discriminant cases.length)) (base + cases.payload)

def getFields (memory : Memory) : (fields : Tys) → (base offset : Nat) → Option (Fields .spans fields)
  | .nil, _, _ => some ()
  | .cons head tail, base, offset => do
    let first ← get memory head (base + alignTo offset head.align)
    let rest ← getFields memory tail base (alignTo offset head.align + head.size)
    return (first, rest)

/-- A tag past the last case is no value. -/
def getCase (memory : Memory) : (cases : Tys) → (tag base : Nat) → Option (Case .spans cases)
  | .nil, _, _ => none
  | .cons head _, 0, base => (get memory head base).map .inl
  | .cons _ tail, tag + 1, base => (getCase memory tail tag base).map .inr

end

def Case.tag {form : Form} : {cases : Tys} → Case form cases → Nat
  | .cons _ _, .inl _ => 0
  | .cons _ _, .inr other => Case.tag other + 1

mutual

def put (memory : Memory) : (type : Ty) → Nat → Data .spans type → Memory
  | .word width, base, value => memory.store base width.bytes (BitVec.toNat value)
  | .list _, base, ⟨ptr, len⟩ => (memory.store base 4 ptr.toNat).store (base + 4) 4 len.toNat
  | .record fields, base, values => putFields memory fields base 0 values
  | .variant cases, base, value =>
    putCase (memory.store base (discriminant cases.length) value.tag) cases (base + cases.payload) value

def putFields (memory : Memory) : (fields : Tys) → (base offset : Nat) → Fields .spans fields → Memory
  | .nil, _, _, _ => memory
  | .cons head tail, base, offset, (first, rest) =>
    putFields (put memory head (base + alignTo offset head.align) first) tail base
      (alignTo offset head.align + head.size) rest

def putCase (memory : Memory) : (cases : Tys) → (base : Nat) → Case .spans cases → Memory
  | .cons head _, base, .inl value => put memory head base value
  | .cons _ tail, base, .inr other => putCase memory tail base other

end

end Wit

end WasiWheels
