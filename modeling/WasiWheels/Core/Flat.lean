import WasiWheels.Core.Mirror

/-! Values passed as arguments: the core types a type flattens to, and how a host lifts a
value from such arguments. -/

namespace WasiWheels

namespace Wit

inductive Kind where
  | i32 | i64
  deriving DecidableEq, Repr

inductive Arg where
  | i32 (value : BitVec 32)
  | i64 (value : BitVec 64)
  deriving DecidableEq, Repr

def Arg.kind : Arg → Kind
  | .i32 _ => .i32
  | .i64 _ => .i64

/-- The lower half, where an argument shared by several cases is wider than this one needs. -/
def Arg.low : Arg → BitVec 32
  | .i32 value => value
  | .i64 value => value.setWidth 32

def Kind.join : Kind → Kind → Kind
  | .i32, .i32 => .i32
  | _, _ => .i64

/-- The arguments that two cases share. -/
def joinKinds : List Kind → List Kind → List Kind
  | [], kinds | kinds, [] => kinds
  | first :: rest, other :: others => first.join other :: joinKinds rest others

mutual

def Ty.flatten : Ty → List Kind
  | .word .double => [.i64]
  | .word _ => [.i32]
  | .list _ => [.i32, .i32]
  | .record fields => fields.flattenFields
  | .variant cases => .i32 :: cases.flattenCases

def Tys.flattenFields : Tys → List Kind
  | .nil => []
  | .cons head tail => head.flatten ++ tail.flattenFields

def Tys.flattenCases : Tys → List Kind
  | .nil => []
  | .cons head tail => joinKinds head.flatten tail.flattenCases

end

def liftWord : (width : Width) → List Arg → Option (BitVec (8 * width.bytes) × List Arg)
  | .double, .i64 value :: rest => some (value, rest)
  | .single, arg :: rest => some (arg.low, rest)
  | .half, arg :: rest => some (arg.low.setWidth 16, rest)
  | .byte, arg :: rest => some (arg.low.setWidth 8, rest)
  | _, _ => none

def liftList : List Arg → Option (Span × List Arg)
  | ptr :: len :: rest => some (⟨ptr.low, len.low⟩, rest)
  | _ => none

mutual

/-- Lifts one value; the other arguments are left. -/
def liftFlat : (type : Ty) → List Arg → Option (Data .spans type × List Arg)
  | .word width, args => liftWord width args
  | .list _, args => liftList args
  | .record fields, args => liftFields fields args
  | .variant _, [] => none
  | .variant cases, tag :: args => do
    let value ← liftCase cases tag.low.toNat (args.take cases.flattenCases.length)
    return (value, args.drop cases.flattenCases.length)

def liftFields : (fields : Tys) → List Arg → Option (Fields .spans fields × List Arg)
  | .nil, args => some ((), args)
  | .cons head tail, args => do
    let (first, args) ← liftFlat head args
    let (rest, args) ← liftFields tail args
    return ((first, rest), args)

/-- Arguments that only other cases use are ignored. -/
def liftCase : (cases : Tys) → (tag : Nat) → List Arg → Option (Case .spans cases)
  | .nil, _, _ => none
  | .cons head _, 0, args => (liftFlat head args).map fun lifted => .inl lifted.1
  | .cons _ tail, tag + 1, args => (liftCase tail tag args).map .inr

end

theorem liftCase_here {head : Ty} {tail : Tys} {spans : Data .spans head} {args rest : List Arg}
    (lifted : liftFlat head args = some (spans, rest)) : liftCase (.cons head tail) 0 args = some (.inl spans) := by
  rw [liftCase, lifted]
  rfl

theorem liftCase_later {head : Ty} {tail : Tys} {tag : Nat} {other : Case .spans tail} {args : List Arg}
    (lifted : liftCase tail tag args = some other) : liftCase (.cons head tail) (tag + 1) args = some (.inr other) := by
  rw [liftCase, lifted]
  rfl

/-- The type of the case a value is of, and what it holds. -/
def Case.payload {form : Form} : {cases : Tys} → Case form cases → (type : Ty) × Data form type
  | .cons head _, .inl value => ⟨head, value⟩
  | .cons _ _, .inr other => Case.payload other

theorem liftCase_tag : {cases : Tys} → (value : Case .spans cases) → {args rest : List Arg} →
    liftFlat value.payload.1 args = some (value.payload.2, rest) → liftCase cases value.tag args = some value
  | .cons _ _, .inl _, _, _, lifted => liftCase_here lifted
  | .cons _ _, .inr other, _, _, lifted => liftCase_later (liftCase_tag other lifted)

/-- Arguments that pass a value, in front of any others. -/
structure Passed (type : Ty) (spans : Data .spans type) (args : List Arg) : Prop where
  count : args.length = type.flatten.length
  lifts : ∀ rest, liftFlat type (args ++ rest) = some (spans, rest)

namespace Passed

theorem lifts_nil {type : Ty} {spans : Data .spans type} {args : List Arg} (passed : Passed type spans args) :
    liftFlat type args = some (spans, []) := by
  simpa using passed.lifts []

theorem single (arg : Arg) : Passed (.word .single) arg.low [arg] := ⟨rfl, fun _ => rfl⟩

theorem half (arg : Arg) : Passed (.word .half) (arg.low.setWidth 16) [arg] := ⟨rfl, fun _ => rfl⟩

theorem byte (arg : Arg) : Passed (.word .byte) (arg.low.setWidth 8) [arg] := ⟨rfl, fun _ => rfl⟩

theorem double (value : BitVec 64) : Passed (.word .double) value [.i64 value] := ⟨rfl, fun _ => rfl⟩

theorem list (element : Ty) (ptr len : Arg) : Passed (.list element) ⟨ptr.low, len.low⟩ [ptr, len] := ⟨rfl, fun _ => rfl⟩

theorem pair {first second : Ty} {here : Data .spans first} {next : Data .spans second} {args others : List Arg}
    (passed : Passed first here args) (passes : Passed second next others) :
    Passed (.pair first second) (here, next, ()) (args ++ others) where
  count := by
    rw [List.length_append, passed.count, passes.count]
    simp [Ty.pair, Ty.flatten, Tys.flattenFields]
  lifts rest := by
    rw [List.append_assoc]
    simp only [Ty.pair, liftFlat, liftFields, passed.lifts, passes.lifts, Option.bind_eq_bind, Option.bind_some]
    rfl

/-- One case of a variant; arguments of other cases follow its own. -/
theorem variant {cases : Tys} {value : Case .spans cases} {tag : Arg} {index : Nat} {payload : List Arg}
    (which : tag.low.toNat = index) (count : payload.length = cases.flattenCases.length)
    (lifted : liftCase cases index payload = some value) : Passed (.variant cases) value (tag :: payload) where
  count := by rw [List.length_cons, count, Ty.flatten, List.length_cons]
  lifts rest := by
    rw [List.cons_append, liftFlat, which, ← count, List.take_left, List.drop_left, lifted]
    rfl

/-- The payload of a case first, then zeros for the arguments it has no use for. -/
theorem case {cases : Tys} {value : Case .spans cases} {type : Ty} {spans : Data .spans type} {tag : Arg} {args : List Arg}
    (passed : Passed type spans args) (pad : List Arg) (which : tag.low.toNat = value.tag) (shape : value.payload = ⟨type, spans⟩)
    (count : (args ++ pad).length = cases.flattenCases.length) : Passed (.variant cases) value (tag :: (args ++ pad)) := by
  have lifted : liftFlat value.payload.1 (args ++ pad) = Option.some (value.payload.2, pad) := by
    rw [shape]
    exact passed.lifts pad
  exact .variant which count (liftCase_tag value lifted)

/-- A payload that needs every argument there is. -/
theorem whole {cases : Tys} {value : Case .spans cases} {type : Ty} {spans : Data .spans type} {tag : Arg} {args : List Arg}
    (passed : Passed type spans args) (which : tag.low.toNat = value.tag) (shape : value.payload = ⟨type, spans⟩)
    (count : args.length = cases.flattenCases.length) : Passed (.variant cases) value (tag :: args) := by
  have padded := passed.case [] which shape (by rw [List.append_nil, count])
  rwa [List.append_nil] at padded

private theorem flattenCases_option (type : Ty) :
    (Tys.cons .unit (.cons type .nil)).flattenCases = type.flatten := by
  simp only [Tys.flattenCases, Ty.unit, Ty.flatten, Tys.flattenFields]
  cases type.flatten <;> rfl

theorem none {type : Ty} {tag : Arg} {pad : List Arg} (zero : tag.low = 0) (count : pad.length = type.flatten.length) :
    Passed (.option type) (.inl ()) (tag :: pad) :=
  .variant (by rw [zero]; rfl) (by rw [count, flattenCases_option]) (liftCase_here rfl)

theorem some {type : Ty} {spans : Data .spans type} {tag : Arg} {payload : List Arg} (one : tag.low = 1)
    (passed : Passed type spans payload) : Passed (.option type) (.inr (.inl spans)) (tag :: payload) :=
  passed.whole (by rw [one]; rfl) rfl (by rw [passed.count, flattenCases_option])

end Passed

/-- What a host makes of arguments and the guest's memory. -/
def receive (memory : Memory) (type : Ty) (args : List Arg) : Option (Data .lists type) := do
  let (spans, _) ← liftFlat type args
  read memory type spans

end Wit

end WasiWheels
