import Mathlib.Algebra.GroupWithZero.Nat
import Mathlib.Data.List.Basic

/-! libffi's preparation of a call interface on wasm32: the portable driver, with the two
machine hooks of which each call runs one. -/

namespace WasiWheels.Native

/-- `unsigned` and `size_t` on wasm32. -/
abbrev Unsigned := BitVec 32

/-- `FFI_TYPE_*` -/
inductive TypeId where
  | void | int | float | double | longdouble | uint8 | sint8 | uint16 | sint16 | uint32 | sint32 | uint64 | sint64
  | struct | pointer | complex
  deriving DecidableEq

inductive FfiStatus where
  | ok | badTypedef | badAbi | badArgtype
  deriving DecidableEq

/-- `ffi_type` with the types its `elements` point to, up to the null pointer; `isFloat`
tells the object `ffi_type_float` from others. -/
structure FfiType where
  size : Unsigned
  alignment : BitVec 16
  type : TypeId
  elements : Option (List FfiType)
  isFloat : Bool := false

/-- `FFI_ALIGN`; the alignment is promoted to `int` before the subtraction. -/
def ffiAlign (v : Unsigned) (a : BitVec 16) : Unsigned := ((v - 1) ||| (a.setWidth 32 - 1)) + 1

/-- `STACK_ARG_SIZE`, with `FFI_SIZEOF_ARG` 4 -/
def stackArgSize (x : Unsigned) : Unsigned := ffiAlign x 4

mutual

/-- `initialize_aggregate` without offsets. -/
def initializeAggregate : FfiType → Except FfiStatus FfiType
  | ⟨_, _, _, none, _⟩ => .error .badTypedef
  | ⟨_, _, type, some elements, isFloat⟩ => do
    let (elements, size, alignment) ← initializeElements elements 0 0
    let size := ffiAlign size alignment
    if size = 0 then .error .badTypedef else .ok { size, alignment, type, elements := some elements, isFloat }

/-- Its loop, from the size and alignment reached so far. -/
def initializeElements : List FfiType → Unsigned → BitVec 16 → Except FfiStatus (List FfiType × Unsigned × BitVec 16)
  | [], size, alignment => .ok ([], size, alignment)
  | element :: rest, size, alignment => do
    let element ← if element.size = 0 then initializeAggregate element else .ok element
    let size := ffiAlign size element.alignment + element.size
    let alignment := if alignment > element.alignment then alignment else element.alignment
    let (elements, laid) ← initializeElements rest size alignment
    .ok (element :: elements, laid)

end

/-- Types of size 0 are laid out before they are used. -/
def initialized (type : FfiType) : Except FfiStatus FfiType :=
  if type.size = 0 then initializeAggregate type else .ok type

theorem initializeElements_cons (element : FfiType) (rest : List FfiType) (size : Unsigned) (alignment : BitVec 16) :
    initializeElements (element :: rest) size alignment = initialized element >>= fun element =>
      initializeElements rest (ffiAlign size element.alignment + element.size)
        (if alignment > element.alignment then alignment else element.alignment) >>= fun (elements, laid) =>
          .ok (element :: elements, laid) := by
  rw [initializeElements, initialized]
  split <;> rfl

/-- `ffi_cif` -/
structure Cif where
  abi : Nat
  nargs : Unsigned
  argTypes : List FfiType
  rtype : FfiType
  bytes : Unsigned
  flags : Unsigned
  nfixedargs : Unsigned

/-- A call of the library: it returns, or it takes the process down. -/
inductive Outcome where
  | returned (status : FfiStatus) (cif : Cif)
  | aborted

def firstAbi : Nat := 0
def wasm32 : Nat := 1
def lastAbi : Nat := 2
def defaultAbi : Nat := wasm32

def maxArgs : Unsigned := 1024
def varargsFlag : Unsigned := 1

def ffiPrepCifMachdep (cif : Cif) : Outcome :=
  if cif.abi ≠ wasm32 ∧ cif.abi ≠ defaultAbi then .returned .badAbi cif
  else
    let cif := if cif.flags &&& varargsFlag = 0 then { cif with nfixedargs := cif.nargs } else cif
    if cif.nargs > maxArgs then .returned .badTypedef cif
    else if cif.rtype.type = .complex then .returned .badTypedef cif
    else if cif.argTypes.any fun type => type.type = .complex then .returned .badTypedef cif
    else .returned .ok cif

def ffiPrepCifMachdepVar (cif : Cif) (nfixedargs _ntotalargs : Unsigned) : Outcome :=
  let cif := { cif with flags := cif.flags ||| varargsFlag, nfixedargs }
  if cif.nfixedargs + 1 > maxArgs then .returned .badTypedef cif else .returned .ok cif

/-- Why the loop over the arguments is left. -/
inductive Stop where
  | status (status : FfiStatus)
  | abort

/-- The loop over the arguments, with `bytes` so far. -/
def prepArgs : List FfiType → Unsigned → Except Stop (List FfiType × Unsigned)
  | [], bytes => .ok ([], bytes)
  | type :: rest, bytes =>
    match initialized type with
    | .error _ => .error (.status .badTypedef)
    | .ok type =>
      if type.type = .complex then .error .abort
      else do
        let bytes := if (type.alignment.setWidth 32 - 1) &&& bytes ≠ 0 then ffiAlign bytes type.alignment else bytes
        let (types, bytes) ← prepArgs rest (bytes + stackArgSize type.size)
        .ok (type :: types, bytes)

/-- The loop is not left early with success. -/
theorem prepArgs_refuses {types : List FfiType} {bytes : Unsigned} {status : FfiStatus}
    (stopped : prepArgs types bytes = .error (.status status)) : status ≠ .ok := by
  induction types generalizing bytes with
  | nil => cases stopped
  | cons type rest ih =>
    rw [prepArgs] at stopped
    cases filled : initialized type with
    | error refused =>
      rw [filled] at stopped
      cases stopped
      exact FfiStatus.noConfusion
    | ok laid =>
      rw [filled] at stopped
      dsimp only at stopped
      split at stopped
      · cases stopped
      · generalize (_ + stackArgSize laid.size : Unsigned) = next at stopped
        cases looped : prepArgs rest next with
        | error stop =>
          rw [looped] at stopped
          cases stopped
          exact ih looped
        | ok reached =>
          rw [looped] at stopped
          cases stopped

/-- `atypes` are the `ntotalargs` types the caller points to. -/
def ffiPrepCifCore (cif : Cif) (abi : Nat) (isvariadic : Bool) (nfixedargs ntotalargs : Unsigned) (rtype : FfiType)
    (atypes : List FfiType) : Outcome :=
  if ¬ (abi > firstAbi ∧ abi < lastAbi) then .returned .badAbi cif
  else
    let cif := { cif with abi, argTypes := atypes, nargs := ntotalargs, rtype, flags := 0 }
    match initialized rtype with
    | .error _ => .returned .badTypedef cif
    | .ok rtype =>
      let cif := { cif with rtype }
      if rtype.type = .complex then .aborted
      else
        let bytes := if rtype.type = .struct then stackArgSize 4 else 0
        match prepArgs atypes bytes with
        | .error .abort => .aborted
        | .error (.status status) => .returned status cif
        | .ok (atypes, bytes) =>
          let cif := { cif with argTypes := atypes, bytes }
          if isvariadic then ffiPrepCifMachdepVar cif nfixedargs ntotalargs else ffiPrepCifMachdep cif

def ffiPrepCif (cif : Cif) (abi : Nat) (nargs : Unsigned) (rtype : FfiType) (atypes : List FfiType) : Outcome :=
  ffiPrepCifCore cif abi false nargs nargs rtype atypes

/-- Types a variadic argument is promoted from; `ffi_type_sint.size` is 4. -/
def promoted (type : FfiType) : Bool :=
  type.isFloat || (decide (type.type ≠ .struct ∧ type.type ≠ .complex) && decide (type.size < 4))

def ffiPrepCifVar (cif : Cif) (abi : Nat) (nfixedargs ntotalargs : Unsigned) (rtype : FfiType) (atypes : List FfiType) :
    Outcome :=
  match ffiPrepCifCore cif abi true nfixedargs ntotalargs rtype atypes with
  | .aborted => .aborted
  | .returned rc cif =>
    if rc ≠ .ok then .returned rc cif
    else if (cif.argTypes.drop nfixedargs.toNat).any promoted then .returned .badArgtype cif
    else .returned .ok cif

end WasiWheels.Native
