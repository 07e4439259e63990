import WasiWheels.Native.PrepCif

/-! The limits of the wasm backend, and the signatures for which both preparation paths
keep them. -/

namespace WasiWheels.Native

/-- A type with its layout, when it has one. -/
def FfiType.laidOut (type : FfiType) : FfiType :=
  match initialized type with
  | .ok laid => laid
  | .error _ => type

/-- Laid out already, or an aggregate that can be. -/
def FfiType.WellFormed (type : FfiType) : Prop := initialized type = .ok type.laidOut

/-- Layout leaves the kind of a type alone. -/
theorem initialized_type {type laid : FfiType} (done : initialized type = .ok laid) : laid.type = type.type := by
  unfold initialized at done
  split at done
  · obtain ⟨size, alignment, kind, elements, isFloat⟩ := type
    cases elements with
    | none => cases done
    | some elements =>
      rw [initializeAggregate] at done
      cases inner : initializeElements elements 0 0 with
      | error status =>
        rw [inner] at done
        cases done
      | ok reached =>
        rw [inner] at done
        dsimp only [bind, Except.bind] at done
        split at done
        · cases done
        · cases done
          rfl
  · cases done
    rfl

def Outcome.accepts : Outcome → Bool
  | .returned .ok _ => true
  | _ => false

theorem Outcome.accepts_iff {outcome : Outcome} : outcome.accepts = true ↔ ∃ cif, outcome = .returned .ok cif := by
  cases outcome with
  | aborted => simp [accepts]
  | returned status cif => cases status <;> simp [accepts]

/-- The types of a call, as many as an array can hold. -/
structure Signature where
  rtype : FfiType
  atypes : List FfiType
  counted : atypes.length < 2 ^ 32
  result : rtype.WellFormed
  arguments : ∀ type ∈ atypes, type.WellFormed

/-- The two ways to prepare a call. -/
inductive Preparation where
  | fixed
  | variadic (nfixedargs : Unsigned)

def Preparation.isVariadic : Preparation → Bool
  | .fixed => false
  | .variadic _ => true

/-- The fixed arguments among all of them. -/
def Preparation.fixedArgs (total : Unsigned) : Preparation → Unsigned
  | .fixed => total
  | .variadic nfixedargs => nfixedargs

namespace Signature

variable (signature : Signature)

def total : Unsigned := BitVec.ofNat 32 signature.atypes.length

def prepare (cif : Cif) (abi : Nat) : Preparation → Outcome
  | .fixed => ffiPrepCif cif abi signature.total signature.rtype signature.atypes
  | .variadic nfixedargs => ffiPrepCifVar cif abi nfixedargs signature.total signature.rtype signature.atypes

/-- No complex type is passed or returned. -/
def Real : Prop := signature.rtype.type ≠ .complex ∧ ∀ type ∈ signature.atypes, type.type ≠ .complex

/-- The limits of the backend. -/
def Within : Prop := signature.atypes.length ≤ 1024 ∧ signature.Real

/-- The limits are kept, whatever the signature, and the interface tells its arguments. -/
structure Kept (preparation : Preparation) (outcome : Outcome) : Prop where
  survives : outcome ≠ .aborted
  accepted : ∀ cif, outcome = .returned .ok cif → signature.Within
  refused : ¬ signature.Within → ∃ status cif, outcome = .returned status cif ∧ status ≠ .ok
  counts : ∀ cif, outcome = .returned .ok cif → cif.nargs = signature.total ∧
    cif.nfixedargs = preparation.fixedArgs signature.total ∧
      (cif.flags &&& varargsFlag ≠ 0 ↔ preparation.isVariadic = true)

theorem prepArgs_real {types : List FfiType} (formed : ∀ type ∈ types, type.WellFormed)
    (real : ∀ type ∈ types, type.type ≠ .complex) (bytes : Unsigned) :
    ∃ bytes', prepArgs types bytes = .ok (types.map FfiType.laidOut, bytes') := by
  induction types generalizing bytes with
  | nil => exact ⟨bytes, rfl⟩
  | cons type rest ih =>
    have done : initialized type = .ok type.laidOut := formed type List.mem_cons_self
    have kind : type.laidOut.type ≠ .complex := by
      rw [initialized_type done]
      exact real type List.mem_cons_self
    rw [prepArgs, done]
    dsimp only
    rw [if_neg kind]
    obtain ⟨bytes', rest⟩ := ih (fun other member => formed other (List.mem_cons_of_mem _ member))
      (fun other member => real other (List.mem_cons_of_mem _ member)) _
    rw [rest]
    exact ⟨bytes', rfl⟩

theorem prepArgs_complex {types : List FfiType} (formed : ∀ type ∈ types, type.WellFormed)
    (complex : ∃ type ∈ types, type.type = .complex) (bytes : Unsigned) : prepArgs types bytes = .error .abort := by
  induction types generalizing bytes with
  | nil =>
    obtain ⟨type, member, -⟩ := complex
    cases member
  | cons type rest ih =>
    have done : initialized type = .ok type.laidOut := formed type List.mem_cons_self
    rw [prepArgs, done]
    dsimp only
    split
    · rfl
    · rename_i kind
      rw [initialized_type done] at kind
      rw [ih (fun other member => formed other (List.mem_cons_of_mem _ member)) ?_]
      · rfl
      · obtain ⟨other, member, same⟩ := complex
        rcases List.mem_cons.mp member with rfl | later
        · exact absurd same kind
        · exact ⟨other, later, same⟩

/-- The interface the driver hands to a machine hook. -/
def driven (cif : Cif) (abi : Nat) (bytes : Unsigned) : Cif where
  abi
  nargs := signature.total
  argTypes := signature.atypes.map FfiType.laidOut
  rtype := signature.rtype.laidOut
  bytes
  flags := 0
  nfixedargs := cif.nfixedargs

variable (cif : Cif) (abi : Nat) (isvariadic : Bool) (nfixedargs : Unsigned)

def ValidAbi (abi : Nat) : Prop := abi > firstAbi ∧ abi < lastAbi

theorem ValidAbi.wasm32 {abi : Nat} (valid : ValidAbi abi) : abi = wasm32 :=
  Nat.le_antisymm (Nat.le_of_lt_succ valid.2) valid.1

theorem result_real (real : signature.Real) : signature.rtype.laidOut.type ≠ .complex := by
  have done : initialized signature.rtype = .ok signature.rtype.laidOut := signature.result
  rw [initialized_type done]
  exact real.1

theorem core_badAbi (invalid : ¬ ValidAbi abi) :
    ffiPrepCifCore cif abi isvariadic nfixedargs signature.total signature.rtype signature.atypes =
      .returned .badAbi cif := if_pos invalid

theorem core_real (valid : ValidAbi abi) (real : signature.Real) : ∃ bytes,
    ffiPrepCifCore cif abi isvariadic nfixedargs signature.total signature.rtype signature.atypes =
      if isvariadic then ffiPrepCifMachdepVar (signature.driven cif abi bytes) nfixedargs signature.total
      else ffiPrepCifMachdep (signature.driven cif abi bytes) := by
  have done : initialized signature.rtype = .ok signature.rtype.laidOut := signature.result
  have kind := signature.result_real real
  obtain ⟨bytes, looped⟩ := prepArgs_real signature.arguments real.2
    (if signature.rtype.laidOut.type = .struct then stackArgSize 4 else 0)
  refine ⟨bytes, ?_⟩
  rw [ffiPrepCifCore, if_neg (show ¬ ¬ (abi > firstAbi ∧ abi < lastAbi) from not_not.mpr valid), done]
  dsimp only
  rw [if_neg kind, looped]
  rfl

/-- A complex type anywhere in the signature takes the process down. -/
theorem core_complex (valid : ValidAbi abi) (complex : ¬ signature.Real) :
    ffiPrepCifCore cif abi isvariadic nfixedargs signature.total signature.rtype signature.atypes = .aborted := by
  have done : initialized signature.rtype = .ok signature.rtype.laidOut := signature.result
  rw [ffiPrepCifCore, if_neg (show ¬ ¬ (abi > firstAbi ∧ abi < lastAbi) from not_not.mpr valid), done]
  dsimp only
  split
  · rfl
  · rename_i kind
    rw [initialized_type done] at kind
    have passed : ∃ type ∈ signature.atypes, type.type = .complex := by
      by_contra none
      push Not at none
      exact complex ⟨kind, none⟩
    rw [prepArgs_complex signature.arguments passed]

theorem exceeds_iff : signature.total > maxArgs ↔ 1024 < signature.atypes.length := by
  have same : signature.total.toNat = signature.atypes.length := by
    rw [total, BitVec.toNat_ofNat, Nat.mod_eq_of_lt signature.counted]
  rw [gt_iff_lt, BitVec.lt_def, same]
  rfl

/-- A variadic call beyond the limits is stopped by something else. -/
def Stopped : Preparation → Prop
  | .fixed => True
  | .variadic nfixedargs => signature.atypes.length ≤ 1024 ∨ maxArgs < nfixedargs + 1 ∨
      ∃ type ∈ signature.atypes.drop nfixedargs.toNat, promoted type.laidOut = true

/-- What it takes for the limits to be kept. -/
def Safe (abi : Nat) (preparation : Preparation) : Prop :=
  ValidAbi abi → signature.Real ∧ signature.Stopped preparation

theorem prepare_badAbi (invalid : ¬ ValidAbi abi) (preparation : Preparation) :
    signature.prepare cif abi preparation = .returned .badAbi cif := by
  cases preparation with
  | fixed => exact signature.core_badAbi cif abi false _ invalid
  | variadic nfixedargs =>
    rw [prepare, ffiPrepCifVar, signature.core_badAbi cif abi true _ invalid]
    rfl

theorem prepare_complex (valid : ValidAbi abi) (complex : ¬ signature.Real) (preparation : Preparation) :
    signature.prepare cif abi preparation = .aborted := by
  cases preparation with
  | fixed => exact signature.core_complex cif abi false _ valid complex
  | variadic nfixedargs =>
    rw [prepare, ffiPrepCifVar, signature.core_complex cif abi true _ valid complex]

theorem laidOut_real (real : signature.Real) :
    ((signature.atypes.map FfiType.laidOut).any fun type => type.type = .complex) = false := by
  refine List.any_eq_false.mpr fun laid member => ?_
  obtain ⟨type, inside, rfl⟩ := List.mem_map.mp member
  have done : initialized type = .ok type.laidOut := signature.arguments type inside
  simpa [initialized_type done] using real.2 type inside

/-- The hook of a plain call counts all its arguments. -/
theorem prepare_fixed (valid : ValidAbi abi) (real : signature.Real) : ∃ bytes,
    signature.prepare cif abi .fixed =
      .returned (if 1024 < signature.atypes.length then .badTypedef else .ok)
        { signature.driven cif abi bytes with nfixedargs := signature.total } := by
  have kind := signature.result_real real
  obtain ⟨bytes, driven⟩ := signature.core_real cif abi false signature.total valid real
  refine ⟨bytes, ?_⟩
  rw [prepare, ffiPrepCif, driven, if_neg Bool.false_ne_true, ffiPrepCifMachdep,
    if_neg fun other => other.1 valid.wasm32]
  have unflagged : (signature.driven cif abi bytes).flags &&& varargsFlag = 0 :=
    show (0 : Unsigned) &&& varargsFlag = 0 by decide
  dsimp only
  rw [if_pos unflagged]
  change (if signature.total > maxArgs then _ else _) = _
  by_cases many : 1024 < signature.atypes.length
  · rw [if_pos (signature.exceeds_iff.mpr many), if_pos many]
    rfl
  · rw [if_neg fun exceeds => many (signature.exceeds_iff.mp exceeds), if_neg many]
    change (if signature.rtype.laidOut.type = .complex then _ else _) = _
    rw [if_neg kind]
    change (if ((signature.atypes.map FfiType.laidOut).any fun type => type.type = .complex) then _ else _) = _
    rw [signature.laidOut_real real]
    rfl

/-- The hook of a variadic call looks at the fixed arguments only. -/
theorem prepare_variadic (valid : ValidAbi abi) (real : signature.Real) : ∃ bytes,
    signature.prepare cif abi (.variadic nfixedargs) =
      .returned (if nfixedargs + 1 > maxArgs then .badTypedef
        else if (signature.atypes.drop nfixedargs.toNat).any fun type => promoted type.laidOut then .badArgtype else .ok)
        { signature.driven cif abi bytes with flags := varargsFlag, nfixedargs } := by
  obtain ⟨bytes, driven⟩ := signature.core_real cif abi true nfixedargs valid real
  refine ⟨bytes, ?_⟩
  have flagged : (signature.driven cif abi bytes).flags ||| varargsFlag = varargsFlag :=
    show (0 : Unsigned) ||| varargsFlag = varargsFlag by decide
  rw [prepare, ffiPrepCifVar, driven, if_pos rfl, ffiPrepCifMachdepVar]
  dsimp only
  rw [flagged]
  by_cases many : nfixedargs + 1 > maxArgs
  · rw [if_pos many, if_pos many]
    rfl
  · rw [if_neg many, if_neg many]
    change (if ((signature.atypes.map FfiType.laidOut).drop nfixedargs.toNat).any promoted then _ else _) = _
    rw [← List.map_drop, List.any_map]
    change (if (signature.atypes.drop nfixedargs.toNat).any fun type => promoted type.laidOut then _ else _) = _
    cases (signature.atypes.drop nfixedargs.toNat).any fun type => promoted type.laidOut with
    | true => rfl
    | false => rfl

theorem kept_returned {preparation : Preparation} {status : FfiStatus} {cif : Cif} (args : cif.nargs = signature.total)
    (fixed : cif.nfixedargs = preparation.fixedArgs signature.total)
    (flag : cif.flags &&& varargsFlag ≠ 0 ↔ preparation.isVariadic = true) :
    signature.Kept preparation (.returned status cif) ↔ (status = .ok → signature.Within) := by
  constructor
  · rintro kept rfl
    exact kept.accepted cif rfl
  · intro within
    refine ⟨(fun aborted => by cases aborted), ?_, fun beyond => ?_, ?_⟩
    · intro other same
      cases same
      exact within rfl
    · exact ⟨status, cif, rfl, fun accepted => beyond (within accepted)⟩
    · intro other same
      cases same
      exact ⟨args, fixed, flag⟩

/-- Both paths keep the limits unless a complex type is met, or a variadic call passes too
many arguments and nothing else stops it. -/
theorem kept_iff (preparation : Preparation) :
    signature.Kept preparation (signature.prepare cif abi preparation) ↔ signature.Safe abi preparation := by
  by_cases valid : ValidAbi abi
  · by_cases real : signature.Real
    · have within : signature.Within ↔ signature.atypes.length ≤ 1024 := and_iff_left real
      have safe : signature.Safe abi preparation ↔ signature.Stopped preparation :=
        ⟨fun safe => (safe valid).2, fun stopped _ => ⟨real, stopped⟩⟩
      rw [safe]
      cases preparation with
      | fixed =>
        obtain ⟨bytes, prepared⟩ := signature.prepare_fixed cif abi valid real
        rw [prepared]
        refine (signature.kept_returned rfl rfl ?_).trans (iff_of_true (fun accepted => ?_) trivial)
        · exact iff_of_false (show ¬ (0 : Unsigned) &&& varargsFlag ≠ 0 by decide) Bool.false_ne_true
        · rw [within]
          split at accepted
          · cases accepted
          · omega
      | variadic nfixedargs =>
        obtain ⟨bytes, prepared⟩ := signature.prepare_variadic cif abi nfixedargs valid real
        rw [prepared]
        refine (signature.kept_returned rfl rfl (iff_of_true ?_ rfl)).trans ?_
        · exact show varargsFlag &&& varargsFlag ≠ 0 by decide
        · rw [within]
          by_cases many : nfixedargs + 1 > maxArgs
          · rw [if_pos many]
            exact iff_of_true (fun accepted => by cases accepted) (.inr (.inl many))
          · rw [if_neg many]
            cases small : (signature.atypes.drop nfixedargs.toNat).any fun type => promoted type.laidOut with
            | true => exact iff_of_true (fun accepted => by cases accepted) (.inr (.inr (List.any_eq_true.mp small)))
            | false =>
              refine ⟨fun accepted => .inl (accepted rfl), fun stopped _ => ?_⟩
              rcases stopped with few | counted | narrow
              · exact few
              · exact absurd counted many
              · rw [List.any_eq_true.mpr narrow] at small
                cases small
    · rw [signature.prepare_complex cif abi valid real]
      exact iff_of_false (fun kept => kept.survives rfl) fun safe => real (safe valid).1
  · rw [signature.prepare_badAbi cif abi valid]
    refine iff_of_true ⟨(fun aborted => by cases aborted), ?_, fun _ => ⟨_, _, rfl, ?_⟩, ?_⟩ fun correct => absurd correct valid
    · intro other same
      cases same
    · decide
    · intro other same
      cases same

/-- `int f(int, ...)` called with 1025 arguments. -/
def crowded : Signature where
  rtype := ⟨4, 4, .sint32, none, false⟩
  atypes := List.replicate 1025 ⟨4, 4, .sint32, none, false⟩
  counted := by
    rw [List.length_replicate]
    decide
  result := rfl
  arguments := by
    intro type member
    rw [List.eq_of_mem_replicate member]
    rfl

/-- `float _Complex f(void)` -/
def complexResult : Signature where
  rtype := ⟨8, 4, .complex, some [⟨4, 4, .float, none, true⟩], false⟩
  atypes := []
  counted := by decide
  result := rfl
  arguments _ member := absurd member List.not_mem_nil

/-- An interface nothing has been written to. -/
def blank : Cif := ⟨0, 0, [], ⟨0, 0, .void, none, false⟩, 0, 0, 0⟩

/-- The first is prepared although it is too long, the second ends the process. -/
theorem crowded_and_complexResult_unkept :
    ¬ crowded.Kept (.variadic 1) (crowded.prepare blank wasm32 (.variadic 1)) ∧
      ¬ complexResult.Kept .fixed (complexResult.prepare blank wasm32 .fixed) := by
  constructor
  · intro kept
    have accepted : (crowded.prepare blank wasm32 (.variadic 1)).accepts = true := by decide +kernel
    obtain ⟨cif, same⟩ := Outcome.accepts_iff.mp accepted
    exact absurd (kept.accepted cif same).1 (by decide +kernel)
  · exact fun kept => kept.survives rfl

end Signature

end WasiWheels.Native
