import WasiWheels.Adapters.Calls
import WasiWheels.Core.Flat

/-! The adapters that pass a structure as arguments: they flatten it by hand, and the host
gets the structure back. -/

namespace WasiWheels.Adapters

open Wit

section Options

def flatOptionString : Option Span → BitVec 32 × BitVec 32 × BitVec 32
  | some val => (1, val.ptr, val.len)
  | none => (0, 0, 0)

/-- An option of a number or a handle that fits an `int32_t`. -/
def flatOptionWord : Option (BitVec 32) → BitVec 32 × BitVec 32
  | some val => (1, val)
  | none => (0, 0)

def flatOptionU64 : Option (BitVec 64) → BitVec 32 × BitVec 64
  | some val => (1, val)
  | none => (0, 0)

end Options

/-- `(int64_t)` of an `int32_t`: the sign is extended. -/
def intToI64 (value : BitVec 32) : Arg := .i64 (value.signExtend 64)

/-- `(int64_t)` of a pointer. -/
def ptrToI64 (value : BitVec 32) : Arg := .i64 (value.setWidth 64)

@[simp] theorem intToI64_low (value : BitVec 32) : (intToI64 value).low = value := by
  refine BitVec.eq_of_getElem_eq fun index inside => ?_
  rw [intToI64, Arg.low, BitVec.getElem_setWidth, BitVec.getLsbD_signExtend]
  simp [inside, Nat.lt_trans inside (by decide : 32 < 64)]

@[simp] theorem ptrToI64_low (value : BitVec 32) : (ptrToI64 value).low = value := by
  simp [ptrToI64, Arg.low]

/-- The tag and the payload of an error code as `response_outparam_set` passes them. -/
def ErrorCode.args : ErrorCode Span → List Arg
  | .plain tag => [.i32 (BitVec.ofNat 32 tag), .i32 0, .i64 0, .i32 0, .i32 0, .i32 0, .i32 0]
  | .dnsError payload =>
    let (option, option5, option6) := flatOptionString payload.rcode
    let (option9, option10) := flatOptionWord (payload.infoCode.map fun val => val.setWidth 32)
    [.i32 1, .i32 option, ptrToI64 option5, .i32 option6, .i32 option9, .i32 option10, .i32 0]
  | .tlsAlertReceived payload =>
    let (option26, option27) := flatOptionWord (payload.alertId.map fun val => val.setWidth 32)
    let (option30, option31, option32) := flatOptionString payload.alertMessage
    [.i32 14, .i32 option26, intToI64 option27, .i32 option30, .i32 option31, .i32 option32, .i32 0]
  | .httpRequestBodySize size => sized64 17 size
  | .httpRequestHeaderSectionSize size => sized32 21 size
  | .httpRequestHeaderSize payload => .i32 22 :: header payload
  | .httpRequestTrailerSectionSize size => sized32 23 size
  | .httpRequestTrailerSize payload => field 24 payload
  | .httpResponseHeaderSectionSize size => sized32 26 size
  | .httpResponseHeaderSize payload => field 27 payload
  | .httpResponseBodySize size => sized64 28 size
  | .httpResponseTrailerSectionSize size => sized32 29 size
  | .httpResponseTrailerSize payload => field 30 payload
  | .httpResponseTransferCoding coding => text 31 coding
  | .httpResponseContentCoding coding => text 32 coding
  | .internalError message => text 38 message
where
  sized64 (tag : BitVec 32) (size : Option (BitVec 64)) : List Arg :=
    let (option, option1) := flatOptionU64 size
    [.i32 tag, .i32 option, .i64 option1, .i32 0, .i32 0, .i32 0, .i32 0]
  sized32 (tag : BitVec 32) (size : Option (BitVec 32)) : List Arg :=
    let (option, option1) := flatOptionWord size
    [.i32 tag, .i32 option, intToI64 option1, .i32 0, .i32 0, .i32 0, .i32 0]
  field (tag : BitVec 32) (payload : FieldSizePayload Span) : List Arg :=
    let (option, option1, option2) := flatOptionString payload.fieldName
    let (option5, option6) := flatOptionWord payload.fieldSize
    [.i32 tag, .i32 option, ptrToI64 option1, .i32 option2, .i32 option5, .i32 option6, .i32 0]
  header : Option (FieldSizePayload Span) → List Arg
    | some val =>
      let (option53, option54, option55) := flatOptionString val.fieldName
      let (option58, option59) := flatOptionWord val.fieldSize
      [.i32 1, intToI64 option53, .i32 option54, .i32 option55, .i32 option58, .i32 option59]
    | none => [.i32 0, intToI64 0, .i32 0, .i32 0, .i32 0, .i32 0]
  text (tag : BitVec 32) (val : Option Span) : List Arg :=
    let (option, option1, option2) := flatOptionString val
    [.i32 tag, .i32 option, ptrToI64 option1, .i32 option2, .i32 0, .i32 0, .i32 0]

private theorem low_optionString (spans : Data .spans (.option .string)) {tag ptr len : Arg}
    (same : (tag.low, ptr.low, len.low) = flatOptionString (Mirror.string.option.struct spans)) :
    Passed (.option .string) spans [tag, ptr, len] := by
  obtain ⟨⟩ | span | ⟨⟨⟩⟩ := spans
  · exact .none (Prod.mk.inj same).1 rfl
  · obtain ⟨one, same⟩ := Prod.mk.inj same
    obtain ⟨first, second⟩ := Prod.mk.inj same
    have passed := Passed.list (.word .byte) ptr len
    rw [first, second] at passed
    exact .some one passed

private theorem low_optionU32 (spans : Data .spans (.option Types.u32)) {tag val : Arg}
    (same : (tag.low, val.low) = flatOptionWord ((Mirror.word .single).option.struct spans)) :
    Passed (.option Types.u32) spans [tag, val] := by
  obtain ⟨⟩ | word | ⟨⟨⟩⟩ := spans
  · exact .none (Prod.mk.inj same).1 rfl
  · obtain ⟨one, same⟩ := Prod.mk.inj same
    have passed := Passed.single val
    rw [same] at passed
    exact .some one passed

theorem passed_optionU64 (spans : Data .spans (.option Types.u64)) {tag : BitVec 32} {val : BitVec 64}
    (same : flatOptionU64 ((Mirror.word .double).option.struct spans) = (tag, val)) :
    Passed (.option Types.u64) spans [.i32 tag, .i64 val] := by
  obtain ⟨⟩ | word | ⟨⟨⟩⟩ := spans
  · exact .none (Prod.mk.inj same).1.symm rfl
  · obtain ⟨one, rfl⟩ := Prod.mk.inj same
    exact .some one.symm (.double _)

/-- An unsigned number cast to `int32_t` and back. -/
theorem cast_back {width : Nat} (narrow : width ≤ 32) (word : BitVec width) : (word.setWidth 32).setWidth width = word := by
  rw [BitVec.setWidth_setWidth_of_le _ narrow, BitVec.setWidth_eq]

private theorem low_optionU16 (spans : Data .spans (.option Types.u16)) {tag val : Arg}
    (same : (tag.low, val.low) = flatOptionWord (((Mirror.word .half).option.struct spans).map fun val => BitVec.setWidth 32 val)) :
    Passed (.option Types.u16) spans [tag, val] := by
  obtain ⟨⟩ | word | ⟨⟨⟩⟩ := spans
  · exact .none (Prod.mk.inj same).1 rfl
  · obtain ⟨one, same⟩ := Prod.mk.inj same
    have passed := Passed.half val
    rw [same] at passed
    exact .some one ((cast_back (by decide) word : (BitVec.setWidth 32 word).setWidth 16 = word) ▸ passed)

private theorem low_optionU8 (spans : Data .spans (.option Types.u8)) {tag val : Arg}
    (same : (tag.low, val.low) = flatOptionWord (((Mirror.word .byte).option.struct spans).map fun val => BitVec.setWidth 32 val)) :
    Passed (.option Types.u8) spans [tag, val] := by
  obtain ⟨⟩ | word | ⟨⟨⟩⟩ := spans
  · exact .none (Prod.mk.inj same).1 rfl
  · obtain ⟨one, same⟩ := Prod.mk.inj same
    have passed := Passed.byte val
    rw [same] at passed
    exact .some one ((cast_back (by decide) word : (BitVec.setWidth 32 word).setWidth 8 = word) ▸ passed)

/-! An argument of a case of its own is as wide as the value; one that is shared with a `u64`
is an `int64_t`. -/

theorem passed_optionString (spans : Data .spans (.option .string)) {tag ptr len : BitVec 32}
    (same : flatOptionString (Mirror.string.option.struct spans) = (tag, ptr, len)) :
    Passed (.option .string) spans [.i32 tag, .i32 ptr, .i32 len] := low_optionString spans same.symm

theorem passed_widePtr (spans : Data .spans (.option .string)) {tag ptr len : BitVec 32}
    (same : flatOptionString (Mirror.string.option.struct spans) = (tag, ptr, len)) :
    Passed (.option .string) spans [.i32 tag, ptrToI64 ptr, .i32 len] :=
  low_optionString spans (by rw [ptrToI64_low, same]; rfl)

theorem passed_wideTag (spans : Data .spans (.option .string)) {tag ptr len : BitVec 32}
    (same : flatOptionString (Mirror.string.option.struct spans) = (tag, ptr, len)) :
    Passed (.option .string) spans [intToI64 tag, .i32 ptr, .i32 len] :=
  low_optionString spans (by rw [intToI64_low, same]; rfl)

theorem passed_optionU32 (spans : Data .spans (.option Types.u32)) {tag val : BitVec 32}
    (same : flatOptionWord ((Mirror.word .single).option.struct spans) = (tag, val)) :
    Passed (.option Types.u32) spans [.i32 tag, .i32 val] := low_optionU32 spans same.symm

theorem passed_wideU32 (spans : Data .spans (.option Types.u32)) {tag val : BitVec 32}
    (same : flatOptionWord ((Mirror.word .single).option.struct spans) = (tag, val)) :
    Passed (.option Types.u32) spans [.i32 tag, intToI64 val] :=
  low_optionU32 spans (by rw [intToI64_low, same]; rfl)

theorem passed_optionU16 (spans : Data .spans (.option Types.u16)) {tag val : BitVec 32}
    (same : flatOptionWord (((Mirror.word .half).option.struct spans).map fun val => BitVec.setWidth 32 val) = (tag, val)) :
    Passed (.option Types.u16) spans [.i32 tag, .i32 val] := low_optionU16 spans same.symm

theorem passed_wideU8 (spans : Data .spans (.option Types.u8)) {tag val : BitVec 32}
    (same : flatOptionWord (((Mirror.word .byte).option.struct spans).map fun val => BitVec.setWidth 32 val) = (tag, val)) :
    Passed (.option Types.u8) spans [.i32 tag, intToI64 val] :=
  low_optionU8 spans (by rw [intToI64_low, same]; rfl)

/-- A header size, the one payload that is an option of a record. -/
theorem passed_header (spans : Data .spans (.option Types.fieldSizePayload)) :
    Passed (.option Types.fieldSizePayload) spans (ErrorCode.args.header (FieldSizePayload.mirror.option.struct spans)) := by
  obtain ⟨⟩ | payload | ⟨⟨⟩⟩ := spans
  · exact .none rfl rfl
  · exact .some rfl ((passed_wideTag payload.1 rfl).pair (passed_optionU32 payload.2.1 rfl))

section Shapes

variable {value : Case .spans Types.errorCodes} {tag : BitVec 32}

theorem passed_sized64 {size : Data .spans (.option Types.u64)} (which : tag.toNat = value.tag) (shape : value.payload = ⟨_, size⟩) :
    Passed Types.errorCode value (ErrorCode.args.sized64 tag ((Mirror.word .double).option.struct size)) :=
  Passed.case (passed_optionU64 size rfl) [.i32 0, .i32 0, .i32 0, .i32 0] which shape rfl

theorem passed_sized32 {size : Data .spans (.option Types.u32)} (which : tag.toNat = value.tag) (shape : value.payload = ⟨_, size⟩) :
    Passed Types.errorCode value (ErrorCode.args.sized32 tag ((Mirror.word .single).option.struct size)) :=
  Passed.case (passed_wideU32 size rfl) [.i32 0, .i32 0, .i32 0, .i32 0] which shape rfl

theorem passed_field {payload : Data .spans Types.fieldSizePayload} (which : tag.toNat = value.tag)
    (shape : value.payload = ⟨_, payload⟩) :
    Passed Types.errorCode value (ErrorCode.args.field tag (FieldSizePayload.mirror.struct payload)) :=
  Passed.case ((passed_widePtr payload.1 rfl).pair (passed_optionU32 payload.2.1 rfl)) [.i32 0] which shape rfl

theorem passed_text {text : Data .spans (.option .string)} (which : tag.toNat = value.tag) (shape : value.payload = ⟨_, text⟩) :
    Passed Types.errorCode value (ErrorCode.args.text tag (Mirror.string.option.struct text)) :=
  Passed.case (passed_widePtr text rfl) [.i32 0, .i32 0, .i32 0] which shape rfl

end Shapes

/-- Every error code arrives as it was passed, although an `int32_t` is extended with its sign where
the host only looks at the lower half. -/
theorem ErrorCode.passed_args (spans : Data .spans Types.errorCode) :
    Passed Types.errorCode spans (ErrorCode.mirror.struct spans).args := by
  rcases spans with ⟨⟩ | payload | ⟨⟩ | ⟨⟩ | ⟨⟩ | ⟨⟩ | ⟨⟩ | ⟨⟩ | ⟨⟩ | ⟨⟩ | ⟨⟩ | ⟨⟩ | ⟨⟩ | ⟨⟩ | payload | ⟨⟩ | ⟨⟩ | payload | ⟨⟩ | ⟨⟩ | ⟨⟩ | payload | payload | payload | payload | ⟨⟩ | payload | payload | payload | payload | payload | payload | payload | ⟨⟩ | ⟨⟩ | ⟨⟩ | ⟨⟩ | ⟨⟩ | payload | ⟨⟨⟩⟩
  any_goals exact .variant rfl rfl rfl
  · exact ((passed_widePtr payload.1 rfl).pair (passed_optionU16 payload.2.1 rfl)).case [.i32 0] rfl rfl rfl
  · exact ((passed_wideU8 payload.1 rfl).pair (passed_optionString payload.2.1 rfl)).case [.i32 0] rfl rfl rfl
  · exact passed_sized64 rfl rfl
  · exact passed_sized32 rfl rfl
  · exact (passed_header payload).whole rfl rfl (passed_header payload).count
  · exact passed_sized32 rfl rfl
  · exact passed_field rfl rfl
  · exact passed_sized32 rfl rfl
  · exact passed_field rfl rfl
  · exact passed_sized64 rfl rfl
  · exact passed_sized32 rfl rfl
  · exact passed_field rfl rfl
  · exact passed_text rfl rfl
  · exact passed_text rfl rfl
  · exact passed_text rfl rfl

theorem ErrorCode.args_kinds (code : ErrorCode Span) :
    code.args.map Arg.kind = [.i32, .i32, .i64, .i32, .i32, .i32, .i32] := by
  cases code with
  | httpRequestHeaderSize payload => cases payload <;> rfl
  | _ => rfl

/-- An adapter that passes a structure: the arguments it makes of it have the core types of the
interface type, and the host lifts from them what the structure holds. -/
structure Passing (type : Ty) (C V : Type) extends Mirror type C V where
  args : C → List Arg
  passes : ∀ spans, Passed type spans (args (struct spans))
  kinds : ∀ spans, (args (struct spans)).map Arg.kind = type.flatten

/-- A host receives the value that the structure stands for in the guest. -/
theorem Passing.received {type : Ty} {C V : Type} (passing : Passing type C V) (memory : Memory)
    (spans : Data .spans type) :
    (receive memory type (passing.args (passing.struct spans))).map passing.value =
      passing.follow memory (passing.struct spans) := by
  rw [passing.follow_eq, receive, (passing.passes spans).lifts_nil]
  rfl

def Method.args : Method Span → List Arg
  | .get => [.i32 0, .i32 0, .i32 0]
  | .head => [.i32 1, .i32 0, .i32 0]
  | .post => [.i32 2, .i32 0, .i32 0]
  | .put => [.i32 3, .i32 0, .i32 0]
  | .delete => [.i32 4, .i32 0, .i32 0]
  | .connect => [.i32 5, .i32 0, .i32 0]
  | .options => [.i32 6, .i32 0, .i32 0]
  | .trace => [.i32 7, .i32 0, .i32 0]
  | .patch => [.i32 8, .i32 0, .i32 0]
  | .other method => [.i32 9, .i32 method.ptr, .i32 method.len]

def setMethod : Passing Types.method (Method Span) (Method Bytes) where
  toMirror := Method.mirror
  args := Method.args
  passes spans := by
    rcases spans with ⟨⟩ | ⟨⟩ | ⟨⟩ | ⟨⟩ | ⟨⟩ | ⟨⟩ | ⟨⟩ | ⟨⟩ | ⟨⟩ | span | ⟨⟨⟩⟩
    all_goals exact .variant rfl rfl rfl
  kinds spans := by
    rcases spans with ⟨⟩ | ⟨⟩ | ⟨⟩ | ⟨⟩ | ⟨⟩ | ⟨⟩ | ⟨⟩ | ⟨⟩ | ⟨⟩ | span | ⟨⟨⟩⟩
    all_goals rfl

def Scheme.args : Scheme Span → List Arg
  | .http => [.i32 0, .i32 0, .i32 0]
  | .https => [.i32 1, .i32 0, .i32 0]
  | .other scheme => [.i32 2, .i32 scheme.ptr, .i32 scheme.len]

def optionSchemeArgs : Option (Scheme Span) → List Arg
  | some val => .i32 1 :: val.args
  | none => [.i32 0, .i32 0, .i32 0, .i32 0]

def setScheme : Passing (.option Types.scheme) (Option (Scheme Span)) (Option (Scheme Bytes)) where
  toMirror := Scheme.mirror.option
  args := optionSchemeArgs
  passes spans := by
    rcases spans with ⟨⟩ | ⟨⟨⟩ | ⟨⟩ | span | ⟨⟨⟩⟩⟩ | ⟨⟨⟩⟩
    · exact .none rfl rfl
    all_goals exact .some rfl (.variant rfl rfl rfl)
  kinds spans := by
    rcases spans with ⟨⟩ | ⟨⟨⟩ | ⟨⟩ | span | ⟨⟨⟩⟩⟩ | ⟨⟨⟩⟩
    all_goals rfl

def optionStringArgs (val : Option Span) : List Arg :=
  let (option, option1, option2) := flatOptionString val
  [.i32 option, .i32 option1, .i32 option2]

def setPathWithQuery : Passing (.option .string) (Option Span) (Option Bytes) where
  toMirror := Mirror.string.option
  args := optionStringArgs
  passes spans := passed_optionString spans rfl
  kinds _ := rfl

abbrev setAuthority := setPathWithQuery

def optionDurationArgs (val : Option (BitVec 64)) : List Arg :=
  let (option, option1) := flatOptionU64 val
  [.i32 option, .i64 option1]

def setConnectTimeout : Passing (.option Types.u64) (Option (BitVec 64)) (Option (BitVec 64)) where
  toMirror := (Mirror.word .double).option
  args := optionDurationArgs
  passes spans := passed_optionU64 spans rfl
  kinds _ := rfl

abbrev setFirstByteTimeout := setConnectTimeout
abbrev setBetweenBytesTimeout := setConnectTimeout

def optionOwnArgs (val : Option Handle) : List Arg :=
  let (option, option1) := flatOptionWord val
  [.i32 option, .i32 option1]

/-- The trailers of `outgoing_body_finish`, which come after the body. -/
def finishTrailers : Passing (.option .handle) (Option Handle) (Option Handle) where
  toMirror := (Mirror.word .single).option
  args := optionOwnArgs
  passes spans := passed_optionU32 spans rfl
  kinds _ := rfl

/-- The options of `handle`, which come after the request. -/
abbrev handleOptions := finishTrailers

/-- A field's key and value: `fields_append` passes the pointer and length of both. -/
def appendField : Passing (.pair .string .string) (Span × Span) (Bytes × Bytes) where
  toMirror := tuple2
  args field := [.i32 field.1.ptr, .i32 field.1.len, .i32 field.2.ptr, .i32 field.2.len]
  passes spans := (Passed.list (.word .byte) (.i32 spans.1.ptr) (.i32 spans.1.len)).pair
    (Passed.list (.word .byte) (.i32 spans.2.1.ptr) (.i32 spans.2.1.len))
  kinds _ := rfl

def responseArgs : Except (ErrorCode Span) Handle → List Arg
  | .error err => .i32 1 :: err.args
  | .ok ok => [.i32 0, .i32 ok, .i32 0, .i64 0, .i32 0, .i32 0, .i32 0, .i32 0]

/-- The response of `response_outparam_set`, which comes after the parameter. -/
def outparamResponse : Passing (.result .handle Types.errorCode) (Except (ErrorCode Span) Handle)
    (Except (ErrorCode Bytes) Handle) where
  toMirror := (Mirror.word .single).result ErrorCode.mirror
  args := responseArgs
  passes spans := by
    obtain handle | code | ⟨⟨⟩⟩ := spans
    · exact .variant rfl rfl (liftCase_here rfl)
    · exact (ErrorCode.passed_args code).whole rfl rfl (ErrorCode.passed_args code).count
  kinds spans := by
    obtain handle | code | ⟨⟨⟩⟩ := spans
    · rfl
    · exact congrArg (Kind.i32 :: ·) (ErrorCode.args_kinds (ErrorCode.mirror.struct code))

/-- The adapters that flatten a structure, by the argument they flatten. -/
inductive Setter where
  | fieldsAppend | setMethod | setPathWithQuery | setScheme | setAuthority | setConnectTimeout | setFirstByteTimeout
  | setBetweenBytesTimeout | outparamResponse | finishTrailers | handleOptions
  deriving DecidableEq, Repr

structure PassingEntry where
  {type : Ty}
  {C V : Type}
  passing : Passing type C V

def passingOf : Setter → PassingEntry
  | .fieldsAppend => ⟨appendField⟩
  | .setMethod => ⟨setMethod⟩
  | .setPathWithQuery => ⟨setPathWithQuery⟩
  | .setScheme => ⟨setScheme⟩
  | .setAuthority => ⟨setAuthority⟩
  | .setConnectTimeout => ⟨setConnectTimeout⟩
  | .setFirstByteTimeout => ⟨setFirstByteTimeout⟩
  | .setBetweenBytesTimeout => ⟨setBetweenBytesTimeout⟩
  | .outparamResponse => ⟨outparamResponse⟩
  | .finishTrailers => ⟨finishTrailers⟩
  | .handleOptions => ⟨handleOptions⟩

/-- Whatever structure a guest passes, its arguments have the core types of the interface, and the
host makes of them the value that the guest itself reads in the structure. -/
theorem arguments_arrive (setter : Setter) (memory : Memory) (spans : Data .spans (passingOf setter).type) :
    ((passingOf setter).passing.args ((passingOf setter).passing.struct spans)).map Arg.kind =
        (passingOf setter).type.flatten ∧
      (receive memory (passingOf setter).type ((passingOf setter).passing.args ((passingOf setter).passing.struct spans))).map
          (passingOf setter).passing.value =
        (passingOf setter).passing.follow memory ((passingOf setter).passing.struct spans) :=
  ⟨(passingOf setter).passing.kinds spans, (passingOf setter).passing.received memory spans⟩

/-- An error code that a guest got from `future_incoming_response_get` and passes on to
`response_outparam_set` arrives there as the host had answered it, as long as the rooms of that
answer have kept their bytes. A response cannot be passed on: the one is incoming, the other
outgoing. -/
theorem error_relayed (malloc : Malloc) {value : Data .lists (.option (.result (.result .handle Types.errorCode) .unit))}
    {code : ErrorCode Bytes} {area : Nat} {before after : Guest}
    (meant : futureIncomingResponseGet.value value = some (.ok (.error code)))
    (frame : ⟨area, futureIncomingResponseGet.retArea⟩ ∈ before.rooms)
    (answered : answer (cabiRealloc malloc) _ value area before = some after) :
    ∃ got taken, futureIncomingResponseGet.lift after.memory area = some (some (.ok (.error got))) ∧
      after.rooms = taken ++ before.rooms ∧
      ∀ later : Memory, Set.EqOn later after.memory (covered taken) →
        (receive later (.result .handle Types.errorCode) (outparamResponse.args (.error got))).map outparamResponse.value =
          some (.error code) := by
  rw [futureIncomingResponseGet.retArea_eq] at frame
  obtain ⟨spans, taken, frees, holds⟩ := answer_answered (cabiRealloc_serves malloc) futureIncomingResponseGet.legal
    frame answered
  have lifts : futureIncomingResponseGet.lift after.memory area = some (futureIncomingResponseGet.struct spans) := by
    rw [futureIncomingResponseGet.lift_eq, holds.got, Option.map_some]
  have follows : ∀ later, Set.EqOn later after.memory (covered taken) →
      futureIncomingResponseGet.follow later (futureIncomingResponseGet.struct spans) = some (some (.ok (.error code))) := by
    intro later kept
    rw [futureIncomingResponseGet.follow_eq, holds.reads later kept, Option.map_some, meant]
  have here := follows after.memory (Set.eqOn_refl _ _)
  obtain ⟨⟩ | ⟨⟨handle | inner | ⟨⟨⟩⟩⟩ | ⟨⟨⟩ | ⟨⟨⟩⟩⟩⟩ | ⟨⟨⟩⟩ := spans
  · cases here
  · cases here
  · refine ⟨ErrorCode.mirror.struct inner, taken, lifts, holds.rooms, fun later kept => ?_⟩
    have same : ((outparamResponse.follow later (.error (ErrorCode.mirror.struct inner))).map
        (Except.ok (ε := Unit))).map some = some (some (.ok (.error code))) := follows later kept
    have passed := outparamResponse.received later (.inr (.inl inner))
    rw [Option.map_map, Option.map_eq_some_iff] at same
    obtain ⟨followed, reads, equal⟩ := same
    cases Except.ok.inj (Option.some.inj equal)
    exact passed.trans reads
  · cases here

/-- A guest in an adapter with 56 bytes of return area. -/
def waiting : Guest := ⟨fun _ => 0, [⟨64, 56⟩], List.pairwise_singleton _ _, fun room inside => by
  rw [List.mem_singleton.mp inside]
  decide⟩

/-- Between the two calls the adapter's frame goes, and header entries are listed and freed. -/
theorem error_relayed_denied : ∃ after left ended outcomes got,
    answer (cabiRealloc bump) _ denied.value 64 waiting = some after ∧
      futureIncomingResponseGet.lift after.memory 64 = some (some (.ok (.error got))) ∧
      after.free 64 = some left ∧ session bump bump [listed] left = some (outcomes, ended) ∧
      (receive ended.memory (.result .handle Types.errorCode) (outparamResponse.args (.error got))).map outparamResponse.value =
        some (.error (.dnsError ⟨some [110, 111], some (BitVec.ofNat 16 3)⟩)) := by
  have relays : ((do
      let after ← answer (cabiRealloc bump) _ denied.value 64 waiting
      let left ← after.free 64
      let between ← session bump bump [listed] left
      return (after, left, between)) : Option (Guest × Guest × List Outcome × Guest)).isSome = true := by decide +kernel
  obtain ⟨run, ran⟩ := Option.isSome_iff_exists.mp relays
  simp only [Option.bind_eq_bind, Option.bind_eq_some_iff, Prod.exists] at ran
  obtain ⟨after, answered, left, gone, outcomes, ended, between, -⟩ := ran
  have meant : futureIncomingResponseGet.value denied.value =
      some (.ok (.error (.dnsError ⟨some [110, 111], some (BitVec.ofNat 16 3)⟩))) := rfl
  obtain ⟨got, taken, lifts, rooms, relayed⟩ := error_relayed bump meant List.mem_cons_self answered
  refine ⟨after, left, ended, outcomes, got, answered, lifts, gone, between, relayed ended.memory ?_⟩
  have stays : covered taken ⊆ covered left.rooms := covered_subset fun room inside =>
    Guest.free_keeps gone (rooms ▸ List.mem_append_left _ inside) (Guest.base_ne rooms inside List.mem_cons_self)
  have kept := (session_ended bump bump between).2.2
  rw [Guest.free_memory gone] at kept
  exact kept.mono stays

end WasiWheels.Adapters
