import WasiWheels.Adapters.Lifts

/-! The adapters that hand the host a return area, and what the caller of one gets: the
value the host answered, in memory that the caller can free. -/

namespace WasiWheels.Adapters

open Wit
open Guest (Realloc Serves)

/-- The C library's `malloc`. -/
structure Malloc where
  call : Guest → (size : Nat) → Option (Nat × Guest)
  takes : ∀ {guest size base after}, call guest size = some (base, after) →
    after.rooms = ⟨base, size⟩ :: guest.rooms ∧ Set.EqOn after.memory guest.memory (covered guest.rooms)

/-- `cabi_realloc` of a null pointer, as the host calls it. It aborts where `malloc` fails. -/
def cabiRealloc (malloc : Malloc) : Realloc := fun guest align newSize =>
  if newSize = 0 then some (align, guest) else malloc.call guest newSize

theorem cabiRealloc_serves (malloc : Malloc) : Serves (cabiRealloc malloc) where
  takes some answer := by
    rw [cabiRealloc, if_neg (Nat.ne_of_gt some)] at answer
    exact malloc.takes answer
  idle answer := by
    rw [cabiRealloc, if_pos rfl] at answer
    exact (Prod.mk.inj (Option.some.inj answer)).2.symm

/-- An adapter with its return area, `uint8_t ret_area[retArea]` aligned to `aligned`, which are
the size and alignment of the type it returns. -/
structure Adapter (type : Ty) (C V : Type) extends Mirror type C V where
  retArea : Nat
  aligned : Nat
  legal : type.Legal
  retArea_eq : retArea = type.size
  aligned_eq : aligned = type.align

section Shapes

/-! Adapters of one shape read their return area alike. -/

def listU8OrStreamError : Adapter (.result .string Types.streamError) (Except StreamError Span) (Except StreamError Bytes) where
  toMirror := (Mirror.string.result StreamError.mirror).lifting
    (fun memory ptr => switchResult (memory.load ptr 1) (some (liftSpan memory (ptr + 4) (ptr + 8)))
      (StreamError.lift memory (ptr + 4))) fun _ _ => rfl
  retArea := 12
  aligned := 4
  legal := by decide
  retArea_eq := rfl
  aligned_eq := rfl

def u64OrStreamError : Adapter (.result Types.u64 Types.streamError) (Except StreamError (BitVec 64)) (Except StreamError (BitVec 64)) where
  toMirror := ((Mirror.word .double).result StreamError.mirror).lifting
    (fun memory ptr => switchResult (memory.load ptr 1) (some (liftU64 memory (ptr + 8)))
      (StreamError.lift memory (ptr + 8))) fun _ _ => rfl
  retArea := 16
  aligned := 8
  legal := by decide
  retArea_eq := rfl
  aligned_eq := rfl

def voidOrStreamError : Adapter (.result .unit Types.streamError) (Except StreamError Unit) (Except StreamError Unit) where
  toMirror := (Mirror.unit.result StreamError.mirror).lifting
    (fun memory ptr => switchResult (memory.load ptr 1) (some ()) (StreamError.lift memory (ptr + 4))) fun _ _ => rfl
  retArea := 12
  aligned := 4
  legal := by decide
  retArea_eq := rfl
  aligned_eq := rfl

def voidOrHeaderError : Adapter (.result .unit Types.headerError) (Except HeaderError Unit) (Except HeaderError Unit) where
  toMirror := (Mirror.unit.result HeaderError.mirror).lifting
    (fun memory ptr => switchResult (memory.load ptr 1) (some ()) (HeaderError.lift memory (ptr + 1))) fun _ _ => rfl
  retArea := 2
  aligned := 1
  legal := by decide
  retArea_eq := rfl
  aligned_eq := rfl

def ownOrVoid : Adapter (.result .handle .unit) (Except Unit Handle) (Except Unit Handle) where
  toMirror := ((Mirror.word .single).result Mirror.unit).lifting
    (fun memory ptr => switchResult (memory.load ptr 1) (some (liftU32 memory (ptr + 4))) (some ())) fun _ _ => rfl
  retArea := 8
  aligned := 4
  legal := by decide
  retArea_eq := rfl
  aligned_eq := rfl

def optionString : Adapter (.option .string) (Option Span) (Option Bytes) where
  toMirror := Mirror.string.option.lifting
    (fun memory ptr => switchOption (memory.load ptr 1) (some (liftSpan memory (ptr + 4) (ptr + 8)))) fun _ _ => rfl
  retArea := 12
  aligned := 4
  legal := by decide
  retArea_eq := rfl
  aligned_eq := rfl

def optionScheme : Adapter (.option Types.scheme) (Option (Scheme Span)) (Option (Scheme Bytes)) where
  toMirror := Scheme.mirror.option.lifting
    (fun memory ptr => switchOption (memory.load ptr 1) (Scheme.lift memory (ptr + 4))) fun _ _ => rfl
  retArea := 16
  aligned := 4
  legal := by decide
  retArea_eq := rfl
  aligned_eq := rfl

def optionDuration : Adapter (.option Types.u64) (Option (BitVec 64)) (Option (BitVec 64)) where
  toMirror := (Mirror.word .double).option.lifting
    (fun memory ptr => switchOption (memory.load ptr 1) (some (liftU64 memory (ptr + 8)))) fun _ _ => rfl
  retArea := 16
  aligned := 8
  legal := by decide
  retArea_eq := rfl
  aligned_eq := rfl

def method : Adapter Types.method (Method Span) (Method Bytes) where
  toMirror := Method.mirror.lifting
    (fun memory ptr => Method.lift memory ptr) fun _ _ => rfl
  retArea := 12
  aligned := 4
  legal := by decide
  retArea_eq := rfl
  aligned_eq := rfl

abbrev inputStreamRead := listU8OrStreamError
abbrev inputStreamBlockingRead := listU8OrStreamError
abbrev inputStreamSkip := u64OrStreamError
abbrev inputStreamBlockingSkip := u64OrStreamError
abbrev outputStreamCheckWrite := u64OrStreamError
abbrev outputStreamSplice := u64OrStreamError
abbrev outputStreamBlockingSplice := u64OrStreamError
abbrev outputStreamWrite := voidOrStreamError
abbrev outputStreamBlockingWriteAndFlush := voidOrStreamError
abbrev outputStreamFlush := voidOrStreamError
abbrev outputStreamBlockingFlush := voidOrStreamError
abbrev outputStreamWriteZeroes := voidOrStreamError
abbrev outputStreamBlockingWriteZeroesAndFlush := voidOrStreamError
abbrev fieldsSet := voidOrHeaderError
abbrev fieldsDelete := voidOrHeaderError
abbrev fieldsAppend := voidOrHeaderError
abbrev incomingRequestConsume := ownOrVoid
abbrev outgoingRequestBody := ownOrVoid
abbrev incomingResponseConsume := ownOrVoid
abbrev incomingBodyStream := ownOrVoid
abbrev outgoingResponseBody := ownOrVoid
abbrev outgoingBodyWrite := ownOrVoid
abbrev incomingRequestPathWithQuery := optionString
abbrev incomingRequestAuthority := optionString
abbrev outgoingRequestPathWithQuery := optionString
abbrev outgoingRequestAuthority := optionString
abbrev incomingRequestScheme := optionScheme
abbrev outgoingRequestScheme := optionScheme
abbrev requestOptionsConnectTimeout := optionDuration
abbrev requestOptionsFirstByteTimeout := optionDuration
abbrev requestOptionsBetweenBytesTimeout := optionDuration
abbrev incomingRequestMethod := method
abbrev outgoingRequestMethod := method

end Shapes

/-- `wasi_io_poll_poll`: the indices of the ready pollables. -/
def pollPoll : Adapter (.list Types.u32) Span (List (BitVec 32)) where
  toMirror := ((Mirror.word .single).flat fun _ _ => rfl).lifting (fun memory ptr => some (liftSpan memory ptr (ptr + 4)))
    fun _ _ => rfl
  retArea := 8
  aligned := 4
  legal := by decide
  retArea_eq := rfl
  aligned_eq := rfl

def errorToDebugString : Adapter .string Span Bytes where
  toMirror := Mirror.string.lifting (fun memory ptr => some (liftSpan memory ptr (ptr + 4))) fun _ _ => rfl
  retArea := 8
  aligned := 4
  legal := by decide
  retArea_eq := rfl
  aligned_eq := rfl

/-- `http_client_list_field_value_free` -/
def listFieldValueFree (memory : Memory) (list : Span) : Option (List Nat) :=
  freeEach list.len.toNat list.ptr.toNat 8 fun address => some (freeSpan (liftSpan memory address (address + 4)))

def fieldsGet : Adapter (.list .string) Span (List Bytes) where
  toMirror := (Mirror.string.list.freeing listFieldValueFree fun _ _ => rfl).lifting
    (fun memory ptr => some (liftSpan memory ptr (ptr + 4))) fun _ _ => rfl
  retArea := 8
  aligned := 4
  legal := by decide
  retArea_eq := rfl
  aligned_eq := rfl

/-- `http_client_tuple2_field_key_field_value_free` of the tuple at an address. -/
def tuple2Free (memory : Memory) (address : Nat) : List Nat :=
  stringFree (liftSpan memory address (address + 4)) ++ freeSpan (liftSpan memory (address + 8) (address + 12))

/-- `http_client_list_tuple2_field_key_field_value_free` -/
def listTuple2Free (memory : Memory) (list : Span) : Option (List Nat) :=
  freeEach list.len.toNat list.ptr.toNat 16 fun address => some (tuple2Free memory address)

def tuple2 : Mirror (.pair .string .string) (Span × Span) (Bytes × Bytes) :=
  Mirror.string.members Mirror.string .mk .mk
    (fun memory tuple => some (slice memory tuple.1, slice memory tuple.2))
    (fun _ tuple => some (stringFree tuple.1 ++ freeSpan tuple.2)) (fun _ _ _ => rfl) (fun _ _ _ => rfl)

def fieldsEntries : Adapter (.list (.pair .string .string)) Span (List (Bytes × Bytes)) where
  toMirror := (tuple2.list.freeing listTuple2Free fun _ _ => rfl).lifting
    (fun memory ptr => some (liftSpan memory ptr (ptr + 4))) fun _ _ => rfl
  retArea := 8
  aligned := 4
  legal := by decide
  retArea_eq := rfl
  aligned_eq := rfl

def fieldsFromList : Adapter (.result .handle Types.headerError) (Except HeaderError Handle) (Except HeaderError Handle) where
  toMirror := ((Mirror.word .single).result HeaderError.mirror).lifting
    (fun memory ptr => switchResult (memory.load ptr 1) (some (liftU32 memory (ptr + 4)))
      (HeaderError.lift memory (ptr + 4))) fun _ _ => rfl
  retArea := 8
  aligned := 4
  legal := by decide
  retArea_eq := rfl
  aligned_eq := rfl

private theorem httpErrorCode_type : (Ty.option Types.errorCode).Legal ∧
    40 = (Ty.option Types.errorCode).size ∧ 8 = (Ty.option Types.errorCode).align := by
  decide +kernel

def httpErrorCode : Adapter (.option Types.errorCode) (Option (ErrorCode Span)) (Option (ErrorCode Bytes)) where
  toMirror := ErrorCode.mirror.option.lifting
    (fun memory ptr => switchOption (memory.load ptr 1) (ErrorCode.lift memory (ptr + 8))) fun _ _ => by
      simp only [Mirror.option, Types.errorCode_align]
      rfl
  retArea := 40
  aligned := 8
  legal := httpErrorCode_type.1
  retArea_eq := httpErrorCode_type.2.1
  aligned_eq := httpErrorCode_type.2.2

private theorem outgoingBodyFinish_type : (Ty.result .unit Types.errorCode).Legal ∧
    40 = (Ty.result .unit Types.errorCode).size ∧ 8 = (Ty.result .unit Types.errorCode).align := by
  decide +kernel

def outgoingBodyFinish : Adapter (.result .unit Types.errorCode) (Except (ErrorCode Span) Unit)
    (Except (ErrorCode Bytes) Unit) where
  toMirror := (Mirror.unit.result ErrorCode.mirror).lifting
    (fun memory ptr => switchResult (memory.load ptr 1) (some ()) (ErrorCode.lift memory (ptr + 8))) fun _ _ => by
      simp only [Mirror.result, Types.errorCode_align]
      rfl
  retArea := 40
  aligned := 8
  legal := outgoingBodyFinish_type.1
  retArea_eq := outgoingBodyFinish_type.2.1
  aligned_eq := outgoingBodyFinish_type.2.2

private theorem outgoingHandlerHandle_type : (Ty.result .handle Types.errorCode).Legal ∧
    40 = (Ty.result .handle Types.errorCode).size ∧ 8 = (Ty.result .handle Types.errorCode).align := by
  decide +kernel

def outgoingHandlerHandle : Adapter (.result .handle Types.errorCode) (Except (ErrorCode Span) Handle)
    (Except (ErrorCode Bytes) Handle) where
  toMirror := ((Mirror.word .single).result ErrorCode.mirror).lifting
    (fun memory ptr => switchResult (memory.load ptr 1) (some (liftU32 memory (ptr + 8)))
      (ErrorCode.lift memory (ptr + 8))) fun _ _ => by
      simp only [Mirror.result, Types.errorCode_align]
      rfl
  retArea := 40
  aligned := 8
  legal := outgoingHandlerHandle_type.1
  retArea_eq := outgoingHandlerHandle_type.2.1
  aligned_eq := outgoingHandlerHandle_type.2.2

private theorem futureTrailersGet_type : (Ty.option (.result (.result (.option .handle) Types.errorCode) .unit)).Legal ∧
    56 = (Ty.option (.result (.result (.option .handle) Types.errorCode) .unit)).size ∧ 8 = (Ty.option (.result (.result (.option .handle) Types.errorCode) .unit)).align := by
  decide +kernel

def futureTrailersGet : Adapter (.option (.result (.result (.option .handle) Types.errorCode) .unit))
    (Option (Except Unit (Except (ErrorCode Span) (Option Handle))))
    (Option (Except Unit (Except (ErrorCode Bytes) (Option Handle)))) where
  toMirror := (((Mirror.word .single).option.result ErrorCode.mirror).result Mirror.unit).option.lifting
    (fun memory ptr => switchOption (memory.load ptr 1) (switchResult (memory.load (ptr + 8) 1)
      (switchResult (memory.load (ptr + 16) 1)
        (switchOption (memory.load (ptr + 24) 1) (some (liftU32 memory (ptr + 28))))
        (ErrorCode.lift memory (ptr + 24)))
      (some ()))) fun _ _ => by
      simp only [Mirror.option, Mirror.result, align_result, Types.errorCode_align]
      rfl
  retArea := 56
  aligned := 8
  legal := futureTrailersGet_type.1
  retArea_eq := futureTrailersGet_type.2.1
  aligned_eq := futureTrailersGet_type.2.2

private theorem futureIncomingResponseGet_type : (Ty.option (.result (.result .handle Types.errorCode) .unit)).Legal ∧
    56 = (Ty.option (.result (.result .handle Types.errorCode) .unit)).size ∧ 8 = (Ty.option (.result (.result .handle Types.errorCode) .unit)).align := by
  decide +kernel

def futureIncomingResponseGet : Adapter (.option (.result (.result .handle Types.errorCode) .unit))
    (Option (Except Unit (Except (ErrorCode Span) Handle))) (Option (Except Unit (Except (ErrorCode Bytes) Handle))) where
  toMirror := (((Mirror.word .single).result ErrorCode.mirror).result Mirror.unit).option.lifting
    (fun memory ptr => switchOption (memory.load ptr 1) (switchResult (memory.load (ptr + 8) 1)
      (switchResult (memory.load (ptr + 16) 1) (some (liftU32 memory (ptr + 24))) (ErrorCode.lift memory (ptr + 24)))
      (some ()))) fun _ _ => by
      simp only [Mirror.option, Mirror.result, align_result, Types.errorCode_align]
      rfl
  retArea := 56
  aligned := 8
  legal := futureIncomingResponseGet_type.1
  retArea_eq := futureIncomingResponseGet_type.2.1
  aligned_eq := futureIncomingResponseGet_type.2.2

end WasiWheels.Adapters
