import WasiWheels.Adapters.Structs

/-! How the adapters lift the structures out of their return areas, at the offsets of the
generated code, and how its free functions take them apart. -/

namespace WasiWheels.Adapters

open Wit

/-- `(T) { (uint8_t*)(*((uint8_t **) ptr)), (*((size_t*) len)) }` -/
def liftSpan (memory : Memory) (ptr len : Nat) : Span := ⟨BitVec.ofNat 32 (memory.load ptr 4), BitVec.ofNat 32 (memory.load len 4)⟩

def liftU8 (memory : Memory) (ptr : Nat) : BitVec 8 := BitVec.ofNat 8 (memory.load ptr 1)
def liftU16 (memory : Memory) (ptr : Nat) : BitVec 16 := BitVec.ofNat 16 (memory.load ptr 2)
def liftU32 (memory : Memory) (ptr : Nat) : BitVec 32 := BitVec.ofNat 32 (memory.load ptr 4)
def liftU64 (memory : Memory) (ptr : Nat) : BitVec 64 := BitVec.ofNat 64 (memory.load ptr 8)

/-- `http_client_string_free` -/
def stringFree (string : Span) : List Nat := freeSpan string

/-- `http_client_option_string_free` -/
def optionStringFree : Option Span → List Nat
  | none => []
  | some val => stringFree val

/-- `http_client_option_u8_free`, `_u16_free`, `_u32_free` and `_u64_free`: nothing to free. -/
def optionWordFree {width : Nat} : Option (BitVec width) → List Nat
  | none => []
  | some _ => []

namespace StreamError

def lift (memory : Memory) (ptr : Nat) : Option StreamError :=
  match memory.load ptr 1 with
  | 0 => some (.lastOperationFailed (liftU32 memory (ptr + 4)))
  | 1 => some .closed
  | _ => none

/-- `wasi_io_streams_stream_error_free` -/
def free : StreamError → List Nat
  | .lastOperationFailed _ => []
  | .closed => []

def cases : Cases (fun _ (error : StreamError) => some error) (fun _ error => some error.free) (.of [.handle, .unit]) :=
  .cons (Mirror.word .single) .lastOperationFailed .lastOperationFailed (fun _ _ => rfl) (fun _ _ => rfl) <|
  .cons .unit (fun _ => .closed) (fun _ => .closed) (fun _ _ => rfl) (fun _ _ => rfl) .nil

theorem lift_eq (memory : Memory) (ptr : Nat) : lift memory ptr = cases.lift memory (memory.load ptr 1) (ptr + 4) := by
  unfold lift
  generalize memory.load ptr 1 = tag
  rcases tag with _ | _ | tag
  · rfl
  · rfl
  · rfl

def mirror : Mirror Types.streamError StreamError StreamError := cases.mirror.lifting lift lift_eq

end StreamError

namespace HeaderError

def lift (memory : Memory) (ptr : Nat) : Option HeaderError :=
  match memory.load ptr 1 with
  | 0 => some .invalidSyntax
  | 1 => some .forbidden
  | 2 => some .immutable
  | _ => none

/-- `wasi_http_types_header_error_free` -/
def free : HeaderError → List Nat
  | .invalidSyntax | .forbidden | .immutable => []

def cases : Cases (fun _ (error : HeaderError) => some error) (fun _ error => some error.free)
    (.of [.unit, .unit, .unit]) :=
  .cons .unit (fun _ => .invalidSyntax) (fun _ => .invalidSyntax) (fun _ _ => rfl) (fun _ _ => rfl) <|
  .cons .unit (fun _ => .forbidden) (fun _ => .forbidden) (fun _ _ => rfl) (fun _ _ => rfl) <|
  .cons .unit (fun _ => .immutable) (fun _ => .immutable) (fun _ _ => rfl) (fun _ _ => rfl) .nil

theorem lift_eq (memory : Memory) (ptr : Nat) : lift memory ptr = cases.lift memory (memory.load ptr 1) (ptr + 1) := by
  unfold lift
  generalize memory.load ptr 1 = tag
  match tag with
  | 0 | 1 | 2 => rfl
  | _ + 3 => rfl

def mirror : Mirror Types.headerError HeaderError HeaderError := cases.mirror.lifting lift lift_eq

end HeaderError

namespace Method

def lift (memory : Memory) (ptr : Nat) : Option (Method Span) :=
  match memory.load ptr 1 with
  | 0 => some .get
  | 1 => some .head
  | 2 => some .post
  | 3 => some .put
  | 4 => some .delete
  | 5 => some .connect
  | 6 => some .options
  | 7 => some .trace
  | 8 => some .patch
  | 9 => some (.other (liftSpan memory (ptr + 4) (ptr + 8)))
  | _ => none

/-- `wasi_http_types_method_free` -/
def free : Method Span → List Nat
  | .other method => stringFree method
  | _ => []

private def bare {tail : Tys} (method : {S : Type} → Method S)
    (map_eq : ∀ {S T : Type} (change : S → T), method.map change = method) (free_eq : method.free = [])
    (rest : Cases (fun memory (method : Method Span) => some (method.map (slice memory)))
      (fun _ method => some method.free) tail) :
    Cases (fun memory (method : Method Span) => some (method.map (slice memory))) (fun _ method => some method.free)
      (.cons .unit tail) :=
  .cons .unit (fun _ => method) (fun _ => method) (fun memory _ => by rw [map_eq (slice memory)]; rfl)
    (fun _ _ => by rw [free_eq]; rfl) rest

def cases : Cases (fun memory (method : Method Span) => some (method.map (slice memory)))
    (fun _ method => some method.free) Types.methods :=
  bare .get (fun _ => rfl) rfl <| bare .head (fun _ => rfl) rfl <| bare .post (fun _ => rfl) rfl <|
  bare .put (fun _ => rfl) rfl <| bare .delete (fun _ => rfl) rfl <| bare .connect (fun _ => rfl) rfl <|
  bare .options (fun _ => rfl) rfl <| bare .trace (fun _ => rfl) rfl <| bare .patch (fun _ => rfl) rfl <|
  .cons Mirror.string .other .other (fun _ _ => rfl) (fun _ _ => rfl) .nil

theorem lift_eq (memory : Memory) (ptr : Nat) : lift memory ptr = cases.lift memory (memory.load ptr 1) (ptr + 4) := by
  unfold lift
  generalize memory.load ptr 1 = tag
  match tag with
  | 0 | 1 | 2 | 3 | 4 | 5 | 6 | 7 | 8 | 9 => rfl
  | _ + 10 => rfl

def mirror : Mirror Types.method (Method Span) (Method Bytes) := cases.mirror.lifting lift lift_eq

end Method

namespace Scheme

def lift (memory : Memory) (ptr : Nat) : Option (Scheme Span) :=
  match memory.load ptr 1 with
  | 0 => some .http
  | 1 => some .https
  | 2 => some (.other (liftSpan memory (ptr + 4) (ptr + 8)))
  | _ => none

/-- `wasi_http_types_scheme_free` -/
def free : Scheme Span → List Nat
  | .other scheme => stringFree scheme
  | _ => []

def cases : Cases (fun memory (scheme : Scheme Span) => some (scheme.map (slice memory)))
    (fun _ scheme => some scheme.free) (.of [.unit, .unit, .string]) :=
  .cons .unit (fun _ => .http) (fun _ => .http) (fun _ _ => rfl) (fun _ _ => rfl) <|
  .cons .unit (fun _ => .https) (fun _ => .https) (fun _ _ => rfl) (fun _ _ => rfl) <|
  .cons Mirror.string .other .other (fun _ _ => rfl) (fun _ _ => rfl) .nil

theorem lift_eq (memory : Memory) (ptr : Nat) : lift memory ptr = cases.lift memory (memory.load ptr 1) (ptr + 4) := by
  unfold lift
  generalize memory.load ptr 1 = tag
  match tag with
  | 0 | 1 | 2 => rfl
  | _ + 3 => rfl

def mirror : Mirror Types.scheme (Scheme Span) (Scheme Bytes) := cases.mirror.lifting lift lift_eq

end Scheme

namespace DNSErrorPayload

def lift (memory : Memory) (ptr : Nat) : Option (DNSErrorPayload Span) := do
  let rcode ← switchOption (memory.load ptr 1) (some (liftSpan memory (ptr + 4) (ptr + 8)))
  let infoCode ← switchOption (memory.load (ptr + 12) 1) (some (liftU16 memory (ptr + 14)))
  return ⟨rcode, infoCode⟩

/-- `wasi_http_types_dns_error_payload_free` -/
def free (payload : DNSErrorPayload Span) : List Nat := optionStringFree payload.rcode ++ optionWordFree payload.infoCode

def mirror : Mirror Types.dnsErrorPayload (DNSErrorPayload Span) (DNSErrorPayload Bytes) :=
  (Mirror.string.option.members (Mirror.word .half).option .mk .mk (fun memory payload => some (payload.map (slice memory)))
    (fun _ payload => some payload.free) (fun _ here next => by cases here <;> cases next <;> rfl)
    (fun _ here next => by cases here <;> cases next <;> rfl)).lifting lift fun _ _ => rfl

end DNSErrorPayload

namespace TLSAlertReceivedPayload

def lift (memory : Memory) (ptr : Nat) : Option (TLSAlertReceivedPayload Span) := do
  let alertId ← switchOption (memory.load ptr 1) (some (liftU8 memory (ptr + 1)))
  let alertMessage ← switchOption (memory.load (ptr + 4) 1) (some (liftSpan memory (ptr + 8) (ptr + 12)))
  return ⟨alertId, alertMessage⟩

/-- `wasi_http_types_tls_alert_received_payload_free` -/
def free (payload : TLSAlertReceivedPayload Span) : List Nat :=
  optionWordFree payload.alertId ++ optionStringFree payload.alertMessage

def mirror : Mirror Types.tlsAlertReceivedPayload (TLSAlertReceivedPayload Span) (TLSAlertReceivedPayload Bytes) :=
  ((Mirror.word .byte).option.members Mirror.string.option .mk .mk (fun memory payload => some (payload.map (slice memory)))
    (fun _ payload => some payload.free) (fun _ here next => by cases here <;> cases next <;> rfl)
    (fun _ here next => by cases here <;> cases next <;> rfl)).lifting lift fun _ _ => rfl

end TLSAlertReceivedPayload

namespace FieldSizePayload

def lift (memory : Memory) (ptr : Nat) : Option (FieldSizePayload Span) := do
  let fieldName ← switchOption (memory.load ptr 1) (some (liftSpan memory (ptr + 4) (ptr + 8)))
  let fieldSize ← switchOption (memory.load (ptr + 12) 1) (some (liftU32 memory (ptr + 16)))
  return ⟨fieldName, fieldSize⟩

/-- `wasi_http_types_field_size_payload_free` -/
def free (payload : FieldSizePayload Span) : List Nat :=
  optionStringFree payload.fieldName ++ optionWordFree payload.fieldSize

def mirror : Mirror Types.fieldSizePayload (FieldSizePayload Span) (FieldSizePayload Bytes) :=
  (Mirror.string.option.members (Mirror.word .single).option .mk .mk (fun memory payload => some (payload.map (slice memory)))
    (fun _ payload => some payload.free) (fun _ here next => by cases here <;> cases next <;> rfl)
    (fun _ here next => by cases here <;> cases next <;> rfl)).lifting lift fun _ _ => rfl

end FieldSizePayload

/-- `wasi_http_types_option_field_size_payload_free` -/
def optionFieldSizePayloadFree : Option (FieldSizePayload Span) → List Nat
  | none => []
  | some val => val.free

namespace ErrorCode

/-- The switch over `variant.tag`, its payload eight bytes after the tag. Another tag leaves
the structure unset. -/
def lift (memory : Memory) (ptr : Nat) : Option (ErrorCode Span) :=
  match memory.load ptr 1 with
  | 1 => (DNSErrorPayload.lift memory (ptr + 8)).map .dnsError
  | 14 => (TLSAlertReceivedPayload.lift memory (ptr + 8)).map .tlsAlertReceived
  | 17 => (switchOption (memory.load (ptr + 8) 1) (some (liftU64 memory (ptr + 16)))).map .httpRequestBodySize
  | 21 => (switchOption (memory.load (ptr + 8) 1) (some (liftU32 memory (ptr + 12)))).map .httpRequestHeaderSectionSize
  | 22 => (switchOption (memory.load (ptr + 8) 1) (FieldSizePayload.lift memory (ptr + 12))).map .httpRequestHeaderSize
  | 23 => (switchOption (memory.load (ptr + 8) 1) (some (liftU32 memory (ptr + 12)))).map .httpRequestTrailerSectionSize
  | 24 => (FieldSizePayload.lift memory (ptr + 8)).map .httpRequestTrailerSize
  | 26 => (switchOption (memory.load (ptr + 8) 1) (some (liftU32 memory (ptr + 12)))).map .httpResponseHeaderSectionSize
  | 27 => (FieldSizePayload.lift memory (ptr + 8)).map .httpResponseHeaderSize
  | 28 => (switchOption (memory.load (ptr + 8) 1) (some (liftU64 memory (ptr + 16)))).map .httpResponseBodySize
  | 29 => (switchOption (memory.load (ptr + 8) 1) (some (liftU32 memory (ptr + 12)))).map .httpResponseTrailerSectionSize
  | 30 => (FieldSizePayload.lift memory (ptr + 8)).map .httpResponseTrailerSize
  | 31 => (switchOption (memory.load (ptr + 8) 1) (some (liftSpan memory (ptr + 12) (ptr + 16)))).map
    .httpResponseTransferCoding
  | 32 => (switchOption (memory.load (ptr + 8) 1) (some (liftSpan memory (ptr + 12) (ptr + 16)))).map
    .httpResponseContentCoding
  | 38 => (switchOption (memory.load (ptr + 8) 1) (some (liftSpan memory (ptr + 12) (ptr + 16)))).map .internalError
  | tag => if tag < 39 then some (.plain tag) else none

/-- `wasi_http_types_error_code_free` -/
def free : ErrorCode Span → List Nat
  | .plain _ => []
  | .dnsError payload => payload.free
  | .tlsAlertReceived payload => payload.free
  | .httpRequestBodySize size | .httpResponseBodySize size => optionWordFree size
  | .httpRequestHeaderSectionSize size | .httpRequestTrailerSectionSize size | .httpResponseHeaderSectionSize size |
    .httpResponseTrailerSectionSize size => optionWordFree size
  | .httpRequestHeaderSize payload => optionFieldSizePayloadFree payload
  | .httpRequestTrailerSize payload | .httpResponseHeaderSize payload | .httpResponseTrailerSize payload => payload.free
  | .httpResponseTransferCoding coding | .httpResponseContentCoding coding => optionStringFree coding
  | .internalError message => optionStringFree message

/-- A case without a payload. -/
private def bare {tail : Tys} (tag : Nat)
    (rest : Cases (fun memory (code : ErrorCode Span) => some (code.map (slice memory))) (fun _ code => some code.free) tail) :
    Cases (fun memory (code : ErrorCode Span) => some (code.map (slice memory))) (fun _ code => some code.free)
      (.cons .unit tail) :=
  .cons .unit (fun _ => .plain tag) (fun _ => .plain tag) (fun _ _ => rfl) (fun _ _ => rfl) rest

def cases : Cases (fun memory (code : ErrorCode Span) => some (code.map (slice memory))) (fun _ code => some code.free)
    Types.errorCodes :=
  bare 0 <|
  .cons DNSErrorPayload.mirror .dnsError .dnsError (fun _ _ => rfl) (fun _ _ => rfl) <|
  bare 2 <| bare 3 <| bare 4 <| bare 5 <| bare 6 <| bare 7 <| bare 8 <| bare 9 <| bare 10 <| bare 11 <| bare 12 <| bare 13 <|
  .cons TLSAlertReceivedPayload.mirror .tlsAlertReceived .tlsAlertReceived (fun _ _ => rfl) (fun _ _ => rfl) <|
  bare 15 <| bare 16 <|
  .cons (Mirror.word .double).option .httpRequestBodySize .httpRequestBodySize
    (fun _ payload => by cases payload <;> rfl) (fun _ payload => by cases payload <;> rfl) <|
  bare 18 <| bare 19 <| bare 20 <|
  .cons (Mirror.word .single).option .httpRequestHeaderSectionSize .httpRequestHeaderSectionSize
    (fun _ payload => by cases payload <;> rfl) (fun _ payload => by cases payload <;> rfl) <|
  .cons FieldSizePayload.mirror.option .httpRequestHeaderSize .httpRequestHeaderSize
    (fun _ payload => by cases payload <;> rfl) (fun _ payload => by cases payload <;> rfl) <|
  .cons (Mirror.word .single).option .httpRequestTrailerSectionSize .httpRequestTrailerSectionSize
    (fun _ payload => by cases payload <;> rfl) (fun _ payload => by cases payload <;> rfl) <|
  .cons FieldSizePayload.mirror .httpRequestTrailerSize .httpRequestTrailerSize (fun _ _ => rfl) (fun _ _ => rfl) <|
  bare 25 <|
  .cons (Mirror.word .single).option .httpResponseHeaderSectionSize .httpResponseHeaderSectionSize
    (fun _ payload => by cases payload <;> rfl) (fun _ payload => by cases payload <;> rfl) <|
  .cons FieldSizePayload.mirror .httpResponseHeaderSize .httpResponseHeaderSize (fun _ _ => rfl) (fun _ _ => rfl) <|
  .cons (Mirror.word .double).option .httpResponseBodySize .httpResponseBodySize
    (fun _ payload => by cases payload <;> rfl) (fun _ payload => by cases payload <;> rfl) <|
  .cons (Mirror.word .single).option .httpResponseTrailerSectionSize .httpResponseTrailerSectionSize
    (fun _ payload => by cases payload <;> rfl) (fun _ payload => by cases payload <;> rfl) <|
  .cons FieldSizePayload.mirror .httpResponseTrailerSize .httpResponseTrailerSize (fun _ _ => rfl) (fun _ _ => rfl) <|
  .cons Mirror.string.option .httpResponseTransferCoding .httpResponseTransferCoding
    (fun _ payload => by cases payload <;> rfl) (fun _ payload => by cases payload <;> rfl) <|
  .cons Mirror.string.option .httpResponseContentCoding .httpResponseContentCoding
    (fun _ payload => by cases payload <;> rfl) (fun _ payload => by cases payload <;> rfl) <|
  bare 33 <| bare 34 <| bare 35 <| bare 36 <| bare 37 <|
  .cons Mirror.string.option .internalError .internalError
    (fun _ payload => by cases payload <;> rfl) (fun _ payload => by cases payload <;> rfl) <|
  .nil

theorem lift_eq (memory : Memory) (ptr : Nat) :
    lift memory ptr = cases.lift memory (memory.load ptr 1) (ptr + 8) := by
  unfold lift
  generalize memory.load ptr 1 = tag
  match tag with
  | 0 | 1 | 2 | 3 | 4 | 5 | 6 | 7 | 8 | 9 | 10 | 11 | 12 | 13 | 14 | 15 | 16 | 17 | 18 | 19 => rfl
  | 20 | 21 | 22 | 23 | 24 | 25 | 26 | 27 | 28 | 29 | 30 | 31 | 32 | 33 | 34 | 35 | 36 | 37 | 38 => rfl
  | _ + 39 => rfl

def mirror : Mirror Types.errorCode (ErrorCode Span) (ErrorCode Bytes) := cases.mirror.lifting lift lift_eq

end ErrorCode

end WasiWheels.Adapters
