import WasiWheels.Core.Block
import WasiWheels.Core.Ledger

/-! What the generated wasi:http bindings and DuckDB offer to the client: the
host as a script of answers, the calls a run makes, and the handles in them. -/

namespace WasiWheels.Transport

abbrev Bytes := List UInt8

inductive Method where
  | get | head | post | put | delete | connect | options | trace | patch
  deriving DecidableEq, Repr

inductive Scheme where
  | http | https
  deriving DecidableEq, Repr

inductive HeaderError where
  | invalidSyntax | forbidden | immutable
  deriving DecidableEq, Repr

/-- `last-operation-failed` owns an error resource; `debug` is what its
`to-debug-string` answers. -/
inductive StreamError where
  | lastOperationFailed (debug : String)
  | closed
  deriving DecidableEq, Repr

structure FieldSizePayload where
  fieldName : Option String
  fieldSize : Option UInt32
  deriving DecidableEq, Repr

/-- The variants with a payload by name, the others by their tag. -/
inductive ErrorCode where
  | plain (tag : Nat)
  | dnsError (rcode : Option String) (infoCode : Option UInt16)
  | tlsAlertReceived (alertId : Option UInt8) (alertMessage : Option String)
  | httpRequestBodySize (size : Option UInt64)
  | httpRequestHeaderSectionSize (size : Option UInt32)
  | httpRequestHeaderSize (payload : Option FieldSizePayload)
  | httpRequestTrailerSectionSize (size : Option UInt32)
  | httpRequestTrailerSize (payload : FieldSizePayload)
  | httpResponseHeaderSectionSize (size : Option UInt32)
  | httpResponseHeaderSize (payload : FieldSizePayload)
  | httpResponseBodySize (size : Option UInt64)
  | httpResponseTrailerSectionSize (size : Option UInt32)
  | httpResponseTrailerSize (payload : FieldSizePayload)
  | httpResponseTransferCoding (coding : Option String)
  | httpResponseContentCoding (coding : Option String)
  | internalError (message : Option String)
  deriving DecidableEq, Repr

/-- What `future-incoming-response.get` wrote into `got`: the outer error, or
the inner error code, or the response. -/
abbrev Got := Except Unit (Except ErrorCode Unit)

/-- The host's answer to every call a run can make. Repeated calls are numbered
from 0; the body is read in the chunks `reads` until `readEnd`. -/
structure HostScript where
  append : Nat → Option HeaderError
  setMethod : Bool
  setScheme : Bool
  setAuthority : Bool
  setPathWithQuery : Bool
  body : Bool
  handle : Option ErrorCode
  write : Bool
  blockingWriteAndFlush : Nat → Option StreamError
  finish : Option ErrorCode
  get : Option Got
  status : UInt16
  entries : List (String × String)
  consume : Bool
  stream : Bool
  reads : List Bytes
  readEnd : StreamError

/-- A host that takes everything and answers an empty response. -/
def HostScript.willing : HostScript where
  append _ := none
  setMethod := true
  setScheme := true
  setAuthority := true
  setPathWithQuery := true
  body := true
  handle := none
  write := true
  blockingWriteAndFlush _ := none
  finish := none
  get := some (.ok (.ok ()))
  status := 200
  entries := []
  consume := true
  stream := true
  reads := []
  readEnd := .closed

/-- What a `std::function` callback did: it returned, or it threw. -/
inductive Callback where
  | returned (value : Bool)
  | threw (what : String)
  deriving DecidableEq, Repr

/-- Owned resources, named by the variable of the client that receives them.
A run receives each at most once; `error` is the payload of a stream error. -/
inductive Handle where
  | fields | request | outBody | outStream | future | pollable | incoming | rh | body | stream | error
  deriving DecidableEq, Repr

/-- The resource a host requires to outlive this one. -/
def Handle.parent : Handle → Option Handle
  | .rh => some .incoming
  | .stream => some .body
  | .outStream => some .outBody
  | .pollable => some .future
  | _ => none

/-- Guest memory the host allocated for an answer. -/
inductive Buffer where
  | chunk (bytes : Bytes)
  | text (text : String)
  | entries (entries : List (String × String))
  deriving DecidableEq, Repr

/-- Every call a run makes out of its own code, with the answer it got. -/
inductive Call where
  | constructorFields
  | fieldsAppend (key value : String) (answer : Option HeaderError)
  | constructorOutgoingRequest
  | setMethod (method : Method) (accepted : Bool)
  | setScheme (scheme : Scheme) (accepted : Bool)
  | setAuthority (authority : String) (accepted : Bool)
  | setPathWithQuery (pathWithQuery : String) (accepted : Bool)
  | outgoingRequestBody (accepted : Bool)
  | outgoingHandlerHandle (answer : Option ErrorCode)
  | outgoingBodyWrite (accepted : Bool)
  | blockingWriteAndFlush (contents : Bytes) (answer : Option StreamError)
  | outgoingBodyFinish (answer : Option ErrorCode)
  | subscribe
  | pollableBlock
  | futureGet (answer : Option Got)
  | responseStatus (status : UInt16)
  | responseHeaders
  | fieldsEntries (entries : List (String × String))
  | responseConsume (accepted : Bool)
  | bodyStream (accepted : Bool)
  | blockingRead (length : Nat) (answer : Except StreamError Bytes)
  | errorToDebugString (debug : String)
  | headersInsert (key value : String)
  | responseHandler (outcome : Callback)
  | contentHandler (chunk : Bytes) (outcome : Callback)
  | free (buffer : Buffer)
  | freeUnfilled
  deriving DecidableEq

/-- The handle an answer carries to the caller, as an `own`. -/
def Call.produces : Call → Option Handle
  | .constructorFields => some .fields
  | .constructorOutgoingRequest => some .request
  | .outgoingRequestBody true => some .outBody
  | .outgoingHandlerHandle none => some .future
  | .outgoingBodyWrite true => some .outStream
  | .blockingWriteAndFlush _ (some (.lastOperationFailed _)) => some .error
  | .subscribe => some .pollable
  | .futureGet (some (.ok (.ok ()))) => some .incoming
  | .responseHeaders => some .rh
  | .responseConsume true => some .body
  | .bodyStream true => some .stream
  | .blockingRead _ (.error (.lastOperationFailed _)) => some .error
  | _ => none

/-- The calls whose handle argument is an `own`; all others borrow it. -/
def Call.consumes : Call → Bool
  | .constructorOutgoingRequest | .outgoingHandlerHandle _ | .outgoingBodyFinish _ => true
  | _ => false

/-- The host reported a failure. A stream that `closed` ended cleanly. -/
def Call.reportsFailure : Call → Bool
  | .fieldsAppend _ _ (some _) => true
  | .setMethod _ false | .setScheme _ false | .setAuthority _ false | .setPathWithQuery _ false => true
  | .outgoingRequestBody false | .outgoingHandlerHandle (some _) => true
  | .outgoingBodyWrite false | .blockingWriteAndFlush _ (some _) | .outgoingBodyFinish (some _) => true
  | .futureGet (some (.ok (.ok ()))) => false
  | .futureGet _ => true
  | .responseConsume false | .bodyStream false => true
  | .blockingRead _ (.error (.lastOperationFailed _)) => true
  | _ => false

/-- One entry of a run's trace: a call with its handle argument, the drop of an
owned handle, or an evaluated `D_ASSERT`. -/
inductive Event where
  | call (call : Call) (self : Option Handle)
  | drop (handle : Handle)
  | dAssert (holds : Bool)

def Event.actions : Event → List (HandleAction Handle)
  | .call made self =>
    (self.toList.map fun handle => if made.consumes then .release handle else .use handle) ++
      made.produces.toList.map .acquire
  | .drop handle => [.release handle]
  | .dAssert _ => []

def handleActions (trace : List Event) : List (HandleAction Handle) := trace.flatMap Event.actions

def Event.call? : Event → Option Call
  | .call made _ => some made
  | _ => none

/-- The calls of a trace, without destructors and assertions. -/
def calls (trace : List Event) : List Call := trace.filterMap Event.call?

/-- What the client uses of DuckDB: its header map, as an abstract type with the
pairs in iteration order, and the status texts. -/
structure DuckDB (H : Type) where
  emptyHeaders : H
  pairs : H → List (String × String)
  copy : H → H
  hasHeader : H → String → Bool
  insert : H → String → String → H
  assign : H → String → String → H
  statusMessage : UInt16 → String

/-- ASCII case folding, as header names are compared. -/
def sameHeader (first second : String) : Bool :=
  first.toList.map Char.toLower == second.toList.map Char.toLower

/-- Headers as an association list, with one pair to a name. -/
def DuckDB.association : DuckDB (List (String × String)) where
  emptyHeaders := []
  pairs := id
  copy := id
  hasHeader headers key := headers.any fun pair => sameHeader pair.1 key
  insert headers key value :=
    if headers.any fun pair => sameHeader pair.1 key then headers else headers ++ [(key, value)]
  assign headers key value :=
    if headers.any fun pair => sameHeader pair.1 key then
      headers.map fun pair => if sameHeader pair.1 key then (pair.1, value) else pair
    else headers ++ [(key, value)]
  statusMessage _ := ""

structure HTTPResponse (H : Type) where
  status : UInt16
  url : String := ""
  body : Bytes := []
  requestError : String := ""
  reason : String := ""
  headers : H
  success : Bool := true

/-- `response_handler` sees the response head once; `content_handler` is given
every chunk, and may depend on the chunks before it. -/
abbrev ResponseHandler (H : Type) := HTTPResponse H → Callback
abbrev ContentHandler := List Bytes → Bytes → Callback

end WasiWheels.Transport
