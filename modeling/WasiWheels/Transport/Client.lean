import WasiWheels.Transport.Bindings

/-! `WasiHTTPClient::Request` and the five verbs, as blocks over the owners of
one call and the trace it leaves. Declarations of owners nest as in the source,
so that destructors run in reverse order on every way out. -/

namespace WasiWheels.Transport

/-- `OwnHandle`: a handle, whether it is still owned, and its live borrows. -/
structure OwnHandle where
  handle : Handle
  live : Bool
  outstandingBorrows : Int

/-- `explicit OwnHandle(Own handle)`. -/
def OwnHandle.owning (handle : Handle) : OwnHandle := ⟨handle, true, 0⟩

/-- `OwnHandle() = default`; the variable's resource has not been received. -/
def OwnHandle.empty (handle : Handle) : OwnHandle := ⟨handle, false, 0⟩

/-- The owners of a call by variable, the trace, and the caller's `buffer_out`. -/
structure World where
  owners : Handle → OwnHandle := OwnHandle.empty
  trace : List Event := []
  bufferOut : Bytes := []

namespace World

def setOwner (world : World) (name : Handle) (owner : OwnHandle) : World :=
  { world with owners := fun other => if other = name then owner else world.owners other }

def record (world : World) (event : Event) : World := { world with trace := world.trace ++ [event] }

def make (world : World) (made : List Call) : World :=
  { world with trace := world.trace ++ made.map (.call · none) }

/-- `OwnHandle::Reset`, the body of the destructor. -/
def reset (name : Handle) (world : World) : World :=
  let owner := world.owners name
  if owner.live then
    ((world.record (.dAssert (owner.outstandingBorrows == 0))).record (.drop owner.handle)).setOwner name
      { owner with live := false }
  else world

def acquireBorrow (name : Handle) (world : World) : World :=
  let owner := world.owners name
  world.setOwner name { owner with outstandingBorrows := owner.outstandingBorrows + 1 }

def releaseBorrow (name : Handle) (world : World) : World :=
  let owner := world.owners name
  world.setOwner name { owner with outstandingBorrows := owner.outstandingBorrows - 1 }

def markReleased (name : Handle) (world : World) : World :=
  world.setOwner name { world.owners name with live := false }

/-- `OwnHandle &operator=(OwnHandle &&o)` from a temporary, which is left empty. -/
def moveAssign (name : Handle) (other : OwnHandle) (world : World) : World :=
  let emptied := (world.record (.dAssert (other.outstandingBorrows == 0))).reset name
  emptied.setOwner name { emptied.owners name with handle := other.handle, live := other.live }

end World

/-- Client code; an exception is known by its text. -/
abbrev Cpp (H α : Type) : Type := Block World (HTTPResponse H) String α

variable {H α : Type}

def host (self : Handle) (made : Call) : Cpp H Unit := Block.modify fun world => world.record (.call made (some self))

def perform (made : List Call) : Cpp H Unit := Block.modify fun world => world.make made

def declare (name : Handle) (owner : OwnHandle) (body : Cpp H α) : Cpp H α :=
  Block.scope (fun world => world.setOwner name owner) (World.reset name) body

def borrow (name : Handle) (body : Handle → Cpp H α) : Cpp H α := do
  let handle ← Block.read fun world => (world.owners name).handle
  Block.scope (World.acquireBorrow name) (World.releaseBorrow name) (body handle)

/-- `Own release()`. -/
def release (name : Handle) : Cpp H Handle := do
  let handle ← Block.read fun world => (world.owners name).handle
  Block.modify (World.markReleased name)
  return handle

/-! The `free` calls the generated free functions make. -/

def stringFree (text : String) : List Call := if text = "" then [] else [.free (.text text)]

def listU8Free (bytes : Bytes) : List Call := if bytes.length = 0 then [] else [.free (.chunk bytes)]

/-- Its only case is empty: the error resource is not dropped. -/
def streamErrorFree : StreamError → List Call
  | .lastOperationFailed _ => []
  | .closed => []

def optionStringFree : Option String → List Call
  | some text => stringFree text
  | none => []

def fieldSizePayloadFree (payload : FieldSizePayload) : List Call := optionStringFree payload.fieldName

def errorCodeFree : ErrorCode → List Call
  | .dnsError rcode _ => optionStringFree rcode
  | .tlsAlertReceived _ alertMessage => optionStringFree alertMessage
  | .httpRequestHeaderSize (some payload) => fieldSizePayloadFree payload
  | .httpRequestTrailerSize payload => fieldSizePayloadFree payload
  | .httpResponseHeaderSize payload => fieldSizePayloadFree payload
  | .httpResponseTrailerSize payload => fieldSizePayloadFree payload
  | .httpResponseTransferCoding coding => optionStringFree coding
  | .httpResponseContentCoding coding => optionStringFree coding
  | .internalError message => optionStringFree message
  | _ => []

/-- `get` fills `got` only when it answers some result. -/
def gotFree : Option Got → List Call
  | none => [.freeUnfilled]
  | some (.ok (.error code)) => errorCodeFree code
  | some _ => []

def entriesFree (entries : List (String × String)) : List Call :=
  if entries.length = 0 then []
  else entries.flatMap (fun entry => stringFree entry.1 ++ stringFree entry.2) ++ [.free (.entries entries)]

/-! ### `ParseUrl` -/

/-- `std::string::find`: the first position where the text occurs. -/
def find (text : List Char) : List Char → Option Nat
  | [] => if text.isEmpty then some 0 else none
  | head :: rest => if text.isPrefixOf (head :: rest) then some 0 else (find text rest).map (· + 1)

structure ParsedUrl where
  https : Bool := true
  authority : String
  path : String
  deriving DecidableEq, Repr

def parseUrl (url : String) : ParsedUrl :=
  let chars := url.toList
  let (https, after) := match find "://".toList chars with
    | some pos => (decide (chars.take pos ≠ "http".toList), pos + 3)
    | none => (true, 0)
  match find "/".toList (chars.drop after) with
  | none => { https, authority := String.ofList (chars.drop after), path := "/" }
  | some length =>
    { https
      authority := String.ofList ((chars.drop after).take length)
      path := String.ofList (chars.drop (after + length)) }

/-! ### `WasiHTTPClient::Request` -/

section Request

variable (db : DuckDB H) (bearerToken : String) (script : HostScript) (url : String)

/-- The `fail` lambda. -/
def fail (msg : String) : HTTPResponse H :=
  { status := 500, headers := db.emptyHeaders, success := false, requestError := msg }

def headerErrorText (key : String) (herr : HeaderError) : String :=
  let why := match herr with
    | .forbidden => "forbidden"
    | .immutable => "immutable"
    | .invalidSyntax => "invalid syntax"
  "wasi:http rejected header '" ++ key ++ "' (" ++ why ++ ")"

/-- The `append` lambda, with the `header_error` it leaves. -/
def append (bf : Handle) (count : Nat) (key value : String) : Cpp H String := do
  host bf (.fieldsAppend key value (script.append count))
  match script.append count with
  | some herr => return headerErrorText key herr
  | none => return ""

/-- `for (auto &h : headers)`, left at the first refusal. -/
def appendEach (bf : Handle) : Nat → List (String × String) → Cpp H String
  | _, [] => return ""
  | count, (key, value) :: rest => do
    let headerError ← append script bf count key value
    if headerError = "" then appendEach bf (count + 1) rest else return headerError

def appendHeaders (headers : H) (bf : Handle) : Cpp H String := do
  let headerError ← appendEach script bf 0 (db.pairs headers)
  if headerError = "" ∧ bearerToken ≠ "" ∧ db.hasHeader headers "Authorization" = false then
    append script bf (db.pairs headers).length "Authorization" ("Bearer " ++ bearerToken)
  else return headerError

/-- A setter, or another call that answers only whether it succeeded. -/
def ask (self : Handle) (made : Bool → Call) (answer : Bool) : Cpp H Bool := do
  host self (made answer)
  return answer

/-- The four setters, joined by `||`: none is called after a refusal. -/
def setTarget (method : Method) (parsed : ParsedUrl) (breq : Handle) : Cpp H Bool := do
  if ← ask breq (.setMethod method) script.setMethod then
    if ← ask breq (.setScheme (if parsed.https then .https else .http)) script.setScheme then
      if ← ask breq (.setAuthority parsed.authority) script.setAuthority then
        ask breq (.setPathWithQuery parsed.path) script.setPathWithQuery
      else return false
    else return false
  else return false

/-- 2b. Take the outgoing body before the request is consumed. -/
def takeBody (bodyData : Option Bytes) (breq : Handle) : Cpp H Unit :=
  match bodyData with
  | none => return
  | some _ => do
    if ← ask breq .outgoingRequestBody script.body then
      Block.modify (World.moveAssign .outBody (.owning .outBody))
    else Block.ret (fail db ("wasi:http: failed to acquire request body for '" ++ url ++ "'"))

def writeErrorText (serr : StreamError) : String :=
  let msg := "wasi:http: failed to write request body for '" ++ url ++ "'"
  match serr with
  | .lastOperationFailed debug => msg ++ ": " ++ debug
  | .closed => msg

/-- The debug string of a failed stream operation is read and freed. -/
def describe (serr : StreamError) : Cpp H Unit :=
  match serr with
  | .lastOperationFailed debug => do
    host .error (.errorToDebugString debug)
    perform (stringFree debug)
    perform (streamErrorFree serr)
  | .closed => return

/-- The chunking loop from offset `off`, at its write number `count`. -/
def writeEach (body : Bytes) (bos : Handle) (off count : Nat) : Cpp H Unit :=
  if off < body.length then do
    let n := if 4096 < body.length - off then 4096 else body.length - off
    let chunk := (body.drop off).take n
    host bos (.blockingWriteAndFlush chunk (script.blockingWriteAndFlush count))
    match script.blockingWriteAndFlush count with
    | some serr => do
      describe serr
      Block.ret (fail db (writeErrorText url serr))
    | none => writeEach body bos (off + n) (count + 1)
  else return
termination_by body.length - off
decreasing_by split <;> omega

/-- 3b. Stream the request body, drop the stream, then finish the body. -/
def upload (bodyData : Option Bytes) : Cpp H Unit :=
  match bodyData with
  | none => return
  | some body => do
    if ← borrow .outBody fun bob => ask bob .outgoingBodyWrite script.write then
      declare .outStream (.owning .outStream) do
        borrow .outStream fun bos => writeEach db script url body bos 0 0
      let finished ← release .outBody
      host finished (.outgoingBodyFinish script.finish)
      match script.finish with
      | some finErr => do
        perform (errorCodeFree finErr)
        Block.ret (fail db ("wasi:http: failed to finish request body for '" ++ url ++ "'"))
      | none => return
    else Block.ret (fail db ("wasi:http: failed to open request body stream for '" ++ url ++ "'"))

def insertEach (headers : H) : List (String × String) → Cpp H H
  | [] => return headers
  | (key, val) :: rest => do
    perform [.headersInsert key val]
    insertEach (db.insert headers key val) rest

/-- 5. Status and headers; the entry list is freed before `rh` is dropped. -/
def readHead (bresp : Handle) : Cpp H (HTTPResponse H) := do
  host bresp (.responseStatus script.status)
  host bresp .responseHeaders
  declare .rh (.owning .rh) do
    Block.scope id (fun world => world.make (entriesFree script.entries)) do
      borrow .rh fun brh => host brh (.fieldsEntries script.entries)
      let headers ← insertEach db db.emptyHeaders script.entries
      return { status := script.status, url, reason := db.statusMessage script.status, headers }

/-- The handler's exception is swallowed for error statuses and rethrown else. -/
def consult (responseHandler : Option (ResponseHandler H)) (resp : HTTPResponse H) : Cpp H Unit :=
  match responseHandler with
  | none => return
  | some handler =>
    Block.tryCatch
      (do
        perform [.responseHandler (handler resp)]
        match handler resp with
        | .returned true => return
        | .returned false => Block.ret resp
        | .threw what => Block.throw what)
      (fun what => if 400 ≤ resp.status then Block.ret { resp with success := false } else Block.throw what)

/-- Hand a chunk over; the `bool` of `content_handler` is not looked at. -/
def deliver (contentHandler : Option ContentHandler) (given : List Bytes) (chunk body : Bytes) : Cpp H Bytes :=
  if chunk.length = 0 then return body
  else match contentHandler with
    | none => return body ++ chunk
    | some handler => do
      perform [.contentHandler chunk (handler given chunk)]
      match handler given chunk with
      | .returned _ => return body
      | .threw what => Block.throw what

/-- The blocking-read loop, with `read_error` and the body it leaves. -/
def readEach (contentHandler : Option ContentHandler) (bstream : Handle) :
    List Bytes → List Bytes → Bytes → Cpp H (String × Bytes)
  | [], _, body => do
    host bstream (.blockingRead 65536 (.error script.readEnd))
    describe script.readEnd
    match script.readEnd with
    | .lastOperationFailed debug => return (debug, body)
    | .closed => return ("", body)
  | chunk :: reads, given, body => do
    host bstream (.blockingRead 65536 (.ok chunk))
    let body ← deliver contentHandler given chunk body
    perform (listU8Free chunk)
    readEach contentHandler bstream reads (if chunk.length = 0 then given else given ++ [chunk]) body

/-- 6. Consume the body and read it to its end. -/
def readBody (contentHandler : Option ContentHandler) (resp : HTTPResponse H) (bresp : Handle) :
    Cpp H (HTTPResponse H) := do
  if ← ask bresp .responseConsume script.consume then
    declare .body (.owning .body) do
      if ← borrow .body fun bbody => ask bbody .bodyStream script.stream then
        declare .stream (.owning .stream) do
          borrow .stream fun bstream => do
            let result ← readEach script contentHandler bstream script.reads [] resp.body
            if result.1 = "" then return { resp with body := result.2 }
            else return { resp with
              body := result.2
              success := false
              requestError := "wasi:http body read failed for '" ++ url ++ "': " ++ result.1 }
      else Block.ret (fail db ("wasi:http: failed to open response body stream for '" ++ url ++ "'"))
  else Block.ret (fail db ("wasi:http: failed to consume response body for '" ++ url ++ "'"))

/-- 4 to 6. Wait for the response and hand it to the caller. -/
def respond (method : Method) (contentHandler : Option ContentHandler)
    (responseHandler : Option (ResponseHandler H)) : Cpp H Unit :=
  borrow .future fun bfut => do
    host bfut .subscribe
    declare .pollable (.owning .pollable) do
      borrow .pollable fun bpoll => host bpoll .pollableBlock
      host bfut (.futureGet script.get)
      match script.get with
      | some (.ok (.ok ())) =>
        declare .incoming (.owning .incoming) do
          borrow .incoming fun bresp => do
            let resp ← readHead db script url bresp
            consult responseHandler resp
            if method = .head then Block.ret resp
            else do
              let resp ← readBody db script url contentHandler resp bresp
              Block.ret resp
      | got => do
        perform (gotFree got)
        Block.ret (fail db ("wasi:http request failed for '" ++ url ++ "'"))

/-- 3. Dispatch; `handle` consumes the request whether it succeeds or not. -/
def dispatch (method : Method) (bodyData : Option Bytes) (contentHandler : Option ContentHandler)
    (responseHandler : Option (ResponseHandler H)) : Cpp H Unit := do
  let consumed ← release .request
  host consumed (.outgoingHandlerHandle script.handle)
  match script.handle with
  | some sendErr => do
    perform (errorCodeFree sendErr)
    Block.ret (fail db ("wasi:http outgoing-handler.handle failed for '" ++ url ++ "'"))
  | none =>
    declare .future (.owning .future) do
      upload db script url bodyData
      respond db script url method contentHandler responseHandler

def request (method : Method) (headers : H) (bodyData : Option Bytes)
    (contentHandler : Option ContentHandler) (responseHandler : Option (ResponseHandler H)) : Cpp H Unit := do
  perform [.constructorFields]
  declare .fields (.owning .fields) do
    let headerError ← borrow .fields fun bf => appendHeaders db bearerToken script headers bf
    if headerError ≠ "" then Block.ret (fail db headerError)
    else do
      let consumed ← release .fields
      host consumed .constructorOutgoingRequest
      declare .request (.owning .request) do
        borrow .request fun breq => do
          if ← setTarget script method (parseUrl url) breq then
            declare .outBody (.empty .outBody) do
              takeBody db script url bodyData breq
              dispatch db script url method bodyData contentHandler responseHandler
          else Block.ret (fail db ("wasi:http: failed to build outgoing request for '" ++ url ++ "'"))

end Request

/-! ### The verbs -/

structure GetRequestInfo (H : Type) where
  headers : H
  url : String
  contentHandler : ContentHandler
  responseHandler : ResponseHandler H

structure HeadRequestInfo (H : Type) where
  headers : H
  url : String

structure PutRequestInfo (H : Type) where
  headers : H
  url : String
  contentType : String
  bufferIn : Option Bytes

structure PostRequestInfo (H : Type) where
  headers : H
  url : String
  bufferIn : Option Bytes
  sendPostAsGetRequest : Bool

structure DeleteRequestInfo (H : Type) where
  headers : H
  url : String

/-- One call of a virtual method of `HTTPClient`. -/
inductive Verb (H : Type) where
  | get (info : GetRequestInfo H)
  | head (info : HeadRequestInfo H)
  | put (info : PutRequestInfo H)
  | post (info : PostRequestInfo H)
  | delete (info : DeleteRequestInfo H)

section Verbs

variable (db : DuckDB H) (bearerToken : String) (script : HostScript)

def Verb.run : Verb H → Cpp H Unit
  | .get info =>
    request db bearerToken script info.url .get info.headers none (some info.contentHandler) (some info.responseHandler)
  | .head info => request db bearerToken script info.url .head info.headers none none none
  | .put info =>
    let hdrs := db.assign (db.copy info.headers) "Content-Type" info.contentType
    request db bearerToken script info.url .put hdrs info.bufferIn none none
  | .post info => do
    let hdrs := db.copy info.headers
    let hdrs := if db.hasHeader hdrs "Content-Type" then hdrs
      else db.assign hdrs "Content-Type" "application/octet-stream"
    let verb := if info.sendPostAsGetRequest then Method.get else Method.post
    match ← Block.call (request db bearerToken script info.url verb hdrs info.bufferIn none none) with
    | some resp => do
      Block.modify fun world => { world with bufferOut := resp.body }
      Block.ret resp
    | none => return
  | .delete info => request db bearerToken script info.url .delete info.headers none none none

end Verbs

end WasiWheels.Transport
