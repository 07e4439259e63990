import WasiWheels.Transport.Client

/-! The guest memory the host's answers come in: the free functions of the bindings
give back all of it, buffer by buffer. -/

namespace WasiWheels.Transport

/-- The memory of a string; an empty one has none. -/
def textBuffers (text : String) : List Buffer := if text = "" then [] else [.text text]

def chunkBuffers (bytes : Bytes) : List Buffer := if bytes.length = 0 then [] else [.chunk bytes]

def entriesBuffers (entries : List (String × String)) : List Buffer :=
  if entries.length = 0 then []
  else entries.flatMap (fun entry => textBuffers entry.1 ++ textBuffers entry.2) ++ [.entries entries]

/-- The strings inside an error code. -/
def ErrorCode.texts : ErrorCode → List String
  | .dnsError rcode _ => rcode.toList
  | .tlsAlertReceived _ alertMessage => alertMessage.toList
  | .httpRequestHeaderSize payload => payload.toList.flatMap fun payload => payload.fieldName.toList
  | .httpRequestTrailerSize payload | .httpResponseHeaderSize payload | .httpResponseTrailerSize payload =>
    payload.fieldName.toList
  | .httpResponseTransferCoding coding | .httpResponseContentCoding coding => coding.toList
  | .internalError message => message.toList
  | .plain _ | .httpRequestBodySize _ | .httpRequestHeaderSectionSize _ | .httpRequestTrailerSectionSize _ |
    .httpResponseHeaderSectionSize _ | .httpResponseBodySize _ | .httpResponseTrailerSectionSize _ => []

def ErrorCode.buffers (code : ErrorCode) : List Buffer := code.texts.flatMap textBuffers

theorem stringFree_eq (text : String) : stringFree text = (textBuffers text).map .free := by
  unfold stringFree textBuffers
  split <;> rfl

theorem listU8Free_eq (bytes : Bytes) : listU8Free bytes = (chunkBuffers bytes).map .free := by
  unfold listU8Free chunkBuffers
  split <;> rfl

theorem entriesFree_eq (entries : List (String × String)) : entriesFree entries = (entriesBuffers entries).map .free := by
  unfold entriesFree entriesBuffers
  split
  · rfl
  · rw [List.map_append, List.map_flatMap]
    simp [stringFree_eq]

theorem optionStringFree_eq (text : Option String) :
    optionStringFree text = (text.toList.flatMap textBuffers).map .free := by
  cases text with
  | none => rfl
  | some text => simp [optionStringFree, stringFree_eq]

/-- The free functions of an error code reach every string in it. -/
theorem errorCodeFree_eq (code : ErrorCode) : errorCodeFree code = code.buffers.map .free := by
  cases code with
  | httpRequestHeaderSize payload =>
    cases payload with
    | none => rfl
    | some payload => simp [errorCodeFree, fieldSizePayloadFree, optionStringFree_eq, ErrorCode.buffers, ErrorCode.texts]
  | _ => simp [errorCodeFree, fieldSizePayloadFree, optionStringFree_eq, ErrorCode.buffers, ErrorCode.texts]

end WasiWheels.Transport
