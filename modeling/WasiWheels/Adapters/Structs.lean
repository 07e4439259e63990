import WasiWheels.Core.Mirror

/-! The structures of the generated bindings of wasi:http, and the interface types they are
generated from. -/

namespace WasiWheels.Adapters

open Wit

abbrev Bytes := List UInt8

/-- A resource handle. -/
abbrev Handle := BitVec 32

inductive StreamError where
  | lastOperationFailed (handle : Handle)
  | closed
  deriving DecidableEq, Repr

inductive HeaderError where
  | invalidSyntax | forbidden | immutable
  deriving DecidableEq, Repr

/-! The string members of a structure are spans in C, and bytes once they are followed. -/

inductive Method (S : Type) where
  | get | head | post | put | delete | connect | options | trace | patch
  | other (method : S)
  deriving DecidableEq, Repr

inductive Scheme (S : Type) where
  | http | https
  | other (scheme : S)
  deriving DecidableEq, Repr

structure DNSErrorPayload (S : Type) where
  rcode : Option S
  infoCode : Option (BitVec 16)
  deriving DecidableEq, Repr

structure TLSAlertReceivedPayload (S : Type) where
  alertId : Option (BitVec 8)
  alertMessage : Option S
  deriving DecidableEq, Repr

structure FieldSizePayload (S : Type) where
  fieldName : Option S
  fieldSize : Option (BitVec 32)
  deriving DecidableEq, Repr

/-- The cases with a payload by name, the others by their tag. -/
inductive ErrorCode (S : Type) where
  | plain (tag : Nat)
  | dnsError (payload : DNSErrorPayload S)
  | tlsAlertReceived (payload : TLSAlertReceivedPayload S)
  | httpRequestBodySize (size : Option (BitVec 64))
  | httpRequestHeaderSectionSize (size : Option (BitVec 32))
  | httpRequestHeaderSize (payload : Option (FieldSizePayload S))
  | httpRequestTrailerSectionSize (size : Option (BitVec 32))
  | httpRequestTrailerSize (payload : FieldSizePayload S)
  | httpResponseHeaderSectionSize (size : Option (BitVec 32))
  | httpResponseHeaderSize (payload : FieldSizePayload S)
  | httpResponseBodySize (size : Option (BitVec 64))
  | httpResponseTrailerSectionSize (size : Option (BitVec 32))
  | httpResponseTrailerSize (payload : FieldSizePayload S)
  | httpResponseTransferCoding (coding : Option S)
  | httpResponseContentCoding (coding : Option S)
  | internalError (message : Option S)
  deriving DecidableEq, Repr

section Map

variable {S T : Type} (change : S → T)

def Method.map : Method S → Method T
  | .get => .get
  | .head => .head
  | .post => .post
  | .put => .put
  | .delete => .delete
  | .connect => .connect
  | .options => .options
  | .trace => .trace
  | .patch => .patch
  | .other method => .other (change method)

def Scheme.map : Scheme S → Scheme T
  | .http => .http
  | .https => .https
  | .other scheme => .other (change scheme)

def DNSErrorPayload.map (payload : DNSErrorPayload S) : DNSErrorPayload T :=
  { payload with rcode := payload.rcode.map change }

def TLSAlertReceivedPayload.map (payload : TLSAlertReceivedPayload S) : TLSAlertReceivedPayload T :=
  { payload with alertMessage := payload.alertMessage.map change }

def FieldSizePayload.map (payload : FieldSizePayload S) : FieldSizePayload T :=
  { payload with fieldName := payload.fieldName.map change }

def ErrorCode.map : ErrorCode S → ErrorCode T
  | .plain tag => .plain tag
  | .dnsError payload => .dnsError (payload.map change)
  | .tlsAlertReceived payload => .tlsAlertReceived (payload.map change)
  | .httpRequestBodySize size => .httpRequestBodySize size
  | .httpRequestHeaderSectionSize size => .httpRequestHeaderSectionSize size
  | .httpRequestHeaderSize payload => .httpRequestHeaderSize (payload.map fun payload => payload.map change)
  | .httpRequestTrailerSectionSize size => .httpRequestTrailerSectionSize size
  | .httpRequestTrailerSize payload => .httpRequestTrailerSize (payload.map change)
  | .httpResponseHeaderSectionSize size => .httpResponseHeaderSectionSize size
  | .httpResponseHeaderSize payload => .httpResponseHeaderSize (payload.map change)
  | .httpResponseBodySize size => .httpResponseBodySize size
  | .httpResponseTrailerSectionSize size => .httpResponseTrailerSectionSize size
  | .httpResponseTrailerSize payload => .httpResponseTrailerSize (payload.map change)
  | .httpResponseTransferCoding coding => .httpResponseTransferCoding (coding.map change)
  | .httpResponseContentCoding coding => .httpResponseContentCoding (coding.map change)
  | .internalError message => .internalError (message.map change)

end Map

namespace Types

def u8 : Ty := .word .byte
def u16 : Ty := .word .half
def u32 : Ty := .word .single
def u64 : Ty := .word .double

def streamError : Ty := .variant (.of [.handle, .unit])
def headerError : Ty := .variant (.of [.unit, .unit, .unit])

def methods : Tys := .of [.unit, .unit, .unit, .unit, .unit, .unit, .unit, .unit, .unit, .string]
def method : Ty := .variant methods
def scheme : Ty := .variant (.of [.unit, .unit, .string])

def dnsErrorPayload : Ty := .pair (.option .string) (.option u16)
def tlsAlertReceivedPayload : Ty := .pair (.option u8) (.option .string)
def fieldSizePayload : Ty := .pair (.option .string) (.option u32)

def errorCodes : Tys := .of [
  .unit, dnsErrorPayload, .unit, .unit, .unit, .unit, .unit, .unit, .unit, .unit,
  .unit, .unit, .unit, .unit, tlsAlertReceivedPayload, .unit, .unit, .option u64, .unit, .unit,
  .unit, .option u32, .option fieldSizePayload, .option u32, fieldSizePayload, .unit, .option u32, fieldSizePayload,
  .option u64, .option u32, fieldSizePayload, .option .string, .option .string, .unit, .unit, .unit, .unit, .unit,
  .option .string]

def errorCode : Ty := .variant errorCodes

theorem errorCode_align : errorCode.align = 8 := by decide +kernel

end Types

end WasiWheels.Adapters
