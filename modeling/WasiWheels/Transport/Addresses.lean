import WasiWheels.Adapters.Calls
import WasiWheels.Transport.Memory

/-! The client's frees name a buffer by what is in it, those of the bindings by where it is.
Buffer by buffer they are the same. -/

namespace WasiWheels.Transport

open Wit
open Adapters (Import Outcome entryOf)

/-- A string as the bindings pass it. -/
def utf8 (text : String) : Bytes := text.toByteArray.data.toList

theorem utf8_eq_nil (text : String) : utf8 text = [] ↔ text = "" := by
  rw [← String.utf8ByteSize_eq_zero_iff, ← List.length_eq_zero_iff]
  rfl

def FieldSizePayload.passed (payload : FieldSizePayload) : Adapters.FieldSizePayload Bytes :=
  ⟨payload.fieldName.map utf8, payload.fieldSize.map UInt32.toBitVec⟩

/-- An error code as the bindings pass it. -/
def ErrorCode.passed : ErrorCode → Adapters.ErrorCode Bytes
  | .plain tag => .plain tag
  | .dnsError rcode infoCode => .dnsError ⟨rcode.map utf8, infoCode.map UInt16.toBitVec⟩
  | .tlsAlertReceived alertId alertMessage =>
    .tlsAlertReceived ⟨alertId.map UInt8.toBitVec, alertMessage.map utf8⟩
  | .httpRequestBodySize size => .httpRequestBodySize (size.map UInt64.toBitVec)
  | .httpRequestHeaderSectionSize size => .httpRequestHeaderSectionSize (size.map UInt32.toBitVec)
  | .httpRequestHeaderSize payload => .httpRequestHeaderSize (payload.map FieldSizePayload.passed)
  | .httpRequestTrailerSectionSize size => .httpRequestTrailerSectionSize (size.map UInt32.toBitVec)
  | .httpRequestTrailerSize payload => .httpRequestTrailerSize payload.passed
  | .httpResponseHeaderSectionSize size => .httpResponseHeaderSectionSize (size.map UInt32.toBitVec)
  | .httpResponseHeaderSize payload => .httpResponseHeaderSize payload.passed
  | .httpResponseBodySize size => .httpResponseBodySize (size.map UInt64.toBitVec)
  | .httpResponseTrailerSectionSize size => .httpResponseTrailerSectionSize (size.map UInt32.toBitVec)
  | .httpResponseTrailerSize payload => .httpResponseTrailerSize payload.passed
  | .httpResponseTransferCoding coding => .httpResponseTransferCoding (coding.map utf8)
  | .httpResponseContentCoding coding => .httpResponseContentCoding (coding.map utf8)
  | .internalError message => .internalError (message.map utf8)

def passedEntries (entries : List (String × String)) : List (Bytes × Bytes) :=
  entries.map fun entry => (utf8 entry.1, utf8 entry.2)

/-- What is in a buffer, as memory has it. -/
def Buffer.Holds (memory : Memory) (span : Span) : Buffer → Prop
  | .text content => slice memory span = utf8 content
  | .chunk content => slice memory span = content
  | .entries content => Adapters.fieldsEntries.follow memory span = some (passedEntries content)

/-- A free of the client is the free of an address where its buffer lies. -/
def FreesAt (memory : Memory) (address : Nat) (made : Call) : Prop :=
  ∃ span buffer, made = .free buffer ∧ span.ptr.toNat = address ∧ buffer.Holds memory span

theorem slice_length (memory : Memory) (span : Span) : (slice memory span).length = span.len.toNat := by
  rw [slice, List.length_map, List.length_range]

theorem stringFree_at {memory : Memory} {span : Span} {text : String} (holds : slice memory span = utf8 text) :
    List.Forall₂ (FreesAt memory) (Adapters.stringFree span) (stringFree text) := by
  have length := slice_length memory span
  rw [holds] at length
  by_cases empty : text = ""
  · rw [(utf8_eq_nil text).mpr empty] at length
    rw [Adapters.stringFree, freeSpan, ← length, stringFree, if_pos empty]
    exact .nil
  · have some : 0 < span.len.toNat := length ▸ List.length_pos_iff.mpr (mt (utf8_eq_nil text).mp empty)
    rw [Adapters.stringFree, freeSpan, if_pos some, stringFree, if_neg empty]
    exact .cons ⟨span, .text text, rfl, rfl, holds⟩ .nil

theorem listU8Free_at {memory : Memory} {span : Span} {bytes : Bytes} (holds : slice memory span = bytes) :
    List.Forall₂ (FreesAt memory) (freeSpan span) (listU8Free bytes) := by
  have length := slice_length memory span
  rw [holds] at length
  by_cases empty : bytes.length = 0
  · rw [freeSpan, ← length, empty, listU8Free, if_pos empty]
    exact .nil
  · rw [freeSpan, if_pos (by omega), listU8Free, if_neg empty]
    exact .cons ⟨span, .chunk bytes, rfl, rfl, holds⟩ .nil

theorem optionStringFree_at {memory : Memory} {val : Option Span} {text : Option String}
    (holds : val.map (slice memory) = text.map utf8) :
    List.Forall₂ (FreesAt memory) (Adapters.optionStringFree val) (optionStringFree text) := by
  cases val with
  | none =>
    cases text with
    | none => exact .nil
    | some text => cases holds
  | some span =>
    cases text with
    | none => cases holds
    | some text => exact stringFree_at (Option.some.inj holds)

theorem optionWordFree_eq {width : Nat} (val : Option (BitVec width)) : Adapters.optionWordFree val = [] := by
  cases val <;> rfl

theorem fieldSizePayloadFree_at {memory : Memory} {val : Adapters.FieldSizePayload Span} {payload : FieldSizePayload}
    (holds : val.map (slice memory) = payload.passed) :
    List.Forall₂ (FreesAt memory) val.free (fieldSizePayloadFree payload) := by
  rw [Adapters.FieldSizePayload.free, optionWordFree_eq, List.append_nil]
  exact optionStringFree_at (congrArg Adapters.FieldSizePayload.fieldName holds)

theorem errorCodeFree_at {memory : Memory} {val : Adapters.ErrorCode Span} {code : ErrorCode}
    (holds : val.map (slice memory) = code.passed) : List.Forall₂ (FreesAt memory) val.free (errorCodeFree code) := by
  cases val <;> cases code <;> simp only [Adapters.ErrorCode.map, ErrorCode.passed, reduceCtorEq] at holds
  case dnsError.dnsError payload rcode infoCode =>
    injection holds with same
    rw [Adapters.ErrorCode.free, Adapters.DNSErrorPayload.free, optionWordFree_eq, List.append_nil]
    exact optionStringFree_at (congrArg Adapters.DNSErrorPayload.rcode same)
  case tlsAlertReceived.tlsAlertReceived payload alertId alertMessage =>
    injection holds with same
    rw [Adapters.ErrorCode.free, Adapters.TLSAlertReceivedPayload.free, optionWordFree_eq, List.nil_append]
    exact optionStringFree_at (congrArg Adapters.TLSAlertReceivedPayload.alertMessage same)
  case httpRequestHeaderSize.httpRequestHeaderSize val payload =>
    injection holds with same
    cases val with
    | none =>
      cases payload with
      | none => exact .nil
      | some payload => cases same
    | some val =>
      cases payload with
      | none => cases same
      | some payload => exact fieldSizePayloadFree_at (Option.some.inj same)
  case httpRequestTrailerSize.httpRequestTrailerSize => injection holds with same; exact fieldSizePayloadFree_at same
  case httpResponseHeaderSize.httpResponseHeaderSize => injection holds with same; exact fieldSizePayloadFree_at same
  case httpResponseTrailerSize.httpResponseTrailerSize => injection holds with same; exact fieldSizePayloadFree_at same
  case httpResponseTransferCoding.httpResponseTransferCoding => injection holds with same; exact optionStringFree_at same
  case httpResponseContentCoding.httpResponseContentCoding => injection holds with same; exact optionStringFree_at same
  case internalError.internalError => injection holds with same; exact optionStringFree_at same
  -- the payloads of the other cases are numbers
  all_goals simp only [Adapters.ErrorCode.free, optionWordFree_eq]; exact .nil

/-- The entries of a list, each at its place in the array. -/
theorem entries_at {memory : Memory} {span : Span} {entries : List (String × String)}
    (holds : Adapters.fieldsEntries.follow memory span = some (passedEntries entries)) :
    List.Forall₂ (fun index entry =>
      slice memory (Adapters.liftSpan memory (span.ptr.toNat + index * 16) (span.ptr.toNat + index * 16 + 4)) = utf8 entry.1 ∧
      slice memory (Adapters.liftSpan memory (span.ptr.toNat + index * 16 + 8) (span.ptr.toNat + index * 16 + 12)) =
        utf8 entry.2) (List.range span.len.toNat) entries := by
  have whole := List.mapM_pure (m := Option) (l := List.range span.len.toNat) (f := fun index =>
    (slice memory (Adapters.liftSpan memory (span.ptr.toNat + index * 16) (span.ptr.toNat + index * 16 + 4)),
      slice memory (Adapters.liftSpan memory (span.ptr.toNat + index * 16 + 8) (span.ptr.toNat + index * 16 + 12))))
  have same := Option.some.inj (whole.symm.trans holds)
  rw [passedEntries, ← List.forall₂_eq_eq_eq, List.forall₂_map_left_iff, List.forall₂_map_right_iff] at same
  exact same.imp fun _ _ equal => Prod.mk.inj equal

theorem entriesFree_at {memory : Memory} {span : Span} {entries : List (String × String)}
    (holds : Adapters.fieldsEntries.follow memory span = some (passedEntries entries)) :
    ∃ frees, Adapters.listTuple2Free memory span = some frees ∧
      List.Forall₂ (FreesAt memory) frees (entriesFree entries) := by
  have each := entries_at holds
  have length := each.length_eq
  rw [List.length_range] at length
  have inner := List.mapM_pure (m := Option) (l := List.range span.len.toNat)
    (f := fun index => Adapters.tuple2Free memory (span.ptr.toNat + index * 16))
  rw [Adapters.listTuple2Free, freeEach, entriesFree]
  by_cases empty : entries.length = 0
  · rw [if_neg (by omega), if_pos empty]
    exact ⟨[], rfl, .nil⟩
  · rw [if_pos (by omega), if_neg empty]
    have gives : ((List.range span.len.toNat).mapM fun index =>
        some (Adapters.tuple2Free memory (span.ptr.toNat + index * 16))) = some _ := inner
    refine ⟨_, by rw [gives]; rfl, List.rel_append ?_ (.cons ⟨span, .entries entries, rfl, rfl, holds⟩ .nil)⟩
    exact List.rel_flatMap each fun {_ _} pair => List.rel_append (stringFree_at pair.1) (stringFree_at pair.2)

/-- The answers whose memory the client has to free, and the handle that comes with a response. -/
inductive Answer where
  | debugString (debug : String)
  | read (chunk : Bytes)
  | notSent (sendErr : ErrorCode)
  | notFinished (finErr : ErrorCode)
  | entries (entries : List (String × String))
  | got (got : Got) (response : Adapters.Handle)

/-- The frees of the client for an answer. -/
def Answer.frees : Answer → List Call
  | .debugString debug => stringFree debug
  | .read chunk => listU8Free chunk
  | .notSent sendErr => errorCodeFree sendErr
  | .notFinished finErr => errorCodeFree finErr
  | .entries listed => entriesFree listed
  | .got filled _ => gotFree (some filled)

/-- The answer as the caller of its adapter has it. -/
def Answer.outcome : Answer → Outcome
  | .debugString debug => ⟨.errorToDebugString, utf8 debug⟩
  | .read chunk => ⟨.inputStreamBlockingRead, .ok chunk⟩
  | .notSent sendErr => ⟨.outgoingHandlerHandle, .error sendErr.passed⟩
  | .notFinished finErr => ⟨.outgoingBodyFinish, .error finErr.passed⟩
  | .entries listed => ⟨.fieldsEntries, passedEntries listed⟩
  | .got (.error ()) _ => ⟨.futureIncomingResponseGet, some (.error ())⟩
  | .got (.ok (.error code)) _ => ⟨.futureIncomingResponseGet, some (.ok (.error code.passed))⟩
  | .got (.ok (.ok ())) response => ⟨.futureIncomingResponseGet, some (.ok (.ok response))⟩

theorem frees_at (answer : Answer) {memory : Memory} {struct : (entryOf answer.outcome.function).C}
    (follows : (entryOf answer.outcome.function).adapter.follow memory struct = some answer.outcome.value) :
    ∃ frees, (entryOf answer.outcome.function).adapter.frees memory struct = some frees ∧
      List.Forall₂ (FreesAt memory) frees answer.frees := by
  cases answer with
  | debugString debug =>
    have holds : some (slice memory struct) = some (utf8 debug) := follows
    exact ⟨_, rfl, stringFree_at (Option.some.inj holds)⟩
  | read chunk =>
    change Except Adapters.StreamError Span at struct
    cases struct with
    | error err => cases follows
    | ok span =>
      have holds : some (Except.ok (ε := Adapters.StreamError) (slice memory span)) = some (.ok chunk) := follows
      exact ⟨_, rfl, listU8Free_at (Except.ok.inj (Option.some.inj holds))⟩
  | notSent sendErr =>
    change Except (Adapters.ErrorCode Span) Adapters.Handle at struct
    cases struct with
    | ok val => cases follows
    | error code =>
      have holds : some (Except.error (α := Adapters.Handle) (code.map (slice memory))) = some (.error sendErr.passed) := follows
      exact ⟨_, rfl, errorCodeFree_at (Except.error.inj (Option.some.inj holds))⟩
  | notFinished finErr =>
    change Except (Adapters.ErrorCode Span) Unit at struct
    cases struct with
    | ok val => cases follows
    | error code =>
      have holds : some (Except.error (α := Unit) (code.map (slice memory))) = some (.error finErr.passed) := follows
      exact ⟨_, rfl, errorCodeFree_at (Except.error.inj (Option.some.inj holds))⟩
  | entries listed => exact entriesFree_at follows
  | got filled response =>
    match filled with
    | .error () =>
      change Option (Except Unit (Except (Adapters.ErrorCode Span) Adapters.Handle)) at struct
      match struct with
      | none | some (.ok (.ok _)) | some (.ok (.error _)) => cases follows
      | some (.error ()) => exact ⟨_, rfl, .nil⟩
    | .ok (.error code) =>
      change Option (Except Unit (Except (Adapters.ErrorCode Span) Adapters.Handle)) at struct
      match struct with
      | none | some (.ok (.ok _)) | some (.error ()) => cases follows
      | some (.ok (.error val)) =>
        have holds : some (some (Except.ok (ε := Unit) (Except.error (α := Adapters.Handle) (val.map (slice memory))))) =
            some (some (.ok (.error code.passed))) := follows
        exact ⟨_, rfl, errorCodeFree_at (Except.error.inj (Except.ok.inj (Option.some.inj (Option.some.inj holds))))⟩
    | .ok (.ok ()) =>
      change Option (Except Unit (Except (Adapters.ErrorCode Span) Adapters.Handle)) at struct
      match struct with
      | none | some (.ok (.error _)) | some (.error ()) => cases follows
      | some (.ok (.ok _)) => exact ⟨_, rfl, .nil⟩

private theorem frees_meant (answer : Answer) {outcome : Outcome} (meant : answer.outcome = outcome) {memory : Memory}
    {struct : (entryOf outcome.function).C}
    (follows : (entryOf outcome.function).adapter.follow memory struct = some outcome.value) :
    ∃ frees, (entryOf outcome.function).adapter.frees memory struct = some frees ∧
      List.Forall₂ (FreesAt memory) frees answer.frees := by
  subst meant
  exact frees_at answer follows

/-- The host answers a call of the client. What the generated free function frees is then what the
client's model frees, in its order, each buffer at its address; and it is just what the host took. -/
theorem frees_answered (malloc : Adapters.Malloc) (answer : Answer) {exchange : Adapters.Exchange} {area : Nat}
    {before after : Guest} (meant : exchange.meant = answer.outcome)
    (frame : ⟨area, (entryOf exchange.function).adapter.retArea⟩ ∈ before.rooms)
    (answered : Wit.answer (Adapters.cabiRealloc malloc) _ exchange.value area before = some after) :
    ∃ struct frees rooms, (entryOf exchange.function).adapter.lift after.memory area = some struct ∧
      (entryOf exchange.function).adapter.frees after.memory struct = some frees ∧
      List.Forall₂ (FreesAt after.memory) frees answer.frees ∧
      after.rooms = rooms ++ before.rooms ∧ frees.Perm (rooms.map Room.base) := by
  rw [(entryOf exchange.function).adapter.retArea_eq] at frame
  obtain ⟨spans, rooms, frees, holds⟩ := Wit.answer_answered (Adapters.cabiRealloc_serves malloc)
    (entryOf exchange.function).adapter.legal frame answered
  obtain ⟨struct, lifts, follows, gives⟩ := (entryOf exchange.function).adapter.received holds
  obtain ⟨named, same, each⟩ := frees_meant answer meant.symm follows
  obtain rfl := Option.some.inj (gives.symm.trans same)
  exact ⟨struct, frees, rooms, lifts, gives, each, holds.rooms, holds.order⟩

/-- A guest in an adapter with eight bytes of return area. -/
def framed : Guest := ⟨fun _ => 0, [⟨64, 8⟩], List.pairwise_singleton _ _, fun room inside => by
  rw [List.mem_singleton.mp inside]
  decide⟩

theorem frees_answered_listed : ∃ after struct frees rooms,
    Wit.answer (Adapters.cabiRealloc Adapters.bump) _ Adapters.listed.value 64 framed = some after ∧
      Adapters.fieldsEntries.lift after.memory 64 = some struct ∧
      Adapters.fieldsEntries.frees after.memory struct = some frees ∧
      List.Forall₂ (FreesAt after.memory) frees (entriesFree [("a", "bc"), ("d", "")]) ∧
      after.rooms = rooms ++ framed.rooms ∧ frees.Perm (rooms.map Room.base) := by
  obtain ⟨after, answered⟩ := Option.isSome_iff_exists.mp
    (by decide +kernel : (Wit.answer (Adapters.cabiRealloc Adapters.bump) _ Adapters.listed.value 64 framed).isSome = true)
  have meant : Adapters.listed.meant = (Answer.entries [("a", "bc"), ("d", "")]).outcome := rfl
  obtain ⟨struct, frees, rooms, lifts, gives, each, whole, order⟩ := frees_answered Adapters.bump
    (.entries [("a", "bc"), ("d", "")]) meant List.mem_cons_self answered
  exact ⟨after, struct, frees, rooms, answered, lifts, gives, each, whole, order⟩

end WasiWheels.Transport
