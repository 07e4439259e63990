import WasiWheels.Transport.Outcome

/-! What a response that claims success promises about its run, and the one
answer of a host that breaks the promise. -/

namespace WasiWheels.Transport

variable {H : Type}

/-- The header entry a call inserts into the response. -/
def Call.inserted : Call → List (String × String)
  | .headersInsert key value => [(key, value)]
  | _ => []

/-- The bytes a call hands to the content handler. -/
def Call.handed : Call → Bytes
  | .contentHandler chunk _ => chunk
  | _ => []

/-- Calls on the response body, or made to deliver it. -/
def Call.onBody : Call → Bool
  | .responseConsume _ | .bodyStream _ | .blockingRead .. | .contentHandler .. => true
  | _ => false

namespace Exchange

variable (exchange : Exchange H)

/-- The bytes the caller got: through its content handler, or in the response. -/
def taken (made : List Call) (resp : HTTPResponse H) : Bytes :=
  if exchange.contentHandler.isSome then made.flatMap Call.handed else resp.body

/-- The response tells what the host answered, in full. -/
structure Faithful (made : List Call) (resp : HTTPResponse H) : Prop where
  unfailed : ∀ call ∈ made, call.reportsFailure = false
  status : resp.status = exchange.script.status
  inserted : made.flatMap Call.inserted = exchange.script.entries
  headers : resp.headers =
    exchange.script.entries.foldl (fun headers entry => exchange.db.insert headers entry.1 entry.2) exchange.db.emptyHeaders
  read : ¬ exchange.Stops → exchange.taken made resp = exchange.script.reads.flatten ∧
    .blockingRead 65536 (.error .closed) ∈ made
  unread : exchange.Stops → exchange.taken made resp = [] ∧ ∀ call ∈ made, call.onBody = false

/-- A response that reports success and no error is faithful. -/
def Honest (exit : Exit (HTTPResponse H) String Unit) (made : List Call) : Prop :=
  ∀ resp, exit = .ret resp → resp.success = true → resp.requestError = "" → exchange.Faithful made resp

theorem honest_unsuccessful {exit : Exit (HTTPResponse H) String Unit} (made : List Call)
    (unsuccessful : ∀ resp, exit = .ret resp → resp.success = false) : exchange.Honest exit made := by
  intro resp returned success
  rw [unsuccessful resp returned] at success
  cases success

end Exchange

/-! ### What the calls of each stage tell -/

/-- What a list of calls has to tell: no failure, these insertions, these bytes. -/
structure Tells (made : List Call) (entries : List (String × String)) (bytes : Bytes) : Prop where
  unfailed : ∀ call ∈ made, call.reportsFailure = false
  inserted : made.flatMap Call.inserted = entries
  handed : made.flatMap Call.handed = bytes

theorem Tells.append {first second : List Call} {entries entries' : List (String × String)} {bytes bytes' : Bytes}
    (before : Tells first entries bytes) (after : Tells second entries' bytes') :
    Tells (first ++ second) (entries ++ entries') (bytes ++ bytes') where
  unfailed call member := (List.mem_append.mp member).elim (before.unfailed call) (after.unfailed call)
  inserted := by rw [List.flatMap_append, before.inserted, after.inserted]
  handed := by rw [List.flatMap_append, before.handed, after.handed]

/-- No failure, no insertion, and nothing on the body. -/
def Plain (made : List Call) : Prop := Tells made [] [] ∧ ∀ call ∈ made, call.onBody = false

theorem Tells.nil : Tells [] [] [] where
  unfailed _ member := absurd member List.not_mem_nil
  inserted := rfl
  handed := rfl

theorem Plain.nil : Plain [] := ⟨Tells.nil, fun _ member => absurd member List.not_mem_nil⟩

theorem Plain.append {first second : List Call} (before : Plain first) (after : Plain second) :
    Plain (first ++ second) :=
  ⟨before.1.append after.1, fun call member =>
    (List.mem_append.mp member).elim (before.2 call) (after.2 call)⟩

theorem Plain.single {call : Call} (succeeds : call.reportsFailure = false) (inserts : call.inserted = [])
    (outside : call.onBody = false) : Plain [call] := by
  have hands : call.handed = [] := by
    cases call with
    | contentHandler chunk outcome => cases outside
    | _ => rfl
  refine ⟨⟨?_, by simp [inserts], by simp [hands]⟩, ?_⟩
  · intro other member
    rwa [List.mem_singleton.mp member]
  · intro other member
    rwa [List.mem_singleton.mp member]

theorem frees_plainly (buffers : List Buffer) : Plain (buffers.map .free) := by
  induction buffers with
  | nil => exact Plain.nil
  | cons buffer rest ih => exact (show Plain [.free buffer] from Plain.single rfl rfl rfl).append ih

theorem entriesFree_plainly (entries : List (String × String)) : Plain (entriesFree entries) := by
  rw [entriesFree_eq]
  exact frees_plainly _

theorem appends_plain (pairs : List (String × String)) : Plain (appends pairs) := by
  induction pairs with
  | nil => exact Plain.nil
  | cons pair rest ih => exact (show Plain [.fieldsAppend pair.1 pair.2 none] from Plain.single rfl rfl rfl).append ih

theorem writes_plain (body : Bytes) (off : Nat) : Plain (writes body off) := by
  induction off using writes.induct body with
  | case1 off more size ih =>
    rw [writes, if_pos more]
    exact (show Plain [.blockingWriteAndFlush _ none] from Plain.single rfl rfl rfl).append ih
  | case2 off done =>
    rw [writes, if_neg done]
    exact Plain.nil

namespace Exchange

variable (exchange : Exchange H)

theorem targets_plain : Plain exchange.targets :=
  (show Plain [.setMethod exchange.method true] from Plain.single rfl rfl rfl).append <|
    (show Plain [.setScheme _ true] from Plain.single rfl rfl rfl).append <|
      (show Plain [.setAuthority _ true] from Plain.single rfl rfl rfl).append (Plain.single rfl rfl rfl)

theorem sentCalls_plain : Plain exchange.sentCalls := by
  have body : Plain (if exchange.bodyData.isSome then [.outgoingRequestBody true] else []) := by
    split
    · exact Plain.single rfl rfl rfl
    · exact Plain.nil
  have prepared : Plain exchange.prepared :=
    ((((Plain.single rfl rfl rfl).append (appends_plain _)).append (Plain.single rfl rfl rfl)).append
      exchange.targets_plain).append body
  have uploads : Plain exchange.uploads := by
    unfold uploads
    split
    · exact Plain.nil
    · exact (Plain.single rfl rfl rfl).append ((writes_plain _ _).append (Plain.single rfl rfl rfl))
  exact prepared.append ((Plain.single rfl rfl rfl).append uploads)

theorem headCalls_tell :
    Tells exchange.headCalls exchange.script.entries [] ∧ ∀ call ∈ exchange.headCalls, call.onBody = false := by
  have inserts : ∀ entries : List (String × String),
      Tells (entries.map fun entry => .headersInsert entry.1 entry.2) entries [] ∧
        ∀ call ∈ entries.map fun entry => Call.headersInsert entry.1 entry.2, call.onBody = false := by
    intro entries
    refine ⟨⟨?_, by simp [List.flatMap_map, Call.inserted], by simp [List.flatMap_map, Call.handed]⟩, ?_⟩
    · intro call member
      obtain ⟨entry, -, rfl⟩ := List.mem_map.mp member
      rfl
    · intro call member
      obtain ⟨entry, -, rfl⟩ := List.mem_map.mp member
      rfl
  have status : Plain [.responseStatus exchange.script.status] := Plain.single rfl rfl rfl
  have headers : Plain [.responseHeaders] := Plain.single rfl rfl rfl
  have listed : Plain [.fieldsEntries exchange.script.entries] := Plain.single rfl rfl rfl
  have freed := entriesFree_plainly exchange.script.entries
  obtain ⟨told, outside⟩ := inserts exchange.script.entries
  refine ⟨?_, ?_⟩
  · have all := status.1.append (headers.1.append ((listed.1.append told).append freed.1))
    rw [List.append_nil] at all
    exact all
  · intro call member
    simp only [headCalls, List.mem_append] at member
    rcases member with found | found | (found | found) | found
    · exact status.2 call found
    · exact headers.2 call found
    · exact listed.2 call found
    · exact outside call found
    · exact freed.2 call found

theorem consultCalls_plain : Plain exchange.consultCalls := by
  unfold consultCalls
  cases exchange.responseHandler with
  | none => exact Plain.nil
  | some handler => exact Plain.single rfl rfl rfl

theorem headedCalls_tell :
    Tells exchange.headedCalls exchange.script.entries [] ∧ ∀ call ∈ exchange.headedCalls, call.onBody = false := by
  have waited : Plain waiting :=
    (Plain.single rfl rfl rfl).append ((Plain.single rfl rfl rfl).append (Plain.single rfl rfl rfl))
  obtain ⟨told, outside⟩ := exchange.headCalls_tell
  refine ⟨?_, ?_⟩
  · have all := exchange.sentCalls_plain.1.append (waited.1.append (told.append exchange.consultCalls_plain.1))
    rw [List.append_nil] at all
    exact all
  · intro call member
    simp only [headedCalls, List.mem_append] at member
    rcases member with found | found | found | found
    · exact exchange.sentCalls_plain.2 call found
    · exact waited.2 call found
    · exact outside call found
    · exact exchange.consultCalls_plain.2 call found

end Exchange

theorem listU8Free_plainly (bytes : Bytes) : Plain (listU8Free bytes) := by
  rw [listU8Free_eq]
  exact frees_plainly _

/-- Every chunk goes to the content handler, in the order the host delivered them. -/
theorem reading_tells (contentHandler : Option ContentHandler) (given reads : List Bytes) :
    Tells (reading contentHandler given reads) [] (if contentHandler.isSome then reads.flatten else []) := by
  induction reads generalizing given with
  | nil =>
    rw [List.flatten_nil, ite_self]
    exact Tells.nil
  | cons chunk rest ih =>
    have read : Tells [.blockingRead 65536 (.ok chunk)] [] [] := ⟨by simp [Call.reportsFailure], rfl, rfl⟩
    have handed : Tells (if chunk.length = 0 then []
        else contentHandler.toList.map fun handler => .contentHandler chunk (handler given chunk)) []
        (if contentHandler.isSome then chunk else []) := by
      split
      · rename_i empty
        rw [List.length_eq_zero_iff.mp empty]
        rw [ite_self]
        exact Tells.nil
      · cases contentHandler with
        | none => exact Tells.nil
        | some handler => exact ⟨by simp [Call.reportsFailure], rfl, by simp [Call.handed]⟩
    have all := ((read.append handed).append (listU8Free_plainly chunk).1).append
      (ih (if chunk.length = 0 then given else given ++ [chunk]))
    have grown : ([] ++ if contentHandler.isSome then chunk else []) ++ [] ++
        (if contentHandler.isSome then rest.flatten else []) =
          if contentHandler.isSome then (chunk :: rest).flatten else [] := by
      cases contentHandler <;> simp
    rw [grown] at all
    exact all

namespace Exchange

variable (exchange : Exchange H)

theorem bodyCalls_tell (closed : exchange.script.readEnd = .closed) :
    Tells exchange.bodyCalls [] (if exchange.contentHandler.isSome then exchange.script.reads.flatten else []) := by
  have consumed : Tells [.responseConsume true] [] [] := ⟨by simp [Call.reportsFailure], rfl, rfl⟩
  have streamed : Tells [.bodyStream true] [] [] := ⟨by simp [Call.reportsFailure], rfl, rfl⟩
  have last : Tells (lastRead exchange.script) [] [] := by
    rw [lastRead, closed]
    exact ⟨by simp [Call.reportsFailure, descriptions], rfl, rfl⟩
  have read := reading_tells exchange.contentHandler [] exchange.script.reads
  have all := consumed.append (streamed.append (read.append last))
  simpa [bodyCalls] using all

theorem drained_faithful (drained : exchange.Drained) (closed : exchange.script.readEnd = .closed) :
    exchange.Faithful (exchange.headedCalls ++ exchange.bodyCalls) exchange.received := by
  have told := exchange.headedCalls_tell.1.append (exchange.bodyCalls_tell closed)
  refine ⟨told.unfailed, ?_, ?_, ?_, fun _ => ⟨?_, ?_⟩, fun stops => absurd drained.wanted stops.unwanted⟩
  · rw [received, closed]
    rfl
  · rw [told.inserted, List.append_nil]
  · rw [received, closed]
    rfl
  · rw [taken, told.handed, received, closed]
    cases exchange.contentHandler with
    | none => rfl
    | some handler => rfl
  · simp [bodyCalls, lastRead, closed]

theorem stopped_faithful (stops : exchange.Stops) : exchange.Faithful exchange.headedCalls exchange.head := by
  obtain ⟨told, outside⟩ := exchange.headedCalls_tell
  refine ⟨told.unfailed, rfl, told.inserted, rfl, fun goesOn => absurd stops goesOn, fun _ => ⟨?_, outside⟩⟩
  rw [taken, told.handed]
  exact ite_self []

theorem drained_outcome (drained : exchange.Drained) :
    exchange.exit = .ret exchange.received ∧ exchange.calls = exchange.headedCalls ++ exchange.bodyCalls := by
  have outcome := exchange.outcome
  generalize exchange.exit = exit at outcome ⊢
  generalize exchange.calls = made at outcome ⊢
  cases outcome with
  | refused refusal => exact absurd drained.accepted refusal
  | unsent accepted answer =>
    rw [drained.handled] at answer
    cases answer
  | cut accepted handled refusal => exact absurd drained.uploaded refusal
  | lost sent undrained => exact absurd drained undrained
  | stopped sent answered stops => exact absurd drained.wanted stops.unwanted
  | drained => exact ⟨rfl, rfl⟩

/-- A successful response is faithful unless the last read fails without a text. -/
theorem honest_iff : exchange.Honest exchange.exit exchange.calls ↔
    ¬ (exchange.Drained ∧ exchange.script.readEnd = .lastOperationFailed "") := by
  constructor
  · rintro honest ⟨drained, failed⟩
    obtain ⟨exited, called⟩ := exchange.drained_outcome drained
    have accepted := honest exchange.received exited (by simp [received, failed, StreamError.text, head, responseHead])
      (by simp [received, failed, StreamError.text, head, responseHead])
    have unfailed := accepted.unfailed (.blockingRead 65536 (.error (.lastOperationFailed "")))
      (by simp [called, bodyCalls, lastRead, failed])
    cases unfailed
  · intro told
    have outcome := exchange.outcome
    generalize exchange.exit = exit at outcome ⊢
    generalize exchange.calls = made at outcome ⊢
    cases outcome with
    | refused => exact exchange.honest_unsuccessful _ fun resp same => by cases same; rfl
    | unsent => exact exchange.honest_unsuccessful _ fun resp same => by cases same; rfl
    | cut => exact exchange.honest_unsuccessful _ fun resp same => by cases same; rfl
    | lost sent undrained unsuccessful => exact exchange.honest_unsuccessful _ unsuccessful
    | stopped sent answered stops =>
      rintro resp ⟨⟩ - -
      exact exchange.stopped_faithful stops
    | drained drained =>
      rintro resp ⟨⟩ success -
      cases ended : exchange.script.readEnd with
      | closed => exact exchange.drained_faithful drained ended
      | lastOperationFailed debug =>
        have named : debug ≠ "" := fun empty => told ⟨drained, empty ▸ ended⟩
        simp [received, ended, StreamError.text, named] at success

/-- A body cut short by a failed read whose error has no debug text. -/
def cutShort : Exchange (List (String × String)) where
  db := DuckDB.association
  bearerToken := ""
  script := { HostScript.willing with reads := [[104, 105]], readEnd := .lastOperationFailed "" }
  url := "https://example.org/data"
  method := .get
  headers := []
  bodyData := none
  contentHandler := none
  responseHandler := none

/-- The cut-short body is reported as a success. -/
theorem cutShort_dishonest : ¬ cutShort.Honest cutShort.exit cutShort.calls := by
  intro honest
  have faithful := honest { cutShort.head with body := [104, 105] } rfl rfl rfl
  exact absurd (faithful.unfailed (.blockingRead 65536 (.error (.lastOperationFailed ""))) (by decide)) (by decide)

end Exchange

end WasiWheels.Transport
