import WasiWheels.Transport.Transcript

/-! The request up to its dispatch: what it is given, and what the host takes. -/

namespace WasiWheels.Transport

variable {H : Type}

/-- The response before its body is read, as the response handler sees it. -/
def responseHead (db : DuckDB H) (script : HostScript) (url : String) : HTTPResponse H :=
  { status := script.status
    url
    reason := db.statusMessage script.status
    headers := script.entries.foldl (fun headers entry => db.insert headers entry.1 entry.2) db.emptyHeaders }

/-- The arguments of one call of `Request` and its surroundings. -/
structure Exchange (H : Type) where
  db : DuckDB H
  bearerToken : String
  script : HostScript
  url : String
  method : Method
  headers : H
  bodyData : Option Bytes
  contentHandler : Option ContentHandler
  responseHandler : Option (ResponseHandler H)

namespace Exchange

variable (exchange : Exchange H)

def block : Cpp H Unit :=
  request exchange.db exchange.bearerToken exchange.script exchange.url exchange.method exchange.headers
    exchange.bodyData exchange.contentHandler exchange.responseHandler

def exit : Exit (HTTPResponse H) String Unit := (exchange.block {}).1

def trace : List Event := (exchange.block {}).2.trace

def calls : List Call := WasiWheels.Transport.calls exchange.trace

/-- The header pairs to append: the caller's, then the token's if it has a place. -/
def headerPairs : List (String × String) :=
  exchange.db.pairs exchange.headers ++
    if exchange.bearerToken ≠ "" ∧ exchange.db.hasHeader exchange.headers "Authorization" = false then
      [("Authorization", "Bearer " ++ exchange.bearerToken)]
    else []

/-- The host takes every header, every setter and the body's handle. -/
structure Accepted : Prop where
  headers : ∀ index < exchange.headerPairs.length, exchange.script.append index = none
  method : exchange.script.setMethod = true
  scheme : exchange.script.setScheme = true
  authority : exchange.script.setAuthority = true
  pathWithQuery : exchange.script.setPathWithQuery = true
  body : exchange.bodyData.isSome → exchange.script.body = true

theorem Accepted.setters {exchange : Exchange H} (accepted : exchange.Accepted) :
    exchange.script.setMethod = true ∧ exchange.script.setScheme = true ∧
      exchange.script.setAuthority = true ∧ exchange.script.setPathWithQuery = true :=
  ⟨accepted.method, accepted.scheme, accepted.authority, accepted.pathWithQuery⟩

/-- `ceil(body_len / 4096)`. -/
def writeCount (body : Bytes) : Nat := (body.length + 4095) / 4096

/-- The host takes the whole request body. -/
structure Uploaded (body : Bytes) : Prop where
  opened : exchange.script.write = true
  written : ∀ index < writeCount body, exchange.script.blockingWriteAndFlush index = none
  finished : exchange.script.finish = none

def head : HTTPResponse H := responseHead exchange.db exchange.script exchange.url

/-- The caller wants the body: there is one, and no response handler objects. -/
structure Wanted : Prop where
  method : exchange.method ≠ .head
  goesOn : ∀ handler, exchange.responseHandler = some handler → handler exchange.head = .returned true

/-- The chunks that reach the caller: those that are not empty. -/
def chunks (reads : List Bytes) : List Bytes := reads.filter fun chunk => decide (chunk.length ≠ 0)

/-- No chunk makes the content handler throw. -/
def Swallows (handler : ContentHandler) (given : List Bytes) : List Bytes → Prop
  | [] => True
  | chunk :: rest => (∃ value, handler given chunk = .returned value) ∧ Swallows handler (given ++ [chunk]) rest

/-- The read loop is entered and left through a failed read. -/
structure Drained : Prop where
  accepted : exchange.Accepted
  handled : exchange.script.handle = none
  uploaded : ∀ body, exchange.bodyData = some body → exchange.Uploaded body
  answered : exchange.script.get = some (.ok (.ok ()))
  wanted : exchange.Wanted
  consumed : exchange.script.consume = true
  streamed : exchange.script.stream = true
  swallowed : ∀ handler, exchange.contentHandler = some handler → Swallows handler [] (chunks exchange.script.reads)

end Exchange

theorem quoted_ne (start url : String) : start ++ url ++ "'" ≠ "" := fun empty =>
  absurd (String.append_eq_empty_iff.mp empty).2 (by decide)

/-- The calls of a header list the host takes whole. -/
def appends (pairs : List (String × String)) : List Call :=
  pairs.map fun pair => .fieldsAppend pair.1 pair.2 none

theorem appends_building (pairs : List (String × String)) : (appends pairs).all Call.building = true := by
  simp [appends, Call.building]

section Build

variable (script : HostScript)

theorem append_emits (bf : Handle) (count : Nat) (key value : String) :
    Emits (append script bf count key value : Cpp H String)
      (.fall (match script.append count with | some herr => headerErrorText key herr | none => ""))
      [.fieldsAppend key value (script.append count)] := by
  refine (emits_host bf _).bind_silent ?_
  cases script.append count with
  | none => exact Block.Runs.pure ""
  | some herr => exact Block.Runs.pure (headerErrorText key herr)

theorem headerErrorText_ne (key : String) (herr : HeaderError) : headerErrorText key herr ≠ "" := by
  intro empty
  exact absurd (String.append_eq_empty_iff.mp empty).2 (by decide)

theorem appendEach_accepted (bf : Handle) (pairs : List (String × String)) (count : Nat)
    (accepts : ∀ index < pairs.length, script.append (count + index) = none) :
    Emits (appendEach script bf count pairs : Cpp H String) (.fall "") (appends pairs) := by
  induction pairs generalizing count with
  | nil => exact Block.Runs.pure ""
  | cons pair rest ih =>
    have first := append_emits (H := H) script bf count pair.1 pair.2
    rw [show script.append count = none from accepts 0 (by simp)] at first
    refine first.bind ?_
    refine ih (count + 1) fun index below => ?_
    rw [Nat.add_right_comm, Nat.add_assoc]
    exact accepts (index + 1) (by simpa using below)

theorem appendEach_refused (pairs : List (String × String)) (count index : Nat) (below : index < pairs.length)
    (refuses : script.append (count + index) ≠ none) :
    ∃ text made, text ≠ "" ∧ made.all Call.building = true ∧
      ∀ bf, Emits (appendEach script bf count pairs : Cpp H String) (.fall text) made := by
  induction pairs generalizing count index with
  | nil => exact absurd below (Nat.not_lt_zero index)
  | cons pair rest ih =>
    have first := fun bf => append_emits (H := H) script bf count pair.1 pair.2
    cases answer : script.append count with
    | some herr =>
      rw [answer] at first
      refine ⟨headerErrorText pair.1 herr, [.fieldsAppend pair.1 pair.2 (some herr)], headerErrorText_ne pair.1 herr,
        by simp [Call.building], fun bf => (first bf).bind_silent ?_⟩
      dsimp only
      rw [if_neg (headerErrorText_ne pair.1 herr)]
      exact Block.Runs.pure _
    | none =>
      cases index with
      | zero => exact absurd answer refuses
      | succ index =>
        rw [answer] at first
        obtain ⟨text, made, named, building, emits⟩ := ih (count + 1) index (by simpa using below)
          (by rwa [Nat.add_right_comm, Nat.add_assoc])
        exact ⟨text, [.fieldsAppend pair.1 pair.2 none] ++ made, named, by simpa [Call.building] using building,
          fun bf => (first bf).bind (emits bf)⟩

end Build

namespace Exchange

variable (exchange : Exchange H)

theorem appendHeaders_accepted (bf : Handle)
    (accepts : ∀ index < exchange.headerPairs.length, exchange.script.append index = none) :
    Emits (appendHeaders exchange.db exchange.bearerToken exchange.script exchange.headers bf) (.fall "")
      (appends exchange.headerPairs) := by
  have each := appendEach_accepted (H := H) exchange.script bf (exchange.db.pairs exchange.headers) 0 fun index below => by
    rw [Nat.zero_add]
    exact accepts index (by simp [headerPairs]; omega)
  rw [headerPairs, appends, List.map_append]
  refine each.bind ?_
  by_cases attach : exchange.bearerToken ≠ "" ∧ exchange.db.hasHeader exchange.headers "Authorization" = false
  · rw [if_pos ⟨rfl, attach⟩, if_pos attach]
    have last := append_emits (H := H) exchange.script bf (exchange.db.pairs exchange.headers).length "Authorization"
      ("Bearer " ++ exchange.bearerToken)
    rw [accepts _ (by simp [headerPairs, attach])] at last
    exact last
  · rw [if_neg fun both => attach both.2, if_neg attach]
    exact Block.Runs.pure ""

theorem appendHeaders_refused (index : Nat) (below : index < exchange.headerPairs.length)
    (refuses : exchange.script.append index ≠ none) :
    ∃ text made, text ≠ "" ∧ made.all Call.building = true ∧
      ∀ bf, Emits (appendHeaders exchange.db exchange.bearerToken exchange.script exchange.headers bf) (.fall text) made := by
  by_cases accepts : ∀ index < (exchange.db.pairs exchange.headers).length, exchange.script.append index = none
  · have each := fun bf =>
      appendEach_accepted (H := H) exchange.script bf (exchange.db.pairs exchange.headers) 0 (by simpa using accepts)
    have attach : exchange.bearerToken ≠ "" ∧ exchange.db.hasHeader exchange.headers "Authorization" = false := by
      by_contra detached
      rw [headerPairs, if_neg detached, List.append_nil] at below
      exact refuses (accepts index below)
    have last : index = (exchange.db.pairs exchange.headers).length := by
      have notBefore : ¬ index < (exchange.db.pairs exchange.headers).length := fun before => refuses (accepts index before)
      simp only [headerPairs, if_pos attach, List.length_append, List.length_singleton] at below
      omega
    subst last
    obtain ⟨herr, answer⟩ := Option.ne_none_iff_exists'.mp refuses
    refine ⟨headerErrorText "Authorization" herr, appends (exchange.db.pairs exchange.headers) ++
      [.fieldsAppend "Authorization" ("Bearer " ++ exchange.bearerToken) (some herr)],
      headerErrorText_ne "Authorization" herr, by simp [appends_building, Call.building], fun bf => (each bf).bind ?_⟩
    rw [if_pos ⟨rfl, attach⟩]
    have refused := append_emits (H := H) exchange.script bf (exchange.db.pairs exchange.headers).length "Authorization"
      ("Bearer " ++ exchange.bearerToken)
    rwa [answer] at refused
  · push Not at accepts
    obtain ⟨first, inside, objects⟩ := accepts
    obtain ⟨text, made, named, building, refused⟩ := appendEach_refused (H := H) exchange.script
      (exchange.db.pairs exchange.headers) 0 first inside (by simpa using objects)
    refine ⟨text, made, named, building, fun bf => (refused bf).bind_silent ?_⟩
    rw [if_neg fun both => named both.1]
    exact Block.Runs.pure text

/-- The setter calls of a request the host takes. -/
def targets : List Call :=
  [.setMethod exchange.method true, .setScheme (if (parseUrl exchange.url).https then .https else .http) true,
    .setAuthority (parseUrl exchange.url).authority true, .setPathWithQuery (parseUrl exchange.url).path true]

theorem setTarget_accepted (breq : Handle)
    (accepts : exchange.script.setMethod = true ∧ exchange.script.setScheme = true ∧
      exchange.script.setAuthority = true ∧ exchange.script.setPathWithQuery = true) :
    Emits (setTarget exchange.script exchange.method (parseUrl exchange.url) breq : Cpp H Bool) (.fall true)
      exchange.targets := by
  unfold setTarget
  rw [accepts.1, accepts.2.1, accepts.2.2.1, accepts.2.2.2]
  exact emits_ask_true (emits_ask_true (emits_ask_true (emits_ask breq _ true)))

theorem setTarget_refused
    (refuses : ¬ (exchange.script.setMethod = true ∧ exchange.script.setScheme = true ∧
      exchange.script.setAuthority = true ∧ exchange.script.setPathWithQuery = true)) :
    ∃ made, made.all Call.building = true ∧
      ∀ breq, Emits (setTarget exchange.script exchange.method (parseUrl exchange.url) breq : Cpp H Bool) (.fall false)
        made := by
  unfold setTarget
  have stop : Emits (Pure.pure false : Cpp H Bool) (.fall false) [] := Block.Runs.pure false
  cases method : exchange.script.setMethod with
  | false => exact ⟨_, by simp [Call.building], fun breq => emits_ask_false stop⟩
  | true =>
    cases scheme : exchange.script.setScheme with
    | false => exact ⟨_, by simp [Call.building], fun breq => emits_ask_true (emits_ask_false stop)⟩
    | true =>
      cases authority : exchange.script.setAuthority with
      | false =>
        exact ⟨_, by simp [Call.building], fun breq => emits_ask_true (emits_ask_true (emits_ask_false stop))⟩
      | true =>
        cases pathWithQuery : exchange.script.setPathWithQuery with
        | false =>
          exact ⟨_, by simp [Call.building], fun breq =>
            emits_ask_true (emits_ask_true (emits_ask_true (emits_ask breq _ false)))⟩
        | true => exact absurd ⟨method, scheme, authority, pathWithQuery⟩ refuses

/-- Everything up to the dispatch of a request the host takes. -/
def prepared : List Call :=
  [.constructorFields] ++ appends exchange.headerPairs ++ [.constructorOutgoingRequest] ++ exchange.targets ++
    if exchange.bodyData.isSome then [.outgoingRequestBody true] else []

theorem takeBody_accepted (breq : Handle) (accepted : exchange.Accepted) :
    Emits (takeBody exchange.db exchange.script exchange.url exchange.bodyData breq) (.fall ())
      (if exchange.bodyData.isSome then [.outgoingRequestBody true] else []) := by
  have body := accepted.body
  cases given : exchange.bodyData with
  | none => exact Block.Runs.pure ()
  | some data =>
    rw [given] at body
    unfold takeBody
    rw [body rfl]
    exact (emits_ask breq _ true).bind_silent (emits_moveAssign _ _)

theorem block_appended (accepts : ∀ index < exchange.headerPairs.length, exchange.script.append index = none)
    {exit : Exit (HTTPResponse H) String Unit} {made : List Call}
    (rest : ∀ breq, Emits
      (do
        if ← setTarget exchange.script exchange.method (parseUrl exchange.url) breq then
          declare .outBody (.empty .outBody) do
            takeBody exchange.db exchange.script exchange.url exchange.bodyData breq
            dispatch exchange.db exchange.script exchange.url exchange.method exchange.bodyData
              exchange.contentHandler exchange.responseHandler
        else Block.ret (fail exchange.db
          ("wasi:http: failed to build outgoing request for '" ++ exchange.url ++ "'"))) exit made) :
    Emits exchange.block exit
      ([.constructorFields] ++ (appends exchange.headerPairs ++ ([.constructorOutgoingRequest] ++ made))) := by
  have appended : Emits (borrow .fields fun bf =>
      appendHeaders exchange.db exchange.bearerToken exchange.script exchange.headers bf) (.fall "")
      (appends exchange.headerPairs) := emits_borrow fun bf => exchange.appendHeaders_accepted bf accepts
  refine (emits_perform [.constructorFields]).bind (emits_declare (appended.bind ?_))
  exact emits_release fun consumed => (emits_host consumed _).bind (emits_declare (emits_borrow rest))

/-- From a taken request on, only the dispatch decides. -/
theorem block_accepted (accepted : exchange.Accepted) {exit : Exit (HTTPResponse H) String Unit} {made : List Call}
    (rest : Emits (dispatch exchange.db exchange.script exchange.url exchange.method exchange.bodyData
      exchange.contentHandler exchange.responseHandler) exit made) :
    Emits exchange.block exit (exchange.prepared ++ made) := by
  refine (exchange.block_appended accepted.headers fun breq => (exchange.setTarget_accepted breq accepted.setters).bind
    (emits_declare ((exchange.takeBody_accepted breq accepted).bind rest))).congr ?_
  simp [prepared]

theorem takeBody_refused (breq : Handle) (given : exchange.bodyData.isSome)
    (refuses : exchange.script.body = false) :
    Emits (takeBody exchange.db exchange.script exchange.url exchange.bodyData breq)
      (.ret (fail exchange.db ("wasi:http: failed to acquire request body for '" ++ exchange.url ++ "'")))
      [.outgoingRequestBody false] := by
  obtain ⟨data, same⟩ := Option.isSome_iff_exists.mp given
  unfold takeBody
  rw [same, refuses]
  exact (emits_ask breq _ false).bind_silent (Block.Runs.ret _)

/-- A refusal before the dispatch ends the request without one. -/
theorem block_refused (refused : ¬ exchange.Accepted) :
    ∃ text made, text ≠ "" ∧ made.all Call.building = true ∧
      Emits exchange.block (.ret (fail exchange.db text)) made := by
  by_cases headers : ∀ index < exchange.headerPairs.length, exchange.script.append index = none
  · by_cases setters : exchange.script.setMethod = true ∧ exchange.script.setScheme = true ∧
        exchange.script.setAuthority = true ∧ exchange.script.setPathWithQuery = true
    · have body : exchange.bodyData.isSome ∧ exchange.script.body = false := by
        by_contra taken
        exact refused ⟨headers, setters.1, setters.2.1, setters.2.2.1, setters.2.2.2,
          fun given => by simpa [given] using taken⟩
      refine ⟨_, _, quoted_ne _ _, ?_, exchange.block_appended headers fun breq =>
        (exchange.setTarget_accepted breq setters).bind (emits_declare
          (Block.Runs.bind_ret (exchange.takeBody_refused breq body.1 body.2)))⟩
      simp [appends_building, targets, Call.building]
    · obtain ⟨made, building, targeted⟩ := exchange.setTarget_refused setters
      refine ⟨_, _, quoted_ne _ _, ?_, exchange.block_appended headers fun breq =>
        (targeted breq).bind_silent (Block.Runs.ret _)⟩
      simpa [appends_building, Call.building] using building
  · push Not at headers
    obtain ⟨index, below, objects⟩ := headers
    obtain ⟨text, made, named, building, emits⟩ := exchange.appendHeaders_refused index below objects
    refine ⟨text, [.constructorFields] ++ made, named, by simpa [Call.building] using building, ?_⟩
    refine (emits_perform [.constructorFields]).bind (emits_declare ((emits_borrow emits).bind_silent ?_))
    rw [if_pos named]
    exact Block.Runs.ret _

end Exchange

end WasiWheels.Transport
