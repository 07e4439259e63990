import WasiWheels.Transport.Outcome

/-! What the host sees when a request is dispatched, for each verb. -/

namespace WasiWheels.Transport

variable {H : Type}

/-- The host refuses a header or a setter. -/
def Call.refusal : Call → Bool
  | .fieldsAppend _ _ (some _) => true
  | .setMethod _ false | .setScheme _ false | .setAuthority _ false | .setPathWithQuery _ false => true
  | _ => false

def Call.sends : Call → Bool
  | .outgoingHandlerHandle _ => true
  | _ => false

/-- An outgoing request as the host holds it. -/
structure Outgoing where
  method : Option Method := none
  scheme : Option Scheme := none
  authority : Option String := none
  pathWithQuery : Option String := none
  fields : List (String × String) := []
  deriving DecidableEq

/-- The host records every header and setter it takes. -/
def Outgoing.take (outgoing : Outgoing) : Call → Outgoing
  | .fieldsAppend key value none => { outgoing with fields := outgoing.fields ++ [(key, value)] }
  | .setMethod method true => { outgoing with method := some method }
  | .setScheme scheme true => { outgoing with scheme := some scheme }
  | .setAuthority authority true => { outgoing with authority := some authority }
  | .setPathWithQuery pathWithQuery true => { outgoing with pathWithQuery := some pathWithQuery }
  | _ => outgoing

def outgoing (made : List Call) : Outgoing := made.foldl Outgoing.take {}

theorem appends_taken (pairs : List (String × String)) (start : Outgoing) :
    (appends pairs).foldl Outgoing.take start = { start with fields := start.fields ++ pairs } := by
  induction pairs generalizing start with
  | nil => simp [appends]
  | cons pair rest ih =>
    refine (ih _).trans ?_
    simp [Outgoing.take]

/-- Two ways to cut a list at its only marked element agree. -/
theorem marked_cut {α : Type} {mark : α → Bool} {first second before after : List α} {item other : α}
    (same : first ++ item :: second = before ++ other :: after) (marked : mark other = true)
    (clear : ∀ member ∈ first, mark member = false) (clear' : ∀ member ∈ second, mark member = false) :
    before = first := by
  induction first generalizing before with
  | nil =>
    cases before with
    | nil => rfl
    | cons head rest =>
      have tail : second = rest ++ other :: after := (List.cons.inj same).2
      have unmarked := clear' other (by simp [tail])
      rw [marked] at unmarked
      cases unmarked
  | cons head rest ih =>
    cases before with
    | nil =>
      have unmarked := clear other (by rw [(List.cons.inj same).1]; exact List.mem_cons_self)
      rw [marked] at unmarked
      cases unmarked
    | cons head' rest' =>
      obtain ⟨sameHead, sameRest⟩ := List.cons.inj same
      rw [sameHead, ih sameRest fun member inside => clear member (List.mem_cons_of_mem head inside)]

theorem building_sends {call : Call} (building : call.building = true) : call.sends = false := by
  cases call with
  | outgoingHandlerHandle answer => cases building
  | _ => rfl

theorem later_sends {call : Call} (later : call.later = true) : call.sends = false := by
  cases call with
  | outgoingHandlerHandle answer => cases later
  | _ => rfl

theorem later_refusal {call : Call} (later : call.later = true) : call.refusal = false := by
  cases call with
  | fieldsAppend key value answer => cases later
  | setMethod method accepted => cases later
  | setScheme scheme accepted => cases later
  | setAuthority authority accepted => cases later
  | setPathWithQuery pathWithQuery accepted => cases later
  | _ => rfl

namespace Exchange

variable (exchange : Exchange H)

/-- The request the host holds when everything before the dispatch was taken. -/
def expected : Outgoing where
  method := some exchange.method
  scheme := some (if (parseUrl exchange.url).https then .https else .http)
  authority := some (parseUrl exchange.url).authority
  pathWithQuery := some (parseUrl exchange.url).path
  fields := exchange.headerPairs

theorem outgoing_prepared : outgoing exchange.prepared = exchange.expected := by
  unfold outgoing prepared
  simp only [List.foldl_append, appends_taken]
  cases exchange.bodyData <;> rfl

theorem prepared_refusal : ∀ call ∈ exchange.prepared, call.refusal = false := by
  intro call member
  simp only [prepared, List.mem_append] at member
  rcases member with ((((found | found) | found) | found) | found)
  · rw [List.mem_singleton.mp found]
    rfl
  · obtain ⟨pair, -, rfl⟩ := List.mem_map.mp found
    rfl
  · rw [List.mem_singleton.mp found]
    rfl
  · simp only [targets, List.mem_cons, List.not_mem_nil, or_false] at found
    rcases found with rfl | rfl | rfl | rfl
    all_goals rfl
  · split at found
    · rw [List.mem_singleton.mp found]
      rfl
    · cases found

theorem bodyCalls_later : exchange.bodyCalls.all Call.later = true := by
  have opened : [Call.responseConsume true, .bodyStream true].all Call.later = true := rfl
  have read : [Call.blockingRead 65536 (.error exchange.script.readEnd)].all Call.later = true := rfl
  have all : ([Call.responseConsume true, .bodyStream true] ++
      (reading exchange.contentHandler [] exchange.script.reads ++ lastRead exchange.script)).all Call.later = true := by
    rw [List.all_append, List.all_append, lastRead, List.all_append, opened, read, (reading_quiet _ _ _).1,
      (descriptions_quiet _).1]
    rfl
  exact all

/-- Either the request is refused while it is built, or it is dispatched once. -/
theorem dispatched_or_refused :
    (¬ exchange.Accepted ∧ ∃ text, text ≠ "" ∧ exchange.exit = .ret (fail exchange.db text) ∧
      exchange.calls.all Call.building = true) ∨
      (exchange.Accepted ∧ ∃ answer rest, exchange.calls = exchange.prepared ++ .outgoingHandlerHandle answer :: rest ∧
        rest.all Call.later = true) := by
  have outcome := exchange.outcome
  generalize exchange.exit = exit at outcome ⊢
  generalize exchange.calls = made at outcome ⊢
  have headed : ∀ rest : List Call, exchange.headedCalls ++ rest =
      exchange.prepared ++ .outgoingHandlerHandle none ::
        (exchange.uploads ++ (waiting ++ (exchange.headCalls ++ (exchange.consultCalls ++ rest)))) := by
    simp [headedCalls, sentCalls]
  have quiet : ∀ {rest}, rest.all Call.later = true →
      (exchange.uploads ++ (waiting ++ (exchange.headCalls ++ (exchange.consultCalls ++ rest)))).all Call.later = true := by
    intro rest later
    simp [exchange.uploads_quiet.1, waiting_quiet.1, exchange.headCalls_quiet.1, exchange.consultCalls_quiet.1, later]
  cases outcome with
  | refused refusal named building => exact .inl ⟨refusal, _, named, rfl, building⟩
  | @unsent text sendErr accepted answer named =>
    exact .inr ⟨accepted, some sendErr, errorCodeFree sendErr, by simp, (errorCodeFree_quiet sendErr).1⟩
  | @cut text made accepted handled refusal named cutOff => exact .inr ⟨accepted, none, made, by simp, cutOff.later⟩
  | @lost exit made sent undrained unsuccessful lostQuiet =>
    refine .inr ⟨sent.accepted, none, exchange.uploads ++ made, by simp [sentCalls], ?_⟩
    rw [List.all_append, exchange.uploads_quiet.1, lostQuiet.1]
    rfl
  | stopped sent answered stops =>
    exact .inr ⟨sent.accepted, none, _, by rw [← headed [], List.append_nil], quiet rfl⟩
  | drained drained =>
    exact .inr ⟨drained.accepted, none, _, headed exchange.bodyCalls, quiet exchange.bodyCalls_later⟩

end Exchange

/-- What is dispatched, and when: at most one request, as `wanted` describes it,
once everything before it was taken; after a refusal, none. -/
structure Dispatches (exit : Exit (HTTPResponse H) String Unit) (made : List Call) (wanted : Outgoing → Prop) : Prop where
  once : made.countP Call.sends ≤ 1
  held : ∀ before call after, made = before ++ call :: after → call.sends = true →
    (∀ earlier ∈ before, earlier.refusal = false) ∧ wanted (outgoing before)
  refused : ∀ call ∈ made, call.refusal = true →
    (∀ other ∈ made, other.sends = false) ∧ ∃ resp, exit = .ret resp ∧ resp.success = false ∧ resp.requestError ≠ ""

namespace Exchange

variable (exchange : Exchange H)

theorem building_silent (building : exchange.calls.all Call.building = true) :
    ∀ call ∈ exchange.calls, call.sends = false := fun call member =>
  building_sends (List.all_eq_true.mp building call member)

/-- A request that is dispatched is dispatched once. -/
theorem dispatched_once {answer : Option ErrorCode} {rest : List Call}
    (called : exchange.calls = exchange.prepared ++ .outgoingHandlerHandle answer :: rest) (later : rest.all Call.later = true) :
    exchange.calls.countP Call.sends = 1 := by
  have before : ∀ call ∈ exchange.prepared, ¬ call.sends = true := fun call member => by
    rw [building_sends (List.all_eq_true.mp exchange.prepared_building call member)]
    exact Bool.false_ne_true
  have after : ∀ call ∈ rest, ¬ call.sends = true := fun call member => by
    rw [later_sends (List.all_eq_true.mp later call member)]
    exact Bool.false_ne_true
  rw [called, List.countP_append, List.countP_cons_of_pos rfl, List.countP_eq_zero.mpr before,
    List.countP_eq_zero.mpr after]

/-- A host that takes everything it is given before the dispatch is sent the request. -/
theorem dispatched_iff : exchange.calls.countP Call.sends = 1 ↔ exchange.Accepted := by
  rcases exchange.dispatched_or_refused with ⟨refused, text, -, -, building⟩ | ⟨accepted, answer, rest, called, later⟩
  · refine iff_of_false ?_ refused
    rw [List.countP_eq_zero.mpr fun call member => by simp [exchange.building_silent building call member]]
    exact Nat.zero_ne_one
  · exact iff_of_true (exchange.dispatched_once called later) accepted

theorem dispatches : Dispatches exchange.exit exchange.calls (· = exchange.expected) := by
  rcases exchange.dispatched_or_refused with ⟨-, text, named, exited, building⟩ | ⟨-, answer, rest, called, later⟩
  · have silent := exchange.building_silent building
    refine ⟨?_, ?_, fun call member refused => ⟨silent, _, exited, rfl, named⟩⟩
    · rw [List.countP_eq_zero.mpr fun call member => by simp [silent call member]]
      exact Nat.zero_le 1
    · intro before call after same sends
      rw [silent call (by rw [same]; exact List.mem_append_right before List.mem_cons_self)] at sends
      cases sends
  · refine ⟨Nat.le_of_eq (exchange.dispatched_once called later), ?_, ?_⟩
    · intro start call finish same sends
      obtain rfl := marked_cut (called.symm.trans same) sends
        (fun call member => building_sends (List.all_eq_true.mp exchange.prepared_building call member))
        fun call member => later_sends (List.all_eq_true.mp later call member)
      exact ⟨exchange.prepared_refusal, exchange.outgoing_prepared⟩
    · intro call member refused
      rw [called, List.mem_append, List.mem_cons] at member
      rcases member with found | rfl | found
      · rw [exchange.prepared_refusal call found] at refused
        cases refused
      · cases refused
      · rw [later_refusal (List.all_eq_true.mp later call found)] at refused
        cases refused

end Exchange

theorem Dispatches.weaken {exit : Exit (HTTPResponse H) String Unit} {made : List Call} {wanted wanted' : Outgoing → Prop}
    (dispatches : Dispatches exit made wanted) (weaker : ∀ outgoing, wanted outgoing → wanted' outgoing) :
    Dispatches exit made wanted' where
  once := dispatches.once
  held before call after same sends :=
    ⟨(dispatches.held before call after same sends).1, weaker _ (dispatches.held before call after same sends).2⟩
  refused := dispatches.refused

/-! ### The verbs -/

def gives (pairs : List (String × String)) (key : String) : Bool := pairs.any fun pair => sameHeader pair.1 key

/-- The pairs of a map after a key has been set. -/
def setPair (pairs : List (String × String)) (key value : String) : List (String × String) :=
  if gives pairs key then pairs.map fun pair => if sameHeader pair.1 key then (pair.1, value) else pair
  else (key, value) :: pairs

/-- A map whose keys are compared without regard to case. -/
structure CaseInsensitive (db : DuckDB H) : Prop where
  copied : ∀ headers, (db.pairs (db.copy headers)).Perm (db.pairs headers)
  found : ∀ headers key, db.hasHeader headers key = gives (db.pairs headers) key
  assigned : ∀ headers key value, (db.pairs (db.assign headers key value)).Perm (setPair (db.pairs headers) key value)

theorem gives_perm {first second : List (String × String)} (same : first.Perm second) (key : String) :
    gives first key = gives second key := same.any_eq

theorem gives_setPair (pairs : List (String × String)) {key other : String} (value : String)
    (different : sameHeader key other = false) : gives (setPair pairs key value) other = gives pairs other := by
  unfold setPair
  split
  · unfold gives
    rw [List.any_map]
    congr 1
    funext pair
    simp only [Function.comp_apply]
    split <;> rfl
  · simp [gives, different]

theorem setPair_perm {first second : List (String × String)} (same : first.Perm second) (key value : String) :
    (setPair first key value).Perm (setPair second key value) := by
  unfold setPair
  rw [gives_perm same key]
  split
  · exact same.map _
  · exact same.cons _

namespace Verb

variable (db : DuckDB H) (bearerToken : String) (script : HostScript)

def method : Verb H → Method
  | .get _ => .get
  | .head _ => .head
  | .put _ => .put
  | .post info => if info.sendPostAsGetRequest then .get else .post
  | .delete _ => .delete

def url : Verb H → String
  | .get info => info.url
  | .head info => info.url
  | .put info => info.url
  | .post info => info.url
  | .delete info => info.url

def headers : Verb H → H
  | .get info => info.headers
  | .head info => info.headers
  | .put info => info.headers
  | .post info => info.headers
  | .delete info => info.headers

/-- The map a verb hands to `Request`. -/
def sentHeaders : Verb H → H
  | .put info => db.assign (db.copy info.headers) "Content-Type" info.contentType
  | .post info =>
    if db.hasHeader (db.copy info.headers) "Content-Type" then db.copy info.headers
    else db.assign (db.copy info.headers) "Content-Type" "application/octet-stream"
  | verb => verb.headers

/-- The call of `Request` a verb makes. -/
def exchange (verb : Verb H) : Exchange H where
  db
  bearerToken
  script
  url := verb.url
  method := verb.method
  headers := verb.sentHeaders db
  bodyData := match verb with
    | .put info => info.bufferIn
    | .post info => info.bufferIn
    | _ => none
  contentHandler := match verb with
    | .get info => some info.contentHandler
    | _ => none
  responseHandler := match verb with
    | .get info => some info.responseHandler
    | _ => none

/-- The pairs a verb sends, from those its caller gave. -/
def Carries (verb : Verb H) (sent : List (String × String)) : Prop :=
  match verb with
  | .put info => (∃ hdrs, sent = db.pairs hdrs) ∧
      sent.Perm (setPair (db.pairs info.headers) "Content-Type" info.contentType)
  | .post info => (∃ hdrs, sent = db.pairs hdrs) ∧
      sent.Perm (if gives (db.pairs info.headers) "Content-Type" then db.pairs info.headers
        else ("Content-Type", "application/octet-stream") :: db.pairs info.headers)
  | verb => sent = db.pairs verb.headers

/-- The request a verb promises to dispatch. -/
def Promises (verb : Verb H) (outgoing : Outgoing) : Prop :=
  outgoing.method = some verb.method ∧
    outgoing.scheme = some (if (parseUrl verb.url).https then .https else .http) ∧
    outgoing.authority = some (parseUrl verb.url).authority ∧
    outgoing.pathWithQuery = some (parseUrl verb.url).path ∧
    ∃ sent, verb.Carries db sent ∧ outgoing.fields = sent ++
      if bearerToken ≠ "" ∧ gives (db.pairs verb.headers) "Authorization" = false then
        [("Authorization", "Bearer " ++ bearerToken)]
      else []

/-- Copying the body out to the caller's buffer changes neither exit nor trace. -/
theorem buffered_same (block : Cpp H Unit) (world : World) :
    let buffered : Cpp H Unit := do
      match ← Block.call block with
      | some resp => do
        Block.modify fun world => { world with bufferOut := resp.body }
        Block.ret resp
      | none => return
    (buffered world).1 = (block world).1 ∧ (buffered world).2.trace = (block world).2.trace := by
  intro buffered
  change (Block.bind (Block.call block) _ world).1 = _ ∧ (Block.bind (Block.call block) _ world).2.trace = _
  unfold Block.bind Block.call
  cases outcome : block world with
  | mk exit after =>
    cases exit with
    | fall value => exact ⟨rfl, rfl⟩
    | ret resp => exact ⟨rfl, rfl⟩
    | throw what => exact ⟨rfl, rfl⟩

theorem run_exchange (verb : Verb H) :
    (verb.run db bearerToken script {}).1 = (verb.exchange db bearerToken script).exit ∧
      calls (verb.run db bearerToken script {}).2.trace = (verb.exchange db bearerToken script).calls := by
  cases verb with
  | post info =>
    obtain ⟨exited, traced⟩ := buffered_same ((Verb.post info).exchange db bearerToken script).block {}
    exact ⟨exited, congrArg calls traced⟩
  | _ => exact ⟨rfl, rfl⟩

theorem sentHeaders_carried {db : DuckDB H} (laws : CaseInsensitive db) (verb : Verb H) :
    verb.Carries db (db.pairs (verb.sentHeaders db)) := by
  cases verb with
  | put info => exact ⟨⟨_, rfl⟩, (laws.assigned _ _ _).trans (setPair_perm (laws.copied _) _ _)⟩
  | post info =>
    refine ⟨⟨_, rfl⟩, ?_⟩
    have given : db.hasHeader (db.copy info.headers) "Content-Type" = gives (db.pairs info.headers) "Content-Type" := by
      rw [laws.found, gives_perm (laws.copied _)]
    unfold sentHeaders
    dsimp only
    rw [given]
    split
    · exact laws.copied _
    · rename_i missing
      have set := (laws.assigned (db.copy info.headers) "Content-Type" "application/octet-stream").trans
        (setPair_perm (laws.copied _) _ _)
      rwa [setPair, if_neg missing] at set
  | _ => rfl

theorem carried_gives {db : DuckDB H} (verb : Verb H) {sent : List (String × String)} (carried : verb.Carries db sent) :
    gives sent "Authorization" = gives (db.pairs verb.headers) "Authorization" := by
  have other : sameHeader "Content-Type" "Authorization" = false := by decide
  cases verb with
  | put info => rw [gives_perm carried.2, gives_setPair _ _ other, headers]
  | post info =>
    rw [gives_perm carried.2]
    split
    · rfl
    · simp [gives, other, headers]
  | _ => exact congrArg (gives · "Authorization") carried

/-- Every verb dispatches what it promises, at most once, and nothing after a refusal; a host that
takes every header, every setter and the body's handle is sent it. -/
theorem run_dispatches {db : DuckDB H} (laws : CaseInsensitive db) (verb : Verb H) :
    Dispatches (verb.run db bearerToken script {}).1 (calls (verb.run db bearerToken script {}).2.trace)
      (verb.Promises db bearerToken) ∧
    ((calls (verb.run db bearerToken script {}).2.trace).countP Call.sends = 1 ↔
      (verb.exchange db bearerToken script).Accepted) := by
  obtain ⟨exited, called⟩ := verb.run_exchange db bearerToken script
  rw [exited, called]
  refine ⟨(verb.exchange db bearerToken script).dispatches.weaken ?_, (verb.exchange db bearerToken script).dispatched_iff⟩
  rintro outgoing rfl
  have carried := sentHeaders_carried laws verb
  refine ⟨rfl, rfl, rfl, rfl, _, carried, ?_⟩
  rw [← carried_gives verb carried, ← laws.found]
  rfl

end Verb

theorem DuckDB.association_caseInsensitive : CaseInsensitive DuckDB.association where
  copied headers := List.Perm.refl headers
  found headers key := rfl
  assigned headers key value := by
    change (if gives headers key then _ else headers ++ [(key, value)]).Perm (setPair headers key value)
    unfold setPair
    split
    · exact List.Perm.refl _
    · exact (List.perm_append_singleton (key, value) headers)

/-- A put with a token, seen by a host that takes everything. -/
theorem Verb.put_dispatches :
    let put : Verb (List (String × String)) := .put
      { headers := [("content-type", "text/plain"), ("Range", "bytes=0-")], url := "https://example.org/data?a=1"
        contentType := "text/csv", bufferIn := some [1, 2, 3] }
    CaseInsensitive DuckDB.association ∧
      Dispatches (put.run DuckDB.association "secret" HostScript.willing {}).1
        (calls (put.run DuckDB.association "secret" HostScript.willing {}).2.trace)
        (put.Promises DuckDB.association "secret") ∧
      (calls (put.run DuckDB.association "secret" HostScript.willing {}).2.trace).countP Call.sends = 1 := by
  intro put
  obtain ⟨dispatches, sent⟩ := Verb.run_dispatches "secret" HostScript.willing DuckDB.association_caseInsensitive put
  exact ⟨DuckDB.association_caseInsensitive, dispatches, sent.mpr ⟨fun _ _ => rfl, rfl, rfl, rfl, rfl, fun _ => rfl⟩⟩

end WasiWheels.Transport
