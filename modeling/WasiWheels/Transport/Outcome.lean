import WasiWheels.Transport.Reading
import WasiWheels.Transport.Uploading

/-! How a request can end, and that every request ends in one of these ways. -/

namespace WasiWheels.Transport

variable {H : Type}

/-- Waiting for the response, and getting one. -/
def waiting : List Call := [.subscribe] ++ ([.pollableBlock] ++ [.futureGet (some (.ok (.ok ())))])

namespace Exchange

variable (exchange : Exchange H)

/-- The request is dispatched and its body is taken whole. -/
structure Sent : Prop where
  accepted : exchange.Accepted
  handled : exchange.script.handle = none
  uploaded : ∀ body, exchange.bodyData = some body → exchange.Uploaded body

/-- The two reasons not to open the body of a response. -/
def Stops : Prop :=
  exchange.method = .head ∨
    ∃ handler, exchange.responseHandler = some handler ∧ handler exchange.head = .returned false

theorem Stops.unwanted {exchange : Exchange H} (stops : exchange.Stops) : ¬ exchange.Wanted := by
  rintro ⟨method, goesOn⟩
  rcases stops with same | ⟨handler, given, stopped⟩
  · exact method same
  · rw [goesOn handler given] at stopped
    cases stopped

def sentCalls : List Call := exchange.prepared ++ ([.outgoingHandlerHandle none] ++ exchange.uploads)

def consultCalls : List Call :=
  exchange.responseHandler.toList.map fun handler => .responseHandler (handler exchange.head)

def headedCalls : List Call :=
  exchange.sentCalls ++ (waiting ++ (exchange.headCalls ++ exchange.consultCalls))

/-- The ends of a request, each with the calls made until then. -/
inductive Outcome : Exit (HTTPResponse H) String Unit → List Call → Prop
  | refused {text made} (refusal : ¬ exchange.Accepted) (named : text ≠ "")
      (building : made.all Call.building = true) : Outcome (.ret (fail exchange.db text)) made
  | unsent {text sendErr} (accepted : exchange.Accepted) (answer : exchange.script.handle = some sendErr)
      (named : text ≠ "") : Outcome (.ret (fail exchange.db text))
        (exchange.prepared ++ ([.outgoingHandlerHandle (some sendErr)] ++ errorCodeFree sendErr))
  | cut {text made} (accepted : exchange.Accepted) (handled : exchange.script.handle = none)
      (refusal : ¬ ∀ body, exchange.bodyData = some body → exchange.Uploaded body) (named : text ≠ "")
      (cutOff : exchange.CutOff made) :
      Outcome (.ret (fail exchange.db text)) (exchange.prepared ++ ([.outgoingHandlerHandle none] ++ made))
  | lost {exit made} (sent : exchange.Sent) (undrained : ¬ exchange.Drained)
      (unsuccessful : ∀ resp, exit = .ret resp → resp.success = false) (quiet : Quiet made) :
      Outcome exit (exchange.sentCalls ++ made)
  | stopped (sent : exchange.Sent) (answered : exchange.script.get = some (.ok (.ok ())))
      (stops : exchange.Stops) : Outcome (.ret exchange.head) exchange.headedCalls
  | drained (drained : exchange.Drained) : Outcome (.ret exchange.received) (exchange.headedCalls ++ exchange.bodyCalls)

/-- `get` answers none although the pollable was ready, which the client tests for. -/
def Unanswered : Prop := exchange.Sent ∧ exchange.script.get = none

/-- The content handler throws at a chunk it is handed. -/
structure Interrupted : Prop where
  sent : exchange.Sent
  answered : exchange.script.get = some (.ok (.ok ()))
  wanted : exchange.Wanted
  consumed : exchange.script.consume = true
  streamed : exchange.script.stream = true
  throws : ∃ handler, exchange.contentHandler = some handler ∧ ¬ Swallows handler [] (chunks exchange.script.reads)

/-- What the calls of a request do with the memory of its answers. -/
inductive Settles (made : List Call) : Prop
  | neat (answered : ¬ exchange.Unanswered) (uninterrupted : ¬ exchange.Interrupted) (neat : Neat made)
  | wild (unanswered : exchange.Unanswered) (refused : Heap.run 0 (heapActions made) = none)
  | leaky (chunk : Bytes) (interrupted : exchange.Interrupted) (leaves : Heap.Leaves (.chunk chunk) (heapActions made))

theorem Settles.unsent {exchange : Exchange H} {made : List Call} (neat : Neat made) (unsent : ¬ exchange.Sent) :
    exchange.Settles made :=
  .neat (fun unanswered => unsent unanswered.1) (fun interrupted => unsent interrupted.sent) neat

theorem Settles.answered {exchange : Exchange H} {made : List Call} (neat : Neat made)
    (answered : exchange.script.get = some (.ok (.ok ()))) (uninterrupted : ¬ exchange.Interrupted) :
    exchange.Settles made := by
  refine .neat ?_ uninterrupted neat
  rintro ⟨_, none⟩
  rw [answered] at none
  cases none

theorem Drained.sent {exchange : Exchange H} (drained : exchange.Drained) : exchange.Sent :=
  ⟨drained.accepted, drained.handled, drained.uploaded⟩

/-- What is left after the upload, once the response is there. -/
theorem block_sent (sent : exchange.Sent) {exit : Exit (HTTPResponse H) String Unit} {made : List Call}
    (rest : Emits (respond exchange.db exchange.script exchange.url exchange.method exchange.contentHandler
      exchange.responseHandler) exit made) : Emits exchange.block exit (exchange.sentCalls ++ made) := by
  have dispatched : Emits (dispatch exchange.db exchange.script exchange.url exchange.method exchange.bodyData
      exchange.contentHandler exchange.responseHandler) exit
      ([.outgoingHandlerHandle none] ++ (exchange.uploads ++ made)) := by
    unfold dispatch
    rw [sent.handled]
    exact emits_release fun consumed => (emits_host consumed _).bind
      (emits_declare ((exchange.upload_accepted sent.uploaded).bind rest))
  exact (exchange.block_accepted sent.accepted dispatched).congr (by simp [sentCalls])

theorem block_answered (sent : exchange.Sent) (answered : exchange.script.get = some (.ok (.ok ())))
    {exit : Exit (HTTPResponse H) String Unit} {made : List Call}
    (rest : ∀ bresp, Emits
      (do
        consult exchange.responseHandler exchange.head
        if exchange.method = .head then Block.ret exchange.head
        else do
          let resp ← readBody exchange.db exchange.script exchange.url exchange.contentHandler exchange.head bresp
          Block.ret resp) exit made) :
    Emits exchange.block exit (exchange.sentCalls ++ (waiting ++ (exchange.headCalls ++ made))) := by
  have responded : Emits (respond exchange.db exchange.script exchange.url exchange.method exchange.contentHandler
      exchange.responseHandler) exit
      ([.subscribe] ++ ([.pollableBlock] ++ ([.futureGet (some (.ok (.ok ())))] ++ (exchange.headCalls ++ made)))) := by
    unfold respond
    rw [answered]
    refine emits_borrow fun bfut => (emits_host bfut _).bind (emits_declare ?_)
    refine Block.Runs.bind (emits_borrow fun bpoll => emits_host bpoll _) ((emits_host bfut _).bind ?_)
    exact emits_declare (emits_borrow fun bresp => (exchange.readHead_emits bresp).bind (rest bresp))
  exact (exchange.block_sent sent responded).congr (by simp [waiting])

theorem consult_goesOn (goesOn : ∀ handler, exchange.responseHandler = some handler →
    handler exchange.head = .returned true) :
    Emits (consult exchange.responseHandler exchange.head) (.fall ()) exchange.consultCalls := by
  unfold consultCalls
  cases given : exchange.responseHandler with
  | none => exact Block.Runs.pure ()
  | some handler =>
    change Emits (consult (some handler) exchange.head) _ [.responseHandler (handler exchange.head)]
    unfold consult
    dsimp only
    rw [goesOn handler given]
    refine Block.Runs.tryCatch_pass (fun error same => by cases same) ((emits_perform _).bind_silent ?_)
    exact Block.Runs.pure ()

theorem consult_given {handler : ResponseHandler H} {exit : Exit (HTTPResponse H) String Unit}
    (given : exchange.responseHandler = some handler)
    (emits : Emits (consult (some handler) exchange.head) exit [.responseHandler (handler exchange.head)]) :
    Emits (consult exchange.responseHandler exchange.head) exit exchange.consultCalls := by
  unfold consultCalls
  rw [given]
  exact emits

theorem consult_stops (handler : ResponseHandler H) (given : exchange.responseHandler = some handler)
    (stops : handler exchange.head = .returned false) :
    Emits (consult exchange.responseHandler exchange.head) (.ret exchange.head) exchange.consultCalls := by
  refine exchange.consult_given given ?_
  unfold consult
  dsimp only
  rw [stops]
  refine Block.Runs.tryCatch_pass (fun error same => by cases same) ((emits_perform _).bind_silent ?_)
  exact Block.Runs.ret _

/-- A response handler that throws ends the request without success. -/
theorem consult_throws (handler : ResponseHandler H) (what : String) (given : exchange.responseHandler = some handler)
    (throws : handler exchange.head = .threw what) :
    Emits (consult exchange.responseHandler exchange.head)
      (if 400 ≤ exchange.head.status then .ret { exchange.head with success := false } else .throw what)
      exchange.consultCalls := by
  refine exchange.consult_given given ?_
  unfold consult
  dsimp only
  rw [throws]
  have thrown : Emits
      (do
        perform [.responseHandler (.threw what)]
        Block.throw what : Cpp H Unit) (.throw what) [.responseHandler (.threw what)] :=
    (emits_perform _).bind_silent (Block.Runs.throw what)
  refine (Block.Runs.tryCatch_caught thrown ?_).congr (List.append_nil _)
  split
  · exact Block.Runs.ret _
  · exact Block.Runs.throw what

theorem consultCalls_quiet : Quiet exchange.consultCalls := by
  unfold consultCalls
  cases exchange.responseHandler with
  | none => exact Quiet.nil
  | some handler => exact ⟨rfl, rfl⟩

theorem prepared_building : exchange.prepared.all Call.building = true := by
  unfold prepared targets
  cases exchange.bodyData <;> simp [appends_building, Call.building]

theorem uploads_quiet : Quiet exchange.uploads := by
  unfold uploads
  split
  · exact Quiet.nil
  · exact Quiet.append ⟨rfl, rfl⟩ ((writes_quiet _ _).append ⟨rfl, rfl⟩)

theorem futureGet_quiet (got : Option Got) : Quiet [.futureGet got] := by
  rcases got with _ | _ | _ | ⟨⟨⟩⟩
  all_goals exact ⟨rfl, rfl⟩

theorem waiting_quiet : Quiet waiting := ⟨rfl, rfl⟩

theorem consultCalls_neat : Neat exchange.consultCalls := by
  unfold consultCalls
  cases exchange.responseHandler with
  | none => exact Neat.nil
  | some handler => exact @Neat.single (.responseHandler (handler exchange.head)) rfl

theorem uploads_neat : Neat exchange.uploads := by
  unfold uploads
  split
  · exact Neat.nil
  · exact Neat.append (Neat.single rfl) ((writes_neat _ 0).append (Neat.single rfl))

theorem sentCalls_neat : Neat exchange.sentCalls :=
  (building_neat exchange.prepared_building).append (Neat.append (Neat.single rfl) exchange.uploads_neat)

theorem waiting_neat : Neat waiting :=
  Neat.append (Neat.single rfl) (Neat.append (Neat.single rfl) (Neat.single rfl))

theorem headedCalls_neat : Neat exchange.headedCalls :=
  exchange.sentCalls_neat.append (waiting_neat.append (exchange.headCalls_neat.append exchange.consultCalls_neat))

theorem wanted_outcome (sent : exchange.Sent) (answered : exchange.script.get = some (.ok (.ok ())))
    (wanted : exchange.Wanted) : ∃ exit made, exchange.Outcome exit made ∧ Emits exchange.block exit made ∧
      exchange.Settles made := by
  have ends : ∀ {exit made}, (∀ bresp, Emits
      (do
        let resp ← readBody exchange.db exchange.script exchange.url exchange.contentHandler exchange.head bresp
        Block.ret resp) exit made) →
      Emits exchange.block exit (exchange.sentCalls ++ (waiting ++ (exchange.headCalls ++ (exchange.consultCalls ++ made)))) :=
    fun emits => exchange.block_answered sent answered fun bresp =>
      (exchange.consult_goesOn wanted.goesOn).bind (by rw [if_neg wanted.method]; exact emits bresp)
  have quiets : ∀ {made}, Quiet made →
      Quiet (waiting ++ (exchange.headCalls ++ (exchange.consultCalls ++ made))) := fun quiet =>
    waiting_quiet.append (exchange.headCalls_quiet.append (exchange.consultCalls_quiet.append quiet))
  have headed (made : List Call) :
      exchange.sentCalls ++ (waiting ++ (exchange.headCalls ++ (exchange.consultCalls ++ made))) =
        exchange.headedCalls ++ made := by
    simp [headedCalls]
  by_cases opened : exchange.script.consume = true ∧ exchange.script.stream = true
  · by_cases swallows : ∀ handler, exchange.contentHandler = some handler → Swallows handler [] (chunks exchange.script.reads)
    · have drained : exchange.Drained :=
        ⟨sent.accepted, sent.handled, sent.uploaded, answered, wanted, opened.1, opened.2, swallows⟩
      refine ⟨_, _, .drained drained, (ends fun bresp =>
        (exchange.readBody_drained bresp opened.1 opened.2 swallows).bind_silent (Block.Runs.ret _)).congr ?_,
        .answered (exchange.headedCalls_neat.append exchange.bodyCalls_neat) answered ?_⟩
      · simp [headedCalls]
      · rintro ⟨_, _, _, _, _, handler, given, throws⟩
        exact throws (swallows handler given)
    · push Not at swallows
      obtain ⟨handler, given, objects⟩ := swallows
      obtain ⟨what, made, chunk, quiet, leaves, emits⟩ :=
        exchange.readBody_interrupted handler given opened.1 opened.2 objects
      refine ⟨_, _, .lost sent (fun drained => objects (drained.swallowed handler given))
        (fun resp thrown => by cases thrown) (quiets quiet),
        ends fun bresp => Block.Runs.bind_throw (emits bresp),
        .leaky chunk ⟨sent, answered, wanted, opened.1, opened.2, handler, given, objects⟩
          (by rw [headed]; exact exchange.headedCalls_neat.leaves leaves)⟩
  · obtain ⟨text, made, named, quiet, neat, emits⟩ := exchange.readBody_unopened opened
    refine ⟨_, _, .lost sent (fun drained => opened ⟨drained.consumed, drained.streamed⟩) ?_ (quiets quiet),
      ends fun bresp => Block.Runs.bind_ret (emits bresp),
      .answered (by rw [headed]; exact exchange.headedCalls_neat.append neat) answered
        fun interrupted => opened ⟨interrupted.consumed, interrupted.streamed⟩⟩
    rintro resp ⟨⟩
    rfl

theorem unwanted_outcome (sent : exchange.Sent) (answered : exchange.script.get = some (.ok (.ok ())))
    (unwanted : ¬ exchange.Wanted) : ∃ exit made, exchange.Outcome exit made ∧ Emits exchange.block exit made ∧
      exchange.Settles made := by
  have settles : exchange.Settles exchange.headedCalls :=
    .answered exchange.headedCalls_neat answered fun interrupted => unwanted interrupted.wanted
  by_cases goesOn : ∀ handler, exchange.responseHandler = some handler → handler exchange.head = .returned true
  · have method : exchange.method = .head := by
      by_contra other
      exact unwanted ⟨other, goesOn⟩
    refine ⟨_, _, .stopped sent answered (.inl method), exchange.block_answered sent answered fun bresp =>
      (exchange.consult_goesOn goesOn).bind_silent ?_, settles⟩
    rw [if_pos method]
    exact Block.Runs.ret _
  · push Not at goesOn
    obtain ⟨handler, given, objects⟩ := goesOn
    cases said : handler exchange.head with
    | returned value =>
      obtain rfl : value = false := by
        cases value with
        | true => exact absurd said objects
        | false => rfl
      exact ⟨_, _, .stopped sent answered (.inr ⟨handler, given, said⟩), exchange.block_answered sent answered fun bresp =>
        Block.Runs.bind_ret (exchange.consult_stops handler given said), settles⟩
    | threw what =>
      have consulted := exchange.consult_throws handler what given said
      have quiet : Quiet (waiting ++ (exchange.headCalls ++ exchange.consultCalls)) :=
        waiting_quiet.append (exchange.headCalls_quiet.append exchange.consultCalls_quiet)
      have undrained : ¬ exchange.Drained := fun drained => unwanted drained.wanted
      by_cases error : 400 ≤ exchange.head.status
      · rw [if_pos error] at consulted
        refine ⟨_, _, .lost sent undrained ?_ quiet, exchange.block_answered sent answered fun bresp =>
          Block.Runs.bind_ret consulted, settles⟩
        rintro resp ⟨⟩
        rfl
      · rw [if_neg error] at consulted
        exact ⟨_, _, .lost sent undrained (fun resp thrown => by cases thrown) quiet,
          exchange.block_answered sent answered fun bresp => Block.Runs.bind_throw consulted, settles⟩

/-- Freeing `got` is right unless `get` answered none. -/
theorem got_settles (sent : exchange.Sent) (failed : exchange.script.get ≠ some (.ok (.ok ()))) :
    exchange.Settles (exchange.sentCalls ++ ([.subscribe] ++ ([.pollableBlock] ++ ([.futureGet exchange.script.get] ++
      gotFree exchange.script.get)))) := by
  have until_ : Neat (exchange.sentCalls ++ ([.subscribe] ++ [.pollableBlock])) :=
    exchange.sentCalls_neat.append (Neat.append (Neat.single rfl) (Neat.single rfl))
  have uninterrupted : ¬ exchange.Interrupted := fun interrupted => failed interrupted.answered
  have rejoin (made : List Call) : exchange.sentCalls ++ ([.subscribe] ++ ([.pollableBlock] ++ made)) =
      (exchange.sentCalls ++ ([.subscribe] ++ [.pollableBlock])) ++ made := by simp
  rw [rejoin]
  cases answer : exchange.script.get with
  | none =>
    refine .wild ⟨sent, answer⟩ ?_
    rw [heapActions_append, Heap.run_append, until_, Option.bind_some]
    rfl
  | some got =>
    have answered : ¬ exchange.Unanswered := fun unanswered => by
      rw [unanswered.2] at answer
      cases answer
    refine .neat answered uninterrupted (until_.append ?_)
    rcases got with outer | code | ok
    · exact Neat.append (Neat.single rfl) Neat.nil
    · rw [gotFree, errorCodeFree_eq]
      exact @Neat.freed (.futureGet (some (.ok (.error code)))) [] _ rfl Neat.nil
    · exact absurd answer failed

theorem sent_outcome (sent : exchange.Sent) : ∃ exit made, exchange.Outcome exit made ∧ Emits exchange.block exit made ∧
      exchange.Settles made := by
  by_cases answered : exchange.script.get = some (.ok (.ok ()))
  · by_cases wanted : exchange.Wanted
    · exact exchange.wanted_outcome sent answered wanted
    · exact exchange.unwanted_outcome sent answered wanted
  · have undrained : ¬ exchange.Drained := fun drained => answered drained.answered
    have quiet : Quiet ([.subscribe] ++ ([.pollableBlock] ++ ([.futureGet exchange.script.get] ++
        gotFree exchange.script.get))) :=
      Quiet.append ⟨rfl, rfl⟩ (Quiet.append ⟨rfl, rfl⟩ ((futureGet_quiet _).append (gotFree_quiet _)))
    refine ⟨.ret (fail exchange.db ("wasi:http request failed for '" ++ exchange.url ++ "'")), _,
      .lost sent undrained ?_ quiet, exchange.block_sent sent ?_, exchange.got_settles sent answered⟩
    · rintro resp ⟨⟩
      rfl
    · unfold respond
      refine emits_borrow fun bfut => (emits_host bfut _).bind (emits_declare ?_)
      refine Block.Runs.bind (emits_borrow fun bpoll => emits_host bpoll _) ((emits_host bfut _).bind ?_)
      split
      · rename_i ok
        exact absurd ok answered
      · exact (emits_perform _).bind_silent (Block.Runs.ret _)

/-- Every request ends in one of the ways above, with those calls. -/
theorem outcome_exists : ∃ exit made, exchange.Outcome exit made ∧ Emits exchange.block exit made ∧
      exchange.Settles made := by
  by_cases accepted : exchange.Accepted
  · cases handled : exchange.script.handle with
    | some sendErr =>
      have unsent : ¬ exchange.Sent := fun sent => by
        rw [sent.handled] at handled
        cases handled
      have neat : Neat ([.outgoingHandlerHandle (some sendErr)] ++ errorCodeFree sendErr) := by
        rw [errorCodeFree_eq]
        exact @Neat.freed (.outgoingHandlerHandle (some sendErr)) [] _ rfl Neat.nil
      refine ⟨_, _, .unsent accepted handled (quoted_ne "wasi:http outgoing-handler.handle failed for '" exchange.url),
        exchange.block_accepted accepted ?_, .unsent ((building_neat exchange.prepared_building).append neat) unsent⟩
      unfold dispatch
      rw [handled]
      exact emits_release fun consumed => (emits_host consumed _).bind
        ((emits_perform _).bind_silent (Block.Runs.ret _))
    | none =>
      by_cases uploaded : ∀ body, exchange.bodyData = some body → exchange.Uploaded body
      · exact exchange.sent_outcome ⟨accepted, handled, uploaded⟩
      · obtain ⟨text, made, named, cutOff, emits⟩ := exchange.upload_refused uploaded
        refine ⟨_, _, .cut accepted handled uploaded named cutOff, exchange.block_accepted accepted ?_,
          .unsent ((building_neat exchange.prepared_building).append (Neat.append (Neat.single rfl) cutOff.neat))
            fun sent => uploaded sent.uploaded⟩
        unfold dispatch
        rw [handled]
        exact emits_release fun consumed => (emits_host consumed _).bind
          (emits_declare (Block.Runs.bind_ret emits))
  · obtain ⟨text, made, named, building, emits⟩ := exchange.block_refused accepted
    exact ⟨_, _, .refused accepted named building, emits,
      .unsent (building_neat building) fun sent => accepted sent.accepted⟩

theorem outcome : exchange.Outcome exchange.exit exchange.calls := by
  obtain ⟨exit, made, outcome, emits, _⟩ := exchange.outcome_exists
  obtain ⟨left, called⟩ := emits {}
  have same : exchange.exit = exit := left
  have all : exchange.calls = made := called
  rwa [same, all]

theorem settles : exchange.Settles exchange.calls := by
  obtain ⟨_, made, _, emits, settles⟩ := exchange.outcome_exists
  have all : exchange.calls = made := (emits {}).2
  rwa [all]

end Exchange

end WasiWheels.Transport
