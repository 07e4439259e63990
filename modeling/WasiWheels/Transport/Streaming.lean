import WasiWheels.Transport.Lifetimes
import WasiWheels.Transport.Outcome
import WasiWheels.Transport.Receivers

/-! The request body on its way out: which chunks are written, and when the body is finished. -/

namespace WasiWheels.Transport

variable {H : Type}

/-- The upload refused at this call. -/
def Call.refuses : Call → Bool
  | .outgoingBodyWrite false | .blockingWriteAndFlush _ (some _) | .outgoingBodyFinish (some _) => true
  | _ => false

/-- The chunk a write call hands over. -/
def Call.chunk? : Call → Option Bytes
  | .blockingWriteAndFlush contents _ => some contents
  | _ => none

/-- The chunk of a write call that is taken. -/
def Call.taken? : Call → Option Bytes
  | .blockingWriteAndFlush contents none => some contents
  | _ => none

def Call.finishes : Call → Bool
  | .outgoingBodyFinish _ => true
  | _ => false

/-- The chunks a list of calls hands over, and those of them that are taken. -/
def handedOver (made : List Call) : List Bytes := made.filterMap Call.chunk?

def takenChunks (made : List Call) : List Bytes := made.filterMap Call.taken?

/-- The stream of the request body is opened. -/
def Opened (made : List Call) : Prop := .outgoingBodyWrite true ∈ made

/-- No write is refused. -/
def AllTaken (made : List Call) : Prop := ∀ chunk answer, .blockingWriteAndFlush chunk answer ∈ made → answer = none

/-- The body goes out in order, in chunks a stream takes, and is finished if all of it is out. -/
structure Chunked (body : Bytes) (made : List Call) : Prop where
  bounded : (handedOver made).length ≤ Exchange.writeCount body
  sized : ∀ chunk ∈ handedOver made, 0 < chunk.length ∧ chunk.length ≤ 4096
  inOrder : (takenChunks made).flatten <+: body
  atMostOnce : made.countP Call.finishes ≤ 1
  finished : 0 < made.countP Call.finishes ↔ Opened made ∧ AllTaken made
  whole : Opened made ∧ AllTaken made ↔ Opened made ∧ (takenChunks made).flatten = body

/-- A body sent so gets a stream once the request is dispatched, is finished only after that stream is
dropped, and a refusal is reported. -/
structure Streamed (body : Bytes) (exit : Exit (HTTPResponse H) String Unit) (trace : List Event) : Prop
    extends Chunked body (calls trace) where
  asked : .outgoingHandlerHandle none ∈ calls trace → ∃ opened, .outgoingBodyWrite opened ∈ calls trace
  dropped : ∀ before answer self after, trace = before ++ .call (.outgoingBodyFinish answer) self :: after →
    .drop .outStream ∈ before
  reported : ∀ call ∈ calls trace, call.refuses = true →
    ∃ resp, exit = .ret resp ∧ resp.success = false ∧ resp.requestError ≠ ""

section Upload

variable (db : DuckDB H) (script : HostScript) (url : String) (body : Bytes)

/-- The writes of the loop from offset `off`, up to the first refused one. -/
def chunkSends (off count : Nat) : List Call :=
  if off < body.length then
    let n := if 4096 < body.length - off then 4096 else body.length - off
    let chunk := (body.drop off).take n
    match script.blockingWriteAndFlush count with
    | some serr => [.blockingWriteAndFlush chunk (some serr)]
    | none => .blockingWriteAndFlush chunk none :: chunkSends (off + n) (count + 1)
  else []
termination_by body.length - off
decreasing_by split <;> omega

/-- The calls that send the body. -/
def bodySends : List Call :=
  if script.write then
    .outgoingBodyWrite true :: chunkSends script body 0 0 ++
      if (chunkSends script body 0 0).any Call.refuses then [] else [.outgoingBodyFinish script.finish]
  else [.outgoingBodyWrite false]

/-- A refusal ends the request with a message; without one control falls through. -/
def EndsBy (made : List Call) (exit : Exit (HTTPResponse H) String Unit) : Prop :=
  if made.any Call.refuses then ∃ text, text ≠ "" ∧ exit = .ret (fail db text) else exit = .fall ()

variable {db} in
theorem EndsBy.unrefused {made : List Call} (ends : EndsBy db made (.fall ())) : made.any Call.refuses = false := by
  by_contra refused
  rw [EndsBy, if_pos (Bool.eq_true_of_not_eq_false refused)] at ends
  obtain ⟨text, -, same⟩ := ends
  cases same

variable {db} in
theorem EndsBy.refused {made : List Call} {exit : Exit (HTTPResponse H) String Unit} (ends : EndsBy db made exit)
    (left : exit ≠ .fall ()) : made.any Call.refuses = true := by
  by_contra unrefused
  rw [EndsBy, if_neg unrefused] at ends
  exact left ends

variable {db} in
theorem EndsBy.message {made : List Call} {exit : Exit (HTTPResponse H) String Unit} (ends : EndsBy db made exit)
    (refused : made.any Call.refuses = true) : ∃ text, text ≠ "" ∧ exit = .ret (fail db text) := by
  rwa [EndsBy, if_pos refused] at ends

variable {db} in
theorem EndsBy.unthrown {made : List Call} {error : String} : ¬ EndsBy db made (.throw error) := by
  intro ends
  obtain ⟨text, -, same⟩ := ends.message (ends.refused (by simp))
  cases same

theorem writeEach_sending (sent : List Call) (off count : Nat) :
    Sending sent (writeEach db script url body .outStream off count) fun exit after =>
      after = sent ++ chunkSends script body off count ∧ EndsBy db (chunkSends script body off count) exit := by
  induction off, count using writeEach.induct body generalizing sent with
  | case1 off count more size ih =>
    rw [writeEach, chunkSends, if_pos more, if_pos more]
    dsimp only
    refine (host_sending rfl).falling ?_
    cases answer : script.blockingWriteAndFlush count with
    | some serr =>
      refine (describe_aside serr).falling (describe_emits serr) fun world sends => ⟨_, ⟨rfl, ?_⟩, sends⟩
      exact ⟨writeErrorText url serr, writeErrorText_ne url serr, rfl⟩
    | none =>
      refine (ih _).weaken (fun _ sends => sends) ?_
      rintro exit world ⟨after, ⟨rfl, ends⟩, sends⟩
      refine ⟨_, ⟨?_, ends⟩, sends⟩
      rw [List.append_assoc]
      rfl
  | case2 off count done =>
    rw [writeEach, chunkSends, if_neg done, if_neg done]
    exact fun world sends => ⟨sent, ⟨(List.append_nil sent).symm, rfl⟩, sends⟩

theorem upload_sending (sent : List Call) :
    Sending sent (upload db script url (some body)) fun exit after =>
      after = sent ++ bodySends script body ∧ EndsBy db (bodySends script body) exit := by
  unfold upload bodySends
  dsimp only
  have asked : Sending sent (borrow .outBody fun bob => ask bob .outgoingBodyWrite script.write : Cpp H Bool)
      fun exit after => exit = .fall script.write ∧ after = sent ++ [.outgoingBodyWrite script.write] := by
    refine Sending.borrow ((host_sending rfl).falling ?_)
    exact fun world sends => ⟨_, ⟨rfl, rfl⟩, sends⟩
  refine asked.falling ?_
  cases script.write with
  | false =>
    refine fun world sends => ⟨_, ⟨rfl, ?_⟩, sends⟩
    exact ⟨_, quoted_ne _ _, rfl⟩
  | true =>
    refine Sending.bind (Sending.declare rfl (Sending.borrow (writeEach_sending db script url body _ 0 0))) ?_ ?_ ?_
    · rintro ⟨⟩ after ⟨rfl, ends⟩
      have taken := ends.unrefused
      refine Sending.release ((host_sending rfl).falling ?_)
      rw [taken]
      cases script.finish with
      | none =>
        refine fun world sends => ⟨_, ⟨by simp [Call.uploads], ?_⟩, sends⟩
        rw [EndsBy, if_neg (by simp [Call.refuses, taken])]
        rfl
      | some finErr =>
        refine (errorCodeFree_aside finErr).falling (emits_perform _) fun world sends => ?_
        refine ⟨_, ⟨by simp [Call.uploads], ?_⟩, sends⟩
        rw [EndsBy, if_pos (by simp [Call.refuses])]
        exact ⟨_, quoted_ne _ _, rfl⟩
    · rintro result after ⟨rfl, ends⟩
      have refused := ends.refused (by simp)
      obtain ⟨text, named, same⟩ := ends.message refused
      rw [refused]
      refine ⟨by simp, ?_⟩
      rw [EndsBy, if_pos (by rw [if_pos rfl, List.any_append, List.any_cons, refused]; rfl)]
      cases same
      exact ⟨text, named, rfl⟩
    · rintro error after ⟨rfl, ends⟩
      exact absurd ends EndsBy.unthrown

theorem chunkSends_length (off count : Nat) :
    (handedOver (chunkSends script body off count)).length ≤ writesLeft body off := by
  induction off, count using writeEach.induct body with
  | case1 off count more size ih =>
    rw [chunkSends, if_pos more]
    dsimp only
    cases script.blockingWriteAndFlush count with
    | some serr =>
      change 1 ≤ _
      unfold writesLeft
      omega
    | none =>
      have fewer : writesLeft body (off + size) + 1 ≤ writesLeft body off := by
        unfold writesLeft
        dsimp only [size]
        split <;> omega
      exact (Nat.succ_le_succ ih).trans fewer
  | case2 off count done =>
    rw [chunkSends, if_neg done]
    exact Nat.zero_le _

theorem chunkSends_sized (off count : Nat) :
    ∀ chunk ∈ handedOver (chunkSends script body off count), 0 < chunk.length ∧ chunk.length ≤ 4096 := by
  induction off, count using writeEach.induct body with
  | case1 off count more size ih =>
    have sized : 0 < ((body.drop off).take size).length ∧ ((body.drop off).take size).length ≤ 4096 := by
      rw [List.length_take, List.length_drop]
      dsimp only [size]
      split <;> omega
    rw [chunkSends, if_pos more]
    dsimp only
    cases script.blockingWriteAndFlush count with
    | some serr =>
      intro chunk member
      rw [List.mem_singleton.mp member]
      exact sized
    | none =>
      intro chunk member
      rcases List.mem_cons.mp member with rfl | later
      · exact sized
      · exact ih chunk later
  | case2 off count done =>
    rw [chunkSends, if_neg done]
    exact fun chunk member => absurd member List.not_mem_nil

/-- The chunks taken begin what is left of the body, and are all of it unless one is refused. -/
theorem chunkSends_taken (off count : Nat) :
    ∃ rest, body.drop off = (takenChunks (chunkSends script body off count)).flatten ++ rest ∧
      (rest = [] ↔ (chunkSends script body off count).any Call.refuses = false) := by
  induction off, count using writeEach.induct body with
  | case1 off count more size ih =>
    rw [chunkSends, if_pos more]
    dsimp only
    cases script.blockingWriteAndFlush count with
    | some serr =>
      refine ⟨body.drop off, rfl, iff_of_false (fun empty => ?_) (by simp [Call.refuses])⟩
      have short := List.drop_eq_nil_iff.mp empty
      omega
    | none =>
      obtain ⟨rest, same, all⟩ := ih
      refine ⟨rest, ?_, by rw [all]; rfl⟩
      have split : body.drop off = (body.drop off).take size ++ body.drop (off + size) := by
        rw [← List.drop_drop, List.take_append_drop]
      refine split.trans ?_
      rw [same, ← List.append_assoc]
      rfl
  | case2 off count done =>
    rw [chunkSends, if_neg done]
    exact ⟨[], List.drop_eq_nil_of_le (Nat.le_of_not_lt done), iff_of_true rfl rfl⟩

theorem chunkSends_finishes (off count : Nat) : (chunkSends script body off count).countP Call.finishes = 0 := by
  induction off, count using writeEach.induct body with
  | case1 off count more size ih =>
    rw [chunkSends, if_pos more]
    dsimp only
    cases script.blockingWriteAndFlush count with
    | some serr => rfl
    | none => exact ih
  | case2 off count done =>
    rw [chunkSends, if_neg done]
    rfl

theorem chunkSends_allTaken (off count : Nat) : AllTaken (chunkSends script body off count) ↔
    (chunkSends script body off count).any Call.refuses = false := by
  induction off, count using writeEach.induct body with
  | case1 off count more size ih =>
    rw [chunkSends, if_pos more]
    dsimp only
    cases script.blockingWriteAndFlush count with
    | some serr =>
      refine iff_of_false (fun all => ?_) (by simp [Call.refuses])
      cases all _ _ (List.mem_singleton_self _)
    | none =>
      rw [List.any_cons]
      refine Iff.trans ⟨fun all chunk answer member => all chunk answer (List.mem_cons_of_mem _ member), ?_⟩ ih
      intro all chunk answer member
      rcases List.mem_cons.mp member with same | later
      · cases same
        rfl
      · exact all chunk answer later
  | case2 off count done =>
    rw [chunkSends, if_neg done]
    exact iff_of_true (fun chunk answer member => absurd member List.not_mem_nil) rfl

theorem nil_chunked : Chunked body [] where
  bounded := Nat.zero_le _
  sized _ member := absurd member List.not_mem_nil
  inOrder := List.nil_prefix
  atMostOnce := Nat.zero_le _
  finished := iff_of_false (Nat.lt_irrefl 0) fun both => absurd both.1 List.not_mem_nil
  whole := iff_of_false (fun both => absurd both.1 List.not_mem_nil) fun both => absurd both.1 List.not_mem_nil

theorem unopened_chunked : Chunked body [.outgoingBodyWrite false] where
  bounded := Nat.zero_le _
  sized _ member := absurd member List.not_mem_nil
  inOrder := List.nil_prefix
  atMostOnce := Nat.zero_le _
  finished := iff_of_false (Nat.lt_irrefl 0) fun both => by simp [Opened] at both
  whole := iff_of_false (fun both => by simp [Opened] at both) fun both => by simp [Opened] at both

theorem bodySends_chunked : Chunked body (bodySends script body) := by
  unfold bodySends
  cases script.write with
  | false => exact unopened_chunked body
  | true =>
    rw [if_pos rfl]
    have bounded := chunkSends_length script body 0 0
    have sized := chunkSends_sized script body 0 0
    obtain ⟨rest, begins, all⟩ := chunkSends_taken script body 0 0
    have unfinished := chunkSends_finishes script body 0 0
    have untouched := chunkSends_allTaken script body 0 0
    generalize chunkSends script body 0 0 = sends at *
    generalize tailed : (if sends.any Call.refuses then [] else [Call.outgoingBodyFinish script.finish]) = tail
    have bare : tail.filterMap Call.chunk? = [] ∧ tail.filterMap Call.taken? = [] := by
      rw [← tailed]
      split <;> exact ⟨rfl, rfl⟩
    have handed : handedOver (.outgoingBodyWrite true :: sends ++ tail) = handedOver sends := by
      rw [handedOver, List.filterMap_append, bare.1, List.append_nil]
      rfl
    have taken : takenChunks (.outgoingBodyWrite true :: sends ++ tail) = takenChunks sends := by
      rw [takenChunks, List.filterMap_append, bare.2, List.append_nil]
      rfl
    have opened : Opened (.outgoingBodyWrite true :: sends ++ tail) :=
      List.mem_append_left tail (List.mem_cons_self ..)
    have allTaken : AllTaken (.outgoingBodyWrite true :: sends ++ tail) ↔ sends.any Call.refuses = false := by
      refine Iff.trans ⟨fun all chunk answer member => all chunk answer ?_, fun all chunk answer member => ?_⟩ untouched
      · exact List.mem_append_left tail (List.mem_cons_of_mem _ member)
      · rcases List.mem_append.mp member with before | last
        · rcases List.mem_cons.mp before with same | inside
          · cases same
          · exact all chunk answer inside
        · have handed : chunk ∈ tail.filterMap Call.chunk? := List.mem_filterMap.mpr ⟨_, last, rfl⟩
          rw [bare.1] at handed
          cases handed
    have finishes : (Call.outgoingBodyWrite true :: sends ++ tail).countP Call.finishes =
        if sends.any Call.refuses then 0 else 1 := by
      rw [List.countP_append, List.countP_cons_of_neg Bool.false_ne_true, unfinished, ← tailed]
      cases sends.any Call.refuses with
      | true => rfl
      | false => rfl
    refine ⟨?_, ?_, ?_, ?_, ?_, ?_⟩
    · rwa [handed]
    · rwa [handed]
    · rw [taken]
      exact ⟨rest, begins.symm⟩
    · rw [finishes]
      split <;> omega
    · rw [finishes, allTaken]
      cases sends.any Call.refuses with
      | true => exact iff_of_false (Nat.lt_irrefl 0) fun both => Bool.false_ne_true both.2.symm
      | false => exact iff_of_true Nat.one_pos ⟨opened, rfl⟩
    · rw [taken, allTaken, ← all]
      refine and_congr_right fun _ => ?_
      rw [List.drop_zero] at begins
      constructor
      · rintro rfl
        simpa using begins.symm
      · intro same
        simpa [same] using begins

/-- The body is left alone, or it is sent and a refusal ends the request. -/
def MaySend (exit : Exit (HTTPResponse H) String Unit) (made : List Call) : Prop :=
  made = [] ∨ made = bodySends script body ∧
    (made.any Call.refuses = true → ∃ text, text ≠ "" ∧ exit = .ret (fail db text))

variable (method : Method) (contentHandler : Option ContentHandler) (responseHandler : Option (ResponseHandler H))

theorem dispatch_sending :
    Sending [] (dispatch db script url method (some body) contentHandler responseHandler) (MaySend db script body) := by
  unfold dispatch
  refine Sending.release ((host_sending rfl).falling ?_)
  cases script.handle with
  | some sendErr =>
    exact (errorCodeFree_aside sendErr).andThen (fun _ => .inl rfl) fun _ world sends => ⟨_, .inl rfl, sends⟩
  | none =>
    refine Sending.declare rfl ((upload_sending db script url body _).bind ?_ ?_ ?_)
    · rintro ⟨⟩ after ⟨rfl, ends⟩
      refine (respond_aside db script url method contentHandler responseHandler _).weaken (fun _ sends => sends) ?_
      rintro exit world ⟨after, rfl, sends⟩
      refine ⟨_, .inr ⟨rfl, fun refused => ?_⟩, sends⟩
      have unrefused : (bodySends script body).any Call.refuses = false := ends.unrefused
      exact absurd (unrefused.symm.trans refused) Bool.false_ne_true
    · rintro result after ⟨rfl, ends⟩
      refine .inr ⟨rfl, fun refused => ?_⟩
      obtain ⟨text, named, same⟩ := ends.message refused
      cases same
      exact ⟨text, named, rfl⟩
    · rintro error after ⟨rfl, ends⟩
      exact absurd ends EndsBy.unthrown

theorem request_sending (bearerToken : String) (headers : H) :
    Sending [] (request db bearerToken script url method headers (some body) contentHandler responseHandler)
      (MaySend db script body) := by
  have alone (exit : Exit (HTTPResponse H) String Unit) : MaySend db script body exit [] := .inl rfl
  refine (perform_aside (by simp [Call.receiver, Call.uploads])).andThen alone fun _ => Sending.declare rfl ?_
  refine (Aside.borrow (appendHeaders_aside db bearerToken script headers)).andThen alone fun headerError => ?_
  split
  · exact fun world sends => ⟨_, alone _, sends⟩
  · refine Sending.release ((host_aside rfl rfl).andThen alone fun _ => Sending.declare rfl (Sending.borrow ?_))
    refine (setTarget_aside script method (parseUrl url)).andThen alone fun accepted => ?_
    split
    · refine Sending.declare rfl ((takeBody_aside db script url (some body)).andThen alone fun _ => ?_)
      exact dispatch_sending db script url body method contentHandler responseHandler
    · exact fun world sends => ⟨_, alone _, sends⟩

end Upload

theorem filterMap_sends {β : Type} {pick : Call → Option β} (only : ∀ call, call.uploads = false → pick call = none)
    (made : List Call) : (made.filter Call.uploads).filterMap pick = made.filterMap pick := by
  rw [List.filterMap_filter]
  refine congrArg (List.filterMap · made) (funext fun call => ?_)
  split
  · rfl
  · rename_i aside
    exact (only call (Bool.eq_false_of_not_eq_true aside)).symm

theorem mem_sends {call : Call} {made : List Call} (sends : call.uploads = true) :
    call ∈ made.filter Call.uploads ↔ call ∈ made := by
  rw [List.mem_filter]
  exact and_iff_left sends

/-- Only the calls that send the body tell how it is sent. -/
theorem Chunked.of_sends {body : Bytes} {made : List Call} (chunked : Chunked body (made.filter Call.uploads)) :
    Chunked body made := by
  have handed : handedOver (made.filter Call.uploads) = handedOver made := filterMap_sends (fun call aside => by
    cases call <;> first | rfl | cases aside) made
  have taken : takenChunks (made.filter Call.uploads) = takenChunks made := filterMap_sends (fun call aside => by
    cases call <;> first | rfl | cases aside) made
  have finishes : (made.filter Call.uploads).countP Call.finishes = made.countP Call.finishes := by
    rw [List.countP_filter]
    refine List.countP_congr fun call _ => ?_
    cases call <;> simp [Call.finishes, Call.uploads]
  have opened : Opened (made.filter Call.uploads) ↔ Opened made := mem_sends rfl
  have allTaken : AllTaken (made.filter Call.uploads) ↔ AllTaken made :=
    forall₂_congr fun chunk answer => imp_congr_left (mem_sends rfl)
  obtain ⟨bounded, sized, inOrder, atMostOnce, finished, whole⟩ := chunked
  rw [handed] at bounded sized
  rw [taken] at inOrder
  rw [finishes] at atMostOnce
  rw [finishes, opened, allTaken] at finished
  rw [opened, allTaken, taken] at whole
  exact ⟨bounded, sized, inOrder, atMostOnce, finished, whole⟩

theorem finish_after_open {script : HostScript} {body : Bytes} {answer : Option ErrorCode} {before after : List Call}
    (sent : before ++ .outgoingBodyFinish answer :: after = bodySends script body) : .outgoingBodyWrite true ∈ before := by
  unfold bodySends at sent
  split at sent
  · cases before with
    | nil => cases sent
    | cons first rest =>
      obtain rfl := (List.cons.inj sent).1
      exact List.mem_cons_self ..
  · cases before with
    | nil => cases sent
    | cons first rest => exact absurd (List.cons.inj sent).2 (by simp)

namespace Exchange

variable (exchange : Exchange H)

/-- The body is finished on its own handle, so its stream has been given back by then. -/
theorem finish_after_drop {body : Bytes} (lawful : Lawful exchange.trace)
    (directed : ∀ event ∈ exchange.trace, event.Directed)
    (sent : exchange.calls.filter Call.uploads = bodySends exchange.script body)
    (before : List Event) (answer : Option ErrorCode) (self : Option Handle) (after : List Event)
    (same : exchange.trace = before ++ .call (.outgoingBodyFinish answer) self :: after) :
    .drop .outStream ∈ before := by
  have onBody : self = some .outBody := by
    refine directed (.call (.outgoingBodyFinish answer) self) ?_
    rw [same]
    exact List.mem_append_right before (List.mem_cons_self ..)
  subst onBody
  have acts : handleActions exchange.trace = handleActions before ++ .release .outBody :: handleActions after := by
    rw [same]
    simp [handleActions, Event.actions, Call.consumes, Call.produces]
  have opened : .outgoingBodyWrite true ∈ WasiWheels.Transport.calls before := by
    have made : exchange.calls = WasiWheels.Transport.calls before ++
        .outgoingBodyFinish answer :: WasiWheels.Transport.calls after := by
      rw [Exchange.calls, same, calls_append]
      rfl
    rw [made, List.filter_append, List.filter_cons_of_pos rfl] at sent
    exact (mem_sends rfl).mp (finish_after_open sent)
  have acquired : .acquire .outStream ∈ handleActions before := (acquire_mem_iff _ _).mpr ⟨_, opened, rfl⟩
  have released : .release .outStream ∈ handleActions before := by
    rw [← List.count_pos_iff, lawful.children _ _ .outBody .outStream acts rfl]
    exact List.count_pos_iff.mpr acquired
  obtain ⟨event, member, frees⟩ := List.mem_flatMap.mp released
  cases event with
  | drop handle =>
    cases List.mem_singleton.mp frees
    exact member
  | dAssert holds => cases frees
  | call made self =>
    have receives : self = made.receiver := by
      refine directed (.call made self) ?_
      rw [same]
      exact List.mem_append_left _ member
    subst receives
    cases made <;> simp [Event.actions, Call.receiver, Call.consumes] at frees

theorem uploads_eq {body : Bytes} (given : exchange.bodyData = some body) :
    exchange.uploads = [.outgoingBodyWrite true] ++ (writes body 0 ++ [.outgoingBodyFinish none]) := by
  rw [uploads, given]

/-- A request that is sent has its upload among its calls. -/
theorem uploads_made (sent : exchange.Sent) : exchange.uploads ⊆ exchange.calls := by
  have outcome := exchange.outcome
  generalize exchange.exit = exit at outcome
  generalize exchange.calls = made at outcome ⊢
  have first : exchange.uploads ⊆ exchange.sentCalls := fun call member =>
    List.mem_append_right _ (List.mem_append_right _ member)
  cases outcome with
  | refused refusal => exact absurd sent.accepted refusal
  | unsent accepted answer =>
    rw [sent.handled] at answer
    cases answer
  | cut accepted handled refusal => exact absurd sent.uploaded refusal
  | lost => exact fun call member => List.mem_append_left _ (first member)
  | stopped => exact fun call member => List.mem_append_left _ (first member)
  | drained => exact fun call member => List.mem_append_left _ (List.mem_append_left _ (first member))

/-- Once the request is dispatched, the stream of its body is asked for. -/
theorem opens {body : Bytes} (given : exchange.bodyData = some body) (dispatched : .outgoingHandlerHandle none ∈ exchange.calls) :
    ∃ opened, .outgoingBodyWrite opened ∈ exchange.calls := by
  have made := exchange.uploads_made
  have outcome := exchange.outcome
  generalize exchange.exit = exit at outcome
  generalize exchange.calls = calls at outcome dispatched made ⊢
  have whole : exchange.Sent → ∃ opened, .outgoingBodyWrite opened ∈ calls := fun sent =>
    ⟨true, made sent (by rw [exchange.uploads_eq given]; exact List.mem_cons_self)⟩
  cases outcome with
  | refused refusal named building => cases List.all_eq_true.mp building _ dispatched
  | @unsent text sendErr =>
    rcases List.mem_append.mp dispatched with early | late
    · cases List.all_eq_true.mp exchange.prepared_building _ early
    · rcases List.mem_cons.mp late with same | freed
      · cases same
      · cases List.all_eq_true.mp (errorCodeFree_quiet sendErr).1 _ freed
  | cut accepted handled refusal named cutOff =>
    obtain ⟨opened, asked⟩ := cutOff.asked
    exact ⟨opened, List.mem_append_right _ (List.mem_cons_of_mem _ asked)⟩
  | lost sent => exact whole sent
  | stopped sent => exact whole sent
  | drained drained => exact whole ⟨drained.accepted, drained.handled, drained.uploaded⟩

theorem streamed {body : Bytes} (given : exchange.bodyData = some body) : Streamed body exchange.exit exchange.trace := by
  have sending : Sending [] exchange.block (MaySend exchange.db exchange.script body) := by
    unfold block
    rw [given]
    exact request_sending exchange.db exchange.script exchange.url body exchange.method exchange.contentHandler
      exchange.responseHandler exchange.bearerToken exchange.headers
  obtain ⟨made, may, sends⟩ := sending {} Sends.initial
  have sent : exchange.calls.filter Call.uploads = made := sends.sent
  have chunked : Chunked body made := by
    rcases may with rfl | ⟨rfl, -⟩
    · exact nil_chunked body
    · exact bodySends_chunked exchange.script body
  refine { toChunked := Chunked.of_sends (sent ▸ chunked), asked := exchange.opens given, dropped := ?_, reported := ?_ }
  · rcases may with rfl | ⟨rfl, -⟩
    · intro before answer self after same
      have finished : .outgoingBodyFinish answer ∈ exchange.calls.filter Call.uploads := by
        rw [mem_sends rfl, Exchange.calls, same, calls_append]
        exact List.mem_append_right _ (List.mem_cons_self ..)
      rw [sent] at finished
      cases finished
    · exact exchange.finish_after_drop exchange.never_traps sends.directed sent
  · intro call member refused
    have sending : call.uploads = true := by
      cases call <;> first | rfl | cases refused
    have inside : call ∈ made := sent ▸ (mem_sends sending).mpr member
    rcases may with rfl | ⟨rfl, ends⟩
    · cases inside
    · obtain ⟨text, named, same⟩ := ends (List.any_eq_true.mpr ⟨call, inside, refused⟩)
      exact ⟨fail exchange.db text, same, rfl, named⟩

/-- However the writes are answered, the body is sent in order and finished only if whole; a host that
takes everything is sent all of it. -/
theorem streams (body : Bytes) (given : exchange.bodyData = some body) :
    Streamed body exchange.exit exchange.trace ∧
      (exchange.Accepted → exchange.script.handle = none → exchange.Uploaded body →
        (takenChunks exchange.calls).flatten = body ∧ exchange.calls.countP Call.finishes = 1) := by
  have streamed := exchange.streamed given
  refine ⟨streamed, fun accepted handled uploaded => ?_⟩
  have sent : exchange.Sent := ⟨accepted, handled, fun other same => Option.some.inj (given.symm.trans same) ▸ uploaded⟩
  have finished : .outgoingBodyFinish none ∈ exchange.calls := exchange.uploads_made sent (by
    rw [exchange.uploads_eq given]
    exact List.mem_append_right _ (List.mem_append_right _ List.mem_cons_self))
  have positive : 0 < exchange.calls.countP Call.finishes := List.countP_pos_iff.mpr ⟨_, finished, rfl⟩
  have once : exchange.calls.countP Call.finishes ≤ 1 := streamed.atMostOnce
  exact ⟨(streamed.whole.mp (streamed.finished.mp positive)).2, by omega⟩

/-- A PUT of 5000 bytes whose second write is refused. -/
def truncated : Exchange (List (String × String)) where
  db := DuckDB.association
  bearerToken := ""
  script := { HostScript.willing with blockingWriteAndFlush := fun count => if count = 1 then some .closed else none }
  url := "https://example.org/data"
  method := .put
  headers := []
  bodyData := some (List.replicate 5000 7)
  contentHandler := none
  responseHandler := none

/-- The same PUT to a host that takes everything. -/
def whole : Exchange (List (String × String)) := { truncated with script := HostScript.willing }

theorem truncated_streams : Streamed (List.replicate 5000 7) truncated.exit truncated.trace ∧
    (takenChunks whole.calls).flatten = List.replicate 5000 7 ∧ whole.calls.countP Call.finishes = 1 := by
  have sends := (whole.streams (List.replicate 5000 7) rfl).2
  exact ⟨(truncated.streams (List.replicate 5000 7) rfl).1,
    sends ⟨fun _ _ => rfl, rfl, rfl, rfl, rfl, fun _ => rfl⟩ rfl ⟨rfl, fun _ _ => rfl, rfl⟩⟩

end Exchange

end WasiWheels.Transport
