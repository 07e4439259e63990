import WasiWheels.Transport.Buffers

/-! The handle each host call is made on, and the stages of a request that leave the
sending of its body alone. -/

namespace WasiWheels.Transport

variable {H α β : Type}

/-- The resource whose function a call is; constructors, callbacks and frees have none. -/
def Call.receiver : Call → Option Handle
  | .fieldsAppend .. | .constructorOutgoingRequest => some .fields
  | .setMethod .. | .setScheme .. | .setAuthority .. | .setPathWithQuery .. => some .request
  | .outgoingRequestBody _ | .outgoingHandlerHandle _ => some .request
  | .outgoingBodyWrite _ | .outgoingBodyFinish _ => some .outBody
  | .blockingWriteAndFlush .. => some .outStream
  | .subscribe | .futureGet _ => some .future
  | .pollableBlock => some .pollable
  | .responseStatus _ | .responseHeaders | .responseConsume _ => some .incoming
  | .fieldsEntries _ => some .rh
  | .bodyStream _ => some .body
  | .blockingRead .. => some .stream
  | .errorToDebugString _ => some .error
  | .constructorFields | .headersInsert .. | .responseHandler _ | .contentHandler .. | .free _ | .freeUnfilled => none

/-- Calls that send the request body. -/
def Call.uploads : Call → Bool
  | .outgoingBodyWrite _ | .blockingWriteAndFlush .. | .outgoingBodyFinish _ => true
  | _ => false

def Event.Directed : Event → Prop
  | .call made self => self = made.receiver
  | _ => True

/-- Every call so far was made on its receiver, and those that sent the body are `sent`. -/
structure Sends (sent : List Call) (world : World) : Prop where
  named : ∀ name, (world.owners name).handle = name
  directed : ∀ event ∈ world.trace, event.Directed
  sent : (calls world.trace).filter Call.uploads = sent

theorem Sends.initial : Sends [] {} where
  named _ := rfl
  directed _ member := absurd member List.not_mem_nil
  sent := rfl

section Steps

variable {sent : List Call} {world : World}

theorem Sends.record (sends : Sends sent world) {event : Event} (directed : event.Directed) :
    Sends (sent ++ (calls [event]).filter Call.uploads) (world.record event) where
  named := sends.named
  directed other member := by
    rcases List.mem_append.mp member with old | new
    · exact sends.directed other old
    · rw [List.mem_singleton.mp new]
      exact directed
  sent := by
    change (calls (world.trace ++ [event])).filter Call.uploads = _
    rw [calls_append, List.filter_append, sends.sent]

theorem Sends.recordSilent (sends : Sends sent world) {event : Event} (silent : event.call? = none) :
    Sends sent (world.record event) := by
  have directed : event.Directed := by
    cases event with
    | call made self => cases silent
    | drop handle => exact trivial
    | dAssert holds => exact trivial
  have recorded := sends.record directed
  rwa [calls, List.filterMap_cons_none silent, List.filterMap_nil, List.filter_nil, List.append_nil] at recorded

theorem Sends.setOwner (sends : Sends sent world) {name : Handle} {owner : OwnHandle} (same : owner.handle = name) :
    Sends sent (world.setOwner name owner) where
  named other := by
    unfold World.setOwner
    dsimp only
    split
    · rename_i equal
      rw [same, equal]
    · exact sends.named other
  directed := sends.directed
  sent := sends.sent

theorem Sends.reset (sends : Sends sent world) (name : Handle) : Sends sent (world.reset name) := by
  unfold World.reset
  dsimp only
  split
  · have asserted : Sends sent (world.record (.dAssert ((world.owners name).outstandingBorrows == 0))) :=
      sends.recordSilent rfl
    have dropped := asserted.recordSilent (show (Event.drop (world.owners name).handle).call? = none from rfl)
    exact dropped.setOwner (sends.named name)
  · exact sends

theorem Sends.make (sends : Sends sent world) {made : List Call}
    (aside : ∀ call ∈ made, call.receiver = none ∧ call.uploads = false) : Sends sent (world.make made) where
  named := sends.named
  directed event member := by
    rcases List.mem_append.mp member with old | new
    · exact sends.directed event old
    · obtain ⟨call, inside, rfl⟩ := List.mem_map.mp new
      exact (aside call inside).1.symm
  sent := by
    have nothing : made.filter Call.uploads = [] :=
      List.filter_eq_nil_iff.mpr fun call member => by simp [aside call member]
    change (calls (world.trace ++ made.map (.call · none))).filter Call.uploads = _
    rw [calls_append, calls_made, List.filter_append, sends.sent, nothing, List.append_nil]

end Steps

/-- The way out and the calls that sent the body by then are related by `may`. -/
def Sending (sent : List Call) (block : Cpp H α) (may : Exit (HTTPResponse H) String α → List Call → Prop) : Prop :=
  Block.Spec (Sends sent) block fun exit world => ∃ after, may exit after ∧ Sends after world

/-- However the block ends, it sends nothing of the body. -/
def Aside (block : Cpp H α) : Prop := ∀ sent, Sending sent block fun _ after => after = sent

section Rules

variable {sent : List Call}

theorem Sending.bind {block : Cpp H α} {next : α → Cpp H β} {may : Exit (HTTPResponse H) String α → List Call → Prop}
    {may' : Exit (HTTPResponse H) String β → List Call → Prop} (first : Sending sent block may)
    (rest : ∀ value after, may (.fall value) after → Sending after (next value) may')
    (returned : ∀ result after, may (.ret result) after → may' (.ret result) after)
    (thrown : ∀ error after, may (.throw error) after → may' (.throw error) after) :
    Sending sent (block >>= next) may' := by
  refine Block.Spec.bind first ?_ ?_ ?_
  · rintro value world ⟨after, allowed, sends⟩
    exact rest value after allowed world sends
  · rintro result world ⟨after, allowed, sends⟩
    exact ⟨after, returned result after allowed, sends⟩
  · rintro error world ⟨after, allowed, sends⟩
    exact ⟨after, thrown error after allowed, sends⟩

theorem Sending.declare {name : Handle} {owner : OwnHandle} {body : Cpp H α}
    {may : Exit (HTTPResponse H) String α → List Call → Prop} (same : owner.handle = name)
    (inner : Sending sent body may) : Sending sent (declare name owner body) may := by
  refine Block.Spec.scope (Sends sent) (fun world sends => sends.setOwner same) ?_
  refine inner.weaken (fun _ sends => sends) ?_
  rintro exit world ⟨after, allowed, sends⟩
  exact ⟨after, allowed, sends.reset name⟩

theorem Sending.borrow {name : Handle} {body : Handle → Cpp H α}
    {may : Exit (HTTPResponse H) String α → List Call → Prop} (inner : Sending sent (body name) may) :
    Sending sent (borrow name body) may := by
  refine Block.Spec.read fun handle world => ?_
  rintro ⟨sends, held⟩
  obtain rfl : name = handle := (sends.named name).symm.trans held
  have inside : Sending sent (Block.scope (World.acquireBorrow name) (World.releaseBorrow name) (body name)) may := by
    refine Block.Spec.scope (Sends sent) (fun world sends => sends.setOwner (sends.named name)) ?_
    refine inner.weaken (fun _ sends => sends) ?_
    rintro exit left ⟨after, allowed, sends⟩
    exact ⟨after, allowed, sends.setOwner (sends.named name)⟩
  exact inside world sends

theorem Sending.release {name : Handle} {next : Handle → Cpp H β}
    {may : Exit (HTTPResponse H) String β → List Call → Prop} (rest : Sending sent (next name) may) :
    Sending sent (release name >>= next) may := by
  intro world sends
  have released : Sends sent (world.markReleased name) := sends.setOwner (sends.named name)
  have same : next name = next (world.owners name).handle := by rw [sends.named name]
  have reached := rest _ released
  rw [same] at reached
  exact reached

/-- A block that always falls through hands on what it sent. -/
theorem Sending.falling {block : Cpp H α} {value : α} {after : List Call} {next : α → Cpp H β}
    {may : Exit (HTTPResponse H) String β → List Call → Prop}
    (first : Sending sent block fun exit made => exit = .fall value ∧ made = after)
    (rest : Sending after (next value) may) : Sending sent (block >>= next) may := by
  refine first.bind ?_ (fun _ _ fell => by cases fell.1) (fun _ _ fell => by cases fell.1)
  rintro reached made ⟨same, rfl⟩
  cases same
  exact rest

theorem host_sending {self : Handle} {made : Call} (receives : made.receiver = some self) :
    Sending sent (host self made : Cpp H Unit) fun exit after =>
      exit = .fall () ∧ after = sent ++ [made].filter Call.uploads :=
  fun _ sends => ⟨_, ⟨rfl, rfl⟩, sends.record (show Event.Directed (.call made (some self)) from receives.symm)⟩

theorem Aside.pure (value : α) : Aside (Pure.pure value : Cpp H α) := fun sent _ sends => ⟨sent, rfl, sends⟩

theorem Aside.ret (result : HTTPResponse H) : Aside (Block.ret result : Cpp H α) := fun sent _ sends => ⟨sent, rfl, sends⟩

theorem Aside.throw (error : String) : Aside (Block.throw error : Cpp H α) := fun sent _ sends => ⟨sent, rfl, sends⟩

theorem Aside.bind {block : Cpp H α} {next : α → Cpp H β} (first : Aside block) (rest : ∀ value, Aside (next value)) :
    Aside (block >>= next) := by
  intro sent
  refine (first sent).bind ?_ (fun _ _ same => same) (fun _ _ same => same)
  rintro value after rfl
  exact rest value after

/-- What is sent is decided by what follows an aside. -/
theorem Aside.andThen {block : Cpp H α} {next : α → Cpp H β} {may : Exit (HTTPResponse H) String β → List Call → Prop}
    (first : Aside block) (left : ∀ exit, may exit sent) (rest : ∀ value, Sending sent (next value) may) :
    Sending sent (block >>= next) may := by
  refine (first sent).bind ?_ ?_ ?_
  · rintro value after rfl
    exact rest value
  · rintro result after rfl
    exact left _
  · rintro error after rfl
    exact left _

/-- An aside that always falls through. -/
theorem Aside.falling {block : Cpp H α} {value : α} {made : List Call} {next : α → Cpp H β}
    {may : Exit (HTTPResponse H) String β → List Call → Prop} (first : Aside block)
    (falls : Emits block (.fall value) made) (rest : Sending sent (next value) may) :
    Sending sent (block >>= next) may := by
  have fallen : Sending sent block fun exit after => exit = .fall value ∧ after = sent := by
    intro world sends
    obtain ⟨after, same, left⟩ := first sent world sends
    exact ⟨after, ⟨(falls world).1, same⟩, left⟩
  exact fallen.falling rest

theorem Aside.declare {name : Handle} {owner : OwnHandle} {body : Cpp H α} (same : owner.handle = name)
    (inner : Aside body) : Aside (declare name owner body) := fun sent => (inner sent).declare same

theorem Aside.borrow {name : Handle} {body : Handle → Cpp H α} (inner : Aside (body name)) : Aside (borrow name body) :=
  fun sent => (inner sent).borrow

theorem Aside.tryCatch {body : Cpp H α} {handler : String → Cpp H α} (first : Aside body)
    (handled : ∀ error, Aside (handler error)) : Aside (Block.tryCatch body handler) := by
  intro sent
  refine Block.Spec.tryCatch (first sent) ?_ (fun _ _ left => left) (fun _ _ left => left)
  rintro error world ⟨after, rfl, sends⟩
  exact handled error after world sends

theorem host_aside {self : Handle} {made : Call} (receives : made.receiver = some self) (aside : made.uploads = false) :
    Aside (host self made : Cpp H Unit) := by
  intro sent world sends
  obtain ⟨after, ⟨-, rfl⟩, left⟩ := host_sending (H := H) receives world sends
  exact ⟨_, by simp [aside], left⟩

theorem perform_aside {made : List Call} (aside : ∀ call ∈ made, call.receiver = none ∧ call.uploads = false) :
    Aside (perform made : Cpp H Unit) := fun sent _ sends => ⟨sent, rfl, sends.make aside⟩

theorem ask_aside {self : Handle} {made : Bool → Call} {answer : Bool} (receives : (made answer).receiver = some self)
    (aside : (made answer).uploads = false) : Aside (ask self made answer : Cpp H Bool) :=
  (host_aside receives aside).bind fun _ => Aside.pure answer

theorem moveAssign_aside (name : Handle) : Aside (Block.modify (World.moveAssign name (.owning name)) : Cpp H Unit) := by
  intro sent world sends
  have asserted : Sends sent (world.record (.dAssert true)) := sends.recordSilent rfl
  exact ⟨sent, rfl, (asserted.reset name).setOwner rfl⟩

end Rules

/-! ### The stages around the upload -/

theorem frees_aside (buffers : List Buffer) :
    ∀ call ∈ buffers.map Call.free, call.receiver = none ∧ call.uploads = false := by
  intro call member
  obtain ⟨buffer, -, rfl⟩ := List.mem_map.mp member
  exact ⟨rfl, rfl⟩

theorem perform_frees (buffers : List Buffer) : Aside (perform (buffers.map .free) : Cpp H Unit) :=
  perform_aside (frees_aside buffers)

theorem errorCodeFree_aside (code : ErrorCode) : Aside (perform (errorCodeFree code) : Cpp H Unit) := by
  rw [errorCodeFree_eq]
  exact perform_frees _

theorem append_aside (script : HostScript) (count : Nat) (key value : String) :
    Aside (append script .fields count key value : Cpp H String) := by
  refine (host_aside rfl rfl).bind fun _ => ?_
  split
  · exact Aside.pure _
  · exact Aside.pure _

theorem appendEach_aside (script : HostScript) (pairs : List (String × String)) (count : Nat) :
    Aside (appendEach script .fields count pairs : Cpp H String) := by
  induction pairs generalizing count with
  | nil => exact Aside.pure _
  | cons pair rest ih =>
    refine (append_aside script count pair.1 pair.2).bind fun headerError => ?_
    split
    · exact ih (count + 1)
    · exact Aside.pure _

theorem appendHeaders_aside (db : DuckDB H) (bearerToken : String) (script : HostScript) (headers : H) :
    Aside (appendHeaders db bearerToken script headers .fields) := by
  refine (appendEach_aside script (db.pairs headers) 0).bind fun headerError => ?_
  split
  · exact append_aside script _ _ _
  · exact Aside.pure _

theorem setTarget_aside (script : HostScript) (method : Method) (parsed : ParsedUrl) :
    Aside (setTarget script method parsed .request : Cpp H Bool) := by
  refine (ask_aside rfl rfl).bind fun accepted => ?_
  split
  · refine (ask_aside rfl rfl).bind fun accepted => ?_
    split
    · refine (ask_aside rfl rfl).bind fun accepted => ?_
      split
      · exact ask_aside rfl rfl
      · exact Aside.pure _
    · exact Aside.pure _
  · exact Aside.pure _

theorem takeBody_aside (db : DuckDB H) (script : HostScript) (url : String) (bodyData : Option Bytes) :
    Aside (takeBody db script url bodyData .request) := by
  cases bodyData with
  | none => exact Aside.pure ()
  | some body =>
    refine (ask_aside rfl rfl).bind fun accepted => ?_
    split
    · exact moveAssign_aside .outBody
    · exact Aside.ret _

theorem describe_aside (serr : StreamError) : Aside (describe serr : Cpp H Unit) := by
  cases serr with
  | closed => exact Aside.pure ()
  | lastOperationFailed debug =>
    refine (host_aside rfl rfl).bind fun _ => Aside.bind ?_ fun _ => ?_
    · rw [stringFree_eq]
      exact perform_frees _
    · exact perform_frees []

theorem insertEach_aside (db : DuckDB H) (headers : H) (entries : List (String × String)) :
    Aside (insertEach db headers entries) := by
  induction entries generalizing headers with
  | nil => exact Aside.pure _
  | cons entry rest ih =>
    refine (perform_aside ?_).bind fun _ => ih _
    simp [Call.receiver, Call.uploads]

theorem readHead_aside (db : DuckDB H) (script : HostScript) (url : String) :
    Aside (readHead db script url .incoming) := by
  refine (host_aside rfl rfl).bind fun _ => (host_aside rfl rfl).bind fun _ => Aside.declare rfl ?_
  have filled : Aside
      (do
        borrow .rh fun brh => host brh (.fieldsEntries script.entries)
        let headers ← insertEach db db.emptyHeaders script.entries
        return { status := script.status, url, reason := db.statusMessage script.status, headers } :
          Cpp H (HTTPResponse H)) :=
    (Aside.borrow (host_aside rfl rfl)).bind fun _ => (insertEach_aside db _ _).bind fun _ => Aside.pure _
  intro sent
  refine Block.Spec.scope (Sends sent) (fun _ sends => sends) ((filled sent).weaken (fun _ sends => sends) ?_)
  rintro exit world ⟨after, same, sends⟩
  refine ⟨after, same, sends.make ?_⟩
  rw [entriesFree_eq]
  exact frees_aside _

theorem consult_aside (responseHandler : Option (ResponseHandler H)) (resp : HTTPResponse H) :
    Aside (consult responseHandler resp) := by
  cases responseHandler with
  | none => exact Aside.pure ()
  | some handler =>
    refine Aside.tryCatch ?_ fun what => ?_
    · refine (perform_aside (by simp [Call.receiver, Call.uploads])).bind fun _ => ?_
      split
      · exact Aside.pure ()
      · exact Aside.ret _
      · exact Aside.throw _
    · split
      · exact Aside.ret _
      · exact Aside.throw _

theorem deliver_aside (contentHandler : Option ContentHandler) (given : List Bytes) (chunk body : Bytes) :
    Aside (deliver contentHandler given chunk body : Cpp H Bytes) := by
  unfold deliver
  split
  · exact Aside.pure _
  · split
    · exact Aside.pure _
    · refine (perform_aside (by simp [Call.receiver, Call.uploads])).bind fun _ => ?_
      split
      · exact Aside.pure _
      · exact Aside.throw _

theorem readEach_aside (script : HostScript) (contentHandler : Option ContentHandler) (reads given : List Bytes)
    (body : Bytes) : Aside (readEach script contentHandler .stream reads given body : Cpp H (String × Bytes)) := by
  induction reads generalizing given body with
  | nil =>
    refine (host_aside rfl rfl).bind fun _ => (describe_aside _).bind fun _ => ?_
    split
    · exact Aside.pure _
    · exact Aside.pure _
  | cons chunk reads ih =>
    refine (host_aside rfl rfl).bind fun _ => (deliver_aside contentHandler given chunk body).bind fun body => ?_
    rw [listU8Free_eq]
    exact (perform_frees _).bind fun _ => ih _ body

theorem readBody_aside (db : DuckDB H) (script : HostScript) (url : String) (contentHandler : Option ContentHandler)
    (resp : HTTPResponse H) : Aside (readBody db script url contentHandler resp .incoming) := by
  refine (ask_aside rfl rfl).bind fun consumed => ?_
  split
  · refine Aside.declare rfl ((Aside.borrow (ask_aside rfl rfl)).bind fun streamed => ?_)
    split
    · refine Aside.declare rfl (Aside.borrow ((readEach_aside script contentHandler _ _ _).bind fun result => ?_))
      split
      · exact Aside.pure _
      · exact Aside.pure _
    · exact Aside.ret _
  · exact Aside.ret _

theorem gotFree_aside (got : Option Got) : ∀ call ∈ gotFree got, call.receiver = none ∧ call.uploads = false := by
  unfold gotFree
  split
  · intro call member
    rw [List.mem_singleton.mp member]
    exact ⟨rfl, rfl⟩
  · rw [errorCodeFree_eq]
    exact frees_aside _
  · exact fun call member => absurd member List.not_mem_nil

/-- Waiting for the response and reading it sends nothing more. -/
theorem respond_aside (db : DuckDB H) (script : HostScript) (url : String) (method : Method)
    (contentHandler : Option ContentHandler) (responseHandler : Option (ResponseHandler H)) :
    Aside (respond db script url method contentHandler responseHandler) := by
  refine Aside.borrow ((host_aside rfl rfl).bind fun _ => Aside.declare rfl ?_)
  refine (Aside.borrow (host_aside rfl rfl)).bind fun _ => (host_aside rfl rfl).bind fun _ => ?_
  split
  · refine Aside.declare rfl (Aside.borrow ((readHead_aside db script url).bind fun resp => ?_))
    refine (consult_aside responseHandler resp).bind fun _ => ?_
    split
    · exact Aside.ret _
    · exact (readBody_aside db script url contentHandler resp).bind fun _ => Aside.ret _
  · exact (perform_aside (gotFree_aside _)).bind fun _ => Aside.ret _

end WasiWheels.Transport
