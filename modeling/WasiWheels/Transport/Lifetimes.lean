import WasiWheels.Transport.Building
import WasiWheels.Transport.Ownership

/-! Each stage of a request keeps the owners' assertion on every way out, and so
does the whole call, whatever the host answers and the handlers do. -/

namespace WasiWheels.Transport

variable {H : Type} {live borrowed loose : Finset Handle}

theorem frees_plain (buffers : List Buffer) : ∀ call ∈ buffers.map Call.free, call.produces = none := by
  intro call member
  obtain ⟨buffer, -, rfl⟩ := List.mem_map.mp member
  rfl

theorem stringFree_plain (text : String) : ∀ call ∈ stringFree text, call.produces = none := by
  rw [stringFree_eq]
  exact frees_plain _

theorem errorCodeFree_plain (code : ErrorCode) : ∀ call ∈ errorCodeFree code, call.produces = none := by
  rw [errorCodeFree_eq]
  exact frees_plain _

theorem gotFree_plain (got : Option Got) : ∀ call ∈ gotFree got, call.produces = none := by
  unfold gotFree
  split
  · intro call member
    rw [List.mem_singleton.mp member]
    rfl
  · exact errorCodeFree_plain _
  · exact fun call member => absurd member List.not_mem_nil

theorem listU8Free_plain (bytes : Bytes) : ∀ call ∈ listU8Free bytes, call.produces = none := by
  rw [listU8Free_eq]
  exact frees_plain _

theorem entriesFree_plain (entries : List (String × String)) :
    ∀ call ∈ entriesFree entries, call.produces = none := by
  rw [entriesFree_eq]
  exact frees_plain _

/-! ### Building the request -/

theorem ask_keeps {self : Handle} {made : Bool → Call} {answer : Bool} (owned : self ∈ live ∪ loose)
    (borrows : (made answer).consumes = false) (plain : (made answer).produces = none) :
    Keeps live borrowed loose (ask self made answer : Cpp H Bool) :=
  (host_falls owned borrows plain).keeps.andThen fun _ => Keeps.pure answer

theorem append_keeps (script : HostScript) {bf : Handle} (count : Nat) (key value : String)
    (owned : bf ∈ live ∪ loose) : Keeps live borrowed loose (append script bf count key value : Cpp H String) := by
  refine (host_falls owned rfl rfl).keeps.andThen fun _ => ?_
  split
  · exact Keeps.pure _
  · exact Keeps.pure _

theorem appendEach_keeps (script : HostScript) {bf : Handle} (owned : bf ∈ live ∪ loose)
    (pairs : List (String × String)) (count : Nat) :
    Keeps live borrowed loose (appendEach script bf count pairs : Cpp H String) := by
  induction pairs generalizing count with
  | nil => exact Keeps.pure _
  | cons pair rest ih =>
    refine (append_keeps script count pair.1 pair.2 owned).andThen fun headerError => ?_
    split
    · exact ih (count + 1)
    · exact Keeps.pure _

theorem appendHeaders_keeps (db : DuckDB H) (bearerToken : String) (script : HostScript) (headers : H) {bf : Handle}
    (owned : bf ∈ live ∪ loose) :
    Keeps live borrowed loose (appendHeaders db bearerToken script headers bf) := by
  refine (appendEach_keeps script owned (db.pairs headers) 0).andThen fun headerError => ?_
  split
  · exact append_keeps script _ _ _ owned
  · exact Keeps.pure _

theorem setTarget_keeps (script : HostScript) (method : Method) (parsed : ParsedUrl) {breq : Handle}
    (owned : breq ∈ live ∪ loose) :
    Keeps live borrowed loose (setTarget script method parsed breq : Cpp H Bool) := by
  refine (ask_keeps owned rfl rfl).andThen fun accepted => ?_
  split
  · refine (ask_keeps owned rfl rfl).andThen fun accepted => ?_
    split
    · refine (ask_keeps owned rfl rfl).andThen fun accepted => ?_
      split
      · exact ask_keeps owned rfl rfl
      · exact Keeps.pure _
    · exact Keeps.pure _
  · exact Keeps.pure _

/-! ### The request body -/

/-- The owner of the outgoing body, when the request has one. -/
def bodyOwner (hasBody : Bool) : Finset Handle := if hasBody then {.outBody} else ∅

theorem takeBody_through (db : DuckDB H) (script : HostScript) (url : String) (bodyData : Option Bytes) :
    Block.Spec (Owns {.request} {.request} ∅) (takeBody db script url bodyData .request)
      (Leaves (through (insert .request (bodyOwner bodyData.isSome)) {.request}) {.request}) := by
  cases bodyData with
  | none => exact Keeps.leaves (Keeps.pure ()) (Finset.Subset.refl _)
  | some body =>
    refine Falls.bind (ask_falls (by decide) rfl rfl rfl (by decide)) ?_
    cases script.body with
    | false => exact (Keeps.ret _).leaves (Finset.Subset.refl _)
    | true =>
      refine (moveAssign_falls (by decide) (by decide)).weaken (fun _ owns => owns) ?_
      rintro exit world ⟨rfl, owns⟩
      exact ⟨_, _, ⟨rfl, rfl⟩, owns.congr (Finset.pair_comm _ _) (by decide)⟩

/-! ### Failed stream operations -/

/-- The error resource of a failed stream operation is left without an owner. -/
def errorLeft : StreamError → Finset Handle
  | .lastOperationFailed _ => {.error}
  | .closed => ∅

def StreamError.resource : StreamError → Option Handle
  | .lastOperationFailed _ => some .error
  | .closed => none

theorem errorLeft_subset (serr : StreamError) : errorLeft serr ⊆ {.error} := by
  cases serr with
  | lastOperationFailed debug => exact Finset.Subset.refl _
  | closed => exact Finset.empty_subset _

theorem host_fails {self : Handle} {made : Call} (serr : StreamError) (owned : self ∈ live)
    (borrows : made.consumes = false) (fresh : .error ∉ live) (produced : made.produces = serr.resource) :
    Falls (Owns live borrowed ∅) (Owns live borrowed (errorLeft serr)) (host self made : Cpp H Unit) () := by
  have present : self ∈ live ∪ ∅ := Finset.mem_union_left ∅ owned
  cases serr with
  | closed => exact host_falls present borrows produced
  | lastOperationFailed debug => exact host_produces .error present borrows produced (by simpa using fresh)

theorem describe_falls (serr : StreamError) :
    Falls (Owns live borrowed (errorLeft serr)) (Owns live borrowed (errorLeft serr)) (describe serr : Cpp H Unit) () := by
  cases serr with
  | closed => exact fun world owns => ⟨rfl, owns⟩
  | lastOperationFailed debug =>
    have owned : Handle.error ∈ live ∪ {.error} := by simp
    refine (host_falls owned rfl rfl).andThen ?_
    refine (perform_falls (stringFree_plain debug)).andThen ?_
    exact perform_falls fun call member => absurd member List.not_mem_nil

/-! ### Streaming the request body -/

/-- A write loop that falls through leaves no error behind. -/
theorem writeEach_through (db : DuckDB H) (script : HostScript) (url : String) (body : Bytes) {bos : Handle}
    (owned : bos ∈ live) (fresh : .error ∉ live) (off count : Nat) :
    Block.Spec (Owns live borrowed ∅) (writeEach db script url body bos off count)
      (Leaves (through live live) borrowed) := by
  induction off, count using writeEach.induct body with
  | case1 off count more size ih =>
    rw [writeEach, if_pos more]
    cases answer : script.blockingWriteAndFlush count with
    | none =>
      exact (host_falls (Finset.mem_union_left ∅ owned) rfl rfl).bind ih
    | some serr =>
      refine Falls.bind (host_fails serr owned rfl fresh (by cases serr <;> rfl)) ?_
      exact (describe_falls serr).bind (ret_through _ (Finset.Subset.refl _) (errorLeft_subset serr))
  | case2 off count done =>
    rw [writeEach, if_neg done]
    exact (Keeps.pure ()).leaves (Finset.Subset.refl _)

/-- The output stream is dropped before the body is finished, and with it on
every way out. -/
theorem upload_through (db : DuckDB H) (script : HostScript) (url : String) (bodyData : Option Bytes) :
    Block.Spec (Owns (insert .future (bodyOwner bodyData.isSome)) {.request} ∅) (upload db script url bodyData)
      (Leaves (through {.future} (insert .future (bodyOwner bodyData.isSome))) {.request}) := by
  cases bodyData with
  | none => exact (Keeps.pure ()).leaves (Finset.Subset.refl _)
  | some body =>
    change Block.Spec (Owns {.future, .outBody} {.request} ∅) _ (Leaves (through {.future} {.future, .outBody}) _)
    refine (borrow_falls (by decide) (by decide) (ask_falls (by decide) rfl rfl rfl (by decide))).bind ?_
    cases script.write with
    | false => exact ret_through _ (Finset.Subset.refl _) (Finset.empty_subset _)
    | true =>
      have streamed : Block.Spec (Owns {.future, .outBody} {.request} {.outStream})
          (declare .outStream (.owning .outStream) do
            borrow .outStream fun bos => writeEach db script url body bos 0 0)
          (Leaves (through {.future, .outBody} {.future, .outBody}) {.request}) := by
        refine declare_through (by decide) (by decide) (by decide) (by decide) ?_
        refine borrow_leaves (by decide) (by decide) ?_
        exact writeEach_through db script url body (by decide) (by decide) 0 0
      refine Leaves.bind streamed (fun _ => ?_)
        (fun _ _ _ below atMost => ⟨below, atMost⟩) (fun _ _ _ below atMost => ⟨below, atMost⟩)
      refine (release_falls (by decide)).bind ?_
      refine (host_consumes (by decide) (by decide) (by decide) (by decide) rfl rfl).bind ?_
      cases script.finish with
      | none => exact Block.Spec.pure () fun world owns => ⟨_, _, ⟨rfl, rfl⟩, owns.congr (by decide) (by decide)⟩
      | some finErr =>
        exact (perform_falls (errorCodeFree_plain finErr)).bind (ret_through _ (by decide) (by decide))

/-! ### Reading the response -/

theorem insertEach_falls (db : DuckDB H) (headers : H) (entries : List (String × String)) :
    Falls (Owns live borrowed loose) (Owns live borrowed loose) (insertEach db headers entries)
      (entries.foldl (fun headers entry => db.insert headers entry.1 entry.2) headers) := by
  induction entries generalizing headers with
  | nil => exact fun world owns => ⟨rfl, owns⟩
  | cons entry rest ih =>
    refine (perform_falls ?_).andThen (ih _)
    intro call member
    rw [List.mem_singleton.mp member]
    rfl

theorem readHead_falls (db : DuckDB H) (script : HostScript) (url : String) :
    Falls (Owns {.incoming, .pollable, .future} {.incoming, .future, .request} ∅)
      (Owns {.incoming, .pollable, .future} {.incoming, .future, .request} ∅)
      (readHead db script url .incoming) (responseHead db script url) := by
  refine (host_falls (by decide) rfl rfl).andThen ?_
  refine (host_produces .rh (by decide) rfl rfl (by decide)).andThen ?_
  refine declare_falls (by decide) (by decide) (by decide) (by decide) ?_
  refine Block.Spec.scope _ (fun _ owns => owns) ?_
  have filled : Falls (Owns {.rh, .incoming, .pollable, .future} {.incoming, .future, .request} ∅)
      (Owns {.rh, .incoming, .pollable, .future} {.incoming, .future, .request} ∅)
      (do
        borrow .rh fun brh => host brh (.fieldsEntries script.entries)
        let headers ← insertEach db db.emptyHeaders script.entries
        return { status := script.status, url, reason := db.statusMessage script.status, headers })
      (responseHead db script url) := by
    refine Falls.andThen (borrow_falls (by decide) (by decide) (host_falls (by decide) rfl rfl)) ?_
    exact (insertEach_falls db _ _).andThen fun world owns => ⟨rfl, owns⟩
  exact filled.weaken (fun _ owns => owns) fun exit world fell => ⟨fell.1, fell.2.make (entriesFree_plain _)⟩

theorem consult_keeps (responseHandler : Option (ResponseHandler H)) (resp : HTTPResponse H) :
    Keeps live borrowed loose (consult responseHandler resp) := by
  cases responseHandler with
  | none => exact Keeps.pure _
  | some handler =>
    refine Block.Spec.tryCatch (?_ : Keeps live borrowed loose _) (fun what => ?_) (fun _ _ owns => owns)
      (fun _ _ owns => owns)
    · refine (perform_falls (by simp [Call.produces])).bind ?_
      cases handler resp with
      | returned goOn =>
        cases goOn with
        | true => exact Keeps.pure _
        | false => exact Keeps.ret _
      | threw what => exact Keeps.throw _
    · split
      · exact Keeps.ret _
      · exact Keeps.throw _

theorem deliver_keeps (contentHandler : Option ContentHandler) (given : List Bytes) (chunk body : Bytes) :
    Keeps live borrowed loose (deliver contentHandler given chunk body : Cpp H Bytes) := by
  unfold deliver
  split
  · exact Keeps.pure _
  · cases contentHandler with
    | none => exact Keeps.pure _
    | some handler =>
      refine (perform_falls (by simp [Call.produces])).keeps.andThen fun _ => ?_
      cases handler given chunk with
      | returned _ => exact Keeps.pure _
      | threw what => exact Keeps.throw _

/-- After the last read the error resource may be loose, whatever came before. -/
theorem readEach_within (script : HostScript) (contentHandler : Option ContentHandler) {bstream : Handle}
    (owned : bstream ∈ live) (fresh : .error ∉ live) (reads given : List Bytes) (body : Bytes) :
    Block.Spec (Owns live borrowed ∅) (readEach script contentHandler bstream reads given body : Cpp H (String × Bytes))
      (Leaves (within live) borrowed) := by
  induction reads generalizing given body with
  | nil =>
    refine (host_fails script.readEnd owned rfl fresh (by cases script.readEnd <;> rfl)).bind ?_
    refine (describe_falls script.readEnd).bind ?_
    have atMost := errorLeft_subset script.readEnd
    split
    · exact pure_within _ (Finset.Subset.refl _) atMost
    · exact pure_within _ (Finset.Subset.refl _) atMost
  | cons chunk reads ih =>
    refine (host_falls (Finset.mem_union_left ∅ owned) rfl rfl).bind ?_
    refine Leaves.bind ((deliver_keeps contentHandler given chunk body).leaves (Finset.Subset.refl _))
      (fun body => ?_) (fun _ _ _ below atMost => ⟨below, atMost⟩) (fun _ _ _ below atMost => ⟨below, atMost⟩)
    exact (perform_falls (listU8Free_plain chunk)).bind (ih _ body)

theorem readBody_within (db : DuckDB H) (script : HostScript) (url : String) (contentHandler : Option ContentHandler)
    (resp : HTTPResponse H) :
    Block.Spec (Owns {.incoming, .pollable, .future} {.incoming, .future, .request} ∅)
      (readBody db script url contentHandler resp .incoming)
      (Leaves (within {.incoming, .pollable, .future}) {.incoming, .future, .request}) := by
  refine (ask_falls (by decide) rfl rfl rfl (by decide)).bind ?_
  cases script.consume with
  | false => exact ret_within _ (Finset.Subset.refl _) (Finset.empty_subset _)
  | true =>
    refine declare_within (by decide) (by decide) (by decide) ?_
    refine (borrow_falls (by decide) (by decide) (ask_falls (by decide) rfl rfl rfl (by decide))).bind ?_
    cases script.stream with
    | false => exact ret_within _ (Finset.Subset.refl _) (Finset.empty_subset _)
    | true =>
      refine declare_within (by decide) (by decide) (by decide) ?_
      refine borrow_leaves (by decide) (by decide) ?_
      refine Leaves.andThen (readEach_within script contentHandler (by decide) (by decide) _ _ _) ?_
      intro result live loose below atMost
      split
      · exact pure_within _ below atMost
      · exact pure_within _ below atMost

/-- The response is dropped after everything taken from it, and the future last. -/
theorem respond_within (db : DuckDB H) (script : HostScript) (url : String) (method : Method)
    (contentHandler : Option ContentHandler) (responseHandler : Option (ResponseHandler H)) :
    Block.Spec (Owns {.future} {.request} ∅) (respond db script url method contentHandler responseHandler)
      (Leaves (within {.future}) {.request}) := by
  refine borrow_leaves (by decide) (by decide) ?_
  refine (host_produces .pollable (by decide) rfl rfl (by decide)).bind ?_
  refine declare_within (by decide) (by decide) (by decide) ?_
  have blocked : Falls (Owns {.pollable, .future} {.future, .request} ∅) (Owns {.pollable, .future} {.future, .request} ∅)
      (borrow .pollable fun bpoll => host bpoll .pollableBlock : Cpp H Unit) () :=
    borrow_falls (by decide) (by decide) (host_falls (by decide) rfl rfl)
  refine blocked.bind ?_
  have failed : ∀ got : Option Got, Block.Spec (Owns {.pollable, .future} {.future, .request} ∅)
      (do
        perform (gotFree got)
        Block.ret (fail db ("wasi:http request failed for '" ++ url ++ "'")) : Cpp H Unit)
      (Leaves (within {.pollable, .future}) {.future, .request}) := fun got =>
    (perform_falls (gotFree_plain got)).bind (ret_within _ (Finset.Subset.refl _) (Finset.empty_subset _))
  rcases answer : script.get with _ | _ | _ | ⟨⟨⟩⟩
  · exact (host_falls (by decide) rfl rfl).bind (failed none)
  · exact (host_falls (by decide) rfl rfl).bind (failed _)
  · exact (host_falls (by decide) rfl rfl).bind (failed _)
  · refine (host_produces .incoming (by decide) rfl rfl (by decide)).bind ?_
    refine declare_within (by decide) (by decide) (by decide) ?_
    refine borrow_leaves (by decide) (by decide) ?_
    refine (readHead_falls db script url).bind ?_
    refine Leaves.bind ((consult_keeps responseHandler _).leaves (Finset.Subset.refl _)) (fun _ => ?_)
      (fun _ _ _ below atMost => ⟨below, atMost⟩) (fun _ _ _ below atMost => ⟨below, atMost⟩)
    split
    · exact ret_within _ (Finset.Subset.refl _) (Finset.empty_subset _)
    · refine Leaves.andThen (readBody_within db script url contentHandler _) ?_
      exact fun _ _ _ below atMost => ret_within _ below atMost

/-! ### The whole request -/

theorem dispatch_within (db : DuckDB H) (script : HostScript) (url : String) (method : Method)
    (bodyData : Option Bytes) (contentHandler : Option ContentHandler)
    (responseHandler : Option (ResponseHandler H)) :
    Block.Spec (Owns (insert .request (bodyOwner bodyData.isSome)) {.request} ∅)
      (dispatch db script url method bodyData contentHandler responseHandler)
      (Leaves (within (bodyOwner bodyData.isSome)) {.request}) := by
  have out : ∀ hasBody, Handle.request ∉ bodyOwner hasBody := by decide
  have childless : ∀ hasBody, ∀ child ∈ bodyOwner hasBody ∪ {.request}, child.parent ≠ some .request := by decide
  have fresh : ∀ hasBody, Handle.future ∉ bodyOwner hasBody ∪ {.request} := by decide
  have childless' : ∀ hasBody, ∀ child ∈ insert .future (bodyOwner hasBody) ∪ {.error}, child.parent ≠ some .future := by
    decide
  have only : ∀ hasBody, {.future} ⊆ insert .future (bodyOwner hasBody) := by decide
  refine (release_falls (Finset.mem_insert_self _ _)).bind ?_
  rw [Finset.erase_insert (out _)]
  cases answer : script.handle with
  | some sendErr =>
    refine (host_consumes (out _) (by decide) (childless _) (by decide) rfl rfl).bind ?_
    refine (perform_falls (errorCodeFree_plain sendErr)).bind ?_
    exact ret_within _ (Finset.Subset.refl _) (by decide)
  | none =>
    refine (host_exchanges .future (out _) (by decide) (childless _) (by decide) rfl rfl (fresh _)).bind ?_
    refine declare_within (by decide) (by decide) (childless' _) ?_
    refine Leaves.bind (upload_through db script url bodyData) (fun _ => ?_)
      (fun _ _ _ below atMost => ⟨below, atMost⟩) (fun _ _ _ below atMost => ⟨below, atMost⟩)
    refine (respond_within db script url method contentHandler responseHandler).weaken (fun _ owns => owns) ?_
    rintro exit world ⟨live, loose, ⟨below, atMost⟩, owns⟩
    exact ⟨live, loose, ⟨below.trans (only _), atMost⟩, owns⟩

/-- From the accepted request on: the outgoing body, if any, is the last owner
declared before the dispatch. -/
theorem prepared_within (db : DuckDB H) (script : HostScript) (url : String) (method : Method)
    (bodyData : Option Bytes) (contentHandler : Option ContentHandler)
    (responseHandler : Option (ResponseHandler H)) :
    Block.Spec (Owns {.request} {.request} ∅)
      (declare .outBody (.empty .outBody) do
        takeBody db script url bodyData .request
        dispatch db script url method bodyData contentHandler responseHandler)
      (Leaves (within {.request}) {.request}) := by
  have below : ∀ hasBody, bodyOwner hasBody ⊆ {.outBody, .request} := by decide
  have childless : ∀ child ∈ ({.outBody, .request} : Finset Handle) ∪ {.error}, child.parent ≠ some .outBody := by decide
  refine declareEmpty_leaves (within {.outBody, .request}) (by decide) (by decide) (by decide) ?_ ?_ ?_
  · refine Leaves.bind (takeBody_through db script url bodyData) (fun _ => ?_)
      (fun _ _ _ inside atMost => ⟨inside.trans (by decide), atMost⟩)
      (fun _ _ _ inside atMost => ⟨inside.trans (by decide), atMost⟩)
    refine (dispatch_within db script url method bodyData contentHandler responseHandler).weaken
      (fun _ owns => owns) ?_
    rintro exit world ⟨live, loose, ⟨inside, atMost⟩, owns⟩
    exact ⟨live, loose, ⟨inside.trans (below _), atMost⟩, owns⟩
  · rintro exit live loose ⟨inside, atMost⟩
    refine ⟨fun member => by simpa using atMost member, fun child member => ?_⟩
    exact childless child (Finset.union_subset_union inside atMost member)
  · rintro exit live loose ⟨inside, atMost⟩
    exact ⟨Finset.subset_insert_iff.mp inside, atMost⟩

/-- A request ends with every owner's handle off the table. -/
theorem request_within (db : DuckDB H) (bearerToken : String) (script : HostScript) (url : String) (method : Method)
    (headers : H) (bodyData : Option Bytes) (contentHandler : Option ContentHandler)
    (responseHandler : Option (ResponseHandler H)) :
    Block.Spec (Owns ∅ ∅ ∅)
      (request db bearerToken script url method headers bodyData contentHandler responseHandler)
      (Leaves (within ∅) ∅) := by
  have made : Falls (Owns ∅ ∅ ∅) (Owns ∅ ∅ {.fields}) (perform [.constructorFields] : Cpp H Unit) () :=
    fun world owns => ⟨rfl, Owns.record owns rfl (by simp) (by decide)⟩
  refine made.bind ?_
  refine declare_within (by decide) (by decide) (by decide) ?_
  have appended : Keeps {.fields} ∅ ∅ (borrow .fields fun bf => appendHeaders db bearerToken script headers bf) :=
    borrow_keeps (by decide) (by decide) (appendHeaders_keeps db bearerToken script headers (by decide))
  refine Leaves.bind (appended.leaves (Finset.Subset.refl _)) (fun headerError => ?_)
    (fun _ _ _ below atMost => ⟨below, atMost⟩) (fun _ _ _ below atMost => ⟨below, atMost⟩)
  split
  · exact ret_within _ (Finset.Subset.refl _) (Finset.empty_subset _)
  refine (release_falls (by decide)).bind ?_
  refine (host_exchanges .request (by decide) (by decide) (by decide) (by decide) rfl rfl (by decide)).bind ?_
  have sending : Block.Spec (Owns ∅ ∅ {.request})
      (declare .request (.owning .request) do
        borrow .request fun breq => do
          if ← setTarget script method (parseUrl url) breq then
            declare .outBody (.empty .outBody) do
              takeBody db script url bodyData breq
              dispatch db script url method bodyData contentHandler responseHandler
          else Block.ret (fail db ("wasi:http: failed to build outgoing request for '" ++ url ++ "'")))
      (Leaves (within ∅) ∅) := by
    refine declare_within (by decide) (by decide) (by decide) ?_
    refine borrow_leaves (by decide) (by decide) ?_
    refine Leaves.bind ((setTarget_keeps script method (parseUrl url) (by decide)).leaves (Finset.Subset.refl _))
      (fun accepted => ?_) (fun _ _ _ below atMost => ⟨below, atMost⟩) (fun _ _ _ below atMost => ⟨below, atMost⟩)
    split
    · exact prepared_within db script url method bodyData contentHandler responseHandler
    · exact ret_within _ (Finset.Subset.refl _) (Finset.empty_subset _)
  refine sending.weaken (fun _ owns => owns) ?_
  rintro exit world ⟨live, loose, ⟨below, atMost⟩, owns⟩
  exact ⟨live, loose, ⟨below.trans (Finset.empty_subset _), atMost⟩, owns⟩

theorem acquire_mem_iff (trace : List Event) (handle : Handle) :
    .acquire handle ∈ handleActions trace ↔ ∃ call ∈ calls trace, call.produces = some handle := by
  induction trace with
  | nil => simp [handleActions, calls]
  | cons event rest ih =>
    rw [handleActions, List.flatMap_cons, List.mem_append, ← handleActions, ih]
    cases event with
    | call made self =>
      have acts : HandleAction.acquire handle ∈ (Event.call made self).actions ↔ made.produces = some handle := by
        cases produced : made.produces with
        | none => cases self <;> cases taken : made.consumes <;> simp [Event.actions, produced, taken]
        | some given =>
          rw [Option.some_inj, eq_comm]
          cases self <;> cases taken : made.consumes <;> simp [Event.actions, produced, taken]
      simp [acts, calls, Event.call?]
    | drop handle => simp [Event.actions, calls, Event.call?]
    | dAssert holds => simp [Event.actions, calls, Event.call?]

/-- What a wasi:http host traps on does not happen, and no assertion fires. -/
structure Lawful (trace : List Event) : Prop where
  owned : ∀ before action later handle, handleActions trace = before ++ action :: later →
    (action = .use handle ∨ action = .release handle) →
    before.count (.acquire handle) = before.count (.release handle) + 1
  children : ∀ before later parent child, handleActions trace = before ++ .release parent :: later →
    child.parent = some parent → before.count (.release child) = before.count (.acquire child)
  asserted : ∀ event ∈ trace, event ≠ .dAssert false

theorem Owns.lawful {world : World} (owns : Owns live borrowed loose world) : Lawful world.trace where
  owned := by
    intro before action later handle same given
    have lawful := owns.table
    rw [same] at lawful
    exact Ledger.lawful_owned lawful given
  children := by
    intro before later parent child same inside
    have lawful := owns.table
    rw [same] at lawful
    exact Ledger.lawful_children lawful inside
  asserted := owns.asserted

/-- A request is over with nothing in an owner's hands. -/
theorem Exchange.ends (exchange : Exchange H) : ∃ loose ⊆ {.error}, Owns ∅ ∅ loose (exchange.block {}).2 := by
  obtain ⟨live, loose, ⟨below, atMost⟩, owns⟩ := request_within exchange.db exchange.bearerToken exchange.script
    exchange.url exchange.method exchange.headers exchange.bodyData exchange.contentHandler exchange.responseHandler
    {} Owns.initial
  obtain rfl := Finset.subset_empty.mp below
  exact ⟨loose, atMost, owns⟩

/-- Whatever the host answers and the handlers do, on every way out. -/
theorem Exchange.never_traps (exchange : Exchange H) : Lawful exchange.trace := by
  obtain ⟨loose, -, owns⟩ := exchange.ends
  exact owns.lawful

end WasiWheels.Transport
