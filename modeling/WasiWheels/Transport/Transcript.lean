import WasiWheels.Transport.Memory

/-! The transcript of a block: how it ends and the calls it makes, which the
arguments, the host's answers and the handlers determine alone. -/

namespace WasiWheels.Transport

variable {H α β : Type}

/-- The block ends by `exit` having made the calls `made`, whatever came before. -/
abbrev Emits (block : Cpp H α) (exit : Exit (HTTPResponse H) String α) (made : List Call) : Prop :=
  Block.Runs (fun world : World => calls world.trace) block exit made

theorem calls_append (first second : List Event) : calls (first ++ second) = calls first ++ calls second :=
  List.filterMap_append ..

theorem calls_made (made : List Call) : calls (made.map (.call · none)) = made := by
  induction made with
  | nil => rfl
  | cons call rest ih => simpa [calls, Event.call?] using ih

theorem calls_reset (name : Handle) (world : World) : calls (world.reset name).trace = calls world.trace := by
  unfold World.reset
  dsimp only
  split
  · simp [World.setOwner, World.record, calls, Event.call?]
  · rfl

theorem emits_host (self : Handle) (made : Call) : Emits (host self made : Cpp H Unit) (.fall ()) [made] :=
  Block.Runs.modify fun world => by simp [World.record, calls, Event.call?]

theorem emits_perform (made : List Call) : Emits (perform made : Cpp H Unit) (.fall ()) made :=
  Block.Runs.modify fun world => by rw [World.make, calls_append, calls_made]

theorem emits_declare {name : Handle} {owner : OwnHandle} {body : Cpp H α} {exit : Exit (HTTPResponse H) String α}
    {made : List Call} (inner : Emits body exit made) : Emits (declare name owner body) exit made := by
  have closed : Emits (declare name owner body) exit (made ++ []) :=
    Block.Runs.scope (fun _ => rfl) (fun world => by rw [calls_reset, List.append_nil]) inner
  exact closed.congr (List.append_nil made)

theorem emits_borrow {name : Handle} {body : Handle → Cpp H α} {exit : Exit (HTTPResponse H) String α}
    {made : List Call} (inner : ∀ handle, Emits (body handle) exit made) : Emits (borrow name body) exit made := by
  refine Block.Runs.read fun handle => ?_
  have closed : Emits (Block.scope (World.acquireBorrow name) (World.releaseBorrow name) (body handle)) exit (made ++ []) :=
    Block.Runs.scope (fun _ => rfl) (fun world => (List.append_nil _).symm) (inner handle)
  exact closed.congr (List.append_nil made)

theorem emits_release {name : Handle} {next : Handle → Cpp H β} {exit : Exit (HTTPResponse H) String β}
    {made : List Call} (rest : ∀ handle, Emits (next handle) exit made) : Emits (release name >>= next) exit made := by
  intro world
  exact rest (world.owners name).handle (world.markReleased name)

theorem emits_ask (self : Handle) (made : Bool → Call) (answer : Bool) :
    Emits (ask self made answer : Cpp H Bool) (.fall answer) [made answer] :=
  (emits_host self (made answer)).bind (Block.Runs.pure answer)

theorem emits_ask_true {self : Handle} {made : Bool → Call} {yes no : Cpp H α}
    {exit : Exit (HTTPResponse H) String α} {rest : List Call} (inner : Emits yes exit rest) :
    Emits (do if ← ask self made true then yes else no) exit ([made true] ++ rest) :=
  (emits_ask self made true).bind inner

theorem emits_ask_false {self : Handle} {made : Bool → Call} {yes no : Cpp H α}
    {exit : Exit (HTTPResponse H) String α} {rest : List Call} (inner : Emits no exit rest) :
    Emits (do if ← ask self made false then yes else no) exit ([made false] ++ rest) :=
  (emits_ask self made false).bind inner

theorem emits_moveAssign (name : Handle) (owner : OwnHandle) :
    Emits (Block.modify (World.moveAssign name owner) : Cpp H Unit) (.fall ()) [] := by
  refine Block.Runs.modify fun world => ?_
  change calls ((world.record (.dAssert (owner.outstandingBorrows == 0))).reset name).trace = _
  rw [calls_reset]
  simp [World.record, calls, Event.call?]

/-! ### Kinds of calls -/

/-- Calls that build the request; none of them sends it. -/
def Call.building : Call → Bool
  | .constructorFields | .fieldsAppend .. | .constructorOutgoingRequest => true
  | .setMethod .. | .setScheme .. | .setAuthority .. | .setPathWithQuery .. | .outgoingRequestBody _ => true
  | _ => false

/-- The host handed out an error resource. -/
def Call.raises (call : Call) : Bool := decide (call.produces = some .error)

/-- Calls after the dispatch. -/
def Call.later : Call → Bool
  | .outgoingHandlerHandle _ => false
  | call => !call.building

/-- The stream operation failed, rather than found its stream closed. -/
def StreamError.failed : StreamError → Bool
  | .lastOperationFailed _ => true
  | .closed => false

/-- The calls of `describe`. -/
def descriptions : StreamError → List Call
  | .lastOperationFailed debug => [.errorToDebugString debug] ++ stringFree debug
  | .closed => []

theorem describe_emits (serr : StreamError) : Emits (describe serr : Cpp H Unit) (.fall ()) (descriptions serr) := by
  cases serr with
  | closed => exact Block.Runs.pure ()
  | lastOperationFailed debug =>
    exact (emits_host .error _).bind ((emits_perform _).bind_silent (emits_perform []))

/-- Calls after the dispatch that hand out no error resource. -/
def Quiet (made : List Call) : Prop := made.all Call.later = true ∧ made.any Call.raises = false

theorem Quiet.nil : Quiet [] := ⟨rfl, rfl⟩

theorem Quiet.append {first second : List Call} (before : Quiet first) (after : Quiet second) :
    Quiet (first ++ second) := by
  refine ⟨?_, ?_⟩
  · rw [List.all_append, before.1, after.1]
    rfl
  · rw [List.any_append, before.2, after.2]
    rfl

theorem frees_quiet (buffers : List Buffer) : Quiet (buffers.map .free) := by
  induction buffers with
  | nil => exact Quiet.nil
  | cons buffer rest ih => exact (show Quiet [.free buffer] from ⟨rfl, rfl⟩).append ih

theorem stringFree_quiet (text : String) : Quiet (stringFree text) := by
  rw [stringFree_eq]
  exact frees_quiet _

theorem listU8Free_quiet (bytes : Bytes) : Quiet (listU8Free bytes) := by
  rw [listU8Free_eq]
  exact frees_quiet _

theorem descriptions_quiet (serr : StreamError) : Quiet (descriptions serr) := by
  cases serr with
  | closed => exact Quiet.nil
  | lastOperationFailed debug => exact Quiet.append ⟨rfl, rfl⟩ (stringFree_quiet debug)

theorem errorCodeFree_quiet (code : ErrorCode) : Quiet (errorCodeFree code) := by
  rw [errorCodeFree_eq]
  exact frees_quiet _

theorem gotFree_quiet (got : Option Got) : Quiet (gotFree got) := by
  unfold gotFree
  split
  · exact ⟨rfl, rfl⟩
  · exact errorCodeFree_quiet _
  · exact Quiet.nil

theorem entriesFree_quiet (entries : List (String × String)) : Quiet (entriesFree entries) := by
  rw [entriesFree_eq]
  exact frees_quiet _

end WasiWheels.Transport
