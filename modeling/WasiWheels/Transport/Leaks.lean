import WasiWheels.Transport.Delivery
import WasiWheels.Transport.Lifetimes

/-! Which requests give back everything they were given: all but those handed an
error resource, which no code drops. -/

namespace WasiWheels.Transport

variable {H : Type}

/-- Every handle received is dropped or consumed once for each time. -/
def Balanced (trace : List Event) : Prop :=
  ∀ handle, (handleActions trace).count (.release handle) = (handleActions trace).count (.acquire handle)

theorem raises_iff (trace : List Event) :
    (calls trace).any Call.raises = true ↔ .acquire .error ∈ handleActions trace := by
  simp [acquire_mem_iff, Call.raises]

/-- The table at the end of a request holds at most an error resource. -/
theorem Owns.balanced_iff {world : World} {loose : Finset Handle} (owns : Owns ∅ ∅ loose world)
    (atMost : loose ⊆ {.error}) : Balanced world.trace ↔ (calls world.trace).any Call.raises = false := by
  have counted := fun handle => Ledger.run_count owns.table handle
  simp only [Finset.empty_union, Finset.notMem_empty, if_false, Nat.add_zero] at counted
  have kept : (handleActions world.trace).count (.release .error) = 0 := List.count_eq_zero.mpr owns.kept
  constructor
  · intro balanced
    have none : (handleActions world.trace).count (.acquire .error) = 0 := (balanced .error).symm.trans kept
    exact Bool.eq_false_iff.mpr fun some => List.count_eq_zero.mp none ((raises_iff world.trace).mp some)
  · intro quiet handle
    by_cases same : handle = .error
    · subst same
      rw [kept]
      refine (List.count_eq_zero.mpr fun acquired => ?_).symm
      rw [(raises_iff world.trace).mpr acquired] at quiet
      cases quiet
    · have held : handle ∉ loose := fun member => same (Finset.mem_singleton.mp (atMost member))
      simpa [held] using counted handle

theorem building_raises {made : List Call} (building : made.all Call.building = true) :
    made.any Call.raises = false := by
  refine List.any_eq_false.mpr fun call member => ?_
  have built := List.all_eq_true.mp building call member
  cases call with
  | outgoingRequestBody accepted => cases accepted <;> simp [Call.raises, Call.produces]
  | blockingWriteAndFlush contents answer => cases built
  | blockingRead length answer => cases built
  | outgoingHandlerHandle answer => cases built
  | outgoingBodyWrite accepted => cases built
  | futureGet answer => cases built
  | responseConsume accepted => cases built
  | bodyStream accepted => cases built
  | _ => simp [Call.raises, Call.produces]

namespace Exchange

variable (exchange : Exchange H)

/-- A stream operation of the request is answered `last-operation-failed`. -/
def Raised : Prop :=
  (exchange.Accepted ∧ exchange.script.handle = none ∧ exchange.WriteFails) ∨
    (exchange.Drained ∧ exchange.script.readEnd.failed = true)

theorem sentCalls_raises : exchange.sentCalls.any Call.raises = false := by
  have handled : [Call.outgoingHandlerHandle none].any Call.raises = false := rfl
  rw [sentCalls, List.any_append, List.any_append, building_raises exchange.prepared_building, handled,
    exchange.uploads_quiet.2]
  rfl

theorem headedCalls_raises : exchange.headedCalls.any Call.raises = false := by
  have quiet := waiting_quiet.append (exchange.headCalls_quiet.append exchange.consultCalls_quiet)
  rw [headedCalls, List.any_append, exchange.sentCalls_raises, quiet.2]
  rfl

theorem bodyCalls_raises : exchange.bodyCalls.any Call.raises = exchange.script.readEnd.failed := by
  have consumed : [Call.responseConsume true].any Call.raises = false := rfl
  have streamed : [Call.bodyStream true].any Call.raises = false := rfl
  rw [bodyCalls, List.any_append, List.any_append, List.any_append, consumed, streamed, (reading_quiet _ _ _).2,
    lastRead, List.any_append, (descriptions_quiet _).2]
  cases exchange.script.readEnd <;> rfl

theorem Sent.unraised {exchange : Exchange H} (sent : exchange.Sent) : ¬ exchange.WriteFails := by
  rintro ⟨body, given, -, index, below, -, debug, failed⟩
  rw [(sent.uploaded body given).written index below] at failed
  cases failed

theorem raised_iff : exchange.calls.any Call.raises = true ↔ exchange.Raised := by
  have outcome := exchange.outcome
  generalize exchange.exit = exit at outcome
  generalize exchange.calls = made at outcome ⊢
  cases outcome with
  | refused refusal named building =>
    rw [building_raises building]
    exact iff_of_false Bool.false_ne_true fun raised =>
      raised.elim (fun written => refusal written.1) fun read => refusal read.1.accepted
  | @unsent text sendErr accepted answer =>
    have handed : [Call.outgoingHandlerHandle (some sendErr)].any Call.raises = false := rfl
    rw [List.any_append, List.any_append, building_raises exchange.prepared_building, handed,
      (errorCodeFree_quiet sendErr).2]
    refine iff_of_false Bool.false_ne_true fun raised => ?_
    have handled := raised.elim (fun written => written.2.1) fun read => read.1.handled
    rw [answer] at handled
    cases handled
  | cut accepted handled refusal named cutOff =>
    have handed : [Call.outgoingHandlerHandle none].any Call.raises = false := rfl
    rw [List.any_append, List.any_append, building_raises exchange.prepared_building, handed, Bool.false_or,
      Bool.false_or, cutOff.raises]
    refine ⟨fun failed => .inl ⟨accepted, handled, failed⟩, fun raised => ?_⟩
    exact raised.elim (fun written => written.2.2) fun read => absurd read.1.uploaded refusal
  | lost sent undrained unsuccessful quiet =>
    rw [List.any_append, exchange.sentCalls_raises, quiet.2]
    refine iff_of_false Bool.false_ne_true fun raised => ?_
    exact raised.elim (fun written => sent.unraised written.2.2) fun read => undrained read.1
  | stopped sent answered stops =>
    rw [exchange.headedCalls_raises]
    refine iff_of_false Bool.false_ne_true fun raised => ?_
    exact raised.elim (fun written => sent.unraised written.2.2) fun read => stops.unwanted read.1.wanted
  | drained drained =>
    rw [List.any_append, exchange.headedCalls_raises, exchange.bodyCalls_raises, Bool.false_or]
    refine ⟨fun failed => .inr ⟨drained, failed⟩, fun raised => ?_⟩
    exact raised.elim (fun written => absurd written.2.2 drained.sent.unraised) fun read => read.2

/-- A request gives back every handle unless a stream operation of it fails. -/
theorem leak_free_iff : Balanced exchange.trace ↔ ¬ exchange.Raised := by
  obtain ⟨loose, atMost, owns⟩ := exchange.ends
  have balanced : Balanced exchange.trace ↔ exchange.calls.any Call.raises = false := owns.balanced_iff atMost
  rw [balanced, ← exchange.raised_iff, Bool.not_eq_true]

/-- The error of the failed read is still owned when the request has ended. -/
theorem cutShort_unbalanced : ¬ Balanced cutShort.trace := by
  intro balanced
  exact absurd (balanced .error) (by decide)

end Exchange

end WasiWheels.Transport
