import Mathlib.Data.Fintype.BigOperators
import WasiWheels.Core.Interleaved
import WasiWheels.Transport.Frees
import WasiWheels.Transport.Leaks

/-! Many requests in one process: one after the other, or one made by a handler of
another. They share the host's table of handles and the guest's heap. -/

namespace WasiWheels.Transport

variable {H : Type}

namespace Exchange

variable (exchange : Exchange H)

/-- The table a request leaves: the error of a failed stream operation, if there was one. -/
theorem table_left : ∃ table, Ledger.run Handle.parent ∅ (handleActions exchange.trace) = some table ∧
    ∀ handle, handle ∈ table ↔ handle = .error ∧ exchange.Raised := by
  obtain ⟨loose, atMost, owns⟩ := exchange.ends
  have held : Ledger.run Handle.parent ∅ (handleActions exchange.trace) = some loose :=
    owns.table.trans (congrArg some (Finset.empty_union loose))
  have errors : .error ∈ loose ↔ exchange.Raised := by
    have kept : (handleActions exchange.trace).count (.release .error) = 0 := List.count_eq_zero.mpr owns.kept
    have counted := Ledger.run_count held .error
    rw [kept, Nat.zero_add, if_neg (Finset.notMem_empty _), Nat.add_zero] at counted
    rw [← exchange.raised_iff, calls, raises_iff, ← List.count_pos_iff, ← counted]
    split <;> simp [*]
  refine ⟨loose, held, fun handle => ?_⟩
  constructor
  · intro member
    obtain rfl := Finset.mem_singleton.mp (atMost member)
    exact ⟨rfl, errors.mp member⟩
  · rintro ⟨rfl, raised⟩
    exact errors.mpr raised

/-- What a request leaves on the heap: the chunk its content handler threw at, if it did. -/
def Leftover (left : Multiset Buffer) : Prop :=
  ¬ exchange.Interrupted ∧ left = 0 ∨ exchange.Interrupted ∧ ∃ chunk, left = {.chunk chunk}

theorem heap_left (answered : ¬ exchange.Unanswered) :
    ∃ left, Heap.run 0 (heapActions exchange.calls) = some left ∧ exchange.Leftover left := by
  have settles := exchange.settles
  generalize exchange.calls = made at settles ⊢
  cases settles with
  | neat _ uninterrupted neat => exact ⟨0, neat.freed_all, .inl ⟨uninterrupted, rfl⟩⟩
  | wild unanswered _ => exact absurd unanswered answered
  | leaky chunk interrupted leaves => exact ⟨_, leaves 0, .inr ⟨interrupted, chunk, rfl⟩⟩

end Exchange

def Event.heapActions (event : Event) : List (HeapAction Buffer) := event.call?.toList.flatMap Call.heapActions

theorem heapActions_calls (trace : List Event) : heapActions (calls trace) = trace.flatMap Event.heapActions := by
  induction trace with
  | nil => rfl
  | cons event rest ih =>
    rw [List.flatMap_cons, ← ih]
    cases event with
    | call made self =>
      rw [Event.heapActions, Event.call?, Option.toList_some, List.flatMap_singleton]
      rfl
    | drop handle => rfl
    | dAssert holds => rfl

section Requests

variable {ι : Type} [DecidableEq ι]

/-- Every request contributes its own run, and nothing else is in the trace. -/
def Merged (exchanges : ι → Exchange H) (trace : List (ι × Event)) : Prop :=
  ∀ request, project request trace = (exchanges request).trace

/-- What the requests do with the host's table, each with handles of its own. -/
def tableActions (trace : List (ι × Event)) : List (HandleAction (ι × Handle)) :=
  (spread Event.actions trace).map fun entry => entry.2.of entry.1

/-- What they do with the one heap. -/
def bufferActions (trace : List (ι × Event)) : List (HeapAction Buffer) :=
  (spread Event.heapActions trace).map Prod.snd

variable {exchanges : ι → Exchange H} {trace : List (ι × Event)}

/-- A request made by a handler of another, which has come so far. -/
def nested (outer inner : Exchange H) (far : Nat) : List (Bool × Event) :=
  (outer.trace.take far).map (Prod.mk false) ++ inner.trace.map (Prod.mk true) ++ (outer.trace.drop far).map (Prod.mk false)

theorem merged_nested (outer inner : Exchange H) (far : Nat) :
    Merged (fun within => bif within then inner else outer) (nested outer inner far) := by
  intro within
  rw [nested, project_append, project_append]
  cases within with
  | false =>
    rw [project_map_self, project_map_self, project_map_other (by decide), List.append_nil, List.take_append_drop]
    rfl
  | true =>
    rw [project_map_self, project_map_other (by decide), project_map_other (by decide), List.nil_append, List.append_nil]
    rfl

theorem Merged.asserted (merged : Merged exchanges trace) {request : ι} {event : Event}
    (member : (request, event) ∈ trace) : event ≠ .dAssert false := by
  refine (exchanges request).never_traps.asserted event ?_
  rw [← merged request, project]
  exact List.mem_map.mpr ⟨(request, event), List.mem_filter.mpr ⟨member, decide_eq_true rfl⟩, rfl⟩

/-- However the requests come between one another, the host refuses none of their calls, no
assertion fires, and in the end the table holds the errors of those that raised one. -/
theorem Merged.table_shared (merged : Merged exchanges trace) :
    (∀ request event, (request, event) ∈ trace → event ≠ .dAssert false) ∧
      ∃ table, Ledger.run (parentOf Handle.parent) ∅ (tableActions trace) = some table ∧
        ∀ request handle, (request, handle) ∈ table ↔ handle = .error ∧ (exchanges request).Raised := by
  choose tables reached left using fun request => (exchanges request).table_left
  have each : ∀ request, Ledger.run Handle.parent ∅ (project request (spread Event.actions trace)) = some (tables request) := by
    intro request
    rw [project_spread, merged request]
    exact reached request
  have none : Shares (∅ : Finset (ι × Handle)) fun _ => ∅ := fun request handle => by simp
  obtain ⟨table, lawful, shares⟩ := run_interleaved none each
  refine ⟨fun request event => merged.asserted, table, lawful, fun request handle => ?_⟩
  rw [shares request handle, left request handle]

/-- A GET whose content handler, called after 18 events, makes a request of its own, and whose next read fails. -/
def nesting : Exchange (List (String × String)) :=
  { Exchange.cutShort with contentHandler := some fun _ _ => .returned true }

/-- The outer request's error is all that is left on the table. -/
theorem table_shared_nested : ∃ table,
    Ledger.run (parentOf Handle.parent) ∅ (tableActions (nested nesting Exchange.refusing 18)) = some table ∧
      ∀ request handle, (request, handle) ∈ table ↔ request = false ∧ handle = .error := by
  obtain ⟨-, table, lawful, left⟩ := (merged_nested nesting Exchange.refusing 18).table_shared
  have outer : nesting.Raised := nesting.raised_iff.mp (by decide)
  have inner : ¬ Exchange.refusing.Raised := fun raised => absurd (Exchange.refusing.raised_iff.mpr raised) (by decide)
  refine ⟨table, lawful, fun request handle => ?_⟩
  rw [left request handle]
  cases request with
  | false => exact ⟨fun held => ⟨rfl, held.1⟩, fun held => ⟨held.2, outer⟩⟩
  | true => exact ⟨fun held => absurd held.2 inner, fun held => absurd held.1 (by decide)⟩

/-- However they come between one another, as long as none is left unanswered every free is of
a buffer in use, and what stays allocated is the chunk of each request that was interrupted. -/
theorem Merged.heap_shared [Fintype ι] (merged : Merged exchanges trace)
    (answered : ∀ request, ¬ (exchanges request).Unanswered) :
    ∃ left : ι → Multiset Buffer, Heap.run 0 (bufferActions trace) = some (∑ request, left request) ∧
      ∀ request, (exchanges request).Leftover (left request) := by
  choose left reached kept using fun request => (exchanges request).heap_left (answered request)
  have each : ∀ request, Heap.run 0 (project request (spread Event.heapActions trace)) = some (left request) := by
    intro request
    rw [project_spread, merged request, ← heapActions_calls]
    exact reached request
  refine ⟨left, ?_, kept⟩
  have together := heap_interleaved each
  rwa [Finset.sum_const_zero] at together

theorem refusing_interrupted : Exchange.refusing.Interrupted where
  sent := {
    accepted := ⟨fun _ _ => rfl, rfl, rfl, rfl, rfl, fun _ => rfl⟩
    handled := rfl
    uploaded := fun _ given => nomatch given }
  answered := rfl
  wanted := ⟨by decide, fun _ given => nomatch given⟩
  consumed := rfl
  streamed := rfl
  throws := by
    refine ⟨_, rfl, ?_⟩
    rintro ⟨⟨value, returned⟩, -⟩
    cases returned

/-- The inner request's content handler throws, and its chunk is all that stays allocated. -/
theorem heap_shared_nested : ∃ chunk,
    Heap.run 0 (bufferActions (nested nesting Exchange.refusing 18)) = some {.chunk chunk} := by
  have answered : ∀ within, ¬ (bif within then Exchange.refusing else nesting).Unanswered := by
    rintro (_ | _) ⟨-, missing⟩ <;> cases missing
  obtain ⟨left, reached, kept⟩ := (merged_nested nesting Exchange.refusing 18).heap_shared answered
  have outer : ¬ nesting.Interrupted := by
    rintro ⟨-, -, -, -, -, handler, given, throws⟩
    obtain rfl := Option.some.inj given
    exact throws ⟨⟨true, rfl⟩, trivial⟩
  obtain ⟨-, nothing⟩ := (kept false).resolve_right fun both => outer both.1
  obtain ⟨-, chunk, stays⟩ := (kept true).resolve_left fun both => both.1 refusing_interrupted
  refine ⟨chunk, reached.trans ?_⟩
  rw [Fintype.sum_bool, stays, nothing, add_zero]

end Requests

end WasiWheels.Transport
