import WasiWheels.Adapters.Returns

/-! Calls of the adapters one after another, in a guest whose heap and stack are shared by
all of them. -/

namespace WasiWheels.Adapters

open Wit

/-- The imported functions that answer into a return area, in the order of their adapters. -/
inductive Import where
  | pollPoll | errorToDebugString | inputStreamRead | inputStreamBlockingRead | inputStreamSkip
  | inputStreamBlockingSkip | outputStreamCheckWrite | outputStreamWrite | outputStreamBlockingWriteAndFlush
  | outputStreamFlush | outputStreamBlockingFlush | outputStreamWriteZeroes | outputStreamBlockingWriteZeroesAndFlush
  | outputStreamSplice | outputStreamBlockingSplice | httpErrorCode | fieldsFromList | fieldsGet | fieldsSet
  | fieldsDelete | fieldsAppend | fieldsEntries | incomingRequestMethod | incomingRequestPathWithQuery
  | incomingRequestScheme | incomingRequestAuthority | incomingRequestConsume | outgoingRequestBody
  | outgoingRequestMethod | outgoingRequestPathWithQuery | outgoingRequestScheme | outgoingRequestAuthority
  | requestOptionsConnectTimeout | requestOptionsFirstByteTimeout | requestOptionsBetweenBytesTimeout
  | incomingResponseConsume | incomingBodyStream | futureTrailersGet | outgoingResponseBody | outgoingBodyWrite
  | outgoingBodyFinish | futureIncomingResponseGet | outgoingHandlerHandle
  deriving DecidableEq, Repr

structure Entry where
  {type : Ty}
  {C V : Type}
  adapter : Adapter type C V

def entryOf : Import → Entry
  | .pollPoll => ⟨pollPoll⟩
  | .errorToDebugString => ⟨errorToDebugString⟩
  | .inputStreamRead => ⟨inputStreamRead⟩
  | .inputStreamBlockingRead => ⟨inputStreamBlockingRead⟩
  | .inputStreamSkip => ⟨inputStreamSkip⟩
  | .inputStreamBlockingSkip => ⟨inputStreamBlockingSkip⟩
  | .outputStreamCheckWrite => ⟨outputStreamCheckWrite⟩
  | .outputStreamWrite => ⟨outputStreamWrite⟩
  | .outputStreamBlockingWriteAndFlush => ⟨outputStreamBlockingWriteAndFlush⟩
  | .outputStreamFlush => ⟨outputStreamFlush⟩
  | .outputStreamBlockingFlush => ⟨outputStreamBlockingFlush⟩
  | .outputStreamWriteZeroes => ⟨outputStreamWriteZeroes⟩
  | .outputStreamBlockingWriteZeroesAndFlush => ⟨outputStreamBlockingWriteZeroesAndFlush⟩
  | .outputStreamSplice => ⟨outputStreamSplice⟩
  | .outputStreamBlockingSplice => ⟨outputStreamBlockingSplice⟩
  | .httpErrorCode => ⟨httpErrorCode⟩
  | .fieldsFromList => ⟨fieldsFromList⟩
  | .fieldsGet => ⟨fieldsGet⟩
  | .fieldsSet => ⟨fieldsSet⟩
  | .fieldsDelete => ⟨fieldsDelete⟩
  | .fieldsAppend => ⟨fieldsAppend⟩
  | .fieldsEntries => ⟨fieldsEntries⟩
  | .incomingRequestMethod => ⟨incomingRequestMethod⟩
  | .incomingRequestPathWithQuery => ⟨incomingRequestPathWithQuery⟩
  | .incomingRequestScheme => ⟨incomingRequestScheme⟩
  | .incomingRequestAuthority => ⟨incomingRequestAuthority⟩
  | .incomingRequestConsume => ⟨incomingRequestConsume⟩
  | .outgoingRequestBody => ⟨outgoingRequestBody⟩
  | .outgoingRequestMethod => ⟨outgoingRequestMethod⟩
  | .outgoingRequestPathWithQuery => ⟨outgoingRequestPathWithQuery⟩
  | .outgoingRequestScheme => ⟨outgoingRequestScheme⟩
  | .outgoingRequestAuthority => ⟨outgoingRequestAuthority⟩
  | .requestOptionsConnectTimeout => ⟨requestOptionsConnectTimeout⟩
  | .requestOptionsFirstByteTimeout => ⟨requestOptionsFirstByteTimeout⟩
  | .requestOptionsBetweenBytesTimeout => ⟨requestOptionsBetweenBytesTimeout⟩
  | .incomingResponseConsume => ⟨incomingResponseConsume⟩
  | .incomingBodyStream => ⟨incomingBodyStream⟩
  | .futureTrailersGet => ⟨futureTrailersGet⟩
  | .outgoingResponseBody => ⟨outgoingResponseBody⟩
  | .outgoingBodyWrite => ⟨outgoingBodyWrite⟩
  | .outgoingBodyFinish => ⟨outgoingBodyFinish⟩
  | .futureIncomingResponseGet => ⟨futureIncomingResponseGet⟩
  | .outgoingHandlerHandle => ⟨outgoingHandlerHandle⟩

/-- What a host answers to an import. -/
structure Exchange where
  function : Import
  value : Data .lists (entryOf function).type

/-- What the caller of an adapter has in the end. -/
structure Outcome where
  function : Import
  value : (entryOf function).V

def Exchange.meant (exchange : Exchange) : Outcome :=
  ⟨exchange.function, (entryOf exchange.function).adapter.value exchange.value⟩

/-- A call: the frame of the adapter, the host's answer, what the adapter lifts before its frame
is gone, and what its caller reads and then frees. -/
def call (malloc stack : Malloc) (exchange : Exchange) (guest : Guest) : Option (Outcome × Guest) := do
  let adapter := (entryOf exchange.function).adapter
  let (area, guest) ← stack.call guest adapter.retArea
  let guest ← answer (cabiRealloc malloc) _ exchange.value area guest
  let struct ← adapter.lift guest.memory area
  let guest ← guest.free area
  let value ← adapter.follow guest.memory struct
  let frees ← adapter.frees guest.memory struct
  let guest ← Guest.freeAll frees guest
  return (⟨exchange.function, value⟩, guest)

/-- The frame gone, what is left of the new rooms are those of the answer. -/
private theorem bases_perm (taken : List Room) (frame : Room) :
    (taken.map Room.base).Perm (((taken ++ [frame]).eraseP (·.base == frame.base)).map Room.base) := by
  have erased := (List.perm_append_comm : (taken.map Room.base ++ [frame.base]).Perm _).erase frame.base
  rw [List.singleton_append, List.erase_cons_head, List.erase_eq_eraseP'] at erased
  refine erased.symm.trans (List.Perm.of_eq ?_)
  rw [← List.map_singleton, ← List.map_append, List.eraseP_map]
  rfl

/-- Once the host has answered, nothing goes wrong in the guest: the caller has the value that was
meant, and the rooms in use are those of before, with their bytes. -/
theorem call_answered (malloc stack : Malloc) {exchange : Exchange} {guest entered answered : Guest} {area : Nat}
    (frame : stack.call guest (entryOf exchange.function).adapter.retArea = some (area, entered))
    (answers : answer (cabiRealloc malloc) _ exchange.value area entered = some answered) :
    ∃ after, call malloc stack exchange guest = some (exchange.meant, after) ∧ after.rooms = guest.rooms ∧
      Set.EqOn after.memory guest.memory (covered guest.rooms) := by
  obtain ⟨rooms, kept⟩ := stack.takes frame
  have size := (entryOf exchange.function).adapter.retArea_eq
  rw [size] at rooms
  have pushed : Guest.Grown guest entered [⟨area, (entryOf exchange.function).type.size⟩] := ⟨rooms, kept⟩
  obtain ⟨spans, taken, frees, holds⟩ := answer_answered (cabiRealloc_serves malloc) (entryOf exchange.function).adapter.legal
    (rooms ▸ List.mem_cons_self) answers
  obtain ⟨struct, lifts, follows, gives⟩ := (entryOf exchange.function).adapter.received holds
  have whole : answered.rooms = (taken ++ [⟨area, (entryOf exchange.function).type.size⟩]) ++ guest.rooms := by
    rw [holds.rooms, rooms, List.append_assoc]
    rfl
  obtain ⟨returned, left, remain, same⟩ := Guest.free_eq whole (List.mem_append_right _ List.mem_cons_self)
  have order := holds.order.trans (bases_perm taken ⟨area, (entryOf exchange.function).type.size⟩)
  obtain ⟨after, freed, back, last⟩ := Guest.freeAll_eq remain order
  refine ⟨after, ?_, back, ?_⟩
  · simp only [call, frame, answers, lifts, left, same, follows, gives, freed, Option.bind_eq_bind, Option.bind_some]
    rfl
  · have away : covered guest.rooms ⊆ covered entered.rooms \ Memory.bytes area (entryOf exchange.function).type.size := by
      rw [Set.subset_sdiff, rooms]
      refine ⟨covered_subset (List.subset_cons_self _ _), pushed.disjoint.symm.mono_right ?_⟩
      rw [covered_singleton]
      exact subset_rfl
    rw [last, same]
    exact (holds.kept.mono away).trans kept

/-- The stack has no room for the frame of the adapter, or the host does not answer: the guest has
no room for a list of the answer, or the list does not fit any. -/
def Unserved (malloc stack : Malloc) (exchange : Exchange) (guest : Guest) : Prop :=
  ∀ area entered, stack.call guest (entryOf exchange.function).adapter.retArea = some (area, entered) →
    answer (cabiRealloc malloc) _ exchange.value area entered = none

/-- Nothing else makes a call fail. -/
theorem call_eq_none_iff (malloc stack : Malloc) {exchange : Exchange} {guest : Guest} :
    call malloc stack exchange guest = none ↔ Unserved malloc stack exchange guest := by
  constructor
  · intro failed area entered frame
    cases answers : answer (cabiRealloc malloc) _ exchange.value area entered with
    | none => rfl
    | some answered =>
      obtain ⟨after, called, -⟩ := call_answered malloc stack frame answers
      rw [called] at failed
      cases failed
  · intro unserved
    cases frame : stack.call guest (entryOf exchange.function).adapter.retArea with
    | none => simp only [call, frame, Option.bind_eq_bind, Option.bind_none]
    | some entered =>
      simp only [call, frame, unserved entered.1 entered.2 frame, Option.bind_eq_bind, Option.bind_some, Option.bind_none]

theorem call_spec (malloc stack : Malloc) {exchange : Exchange} {guest after : Guest} {outcome : Outcome}
    (called : call malloc stack exchange guest = some (outcome, after)) :
    outcome = exchange.meant ∧ after.rooms = guest.rooms ∧ Set.EqOn after.memory guest.memory (covered guest.rooms) := by
  have parts := called
  simp only [call, Option.bind_eq_bind, Option.bind_eq_some_iff, Prod.exists] at parts
  obtain ⟨area, entered, frame, answered, answers, -⟩ := parts
  obtain ⟨ended, whole, back, kept⟩ := call_answered malloc stack frame answers
  obtain ⟨rfl, rfl⟩ := Prod.mk.inj (Option.some.inj (whole.symm.trans called))
  exact ⟨rfl, back, kept⟩

/-- Calls one after another. -/
def session (malloc stack : Malloc) : List Exchange → Guest → Option (List Outcome × Guest)
  | [], guest => some ([], guest)
  | exchange :: rest, guest => do
    let (outcome, guest) ← call malloc stack exchange guest
    let (outcomes, guest) ← session malloc stack rest guest
    return (outcome :: outcomes, guest)

theorem session_cons (malloc stack : Malloc) (exchange : Exchange) (rest : List Exchange) (guest : Guest) :
    session malloc stack (exchange :: rest) guest = (call malloc stack exchange guest).bind fun first =>
      (session malloc stack rest first.2).map fun others => (first.1 :: others.1, others.2) := by
  rw [session]
  cases call malloc stack exchange guest with
  | none => rfl
  | some first =>
    simp only [Option.bind_eq_bind, Option.bind_some]
    cases session malloc stack rest first.2 <;> rfl

theorem session_ended (malloc stack : Malloc) {exchanges : List Exchange} {guest after : Guest} {outcomes : List Outcome}
    (ran : session malloc stack exchanges guest = some (outcomes, after)) :
    outcomes = exchanges.map Exchange.meant ∧ after.rooms = guest.rooms ∧
      Set.EqOn after.memory guest.memory (covered guest.rooms) := by
  induction exchanges generalizing guest outcomes with
  | nil =>
    obtain ⟨rfl, rfl⟩ := Prod.mk.inj (Option.some.inj ran)
    exact ⟨rfl, rfl, Set.eqOn_refl _ _⟩
  | cons exchange rest ih =>
    rw [session_cons] at ran
    simp only [Option.bind_eq_some_iff, Option.map_eq_some_iff, Prod.exists, Prod.mk.injEq] at ran
    obtain ⟨outcome, middle, first, others, last, later, rfl, rfl⟩ := ran
    obtain ⟨rfl, rooms, kept⟩ := call_spec malloc stack first
    obtain ⟨rfl, back, keeps⟩ := ih later
    exact ⟨rfl, back.trans rooms, (keeps.mono (by rw [rooms])).trans kept⟩

theorem session_eq_none_iff (malloc stack : Malloc) {exchanges : List Exchange} {guest : Guest} :
    session malloc stack exchanges guest = none ↔ ∃ earlier exchange later outcomes reached,
      exchanges = earlier ++ exchange :: later ∧ session malloc stack earlier guest = some (outcomes, reached) ∧
        Unserved malloc stack exchange reached := by
  induction exchanges generalizing guest with
  | nil =>
    refine iff_of_false (Option.some_ne_none ([], guest)) ?_
    rintro ⟨earlier, exchange, later, -, -, split, -⟩
    exact absurd split.symm (List.append_ne_nil_of_right_ne_nil _ (List.cons_ne_nil _ _))
  | cons exchange rest ih =>
    cases called : call malloc stack exchange guest with
    | none =>
      refine iff_of_true ?_ ⟨[], exchange, rest, [], guest, rfl, rfl, (call_eq_none_iff malloc stack).mp called⟩
      rw [session_cons, called, Option.bind_none]
    | some first =>
      rw [session_cons, called, Option.bind_some, Option.map_eq_none_iff, ih]
      constructor
      · rintro ⟨earlier, other, later, outcomes, reached, rfl, ran, unserved⟩
        refine ⟨exchange :: earlier, other, later, first.1 :: outcomes, reached, rfl, ?_, unserved⟩
        rw [session_cons, called, Option.bind_some, ran, Option.map_some]
      · rintro ⟨earlier, other, later, outcomes, reached, split, ran, unserved⟩
        cases earlier with
        | nil =>
          obtain ⟨rfl, rfl⟩ := List.cons.inj split
          obtain ⟨-, rfl⟩ := Prod.mk.inj (Option.some.inj ran)
          rw [(call_eq_none_iff malloc stack).mpr unserved] at called
          cases called
        | cons head earlier =>
          obtain ⟨rfl, rfl⟩ := List.cons.inj split
          rw [session_cons, called, Option.bind_some, Option.map_eq_some_iff] at ran
          obtain ⟨⟨others, last⟩, before, ended⟩ := ran
          cases ended
          exact ⟨earlier, other, later, others, last, rfl, before, unserved⟩

/-- However many calls are made, in whatever order: each caller has the value its host meant, and in
the end the rooms in use are those of the beginning, with their bytes. The calls only end early at
one for which there is no stack or no answer. -/
theorem session_spec (malloc stack : Malloc) (exchanges : List Exchange) (guest : Guest) :
    (∀ outcomes after, session malloc stack exchanges guest = some (outcomes, after) →
      outcomes = exchanges.map Exchange.meant ∧ after.rooms = guest.rooms ∧
        Set.EqOn after.memory guest.memory (covered guest.rooms)) ∧
    (session malloc stack exchanges guest = none ↔ ∃ earlier exchange later outcomes reached,
      exchanges = earlier ++ exchange :: later ∧ session malloc stack earlier guest = some (outcomes, reached) ∧
        Unserved malloc stack exchange reached) :=
  ⟨fun _ _ => session_ended malloc stack, session_eq_none_iff malloc stack⟩

section Bump

/-- The first address past all rooms. -/
def top (rooms : List Room) : Nat := rooms.foldr (fun room rest => max (room.base + room.size) rest) 1024

theorem le_top {rooms : List Room} {room : Room} (inside : room ∈ rooms) : room.base + room.size ≤ top rooms := by
  induction rooms with
  | nil => cases inside
  | cons head rest ih =>
    rw [top, List.foldr_cons]
    rcases List.mem_cons.mp inside with rfl | later
    · exact Nat.le_max_left _ _
    · exact Nat.le_trans (ih later) (Nat.le_max_right _ _)

/-- An allocator that takes every room above the others. -/
def bump : Malloc where
  call guest size :=
    if fits : 0 < size ∧ alignTo (top guest.rooms) 8 + size ≤ 2 ^ 32 then
      some (alignTo (top guest.rooms) 8, { guest with
        rooms := ⟨alignTo (top guest.rooms) 8, size⟩ :: guest.rooms
        apart := List.pairwise_cons.mpr ⟨fun room inside => Set.disjoint_left.mpr fun address here there => by
          have below := le_top inside
          have above := le_alignTo (by decide : 0 < 8) (top guest.rooms)
          have lower := (Memory.mem_bytes.mp here).1
          have upper := (Memory.mem_bytes.mp there).2
          simp only at lower
          omega, guest.apart⟩
        addressable := List.forall_mem_cons.mpr ⟨fits, guest.addressable⟩ })
    else none
  takes answer := by
    split at answer
    · obtain ⟨rfl, rfl⟩ := Prod.mk.inj (Option.some.inj answer)
      exact ⟨rfl, Set.eqOn_refl _ _⟩
    · cases answer

/-- A guest with nothing in use. -/
def fresh : Guest := ⟨fun _ => 0, [], List.Pairwise.nil, fun _ inside => by cases inside⟩

/-- A DNS error with its two members. -/
def denied : Exchange :=
  ⟨.futureIncomingResponseGet, .inr (.inl (.inl (.inr (.inl (.inr (.inl
    (.inr (.inl [BitVec.ofNat 8 110, BitVec.ofNat 8 111]), .inr (.inl (BitVec.ofNat 16 3)), ())))))))⟩

/-- Two entries, one with an empty value. -/
def listed : Exchange :=
  ⟨.fieldsEntries, [([BitVec.ofNat 8 97], [BitVec.ofNat 8 98, BitVec.ofNat 8 99], ()), ([BitVec.ofNat 8 100], [], ())]⟩

theorem session_bump : ∃ outcomes after, session bump bump [denied, listed, denied] fresh = some (outcomes, after) ∧
    outcomes = [denied.meant, listed.meant, denied.meant] ∧ after.rooms = [] := by
  obtain ⟨⟨outcomes, after⟩, ran⟩ := Option.isSome_iff_exists.mp
    (by decide +kernel : (session bump bump [denied, listed, denied] fresh).isSome = true)
  obtain ⟨meant, rooms, -⟩ := (session_spec bump bump _ fresh).1 _ _ ran
  exact ⟨outcomes, after, ran, meant, rooms⟩

example : denied.meant = ⟨.futureIncomingResponseGet,
    some (.ok (.error (.dnsError ⟨some [110, 111], some (BitVec.ofNat 16 3)⟩)))⟩ := rfl

end Bump

end WasiWheels.Adapters
